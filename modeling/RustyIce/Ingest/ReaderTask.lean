import RustyIce.Ingest.Icecast

/-
  The reader of an ingest as the task it is: a state that one
  read at a time moves on, with the chunks each read makes it
  send. Over a whole source it sends what `drainReader` does,
  and before that always a beginning of it.

  Main declarations:
    * `ReaderPhase`, `ReaderPhase.read`, `ReaderPhase.eof`
    * `ReaderPhase.feed`
    * `feed_eof`, `feed_isPrefix`
-/

------------------------------------------------------------
-- One Read
------------------------------------------------------------

namespace RustyIce

namespace Ingest

/-
  Where `drain_reader` stands: collecting a header's worth of
  bytes, skipping a tag, collecting what may open with a
  tagged frame, or past all of it.
-/
inductive ReaderPhase where
| heading (head : Bytes)
| skipping (toSkip : Nat)
| tagged (pending : Bytes)
| forwarding
deriving DecidableEq, Repr

namespace ReaderPhase

def start (codec : CodecId) : ReaderPhase :=
  if codec = .MP3 then .heading [] else .forwarding

/- The third phase of `strip_mp3_prefix`, and the fourth. -/
def atTag (pending : Bytes) : ReaderPhase × List Bytes :=
  if pending.length < 2048 then
    (.tagged pending, [])
  else
    (.forwarding, flushRemaining (stripXingInPlace pending))

/- The first phase, and how the second begins. -/
def atHead (head : Bytes) : ReaderPhase × List Bytes :=
  if head.length < 10 then
    (.heading head, [])
  else
    let id3Total := parseId3v2Total head
    if id3Total = 0 then
      atTag head
    else if id3Total ≤ head.length then
      atTag (head.drop id3Total)
    else
      (.skipping (id3Total - head.length), [])

/- The second phase, with `toSkip` bytes of the tag to come. -/
def atSkip
    (toSkip : Nat)
    (data : Bytes) : ReaderPhase × List Bytes :=
  if data.length ≤ toSkip then
    if toSkip - data.length = 0 then
      atTag []
    else
      (.skipping (toSkip - data.length), [])
  else
    atTag (data.drop toSkip)

/- A read that gave bytes, and what is sent on. -/
def read
    (phase : ReaderPhase)
    (data : Bytes) : ReaderPhase × List Bytes :=
  match phase with
  | .heading head => atHead (head ++ data)
  | .skipping toSkip => atSkip toSkip data
  | .tagged pending => atTag (pending ++ data)
  | .forwarding => (.forwarding, [data])

/- What the end of the source still makes it send. -/
def eof : ReaderPhase → List Bytes
| .heading head => flushRemaining head
| .skipping _ => []
| .tagged pending => flushRemaining (stripXingInPlace pending)
| .forwarding => []

/- Some reads in a row. -/
def feed
    (phase : ReaderPhase) :
    List Bytes → ReaderPhase × List Bytes
| [] => (phase, [])
| data :: rest =>
    let next := phase.read data
    let last := next.1.feed rest
    (last.1, next.2 ++ last.2)

end ReaderPhase

end Ingest

end RustyIce

------------------------------------------------------------
-- Reads In A Row
------------------------------------------------------------

namespace RustyIce

namespace Ingest

namespace ReaderPhase

variable {phase : ReaderPhase}
variable {front rest : List Bytes}

theorem feed_append
    (phase : ReaderPhase)
    (front rest : List Bytes) :
    phase.feed (front ++ rest) =
      (((phase.feed front).1.feed rest).1,
        (phase.feed front).2 ++
          ((phase.feed front).1.feed rest).2) := by
  induction front generalizing phase with
  | nil => simp [feed]
  | cons data front ih =>
      simp only [List.cons_append, feed, ih,
        List.append_assoc]

theorem feed_snoc
    (phase : ReaderPhase)
    (front : List Bytes)
    (data : Bytes) :
    phase.feed (front ++ [data]) =
      (((phase.feed front).1.read data).1,
        (phase.feed front).2 ++
          ((phase.feed front).1.read data).2) := by
  rw [feed_append]
  simp [feed]

/- All it sends over a source that ends behind these reads. -/
def whole
    (phase : ReaderPhase)
    (reads : List Bytes) : List Bytes :=
  (phase.feed reads).2 ++ (phase.feed reads).1.eof

@[simp] theorem whole_nil (phase : ReaderPhase) :
    phase.whole [] = phase.eof :=
  List.nil_append _

theorem whole_cons
    (phase : ReaderPhase)
    (data : Bytes)
    (rest : List Bytes) :
    phase.whole (data :: rest) =
      (phase.read data).2 ++ (phase.read data).1.whole rest := by
  simp [whole, feed]

end ReaderPhase

end Ingest

end RustyIce

------------------------------------------------------------
-- The Same As The Whole Prefix At Once
------------------------------------------------------------

namespace RustyIce

namespace Ingest

open ReaderPhase

/- What is left to send once the tag is over. -/
def fromTag
    (pending : Bytes)
    (reads : List Bytes) : List Bytes :=
  match fill 2048 pending reads with
  | (pending, none) =>
      flushRemaining (stripXingInPlace pending)
  | (pending, some reads) =>
      flushRemaining (stripXingInPlace pending) ++ reads

theorem fromTag_eq
    (pending : Bytes)
    (reads : List Bytes) :
    (match fill 2048 pending reads with
      | (pending, none) =>
          (flushRemaining (stripXingInPlace pending), [])
      | (pending, some reads) =>
          (flushRemaining (stripXingInPlace pending),
            reads)).1 ++
        (match fill 2048 pending reads with
      | (pending, none) =>
          (flushRemaining (stripXingInPlace pending), [])
      | (pending, some reads) =>
          (flushRemaining (stripXingInPlace pending),
            reads)).2 =
      fromTag pending reads := by
  unfold fromTag
  rcases fill 2048 pending reads with ⟨head, none | left⟩
  · exact List.append_nil _
  · rfl

theorem whole_forwarding (reads : List Bytes) :
    ReaderPhase.forwarding.whole reads = reads := by
  induction reads with
  | nil => exact whole_nil _
  | cons data rest ih =>
      rw [whole_cons, ReaderPhase.read, ih]
      rfl

/- By the read at which there is enough in hand. -/
theorem whole_atTag
    (pending : Bytes)
    (reads : List Bytes) :
    (atTag pending).2 ++ (atTag pending).1.whole reads =
      fromTag pending reads := by
  induction reads generalizing pending with
  | nil =>
      unfold atTag fromTag fill
      split_ifs with hShort
      · exact whole_nil _
      · simp only [whole_forwarding]
  | cons data rest ih =>
      unfold atTag fromTag fill
      split_ifs with hShort
      · rw [whole_cons, ReaderPhase.read, List.nil_append]
        exact ih (pending ++ data)
      · simp only [whole_forwarding]

theorem whole_skipping
    {toSkip : Nat}
    (hSome : toSkip ≠ 0)
    (reads : List Bytes) :
    (ReaderPhase.skipping toSkip).whole reads =
      match skip toSkip reads with
      | none => []
      | some (pending, reads) => fromTag pending reads := by
  induction reads generalizing toSkip with
  | nil =>
      rw [skip, if_neg hSome]
      exact whole_nil _
  | cons data rest ih =>
      rw [whole_cons, ReaderPhase.read, atSkip, skip, if_neg hSome]
      by_cases hInside : data.length ≤ toSkip
      · rw [if_pos hInside, if_pos hInside]
        by_cases hOver : toSkip - data.length = 0
        · -- The tag ends where this read does.
          rw [if_pos hOver, whole_atTag, hOver]
          cases rest <;> rfl
        · rw [if_neg hOver]
          exact ih hOver
      · rw [if_neg hInside, if_neg hInside]
        exact whole_atTag _ rest

/- The prefix, from the header's bytes on. -/
def fromHead
    (head : Bytes)
    (reads : List Bytes) : List Bytes :=
  match fill 10 head reads with
  | (head, none) => flushRemaining head
  | (head, some reads) =>
      let id3Total := parseId3v2Total head
      if id3Total = 0 then
        fromTag head reads
      else if id3Total ≤ head.length then
        fromTag (head.drop id3Total) reads
      else
        match skip (id3Total - head.length) reads with
        | none => []
        | some (pending, reads) => fromTag pending reads

theorem fill_of_le
    {bound : Nat}
    {pending : Bytes}
    (hEnough : bound ≤ pending.length)
    (reads : List Bytes) :
    fill bound pending reads = (pending, some reads) := by
  cases reads <;> rw [fill, if_neg (by omega)]

theorem whole_atHead_of_le
    {head : Bytes}
    (hLong : 10 ≤ head.length)
    (reads : List Bytes) :
    (atHead head).2 ++ (atHead head).1.whole reads =
      fromHead head reads := by
  rw [fromHead, fill_of_le hLong, atHead, if_neg (by omega)]
  dsimp only
  split_ifs with hNone hInside
  · exact whole_atTag _ _
  · exact whole_atTag _ _
  · exact whole_skipping (by omega) reads

theorem whole_atHead
    (head : Bytes)
    (reads : List Bytes) :
    (atHead head).2 ++ (atHead head).1.whole reads =
      fromHead head reads := by
  induction reads generalizing head with
  | nil =>
      by_cases hShort : head.length < 10
      · rw [fromHead, fill, if_pos hShort, atHead,
          if_pos hShort]
        exact whole_nil _
      · exact whole_atHead_of_le (by omega) []
  | cons data rest ih =>
      by_cases hShort : head.length < 10
      · rw [fromHead, fill, if_pos hShort, atHead,
          if_pos hShort, whole_cons, List.nil_append]
        exact ih (head ++ data)
      · exact whole_atHead_of_le (by omega) (data :: rest)

/- The reads of a whole source, one at a time. -/
theorem drainReader_eq_whole
    (codec : CodecId)
    (reads : List Bytes) :
    drainReader codec reads =
      (ReaderPhase.start codec).whole reads := by
  unfold drainReader ReaderPhase.start
  split_ifs with hMp3
  · rw [← List.nil_append (whole _ _)]
    refine Eq.trans ?_ (whole_atHead [] reads).symm
    unfold stripMp3Prefix fromHead
    rcases fill 10 [] reads with ⟨head, none | left⟩
    · exact List.append_nil _
    · dsimp only
      split_ifs with hNone hInside
      · exact fromTag_eq _ _
      · exact fromTag_eq _ _
      · cases skip (parseId3v2Total head - head.length) left with
        | none => rfl
        | some found => exact fromTag_eq _ _
  · exact (whole_forwarding reads).symm

/- What it has sent is the beginning of what it will. -/
theorem feed_isPrefix_drainReader
    (codec : CodecId)
    (front rest : List Bytes) :
    ((ReaderPhase.start codec).feed front).2 <+:
      drainReader codec (front ++ rest) := by
  rw [drainReader_eq_whole, whole, feed_append,
    List.append_assoc]
  exact List.prefix_append _ _

end Ingest

end RustyIce

import RustyIce.Server.RequestBody

/-
  The loop that reads the head of an upload, over the reads
  of its connection: the limit on the head is put to all that
  was read, so that bytes of the body count against it.

  Main declarations:
    * `readHeadLoop`, `HeadAccepted`
    * `receivedWithHead`
    * `headAccepted_of_loop`
    * `headAccepted_iff`
-/

------------------------------------------------------------
-- The Loop
------------------------------------------------------------

namespace RustyIce

/-
  `read_request_head` over the reads of its connection: the
  round that ends it, and the reads behind that round.
-/
def readHeadLoop
    (parse : Bytes → HeadStatus)
    (buf : Bytes) : List Bytes → HeadRound × List Bytes
| [] => (.reading buf, [])
| data :: more =>
    match readRequestHead parse buf data with
    | .reading buf => readHeadLoop parse buf more
    | .parsed head => (.parsed head, more)
    | .failed error => (.failed error, more)

/- Reads of a connection, as its buffer allows them. -/
structure Fragments
    (stream : Bytes)
    (reads : List Bytes) : Prop where
  whole : reads.flatten = stream
  nonempty : ∀ data ∈ reads, data ≠ []
  bounded : ∀ data ∈ reads, data.length ≤ 1024

/-
  The head is read, with its path and headers, and what is
  left over makes up the body with what is not read yet.
-/
def HeadAccepted
    (parse : Bytes → HeadStatus)
    (path : String)
    (headers : HeaderMap)
    (body buf : Bytes)
    (reads : List Bytes) : Prop :=
  ∃ leftover unread,
    readHeadLoop parse buf reads =
        (.parsed
            { path := path
              headers := headers
              leftover := leftover },
          unread) ∧
      leftover ++ unread.flatten = body

/-
  How much has been received with the read that brings the
  last of `need` bytes.
-/
def receivedWithHead (need : Nat) : List Bytes → Nat
| [] => 0
| data :: more =>
    if need ≤ data.length then
      data.length
    else
      data.length + receivedWithHead (need - data.length) more

end RustyIce

------------------------------------------------------------
-- What Counts Against The Limit
------------------------------------------------------------

namespace RustyIce

theorem readRequestHead_part
    {parse : Bytes → HeadStatus}
    {head buf data missing : Bytes}
    {request : RequestHead}
    (hParse : ParsesHead parse head request)
    (hFits : head.length ≤ maxHeaderBytes)
    (hData : data ≠ [])
    (hHead : buf ++ data ++ missing = head)
    (hMissing : missing ≠ []) :
    readRequestHead parse buf data =
      .reading (buf ++ data) := by
  have hSmall : ¬ maxHeaderBytes < (buf ++ data).length := by
    rw [← hHead, List.length_append] at hFits
    omega
  rw [readRequestHead, if_neg hData, if_neg hSmall,
    hParse.unfinished _ missing hHead hMissing]

/- The read that completes the head, with more behind it. -/
theorem readRequestHead_last
    {parse : Bytes → HeadStatus}
    {head buf data extra : Bytes}
    {request : RequestHead}
    {path : String}
    (hParse : ParsesHead parse head request)
    (hPath : request.path = some path)
    (hData : data ≠ [])
    (hHead : buf ++ data = head ++ extra) :
    readRequestHead parse buf data =
      if maxHeaderBytes < (buf ++ data).length then
        .failed
          { kind := .invalidData
            message := "headers too large" }
      else
        .parsed
          { path := path
            headers := request.headers
            leftover := extra } := by
  rw [readRequestHead, if_neg hData, hHead,
    hParse.complete]
  split
  · rfl
  · simp only [hPath, List.drop_left]

/- The loop, from any cut of the head on. -/
theorem headAccepted_of_loop
    {parse : Bytes → HeadStatus}
    {head : Bytes}
    {request : RequestHead}
    {path : String}
    (hParse : ParsesHead parse head request)
    (hPath : request.path = some path)
    (hFits : head.length ≤ maxHeaderBytes)
    {buf missing body : Bytes}
    {reads : List Bytes}
    (hHead : buf ++ missing = head)
    (hMissing : missing ≠ [])
    (hReads : reads.flatten = missing ++ body)
    (hSome : ∀ data ∈ reads, data ≠ []) :
    HeadAccepted parse path request.headers body buf reads ↔
      buf.length + receivedWithHead missing.length reads ≤
        maxHeaderBytes := by
  induction reads generalizing buf missing with
  | nil =>
      have hNil : missing = [] := by
        rw [List.flatten_nil] at hReads
        exact (List.append_eq_nil_iff.mp hReads.symm).1
      exact absurd hNil hMissing
  | cons data more ih =>
      have hData := hSome data List.mem_cons_self
      rw [List.flatten_cons] at hReads
      rw [receivedWithHead]
      by_cases hLast : missing.length ≤ data.length
      · rw [if_pos hLast]
        have hExtra :
            data = missing ++ data.drop missing.length ∧
              data.drop missing.length ++ more.flatten =
                body := by
          rcases List.append_eq_append_iff.mp hReads with
            ⟨rest, hMiss, hRest⟩ | ⟨rest, hMiss, hRest⟩
          · have hNone : rest = [] := by
              apply List.eq_nil_of_length_eq_zero
              rw [hMiss, List.length_append] at hLast
              omega
            subst hNone
            rw [List.append_nil] at hMiss
            rw [hMiss, List.drop_length, hRest]
            simp
          · rw [hMiss, List.drop_left, hRest]
            exact ⟨rfl, rfl⟩
        generalize data.drop missing.length = extra at hExtra
        rcases hExtra with ⟨hSplit, hBody⟩
        have hWhole : buf ++ data = head ++ extra := by
          rw [hSplit, ← List.append_assoc, hHead]
        have hRound :=
          readRequestHead_last hParse hPath hData hWhole
        rw [HeadAccepted, readHeadLoop, hRound,
          List.length_append]
        by_cases hLarge :
            maxHeaderBytes < buf.length + data.length
        · rw [if_pos hLarge]
          refine iff_of_false ?_ (by omega)
          rintro ⟨leftover, unread, hLoop, -⟩
          cases hLoop
        · rw [if_neg hLarge]
          refine iff_of_true ?_ (by omega)
          exact ⟨extra, more, rfl, hBody⟩
      · rw [if_neg hLast]
        rcases List.append_eq_append_iff.mp hReads with
          ⟨rest, hMiss, hRest⟩ | ⟨rest, hMiss, hRest⟩
        · have hMore : rest ≠ [] := by
            rintro rfl
            rw [List.append_nil] at hMiss
            rw [hMiss] at hLast
            exact hLast (Nat.le_refl _)
          have hBuf : buf ++ data ++ rest = head := by
            rw [List.append_assoc, ← hMiss, hHead]
          have hRound :=
            readRequestHead_part hParse hFits hData hBuf hMore
          have hNext :=
            ih hBuf hMore hRest fun other hOther =>
              hSome other (List.mem_cons_of_mem _ hOther)
          have hLeft :
              missing.length - data.length = rest.length := by
            rw [hMiss, List.length_append]
            omega
          rw [HeadAccepted, readHeadLoop, hRound, hLeft,
            ← Nat.add_assoc, ← List.length_append]
          exact hNext
        · rw [hMiss, List.length_append] at hLast
          omega

/- Behind the head a read brings at most 1023 bytes. -/
theorem receivedWithHead_le
    {need : Nat}
    {reads : List Bytes}
    (hNeed : 0 < need)
    (hBounded : ∀ data ∈ reads, data.length ≤ 1024) :
    receivedWithHead need reads ≤ need + 1023 ∧
      receivedWithHead need reads ≤
        reads.flatten.length := by
  induction reads generalizing need with
  | nil => simp [receivedWithHead]
  | cons data more ih =>
      have hData := hBounded data List.mem_cons_self
      rw [receivedWithHead, List.flatten_cons,
        List.length_append]
      split
      · omega
      · have hLeft : 0 < need - data.length := by omega
        have hMore :=
          ih hLeft fun other hOther =>
              hBounded other (List.mem_cons_of_mem _ hOther)
        omega

theorem receivedWithHead_append
    {need : Nat}
    {front : List Bytes}
    {data : Bytes}
    (more : List Bytes)
    (hBefore : front.flatten.length < need)
    (hLast : need ≤ front.flatten.length + data.length) :
    receivedWithHead need (front ++ data :: more) =
      front.flatten.length + data.length := by
  induction front generalizing need with
  | nil =>
      simp only [List.flatten_nil, List.length_nil,
        Nat.zero_add] at hLast ⊢
      rw [List.nil_append, receivedWithHead, if_pos hLast]
  | cons first front ih =>
      rw [List.flatten_cons, List.length_append] at hBefore hLast ⊢
      rw [List.cons_append, receivedWithHead,
        if_neg (by omega), ih (by omega) (by omega)]
      omega

/- Byte for byte, any bytes can be read. -/
theorem flatten_singletons (bytes : Bytes) :
    (bytes.map fun b => [b]).flatten = bytes := by
  induction bytes with
  | nil => rfl
  | cons b rest ih =>
      rw [List.map_cons, List.flatten_cons, ih]
      rfl

/- The reads in which the head's end brings the most. -/
theorem exists_fragments
    {head : Bytes}
    (hHead : head ≠ [])
    (body : Bytes) :
    ∃ reads,
      Fragments (head ++ body) reads ∧
        receivedWithHead head.length reads =
          head.length + min 1023 body.length := by
  let last := head.getLast hHead
  let singles (bytes : Bytes) := bytes.map fun b => [b]
  have hSplit : head.dropLast ++ [last] = head :=
    List.dropLast_concat_getLast hHead
  have hPos : 0 < head.length := List.length_pos_iff.mpr hHead
  have hBefore :
      (singles head.dropLast).flatten.length =
        head.length - 1 := by
    rw [flatten_singletons, List.length_dropLast]
  have hTaken :
      (last :: body.take 1023).length =
        min 1023 body.length + 1 := by
    rw [List.length_cons, List.length_take]
  refine
    ⟨singles head.dropLast ++
        (last :: body.take 1023) :: singles (body.drop 1023),
      ⟨?_, ?_, ?_⟩, ?_⟩
  · rw [List.flatten_append, List.flatten_cons,
      flatten_singletons, flatten_singletons,
      List.cons_append, List.take_append_drop]
    conv_rhs => rw [← hSplit]
    rw [List.append_assoc]
    rfl
  · intro data hMem
    simp only [List.mem_append, List.mem_cons, singles,
      List.mem_map] at hMem
    rcases hMem with
      ⟨b, -, rfl⟩ | rfl | ⟨b, -, rfl⟩
    · exact List.cons_ne_nil _ _
    · exact List.cons_ne_nil _ _
    · exact List.cons_ne_nil _ _
  · intro data hMem
    simp only [List.mem_append, List.mem_cons, singles,
      List.mem_map] at hMem
    rcases hMem with
      ⟨b, -, rfl⟩ | rfl | ⟨b, -, rfl⟩
    · simp
    · rw [hTaken]
      omega
    · simp
  · rw [receivedWithHead_append _ (by omega) (by omega),
      hBefore, hTaken]
    omega

/-
  A head within the limit is accepted from exactly those
  reads that bring no more than the limit until it is there,
  and from all reads exactly where the rest of one read fits
  under the limit too.
-/
theorem headAccepted_iff
    (parse : Bytes → HeadStatus)
    (head body : Bytes)
    (request : RequestHead)
    (path : String)
    (hHead : head ≠ [])
    (hParse : ParsesHead parse head request)
    (hPath : request.path = some path)
    (hFits : head.length ≤ maxHeaderBytes) :
    (∀ reads, Fragments (head ++ body) reads →
        (HeadAccepted parse path request.headers body []
            reads ↔
          receivedWithHead head.length reads ≤
            maxHeaderBytes)) ∧
      ((∀ reads, Fragments (head ++ body) reads →
          HeadAccepted parse path request.headers body []
            reads) ↔
        head.length + min 1023 body.length ≤
          maxHeaderBytes) := by
  have hEach :
      ∀ reads, Fragments (head ++ body) reads →
        (HeadAccepted parse path request.headers body []
            reads ↔
          receivedWithHead head.length reads ≤
            maxHeaderBytes) := by
    intro reads hReads
    have hLoop :=
      headAccepted_of_loop hParse hPath hFits
        (List.nil_append head) hHead hReads.whole
        hReads.nonempty
    rw [List.length_nil, Nat.zero_add] at hLoop
    exact hLoop
  refine ⟨hEach, ?_⟩
  constructor
  · intro hAll
    rcases exists_fragments hHead body with
      ⟨reads, hReads, hMost⟩
    rw [← hMost]
    exact (hEach reads hReads).mp (hAll reads hReads)
  · intro hRoom reads hReads
    have hBound :=
      receivedWithHead_le (List.length_pos_iff.mpr hHead)
        hReads.bounded
    rw [hReads.whole, List.length_append] at hBound
    exact (hEach reads hReads).mpr (by omega)

/- A small head with two bytes of its body in one read. -/
theorem sizedHead_accepted :
    HeadAccepted (parseOnly sizedHead sizedRequest) "/live"
      sizedRequest.headers [1, 2, 3] []
      [sizedHead ++ [1, 2], [3]] := by
  have hReads :
      Fragments (sizedHead ++ [1, 2, 3])
        [sizedHead ++ [1, 2], [3]] :=
    ⟨by decide, by decide, by decide⟩
  exact
    (headAccepted_iff (parseOnly sizedHead sizedRequest)
      sizedHead [1, 2, 3] sizedRequest "/live" (by decide)
      (parseOnly_parses sizedHead sizedRequest) rfl
      (by decide)).2.mpr (by decide) _ hReads

/- A head of exactly as many bytes as the limit. -/
def fullHead : Bytes :=
  utf8Bytes "PUT /live HTTP/1.0\r\nX: " ++
    List.replicate 16357 97 ++ [13, 10, 13, 10]

def fullRequest : RequestHead where
  path := some "/live"
  headers := [("x", List.replicate 16357 97)]

/- One byte of the body in the last read turns it away. -/
theorem fullHead_refused :
    fullHead.length ≤ maxHeaderBytes ∧
      ParsesHead (parseOnly fullHead fullRequest) fullHead
        fullRequest ∧
      ∃ reads,
        Fragments (fullHead ++ [79]) reads ∧
          ¬ HeadAccepted (parseOnly fullHead fullRequest)
            "/live" fullRequest.headers [79] [] reads := by
  have hLength : fullHead.length = 16384 := by
    rw [fullHead, List.length_append, List.length_append,
      List.length_replicate]
    rfl
  have hHead : fullHead ≠ [] := by
    intro hNil
    rw [hNil] at hLength
    cases hLength
  have hFits : fullHead.length ≤ maxHeaderBytes := by
    rw [hLength]
    exact Nat.le_refl _
  have hParse := parseOnly_parses fullHead fullRequest
  have hPath : fullRequest.path = some "/live" := rfl
  refine ⟨hFits, hParse, ?_⟩
  rcases exists_fragments hHead [79] with
    ⟨reads, hReads, hMost⟩
  refine ⟨reads, hReads, fun hAccepted => ?_⟩
  have hLoop :=
    headAccepted_of_loop hParse hPath hFits
      (List.nil_append fullHead) hHead hReads.whole
      hReads.nonempty
  have hBound := hLoop.mp hAccepted
  rw [hMost, hLength] at hBound
  exact absurd hBound (by decide)

end RustyIce

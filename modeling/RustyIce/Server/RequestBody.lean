import RustyIce.Library.SocketText
import RustyIce.Core.ConfigFile
import RustyIce.Server.ChunkDecoding

/-
  The body of an upload on its way from the socket to the
  ingest: the head is read in pieces, what was read past it
  is replayed, every byte is counted, and the framing of the
  request decides what is handed on.

  The parser of heads is a parameter; the headers it gives
  are those of the map, their names in small letters. The
  status lines that are written are left out, and whether the
  request is accepted is decided elsewhere.

  Main declarations:
    * `ParsedHead`, `readRequestHead`
    * `Framing`, `bodyFraming`, `requestBody`
    * `ChainReader`, `SourceStream`, `streamMachine`
    * `streamInv_of_reachable`
    * `ingest_sees_body`
-/

------------------------------------------------------------
-- Headers
------------------------------------------------------------

namespace RustyIce

open Library.SocketText

/- Names in small letters, in the order they were sent. -/
abbrev HeaderMap := List (String × Bytes)

/- `HeaderValue::to_str`: visible ASCII and tabs. -/
def visibleText (value : Bytes) : Option (List Char) :=
  if value.all fun b => b = 9 || (32 ≤ b && b < 127) then
    some (value.map fun b => Char.ofNat b.toNat)
  else
    none

/- The text of the first header of that name. -/
def headerText
    (headers : HeaderMap)
    (name : String) : Option (List Char) :=
  (headers.find? (·.1 = name)).bind fun header =>
    visibleText header.2

/- `str::parse::<u64>`. -/
def u64FromText (text : List Char) : Option Nat :=
  let digits :=
    match text with
    | '+' :: rest => rest
    | other => other
  match readNumber 10 none u64Max true digits with
  | some (n, []) => some n
  | _ => none

def contentLength (headers : HeaderMap) : Option Nat :=
  (headerText headers "content-length").bind u64FromText

def isChunked (headers : HeaderMap) : Bool :=
  (headerText headers "transfer-encoding").any fun value =>
    decide ("chunked".toList <:+: value.map Char.toLower)

end RustyIce

------------------------------------------------------------
-- The Head
------------------------------------------------------------

namespace RustyIce

def maxHeaderBytes : Nat := 16 * 1024

structure RequestHead where
  path : Option String
  headers : HeaderMap
deriving DecidableEq, Repr

/- What `httparse` says of the bytes so far. -/
inductive HeadStatus where
| complete (consumed : Nat) (head : RequestHead)
| partialHead
| invalid (message : String)
deriving DecidableEq, Repr

/- `leftover` is what was read of the body. -/
structure ParsedHead where
  path : String
  headers : HeaderMap
  leftover : Bytes
deriving DecidableEq, Repr

/- How a round of reading the head ends. -/
inductive HeadRound where
| reading (buf : Bytes)
| parsed (head : ParsedHead)
| failed (error : IoError)
deriving DecidableEq, Repr

/- One round of `read_request_head`, with what was read. -/
def readRequestHead
    (parse : Bytes → HeadStatus)
    (buf data : Bytes) : HeadRound :=
  if data = [] then
    .failed
      { kind := .unexpectedEof
        message :=
          "client closed before completing request headers" }
  else if maxHeaderBytes < (buf ++ data).length then
    .failed
      { kind := .invalidData
        message := "headers too large" }
  else
    match parse (buf ++ data) with
    | .partialHead => .reading (buf ++ data)
    | .invalid message =>
        .failed
          { kind := .invalidData
            message := "bad request: " ++ message }
    | .complete consumed head =>
        match head.path with
        | none =>
            .failed
              { kind := .invalidData
                message := "missing path" }
        | some path =>
            .parsed
              { path := path
                headers := head.headers
                leftover := (buf ++ data).drop consumed }

end RustyIce

------------------------------------------------------------
-- The Readers
------------------------------------------------------------

namespace RustyIce

/- Bytes read before, replayed ahead of the socket. -/
structure ChainReader where
  buffer : Bytes
  pos : Nat
deriving DecidableEq, Repr

namespace ChainReader

def new (buffer : Bytes) : ChainReader where
  buffer := buffer
  pos := 0

def remaining (chain : ChainReader) : Bytes :=
  chain.buffer.drop chain.pos

/- What a read of so many bytes replays. -/
def replayed
    (chain : ChainReader)
    (capacity : Nat) : Bytes :=
  chain.remaining.take capacity

def advance
    (chain : ChainReader)
    (count : Nat) : ChainReader :=
  { chain with pos := chain.pos + count }

end ChainReader

/- The reader around the counted stream. -/
inductive Framing where
| chunked (decoder : ChunkedDecoder)
| sized (limit : Nat)
| unframed
deriving DecidableEq, Repr

/- Chunked supersedes a length; without both, all is read. -/
def bodyFraming (headers : HeaderMap) : Framing :=
  if isChunked headers then .chunked .new
  else
    match contentLength headers with
    | some n => .sized n
    | none => .unframed

/- `Round` for any framing. -/
inductive BodyRound where
| read (capacity : Nat)
| again (framing : Framing)
| finish
    (framing : Framing)
    (result : Except IoError Bytes)

def Round.framed : Round → BodyRound
| .read capacity => .read capacity
| .again decoder => .again (.chunked decoder)
| .finish decoder result => .finish (.chunked decoder) result

namespace Framing

/- A round up to its inner read; `Take` reads to its limit. -/
def advance
    (framing : Framing)
    (room : Nat) : BodyRound :=
  match framing with
  | .chunked decoder => (decoder.advance room).framed
  | .sized limit =>
      if limit = 0 then .finish (.sized limit) (.ok [])
      else .read (min limit room)
  | .unframed => .read room

/- The rest of a round, after its inner read. -/
def receive
    (framing : Framing)
    (read : InnerRead) : BodyRound :=
  match framing, read with
  | .chunked decoder, read => (decoder.receive read).framed
  | .sized limit, .ready data =>
      .finish (.sized (limit - data.length)) (.ok data)
  | .unframed, .ready data => .finish .unframed (.ok data)
  | .sized limit, .failed e =>
      .finish (.sized limit) (.error e)
  | .unframed, .failed e => .finish .unframed (.error e)

end Framing

end RustyIce

------------------------------------------------------------
-- The Connection
------------------------------------------------------------

namespace RustyIce

/- Where the handler is with its bytes. -/
inductive StreamPhase where
| head (buf : Bytes)
| parsed (head : ParsedHead)
| turnedAway
| headFailed (error : IoError)
| body
    (chain : ChainReader)
    (framing : Framing)
    (call : CallPhase)
| broken (chain : ChainReader) (error : IoError)
deriving DecidableEq, Repr

/-
  A connection: what its socket has still to give, the bytes
  received by the mount, and those handed to the ingest.
-/
structure SourceStream where
  wire : Bytes
  phase : StreamPhase
  bytesReceived : Nat
  handed : Bytes
deriving DecidableEq, Repr

/-
  A read of the head and its failure or timeout, the answer
  to the request, and the calls of the ingest: `replay` and
  `read` are inner reads of the buffer and of the socket.
-/
inductive StreamLabel where
| readHead (count : Nat)
| headFails (error : IoError)
| accept
| turnAway
| poll (room : Nat)
| advance
| pending
| replay
| read (count : Nat)
| breaks (error : IoError)
deriving DecidableEq, Repr

namespace SourceStream

def start
    (stream : Bytes)
    (bytesReceived : Nat) : SourceStream where
  wire := stream
  phase := .head []
  bytesReceived := bytesReceived
  handed := []

/- The end of a round of the readers. -/
def after
    (s : SourceStream)
    (chain : ChainReader)
    (room : Nat) : BodyRound → Option SourceStream
| .read _ => none
| .again framing =>
    some
      { s with phase := .body chain framing (.polling room) }
| .finish framing (.error e) =>
    some
      { s with
        phase := .body chain framing (.ended (.failed e)) }
| .finish framing (.ok []) =>
    some
      { s with phase := .body chain framing (.ended .eof) }
| .finish framing (.ok (byte :: data)) =>
    some
      { s with
        phase := .body chain framing .between
        handed := s.handed ++ byte :: data }

/- `CountingReader` sees every read that works. -/
def count (s : SourceStream) (data : Bytes) : SourceStream :=
  { s with bytesReceived := s.bytesReceived + data.length }

/- A read gives some bytes, or none at the end. -/
def CanRead
    (s : SourceStream)
    (count capacity : Nat) : Prop :=
  count ≤ capacity ∧ count ≤ s.wire.length ∧
    (count = 0 → s.wire = [])

instance
    (s : SourceStream)
    (count capacity : Nat) :
    Decidable (s.CanRead count capacity) := by
  unfold CanRead
  infer_instance

def step
    (parse : Bytes → HeadStatus)
    (s : SourceStream) : StreamLabel → Option SourceStream
| .readHead count =>
    match s.phase with
    | .head buf =>
        if s.CanRead count 1024 then
          let s' := { s with wire := s.wire.drop count }
          match readRequestHead parse buf (s.wire.take count)
          with
          | .reading buf => some { s' with phase := .head buf }
          | .parsed head =>
              some { s' with phase := .parsed head }
          | .failed e =>
              some { s' with phase := .headFailed e }
        else
          none
    | _ => none
| .headFails e =>
    match s.phase with
    | .head _ => some { s with phase := .headFailed e }
    | _ => none
| .accept =>
    match s.phase with
    | .parsed head =>
        some
          { s with
            phase :=
              .body (.new head.leftover)
                (bodyFraming head.headers) .between }
    | _ => none
| .turnAway =>
    match s.phase with
    | .parsed _ => some { s with phase := .turnedAway }
    | _ => none
| .poll room =>
    match s.phase with
    | .body chain framing .between =>
        if 0 < room then
          some
            { s with
              phase := .body chain framing (.polling room) }
        else
          none
    | _ => none
| .advance =>
    match s.phase with
    | .body chain framing (.polling room) =>
        s.after chain room (framing.advance room)
    | _ => none
| .pending =>
    match s.phase with
    | .body chain framing (.polling room) =>
        match framing.advance room, chain.remaining with
        | .read _, [] =>
            some
              { s with phase := .body chain framing .between }
        | _, _ => none
    | _ => none
| .replay =>
    match s.phase with
    | .body chain framing (.polling room) =>
        match framing.advance room, chain.remaining with
        | .read capacity, _ :: _ =>
            let data := chain.replayed capacity
            (s.count data).after (chain.advance data.length)
              room (framing.receive (.ready data))
        | _, _ => none
    | _ => none
| .read count =>
    match s.phase with
    | .body chain framing (.polling room) =>
        match framing.advance room, chain.remaining with
        | .read capacity, [] =>
            if s.CanRead count capacity then
              let data := s.wire.take count
              { s.count data with wire := s.wire.drop count }
                |>.after chain room
                  (framing.receive (.ready data))
            else
              none
        | _, _ => none
    | _ => none
| .breaks e =>
    match s.phase with
    | .body chain framing (.polling room) =>
        match framing.advance room, chain.remaining with
        | .read _, [] =>
            match framing.receive (.failed e) with
            | .finish _ (.error e) =>
                some { s with phase := .broken chain e }
            | _ => none
        | _, _ => none
    | _ => none

end SourceStream

def streamMachine
    (parse : Bytes → HeadStatus)
    (stream : Bytes)
    (bytesReceived : Nat) :
    Library.Machine SourceStream StreamLabel where
  init := fun s => s = .start stream bytesReceived
  step := SourceStream.step parse

end RustyIce

------------------------------------------------------------
-- What The Ingest Is To See
------------------------------------------------------------

namespace RustyIce

/-
  The body of a request whose head is followed by `rest`:
  the bytes of it, and how a reader finds its end.
-/
def requestBody
    (headers : HeaderMap)
    (rest : Bytes) : Bytes × DecoderOutcome :=
  if isChunked headers then
    ChunkedDecoder.new.decode rest
  else
    match contentLength headers with
    | some n => (rest.take n, .eof)
    | none => (rest, .eof)

/- What a reader still makes of the bytes ahead of it. -/
def Framing.left
    (framing : Framing)
    (rest : Bytes) : Bytes × DecoderOutcome :=
  match framing with
  | .chunked decoder => decoder.decode rest
  | .sized limit => (rest.take limit, .eof)
  | .unframed => (rest, .eof)

theorem left_bodyFraming
    (headers : HeaderMap)
    (rest : Bytes) :
    (bodyFraming headers).left rest =
      requestBody headers rest := by
  unfold bodyFraming requestBody
  cases isChunked headers with
  | true => rfl
  | false =>
      cases contentLength headers with
      | some n => rfl
      | none => rfl

/- What is left after a round, of the bytes ahead of it. -/
def BodyRound.left
    (rest : Bytes) : BodyRound → Bytes × DecoderOutcome
| .again framing => framing.left rest
| .finish _ (.error e) => ([], .failed e)
| .finish _ (.ok []) => ([], .eof)
| .finish framing (.ok (byte :: data)) =>
    prepend (byte :: data) (framing.left rest)
| .read _ => ([], .eof)

theorem left_framed
    (rest : Bytes)
    (round : Round) :
    round.framed.left rest =
      ChunkedDecoder.afterRound rest round := by
  cases round with
  | read capacity => rfl
  | again decoder => rfl
  | finish decoder result =>
      cases result with
      | error e => rfl
      | ok data => cases data <;> rfl

/- A read that gives nothing is the end. -/
theorem left_finish
    {framing : Framing}
    {data rest : Bytes}
    (hEnd : data = [] → framing.left rest = ([], .eof)) :
    (BodyRound.finish framing (.ok data)).left rest =
      prepend data (framing.left rest) := by
  cases data with
  | nil =>
      rw [hEnd rfl]
      rfl
  | cons byte data => rfl

namespace Framing

variable {framing : Framing}
variable {room capacity : Nat}

/- A round without a read leaves the same ahead. -/
theorem left_advance
    (hRoom : 0 < room)
    (hRound : ∀ capacity, framing.advance room ≠ .read capacity)
    (rest : Bytes) :
    framing.left rest = (framing.advance room).left rest := by
  cases framing with
  | chunked decoder =>
      simp only [advance, left, left_framed]
      apply ChunkedDecoder.decode_advance hRoom
      intro capacity hRead
      apply hRound capacity
      rw [advance, hRead]
      rfl
  | sized limit =>
      simp only [advance] at hRound ⊢
      split
      · rename_i hZero
        simp [left, BodyRound.left, hZero]
      · rename_i hSome
        rw [if_neg hSome] at hRound
        exact absurd rfl (hRound _)
  | unframed => exact absurd rfl (hRound room)

/- A chunked reader reads when its decoder does. -/
theorem advance_chunked_read
    {decoder : ChunkedDecoder}
    (hRound :
      (Framing.chunked decoder).advance room =
        .read capacity) :
    decoder.advance room = .read capacity := by
  simp only [advance] at hRound
  cases hNow : decoder.advance room with
  | again next =>
      rw [hNow] at hRound
      cases hRound
  | finish next result =>
      rw [hNow] at hRound
      cases hRound
  | read count =>
      rw [hNow] at hRound
      cases hRound
      rfl

/- A reader asks for a byte at least. -/
theorem capacity_pos
    (hRoom : 0 < room)
    (hRound : framing.advance room = .read capacity) :
    0 < capacity := by
  cases framing with
  | chunked decoder =>
      exact
        ChunkedDecoder.capacity_pos hRoom
          (advance_chunked_read hRound)
  | sized limit =>
      simp only [advance] at hRound
      split at hRound
      · cases hRound
      · cases hRound
        omega
  | unframed =>
      cases hRound
      exact hRoom

/- However much a read gives, the rest comes out the same. -/
theorem left_read
    {count : Nat}
    (hRound : framing.advance room = .read capacity)
    (hCount : count ≤ capacity)
    {rest : Bytes}
    (hLess : count ≤ rest.length)
    (hZero : count = 0 → rest = []) :
    framing.left rest =
      (framing.receive (.ready (rest.take count))).left
        (rest.drop count) := by
  cases framing with
  | chunked decoder =>
      simp only [receive, left, left_framed]
      exact
        ChunkedDecoder.decode_read
          (advance_chunked_read hRound) hCount hLess hZero
  | sized limit =>
      have hLimit : count ≤ limit := by
        simp only [advance] at hRound
        split at hRound
        · cases hRound
        · cases hRound
          omega
      have hTaken : (rest.take count).length = count :=
        List.length_take_of_le hLess
      have hAll :
          rest.take limit =
            rest.take count ++
              (rest.drop count).take (limit - count) := by
        rw [← List.take_add, Nat.add_sub_cancel' hLimit]
      simp only [receive, hTaken]
      rw [left_finish]
      · rw [left, hAll]
        rfl
      · intro hNone
        rw [hNone] at hTaken
        rw [hZero hTaken.symm, List.drop_nil, left,
          List.take_nil]
  | unframed =>
      simp only [receive]
      rw [left_finish]
      · rw [left, left, prepend, List.take_append_drop]
      · intro hNone
        have hTaken := List.length_take_of_le hLess
        rw [hNone] at hTaken
        rw [hZero hTaken.symm, List.drop_nil, left]

end Framing

end RustyIce

------------------------------------------------------------
-- The Head In Pieces
------------------------------------------------------------

namespace RustyIce

/-
  `head` is a whole head: it is complete whatever follows,
  and nothing before its end is.
-/
structure ParsesHead
    (parse : Bytes → HeadStatus)
    (head : Bytes)
    (request : RequestHead) : Prop where
  complete :
    ∀ more,
      parse (head ++ more) = .complete head.length request
  unfinished :
    ∀ front missing,
      front ++ missing = head →
        missing ≠ [] → parse front = .partialHead

/- Where the head is, of which `buf` has been read. -/
def MissingHead
    (head rest buf wire : Bytes) : Prop :=
  ∃ missing, buf ++ missing = head ∧ wire = missing ++ rest

/- A round that keeps what is read past the head. -/
def HeadRound.Keeps
    (head rest : Bytes)
    (headers : HeaderMap)
    (wire : Bytes) : HeadRound → Prop
| .reading buf => MissingHead head rest buf wire
| .parsed found =>
    found.headers = headers ∧ found.leftover ++ wire = rest
| .failed _ => True

theorem readRequestHead_keeps
    {parse : Bytes → HeadStatus}
    {head rest : Bytes}
    {request : RequestHead}
    (hParse : ParsesHead parse head request)
    {buf wire : Bytes}
    (hHead : MissingHead head rest buf wire)
    (count : Nat) :
    (readRequestHead parse buf (wire.take count)).Keeps head
      rest request.headers (wire.drop count) := by
  rcases hHead with ⟨missing, rfl, rfl⟩
  by_cases hNone : (missing ++ rest).take count = []
  · rw [readRequestHead, if_pos hNone]
    trivial
  · by_cases hLarge :
        maxHeaderBytes <
          (buf ++ (missing ++ rest).take count).length
    · rw [readRequestHead, if_neg hNone, if_pos hLarge]
      trivial
    · rw [readRequestHead, if_neg hNone, if_neg hLarge]
      by_cases hShort : count < missing.length
      · have hTaken :
            (missing ++ rest).take count =
              missing.take count := by
          rw [List.take_append_of_le_length (by omega)]
        have hStatus :
            parse (buf ++ (missing ++ rest).take count) =
              .partialHead := by
          apply hParse.unfinished _ (missing.drop count)
          · rw [hTaken, List.append_assoc,
              List.take_append_drop]
          · intro hNone
            rw [List.drop_eq_nil_iff] at hNone
            omega
        rw [hStatus]
        refine ⟨missing.drop count, ?_, ?_⟩
        · rw [hTaken, List.append_assoc,
            List.take_append_drop]
        · rw [List.drop_append_of_le_length (by omega)]
      · have hTaken :
            buf ++ (missing ++ rest).take count =
              (buf ++ missing) ++
                rest.take (count - missing.length) := by
          rw [List.take_append, List.append_assoc,
            List.take_of_length_le (by omega)]
        simp only [hTaken, hParse.complete, List.drop_left]
        cases request.path with
        | none => trivial
        | some path =>
            refine ⟨rfl, ?_⟩
            rw [List.drop_append,
              List.drop_of_length_le (by omega),
              List.nil_append, List.take_append_drop]

end RustyIce

------------------------------------------------------------
-- Every Byte Once
------------------------------------------------------------

namespace RustyIce

namespace ChainReader

theorem remaining_advance
    (chain : ChainReader)
    (count : Nat) :
    (chain.advance count).remaining =
      chain.remaining.drop count := by
  simp only [remaining, advance, List.drop_drop]

end ChainReader

/- The bytes of the body the readers have not come to. -/
def SourceStream.ahead
    (s : SourceStream)
    (chain : ChainReader) : Bytes :=
  chain.remaining ++ s.wire

/- What was taken of the body is what was counted. -/
def Counted
    (rest : Bytes)
    (before : Nat)
    (s : SourceStream)
    (chain : ChainReader) : Prop :=
  ∃ taken,
    taken ++ s.ahead chain = rest ∧
      s.bytesReceived = before + taken.length

/- The bytes handed out and ahead make up the body. -/
def InCall
    (body : Bytes × DecoderOutcome)
    (handed ahead : Bytes)
    (framing : Framing) : CallPhase → Prop
| .between => prepend handed (framing.left ahead) = body
| .polling room =>
    0 < room ∧ prepend handed (framing.left ahead) = body
| .ended outcome => (handed, outcome) = body

/- Before the body nothing is counted or handed on. -/
def SourceStream.Untouched
    (before : Nat)
    (s : SourceStream) : Prop :=
  s.handed = [] ∧ s.bytesReceived = before

def StreamInv
    (head rest : Bytes)
    (headers : HeaderMap)
    (before : Nat)
    (s : SourceStream) : Prop :=
  match s.phase with
  | .head buf =>
      MissingHead head rest buf s.wire ∧ s.Untouched before
  | .parsed parsed =>
      (parsed.headers = headers ∧
        parsed.leftover ++ s.wire = rest) ∧
        s.Untouched before
  | .turnedAway => s.Untouched before
  | .headFailed _ => s.Untouched before
  | .body chain framing call =>
      Counted rest before s chain ∧
        InCall (requestBody headers rest) s.handed
          (s.ahead chain) framing call
  | .broken chain _ =>
      Counted rest before s chain ∧
        s.handed <+: (requestBody headers rest).1

section

variable {parse : Bytes → HeadStatus}
variable {head rest : Bytes}
variable {headers : HeaderMap}
variable {before : Nat}
variable {s t : SourceStream}

/- The end of a round keeps the bytes together. -/
theorem streamInv_after
    {chain : ChainReader}
    {room : Nat}
    (hRoom : 0 < room)
    (hCounted : Counted rest before s chain)
    {round : BodyRound}
    (hLeft :
      prepend s.handed (round.left (s.ahead chain)) =
        requestBody headers rest)
    (hAfter : s.after chain room round = some t) :
    StreamInv head rest headers before t := by
  cases round with
  | read capacity => cases hAfter
  | again framing =>
      cases hAfter
      exact ⟨hCounted, hRoom, hLeft⟩
  | finish framing result =>
      cases result with
      | error e =>
          cases hAfter
          refine ⟨hCounted, ?_⟩
          simp only [InCall]
          rw [← hLeft]
          simp [BodyRound.left, prepend]
      | ok data =>
          cases data with
          | nil =>
              cases hAfter
              refine ⟨hCounted, ?_⟩
              simp only [InCall]
              rw [← hLeft]
              simp [BodyRound.left, prepend]
          | cons byte data =>
              cases hAfter
              refine ⟨hCounted, ?_⟩
              simp only [BodyRound.left, prepend_prepend]
                at hLeft
              exact hLeft

/- Bytes that are read move from what is ahead to the count. -/
theorem counted_read
    {chain chain' : ChainReader}
    {s' : SourceStream}
    {data : Bytes}
    (hCounted : Counted rest before s chain)
    (hAhead : data ++ s'.ahead chain' = s.ahead chain)
    (hBytes :
      s'.bytesReceived = s.bytesReceived + data.length) :
    Counted rest before s' chain' := by
  rcases hCounted with ⟨taken, hTaken, hCount⟩
  refine ⟨taken ++ data, ?_, ?_⟩
  · rw [List.append_assoc, hAhead, hTaken]
  · rw [hBytes, hCount, List.length_append, Nat.add_assoc]

/- What is replayed is the first of what is ahead. -/
theorem take_replayed
    (s : SourceStream)
    (chain : ChainReader)
    (capacity : Nat) :
    (s.ahead chain).take (chain.replayed capacity).length =
      chain.replayed capacity := by
  have hPrefix :
      chain.replayed capacity <+: s.ahead chain :=
    (List.take_prefix _ _).trans (List.prefix_append _ _)
  exact (List.prefix_iff_eq_take.mp hPrefix).symm

theorem ahead_replayed
    (s : SourceStream)
    (chain : ChainReader)
    (capacity : Nat) :
    (s.count (chain.replayed capacity)).ahead
        (chain.advance (chain.replayed capacity).length) =
      (s.ahead chain).drop (chain.replayed capacity).length := by
  have hLess :
      (chain.replayed capacity).length ≤
        chain.remaining.length :=
    (List.take_prefix _ _).length_le
  simp only [SourceStream.ahead, SourceStream.count,
    ChainReader.remaining_advance]
  rw [List.drop_append_of_le_length hLess]

/- An inner read that works, wherever its bytes are from. -/
theorem streamInv_read
    {chain : ChainReader}
    (chain' : ChainReader)
    (s' : SourceStream)
    {framing : Framing}
    {room capacity count : Nat}
    (hRoom : 0 < room)
    (hCounted : Counted rest before s chain)
    (hLeft :
      prepend s.handed (framing.left (s.ahead chain)) =
        requestBody headers rest)
    (hRound : framing.advance room = .read capacity)
    (hCount : count ≤ capacity)
    (hLess : count ≤ (s.ahead chain).length)
    (hZero : count = 0 → s.ahead chain = [])
    (hAhead : s'.ahead chain' = (s.ahead chain).drop count)
    (hBytes : s'.bytesReceived = s.bytesReceived + count)
    (hHanded : s'.handed = s.handed)
    (hAfter :
      s'.after chain' room
          (framing.receive
            (.ready ((s.ahead chain).take count))) =
        some t) :
    StreamInv head rest headers before t := by
  have hData :
      ((s.ahead chain).take count).length = count :=
    List.length_take_of_le hLess
  have hRead : Counted rest before s' chain' := by
    have hWhole :
        (s.ahead chain).take count ++ s'.ahead chain' =
          s.ahead chain := by
      rw [hAhead, List.take_append_drop]
    exact counted_read hCounted hWhole (by rw [hBytes, hData])
  rw [Framing.left_read hRound hCount hLess hZero, ← hAhead,
    ← hHanded] at hLeft
  exact streamInv_after hRoom hRead hLeft hAfter

/- The head, in any pieces. -/
theorem streamInv_readHead
    {request : RequestHead}
    (hParse : ParsesHead parse head request)
    {buf : Bytes}
    (hPhase : s.phase = .head buf)
    (hBefore :
      StreamInv head rest request.headers before s)
    {count : Nat}
    (hStep : s.step parse (.readHead count) = some t) :
    StreamInv head rest request.headers before t := by
  simp only [StreamInv, hPhase] at hBefore
  rcases hBefore with ⟨hHead, hUntouched⟩
  have hKeeps := readRequestHead_keeps hParse hHead count
  simp only [SourceStream.step, hPhase] at hStep
  split at hStep
  · cases hRound :
        readRequestHead parse buf (s.wire.take count) with
    | reading next =>
        rw [hRound] at hStep hKeeps
        cases hStep
        exact ⟨hKeeps, hUntouched⟩
    | parsed found =>
        rw [hRound] at hStep hKeeps
        cases hStep
        exact ⟨hKeeps, hUntouched⟩
    | failed e =>
        rw [hRound] at hStep
        cases hStep
        exact hUntouched
  · cases hStep

/- The first call finds the whole body ahead. -/
theorem streamInv_accept
    {found : ParsedHead}
    (hFound :
      found.headers = headers ∧
        found.leftover ++ s.wire = rest)
    (hUntouched : s.Untouched before) :
    StreamInv head rest headers before
      { s with
        phase :=
          .body (.new found.leftover)
            (bodyFraming found.headers) .between } := by
  rcases hFound with ⟨rfl, hRest⟩
  rcases hUntouched with ⟨hHanded, hBytes⟩
  refine ⟨⟨[], hRest, hBytes⟩, ?_⟩
  have hAhead :
      (ChainReader.new found.leftover).remaining ++ s.wire =
        rest := hRest
  simp only [InCall, SourceStream.ahead, hAhead, hHanded,
    prepend_nil, left_bodyFraming]

end

end RustyIce

------------------------------------------------------------
-- Runs Of A Connection
------------------------------------------------------------

namespace RustyIce

section

variable {parse : Bytes → HeadStatus}
variable {head rest : Bytes}
variable {request : RequestHead}
variable {before : Nat}
variable {s t : SourceStream}

/- What a call in progress knows. -/
theorem inCall_of_polling
    {chain : ChainReader}
    {framing : Framing}
    {room : Nat}
    (hPhase : s.phase = .body chain framing (.polling room))
    (hBefore :
      StreamInv head rest request.headers before s) :
    Counted rest before s chain ∧ 0 < room ∧
      prepend s.handed (framing.left (s.ahead chain)) =
        requestBody request.headers rest := by
  simp only [StreamInv, hPhase, InCall] at hBefore
  exact hBefore

/- A round that hands on bytes left over by the head. -/
theorem streamInv_replay
    {chain : ChainReader}
    {framing : Framing}
    {room : Nat}
    (hPhase : s.phase = .body chain framing (.polling room))
    (hBefore :
      StreamInv head rest request.headers before s)
    (hStep : s.step parse .replay = some t) :
    StreamInv head rest request.headers before t := by
  rcases inCall_of_polling hPhase hBefore with
    ⟨hCounted, hRoom, hLeft⟩
  simp only [SourceStream.step, hPhase] at hStep
  split at hStep
  · rename_i capacity byte data hRound hSome
    have hCapacity := Framing.capacity_pos hRoom hRound
    have hLength :
        (chain.replayed capacity).length =
          min capacity (data.length + 1) := by
      rw [ChainReader.replayed, hSome, List.length_take,
        List.length_cons]
    have hPrefix :
        (chain.replayed capacity).length ≤
          (s.ahead chain).length := by
      rw [SourceStream.ahead, List.length_append, hSome,
        List.length_cons]
      omega
    refine
      streamInv_read
        (chain.advance (chain.replayed capacity).length)
        (s.count (chain.replayed capacity)) hRoom
        hCounted hLeft hRound (by omega) hPrefix
        (by omega) (ahead_replayed s chain capacity) rfl
        rfl ?_
    rw [take_replayed]
    exact hStep
  · cases hStep

/- A round that reads from the connection. -/
theorem streamInv_readWire
    {chain : ChainReader}
    {framing : Framing}
    {room count : Nat}
    (hPhase : s.phase = .body chain framing (.polling room))
    (hBefore :
      StreamInv head rest request.headers before s)
    (hStep : s.step parse (.read count) = some t) :
    StreamInv head rest request.headers before t := by
  rcases inCall_of_polling hPhase hBefore with
    ⟨hCounted, hRoom, hLeft⟩
  simp only [SourceStream.step, hPhase] at hStep
  split at hStep
  · rename_i capacity hRound hNone
    split at hStep
    · rename_i hCan
      rcases hCan with ⟨hCount, hLess, hZero⟩
      have hAhead : s.ahead chain = s.wire := by
        rw [SourceStream.ahead, hNone, List.nil_append]
      have hData : (s.wire.take count).length = count :=
        List.length_take_of_le hLess
      refine
        streamInv_read chain
          { s.count (s.wire.take count) with
            wire := s.wire.drop count }
          hRoom hCounted hLeft hRound hCount ?_ ?_ ?_ ?_
          rfl ?_
      · rw [hAhead]
        exact hLess
      · rw [hAhead]
        exact hZero
      · rw [hAhead, SourceStream.ahead, hNone,
          List.nil_append]
      · simp only [SourceStream.count, hData]
      · rw [hAhead]
        exact hStep
    · cases hStep
  · cases hStep

theorem streamInv_step
    (hParse : ParsesHead parse head request)
    (hBefore :
      StreamInv head rest request.headers before s)
    {label : StreamLabel}
    (hStep : s.step parse label = some t) :
    StreamInv head rest request.headers before t := by
  cases label with
  | readHead count =>
      cases hPhase : s.phase with
      | head buf =>
          exact streamInv_readHead hParse hPhase hBefore hStep
      | _ =>
          simp only [SourceStream.step, hPhase] at hStep
          cases hStep
  | headFails e =>
      simp only [SourceStream.step] at hStep
      split at hStep
      · rename_i buf hPhase
        simp only [StreamInv, hPhase] at hBefore
        cases hStep
        exact hBefore.2
      · cases hStep
  | accept =>
      simp only [SourceStream.step] at hStep
      split at hStep
      · rename_i found hPhase
        simp only [StreamInv, hPhase] at hBefore
        cases hStep
        exact streamInv_accept hBefore.1 hBefore.2
      · cases hStep
  | turnAway =>
      simp only [SourceStream.step] at hStep
      split at hStep
      · rename_i found hPhase
        simp only [StreamInv, hPhase] at hBefore
        cases hStep
        exact hBefore.2
      · cases hStep
  | poll room =>
      simp only [SourceStream.step] at hStep
      split at hStep
      · rename_i chain framing hPhase
        simp only [StreamInv, hPhase] at hBefore
        split at hStep
        · rename_i hRoom
          cases hStep
          exact ⟨hBefore.1, hRoom, hBefore.2⟩
        · cases hStep
      · cases hStep
  | advance =>
      simp only [SourceStream.step] at hStep
      split at hStep
      · rename_i chain framing room hPhase
        rcases inCall_of_polling hPhase hBefore with
          ⟨hCounted, hRoom, hLeft⟩
        have hRound (capacity : Nat) :
            framing.advance room ≠ .read capacity := by
          intro hRead
          rw [hRead] at hStep
          cases hStep
        rw [Framing.left_advance hRoom hRound] at hLeft
        exact streamInv_after hRoom hCounted hLeft hStep
      · cases hStep
  | pending =>
      simp only [SourceStream.step] at hStep
      split at hStep
      · rename_i chain framing room hPhase
        rcases inCall_of_polling hPhase hBefore with
          ⟨hCounted, hRoom, hLeft⟩
        split at hStep
        · cases hStep
          exact ⟨hCounted, hLeft⟩
        · cases hStep
      · cases hStep
  | replay =>
      have hAgain := hStep
      simp only [SourceStream.step] at hAgain
      split at hAgain
      · rename_i chain framing room hPhase
        exact streamInv_replay hPhase hBefore hStep
      · cases hAgain
  | read count =>
      have hAgain := hStep
      simp only [SourceStream.step] at hAgain
      split at hAgain
      · rename_i chain framing room hPhase
        exact streamInv_readWire hPhase hBefore hStep
      · cases hAgain
  | breaks e =>
      simp only [SourceStream.step] at hStep
      split at hStep
      · rename_i chain framing room hPhase
        rcases inCall_of_polling hPhase hBefore with
          ⟨hCounted, hRoom, hLeft⟩
        split at hStep
        · split at hStep
          · cases hStep
            refine ⟨hCounted, ?_⟩
            rw [← hLeft]
            exact List.prefix_append _ _
          · cases hStep
        · cases hStep
      · cases hStep

theorem streamInv_of_reachable
    (hParse : ParsesHead parse head request)
    (hReach :
      (streamMachine parse (head ++ rest) before).Reachable
        s) :
    StreamInv head rest request.headers before s := by
  apply hReach.invariant
  · rintro u rfl
    exact ⟨⟨head, rfl, rfl⟩, rfl, rfl⟩
  · intro u label v hBefore _ hStep
    exact streamInv_step hParse hBefore hStep

end

end RustyIce

------------------------------------------------------------
-- Reading To The End
------------------------------------------------------------

namespace RustyIce

def Framing.weight : Framing → Nat
| .chunked decoder => decoder.weight
| .sized _ => 0
| .unframed => 0

/- What every step that delivers lowers. -/
def SourceStream.rank (s : SourceStream) : Nat :=
  match s.phase with
  | .body chain framing call =>
      8 * (s.ahead chain).length + framing.weight + call.weight
  | _ => 0

/- The ingest calls, and the socket gives what it has. -/
def StreamLabel.Delivers : StreamLabel → Prop
| .poll _ => True
| .advance => True
| .replay => True
| .read _ => True
| _ => False

/- `Round.Lightens` and `Round.Consumes` for any framing. -/
def BodyRound.Lightens (weight : Nat) : BodyRound → Prop
| .read _ => True
| .again framing => framing.weight < weight
| .finish framing result =>
    framing.weight ≤ weight ∧
      ∀ data, result = .ok data → data = []

def BodyRound.Consumes
    (weight : Nat)
    (data : Bytes) : BodyRound → Prop
| .read _ => False
| .again framing =>
    data ≠ [] ∧ framing.weight ≤ weight + 4
| .finish framing result =>
    framing.weight ≤ weight ∧
      ∀ out, result = .ok out → out ≠ [] → data ≠ []

namespace Framing

theorem lightens_advance
    (framing : Framing)
    (room : Nat) :
    (framing.advance room).Lightens framing.weight := by
  cases framing with
  | chunked decoder =>
      have hLight := decoder.lightens_advance room
      simp only [advance]
      cases hRound : decoder.advance room with
      | read capacity => trivial
      | again next =>
          rw [hRound] at hLight
          exact hLight
      | finish next result =>
          rw [hRound] at hLight
          exact hLight
  | sized limit =>
      simp only [advance]
      split
      · refine ⟨Nat.le_refl _, ?_⟩
        intro data hData
        cases hData
        rfl
      · trivial
  | unframed => trivial

theorem consumes_receive
    (framing : Framing)
    (data : Bytes) :
    (framing.receive (.ready data)).Consumes framing.weight
      data := by
  cases framing with
  | chunked decoder =>
      have hConsumes := decoder.consumes_receive data
      simp only [receive]
      cases hRound : decoder.receive (.ready data) with
      | read capacity =>
          rw [hRound] at hConsumes
          exact hConsumes.elim
      | again next =>
          rw [hRound] at hConsumes
          exact hConsumes
      | finish next result =>
          rw [hRound] at hConsumes
          exact hConsumes
  | sized limit =>
      refine ⟨Nat.le_refl _, ?_⟩
      intro out hOut hSome
      cases hOut
      exact hSome
  | unframed =>
      refine ⟨Nat.le_refl _, ?_⟩
      intro out hOut hSome
      cases hOut
      exact hSome

end Framing

section

variable {parse : Bytes → HeadStatus}
variable {s t : SourceStream}
variable {chain : ChainReader}
variable {room : Nat}

/- A round without a read makes the reader lighter. -/
theorem rank_of_lightens
    {weight : Nat}
    {round : BodyRound}
    (hLight : round.Lightens weight)
    (hAfter : s.after chain room round = some t) :
    t.rank < 8 * (s.ahead chain).length + weight + 2 := by
  cases round with
  | read capacity => cases hAfter
  | again framing =>
      cases hAfter
      simp only [BodyRound.Lightens] at hLight
      simp only [SourceStream.rank, SourceStream.ahead,
        CallPhase.weight]
      omega
  | finish framing result =>
      rcases hLight with ⟨hWeight, hEmpty⟩
      cases result with
      | error e =>
          cases hAfter
          simp only [SourceStream.rank, SourceStream.ahead,
            CallPhase.weight]
          omega
      | ok data =>
          rw [hEmpty data rfl] at hAfter
          cases hAfter
          simp only [SourceStream.rank, SourceStream.ahead,
            CallPhase.weight]
          omega

/- A read lowers what is ahead by what it gives. -/
theorem rank_of_consumes
    {weight whole : Nat}
    {data : Bytes}
    {round : BodyRound}
    (hConsumes : round.Consumes weight data)
    (hWhole : (s.ahead chain).length + data.length = whole)
    (hAfter : s.after chain room round = some t) :
    t.rank < 8 * whole + weight + 2 := by
  have hTaken (hSome : data ≠ []) : 0 < data.length :=
    List.length_pos_iff.mpr hSome
  simp only [SourceStream.ahead] at hWhole
  cases round with
  | read capacity => cases hAfter
  | again framing =>
      cases hAfter
      rcases hConsumes with ⟨hSome, hWeight⟩
      have hPos := hTaken hSome
      simp only [SourceStream.rank, SourceStream.ahead,
        CallPhase.weight]
      omega
  | finish framing result =>
      rcases hConsumes with ⟨hWeight, hSome⟩
      cases result with
      | error e =>
          cases hAfter
          simp only [SourceStream.rank, SourceStream.ahead,
            CallPhase.weight]
          omega
      | ok out =>
          cases out with
          | nil =>
              cases hAfter
              simp only [SourceStream.rank,
                SourceStream.ahead, CallPhase.weight]
              omega
          | cons byte out =>
              have hPos :=
                hTaken (hSome _ rfl (List.cons_ne_nil _ _))
              cases hAfter
              simp only [SourceStream.rank,
                SourceStream.ahead, CallPhase.weight]
              omega

theorem rank_of_polling
    {framing : Framing}
    (hPhase : s.phase = .body chain framing (.polling room)) :
    s.rank =
      8 * (s.ahead chain).length + framing.weight + 2 := by
  simp only [SourceStream.rank, hPhase, CallPhase.weight]

/- Every step that delivers is one nearer to the end. -/
theorem rank_of_delivers
    {label : StreamLabel}
    (hLabel : label.Delivers)
    (hStep : s.step parse label = some t) :
    t.rank < s.rank := by
  cases label with
  | readHead _ | headFails _ | accept | turnAway | pending
  | breaks _ =>
      exact hLabel.elim
  | poll room =>
      simp only [SourceStream.step] at hStep
      split at hStep
      · rename_i chain framing hPhase
        split at hStep
        · cases hStep
          simp only [SourceStream.rank, hPhase,
            SourceStream.ahead, CallPhase.weight]
          omega
        · cases hStep
      · cases hStep
  | advance =>
      simp only [SourceStream.step] at hStep
      split at hStep
      · rename_i chain framing room hPhase
        rw [rank_of_polling hPhase]
        exact
          rank_of_lightens (framing.lightens_advance room)
            hStep
      · cases hStep
  | replay =>
      simp only [SourceStream.step] at hStep
      split at hStep
      · rename_i chain framing room hPhase
        split at hStep
        · rename_i capacity byte data hRound hSome
          have hLess :
              (chain.replayed capacity).length ≤
                (s.ahead chain).length := by
            rw [← take_replayed s chain capacity,
              List.length_take]
            exact Nat.min_le_right _ _
          rw [rank_of_polling hPhase]
          apply
            rank_of_consumes
              (framing.consumes_receive _) _ hStep
          rw [ahead_replayed, List.length_drop]
          omega
        · cases hStep
      · cases hStep
  | read count =>
      simp only [SourceStream.step] at hStep
      split at hStep
      · rename_i chain framing room hPhase
        split at hStep
        · rename_i capacity hRound hNone
          split at hStep
          · rename_i hCan
            have hLess := hCan.2.1
            rw [rank_of_polling hPhase]
            apply
              rank_of_consumes
                (framing.consumes_receive _) _ hStep
            simp only [SourceStream.ahead, hNone,
              List.nil_append, List.length_drop,
              List.length_take]
            omega
          · cases hStep
        · cases hStep
      · cases hStep

/- A round that does not ask for a read comes to an end. -/
theorem after_isSome
    (s : SourceStream)
    (chain : ChainReader)
    (room : Nat)
    (round : BodyRound)
    (hRound : ∀ capacity, round ≠ .read capacity) :
    ∃ t, s.after chain room round = some t := by
  cases round with
  | read capacity => exact absurd rfl (hRound capacity)
  | again framing => exact ⟨_, rfl⟩
  | finish framing result =>
      cases result with
      | error e => exact ⟨_, rfl⟩
      | ok data => cases data <;> exact ⟨_, rfl⟩

theorem receive_ne_read
    (framing : Framing)
    (data : Bytes)
    (capacity : Nat) :
    framing.receive (.ready data) ≠ .read capacity := by
  intro hRead
  have hConsumes := framing.consumes_receive data
  rw [hRead] at hConsumes
  exact hConsumes

/- Short of its end, a call can always be taken further. -/
theorem delivers_of_body
    {framing : Framing}
    {call : CallPhase}
    (hPhase : s.phase = .body chain framing call)
    (hRoom : ∀ room, call = .polling room → 0 < room)
    (hGoes : ∀ outcome, call ≠ .ended outcome) :
    ∃ label t,
      label.Delivers ∧ s.step parse label = some t := by
  cases call with
  | ended outcome => exact absurd rfl (hGoes outcome)
  | between =>
      have hStep :
          s.step parse (.poll 1) =
            some
              { s with
                phase := .body chain framing (.polling 1) } := by
        simp only [SourceStream.step, hPhase]
        rw [if_pos Nat.one_pos]
      exact ⟨.poll 1, _, trivial, hStep⟩
  | polling room =>
      by_cases hReads :
          ∃ capacity, framing.advance room = .read capacity
      · rcases hReads with ⟨capacity, hRound⟩
        have hCapacity :=
          Framing.capacity_pos (hRoom room rfl) hRound
        cases hRemaining : chain.remaining with
        | nil =>
            let count := min capacity s.wire.length
            have hCan : s.CanRead count capacity := by
              refine
                ⟨Nat.min_le_left _ _, Nat.min_le_right _ _, ?_⟩
              intro hNone
              apply List.length_eq_zero_iff.mp
              omega
            rcases
                after_isSome
                  { s.count (s.wire.take count) with
                    wire := s.wire.drop count }
                  chain room _
                  (receive_ne_read framing
                    (s.wire.take count)) with
              ⟨t, hAfter⟩
            refine ⟨.read count, t, trivial, ?_⟩
            simp only [SourceStream.step, hPhase, hRound,
              hRemaining]
            rw [if_pos hCan]
            exact hAfter
        | cons byte data =>
            rcases
                after_isSome
                  (s.count (chain.replayed capacity))
                  (chain.advance
                    (chain.replayed capacity).length)
                  room _
                  (receive_ne_read framing
                    (chain.replayed capacity)) with
              ⟨t, hAfter⟩
            refine ⟨.replay, t, trivial, ?_⟩
            simp only [SourceStream.step, hPhase, hRound,
              hRemaining]
            exact hAfter
      · rcases
            after_isSome s chain room (framing.advance room)
              (fun capacity hRead =>
                hReads ⟨capacity, hRead⟩) with
          ⟨t, hAfter⟩
        refine ⟨.advance, t, trivial, ?_⟩
        simp only [SourceStream.step, hPhase]
        exact hAfter

end

end RustyIce

------------------------------------------------------------
-- The Body Of A Request
------------------------------------------------------------

namespace RustyIce

/- A body in chunks is its payload; what follows is not. -/
theorem requestBody_encode
    {headers : HeaderMap}
    (hChunked : isChunked headers = true)
    (body : ChunkedBody)
    (extra : Bytes) :
    requestBody headers (body.encode ++ extra) =
      (body.payload, .eof) := by
  rw [requestBody, if_pos hChunked, decode_encode]

/- The buffer in front of the socket, once there is one. -/
def SourceStream.reader
    (s : SourceStream) : Option ChainReader :=
  match s.phase with
  | .body chain _ _ => some chain
  | .broken chain _ => some chain
  | _ => none

/-
  The ingest is handed a beginning of the body, and all of it
  by the time it finds the end; every byte of `rest` is
  counted once, when a reader comes to it. It can always read
  on, and only so often.
-/
structure SeesBody
    (parse : Bytes → HeadStatus)
    (headers : HeaderMap)
    (rest : Bytes)
    (before : Nat)
    (s : SourceStream) : Prop where
  handed : s.handed <+: (requestBody headers rest).1
  untouched : s.reader = none → s.Untouched before
  counted :
    ∀ chain ∈ s.reader, Counted rest before s chain
  ends :
    ∀ chain framing outcome,
      s.phase = .body chain framing (.ended outcome) →
        (s.handed, outcome) = requestBody headers rest
  moves :
    ∀ chain framing call,
      s.phase = .body chain framing call →
        (∀ outcome, call ≠ .ended outcome) →
          ∃ label t,
            label.Delivers ∧ s.step parse label = some t
  lowers :
    ∀ label t,
      label.Delivers →
        s.step parse label = some t → t.rank < s.rank

/- What is handed on is never more than the body. -/
theorem handed_prefix
    {body : Bytes × DecoderOutcome}
    {handed ahead : Bytes}
    {framing : Framing}
    {call : CallPhase}
    (hCall : InCall body handed ahead framing call) :
    handed <+: body.1 := by
  cases call with
  | between =>
      simp only [InCall] at hCall
      rw [← hCall]
      exact List.prefix_append _ _
  | polling room =>
      rw [← hCall.2]
      exact List.prefix_append _ _
  | ended outcome =>
      simp only [InCall] at hCall
      rw [← hCall]

/-
  Whatever follows the head of a request, and in whatever
  pieces both arrive, the ingest sees the body the headers
  tell of.
-/
theorem ingest_sees_body
    {parse : Bytes → HeadStatus}
    {head : Bytes}
    {request : RequestHead}
    (hParse : ParsesHead parse head request)
    {rest : Bytes}
    {before : Nat}
    {s : SourceStream}
    (hReach :
      (streamMachine parse (head ++ rest) before).Reachable
        s) :
    SeesBody parse request.headers rest before s := by
  have hInv := streamInv_of_reachable hParse hReach
  have hLowers (label : StreamLabel) (t : SourceStream)
      (hLabel : label.Delivers)
      (hStep : s.step parse label = some t) :
      t.rank < s.rank :=
    rank_of_delivers hLabel hStep
  have hNone
      (hUntouched : s.Untouched before)
      (hReader : s.reader = none)
      (hNoBody :
        ∀ chain framing call,
          s.phase ≠ .body chain framing call) :
      SeesBody parse request.headers rest before s :=
    { handed := by
        rw [hUntouched.1]
        exact List.nil_prefix
      untouched := fun _ => hUntouched
      counted := by simp [hReader]
      ends := fun chain framing outcome hPhase =>
        absurd hPhase (hNoBody chain framing _)
      moves := fun chain framing call hPhase =>
        absurd hPhase (hNoBody chain framing call)
      lowers := hLowers }
  cases hPhase : s.phase with
  | head buf =>
      simp only [StreamInv, hPhase] at hInv
      apply hNone hInv.2
      · simp [SourceStream.reader, hPhase]
      · simp [hPhase]
  | parsed found =>
      simp only [StreamInv, hPhase] at hInv
      apply hNone hInv.2
      · simp [SourceStream.reader, hPhase]
      · simp [hPhase]
  | turnedAway =>
      simp only [StreamInv, hPhase] at hInv
      apply hNone hInv
      · simp [SourceStream.reader, hPhase]
      · simp [hPhase]
  | headFailed e =>
      simp only [StreamInv, hPhase] at hInv
      apply hNone hInv
      · simp [SourceStream.reader, hPhase]
      · simp [hPhase]
  | broken chain e =>
      simp only [StreamInv, hPhase] at hInv
      exact
        { handed := hInv.2
          untouched := by simp [SourceStream.reader, hPhase]
          counted := by
            simp [SourceStream.reader, hPhase, hInv.1]
          ends := by simp [hPhase]
          moves := by simp [hPhase]
          lowers := hLowers }
  | body chain framing call =>
      simp only [StreamInv, hPhase] at hInv
      rcases hInv with ⟨hCounted, hCall⟩
      exact
        { handed := handed_prefix hCall
          untouched := by simp [SourceStream.reader, hPhase]
          counted := by
            simp [SourceStream.reader, hPhase, hCounted]
          ends := by
            intro chain' framing' outcome hEnded
            rw [hPhase] at hEnded
            cases hEnded
            exact hCall
          moves := by
            intro chain' framing' call' hNow hGoes
            have hRoom (room : Nat)
                (hPolling : call = .polling room) :
                0 < room := by
              rw [hPolling] at hCall
              exact hCall.1
            rw [hPhase] at hNow
            cases hNow
            exact delivers_of_body hPhase hRoom hGoes
          lowers := hLowers }

/- A parser that knows one head. -/
def parseOnly
    (head : Bytes)
    (request : RequestHead)
    (buf : Bytes) : HeadStatus :=
  if head <+: buf then .complete head.length request
  else if buf <+: head then .partialHead
  else .invalid "invalid token"

theorem parseOnly_parses
    (head : Bytes)
    (request : RequestHead) :
    ParsesHead (parseOnly head request) head request where
  complete := by
    intro more
    rw [parseOnly, if_pos (List.prefix_append _ _)]
  unfinished := by
    intro front missing hWhole hMissing
    have hLength := List.length_pos_iff.mpr hMissing
    have hNot : ¬ head <+: front := by
      intro hPrefix
      have hLess := hPrefix.length_le
      rw [← hWhole, List.length_append] at hLess
      omega
    rw [parseOnly, if_neg hNot,
      if_pos ⟨missing, hWhole⟩]

def sizedHead : Bytes :=
  utf8Bytes "PUT /live HTTP/1.1\r\nContent-Length: 3\r\n\r\n"

def sizedRequest : RequestHead where
  path := some "/live"
  headers := [("content-length", [51])]

/-
  A body of three bytes, two of them read with the end of the
  head, and a byte behind it that stays where it is.
-/
theorem ingest_sees_body_sized :
    ∃ s,
      (streamMachine (parseOnly sizedHead sizedRequest)
          (sizedHead ++ [1, 2, 3, 4]) 100).run
          (.start (sizedHead ++ [1, 2, 3, 4]) 100)
          [.readHead 10, .readHead 33, .accept, .poll 8,
            .replay, .poll 8, .pending, .poll 8, .read 1,
            .poll 8, .advance] = some s ∧
        s.handed = [1, 2, 3] ∧ s.bytesReceived = 103 ∧
          SeesBody (parseOnly sizedHead sizedRequest)
            sizedRequest.headers [1, 2, 3, 4] 100 s := by
  have hRun :
      (streamMachine (parseOnly sizedHead sizedRequest)
          (sizedHead ++ [1, 2, 3, 4]) 100).run
          (.start (sizedHead ++ [1, 2, 3, 4]) 100)
          [.readHead 10, .readHead 33, .accept, .poll 8,
            .replay, .poll 8, .pending, .poll 8, .read 1,
            .poll 8, .advance] = some _ :=
    rfl
  refine ⟨_, hRun, rfl, rfl, ?_⟩
  exact
    ingest_sees_body
      (parseOnly_parses sizedHead sizedRequest)
      (Library.Machine.reachable_of_run rfl hRun)

end RustyIce

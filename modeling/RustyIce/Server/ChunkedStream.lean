import RustyIce.Server.Chunked

/-
  Chunked bodies as they are sent, and what a reader gets of
  one however its bytes arrive: the payload and then the end,
  or, cut short anywhere, what is there of the payload and
  then an error.

  Main declarations:
    * `SizeLine`, `Chunk`, `TrailerLine`, `ChunkedBody`
    * `ChunkedBody.encode`, `ChunkedBody.present`
    * `parseChunkSize_sizeLine`
    * `Decodes`, `FailsAt`
    * `chunked_stream`
-/

------------------------------------------------------------
-- Bodies
------------------------------------------------------------

namespace RustyIce

/- The number that hex digits spell, after `acc`. -/
def hexValueFrom (acc : Nat) (digits : List Char) : Nat :=
  digits.foldl
    (fun value c => value * 16 + (hexDigit c).getD 0) acc

/-
  A size line without its end: any spelling of the size in
  hex digits, and any extension that fits.
-/
structure SizeLine (size : Nat) where
  digits : List Char
  extension : Bytes
  nonempty : digits ≠ []
  hex : ∀ c ∈ digits, (hexDigit c).isSome
  spells : hexValueFrom 0 digits = size
  separated :
    extension = [] ∨ ∃ rest, extension = 59 :: rest
  unbroken : findCrlf extension = none
  fits :
    (digits.flatMap String.utf8EncodeChar).length +
        extension.length ≤
      62

namespace SizeLine

variable {size : Nat}

def digitBytes (line : SizeLine size) : Bytes :=
  line.digits.flatMap String.utf8EncodeChar

def bytes (line : SizeLine size) : Bytes :=
  line.digitBytes ++ line.extension

end SizeLine

/- A payload some machine holds, behind its size line. -/
structure Chunk where
  payload : Bytes
  nonempty : payload ≠ []
  bounded : payload.length < 2 ^ 64
  line : SizeLine payload.length

structure TrailerLine where
  bytes : Bytes
  nonempty : bytes ≠ []
  unbroken : findCrlf bytes = none
  fits : bytes.length ≤ 4094

structure ChunkedBody where
  chunks : List Chunk
  last : SizeLine 0
  trailers : List TrailerLine

namespace Chunk

def header (c : Chunk) : Bytes :=
  c.line.bytes ++ crlf

def encode (c : Chunk) : Bytes :=
  c.header ++ c.payload ++ crlf

end Chunk

def encodeChunks (chunks : List Chunk) : Bytes :=
  chunks.flatMap Chunk.encode

def payloads (chunks : List Chunk) : Bytes :=
  chunks.flatMap Chunk.payload

/- The trailers and the blank line. -/
def encodeTrailers (lines : List TrailerLine) : Bytes :=
  lines.flatMap (fun line => line.bytes ++ crlf) ++ crlf

namespace ChunkedBody

/- A body from some chunk on. -/
def encodeFrom
    (body : ChunkedBody)
    (chunks : List Chunk) : Bytes :=
  encodeChunks chunks ++
    (body.last.bytes ++ crlf ++ encodeTrailers body.trailers)

def encode (body : ChunkedBody) : Bytes :=
  body.encodeFrom body.chunks

def payload (body : ChunkedBody) : Bytes :=
  payloads body.chunks

end ChunkedBody

/- The payload bytes among the first `count` bytes. -/
def presentIn : List Chunk → Nat → Bytes
| [], _ => []
| c :: rest, count =>
    c.payload.take (count - c.header.length) ++
      presentIn rest (count - c.encode.length)

def ChunkedBody.present
    (body : ChunkedBody)
    (count : Nat) : Bytes :=
  presentIn body.chunks count

end RustyIce

------------------------------------------------------------
-- Sizes Are Read Back
------------------------------------------------------------

namespace RustyIce

/- A hex digit is one byte, and none that ends a line. -/
theorem hexDigit_byte
    {c : Char}
    (hHex : (hexDigit c).isSome) :
    isWhiteSpace c = false ∧ c ≠ '+' ∧
      ∀ byte ∈ String.utf8EncodeChar c,
        byte ≠ 59 ∧ byte ≠ 13 ∧ byte ≠ 10 := by
  unfold hexDigit at hHex
  split at hHex
  all_goals
    first
    | exact
        ⟨rfl, by decide,
          List.forall_mem_singleton.mpr (by decide)⟩
    | cases hHex

/- Values only grow. -/
theorem le_hexValueFrom
    (acc : Nat)
    (digits : List Char) :
    acc ≤ hexValueFrom acc digits := by
  induction digits generalizing acc with
  | nil => exact Nat.le_refl _
  | cons c rest ih =>
      have hRest := ih (acc * 16 + (hexDigit c).getD 0)
      unfold hexValueFrom at hRest ⊢
      rw [List.foldl_cons]
      omega

/- No digit is refused while 64 bits hold the value. -/
theorem hexDigitsFrom_eq
    {acc : Nat}
    {digits : List Char}
    (hHex : ∀ c ∈ digits, (hexDigit c).isSome)
    (hBound : hexValueFrom acc digits < 2 ^ 64) :
    hexDigitsFrom acc digits =
      some (hexValueFrom acc digits) := by
  induction digits generalizing acc with
  | nil => rfl
  | cons c rest ih =>
      rcases Option.isSome_iff_exists.mp
          (hHex c List.mem_cons_self) with
        ⟨digit, hDigit⟩
      have hNext :
          hexValueFrom acc (c :: rest) =
            hexValueFrom (acc * 16 + digit) rest := by
        simp [hexValueFrom, hDigit]
      have hGrows := le_hexValueFrom (acc * 16 + digit) rest
      rw [hNext] at hBound ⊢
      rw [hexDigitsFrom, hDigit]
      simp only
      rw [if_pos (by omega)]
      apply ih _ hBound
      intro other hOther
      exact hHex other (List.mem_cons_of_mem _ hOther)

theorem u64FromHex_eq
    {digits : List Char}
    (hSome : digits ≠ [])
    (hHex : ∀ c ∈ digits, (hexDigit c).isSome)
    (hBound : hexValueFrom 0 digits < 2 ^ 64) :
    u64FromHex digits = some (hexValueFrom 0 digits) := by
  cases digits with
  | nil => exact absurd rfl hSome
  | cons c rest =>
      have hPlus :=
        (hexDigit_byte (hHex c List.mem_cons_self)).2.1
      unfold u64FromHex
      split
      · rename_i hNil
        cases hNil
      · rename_i hCons
        cases hCons
        exact absurd rfl hPlus
      · rename_i hCons
        cases hCons
        exact absurd rfl hPlus
      · rename_i hCons
        cases hCons
        exact hexDigitsFrom_eq hHex hBound

/- There is nothing around hex digits to trim. -/
theorem trimText_eq
    {text : List Char}
    (hText : ∀ c ∈ text, isWhiteSpace c = false) :
    trimText text = text := by
  have hDrop :
      ∀ other : List Char,
        (∀ c ∈ other, isWhiteSpace c = false) →
          other.dropWhile isWhiteSpace = other := by
    intro other hOther
    cases other with
    | nil => rfl
    | cons c rest =>
        rw [List.dropWhile_cons_of_neg]
        simp [hOther c List.mem_cons_self]
  unfold trimText
  rw [hDrop text hText, hDrop text.reverse]
  · exact List.reverse_reverse text
  · intro c hMem
    exact hText c (List.mem_reverse.mp hMem)

namespace SizeLine

variable {size : Nat}

theorem mem_digitBytes
    {line : SizeLine size}
    {byte : UInt8}
    (hMem : byte ∈ line.digitBytes) :
    byte ≠ 59 ∧ byte ≠ 13 ∧ byte ≠ 10 := by
  rcases List.mem_flatMap.mp hMem with ⟨c, hC, hByte⟩
  exact (hexDigit_byte (line.hex c hC)).2.2 byte hByte

/- The extension is where the first semicolon stands. -/
theorem takeWhile_bytes (line : SizeLine size) :
    line.bytes.takeWhile (· ≠ 59) = line.digitBytes := by
  have hAll :
      ∀ byte ∈ line.digitBytes, decide (byte ≠ 59) = true := by
    intro byte hMem
    exact decide_eq_true (mem_digitBytes hMem).1
  unfold bytes
  rw [List.takeWhile_append_of_pos hAll]
  rcases line.separated with hNone | ⟨rest, hRest⟩
  · simp [hNone]
  · simp [hRest]

theorem findCrlf_append
    {front rear : Bytes}
    (hFront : ∀ byte ∈ front, byte ≠ 13)
    (hRear : findCrlf rear = none) :
    findCrlf (front ++ rear) = none := by
  unfold findCrlf at hRear ⊢
  induction front with
  | nil => exact hRear
  | cons a rest ih =>
      have hRest :=
        ih fun byte hMem =>
          hFront byte (List.mem_cons_of_mem _ hMem)
      have hFirst := hFront a List.mem_cons_self
      rw [List.cons_append]
      cases hMore : rest ++ rear with
      | nil => rfl
      | cons b more =>
          rw [hMore] at hRest
          rw [Library.Delimited.findPair,
            if_neg fun h => hFirst h.1, hRest]
          rfl

theorem unbroken_bytes (line : SizeLine size) :
    findCrlf line.bytes = none :=
  findCrlf_append
    (fun _ hMem => (mem_digitBytes hMem).2.1) line.unbroken

theorem length_bytes (line : SizeLine size) :
    line.bytes.length ≤ 62 := by
  unfold bytes
  rw [List.length_append]
  exact line.fits

/- Any spelling of a size is read as that size. -/
theorem parseChunkSize_bytes
    (line : SizeLine size)
    (hBound : size < 2 ^ 64) :
    parseChunkSize line.bytes = .ok size := by
  unfold parseChunkSize
  rw [line.takeWhile_bytes, digitBytes, utf8Text_encode]
  simp only
  have hTrim : trimText line.digits = line.digits :=
    trimText_eq fun c hMem =>
      (hexDigit_byte (line.hex c hMem)).1
  rw [hTrim, u64FromHex_eq line.nonempty line.hex]
  · simp only [line.spells]
  · rw [line.spells]
    exact hBound

end SizeLine

end RustyIce

------------------------------------------------------------
-- Where A Decoder Is In A Body
------------------------------------------------------------

namespace RustyIce

namespace ChunkedBody

/- The size line of the first chunk, or of the last one. -/
def sizeLine
    (body : ChunkedBody) : List Chunk → Bytes
| [] => body.last.bytes
| c :: _ => c.line.bytes

def afterSizeLine
    (body : ChunkedBody) : List Chunk → Bytes
| [] => encodeTrailers body.trailers
| c :: rest => c.payload ++ crlf ++ body.encodeFrom rest

theorem encodeFrom_eq
    (body : ChunkedBody)
    (chunks : List Chunk) :
    body.encodeFrom chunks =
      body.sizeLine chunks ++ crlf ++
        body.afterSizeLine chunks := by
  cases chunks with
  | nil => rfl
  | cons c rest =>
      simp [encodeFrom, encodeChunks, sizeLine,
        afterSizeLine, Chunk.encode, Chunk.header]

theorem unbroken_sizeLine
    (body : ChunkedBody)
    (chunks : List Chunk) :
    findCrlf (body.sizeLine chunks) = none := by
  cases chunks with
  | nil => exact body.last.unbroken_bytes
  | cons c rest => exact c.line.unbroken_bytes

theorem length_sizeLine
    (body : ChunkedBody)
    (chunks : List Chunk) :
    (body.sizeLine chunks).length ≤ 62 := by
  cases chunks with
  | nil => exact body.last.length_bytes
  | cons c rest => exact c.line.length_bytes

end ChunkedBody

/- The first of the trailers, or the blank line. -/
def firstLine : List TrailerLine → Bytes
| [] => []
| line :: _ => line.bytes

def afterFirstLine : List TrailerLine → Bytes
| [] => []
| _ :: rest => encodeTrailers rest

theorem encodeTrailers_eq (lines : List TrailerLine) :
    encodeTrailers lines =
      firstLine lines ++ crlf ++ afterFirstLine lines := by
  cases lines with
  | nil => rfl
  | cons line rest =>
      simp [encodeTrailers, firstLine, afterFirstLine]

theorem unbroken_firstLine (lines : List TrailerLine) :
    findCrlf (firstLine lines) = none := by
  cases lines with
  | nil => rfl
  | cons line rest => exact line.unbroken

theorem length_firstLine (lines : List TrailerLine) :
    (firstLine lines).length ≤ 4094 := by
  cases lines with
  | nil => exact Nat.zero_le _
  | cons line rest => exact line.fits

/-
  The decoder has handed out `yielded` and its inner stream
  has still to give `rest`, of a body that lacks `missing` at
  its end and is followed by `extra`.
-/
inductive Reading
    (body : ChunkedBody)
    (missing extra : Bytes) :
    ChunkedDecoder → Bytes → Bytes → Prop
| size
    {finished chunks : List Chunk} {scratch rest : Bytes} :
    body.chunks = finished ++ chunks →
      scratch <+: body.sizeLine chunks ++ crlf →
        scratch ++ (rest ++ missing) =
            body.encodeFrom chunks ++ extra →
          Reading body missing extra
            { state := .nextSize, scratch := scratch } rest
            (payloads finished)
| payload
    {finished chunks : List Chunk} {c : Chunk}
    {front back rest : Bytes} :
    body.chunks = finished ++ c :: chunks →
      c.payload = front ++ back →
        rest ++ missing =
            back ++
              (crlf ++ body.encodeFrom chunks ++ extra) →
          Reading body missing extra
            { state := .payload back.length, scratch := [] }
            rest (payloads finished ++ front)
| after
    {finished chunks : List Chunk} {c : Chunk}
    {seen : Nat} {rest : Bytes} :
    body.chunks = finished ++ c :: chunks →
      seen < 2 →
        rest ++ missing =
            crlf.drop seen ++
              (body.encodeFrom chunks ++ extra) →
          Reading body missing extra
            { state := .afterPayload seen, scratch := [] }
            rest (payloads finished ++ c.payload)
| trailers
    {lines : List TrailerLine} {scratch rest : Bytes} :
    lines <:+ body.trailers →
      scratch <+: firstLine lines ++ crlf →
        scratch ++ (rest ++ missing) =
            encodeTrailers lines ++ extra →
          Reading body missing extra
            { state := .trailers, scratch := scratch } rest
            body.payload
| done {rest : Bytes} :
    rest ++ missing = extra →
      Reading body missing extra
        { state := .done, scratch := [] } rest body.payload

end RustyIce

------------------------------------------------------------
-- Payload Bytes That Are There
------------------------------------------------------------

namespace RustyIce

@[simp] theorem presentIn_zero (chunks : List Chunk) :
    presentIn chunks 0 = [] := by
  induction chunks with
  | nil => rfl
  | cons c rest ih => simp [presentIn, ih]

theorem length_encode (c : Chunk) :
    c.encode.length =
      c.header.length + c.payload.length + 2 := by
  simp only [Chunk.encode, List.length_append]
  rfl

/- Chunks that are there whole. -/
theorem presentIn_append
    (finished chunks : List Chunk)
    (count : Nat) :
    presentIn (finished ++ chunks)
        ((encodeChunks finished).length + count) =
      payloads finished ++ presentIn chunks count := by
  induction finished with
  | nil => simp [encodeChunks, payloads]
  | cons c rest ih =>
      have hLength := length_encode c
      have hTake :
          c.payload.length ≤
            (encodeChunks (c :: rest)).length + count -
              c.header.length := by
        simp only [encodeChunks, List.flatMap_cons,
          List.length_append]
        omega
      have hDrop :
          (encodeChunks (c :: rest)).length + count -
              c.encode.length =
            (encodeChunks rest).length + count := by
        simp only [encodeChunks, List.flatMap_cons,
          List.length_append]
        omega
      rw [List.cons_append, presentIn,
        List.take_of_length_le hTake, hDrop, ih]
      simp [payloads]

/- What is there of the payload is its beginning. -/
theorem presentIn_prefix
    (chunks : List Chunk)
    (count : Nat) :
    presentIn chunks count <+: payloads chunks := by
  induction chunks generalizing count with
  | nil => exact List.nil_prefix
  | cons c rest ih =>
      have hLength := length_encode c
      unfold payloads
      rw [presentIn, List.flatMap_cons]
      by_cases hWhole : c.encode.length ≤ count
      · rw [List.take_of_length_le (by omega)]
        exact (List.prefix_append_right_inj _).mpr (ih _)
      · have hZero : count - c.encode.length = 0 := by omega
        rw [hZero, presentIn_zero, List.append_nil]
        exact
          (List.take_prefix _ _).trans
            (List.prefix_append _ _)

/- With more bytes there is more of the payload. -/
theorem presentIn_mono
    (chunks : List Chunk)
    {count more : Nat}
    (hLess : count ≤ more) :
    presentIn chunks count <+: presentIn chunks more := by
  induction chunks generalizing count more with
  | nil => exact List.nil_prefix
  | cons c rest ih =>
      have hLength := length_encode c
      rw [presentIn, presentIn]
      by_cases hWhole : c.encode.length ≤ count
      · rw [List.take_of_length_le (by omega),
          List.take_of_length_le (by omega)]
        exact
          (List.prefix_append_right_inj _).mpr
            (ih (by omega))
      · have hZero : count - c.encode.length = 0 := by omega
        rw [hZero, presentIn_zero, List.append_nil]
        have hTake :
            c.payload.take (count - c.header.length) <+:
              c.payload.take (more - c.header.length) :=
          List.take_prefix_take_left (by omega)
        exact hTake.trans (List.prefix_append _ _)

theorem length_encodeFrom
    {body : ChunkedBody}
    {finished chunks : List Chunk}
    (hChunks : body.chunks = finished ++ chunks) :
    body.encode.length =
      (encodeChunks finished).length +
        (body.encodeFrom chunks).length := by
  simp only [ChunkedBody.encode, ChunkedBody.encodeFrom,
    hChunks, encodeChunks, List.flatMap_append,
    List.length_append]
  omega

/- Behind the chunks all of the payload is there. -/
theorem present_of_length_le
    {body : ChunkedBody}
    {consumed : Nat}
    (hRead : (encodeChunks body.chunks).length ≤ consumed) :
    body.present consumed = body.payload := by
  have hPresent :=
    presentIn_append body.chunks []
      (consumed - (encodeChunks body.chunks).length)
  rw [List.append_nil, Nat.add_sub_cancel' hRead] at hPresent
  rw [ChunkedBody.present, hPresent]
  simp [presentIn, ChunkedBody.payload]

/- A decoder has handed out what it has read of the payload. -/
theorem Reading.present
    {body : ChunkedBody}
    {missing extra rest yielded : Bytes}
    {decoder : ChunkedDecoder}
    (hReading :
      Reading body missing extra decoder rest yielded)
    {consumed : Nat}
    (hConsumed :
      consumed + rest.length + missing.length =
        body.encode.length + extra.length) :
    yielded = body.present consumed := by
  cases hReading with
  | @size finished chunks scratch _ hChunks hScratch hRest =>
      have hLength := length_encodeFrom hChunks
      have hBytes := congrArg List.length hRest
      have hShort := hScratch.length_le
      simp only [List.length_append] at hBytes hShort
      have hCount :
          consumed =
            (encodeChunks finished).length +
              scratch.length := by
        omega
      rw [hCount, ChunkedBody.present, hChunks,
        presentIn_append]
      cases chunks with
      | nil => simp [presentIn]
      | cons c more =>
          have hHeader :
              scratch.length - c.header.length = 0 := by
            simp only [Chunk.header, List.length_append]
            simp only [ChunkedBody.sizeLine] at hShort
            omega
          have hEncode := length_encode c
          have hAfter :
              scratch.length - c.encode.length = 0 := by
            omega
          simp [presentIn, hHeader, hAfter]
  | @payload finished chunks c front back _ hChunks hPayload
      hRest =>
      have hLength := length_encodeFrom hChunks
      have hBytes := congrArg List.length hRest
      have hEncode := length_encode c
      have hParts := congrArg List.length hPayload
      simp only [List.length_append,
        ChunkedBody.encodeFrom, encodeChunks,
        List.flatMap_cons] at hBytes hLength hParts
      have hTwo : crlf.length = 2 := rfl
      have hCount :
          consumed =
            (encodeChunks finished).length +
              (c.header.length + front.length) := by
        simp only [encodeChunks]
        omega
      rw [hCount, ChunkedBody.present, hChunks,
        presentIn_append, presentIn, Nat.add_sub_cancel_left]
      have hAfter :
          c.header.length + front.length - c.encode.length =
            0 := by
        omega
      rw [hAfter, presentIn_zero, hPayload]
      simp
  | @after finished chunks c seen _ hChunks hSeen hRest =>
      have hLength := length_encodeFrom hChunks
      have hBytes := congrArg List.length hRest
      have hEncode := length_encode c
      simp only [List.length_append, List.length_drop,
        ChunkedBody.encodeFrom, encodeChunks,
        List.flatMap_cons] at hBytes hLength
      have hTwo : crlf.length = 2 := rfl
      have hCount :
          consumed =
            (encodeChunks finished).length +
              (c.header.length + c.payload.length +
                seen) := by
        simp only [encodeChunks]
        omega
      rw [hCount, ChunkedBody.present, hChunks,
        presentIn_append, presentIn]
      have hAfter :
          c.header.length + c.payload.length + seen -
              c.encode.length =
            0 := by
        omega
      rw [hAfter, presentIn_zero,
        List.take_of_length_le (by omega), List.append_nil]
  | @trailers lines scratch _ hLines hScratch hRest =>
      have hWhole : body.chunks = body.chunks ++ [] := by simp
      have hLength := length_encodeFrom hWhole
      have hBytes := congrArg List.length hRest
      rcases hLines with ⟨before, hBefore⟩
      have hTrailers :
          (encodeTrailers lines).length ≤
            (encodeTrailers body.trailers).length := by
        rw [← hBefore]
        simp [encodeTrailers]
      simp only [List.length_append,
        ChunkedBody.encodeFrom, encodeChunks,
        List.flatMap_nil, List.length_nil] at hBytes hLength
      have hRead :
          (encodeChunks body.chunks).length ≤ consumed := by
        simp only [encodeChunks]
        omega
      exact (present_of_length_le hRead).symm
  | done hRest =>
      have hWhole : body.chunks = body.chunks ++ [] := by simp
      have hLength := length_encodeFrom hWhole
      have hBytes := congrArg List.length hRest
      simp only [List.length_append] at hBytes
      have hRead :
          (encodeChunks body.chunks).length ≤ consumed := by
        omega
      exact (present_of_length_le hRead).symm

end RustyIce

------------------------------------------------------------
-- Rounds
------------------------------------------------------------

namespace RustyIce

/-
  A line that arrives is taken when it is complete, and read
  on before; its length is never the trouble.
-/
theorem fillLine_of_prefix
    {state : DecoderState}
    {line scratch : Bytes}
    {maxBytes : Nat}
    (hFree : findCrlf line = none)
    (hPrefix : scratch <+: line ++ crlf)
    (hFits : line.length + 2 ≤ maxBytes)
    (found : Bytes → ChunkedDecoder → Round) :
    (scratch = line ++ crlf ∧
        ChunkedDecoder.fillLine
            { state := state, scratch := scratch } maxBytes
            found =
          found line { state := state, scratch := [] }) ∨
      (scratch.length < line.length + 2 ∧
        ChunkedDecoder.fillLine
            { state := state, scratch := scratch } maxBytes
            found =
          .read 1) := by
  have hApart : (13 : UInt8) ≠ 10 := by decide
  have hLength := hPrefix.length_le
  simp only [List.length_append] at hLength
  have hTwo : crlf.length = 2 := rfl
  unfold ChunkedDecoder.fillLine
  by_cases hWhole : scratch.length < line.length + 2
  · have hNone : findCrlf scratch = none :=
      Library.Delimited.findPair_incomplete hApart hFree
        hPrefix hWhole
    rw [hNone]
    simp only
    rw [if_neg (by omega)]
    exact .inr ⟨hWhole, rfl⟩
  · have hSame : scratch = line ++ crlf := by
      apply hPrefix.eq_of_length
      rw [List.length_append]
      omega
    have hFind : findCrlf (line ++ crlf) = some line.length :=
      Library.Delimited.findPair_complete hApart hFree
    rw [hSame, hFind]
    refine .inl ⟨rfl, ?_⟩
    simp [crlf]

/- A read of one byte of a line that is not complete. -/
theorem receiveLine_of_prefix
    {state : DecoderState}
    {line tail scratch rest missing : Bytes}
    (hShort : scratch.length < line.length + 2)
    (hRest :
      scratch ++ (rest ++ missing) = line ++ crlf ++ tail)
    {count : Nat}
    (hCount : count ≤ 1)
    (hZero : count = 0 → rest = []) :
    (rest = [] ∧ missing ≠ [] ∧
        ∃ e : IoError,
          e.kind = .unexpectedEof ∧
            ChunkedDecoder.receiveLine
                { state := state, scratch := scratch }
                (.ready (rest.take count)) =
              .finish { state := state, scratch := scratch }
                (.error e)) ∨
      ∃ byte more,
        rest = byte :: more ∧ rest.drop count = more ∧
          scratch ++ [byte] <+: line ++ crlf ∧
            ChunkedDecoder.receiveLine
                { state := state, scratch := scratch }
                (.ready (rest.take count)) =
              .again
                { state := state
                  scratch := scratch ++ [byte] } := by
  have hTwo : crlf.length = 2 := rfl
  cases rest with
  | nil =>
      left
      refine ⟨rfl, ?_, ?_⟩
      · rintro rfl
        have hBytes := congrArg List.length hRest
        simp only [List.append_nil, List.length_append]
          at hBytes
        omega
      · rw [List.take_nil]
        exact ⟨_, rfl, rfl⟩
  | cons byte more =>
      right
      have hOne : count = 1 := by
        rcases Nat.eq_zero_or_pos count with hNone | hPos
        · cases hZero hNone
        · omega
      subst hOne
      refine ⟨byte, more, rfl, rfl, ?_, rfl⟩
      have hWhole :
          scratch ++ byte :: (more ++ missing) =
            (line ++ crlf) ++ tail := by
        simpa using hRest
      apply Library.Delimited.extend_of_prefix hWhole
      rw [List.length_append]
      omega

section

variable {body : ChunkedBody}
variable {missing extra rest yielded : Bytes}
variable {decoder : ChunkedDecoder}

/- The round that takes a size line. -/
theorem Reading.of_sizeLine
    {finished chunks : List Chunk}
    (hChunks : body.chunks = finished ++ chunks)
    (hRest :
      rest ++ missing = body.afterSizeLine chunks ++ extra) :
    ∃ next,
      ChunkedDecoder.onSizeLine (body.sizeLine chunks)
          { state := .nextSize, scratch := [] } =
        .again next ∧
        Reading body missing extra next rest
          (payloads finished) := by
  unfold ChunkedDecoder.onSizeLine
  cases chunks with
  | nil =>
      have hParse :
          parseChunkSize (body.sizeLine []) = .ok 0 :=
        body.last.parseChunkSize_bytes (by decide)
      rw [hParse]
      refine ⟨_, rfl, ?_⟩
      have hPayload : payloads finished = body.payload := by
        rw [ChunkedBody.payload, hChunks, List.append_nil]
      rw [hPayload]
      exact
        .trailers (List.suffix_refl _) List.nil_prefix hRest
  | cons c more =>
      have hParse :
          parseChunkSize (body.sizeLine (c :: more)) =
            .ok c.payload.length :=
        c.line.parseChunkSize_bytes c.bounded
      have hSize : c.payload.length ≠ 0 :=
        fun hZero =>
          c.nonempty (List.eq_nil_of_length_eq_zero hZero)
      rw [hParse]
      simp only
      rw [if_neg hSize]
      refine ⟨_, rfl, ?_⟩
      rw [← List.append_nil (payloads finished)]
      refine .payload hChunks rfl ?_
      rw [hRest]
      simp [ChunkedBody.afterSizeLine]

/- The round that takes a trailer, or the blank line. -/
theorem Reading.of_trailerLine
    {lines : List TrailerLine}
    (hLines : lines <:+ body.trailers)
    (hRest :
      rest ++ missing = afterFirstLine lines ++ extra) :
    ∃ next,
      ChunkedDecoder.onTrailerLine (firstLine lines)
          { state := .trailers, scratch := [] } =
        .again next ∧
        Reading body missing extra next rest
          body.payload := by
  unfold ChunkedDecoder.onTrailerLine
  cases lines with
  | nil => exact ⟨_, rfl, .done hRest⟩
  | cons line more =>
      have hSome : firstLine (line :: more) ≠ [] :=
        line.nonempty
      rw [if_neg hSome]
      refine ⟨_, rfl, ?_⟩
      exact
        .trailers ((List.suffix_cons _ _).trans hLines)
          List.nil_prefix hRest

/- A round with no read stays on the way, or is the end. -/
theorem Reading.advance
    (hReading :
      Reading body missing extra decoder rest yielded)
    {room : Nat}
    (hRoom : 0 < room) :
    (∃ capacity,
        0 < capacity ∧ decoder.advance room = .read capacity) ∨
      (∃ next,
        decoder.advance room = .again next ∧
          Reading body missing extra next rest yielded) ∨
        (decoder.advance room = .finish decoder (.ok []) ∧
          yielded = body.payload ∧
            rest ++ missing = extra) := by
  cases hReading with
  | @size finished chunks scratch _ hChunks hScratch hRest =>
      have hLength := body.length_sizeLine chunks
      have hFits :
          (body.sizeLine chunks).length + 2 ≤
            maxSizeLineBytes := by
        unfold maxSizeLineBytes
        omega
      rcases
          fillLine_of_prefix (body.unbroken_sizeLine chunks)
            hScratch hFits ChunkedDecoder.onSizeLine with
        ⟨hWhole, hFound⟩ | ⟨_, hRead⟩
      · rw [hWhole, body.encodeFrom_eq, List.append_assoc _ _ extra]
          at hRest
        rcases
            Reading.of_sizeLine hChunks
              (List.append_cancel_left hRest) with
          ⟨next, hNext, hReads⟩
        exact .inr (.inl ⟨next, hFound.trans hNext, hReads⟩)
      · exact .inl ⟨1, by decide, hRead⟩
  | @payload finished chunks c front back _ hChunks hPayload
      hRest =>
      unfold ChunkedDecoder.advance
      simp only
      by_cases hNone : back.length = 0
      · right
        left
        have hNil := List.eq_nil_of_length_eq_zero hNone
        rw [hNil, List.append_nil] at hPayload
        rw [hNil, List.nil_append, List.append_assoc] at hRest
        rw [if_pos hNone, ← hPayload]
        exact
          ⟨_, rfl, .after hChunks (by decide) hRest⟩
      · left
        rw [if_neg hNone, if_neg (by omega)]
        exact ⟨_, by omega, rfl⟩
  | after hChunks hSeen hRest =>
      exact .inl ⟨1, by decide, rfl⟩
  | @trailers lines scratch _ hLines hScratch hRest =>
      have hLength := length_firstLine lines
      have hFits :
          (firstLine lines).length + 2 ≤ maxTrailerBytes := by
        unfold maxTrailerBytes
        omega
      rcases
          fillLine_of_prefix (unbroken_firstLine lines)
            hScratch hFits ChunkedDecoder.onTrailerLine with
        ⟨hWhole, hFound⟩ | ⟨_, hRead⟩
      · rw [hWhole, encodeTrailers_eq, List.append_assoc _ _ extra]
          at hRest
        rcases
            Reading.of_trailerLine hLines
              (List.append_cancel_left hRest) with
          ⟨next, hNext, hReads⟩
        exact .inr (.inl ⟨next, hFound.trans hNext, hReads⟩)
      · exact .inl ⟨1, by decide, hRead⟩
  | done hRest => exact .inr (.inr ⟨rfl, rfl, hRest⟩)

/- What a read comes to. -/
def ReadsOn
    (body : ChunkedBody)
    (missing extra rest yielded : Bytes)
    (count : Nat) : Round → Prop
| .read _ => False
| .again next =>
    Reading body missing extra next (rest.drop count) yielded
| .finish next (.ok data) =>
    data ≠ [] ∧
      Reading body missing extra next (rest.drop count)
        (yielded ++ data)
| .finish _ (.error e) =>
    e.kind = .unexpectedEof ∧ rest = [] ∧ missing ≠ []

/- A read of a piece of payload. -/
theorem Reading.receive_payload
    {finished chunks : List Chunk}
    {c : Chunk}
    {front back : Bytes}
    (hChunks : body.chunks = finished ++ c :: chunks)
    (hPayload : c.payload = front ++ back)
    (hRest :
      rest ++ missing =
        back ++ (crlf ++ body.encodeFrom chunks ++ extra))
    (hSome : back ≠ [])
    {count : Nat}
    (hCount : count ≤ back.length)
    (hLess : count ≤ rest.length)
    (hZero : count = 0 → rest = []) :
    ReadsOn body missing extra rest
      (payloads finished ++ front) count
      (ChunkedDecoder.receive
        { state := .payload back.length, scratch := [] }
        (.ready (rest.take count))) := by
  have hSame : rest.take count = back.take count := by
    have hTakes := congrArg (List.take count) hRest
    rw [List.take_append_of_le_length hLess,
      List.take_append_of_le_length hCount] at hTakes
    exact hTakes
  have hLater :
      rest.drop count ++ missing =
        back.drop count ++
          (crlf ++ body.encodeFrom chunks ++ extra) := by
    have hDrops := congrArg (List.drop count) hRest
    rw [List.drop_append_of_le_length hLess,
      List.drop_append_of_le_length hCount] at hDrops
    exact hDrops
  unfold ChunkedDecoder.receive
  simp only
  cases hData : rest.take count with
  | nil =>
      have hNone : rest = [] := by
        rcases List.take_eq_nil_iff.mp hData with h | h
        · exact hZero h
        · exact h
      refine ⟨rfl, hNone, ?_⟩
      rintro rfl
      rw [hNone, List.nil_append] at hRest
      exact hSome (List.append_eq_nil_iff.mp hRest.symm).1
  | cons byte data =>
      have hLength :
          back.length - (byte :: data).length =
            (back.drop count).length := by
        rw [← hData, hSame, List.length_take,
          List.length_drop]
        omega
      refine ⟨List.cons_ne_nil _ _, ?_⟩
      rw [hLength, ← hData, hSame, List.append_assoc]
      refine .payload hChunks ?_ hLater
      rw [List.append_assoc, List.take_append_drop]
      exact hPayload

/- A read of a byte behind a payload. -/
theorem Reading.receive_after
    {finished chunks : List Chunk}
    {c : Chunk}
    {seen : Nat}
    (hChunks : body.chunks = finished ++ c :: chunks)
    (hSeen : seen < 2)
    (hRest :
      rest ++ missing =
        crlf.drop seen ++ (body.encodeFrom chunks ++ extra))
    {count : Nat}
    (hCount : count ≤ 1)
    (hZero : count = 0 → rest = []) :
    ReadsOn body missing extra rest
      (payloads finished ++ c.payload) count
      (ChunkedDecoder.receive
        { state := .afterPayload seen, scratch := [] }
        (.ready (rest.take count))) := by
  have hSplit :
      crlf.drop seen =
        ChunkedDecoder.wanted seen :: crlf.drop (seen + 1) := by
    rcases Nat.lt_succ_iff_lt_or_eq.mp hSeen with h | h
    · rw [Nat.lt_one_iff.mp h]
      rfl
    · rw [h]
      rfl
  rw [hSplit] at hRest
  unfold ChunkedDecoder.receive
  simp only
  cases rest with
  | nil =>
      rw [List.take_nil]
      refine ⟨rfl, rfl, ?_⟩
      rintro rfl
      cases hRest
  | cons byte more =>
      have hOne : count = 1 := by
        rcases Nat.eq_zero_or_pos count with hNone | hPos
        · cases hZero hNone
        · omega
      subst hOne
      rw [List.cons_append, List.cons_append,
        List.cons.injEq] at hRest
      rcases hRest with ⟨rfl, hMore⟩
      simp only [List.take_succ_cons, List.take_zero,
        ne_eq, not_true_eq_false, if_false]
      split
      · rename_i hTwo
        have hLast : seen = 1 := by omega
        subst hLast
        have hNext : body.chunks = (finished ++ [c]) ++ chunks := by
          rw [hChunks, List.append_assoc, List.singleton_append]
        have hDone :
            payloads finished ++ c.payload =
              payloads (finished ++ [c]) := by
          simp [payloads]
        rw [hDone]
        exact .size hNext List.nil_prefix hMore
      · exact .after hChunks (by omega) hMore

/-
  A round with a read in the middle of a line: it brings the
  next byte of the line, or the input lacks bytes.
-/
theorem Reading.receive_line
    {state : DecoderState}
    {line tail scratch : Bytes}
    {maxBytes capacity count : Nat}
    {onLine : Bytes → ChunkedDecoder → Round}
    (hState :
      ∀ read,
        ChunkedDecoder.receive
            { state := state, scratch := scratch } read =
          ChunkedDecoder.receiveLine
            { state := state, scratch := scratch } read)
    (hFree : findCrlf line = none)
    (hPrefix : scratch <+: line ++ crlf)
    (hFits : line.length + 2 ≤ maxBytes)
    (hRest :
      scratch ++ (rest ++ missing) = line ++ crlf ++ tail)
    (hTaken :
      rest ++ missing = tail →
        ∃ next,
          onLine line { state := state, scratch := [] } =
            .again next)
    (hRound :
      ChunkedDecoder.fillLine
          { state := state, scratch := scratch } maxBytes
          onLine =
        .read capacity)
    (hCount : count ≤ capacity)
    (hZero : count = 0 → rest = [])
    (hMore :
      ∀ byte,
        scratch ++ [byte] <+: line ++ crlf →
          scratch ++ [byte] ++ (rest.drop count ++ missing) =
              scratch ++ (rest ++ missing) →
            Reading body missing extra
              { state := state, scratch := scratch ++ [byte] }
              (rest.drop count) yielded) :
    ReadsOn body missing extra rest yielded count
      (ChunkedDecoder.receive
        { state := state, scratch := scratch }
        (.ready (rest.take count))) := by
  rcases fillLine_of_prefix hFree hPrefix hFits onLine with
    ⟨hWhole, hFound⟩ | ⟨hShort, hRead⟩
  · -- A whole line is taken: there is no read.
    rw [hWhole] at hRest
    rcases hTaken (List.append_cancel_left hRest) with
      ⟨next, hNext⟩
    have hAgain := hFound.trans hNext
    have hClash := hRound.symm.trans hAgain
    cases hClash
  · have hOne : capacity = 1 := by
      have hSame := hRound.symm.trans hRead
      cases hSame
      rfl
    rw [hOne] at hCount
    rw [hState]
    rcases
        receiveLine_of_prefix hShort hRest hCount hZero with
      ⟨hNone, hMissing, e, hKind, hEnds⟩ |
        ⟨byte, more, hBytes, hDrop, hNext, hAgain⟩
    · rw [hEnds]
      exact ⟨hKind, hNone, hMissing⟩
    · rw [hAgain]
      apply hMore byte hNext
      rw [hDrop, hBytes]
      simp

/- A round with a read stays on the way, or lacks bytes. -/
theorem Reading.receive
    (hReading :
      Reading body missing extra decoder rest yielded)
    {room capacity count : Nat}
    (hRound : decoder.advance room = .read capacity)
    (hCount : count ≤ capacity)
    (hLess : count ≤ rest.length)
    (hZero : count = 0 → rest = []) :
    ReadsOn body missing extra rest yielded count
      (decoder.receive (.ready (rest.take count))) := by
  cases hReading with
  | @size finished chunks scratch _ hChunks hScratch hRest =>
      have hLength := body.length_sizeLine chunks
      have hFits :
          (body.sizeLine chunks).length + 2 ≤
            maxSizeLineBytes := by
        unfold maxSizeLineBytes
        omega
      have hLine := hRest
      rw [body.encodeFrom_eq, List.append_assoc _ _ extra]
        at hLine
      refine
        Reading.receive_line (fun _ => rfl)
          (body.unbroken_sizeLine chunks) hScratch hFits hLine
          ?_ hRound hCount hZero ?_
      · intro hTail
        rcases Reading.of_sizeLine hChunks hTail with
          ⟨next, hNext, _⟩
        exact ⟨next, hNext⟩
      · intro byte hNext hSame
        exact .size hChunks hNext (hSame.trans hRest)
  | @payload finished chunks c front back _ hChunks hPayload
      hRest =>
      unfold ChunkedDecoder.advance at hRound
      simp only at hRound
      split at hRound
      · cases hRound
      · rename_i hSome
        split at hRound
        · cases hRound
        · cases hRound
          refine
            Reading.receive_payload hChunks hPayload hRest ?_
              ?_ hLess hZero
          · rintro rfl
            exact hSome rfl
          · omega
  | @after finished chunks c seen _ hChunks hSeen hRest =>
      cases hRound
      exact
        Reading.receive_after hChunks hSeen hRest hCount hZero
  | @trailers lines scratch _ hLines hScratch hRest =>
      have hLength := length_firstLine lines
      have hFits :
          (firstLine lines).length + 2 ≤ maxTrailerBytes := by
        unfold maxTrailerBytes
        omega
      have hLine := hRest
      rw [encodeTrailers_eq, List.append_assoc _ _ extra]
        at hLine
      refine
        Reading.receive_line (fun _ => rfl)
          (unbroken_firstLine lines) hScratch hFits hLine ?_
          hRound hCount hZero ?_
      · intro hTail
        rcases Reading.of_trailerLine hLines hTail with
          ⟨next, hNext, _⟩
        exact ⟨next, hNext⟩
      · intro byte hNext hSame
        exact .trailers hLines hNext (hSame.trans hRest)
  | done hRest => cases hRound

end

end RustyIce

------------------------------------------------------------
-- Whole Runs
------------------------------------------------------------

namespace RustyIce

/-
  A reader gets on: it can always move until it stops, and
  every step but a pending read lowers its rank.
-/
structure GetsOn (s : DecoderRun) : Prop where
  lowers :
    ∀ label t,
      label ≠ .pending →
        s.step label = some t → t.rank < s.rank
  moves :
    (∀ outcome, s.phase ≠ .ended outcome) →
      ∃ label t, label ≠ .pending ∧ s.step label = some t

/-
  Of a whole body the reader gets the payload and then the
  end, and what follows the body is left alone.
-/
structure Decodes
    (body : ChunkedBody)
    (extra : Bytes)
    (s : DecoderRun) : Prop where
  getsOn : GetsOn s
  yields : s.yielded <+: body.payload
  untouched : extra <:+ s.rest
  stops :
    ∀ outcome,
      s.phase = .ended outcome →
        outcome = .eof ∧ s.yielded = body.payload ∧
          s.rest = extra

/-
  Of the first `count` bytes of a body alone it gets the
  payload bytes among them and then an error.
-/
structure FailsAt
    (body : ChunkedBody)
    (count : Nat)
    (s : DecoderRun) : Prop where
  getsOn : GetsOn s
  yields : s.yielded <+: body.present count
  stops :
    ∀ outcome,
      s.phase = .ended outcome →
        s.yielded = body.present count ∧
          ∃ e : IoError,
            e.kind = .unexpectedEof ∧ outcome = .failed e

/-
  A reader of `received`: on its way, at the end of the body,
  or out of bytes.
-/
def InPhase
    (body : ChunkedBody)
    (received missing extra : Bytes)
    (s : DecoderRun) : CallPhase → Prop
| .between =>
    Reading body missing extra s.decoder s.rest s.yielded
| .polling room =>
    0 < room ∧
      Reading body missing extra s.decoder s.rest s.yielded
| .ended .eof =>
    s.yielded = body.payload ∧ s.rest ++ missing = extra
| .ended (.failed e) =>
    e.kind = .unexpectedEof ∧ missing ≠ [] ∧ s.rest = [] ∧
      s.yielded = body.present received.length

structure DecoderInv
    (body : ChunkedBody)
    (received missing extra : Bytes)
    (s : DecoderRun) : Prop where
  bytes : s.rest.length ≤ received.length
  inPhase : InPhase body received missing extra s s.phase

section

variable {body : ChunkedBody}
variable {received missing extra : Bytes}
variable {s t : DecoderRun}

theorem decoderInv_start
    (hWhole : received ++ missing = body.encode ++ extra) :
    DecoderInv body received missing extra
      (.start received) where
  bytes := Nat.le_refl _
  inPhase := by
    have hNone : body.chunks = [] ++ body.chunks := rfl
    exact .size hNone List.nil_prefix hWhole

/- How many bytes of the body a reader has read. -/
theorem DecoderInv.present
    (hWhole : received ++ missing = body.encode ++ extra)
    (hInv : DecoderInv body received missing extra s)
    (hReading :
      Reading body missing extra s.decoder s.rest
        s.yielded) :
    s.yielded =
      body.present (received.length - s.rest.length) := by
  have hBytes := congrArg List.length hWhole
  have hLess := hInv.bytes
  simp only [List.length_append] at hBytes
  exact hReading.present (by omega)

theorem decoderInv_step
    (hWhole : received ++ missing = body.encode ++ extra)
    (hInv : DecoderInv body received missing extra s)
    {label : DecoderLabel}
    (hStep : s.step label = some t) :
    DecoderInv body received missing extra t := by
  have hPhase := hInv.inPhase
  cases label with
  | poll room =>
      simp only [DecoderRun.step] at hStep
      split at hStep
      · rename_i hReady
        cases hStep
        rw [hReady.1] at hPhase
        exact ⟨hInv.bytes, hReady.2, hPhase⟩
      · cases hStep
  | advance =>
      simp only [DecoderRun.step] at hStep
      split at hStep
      · rename_i room hPolling
        rw [hPolling] at hPhase
        rcases hPhase.2.advance hPhase.1 with
          ⟨capacity, _, hRound⟩ | ⟨next, hRound, hNext⟩ |
            ⟨hRound, hEnds⟩
        · rw [hRound] at hStep
          cases hStep
        · rw [hRound] at hStep
          cases hStep
          refine ⟨hInv.bytes, ?_⟩
          simp only [hPolling]
          exact ⟨hPhase.1, hNext⟩
        · rw [hRound] at hStep
          cases hStep
          exact ⟨hInv.bytes, hEnds⟩
      · cases hStep
  | pending =>
      simp only [DecoderRun.step] at hStep
      split at hStep
      · rename_i room hPolling
        rw [hPolling] at hPhase
        split at hStep
        · cases hStep
          exact ⟨hInv.bytes, hPhase.2⟩
        · cases hStep
      · cases hStep
  | read count =>
      simp only [DecoderRun.step] at hStep
      split at hStep
      · rename_i room hPolling
        rw [hPolling] at hPhase
        split at hStep
        · rename_i capacity hRound
          split at hStep
          · rename_i hCount
            rcases hCount with ⟨hCount, hLess, hZero⟩
            have hReads :=
              hPhase.2.receive hRound hCount hLess hZero
            have hBytes :
                (s.rest.drop count).length ≤
                  received.length := by
              have hBefore := hInv.bytes
              rw [List.length_drop]
              omega
            cases hResult :
                s.decoder.receive
                  (.ready (s.rest.take count)) with
            | read other =>
                rw [hResult] at hReads
                exact hReads.elim
            | again next =>
                rw [hResult] at hStep hReads
                cases hStep
                refine ⟨hBytes, ?_⟩
                simp only [hPolling]
                exact ⟨hPhase.1, hReads⟩
            | finish next result =>
                rw [hResult] at hStep hReads
                cases result with
                | ok data =>
                    cases data with
                    | nil => exact absurd rfl hReads.1
                    | cons byte data =>
                        cases hStep
                        exact ⟨hBytes, hReads.2⟩
                | error e =>
                    cases hStep
                    rcases hReads with
                      ⟨hKind, hNone, hMissing⟩
                    have hPresent :=
                      hInv.present hWhole hPhase.2
                    rw [hNone] at hPresent
                    refine ⟨hBytes, hKind, hMissing, ?_, hPresent⟩
                    rw [hNone, List.drop_nil]
          · cases hStep
        · cases hStep
      · cases hStep

theorem DecoderInv.getsOn
    (hInv : DecoderInv body received missing extra s) :
    GetsOn s where
  lowers := fun _ _ hLabel hStep => rank_of_step hLabel hStep
  moves := by
    intro hGoes
    have hPhase := hInv.inPhase
    cases hNow : s.phase with
    | between =>
        refine
          ⟨.poll 1, { s with phase := .polling 1 }, by simp,
            ?_⟩
        simp only [DecoderRun.step]
        rw [if_pos ⟨hNow, Nat.one_pos⟩]
    | ended outcome => exact absurd hNow (hGoes outcome)
    | polling room =>
        rw [hNow] at hPhase
        rcases hPhase.2.advance hPhase.1 with
          ⟨capacity, hPos, hRound⟩ | ⟨next, hRound, _⟩ |
            ⟨hRound, _⟩
        · have hCount :
              min 1 s.rest.length ≤ capacity ∧
                min 1 s.rest.length ≤ s.rest.length ∧
                  (min 1 s.rest.length = 0 →
                    s.rest = []) := by
            refine ⟨by omega, by omega, ?_⟩
            intro hZero
            apply List.eq_nil_of_length_eq_zero
            omega
          have hReads :=
            hPhase.2.receive hRound hCount.1 hCount.2.1
              hCount.2.2
          have hStep :
              s.step (.read (min 1 s.rest.length)) =
                DecoderRun.after
                  { s with
                    rest :=
                      s.rest.drop (min 1 s.rest.length) }
                  (s.decoder.receive
                    (.ready
                      (s.rest.take
                        (min 1 s.rest.length)))) := by
            simp only [DecoderRun.step, hNow, hRound]
            rw [if_pos hCount]
          cases hResult :
              s.decoder.receive
                (.ready
                  (s.rest.take (min 1 s.rest.length))) with
          | read other =>
              rw [hResult] at hReads
              exact hReads.elim
          | again next =>
              rw [hResult] at hStep
              exact ⟨_, _, by simp, hStep⟩
          | finish next result =>
              rw [hResult] at hStep
              cases result with
              | error e => exact ⟨_, _, by simp, hStep⟩
              | ok data =>
                  cases data <;>
                    exact ⟨_, _, by simp, hStep⟩
        · have hStep :
              s.step .advance =
                s.after (s.decoder.advance room) := by
            simp only [DecoderRun.step, hNow]
          rw [hRound] at hStep
          exact ⟨_, _, by simp, hStep⟩
        · have hStep :
              s.step .advance =
                s.after (s.decoder.advance room) := by
            simp only [DecoderRun.step, hNow]
          rw [hRound] at hStep
          exact ⟨_, _, by simp, hStep⟩

theorem decoderInv_of_reachable
    (hWhole : received ++ missing = body.encode ++ extra)
    (hReach : (chunkedMachine received).Reachable s) :
    DecoderInv body received missing extra s := by
  apply hReach.invariant
  · rintro u rfl
    exact decoderInv_start hWhole
  · intro u label v hBefore _ hStep
    exact decoderInv_step hWhole hBefore hStep

/- What stands behind a longer beginning is still there. -/
theorem suffix_of_append_eq
    {front rest whole : Bytes}
    (hSame : front ++ rest = whole ++ extra)
    (hLess : front.length ≤ whole.length) :
    extra <:+ rest := by
  have hBytes := congrArg List.length hSame
  simp only [List.length_append] at hBytes
  apply
    List.suffix_of_suffix_length_le
      (List.suffix_append whole extra)
  · rw [← hSame]
    exact List.suffix_append front rest
  · omega

/- A decoder never reads past the body. -/
theorem Reading.untouched
    {decoder : ChunkedDecoder}
    {rest yielded : Bytes}
    (hReading :
      Reading body [] extra decoder rest yielded) :
    extra <:+ rest := by
  cases hReading with
  | @size finished chunks scratch _ hChunks hScratch hRest =>
      rw [List.append_nil] at hRest
      apply suffix_of_append_eq hRest
      have hLength := hScratch.length_le
      rw [body.encodeFrom_eq, List.length_append]
      omega
  | payload hChunks hPayload hRest =>
      rw [List.append_nil, ← List.append_assoc] at hRest
      exact
        suffix_of_append_eq ((List.nil_append _).trans hRest)
          (Nat.zero_le _)
  | after hChunks hSeen hRest =>
      rw [List.append_nil, ← List.append_assoc] at hRest
      exact
        suffix_of_append_eq ((List.nil_append _).trans hRest)
          (Nat.zero_le _)
  | @trailers lines scratch _ hLines hScratch hRest =>
      rw [List.append_nil] at hRest
      apply suffix_of_append_eq hRest
      have hLength := hScratch.length_le
      rw [encodeTrailers_eq, List.length_append]
      omega
  | done hRest =>
      rw [List.append_nil] at hRest
      rw [hRest]

end

/- A whole body, with anything behind it. -/
theorem decodes_of_reachable
    {body : ChunkedBody}
    {extra : Bytes}
    {s : DecoderRun}
    (hReach :
      (chunkedMachine (body.encode ++ extra)).Reachable s) :
    Decodes body extra s := by
  have hWhole :
      (body.encode ++ extra) ++ [] = body.encode ++ extra :=
    List.append_nil _
  have hInv := decoderInv_of_reachable hWhole hReach
  have hPhase := hInv.inPhase
  have hYields :
      Reading body [] extra s.decoder s.rest s.yielded →
        s.yielded <+: body.payload := by
    intro hReading
    rw [hInv.present hWhole hReading]
    exact presentIn_prefix _ _
  cases hNow : s.phase with
  | between =>
      rw [hNow] at hPhase
      exact
        { getsOn := hInv.getsOn
          yields := hYields hPhase
          untouched := hPhase.untouched
          stops := by simp [hNow] }
  | polling room =>
      rw [hNow] at hPhase
      exact
        { getsOn := hInv.getsOn
          yields := hYields hPhase.2
          untouched := hPhase.2.untouched
          stops := by simp [hNow] }
  | ended outcome =>
      rw [hNow] at hPhase
      cases outcome with
      | eof =>
          rcases hPhase with ⟨hPayload, hRest⟩
          rw [List.append_nil] at hRest
          exact
            { getsOn := hInv.getsOn
              yields := by rw [hPayload]
              untouched := by rw [hRest]
              stops := by
                intro outcome hOutcome
                rw [hNow] at hOutcome
                cases hOutcome
                exact ⟨rfl, hPayload, hRest⟩ }
      | failed e => exact absurd rfl hPhase.2.1

/- A body cut short. -/
theorem failsAt_of_reachable
    {body : ChunkedBody}
    {received missing : Bytes}
    (hWhole : received ++ missing = body.encode)
    (hMissing : missing ≠ [])
    {s : DecoderRun}
    (hReach : (chunkedMachine received).Reachable s) :
    FailsAt body received.length s := by
  have hBody : received ++ missing = body.encode ++ [] := by
    rw [hWhole, List.append_nil]
  have hInv := decoderInv_of_reachable hBody hReach
  have hPhase := hInv.inPhase
  have hYields :
      Reading body missing [] s.decoder s.rest s.yielded →
        s.yielded <+: body.present received.length := by
    intro hReading
    rw [hInv.present hBody hReading]
    exact presentIn_mono _ (Nat.sub_le _ _)
  cases hNow : s.phase with
  | between =>
      rw [hNow] at hPhase
      exact
        { getsOn := hInv.getsOn
          yields := hYields hPhase
          stops := by simp [hNow] }
  | polling room =>
      rw [hNow] at hPhase
      exact
        { getsOn := hInv.getsOn
          yields := hYields hPhase.2
          stops := by simp [hNow] }
  | ended outcome =>
      rw [hNow] at hPhase
      cases outcome with
      | eof =>
          have hNone := List.append_eq_nil_iff.mp hPhase.2
          exact absurd hNone.2 hMissing
      | failed e =>
          rcases hPhase with ⟨hKind, _, _, hPresent⟩
          exact
            { getsOn := hInv.getsOn
              yields := by rw [hPresent]
              stops := by
                intro outcome hOutcome
                rw [hNow] at hOutcome
                cases hOutcome
                exact ⟨hPresent, e, hKind, rfl⟩ }

/-
  However the bytes of a body arrive and whatever buffers the
  reader brings, a whole body is decoded and one cut short
  ends in an error.
-/
theorem chunked_stream (body : ChunkedBody) :
    (∀ extra s,
        (chunkedMachine (body.encode ++ extra)).Reachable s →
          Decodes body extra s) ∧
      ∀ received missing s,
        received ++ missing = body.encode →
          missing ≠ [] →
            (chunkedMachine received).Reachable s →
              FailsAt body received.length s :=
  ⟨fun _ _ hReach => decodes_of_reachable hReach,
    fun _ _ _ hWhole hMissing hReach =>
      failsAt_of_reachable hWhole hMissing hReach⟩

def sizeTwo : SizeLine 2 where
  digits := ['0', '2']
  extension := [59, 120]
  nonempty := List.cons_ne_nil _ _
  hex :=
    List.forall_mem_cons.mpr
      ⟨rfl, List.forall_mem_singleton.mpr rfl⟩
  spells := rfl
  separated := .inr ⟨_, rfl⟩
  unbroken := rfl
  fits := by decide

def sizeZero : SizeLine 0 where
  digits := ['0']
  extension := []
  nonempty := List.cons_ne_nil _ _
  hex := List.forall_mem_singleton.mpr rfl
  spells := rfl
  separated := .inl rfl
  unbroken := rfl
  fits := by decide

/- One chunk and no trailers. -/
def twoBytes : ChunkedBody where
  chunks :=
    [{ payload := [72, 105]
       nonempty := List.cons_ne_nil _ _
       bounded := by decide
       line := sizeTwo }]
  last := sizeZero
  trailers := []

/- A reader that has read the digits of the first size. -/
theorem chunked_stream_twoBytes :
    ∃ s,
      (chunkedMachine (twoBytes.encode ++ [71])).run
          (.start (twoBytes.encode ++ [71]))
          [.poll 4, .read 1, .pending, .poll 1, .read 1] =
        some s ∧
        Decodes twoBytes [71] s ∧
          FailsAt twoBytes 0 (.start []) := by
  have hRun :
      (chunkedMachine (twoBytes.encode ++ [71])).run
          (.start (twoBytes.encode ++ [71]))
          [.poll 4, .read 1, .pending, .poll 1, .read 1] =
        some _ :=
    rfl
  refine ⟨_, hRun, ?_, ?_⟩
  · exact
      (chunked_stream twoBytes).1 _ _
        (Library.Machine.reachable_of_run rfl hRun)
  · refine
      (chunked_stream twoBytes).2 [] twoBytes.encode _ rfl ?_
        (.start rfl)
    decide

end RustyIce

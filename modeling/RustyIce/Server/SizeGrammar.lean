import RustyIce.Server.ChunkedStream
import Mathlib.Data.List.TakeWhile

/-
  The lines a chunk size is read from, against the grammar:
  a sign, and white space that is no blank, are let through
  as well.

  Main declarations:
    * `ChunkSize`, the grammar
    * `ReadsAs`, what is accepted
    * `PlainSize`
    * `chunkSizes_iff`
-/

------------------------------------------------------------
-- The Grammar
------------------------------------------------------------

namespace RustyIce

/- The value of an ASCII hexadecimal digit. -/
def hexByte (b : UInt8) : Option Nat :=
  if 48 ≤ b ∧ b ≤ 57 then some (b.toNat - 48)
  else if 65 ≤ b ∧ b ≤ 70 then some (b.toNat - 55)
  else if 97 ≤ b ∧ b ≤ 102 then some (b.toNat - 87)
  else none

def hexNumberFrom (acc : Nat) (digits : Bytes) : Nat :=
  digits.foldl
    (fun value b => value * 16 + (hexByte b).getD 0) acc

def IsBlank (b : UInt8) : Prop :=
  b = 32 ∨ b = 9

/-
  The part of the line before the first semicolon is, within
  optional blanks, a string of digits that denotes `n`.
-/
structure ChunkSize
    (line : Bytes)
    (n : Nat)
    (left digits right : Bytes) : Prop where
  split :
    line.takeWhile (· ≠ 59) = left ++ digits ++ right
  left : ∀ b ∈ left, IsBlank b
  right : ∀ b ∈ right, IsBlank b
  nonempty : digits ≠ []
  hex : ∀ b ∈ digits, (hexByte b).isSome
  value : hexNumberFrom 0 digits = n
  bounded : n < 2 ^ 64

/- The line is a chunk size by the grammar. -/
def IsChunkSize (line : Bytes) (n : Nat) : Prop :=
  ∃ left digits right, ChunkSize line n left digits right

def encodeText (text : List Char) : Bytes :=
  text.flatMap String.utf8EncodeChar

/-
  What is accepted: within any white space, an optional plus
  sign and a string of digits that denotes `n`.
-/
structure ReadsAs
    (line : Bytes)
    (n : Nat)
    (left sign digits right : List Char) : Prop where
  split :
    line.takeWhile (· ≠ 59) =
      encodeText (left ++ (sign ++ digits) ++ right)
  left : ∀ c ∈ left, isWhiteSpace c = true
  right : ∀ c ∈ right, isWhiteSpace c = true
  sign : sign = [] ∨ sign = ['+']
  nonempty : digits ≠ []
  hex : ∀ c ∈ digits, (hexDigit c).isSome
  value : hexValueFrom 0 digits = n
  bounded : n < 2 ^ 64

/-
  Where the line could be accepted, it has no sign and only
  blanks around its digits.
-/
def PlainSize (line : Bytes) : Prop :=
  ∀ n left sign digits right,
    ReadsAs line n left sign digits right →
      sign = [] ∧ ∀ c ∈ left ++ right, c = ' ' ∨ c = '\t'

end RustyIce

------------------------------------------------------------
-- Trimming
------------------------------------------------------------

namespace RustyIce

variable {left mid right : List Char}

theorem dropWhile_space
    (hLeft : ∀ c ∈ left, isWhiteSpace c = true)
    (hMid : ∀ c ∈ mid, isWhiteSpace c = false)
    (hRight : ∀ c ∈ right, isWhiteSpace c = true) :
    (left ++ (mid ++ right)).dropWhile isWhiteSpace =
      if mid = [] then [] else mid ++ right := by
  rw [List.dropWhile_append_of_pos hLeft]
  cases mid with
  | nil =>
      rw [List.nil_append, if_pos rfl]
      exact List.dropWhile_eq_nil_iff.mpr hRight
  | cons c rest =>
      rw [if_neg (List.cons_ne_nil _ _), List.cons_append,
        List.dropWhile_cons_of_neg]
      simp [hMid c List.mem_cons_self]

/- Trimming takes off what is white around the rest. -/
theorem trimText_around
    (hLeft : ∀ c ∈ left, isWhiteSpace c = true)
    (hMid : ∀ c ∈ mid, isWhiteSpace c = false)
    (hRight : ∀ c ∈ right, isWhiteSpace c = true) :
    trimText (left ++ mid ++ right) = mid := by
  unfold trimText
  rw [List.append_assoc, dropWhile_space hLeft hMid hRight]
  by_cases hNil : mid = []
  · rw [if_pos hNil, hNil]
    rfl
  · have hBack :=
      @dropWhile_space right.reverse mid.reverse []
        (by simpa using hRight) (by simpa using hMid)
        (by simp)
    have hSome : mid.reverse ≠ [] := by simpa using hNil
    rw [List.append_nil, if_neg hSome] at hBack
    rw [if_neg hNil, List.reverse_append, hBack,
      List.reverse_reverse]

theorem exists_trimText (text : List Char) :
    ∃ left right,
      text = left ++ trimText text ++ right ∧
        (∀ c ∈ left, isWhiteSpace c = true) ∧
          ∀ c ∈ right, isWhiteSpace c = true := by
  let rest := text.dropWhile isWhiteSpace
  refine
    ⟨text.takeWhile isWhiteSpace,
      (rest.reverse.takeWhile isWhiteSpace).reverse,
      ?_, ?_, ?_⟩
  · have hRest :
        trimText text ++
            (rest.reverse.takeWhile isWhiteSpace).reverse =
          rest := by
      show (rest.reverse.dropWhile isWhiteSpace).reverse ++ _ =
        rest
      rw [← List.reverse_append,
        List.takeWhile_append_dropWhile, List.reverse_reverse]
    rw [List.append_assoc, hRest]
    exact List.takeWhile_append_dropWhile.symm
  · intro c hMem
    exact List.mem_takeWhile_imp hMem
  · intro c hMem
    exact List.mem_takeWhile_imp (List.mem_reverse.mp hMem)

/- What is white around a text is told by the whole. -/
theorem around_unique
    {left' mid' right' : List Char}
    (hLeft : ∀ c ∈ left, isWhiteSpace c = true)
    (hMid : ∀ c ∈ mid, isWhiteSpace c = false)
    (hRight : ∀ c ∈ right, isWhiteSpace c = true)
    (hLeft' : ∀ c ∈ left', isWhiteSpace c = true)
    (hMid' : ∀ c ∈ mid', isWhiteSpace c = false)
    (hRight' : ∀ c ∈ right', isWhiteSpace c = true)
    (hSome : mid ≠ [])
    (hSame :
      left ++ mid ++ right = left' ++ mid' ++ right') :
    left = left' ∧ mid = mid' ∧ right = right' := by
  have hMids : mid = mid' := by
    rw [← trimText_around hLeft hMid hRight, hSame,
      trimText_around hLeft' hMid' hRight']
  subst hMids
  have hDrop := congrArg (List.dropWhile isWhiteSpace) hSame
  rw [List.append_assoc, List.append_assoc,
    dropWhile_space hLeft hMid hRight,
    dropWhile_space hLeft' hMid' hRight', if_neg hSome,
    if_neg hSome] at hDrop
  have hRights := List.append_cancel_left hDrop
  subst hRights
  have hLefts :=
    List.append_cancel_right
      (List.append_cancel_right hSame)
  exact ⟨hLefts, rfl, rfl⟩

end RustyIce

------------------------------------------------------------
-- What Is Accepted
------------------------------------------------------------

namespace RustyIce

theorem encodeText_of_utf8Text
    {bytes : Bytes}
    {text : List Char}
    (hText : utf8Text bytes = some text) :
    bytes = encodeText text := by
  unfold utf8Text at hText
  rcases Option.map_eq_some_iff.mp hText with
    ⟨chars, hDecode, rfl⟩
  have hEncode :
      chars.toList.utf8Encode = bytes.toByteArray := by
    have hSome : bytes.toByteArray.utf8Decode?.isSome := by
      rw [hDecode]
      rfl
    have hGet :=
      ByteArray.utf8Encode_get_utf8Decode? (h := hSome)
    simp only [hDecode, Option.get_some] at hGet
    exact hGet
  unfold List.utf8Encode at hEncode
  exact (List.toByteArray_inj.mp hEncode).symm

theorem utf8Text_encodeText (text : List Char) :
    utf8Text (encodeText text) = some text :=
  utf8Text_encode text

theorem encodeText_inj
    {first second : List Char}
    (hSame : encodeText first = encodeText second) :
    first = second := by
  have hText := utf8Text_encodeText first
  rw [hSame, utf8Text_encodeText] at hText
  exact (Option.some.inj hText).symm

/- All that is read are digits of a number of 64 bits. -/
theorem hexDigitsFrom_eq_some
    {acc n : Nat}
    {digits : List Char}
    (hAcc : acc < 2 ^ 64)
    (hRead : hexDigitsFrom acc digits = some n) :
    (∀ c ∈ digits, (hexDigit c).isSome) ∧
      hexValueFrom acc digits = n ∧ n < 2 ^ 64 := by
  induction digits generalizing acc with
  | nil =>
      cases hRead
      exact ⟨by simp, rfl, hAcc⟩
  | cons c rest ih =>
      rw [hexDigitsFrom] at hRead
      cases hDigit : hexDigit c with
      | none =>
          rw [hDigit] at hRead
          cases hRead
      | some digit =>
          rw [hDigit] at hRead
          simp only at hRead
          split at hRead
          · rename_i hFits
            rcases ih hFits hRead with
              ⟨hHex, hValue, hBound⟩
            refine ⟨?_, ?_, hBound⟩
            · intro other hOther
              rcases List.mem_cons.mp hOther with
                rfl | hRest
              · rw [hDigit]
                rfl
              · exact hHex other hRest
            · rw [← hValue]
              simp [hexValueFrom, hDigit]
          · cases hRead

/- A sign and digits are all that a radix reader takes. -/
theorem u64FromHex_eq_some_iff
    {text : List Char}
    {n : Nat} :
    u64FromHex text = some n ↔
      ∃ sign digits,
        text = sign ++ digits ∧
          (sign = [] ∨ sign = ['+']) ∧ digits ≠ [] ∧
            (∀ c ∈ digits, (hexDigit c).isSome) ∧
              hexValueFrom 0 digits = n ∧ n < 2 ^ 64 := by
  constructor
  · intro hRead
    unfold u64FromHex at hRead
    split at hRead
    · cases hRead
    · cases hRead
    · rename_i rest hOnly
      have hSome : rest ≠ [] := by
        rintro rfl
        exact hOnly rfl
      exact
        ⟨['+'], rest, rfl, .inr rfl, hSome,
          hexDigitsFrom_eq_some (by decide) hRead⟩
    · rename_i c rest _ _
      exact
        ⟨[], c :: rest, rfl, .inl rfl, List.cons_ne_nil _ _,
          hexDigitsFrom_eq_some (by decide) hRead⟩
  · rintro ⟨sign, digits, rfl, hSign, hSome, hHex, rfl, hBound⟩
    rcases hSign with rfl | rfl
    · exact u64FromHex_eq hSome hHex hBound
    · cases digits with
      | nil => exact absurd rfl hSome
      | cons c rest => exact hexDigitsFrom_eq hHex hBound

namespace ReadsAs

variable {line : Bytes}
variable {n : Nat}
variable {left sign digits right : List Char}

theorem not_space
    (hReads : ReadsAs line n left sign digits right) :
    ∀ c ∈ sign ++ digits, isWhiteSpace c = false := by
  intro c hMem
  rcases List.mem_append.mp hMem with hSign | hDigit
  · rcases hReads.sign with rfl | rfl
    · cases hSign
    · rw [List.mem_singleton.mp hSign]
      rfl
  · exact (hexDigit_byte (hReads.hex c hDigit)).1

end ReadsAs

theorem parseChunkSize_eq_ok_iff
    (line : Bytes)
    (n : Nat) :
    parseChunkSize line = .ok n ↔
      ∃ left sign digits right,
        ReadsAs line n left sign digits right := by
  unfold parseChunkSize
  constructor
  · intro hParse
    cases hText : utf8Text (line.takeWhile (· ≠ 59)) with
    | none =>
        rw [hText] at hParse
        cases hParse
    | some text =>
        rw [hText] at hParse
        simp only at hParse
        cases hRead : u64FromHex (trimText text) with
        | none =>
            rw [hRead] at hParse
            cases hParse
        | some size =>
            rw [hRead] at hParse
            cases hParse
            rcases exists_trimText text with
              ⟨left, right, hAround, hLeft, hRight⟩
            rcases u64FromHex_eq_some_iff.mp hRead with
              ⟨sign, digits, hTrim, hSign, hSome, hHex,
                hValue, hBound⟩
            rw [hTrim] at hAround
            refine
              ⟨left, sign, digits, right, ?_, hLeft, hRight,
                hSign, hSome, hHex, hValue, hBound⟩
            rw [← hAround]
            exact encodeText_of_utf8Text hText
  · rintro ⟨left, sign, digits, right, hReads⟩
    have hTrim :=
      trimText_around hReads.left hReads.not_space
        hReads.right
    have hNumber :=
      u64FromHex_eq_some_iff.mpr
        ⟨sign, digits, rfl, hReads.sign, hReads.nonempty,
          hReads.hex, hReads.value, hReads.bounded⟩
    rw [hReads.split, utf8Text_encodeText]
    simp only
    rw [hTrim, hNumber]

end RustyIce

------------------------------------------------------------
-- The Grammar Among What Is Accepted
------------------------------------------------------------

namespace RustyIce

/- A digit's byte and its character have one value. -/
theorem hexByte_char
    {b : UInt8}
    (hHex : (hexByte b).isSome) :
    hexDigit (Char.ofNat b.toNat) = hexByte b ∧
      String.utf8EncodeChar (Char.ofNat b.toNat) = [b] := by
  have hAll :
      ∀ n < 256, (hexByte (UInt8.ofNat n)).isSome →
        hexDigit (Char.ofNat n) = hexByte (UInt8.ofNat n) ∧
          String.utf8EncodeChar (Char.ofNat n) =
            [UInt8.ofNat n] := by
    decide +kernel
  have hByte := hAll b.toNat b.toNat_lt
  rw [UInt8.ofNat_toNat] at hByte
  exact hByte hHex

theorem hexDigit_toByte
    {c : Char}
    (hHex : (hexDigit c).isSome) :
    ∃ b,
      String.utf8EncodeChar c = [b] ∧
        hexByte b = hexDigit c := by
  unfold hexDigit at hHex
  split at hHex
  all_goals
    first
    | exact ⟨_, rfl, by decide⟩
    | cases hHex

theorem encodeText_hexChars
    {digits : Bytes}
    (hHex : ∀ b ∈ digits, (hexByte b).isSome) :
    ∃ chars,
      encodeText chars = digits ∧
        (∀ c ∈ chars, (hexDigit c).isSome) ∧
          ∀ acc,
            hexValueFrom acc chars =
              hexNumberFrom acc digits := by
  induction digits with
  | nil => exact ⟨[], rfl, by simp, fun acc => rfl⟩
  | cons b rest ih =>
      rcases ih fun other hOther =>
          hHex other (List.mem_cons_of_mem _ hOther) with
        ⟨chars, hEncode, hChars, hValue⟩
      have hFirst := hHex b List.mem_cons_self
      rcases hexByte_char hFirst with ⟨hDigit, hByte⟩
      refine ⟨Char.ofNat b.toNat :: chars, ?_, ?_, ?_⟩
      · rw [encodeText, List.flatMap_cons, hByte,
          ← hEncode]
        rfl
      · intro c hMem
        rcases List.mem_cons.mp hMem with rfl | hRest
        · rw [hDigit]
          exact hFirst
        · exact hChars c hRest
      · intro acc
        have hNext :=
          hValue (acc * 16 + (hexByte b).getD 0)
        rw [← hDigit] at hNext
        simpa [hexValueFrom, hexNumberFrom, hDigit] using hNext

theorem hexBytes_encodeText
    {chars : List Char}
    (hHex : ∀ c ∈ chars, (hexDigit c).isSome) :
    (∀ b ∈ encodeText chars, (hexByte b).isSome) ∧
      ∀ acc,
        hexNumberFrom acc (encodeText chars) =
          hexValueFrom acc chars := by
  induction chars with
  | nil => exact ⟨by simp [encodeText], fun acc => rfl⟩
  | cons c rest ih =>
      rcases ih fun other hOther =>
          hHex other (List.mem_cons_of_mem _ hOther) with
        ⟨hBytes, hValue⟩
      have hFirst := hHex c List.mem_cons_self
      rcases hexDigit_toByte hFirst with ⟨b, hByte, hDigit⟩
      have hCons :
          encodeText (c :: rest) = b :: encodeText rest := by
        rw [encodeText, List.flatMap_cons, hByte]
        rfl
      rw [hCons]
      constructor
      · intro other hMem
        rcases List.mem_cons.mp hMem with rfl | hRest
        · rw [hDigit]
          exact hFirst
        · exact hBytes other hRest
      · intro acc
        have hNext :=
          hValue (acc * 16 + (hexByte b).getD 0)
        simpa [hexValueFrom, hexNumberFrom, hDigit] using hNext

theorem encodeText_append (first second : List Char) :
    encodeText (first ++ second) =
      encodeText first ++ encodeText second := by
  simp [encodeText]

/- Blanks are white space of one byte. -/
theorem encodeText_blanks
    {blanks : Bytes}
    (hBlanks : ∀ b ∈ blanks, IsBlank b) :
    ∃ chars,
      encodeText chars = blanks ∧
        ∀ c ∈ chars, c = ' ' ∨ c = '\t' := by
  induction blanks with
  | nil => exact ⟨[], rfl, by simp⟩
  | cons b rest ih =>
      rcases ih fun other hOther =>
          hBlanks other (List.mem_cons_of_mem _ hOther) with
        ⟨chars, hEncode, hChars⟩
      rcases hBlanks b List.mem_cons_self with rfl | rfl
      · refine ⟨' ' :: chars, ?_, ?_⟩
        · rw [← hEncode]
          rfl
        · simpa using hChars
      · refine ⟨'\t' :: chars, ?_, ?_⟩
        · rw [← hEncode]
          rfl
        · simpa using hChars

theorem isBlank_of_mem_encodeText
    {chars : List Char}
    (hChars : ∀ c ∈ chars, c = ' ' ∨ c = '\t') :
    ∀ b ∈ encodeText chars, IsBlank b := by
  intro b hMem
  rcases List.mem_flatMap.mp hMem with ⟨c, hC, hByte⟩
  rcases hChars c hC with rfl | rfl
  · exact .inl (List.mem_singleton.mp hByte)
  · exact .inr (List.mem_singleton.mp hByte)

theorem isWhiteSpace_of_blank
    {c : Char}
    (hBlank : c = ' ' ∨ c = '\t') :
    isWhiteSpace c = true := by
  rcases hBlank with rfl | rfl
  · rfl
  · rfl

/- The grammar's lines are accepted as what they denote. -/
theorem readsAs_of_isChunkSize
    {line : Bytes}
    {n : Nat}
    (hSize : IsChunkSize line n) :
    ∃ left digits right,
      ReadsAs line n left [] digits right ∧
        ∀ c ∈ left ++ right, c = ' ' ∨ c = '\t' := by
  rcases hSize with ⟨left, digits, right, hSize⟩
  rcases encodeText_blanks hSize.left with
    ⟨before, hBefore, hBlankBefore⟩
  rcases encodeText_blanks hSize.right with
    ⟨behind, hBehind, hBlankBehind⟩
  rcases encodeText_hexChars hSize.hex with
    ⟨chars, hChars, hHex, hValue⟩
  refine ⟨before, chars, behind, ?_, ?_⟩
  · constructor
    · rw [hSize.split, encodeText_append, encodeText_append,
        hBefore, hBehind, List.nil_append, hChars]
    · exact fun c hMem =>
        isWhiteSpace_of_blank (hBlankBefore c hMem)
    · exact fun c hMem =>
        isWhiteSpace_of_blank (hBlankBehind c hMem)
    · exact .inl rfl
    · rintro rfl
      exact hSize.nonempty hChars.symm
    · exact hHex
    · rw [hValue, hSize.value]
    · exact hSize.bounded
  · intro c hMem
    rcases List.mem_append.mp hMem with hMem | hMem
    · exact hBlankBefore c hMem
    · exact hBlankBehind c hMem

/- Of what is accepted, that is all the grammar allows. -/
theorem isChunkSize_iff_of_readsAs
    {line : Bytes}
    {n : Nat}
    {left sign digits right : List Char}
    (hReads : ReadsAs line n left sign digits right) :
    IsChunkSize line n ↔
      sign = [] ∧ ∀ c ∈ left ++ right, c = ' ' ∨ c = '\t' := by
  constructor
  · intro hSize
    rcases readsAs_of_isChunkSize hSize with
      ⟨left', digits', right', hOther, hBlank⟩
    have hText :=
      encodeText_inj (hReads.split.symm.trans hOther.split)
    have hSome : sign ++ digits ≠ [] := by
      simp [hReads.nonempty]
    rcases
        around_unique hReads.left hReads.not_space
          hReads.right hOther.left hOther.not_space
          hOther.right hSome hText with
      ⟨rfl, hMid, rfl⟩
    refine ⟨?_, hBlank⟩
    rcases hReads.sign with hNone | hPlus
    · exact hNone
    · rw [hPlus, List.nil_append] at hMid
      have hDigit := hOther.hex '+' (by
        rw [← hMid]
        exact List.mem_cons_self)
      exact absurd rfl (hexDigit_byte hDigit).2.1
  · rintro ⟨rfl, hBlank⟩
    rcases hexBytes_encodeText hReads.hex with
      ⟨hBytes, hValue⟩
    refine
      ⟨encodeText left, encodeText digits, encodeText right,
        ?_, ?_, ?_, ?_, hBytes, ?_, hReads.bounded⟩
    · rw [hReads.split, List.nil_append, encodeText_append,
        encodeText_append]
    · exact
        isBlank_of_mem_encodeText fun c hMem =>
          hBlank c (List.mem_append_left _ hMem)
    · exact
        isBlank_of_mem_encodeText fun c hMem =>
          hBlank c (List.mem_append_right _ hMem)
    · intro hNil
      exact hReads.nonempty (encodeText_inj hNil)
    · rw [hValue, hReads.value]

/- A line is read as the grammar has it. -/
def FollowsGrammar (line : Bytes) : Prop :=
  ∀ n, parseChunkSize line = .ok n ↔ IsChunkSize line n

theorem parseChunkSize_of_isChunkSize
    {line : Bytes}
    {n : Nat}
    (hSize : IsChunkSize line n) :
    parseChunkSize line = .ok n := by
  rcases readsAs_of_isChunkSize hSize with
    ⟨left, digits, right, hReads, -⟩
  exact
    (parseChunkSize_eq_ok_iff line n).mpr
      ⟨left, [], digits, right, hReads⟩

theorem isChunkSize_of_plain
    {line : Bytes}
    (hPlain : PlainSize line)
    {n : Nat}
    (hParse : parseChunkSize line = .ok n) :
    IsChunkSize line n := by
  rcases (parseChunkSize_eq_ok_iff line n).mp hParse with
    ⟨left, sign, digits, right, hReads⟩
  exact
    (isChunkSize_iff_of_readsAs hReads).mpr
      (hPlain n left sign digits right hReads)

theorem plain_of_isChunkSize
    {line : Bytes}
    (hAll :
      ∀ n, parseChunkSize line = .ok n →
        IsChunkSize line n) :
    PlainSize line := by
  intro n left sign digits right hReads
  have hParse :=
    (parseChunkSize_eq_ok_iff line n).mpr
      ⟨left, sign, digits, right, hReads⟩
  exact
    (isChunkSize_iff_of_readsAs hReads).mp (hAll n hParse)

end RustyIce

------------------------------------------------------------
-- The Lines Of A Body
------------------------------------------------------------

namespace RustyIce

namespace DecoderRun

/- The size line that the next round reads, if any. -/
def sizeLine? (s : DecoderRun) : Option Bytes :=
  match s.phase, s.decoder.state with
  | .polling _, .nextSize =>
      (findCrlf s.decoder.scratch).map
        s.decoder.scratch.take
  | _, _ => none

/- The round goes on to a payload, or to the trailers. -/
def AcceptsSize
    (s : DecoderRun)
    (line : Bytes)
    (n : Nat) : Prop :=
  s.sizeLine? = some line ∧
    ∃ t,
      s.step .advance = some t ∧
        t.decoder.state =
          if n = 0 then .trailers else .payload n

/- The round accepts the line that is read as a size. -/
theorem acceptsSize_iff
    (s : DecoderRun)
    (line : Bytes)
    (n : Nat) :
    s.AcceptsSize line n ↔
      s.sizeLine? = some line ∧
        parseChunkSize line = .ok n := by
  refine and_congr_right fun hLine => ?_
  unfold sizeLine? at hLine
  split at hLine
  · rename_i room hPhase hState
    rcases Option.map_eq_some_iff.mp hLine with
      ⟨pos, hFind, rfl⟩
    have hRound :
        s.decoder.advance room =
          ChunkedDecoder.onSizeLine
            (s.decoder.scratch.take pos)
            { s.decoder with
              scratch := s.decoder.scratch.drop (pos + 2) } := by
      rw [ChunkedDecoder.advance, hState]
      simp only [ChunkedDecoder.fillLine, hFind]
    simp only [step, hPhase, hRound,
      ChunkedDecoder.onSizeLine]
    cases hParse :
        parseChunkSize (s.decoder.scratch.take pos) with
    | error e =>
        simp only [after, Option.some.injEq, exists_eq_left',
          reduceCtorEq, iff_false]
        split
        · intro hEq
          cases hEq
        · intro hEq
          cases hEq
    | ok size =>
        by_cases hZero : size = 0
        · simp only [hZero, if_true, after,
            Option.some.injEq, exists_eq_left',
            Except.ok.injEq]
          split
          · rename_i hN
            simp [hN]
          · rename_i hN
            simp [Ne.symm hN]
        · simp only [if_neg hZero, after,
            Option.some.injEq, exists_eq_left',
            Except.ok.injEq]
          split
          · rename_i hN
            simp [hN, hZero]
          · simp
  · cases hLine

end DecoderRun

/-
  A line is accepted by the grammar alone exactly where it
  has no sign before its digits and nothing but blanks around
  them, and a body's lines are exactly where all of them are
  such lines.
-/
theorem chunkSizes_iff (line input : Bytes) :
    (FollowsGrammar line ↔ PlainSize line) ∧
      ((∀ s, (chunkedMachine input).Reachable s →
            ∀ read n, s.AcceptsSize read n →
              IsChunkSize read n) ↔
          ∀ s, (chunkedMachine input).Reachable s →
            ∀ read, s.sizeLine? = some read →
              PlainSize read) := by
  constructor
  · constructor
    · intro hFollows
      exact plain_of_isChunkSize fun n => (hFollows n).mp
    · intro hPlain n
      exact
        ⟨isChunkSize_of_plain hPlain,
          parseChunkSize_of_isChunkSize⟩
  · constructor
    · intro hAll s hReach read hRead
      apply plain_of_isChunkSize
      intro n hParse
      exact
        hAll s hReach read n
          ((s.acceptsSize_iff read n).mpr ⟨hRead, hParse⟩)
    · intro hPlain s hReach read n hAccepts
      rcases (s.acceptsSize_iff read n).mp hAccepts with
        ⟨hRead, hParse⟩
      exact
        isChunkSize_of_plain (hPlain s hReach read hRead)
          hParse

/- The line "+5" is read as 5. -/
theorem plusFive_accepted :
    parseChunkSize [43, 53] = .ok 5 ∧
      ¬ IsChunkSize [43, 53] 5 ∧
        ¬ FollowsGrammar [43, 53] := by
  have hReads : ReadsAs [43, 53] 5 [] ['+'] ['5'] [] :=
    { split := by decide
      left := fun c hMem => by cases hMem
      right := fun c hMem => by cases hMem
      sign := .inr rfl
      nonempty := List.cons_ne_nil _ _
      hex := by
        intro c hMem
        rw [List.mem_singleton] at hMem
        rw [hMem]
        rfl
      value := rfl
      bounded := by decide }
  have hParse : parseChunkSize [43, 53] = .ok 5 :=
    (parseChunkSize_eq_ok_iff _ _).mpr
      ⟨[], ['+'], ['5'], [], hReads⟩
  have hNot : ¬ IsChunkSize [43, 53] 5 := by
    intro hSize
    exact
      absurd ((isChunkSize_iff_of_readsAs hReads).mp hSize).1
        (by decide)
  exact ⟨hParse, hNot, fun h => hNot ((h 5).mp hParse)⟩

end RustyIce

import RustyIce.Core.Types
import RustyIce.Library.Frames
import Mathlib.Data.List.GetD
import Mathlib.Algebra.Order.Ring.Nat

/-
  Ogg pages: their bytes, the packets their lacing tables
  delimit, and the size reader.

  Main declarations:
    * `OggPage` and `OggPage.bytes`
    * `oggPageSize`, `oggPageSize_page` and
      `exists_page_of_size`
    * `readPackets`
-/

------------------------------------------------------------
-- Pages
------------------------------------------------------------

namespace RustyIce

def OGG_MAGIC : Bytes := [0x4F, 0x67, 0x67, 0x53]

/-
  One page. The lacing table has one entry for each segment
  of the body and adds up to its length.
-/
structure OggPage where
  version : UInt8
  headerType : UInt8
  granule : Vector UInt8 8
  serial : Vector UInt8 4
  sequence : Vector UInt8 4
  checksum : Vector UInt8 4
  lacing : List UInt8
  body : Bytes
  segments : lacing.length ≤ 255
  framed : body.length = (lacing.map UInt8.toNat).sum

namespace OggPage

/- The 27 bytes before the lacing table. -/
def header (p : OggPage) : Bytes :=
  OGG_MAGIC ++
    (p.version :: p.headerType ::
      (p.granule.toList ++ (p.serial.toList ++
        (p.sequence.toList ++ (p.checksum.toList ++
          [UInt8.ofNat p.lacing.length])))))

def bytes (p : OggPage) : Bytes :=
  p.header ++ (p.lacing ++ p.body)

/- The page starts inside a packet. -/
def continued (p : OggPage) : Bool :=
  p.headerType &&& 0x01 ≠ 0

/- The page begins a logical stream. -/
def bos (p : OggPage) : Bool :=
  p.headerType &&& 0x02 ≠ 0

theorem length_header (p : OggPage) :
    p.header.length = 27 := by
  simp [header, OGG_MAGIC]

theorem length_bytes (p : OggPage) :
    p.bytes.length =
      27 + p.lacing.length +
        (p.lacing.map UInt8.toNat).sum := by
  simp only [bytes, List.length_append, p.length_header,
    p.framed]
  omega

theorem length_bytes_pos (p : OggPage) :
    0 < p.bytes.length := by
  rw [p.length_bytes]
  omega

/- What the readers look at in the bytes of a page. -/
theorem take_magic (p : OggPage) (rest : Bytes) :
    (p.bytes ++ rest).take 4 = OGG_MAGIC := by
  simp [bytes, header, OGG_MAGIC]

theorem getD_headerType (p : OggPage) (rest : Bytes) :
    (p.bytes ++ rest).getD 5 0 = p.headerType := by
  simp [bytes, header, OGG_MAGIC]

theorem getD_segments (p : OggPage) (rest : Bytes) :
    ((p.bytes ++ rest).getD 26 0).toNat = p.lacing.length := by
  have hSplit :
      p.bytes ++ rest =
        (OGG_MAGIC ++
          (p.version :: p.headerType ::
            (p.granule.toList ++ (p.serial.toList ++
              (p.sequence.toList ++ p.checksum.toList))))) ++
          (UInt8.ofNat p.lacing.length ::
            (p.lacing ++ (p.body ++ rest))) := by
    simp [bytes, header]
  have hBefore :
      (OGG_MAGIC ++
        (p.version :: p.headerType ::
          (p.granule.toList ++ (p.serial.toList ++
            (p.sequence.toList ++
              p.checksum.toList))))).length = 26 := by
    simp [OGG_MAGIC]
  have hSegments := p.segments
  rw [hSplit, List.getD_append_right _ _ _ _ (by omega),
    hBefore]
  simp only [Nat.sub_self, List.getD_cons_zero,
    UInt8.toNat_ofNat']
  omega

theorem drop_header (p : OggPage) (rest : Bytes) :
    (p.bytes ++ rest).drop 27 =
      p.lacing ++ (p.body ++ rest) := by
  have hLength := p.length_header
  rw [bytes, List.append_assoc, ← hLength,
    List.drop_left, List.append_assoc]

theorem take_header (p : OggPage) (rest : Bytes) :
    (p.bytes ++ rest).take 27 = p.header := by
  rw [bytes, List.append_assoc, ← p.length_header,
    List.take_left]

theorem take_lacing (p : OggPage) (rest : Bytes) :
    ((p.bytes ++ rest).drop 27).take p.lacing.length =
      p.lacing := by
  rw [p.drop_header, List.take_left]

/- The fixed fields are read back from the header. -/
theorem fields_of_header
    {p q : OggPage}
    (hHeader : p.header = q.header) :
    p.version = q.version ∧ p.headerType = q.headerType ∧
      p.granule = q.granule ∧ p.serial = q.serial ∧
        p.sequence = q.sequence ∧
          p.checksum = q.checksum := by
  rw [header, header, List.append_cancel_left_eq,
    List.cons.injEq, List.cons.injEq] at hHeader
  rcases hHeader with ⟨hVersion, hType, hFields⟩
  rcases List.append_inj hFields (by simp) with
    ⟨hGranule, hFields⟩
  rcases List.append_inj hFields (by simp) with
    ⟨hSerial, hFields⟩
  rcases List.append_inj hFields (by simp) with
    ⟨hSequence, hFields⟩
  rcases List.append_inj hFields (by simp) with
    ⟨hChecksum, _⟩
  exact
    ⟨hVersion, hType, Vector.toList_inj.mp hGranule,
      Vector.toList_inj.mp hSerial,
      Vector.toList_inj.mp hSequence,
      Vector.toList_inj.mp hChecksum⟩

/- A page is told by its bytes, whatever follows. -/
theorem bytes_prefixFree :
    Library.Frames.PrefixFree bytes := by
  intro p q rest more hBytes
  have hSegments :
      p.lacing.length = q.lacing.length := by
    rw [← p.getD_segments rest, hBytes, q.getD_segments]
  have hLacing : p.lacing = q.lacing := by
    rw [← p.take_lacing rest, hBytes, hSegments,
      q.take_lacing]
  have hHeader : p.header = q.header := by
    rw [← p.take_header rest, hBytes, q.take_header]
  have hBody : p.body = q.body := by
    have hDrop := congrArg (List.drop 27) hBytes
    rw [p.drop_header, q.drop_header, hLacing,
      List.append_cancel_left_eq] at hDrop
    have hLength : p.body.length = q.body.length := by
      rw [p.framed, q.framed, hLacing]
    exact (List.append_inj hDrop hLength).1
  rcases fields_of_header hHeader with
    ⟨hVersion, hType, hGranule, hSerial, hSequence,
      hChecksum⟩
  cases p
  cases q
  simp_all

end OggPage

/-
  The byte length of the page at the start of `header`, if
  its header and lacing table are there.
-/
def oggPageSize (header : Bytes) : Option Nat :=
  if header.length < 27 ∨ header.take 4 ≠ OGG_MAGIC then
    none
  else
    let nSegments := (header.getD 26 0).toNat
    if header.length < 27 + nSegments then
      none
    else
      let body :=
        (((header.drop 27).take nSegments).map
          UInt8.toNat).sum
      some (27 + nSegments + body)

theorem oggPageSize_of_table
    {data : Bytes}
    (hHeader : 27 ≤ data.length)
    (hMagic : data.take 4 = OGG_MAGIC)
    (hTable :
      ¬ data.length < 27 + (data.getD 26 0).toNat) :
    oggPageSize data =
      some
        (27 + (data.getD 26 0).toNat +
          (((data.drop 27).take (data.getD 26 0).toNat).map
            UInt8.toNat).sum) := by
  have hEnough :
      ¬ (data.length < 27 ∨ data.take 4 ≠ OGG_MAGIC) := by
    rw [hMagic]
    simp only [ne_eq, not_true_eq_false, or_false]
    omega
  simp only [oggPageSize, if_neg hEnough, if_neg hTable]

/- The reader finds the size of every page. -/
theorem oggPageSize_page (p : OggPage) (rest : Bytes) :
    oggPageSize (p.bytes ++ rest) = some p.bytes.length := by
  have hLength := p.length_bytes
  have hAll :
      (p.bytes ++ rest).length =
        p.bytes.length + rest.length := List.length_append
  have hTable :
      ¬ (p.bytes ++ rest).length <
        27 + ((p.bytes ++ rest).getD 26 0).toNat := by
    rw [p.getD_segments]
    omega
  rw [oggPageSize_of_table (by omega) (p.take_magic rest)
    hTable, p.getD_segments, p.take_lacing, hLength]

/-
  Bytes that the reader finds a whole page in begin with a
  page.
-/
theorem exists_page_of_size
    {data : Bytes}
    {size : Nat}
    (hSize : oggPageSize data = some size)
    (hWhole : size ≤ data.length) :
    ∃ p : OggPage, ∃ rest,
      data = p.bytes ++ rest ∧ p.bytes.length = size := by
  unfold oggPageSize at hSize
  split at hSize
  · cases hSize
  · rename_i hHeader
    simp only [not_or, Nat.not_lt, ne_eq, Decidable.not_not]
      at hHeader
    rcases hHeader with ⟨hLong, hMagic⟩
    simp only at hSize
    split at hSize
    · cases hSize
    · rename_i hTable
      simp only [Option.some.injEq] at hSize
      let count := (data.getD 26 0).toNat
      let lacing := (data.drop 27).take count
      let sum := (lacing.map UInt8.toNat).sum
      have hCount : lacing.length = count := by
        rw [List.length_take, List.length_drop]
        omega
      have hBody : 27 + count + sum = size := hSize
      have hOne :
          ∀ i, i < 27 →
            (data.drop i).take 1 = [data.getD i 0] := by
        intro i hi
        rw [List.getD_eq_getElem _ _ (by omega),
          List.drop_eq_getElem_cons (by omega)]
        rfl
      let p : OggPage :=
        { version := data.getD 4 0
          headerType := data.getD 5 0
          granule :=
            ⟨((data.drop 6).take 8).toArray, by simp; omega⟩
          serial :=
            ⟨((data.drop 14).take 4).toArray, by simp; omega⟩
          sequence :=
            ⟨((data.drop 18).take 4).toArray, by simp; omega⟩
          checksum :=
            ⟨((data.drop 22).take 4).toArray, by simp; omega⟩
          lacing := lacing
          body := (data.drop (27 + count)).take sum
          segments := by
            rw [hCount]
            have := (data.getD 26 0).toNat_lt
            omega
          framed := by
            rw [List.length_take, List.length_drop]
            exact Nat.min_eq_left (by omega) }
      have hHeader : p.header = data.take 27 := by
        have hSegments :
            UInt8.ofNat p.lacing.length =
              data.getD 26 0 := by
          show UInt8.ofNat lacing.length = _
          rw [hCount]
          exact UInt8.ofNat_toNat
        rw [OggPage.header, hSegments,
          show 27 = 4 + 1 + 1 + 8 + 4 + 4 + 4 + 1 from rfl]
        simp only [List.take_add, hMagic, hOne 4 (by omega),
          hOne 5 (by omega), hOne 26 (by omega)]
        simp [p]
      refine ⟨p, data.drop size, ?_, ?_⟩
      · have hBytes :
            p.bytes = data.take (27 + count + sum) := by
          rw [OggPage.bytes, hHeader, List.take_add,
            List.take_add, List.append_assoc]
        rw [hBytes, ← hSize]
        exact (List.take_append_drop _ _).symm
      · rw [p.length_bytes, ← hSize]
        show 27 + lacing.length + _ = _
        rw [hCount]

end RustyIce

------------------------------------------------------------
-- Packets
------------------------------------------------------------

namespace RustyIce

/-
  Read the packets a lacing table delimits. `part` is what
  the pages before hold of the packet in progress. A segment
  of less than 255 bytes ends its packet.
-/
def readLacing :
    Bytes → List UInt8 → Bytes → List Bytes × Bytes
| part, [], _ => ([], part)
| part, segment :: lacing, body =>
    let part := part ++ body.take segment.toNat
    let body := body.drop segment.toNat
    if segment < 255 then
      let (packets, rest) := readLacing [] lacing body
      (part :: packets, rest)
    else
      readLacing part lacing body

/- The packets completed on a list of pages. -/
def readPackets :
    Bytes → List OggPage → List Bytes × Bytes
| part, [] => ([], part)
| part, p :: pages =>
    let (packets, part) := readLacing part p.lacing p.body
    let (more, rest) := readPackets part pages
    (packets ++ more, rest)

/-
  The continuation bits tell the truth: a page is marked as
  continued exactly if a packet is in progress before it.
-/
def FlagsAgree : Bytes → List OggPage → Prop
| _, [] => True
| part, p :: pages =>
    (p.continued = true ↔ part ≠ []) ∧
      FlagsAgree (readLacing part p.lacing p.body).2 pages

instance decidableFlagsAgree :
    (part : Bytes) →
      (pages : List OggPage) →
        Decidable (FlagsAgree part pages)
| _, [] => isTrue trivial
| part, p :: pages =>
    have :=
      decidableFlagsAgree
        (readLacing part p.lacing p.body).2 pages
    inferInstanceAs (Decidable (_ ∧ _))

/- The pages that start with a new packet. -/
def freshPages (pages : List OggPage) : Nat :=
  pages.countP fun p => !p.continued

@[simp] theorem freshPages_nil : freshPages [] = 0 := rfl

theorem freshPages_cons
    (p : OggPage)
    (pages : List OggPage) :
    freshPages (p :: pages) =
      freshPages pages + if p.continued then 0 else 1 := by
  cases h : p.continued <;> simp [freshPages, h]

@[simp] theorem freshPages_append
    (first second : List OggPage) :
    freshPages (first ++ second) =
      freshPages first + freshPages second := by
  simp [freshPages]

end RustyIce

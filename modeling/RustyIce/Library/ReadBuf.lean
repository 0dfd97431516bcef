import Mathlib.Data.List.Basic
import Mathlib.Tactic.Common

/-
  Buffers that readers fill from the front, over memory that
  need not be initialised: how much is filled, and how much
  is known to have been written.

  Main declarations:
    * `ReadBuf`, `ReadBuf.Sound`
    * `ReadBuf.take`, `ReadBuf.putSlice`, `ReadBuf.lend`
    * `ReadBuf.assumeInit`, `ReadBuf.setFilled`
    * `lend_take`, `sound_lend_take`
    * `sound_assumeInit_iff`
-/

------------------------------------------------------------
-- Buffers
------------------------------------------------------------

namespace Library

/-
  Memory with its filled part and its initialised part, both
  from the front. A cell that nobody wrote has no value.
-/
structure ReadBuf (Byte : Type) where
  bytes : List (Option Byte)
  filled : Nat
  initialized : Nat
deriving DecidableEq, Repr

namespace ReadBuf

variable {Byte : Type}

def capacity (b : ReadBuf Byte) : Nat :=
  b.bytes.length

def remaining (b : ReadBuf Byte) : Nat :=
  b.capacity - b.filled

/- Somebody wrote the cell. -/
def IsWritten (b : ReadBuf Byte) (i : Nat) : Prop :=
  ∃ x, b.bytes[i]? = some (some x)

/-
  The counters are in order, and no cell that counts as
  initialised is unwritten.
-/
structure Sound (b : ReadBuf Byte) : Prop where
  filled : b.filled ≤ b.initialized
  initialized : b.initialized ≤ b.capacity
  written : ∀ i < b.initialized, b.IsWritten i

/- A buffer of its own for the next cells, at most `n`. -/
def take (b : ReadBuf Byte) (n : Nat) : ReadBuf Byte where
  bytes := (b.bytes.drop b.filled).take n
  filled := 0
  initialized := 0

/- Bytes behind the filled part; it must have the room. -/
def putSlice
    (b : ReadBuf Byte)
    (data : List Byte) : ReadBuf Byte where
  bytes :=
    b.bytes.take b.filled ++ data.map some ++
      b.bytes.drop (b.filled + data.length)
  filled := b.filled + data.length
  initialized := max b.initialized (b.filled + data.length)

/-
  The memory as a buffer that `take` gave leaves it; the
  counters are those of before.
-/
def lend
    (b taken : ReadBuf Byte) : ReadBuf Byte :=
  { b with
    bytes :=
      b.bytes.take b.filled ++ taken.bytes ++
        b.bytes.drop (b.filled + taken.bytes.length) }

/- `n` unfilled bytes are taken to be initialised. -/
def assumeInit
    (b : ReadBuf Byte)
    (n : Nat) : ReadBuf Byte :=
  { b with initialized := max b.initialized (b.filled + n) }

/- The filled part ends at `n`, which is initialised. -/
def setFilled
    (b : ReadBuf Byte)
    (n : Nat) : Option (ReadBuf Byte) :=
  if n ≤ b.initialized then some { b with filled := n }
  else none

end ReadBuf

end Library

------------------------------------------------------------
-- What The Operations Keep
------------------------------------------------------------

namespace Library

namespace ReadBuf

variable {Byte : Type}
variable {b : ReadBuf Byte}

/- Writing through a taken buffer is writing in place. -/
theorem lend_take
    {n : Nat}
    {data : List Byte}
    (hData : data.length ≤ n)
    (hRoom : n ≤ b.remaining) :
    (b.lend ((b.take n).putSlice data)).bytes =
      (b.putSlice data).bytes := by
  have hTaken :
      ((b.bytes.drop b.filled).take n).length = n := by
    rw [List.length_take, List.length_drop]
    exact Nat.min_eq_left hRoom
  have hLength :
      ((b.take n).putSlice data).bytes.length = n := by
    simp only [putSlice, take, List.take_zero,
      List.nil_append, Nat.zero_add, List.length_append,
      List.length_map, List.length_drop, hTaken]
    omega
  have hBehind :
      ((b.bytes.drop b.filled).take n).drop data.length ++
          b.bytes.drop (b.filled + n) =
        b.bytes.drop (b.filled + data.length) := by
    rw [List.drop_take, List.drop_drop,
      show b.filled + n =
        b.filled + data.length + (n - data.length) by omega,
      ← List.drop_drop (i := n - data.length)]
    exact List.take_append_drop _ _
  simp only [lend, hLength]
  simp only [putSlice, take, List.take_zero, List.nil_append,
    Nat.zero_add, List.append_assoc, hBehind]

theorem getElem?_putSlice
    {data : List Byte}
    (hFilled : b.filled ≤ b.capacity)
    (i : Nat) :
    (b.putSlice data).bytes[i]? =
      if i < b.filled then b.bytes[i]?
      else if i < b.filled + data.length then
        (data[i - b.filled]?).map some
      else b.bytes[i]? := by
  have hFront : (b.bytes.take b.filled).length = b.filled := by
    rw [List.length_take]
    exact Nat.min_eq_left hFilled
  rw [putSlice, List.append_assoc]
  by_cases hBefore : i < b.filled
  · rw [if_pos hBefore,
      List.getElem?_append_left (by omega),
      List.getElem?_take_of_lt hBefore]
  · rw [if_neg hBefore,
      List.getElem?_append_right (by omega), hFront]
    by_cases hInside : i < b.filled + data.length
    · rw [if_pos hInside,
        List.getElem?_append_left
          (by rw [List.length_map]; omega),
        List.getElem?_map]
    · rw [if_neg hInside,
        List.getElem?_append_right
          (by rw [List.length_map]; omega),
        List.length_map, List.getElem?_drop]
      congr 1
      omega

/- What is put is written, and all else is as it was. -/
theorem isWritten_putSlice_iff
    {data : List Byte}
    (hFilled : b.filled ≤ b.capacity)
    (i : Nat) :
    (b.putSlice data).IsWritten i ↔
      b.filled ≤ i ∧ i < b.filled + data.length ∨
        ¬ (b.filled ≤ i ∧ i < b.filled + data.length) ∧
          b.IsWritten i := by
  unfold IsWritten
  rw [getElem?_putSlice hFilled]
  by_cases hBefore : i < b.filled
  · rw [if_pos hBefore]
    constructor
    · exact fun h => .inr ⟨by omega, h⟩
    · rintro (hInside | ⟨-, hOld⟩)
      · omega
      · exact hOld
  · rw [if_neg hBefore]
    by_cases hInside : i < b.filled + data.length
    · rw [if_pos hInside]
      refine iff_of_true ?_ (.inl ⟨by omega, hInside⟩)
      have hLess : i - b.filled < data.length := by omega
      exact
        ⟨data[i - b.filled],
          by rw [List.getElem?_eq_getElem hLess]; rfl⟩
    · rw [if_neg hInside]
      constructor
      · exact fun h => .inr ⟨by omega, h⟩
      · rintro (hThere | ⟨-, hOld⟩)
        · omega
        · exact hOld

/- A lent buffer keeps the size of the memory. -/
theorem capacity_lend_take
    {n : Nat}
    {data : List Byte}
    (hFilled : b.filled ≤ b.capacity)
    (hData : data.length ≤ n)
    (hRoom : n ≤ b.remaining) :
    (b.lend ((b.take n).putSlice data)).capacity =
      b.capacity := by
  unfold remaining at hRoom
  unfold capacity at hFilled hRoom ⊢
  rw [lend_take hData hRoom, putSlice, List.length_append,
    List.length_append, List.length_take, List.length_map,
    List.length_drop]
  omega

theorem isWritten_lend_take_iff
    {n : Nat}
    {data : List Byte}
    (hFilled : b.filled ≤ b.capacity)
    (hData : data.length ≤ n)
    (hRoom : n ≤ b.remaining)
    (i : Nat) :
    (b.lend ((b.take n).putSlice data)).IsWritten i ↔
      b.filled ≤ i ∧ i < b.filled + data.length ∨
        ¬ (b.filled ≤ i ∧ i < b.filled + data.length) ∧
          b.IsWritten i := by
  rw [← isWritten_putSlice_iff hFilled]
  unfold IsWritten
  rw [lend_take hData hRoom]

/- What is lent comes back in order. -/
theorem sound_lend_take
    {n : Nat}
    {data : List Byte}
    (hSound : b.Sound)
    (hData : data.length ≤ n)
    (hRoom : n ≤ b.remaining) :
    (b.lend ((b.take n).putSlice data)).Sound := by
  have hFilled : b.filled ≤ b.capacity :=
    Nat.le_trans hSound.filled hSound.initialized
  constructor
  · exact hSound.filled
  · rw [capacity_lend_take hFilled hData hRoom]
    exact hSound.initialized
  · intro i hLess
    rw [isWritten_lend_take_iff hFilled hData hRoom]
    by_cases hInside :
        b.filled ≤ i ∧ i < b.filled + data.length
    · exact .inl hInside
    · exact .inr ⟨hInside, hSound.written i hLess⟩

/-
  What `assumeInit` asks of its caller: the bytes are there,
  and each of them was written.
-/
theorem sound_assumeInit_iff
    (hSound : b.Sound)
    (n : Nat) :
    (b.assumeInit n).Sound ↔
      b.filled + n ≤ b.capacity ∧
        ∀ i, b.initialized ≤ i → i < b.filled + n →
          b.IsWritten i := by
  constructor
  · intro hAssumed
    refine ⟨?_, ?_⟩
    · exact
        Nat.le_trans (Nat.le_max_right _ _)
          hAssumed.initialized
    · intro i _ hLess
      exact
        hAssumed.written i
          (Nat.lt_of_lt_of_le hLess (Nat.le_max_right _ _))
  · rintro ⟨hRoom, hWritten⟩
    constructor
    · exact
        Nat.le_trans hSound.filled (Nat.le_max_left _ _)
    · exact Nat.max_le.mpr ⟨hSound.initialized, hRoom⟩
    · intro i hLess
      by_cases hOld : i < b.initialized
      · exact hSound.written i hOld
      · have hMax : i < max b.initialized (b.filled + n) :=
          hLess
        exact hWritten i (by omega) (by omega)

/- Filling up to what is initialised changes no more. -/
theorem sound_setFilled
    {n : Nat}
    {after : ReadBuf Byte}
    (hAfter : b.setFilled n = some after) :
    after.Sound ↔
      b.initialized ≤ b.capacity ∧
        ∀ i < b.initialized, b.IsWritten i := by
  unfold setFilled at hAfter
  split at hAfter
  · rename_i hLe
    cases hAfter
    exact
      ⟨fun h => ⟨h.initialized, h.written⟩,
        fun h => ⟨hLe, h.1, h.2⟩⟩
  · cases hAfter

end ReadBuf

end Library

import Mathlib.Data.List.Basic
import Mathlib.Tactic.Common

/-
  A pipe of bounded capacity between a writer and a reader:
  a write takes as much as there is room for, a read takes
  as much as there is.

  `taken` records what the reader took so far. The buffer of
  a pipe is never longer than its capacity.

  Main declarations:
    * `Pipe`, `Pipe.pollWrite`, `Pipe.read`
    * `Pipe.carried`
    * `Pipe.carried_of_ready`, `Pipe.carried_read`
    * `Pipe.ready_exact`
-/

------------------------------------------------------------
-- Pipes
------------------------------------------------------------

namespace Library

/- Either end may be closed; a write needs both open. -/
structure Pipe (Symbol : Type) where
  capacity : Nat
  taken : List Symbol
  buffered : List Symbol
  writerClosed : Bool
  readerClosed : Bool
  fits : buffered.length ≤ capacity
deriving Repr

/- What a write is told. -/
inductive PolledWrite (Symbol : Type) where
| broken
| pending
| ready (count : Nat) (pipe : Pipe Symbol)

namespace Pipe

variable {Symbol : Type}

def new (capacity : Nat) : Pipe Symbol where
  capacity := capacity
  taken := []
  buffered := []
  writerClosed := false
  readerClosed := false
  fits := Nat.zero_le _

/- The room left in the buffer. -/
def room (pipe : Pipe Symbol) : Nat :=
  pipe.capacity - pipe.buffered.length

def closed (pipe : Pipe Symbol) : Bool :=
  pipe.writerClosed || pipe.readerClosed

/- Everything that was written and not lost. -/
def carried (pipe : Pipe Symbol) : List Symbol :=
  pipe.taken ++ pipe.buffered

/- Buffer what there is room for. -/
def push
    (pipe : Pipe Symbol)
    (data : List Symbol) : Pipe Symbol where
  capacity := pipe.capacity
  taken := pipe.taken
  buffered := pipe.buffered ++ data.take pipe.room
  writerClosed := pipe.writerClosed
  readerClosed := pipe.readerClosed
  fits := by
    have hFits := pipe.fits
    rw [List.length_append, List.length_take]
    unfold room
    omega

/- A full pipe makes the writer wait. -/
def pollWrite
    (pipe : Pipe Symbol)
    (data : List Symbol) : PolledWrite Symbol :=
  if pipe.closed then
    .broken
  else if pipe.room = 0 then
    .pending
  else
    .ready (min data.length pipe.room) (pipe.push data)

/- The reader takes up to `count` symbols. -/
def read
    (pipe : Pipe Symbol)
    (count : Nat) : Pipe Symbol where
  capacity := pipe.capacity
  taken := pipe.taken ++ pipe.buffered.take count
  buffered := pipe.buffered.drop count
  writerClosed := pipe.writerClosed
  readerClosed := pipe.readerClosed
  fits := by
    have hFits := pipe.fits
    rw [List.length_drop]
    omega

def closeWriter (pipe : Pipe Symbol) : Pipe Symbol :=
  { pipe with writerClosed := true }

def closeReader (pipe : Pipe Symbol) : Pipe Symbol :=
  { pipe with readerClosed := true }

@[simp] theorem carried_closeWriter (pipe : Pipe Symbol) :
    pipe.closeWriter.carried = pipe.carried := rfl

@[simp] theorem carried_closeReader (pipe : Pipe Symbol) :
    pipe.closeReader.carried = pipe.carried := rfl

@[simp] theorem carried_new (capacity : Nat) :
    (new capacity : Pipe Symbol).carried = [] := rfl

@[simp] theorem carried_read
    (pipe : Pipe Symbol)
    (count : Nat) :
    (pipe.read count).carried = pipe.carried := by
  unfold carried read
  rw [List.append_assoc, List.take_append_drop]

theorem carried_push
    (pipe : Pipe Symbol)
    (data : List Symbol) :
    (pipe.push data).carried =
      pipe.carried ++ data.take pipe.room := by
  unfold carried push
  rw [List.append_assoc]

end Pipe

end Library

------------------------------------------------------------
-- Writing A Whole Buffer
------------------------------------------------------------

namespace Library

namespace Pipe

variable {Symbol : Type}
variable {pipe after : Pipe Symbol}
variable {data : List Symbol}
variable {count : Nat}

/- What a write accepts is the front of what it is given. -/
theorem ready_exact
    (hReady : pipe.pollWrite data = .ready count after) :
    after = pipe.push data ∧
      count = (data.take pipe.room).length ∧
        pipe.closed = false ∧ 0 < pipe.room := by
  unfold pollWrite at hReady
  by_cases hClosed : pipe.closed = true
  · rw [if_pos hClosed] at hReady
    cases hReady
  · rw [if_neg hClosed] at hReady
    by_cases hFull : pipe.room = 0
    · rw [if_pos hFull] at hReady
      cases hReady
    · rw [if_neg hFull] at hReady
      cases hReady
      refine ⟨rfl, ?_, by simpa using hClosed, by omega⟩
      rw [List.length_take, Nat.min_comm]

/- Nothing of the data is lost between two writes. -/
theorem carried_of_ready
    (hReady : pipe.pollWrite data = .ready count after) :
    after.carried ++ data.drop count =
        pipe.carried ++ data ∧
      after.carried.length =
        pipe.carried.length + count := by
  rcases ready_exact hReady with ⟨rfl, hCount, -, -⟩
  have hDrop : data.drop count = data.drop pipe.room := by
    rw [hCount, List.length_take]
    rcases Nat.le_total pipe.room data.length with
      hLess | hMore
    · rw [Nat.min_eq_left hLess]
    · rw [Nat.min_eq_right hMore,
        List.drop_of_length_le hMore, List.drop_length]
  constructor
  · rw [carried_push, hDrop, List.append_assoc,
      List.take_append_drop]
  · rw [carried_push, List.length_append, hCount]

theorem capacity_of_ready
    (hReady : pipe.pollWrite data = .ready count after) :
    after.capacity = pipe.capacity := by
  rcases ready_exact hReady with ⟨rfl, -, -, -⟩
  rfl

end Pipe

end Library

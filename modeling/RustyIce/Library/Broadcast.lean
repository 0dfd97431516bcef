import Mathlib.Data.List.Basic

/-
  A broadcast channel with a bounded buffer: every receiver
  has a position of its own, and one that fell behind by more
  than the buffer loses the oldest values.

  Main declarations:
    * `Broadcast`, `Broadcast.send`, `Broadcast.subscribe`
    * `Broadcast.recv`
    * `Broadcast.unread`
-/

------------------------------------------------------------
-- Channels
------------------------------------------------------------

namespace Library

/- The values sent so far, and how many stay readable. -/
structure Broadcast (Value : Type) where
  buffer : Nat
  sent : List Value

/- What a receiver is told. -/
inductive Delivery (Value : Type) where
| value (v : Value)
| lagged (missed : Nat)
deriving DecidableEq, Repr

namespace Broadcast

variable {Value : Type}

def new (buffer : Nat) : Broadcast Value where
  buffer := buffer
  sent := []

def send
    (channel : Broadcast Value)
    (v : Value) : Broadcast Value :=
  { channel with sent := channel.sent ++ [v] }

/- A new receiver starts behind the last value. -/
def subscribe (channel : Broadcast Value) : Nat :=
  channel.sent.length

/-
  What the receiver at `next` gets, and where it reads
  afterwards; nothing when it has caught up.
-/
def recv
    (channel : Broadcast Value)
    (next : Nat) : Option (Delivery Value × Nat) :=
  if channel.buffer < channel.sent.length - next then
    some
      (.lagged (channel.sent.length - channel.buffer - next),
        channel.sent.length - channel.buffer)
  else
    match channel.sent[next]? with
    | none => none
    | some v => some (.value v, next + 1)

/- What the receiver at `next` has not read yet. -/
def unread
    (channel : Broadcast Value)
    (next : Nat) : List Value :=
  channel.sent.drop next

variable {channel : Broadcast Value}
variable {next : Nat}

theorem unread_send
    (hNext : next ≤ channel.sent.length)
    (v : Value) :
    (channel.send v).unread next =
      channel.unread next ++ [v] :=
  List.drop_append_of_le_length hNext

/- A value that is delivered is the first one unread. -/
theorem unread_of_recv
    {v : Value}
    {after : Nat}
    (hRecv : channel.recv next = some (.value v, after)) :
    channel.unread next = v :: channel.unread after ∧
      after ≤ channel.sent.length := by
  unfold recv at hRecv
  split at hRecv
  · cases hRecv
  · split at hRecv
    · cases hRecv
    · rename_i hSome
      cases hRecv
      rcases List.getElem?_eq_some_iff.mp hSome with
        ⟨hLess, hGet⟩
      refine ⟨?_, hLess⟩
      unfold unread
      rw [List.drop_eq_getElem_cons hLess, hGet]

/- A receiver that loses values still reads ahead. -/
theorem le_of_recv
    {delivery : Delivery Value}
    {after : Nat}
    (hRecv : channel.recv next = some (delivery, after)) :
    after ≤ channel.sent.length := by
  cases delivery with
  | value v => exact (unread_of_recv hRecv).2
  | lagged missed =>
      unfold recv at hRecv
      split at hRecv
      · cases hRecv
        exact Nat.sub_le _ _
      · split at hRecv <;> cases hRecv

/- Nothing is delivered to a receiver that has read all. -/
theorem unread_of_recv_none
    (hRecv : channel.recv next = none) :
    channel.unread next = [] := by
  unfold recv at hRecv
  split at hRecv
  · cases hRecv
  · split at hRecv
    · rename_i hNone
      exact
        List.drop_eq_nil_of_le
          (List.getElem?_eq_none_iff.mp hNone)
    · cases hRecv

end Broadcast

end Library

import RustyIce.Library.ReadBuf
import RustyIce.Server.DecoderErrors

/-
  The caller's buffer in a call of the decoder: a payload is
  read through a buffer of its own, and what was read is then
  told to the caller's buffer by hand.

  Main declarations:
    * `mirrorPayload`
    * `BufferCall`, `bufferMachine`
    * `BufferCall.Overstates`
    * `sound_step_iff`
    * `payloadBuffer_sound_iff`
-/

------------------------------------------------------------
-- The Mirror
------------------------------------------------------------

namespace RustyIce

open Library

abbrev Buffer := ReadBuf UInt8

/-
  The payload branch of `poll_read`, behind an inner read
  that gave `data`: the counts of the limited buffer, which
  start at its own beginning, are put on the caller's.
-/
def mirrorPayload
    (dst : Buffer)
    (capacity : Nat)
    (data : Bytes) : Option Buffer :=
  let before := dst.filled
  let limited := (dst.take capacity).putSlice data
  let n := limited.filled
  ((dst.lend limited).assumeInit (before + n)).setFilled
    (before + n)

end RustyIce

------------------------------------------------------------
-- One Call
------------------------------------------------------------

namespace RustyIce

/- A decoder, the caller's buffer, and a call in progress. -/
structure BufferCall where
  decoder : ChunkedDecoder
  dst : Buffer
  running : Bool
deriving DecidableEq, Repr

namespace BufferCall

def start
    (decoder : ChunkedDecoder)
    (dst : Buffer) : BufferCall where
  decoder := decoder
  dst := dst
  running := true

/- The end of a round, with the buffer as it is then. -/
def after
    (dst : Buffer) : Round → Option BufferCall
| .read _ => none
| .again decoder =>
    some { decoder := decoder, dst := dst, running := true }
| .finish decoder _ =>
    some { decoder := decoder, dst := dst, running := false }

/-
  What an inner read does to the caller's buffer: a payload
  is read into it, everything else elsewhere.
-/
def receiveInto
    (s : BufferCall)
    (capacity : Nat)
    (read : InnerRead) : Option Buffer :=
  match s.decoder.state, read with
  | .payload _, .ready (byte :: data) =>
      mirrorPayload s.dst capacity (byte :: data)
  | _, _ => some s.dst

/- A round of the call. -/
def step
    (s : BufferCall)
    (label : PollLabel) : Option BufferCall :=
  if s.running then
    match s.decoder.advance s.dst.remaining, label with
    | .read _, .pending => some { s with running := false }
    | .read capacity, .answer read =>
        if read.Fits capacity then
          (s.receiveInto capacity read).bind fun dst =>
            after dst (s.decoder.receive read)
        else
          none
    | .again decoder, .advance =>
        some { s with decoder := decoder }
    | .finish decoder _, .advance =>
        some { s with decoder := decoder, running := false }
    | _, _ => none
  else
    none

end BufferCall

/- A call of any decoder with a buffer in order. -/
def bufferMachine :
    Library.Machine BufferCall PollLabel where
  init := fun s =>
    ∃ decoder dst, dst.Sound ∧ s = .start decoder dst
  step := BufferCall.step

namespace BufferCall

/-
  The read gives `n` bytes of payload, the buffer has a
  filled part, and as many cells as that part has, behind
  what is then filled, are not all there and written.
-/
def Overstates (s : BufferCall) (label : PollLabel) : Prop :=
  match s.decoder.state, label with
  | .payload _, .answer (.ready (byte :: data)) =>
      let n := (byte :: data).length
      s.dst.filled ≠ 0 ∧
        ¬ (2 * s.dst.filled + n ≤ s.dst.capacity ∧
          ∀ i, s.dst.filled + n ≤ i →
            i < 2 * s.dst.filled + n → s.dst.IsWritten i)
  | _, _ => False

end BufferCall

end RustyIce

------------------------------------------------------------
-- The Contract
------------------------------------------------------------

namespace RustyIce

open Library

/- The mirror leaves a buffer; in order or not. -/
theorem mirrorPayload_sound_iff
    {dst : Buffer}
    (hSound : dst.Sound)
    {capacity : Nat}
    {data : Bytes}
    (hData : data.length ≤ capacity)
    (hRoom : capacity ≤ dst.remaining) :
    ∃ after,
      mirrorPayload dst capacity data = some after ∧
        (after.Sound ↔
          dst.filled = 0 ∨
            2 * dst.filled + data.length ≤ dst.capacity ∧
              ∀ i, dst.filled + data.length ≤ i →
                i < 2 * dst.filled + data.length →
                  dst.IsWritten i) := by
  let limited := (dst.take capacity).putSlice data
  let lent := dst.lend limited
  have hCount : limited.filled = data.length := by
    show 0 + data.length = _
    omega
  have hFilled : dst.filled ≤ dst.capacity :=
    Nat.le_trans hSound.filled hSound.initialized
  have hWhole :
      dst.filled + data.length ≤ dst.capacity := by
    unfold ReadBuf.remaining at hRoom
    omega
  have hCapacity : lent.capacity = dst.capacity :=
    ReadBuf.capacity_lend_take hFilled hData hRoom
  have hWritten :=
    ReadBuf.isWritten_lend_take_iff hFilled hData hRoom
  have hLent : lent.Sound :=
    ReadBuf.sound_lend_take hSound hData hRoom
  have hAssumed :=
    ReadBuf.sound_assumeInit_iff hLent
      (dst.filled + data.length)
  let assumed := lent.assumeInit (dst.filled + data.length)
  have hLe :
      dst.filled + data.length ≤ assumed.initialized := by
    show _ ≤ max dst.initialized
      (dst.filled + (dst.filled + data.length))
    omega
  refine
    ⟨{ assumed with filled := dst.filled + data.length },
      ?_, ?_⟩
  · show
      (lent.assumeInit (dst.filled + limited.filled)).setFilled
          (dst.filled + limited.filled) = _
    rw [hCount, ReadBuf.setFilled, if_pos hLe]
  · have hSame :
        ({ assumed with filled := dst.filled + data.length } :
            Buffer).Sound ↔
          assumed.Sound := by
      have hSet :
          assumed.setFilled (dst.filled + data.length) =
            some
              { assumed with
                filled := dst.filled + data.length } := by
        rw [ReadBuf.setFilled, if_pos hLe]
      rw [ReadBuf.sound_setFilled hSet]
      have hOrder : assumed.filled ≤ assumed.initialized :=
        Nat.le_trans hSound.filled (Nat.le_max_left _ _)
      exact
        ⟨fun h => ⟨hOrder, h.1, h.2⟩,
          fun h => ⟨h.initialized, h.written⟩⟩
    rw [hSame, hAssumed, hCapacity]
    show
      dst.filled + (dst.filled + data.length) ≤ _ ∧
          (∀ i, dst.initialized ≤ i →
            i < dst.filled + (dst.filled + data.length) →
              lent.IsWritten i) ↔ _
    constructor
    · rintro ⟨hFits, hThere⟩
      refine .inr ⟨by omega, ?_⟩
      intro i hFrom hTo
      by_cases hOld : i < dst.initialized
      · exact hSound.written i hOld
      · rcases
            (hWritten i).mp
              (hThere i (by omega) (by omega)) with
          hInside | ⟨-, hBefore⟩
        · omega
        · exact hBefore
    · rintro (hZero | ⟨hFits, hThere⟩)
      · refine ⟨by omega, ?_⟩
        intro i _ hTo
        rw [hWritten]
        exact .inl ⟨by omega, by omega⟩
      · refine ⟨by omega, ?_⟩
        intro i hFrom hTo
        rw [hWritten]
        by_cases hInside :
            dst.filled ≤ i ∧ i < dst.filled + data.length
        · exact .inl hInside
        · have hOrder := hSound.filled
          exact
            .inr ⟨hInside, hThere i (by omega) (by omega)⟩

/- A payload's round reads no more than there is room for. -/
theorem capacity_of_payload
    {decoder : ChunkedDecoder}
    {remaining room capacity : Nat}
    (hState : decoder.state = .payload remaining)
    (hRead : decoder.advance room = .read capacity) :
    capacity ≤ room := by
  rw [ChunkedDecoder.advance, hState] at hRead
  simp only at hRead
  split at hRead
  · cases hRead
  · split at hRead
    · cases hRead
    · cases hRead
      exact Nat.min_le_right _ _

namespace BufferCall

variable {s t : BufferCall}
variable {label : PollLabel}

/- A read that is no payload leaves the buffer alone. -/
theorem dst_of_after
    {dst : Buffer}
    {round : Round}
    (hAfter : after dst round = some t) :
    t.dst = dst := by
  cases round with
  | read capacity => cases hAfter
  | again decoder =>
      cases hAfter
      rfl
  | finish decoder result =>
      cases hAfter
      rfl

/-
  The step: the buffer is as it was, or a payload was read
  into it and the call is over.
-/
theorem dst_of_step
    (hSound : s.dst.Sound)
    (hStep : s.step label = some t) :
    (t.dst = s.dst ∧ ¬ s.Overstates label) ∨
      t.running = false ∧
        (t.dst.Sound ↔ ¬ s.Overstates label) := by
  unfold step at hStep
  split at hStep
  · split at hStep
    · rename_i capacity hRead
      cases hStep
      refine .inl ⟨rfl, ?_⟩
      unfold Overstates
      split
      · rename_i hLabel
        cases hLabel
      · exact id
    · rename_i capacity read hRead
      split at hStep
      · rename_i hFits
        rcases Option.bind_eq_some_iff.mp hStep with
          ⟨dst, hDst, hAfter⟩
        unfold receiveInto at hDst
        split at hDst
        · rename_i remaining byte data hState
          have hRoom := capacity_of_payload hState hRead
          rcases mirrorPayload_sound_iff hSound hFits hRoom with
            ⟨mirrored, hMirror, hIff⟩
          rw [hMirror] at hDst
          cases hDst
          refine .inr ⟨?_, ?_⟩
          · rw [ChunkedDecoder.receive, hState] at hAfter
            cases hAfter
            rfl
          · rw [dst_of_after hAfter, hIff]
            simp only [Overstates, hState]
            tauto
        · rename_i hOther
          cases hDst
          refine .inl ⟨dst_of_after hAfter, ?_⟩
          unfold Overstates
          split
          · rename_i remaining byte data hState hLabel
            cases hLabel
            exact (hOther remaining byte data hState rfl).elim
          · exact id
      · cases hStep
    · cases hStep
      refine .inl ⟨rfl, ?_⟩
      unfold Overstates
      split
      · rename_i hLabel
        cases hLabel
      · exact id
    · cases hStep
      refine .inl ⟨rfl, ?_⟩
      unfold Overstates
      split
      · rename_i hLabel
        cases hLabel
      · exact id
    · cases hStep
  · cases hStep

/- The rounds of a call up to the one that overstates. -/
def RunOverstates
    (s : BufferCall)
    (labels : List PollLabel) : Prop :=
  ∃ before label rest u,
    labels = before ++ label :: rest ∧
      bufferMachine.run s before = some u ∧
        u.Overstates label

theorem not_runOverstates_nil (s : BufferCall) :
    ¬ s.RunOverstates [] := by
  rintro ⟨before, label, rest, u, hLabels, -, -⟩
  cases before with
  | nil => cases hLabels
  | cons first before => cases hLabels

theorem runOverstates_cons
    {labels : List PollLabel}
    (hStep : s.step label = some t) :
    s.RunOverstates (label :: labels) ↔
      s.Overstates label ∨ t.RunOverstates labels := by
  constructor
  · rintro ⟨before, other, rest, u, hLabels, hRun, hOver⟩
    cases before with
    | nil =>
        cases hRun
        cases hLabels
        exact .inl hOver
    | cons first before =>
        cases hLabels
        simp only [Machine.run, bufferMachine, hStep] at hRun
        exact .inr ⟨before, other, rest, u, rfl, hRun, hOver⟩
  · rintro (hOver | ⟨before, other, rest, u, rfl, hRun, hOver⟩)
    · exact ⟨[], label, labels, s, rfl, rfl, hOver⟩
    · refine
        ⟨label :: before, other, rest, u, rfl, ?_, hOver⟩
      simp only [Machine.run, bufferMachine, hStep]
      exact hRun

/- The run: a call overstates at its last round, or never. -/
theorem sound_run_iff
    (hSound : s.dst.Sound)
    {labels : List PollLabel}
    (hRun : bufferMachine.run s labels = some t) :
    t.dst.Sound ↔ ¬ s.RunOverstates labels := by
  induction labels generalizing s with
  | nil =>
      cases hRun
      exact iff_of_true hSound t.not_runOverstates_nil
  | cons label labels ih =>
      rw [Machine.run] at hRun
      split at hRun
      · cases hRun
      · rename_i next hStep
        rw [runOverstates_cons hStep]
        rcases dst_of_step hSound hStep with
          ⟨hSame, hNot⟩ | ⟨hOver, hIff⟩
        · have hNext := ih (hSame ▸ hSound) hRun
          rw [hNext]
          tauto
        · have hEnd : labels = [] ∧ next = t := by
            cases labels with
            | nil =>
                cases hRun
                exact ⟨rfl, rfl⟩
            | cons more labels =>
                simp only [Machine.run, bufferMachine, step,
                  hOver, Bool.false_eq_true, if_false] at hRun
                cases hRun
          rcases hEnd with ⟨rfl, rfl⟩
          rw [hIff]
          have hNone := next.not_runOverstates_nil
          tauto

end BufferCall

/-
  In every call of every decoder with a buffer in order, the
  buffer stays in order exactly where no round overstates
  what was read.
-/
theorem payloadBuffer_sound_iff
    (decoder : ChunkedDecoder)
    (dst : Buffer)
    (hSound : dst.Sound)
    (labels : List PollLabel)
    (s : BufferCall)
    (hRun :
      bufferMachine.run (.start decoder dst) labels =
        some s) :
    s.dst.Sound ↔
      ¬ (BufferCall.start decoder dst).RunOverstates labels :=
  BufferCall.sound_run_iff hSound hRun

/- Three bytes of payload, with a byte in front of them. -/
def oneFilled (behind : List (Option UInt8)) : Buffer where
  bytes := some 65 :: behind
  filled := 1
  initialized := 1

def threeLeft : ChunkedDecoder where
  state := .payload 3
  scratch := []

theorem sound_oneFilled (behind : List (Option UInt8)) :
    (oneFilled behind).Sound where
  filled := Nat.le_refl _
  initialized := Nat.le_add_left _ _
  written := by
    intro i hLess
    have hZero : i = 0 := Nat.lt_one_iff.mp hLess
    subst hZero
    exact ⟨65, rfl⟩

/- An empty buffer is filled as it should be. -/
theorem payloadBuffer_sound_empty :
    ∃ s,
      bufferMachine.run
          (.start threeLeft
            { bytes := [none, none], filled := 0,
              initialized := 0 })
          [.answer (.ready [66, 67])] = some s ∧
        s.dst.filled = 2 ∧ s.dst.Sound := by
  have hSound :
      ({ bytes := [none, none], filled := 0,
          initialized := 0 } : Buffer).Sound :=
    ⟨Nat.le_refl _, Nat.zero_le _,
      fun i hLess => absurd hLess (Nat.not_lt_zero i)⟩
  refine ⟨_, rfl, rfl, ?_⟩
  apply
    (payloadBuffer_sound_iff threeLeft
      { bytes := [none, none], filled := 0, initialized := 0 }
      hSound [.answer (.ready [66, 67])] _ rfl).mpr
  rw [BufferCall.runOverstates_cons rfl]
  rintro (hOver | hLater)
  · exact hOver.1 rfl
  · exact BufferCall.not_runOverstates_nil _ hLater

/-
  Behind a byte that was there before, a read of one byte
  makes an unwritten byte count as initialised.
-/
theorem oneFilled_overstated :
    (oneFilled [none, none]).Sound ∧
      ∃ s,
        bufferMachine.run
            (.start threeLeft (oneFilled [none, none]))
            [.answer (.ready [66])] = some s ∧
          s.dst.filled = 2 ∧ s.dst.initialized = 3 ∧
            ¬ s.dst.IsWritten 2 ∧ ¬ s.dst.Sound := by
  refine ⟨sound_oneFilled _, _, rfl, rfl, rfl, ?_, ?_⟩
  · rintro ⟨x, hX⟩
    cases hX
  · intro hSound
    rcases hSound.written 2 (by decide) with ⟨x, hX⟩
    cases hX

end RustyIce

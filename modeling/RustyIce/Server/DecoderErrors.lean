import RustyIce.Server.Chunked

/-
  The decoder under any reader and any caller, who may call
  again after an error: an error is the end of it, unless the
  inner reader fails or ends in the middle of a line.

  Main declarations:
    * `PollRun`, `pollMachine`
    * `PollRun.Quiet`
    * `PollRun.LineReadFails`
    * `errorsFinal_iff`
-/

------------------------------------------------------------
-- Calls Of A Decoder
------------------------------------------------------------

namespace RustyIce

/-
  A decoder, the room in the buffer of the call in progress,
  and whether some call has returned an error.
-/
structure PollRun where
  decoder : ChunkedDecoder
  call : Option Nat
  erred : Bool
deriving DecidableEq, Repr

/-
  A call with a buffer, a round without a read, an inner read
  that is pending, and one that is answered in any way.
-/
inductive PollLabel where
| poll (room : Nat)
| advance
| pending
| answer (read : InnerRead)
deriving DecidableEq, Repr

/- A read fits into the buffer it is given. -/
def InnerRead.Fits
    (read : InnerRead)
    (capacity : Nat) : Prop :=
  match read with
  | .ready data => data.length ≤ capacity
  | .failed _ => True

instance
    (read : InnerRead)
    (capacity : Nat) :
    Decidable (read.Fits capacity) :=
  match read with
  | .ready data =>
      inferInstanceAs (Decidable (data.length ≤ capacity))
  | .failed _ => inferInstanceAs (Decidable True)

namespace PollRun

def start (decoder : ChunkedDecoder) : PollRun where
  decoder := decoder
  call := none
  erred := false

/- The round that a label makes, up to its end. -/
def round (s : PollRun) (label : PollLabel) : Option Round :=
  match s.call, label with
  | some room, .advance => some (s.decoder.advance room)
  | some room, .answer read =>
      match s.decoder.advance room with
      | .read capacity =>
          if read.Fits capacity then
            some (s.decoder.receive read)
          else
            none
      | _ => none
  | _, _ => none

/- The end of a round, and of the call where it returns. -/
def after (s : PollRun) : Round → Option PollRun
| .read _ => none
| .again decoder => some { s with decoder := decoder }
| .finish decoder (.error _) =>
    some { decoder := decoder, call := none, erred := true }
| .finish decoder (.ok _) =>
    some { s with decoder := decoder, call := none }

def step (s : PollRun) (label : PollLabel) : Option PollRun :=
  match s.call, label with
  | none, .poll room => some { s with call := some room }
  | some room, .pending =>
      match s.decoder.advance room with
      | .read _ => some { s with call := none }
      | _ => none
  | _, label => (s.round label).bind s.after

end PollRun

/- From any decoder on, whatever state it is in. -/
def pollMachine : Library.Machine PollRun PollLabel where
  init := fun s => ∃ decoder, s = .start decoder
  step := PollRun.step

namespace PollRun

/- This step returns an error to the caller. -/
def ReturnsError (s : PollRun) (label : PollLabel) : Prop :=
  ∃ decoder e,
    s.round label = some (.finish decoder (.error e))

/-
  From here on every call ends at once, with no bytes and
  without a read of the inner reader.
-/
def Quiet (s : PollRun) : Prop :=
  ∀ labels t,
    pollMachine.run s labels = some t →
      ∀ room, t.call = some room →
        t.decoder.advance room = .finish t.decoder (.ok [])

/- Every later call is like that. -/
def ErrorIsFinal (s : PollRun) (label : PollLabel) : Prop :=
  ∀ t, s.step label = some t → t.Quiet

/-
  The inner reader fails or ends while a size line or a
  trailer line is read.
-/
def LineReadFails (s : PollRun) (label : PollLabel) : Prop :=
  (s.decoder.state = .nextSize ∨
      s.decoder.state = .trailers) ∧
    match label with
    | .answer (.failed _) => True
    | .answer (.ready data) => data = []
    | _ => False

end PollRun

end RustyIce

------------------------------------------------------------
-- Where An Error Comes From
------------------------------------------------------------

namespace RustyIce

namespace ChunkedDecoder

variable {decoder next : ChunkedDecoder}
variable {e : IoError}

/- What a round refuses by itself it also records. -/
theorem errored_of_fillLine
    {maxBytes : Nat}
    {found : Bytes → ChunkedDecoder → Round}
    (hFound :
      ∀ line rest,
        found line rest = .finish next (.error e) →
          next.state = .errored)
    (hRound :
      decoder.fillLine maxBytes found =
        .finish next (.error e)) :
    next.state = .errored := by
  unfold fillLine at hRound
  split at hRound
  · exact hFound _ _ hRound
  · split at hRound
    · cases hRound
      rfl
    · cases hRound

theorem errored_of_onSizeLine
    {line : Bytes}
    (hRound :
      onSizeLine line decoder = .finish next (.error e)) :
    next.state = .errored := by
  unfold onSizeLine at hRound
  split at hRound
  · cases hRound
    rfl
  · split at hRound
    · cases hRound
    · cases hRound

theorem errored_of_onTrailerLine
    {line : Bytes}
    (hRound :
      onTrailerLine line decoder = .finish next (.error e)) :
    next.state = .errored := by
  unfold onTrailerLine at hRound
  split at hRound
  · cases hRound
  · cases hRound

theorem errored_of_advance
    {room : Nat}
    (hRound :
      decoder.advance room = .finish next (.error e)) :
    next.state = .errored := by
  unfold advance at hRound
  cases hState : decoder.state with
  | done | errored | afterPayload seen =>
      rw [hState] at hRound
      cases hRound
  | payload remaining =>
      rw [hState] at hRound
      simp only at hRound
      split at hRound
      · cases hRound
      · split at hRound
        · cases hRound
        · cases hRound
  | nextSize =>
      rw [hState] at hRound
      exact
        errored_of_fillLine
          (fun _ _ => errored_of_onSizeLine) hRound
  | trailers =>
      rw [hState] at hRound
      exact
        errored_of_fillLine
          (fun _ _ => errored_of_onTrailerLine) hRound

/-
  What a read brings about is recorded too, but not while a
  line is read: that error leaves the decoder as it was.
-/
theorem error_of_receive
    {read : InnerRead}
    (hRound :
      decoder.receive read = .finish next (.error e)) :
    if decoder.state = .nextSize ∨
        decoder.state = .trailers then
      next = decoder ∧
        match read with
        | .failed _ => True
        | .ready data => data = []
    else
      next.state = .errored := by
  have hLine :
      decoder.receiveLine read = .finish next (.error e) →
        next = decoder ∧
          match read with
          | .failed _ => True
          | .ready data => data = [] := by
    intro hReceive
    match read, hReceive with
    | .failed _, hReceive =>
        cases hReceive
        exact ⟨rfl, trivial⟩
    | .ready [], hReceive =>
        cases hReceive
        exact ⟨rfl, rfl⟩
  unfold receive at hRound
  cases hState : decoder.state with
  | done | errored =>
      rw [hState] at hRound
      cases hRound
  | nextSize =>
      rw [hState] at hRound
      rw [if_pos (.inl rfl)]
      exact hLine hRound
  | trailers =>
      rw [hState] at hRound
      rw [if_pos (.inr rfl)]
      exact hLine hRound
  | payload remaining =>
      rw [hState] at hRound
      rw [if_neg (by simp)]
      match read, hRound with
      | .failed _, hRound =>
          cases hRound
          rfl
      | .ready [], hRound =>
          cases hRound
          rfl
  | afterPayload seen =>
      rw [hState] at hRound
      rw [if_neg (by simp)]
      match read, hRound with
      | .failed _, hRound =>
          cases hRound
          rfl
      | .ready [], hRound =>
          cases hRound
          rfl
      | .ready (byte :: data), hRound =>
          simp only at hRound
          split at hRound
          · cases hRound
            rfl
          · split at hRound
            · cases hRound
            · cases hRound

end ChunkedDecoder

end RustyIce

------------------------------------------------------------
-- Final Errors
------------------------------------------------------------

namespace RustyIce

namespace PollRun

variable {s t : PollRun}
variable {label : PollLabel}

/- After an error that is recorded a step changes nothing. -/
theorem errored_step
    (hErrored : s.decoder.state = .errored)
    (hStep : s.step label = some t) :
    t.decoder = s.decoder := by
  have hAdvance :
      ∀ room,
        s.decoder.advance room = .finish s.decoder (.ok []) := by
    intro room
    rw [ChunkedDecoder.advance, hErrored]
  unfold step at hStep
  split at hStep
  · cases hStep
    rfl
  · rw [hAdvance] at hStep
    cases hStep
  · unfold round at hStep
    split at hStep
    · rw [hAdvance] at hStep
      cases hStep
      rfl
    · rw [hAdvance] at hStep
      cases hStep
    · cases hStep

theorem quiet_of_errored
    (hErrored : s.decoder.state = .errored) :
    s.Quiet := by
  intro labels t hRun room hCall
  induction labels generalizing s with
  | nil =>
      cases hRun
      rw [ChunkedDecoder.advance, hErrored]
  | cons label labels ih =>
      rw [Library.Machine.run] at hRun
      split at hRun
      · cases hRun
      · rename_i next hStep
        apply ih _ hRun
        rw [errored_step hErrored hStep]
        exact hErrored

/- In the middle of a line a call reads the inner reader. -/
theorem not_quiet_of_read
    (hCall : s.call = none)
    (hRead : s.decoder.advance 1 = .read 1) :
    ¬ s.Quiet := by
  intro hQuiet
  have hRun :
      pollMachine.run s [.poll 1] =
        some { s with call := some 1 } := by
    simp [Library.Machine.run, pollMachine, step, hCall]
  have hFinal := hQuiet _ _ hRun 1 rfl
  rw [hRead] at hFinal
  cases hFinal

/- In the lines the room of the caller plays no part. -/
theorem advance_line
    {decoder : ChunkedDecoder}
    (hLine :
      decoder.state = .nextSize ∨ decoder.state = .trailers)
    {room capacity : Nat}
    (hRead : decoder.advance room = .read capacity) :
    decoder.advance 1 = .read 1 := by
  have hFill :
      ∀ maxBytes found,
        (∀ line rest, ∀ n,
          found line rest ≠ Round.read n) →
        decoder.fillLine maxBytes found = .read capacity →
          decoder.fillLine maxBytes found = .read 1 := by
    intro maxBytes found hFound hRound
    unfold ChunkedDecoder.fillLine at hRound ⊢
    split at hRound
    · exact absurd hRound (hFound _ _ _)
    · split at hRound
      · cases hRound
      · rename_i hRoom
        rw [if_neg hRoom]
  rcases hLine with hState | hState
  · simp only [ChunkedDecoder.advance, hState] at hRead ⊢
    apply hFill _ _ _ hRead
    intro line rest n
    unfold ChunkedDecoder.onSizeLine
    split
    · exact Round.noConfusion
    · split
      · exact Round.noConfusion
      · exact Round.noConfusion
  · simp only [ChunkedDecoder.advance, hState] at hRead ⊢
    apply hFill _ _ _ hRead
    intro line rest n
    unfold ChunkedDecoder.onTrailerLine
    split
    · exact Round.noConfusion
    · exact Round.noConfusion

/-
  The state an error is returned in: either it is recorded,
  or the decoder is as it was, in the middle of a line.
-/
theorem after_error
    (hError : s.ReturnsError label)
    (hStep : s.step label = some t) :
    t.call = none ∧ t.erred = true ∧
      (¬ s.LineReadFails label ∧ t.decoder.state = .errored ∨
        s.LineReadFails label ∧
          t.decoder.advance 1 = .read 1) := by
  rcases hError with ⟨decoder, e, hRound⟩
  have hAfter :
      t = { decoder := decoder, call := none, erred := true } := by
    have hNext : s.step label = (s.round label).bind s.after := by
      unfold step
      split
      · simp [round] at hRound
      · simp [round] at hRound
      · rfl
    rw [hNext, hRound] at hStep
    cases hStep
    rfl
  subst hAfter
  refine ⟨rfl, rfl, ?_⟩
  unfold round at hRound
  split at hRound
  · rename_i room hCall
    refine .inl ⟨fun h => h.2, ?_⟩
    exact
      ChunkedDecoder.errored_of_advance
        (Option.some.inj hRound)
  · rename_i room read hCall
    split at hRound
    · rename_i capacity hRead
      split at hRound
      · have hReceive :=
          ChunkedDecoder.error_of_receive
            (Option.some.inj hRound)
        split at hReceive
        · rename_i hLine
          refine .inr ⟨⟨hLine, ?_⟩, ?_⟩
          · cases read with
            | ready data => exact hReceive.2
            | failed error => trivial
          · rw [hReceive.1]
            exact advance_line hLine hRead
        · rename_i hLine
          exact .inl ⟨fun h => hLine h.1, hReceive⟩
      · cases hRound
    · cases hRound
  · cases hRound

/- A step that returns no error keeps what is recorded. -/
theorem erred_step
    (hNone : ¬ s.ReturnsError label)
    (hStep : s.step label = some t) :
    t.erred = s.erred := by
  unfold step at hStep
  split at hStep
  · cases hStep
    rfl
  · split at hStep
    · cases hStep
      rfl
    · cases hStep
  · rcases Option.bind_eq_some_iff.mp hStep with
      ⟨round, hRound, hAfter⟩
    unfold after at hAfter
    split at hAfter
    · cases hAfter
    · cases hAfter
      rfl
    · exact absurd ⟨_, _, hRound⟩ hNone
    · cases hAfter
      rfl

/-
  Where no line read fails, an error leaves the decoder in
  the state that records it, for good.
-/
theorem errored_of_reachable
    (hReach :
      pollMachine.ReachableUnder
        (fun s label => ¬ s.LineReadFails label) s)
    (hErred : s.erred = true) :
    s.decoder.state = .errored := by
  induction hReach with
  | start hInit =>
      rcases hInit with ⟨decoder, rfl⟩
      cases hErred
  | step hReach hReads hStep ih =>
      rename_i s t label
      by_cases hError : s.ReturnsError label
      · rcases (after_error hError hStep).2.2 with
          ⟨-, hErrored⟩ | ⟨hFails, -⟩
        · exact hErrored
        · exact absurd hFails hReads
      · rw [erred_step hError hStep] at hErred
        have hErrored := ih hErred
        rw [errored_step hErrored hStep]
        exact hErrored

end PollRun

/-
  An error is final exactly where it is not the failure or
  the end of the inner reader in a size line or a trailer
  line; in a run with none of these every error is.
-/
theorem errorsFinal_iff (s : PollRun) :
    (∀ label,
        s.ReturnsError label →
          (s.ErrorIsFinal label ↔ ¬ s.LineReadFails label)) ∧
      (pollMachine.ReachableUnder
            (fun s label => ¬ s.LineReadFails label) s →
          s.erred = true → s.Quiet) := by
  constructor
  · intro label hError
    have hSome : ∃ t, s.step label = some t := by
      rcases hError with ⟨decoder, e, hRound⟩
      refine
        ⟨{ decoder := decoder, call := none, erred := true },
          ?_⟩
      unfold PollRun.step
      split
      · simp [PollRun.round] at hRound
      · simp [PollRun.round] at hRound
      · rw [hRound]
        rfl
    constructor
    · intro hFinal hFails
      rcases hSome with ⟨t, hStep⟩
      rcases PollRun.after_error hError hStep with
        ⟨hCall, -, ⟨hNot, -⟩ | ⟨-, hRead⟩⟩
      · exact hNot hFails
      · exact
          PollRun.not_quiet_of_read hCall hRead
            (hFinal t hStep)
    · intro hReads t hStep
      rcases (PollRun.after_error hError hStep).2.2 with
        ⟨-, hErrored⟩ | ⟨hFails, -⟩
      · exact PollRun.quiet_of_errored hErrored
      · exact absurd hFails hReads
  · intro hReach hErred
    exact
      PollRun.quiet_of_errored
        (PollRun.errored_of_reachable hReach hErred)

/- A reset in front of the first size line. -/
def resetRead : InnerRead :=
  .failed { kind := .other, message := "connection reset" }

/- After the error the next call reads on. -/
theorem reset_not_final :
    ∃ t,
      pollMachine.run (.start .new)
          [.poll 8, .answer resetRead] = some t ∧
        t.erred = true ∧ ¬ t.Quiet := by
  refine ⟨_, rfl, rfl, ?_⟩
  exact PollRun.not_quiet_of_read rfl rfl

end RustyIce

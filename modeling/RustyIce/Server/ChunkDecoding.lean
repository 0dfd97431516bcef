import RustyIce.Server.ChunkedStream

/-
  What a decoder makes of a whole input: the bytes it hands
  out and how it ends. Every run hands out a beginning of
  that, whatever pieces the input arrives in, and a run that
  has stopped has handed out all of it.

  Main declarations:
    * `ChunkedDecoder.decode`
    * `decode_read`
    * `Undecoded`, `decode_encode`
-/

------------------------------------------------------------
-- A Whole Input
------------------------------------------------------------

namespace RustyIce

/- Bytes handed out before an outcome. -/
def prepend
    (out : Bytes)
    (result : Bytes × DecoderOutcome) :
    Bytes × DecoderOutcome :=
  (out ++ result.1, result.2)

@[simp] theorem prepend_nil
    (result : Bytes × DecoderOutcome) :
    prepend [] result = result := rfl

@[simp] theorem prepend_prepend
    (first second : Bytes)
    (result : Bytes × DecoderOutcome) :
    prepend first (prepend second result) =
      prepend (first ++ second) result := by
  simp only [prepend, List.append_assoc]

/-
  The bytes handed out and the outcome, with the input read
  byte by byte into a buffer of one byte.
-/
def ChunkedDecoder.decode
    (decoder : ChunkedDecoder)
    (rest : Bytes) : Bytes × DecoderOutcome :=
  match hAdvance : decoder.advance 1 with
  | .again next => next.decode rest
  | .finish _ (.error e) => ([], .failed e)
  | .finish _ (.ok _) => ([], .eof)
  | .read _ =>
      match rest with
      | [] =>
          match decoder.receive (.ready []) with
          | .finish _ (.error e) => ([], .failed e)
          | _ => ([], .eof)
      | byte :: rest =>
          match hReceive : decoder.receive (.ready [byte]) with
          | .again next => next.decode rest
          | .finish _ (.error e) => ([], .failed e)
          | .finish _ (.ok []) => ([], .eof)
          | .finish next (.ok (head :: tail)) =>
              prepend (head :: tail) (next.decode rest)
          | .read _ => ([], .eof)
termination_by 8 * rest.length + decoder.weight
decreasing_by
  · have hLight := decoder.lightens_advance 1
    rw [hAdvance] at hLight
    simp only [Round.Lightens] at hLight
    omega
  · have hConsumes := decoder.consumes_receive [byte]
    rw [hReceive] at hConsumes
    have hWeight := hConsumes.2
    simp only [List.length_cons]
    omega
  · have hConsumes := decoder.consumes_receive [byte]
    rw [hReceive] at hConsumes
    have hWeight := hConsumes.1
    simp only [List.length_cons]
    omega

namespace ChunkedDecoder

variable {decoder next : ChunkedDecoder}

theorem decode_again
    (hRound : decoder.advance 1 = .again next)
    (rest : Bytes) :
    decoder.decode rest = next.decode rest := by
  rw [decode.eq_def]
  split
  · rename_i other hOther
    cases hRound.symm.trans hOther
    rfl
  all_goals
    rename_i hOther
    cases hRound.symm.trans hOther

theorem decode_stop
    {data : Bytes}
    (hRound : decoder.advance 1 = .finish next (.ok data))
    (rest : Bytes) :
    decoder.decode rest = ([], .eof) := by
  rw [decode.eq_def]
  split
  all_goals
    rename_i hOther
    cases hRound.symm.trans hOther
  rfl

theorem decode_fail
    {e : IoError}
    (hRound : decoder.advance 1 = .finish next (.error e))
    (rest : Bytes) :
    decoder.decode rest = ([], .failed e) := by
  rw [decode.eq_def]
  split
  all_goals
    rename_i hOther
    cases hRound.symm.trans hOther
  rfl

/- What is left to decode after a round of a read. -/
def afterRound
    (rest : Bytes) : Round → Bytes × DecoderOutcome
| .again next => next.decode rest
| .finish _ (.error e) => ([], .failed e)
| .finish _ (.ok []) => ([], .eof)
| .finish next (.ok (head :: tail)) =>
    prepend (head :: tail) (next.decode rest)
| .read _ => ([], .eof)

theorem decode_byte
    {capacity : Nat}
    (hRound : decoder.advance 1 = .read capacity)
    (byte : UInt8)
    (rest : Bytes) :
    decoder.decode (byte :: rest) =
      afterRound rest (decoder.receive (.ready [byte])) := by
  rw [decode.eq_def]
  split
  all_goals
    rename_i hOther
    cases hRound.symm.trans hOther
  split
  · rename_i hNil
    cases hNil
  · rename_i hCons
    cases hCons
    split
    all_goals
      rename_i hReceive
      rw [hReceive]
      rfl

/- At the end of its input a decoder is told so. -/
theorem decode_end
    {capacity : Nat}
    (hRound : decoder.advance 1 = .read capacity)
    {e : IoError}
    (hReceive :
      decoder.receive (.ready []) = .finish next (.error e)) :
    decoder.decode [] = ([], .failed e) := by
  rw [decode.eq_def]
  split
  all_goals
    rename_i hOther
    cases hRound.symm.trans hOther
  split
  · split
    · rename_i hOther
      cases hReceive.symm.trans hOther
      rfl
    · rename_i hNot
      exact absurd hReceive (hNot next e)
  · rename_i hNil
    cases hNil

/- A read that finds the end is an error. -/
theorem receive_end
    {room capacity : Nat}
    (hRound : decoder.advance room = .read capacity) :
    ∃ next e,
      decoder.receive (.ready []) = .finish next (.error e) := by
  unfold advance at hRound
  unfold receive
  cases hState : decoder.state with
  | done =>
      rw [hState] at hRound
      cases hRound
  | errored =>
      rw [hState] at hRound
      cases hRound
  | payload remaining => exact ⟨_, _, rfl⟩
  | afterPayload seen => exact ⟨_, _, rfl⟩
  | nextSize => exact ⟨_, _, rfl⟩
  | trailers => exact ⟨_, _, rfl⟩

/- The size of the buffer matters inside a payload only. -/
theorem advance_eq
    {room : Nat}
    (hState : ∀ remaining, decoder.state ≠ .payload remaining) :
    decoder.advance room = decoder.advance 1 := by
  unfold advance
  cases hNow : decoder.state with
  | payload remaining => exact absurd hNow (hState remaining)
  | done => rfl
  | errored => rfl
  | afterPayload seen => rfl
  | nextSize => rfl
  | trailers => rfl

/- A line is read byte by byte. -/
theorem capacity_of_fillLine
    {maxBytes capacity : Nat}
    {found : Bytes → ChunkedDecoder → Round}
    (hFound :
      ∀ line after, found line after ≠ .read capacity)
    (hRound : decoder.fillLine maxBytes found = .read capacity) :
    capacity = 1 := by
  unfold fillLine at hRound
  split at hRound
  · exact absurd hRound (hFound _ _)
  · split at hRound
    · cases hRound
    · cases hRound
      rfl

/- Outside a payload one byte is read at a time. -/
theorem capacity_eq_one
    {room capacity : Nat}
    (hState : ∀ remaining, decoder.state ≠ .payload remaining)
    (hRound : decoder.advance room = .read capacity) :
    capacity = 1 := by
  unfold advance at hRound
  cases hNow : decoder.state with
  | payload remaining => exact absurd hNow (hState remaining)
  | done =>
      rw [hNow] at hRound
      cases hRound
  | errored =>
      rw [hNow] at hRound
      cases hRound
  | afterPayload seen =>
      rw [hNow] at hRound
      cases hRound
      rfl
  | nextSize =>
      rw [hNow] at hRound
      apply capacity_of_fillLine _ hRound
      intro line after hRead
      unfold onSizeLine at hRead
      split at hRead
      · cases hRead
      · split at hRead <;> cases hRead
  | trailers =>
      rw [hNow] at hRound
      apply capacity_of_fillLine _ hRound
      intro line after hRead
      unfold onTrailerLine at hRead
      split at hRead <;> cases hRead

/- A piece of a payload is its bytes one after the other. -/
theorem decode_payload
    {data : Bytes}
    {remaining : Nat}
    (hLess : data.length ≤ remaining)
    (scratch rest : Bytes) :
    decode ⟨.payload remaining, scratch⟩ (data ++ rest) =
      prepend data
        (decode ⟨.payload (remaining - data.length), scratch⟩
          rest) := by
  induction data generalizing remaining with
  | nil => rfl
  | cons byte data ih =>
      rw [List.length_cons] at hLess
      have hRound :
          advance ⟨.payload remaining, scratch⟩ 1 =
            .read 1 := by
        have hSome : remaining ≠ 0 := by omega
        have hMin : min remaining 1 = 1 := by omega
        simp [advance, hSome, hMin]
      have hLeft :
          remaining - (byte :: data).length =
            remaining - 1 - data.length := by
        rw [List.length_cons]
        omega
      rw [List.cons_append, decode_byte hRound]
      change
        prepend [byte]
          (decode ⟨.payload (remaining - 1), scratch⟩
            (data ++ rest)) = _
      rw [ih (by omega), prepend_prepend, hLeft]
      rfl

theorem advance_payload
    {scratch : Bytes}
    {remaining room capacity : Nat}
    (hRound :
      advance ⟨.payload remaining, scratch⟩ room =
        .read capacity) :
    remaining ≠ 0 ∧ capacity ≤ remaining := by
  simp only [advance] at hRound
  split at hRound
  · cases hRound
  · rename_i hSome
    split at hRound
    · cases hRound
    · cases hRound
      exact ⟨hSome, Nat.min_le_left _ _⟩

/- Whether a round reads is no matter of the buffer. -/
theorem reads_one
    {room capacity : Nat}
    (hRound : decoder.advance room = .read capacity) :
    decoder.advance 1 = .read 1 := by
  rcases decoder with ⟨state, scratch⟩
  cases state with
  | payload remaining =>
      have hSome := (advance_payload hRound).1
      have hMin : min remaining 1 = 1 := by omega
      simp [advance, hSome, hMin]
  | done => cases hRound
  | errored => cases hRound
  | afterPayload seen => rfl
  | nextSize =>
      have hOne := capacity_eq_one (by simp) hRound
      rw [hOne] at hRound
      exact hRound
  | trailers =>
      have hOne := capacity_eq_one (by simp) hRound
      rw [hOne] at hRound
      exact hRound

theorem capacity_pos
    {room capacity : Nat}
    (hRoom : 0 < room)
    (hRound : decoder.advance room = .read capacity) :
    0 < capacity := by
  by_cases hState :
      ∃ remaining, decoder.state = .payload remaining
  · rcases hState with ⟨remaining, hState⟩
    simp only [advance, hState] at hRound
    split at hRound
    · cases hRound
    · split at hRound
      · cases hRound
      · cases hRound
        omega
  · have hOne :=
      capacity_eq_one
        (fun remaining hNow => hState ⟨remaining, hNow⟩) hRound
    omega

/-
  Whatever number of bytes a read gives, the rest is decoded
  to what it would have been.
-/
theorem decode_read
    {room capacity count : Nat}
    (hRound : decoder.advance room = .read capacity)
    (hCount : count ≤ capacity)
    {rest : Bytes}
    (hLess : count ≤ rest.length)
    (hZero : count = 0 → rest = []) :
    decoder.decode rest =
      afterRound (rest.drop count)
        (decoder.receive (.ready (rest.take count))) := by
  have hReads := reads_one hRound
  cases rest with
  | nil =>
      rcases receive_end hRound with ⟨next, e, hReceive⟩
      rw [decode_end hReads hReceive, List.take_nil, hReceive]
      rfl
  | cons byte rest =>
      have hSome : count ≠ 0 := fun hNone => by
        cases hZero hNone
      rcases Nat.exists_eq_succ_of_ne_zero hSome with
        ⟨more, rfl⟩
      by_cases hState :
          ∃ remaining, decoder.state = .payload remaining
      · rcases hState with ⟨remaining, hState⟩
        rcases decoder with ⟨state, scratch⟩
        cases hState
        have hData :
            (byte :: rest.take more).length ≤ remaining := by
          have hCapacity := (advance_payload hRound).2
          rw [List.length_cons, List.length_take]
          omega
        have hDecode :=
          decode_payload hData scratch (rest.drop more)
        rw [List.cons_append, List.take_append_drop] at hDecode
        exact hDecode
      · have hOne :=
          capacity_eq_one
            (fun remaining hNow => hState ⟨remaining, hNow⟩)
            hRound
        have hMore : more = 0 := by omega
        rw [hMore, decode_byte hReads]
        rfl

/- A round that reads nothing leaves the same to decode. -/
theorem decode_advance
    {room : Nat}
    (hRoom : 0 < room)
    (hRound : ∀ capacity, decoder.advance room ≠ .read capacity)
    (rest : Bytes) :
    decoder.decode rest =
      afterRound rest (decoder.advance room) := by
  have hSame : decoder.advance room = decoder.advance 1 := by
    by_cases hState :
        ∃ remaining, decoder.state = .payload remaining
    · rcases hState with ⟨remaining, hState⟩
      rcases decoder with ⟨state, scratch⟩
      cases hState
      have hZero : remaining = 0 := by
        by_contra hSome
        have hNot : room ≠ 0 := by omega
        refine hRound (min remaining room) ?_
        simp [advance, hSome, hNot]
      rw [hZero]
      rfl
    · exact
        advance_eq fun remaining hNow =>
          hState ⟨remaining, hNow⟩
  have hLight := decoder.lightens_advance 1
  rw [hSame] at hRound ⊢
  cases hNow : decoder.advance 1 with
  | read capacity => exact absurd hNow (hRound capacity)
  | again next =>
      rw [decode_again hNow]
      rfl
  | finish next result =>
      cases result with
      | error e =>
          rw [decode_fail hNow]
          rfl
      | ok data =>
          rw [hNow] at hLight
          rw [decode_stop hNow, hLight.2 data rfl]
          rfl

end ChunkedDecoder

end RustyIce

------------------------------------------------------------
-- Runs
------------------------------------------------------------

namespace RustyIce

open ChunkedDecoder

/- What a run has handed out, and what is left to decode. -/
def Undecoded (input : Bytes) (s : DecoderRun) : Prop :=
  match s.phase with
  | .between =>
      prepend s.yielded (s.decoder.decode s.rest) =
        new.decode input
  | .polling room =>
      0 < room ∧
        prepend s.yielded (s.decoder.decode s.rest) =
          new.decode input
  | .ended outcome => (s.yielded, outcome) = new.decode input

theorem undecoded_after
    {input : Bytes}
    {s t : DecoderRun}
    {room : Nat}
    (hPhase : s.phase = .polling room)
    (hRoom : 0 < room)
    {round : Round}
    (hLeft :
      prepend s.yielded (afterRound s.rest round) =
        new.decode input)
    (hAfter : s.after round = some t) :
    Undecoded input t := by
  cases round with
  | read capacity => cases hAfter
  | again next =>
      cases hAfter
      simp only [Undecoded, hPhase]
      exact ⟨hRoom, hLeft⟩
  | finish next result =>
      cases result with
      | error e =>
          cases hAfter
          simp only [Undecoded]
          rw [← hLeft]
          simp [afterRound, prepend]
      | ok data =>
          cases data with
          | nil =>
              cases hAfter
              simp only [Undecoded]
              rw [← hLeft]
              simp [afterRound, prepend]
          | cons byte data =>
              cases hAfter
              simp only [afterRound, prepend_prepend] at hLeft
              exact hLeft

theorem undecoded_step
    {input : Bytes}
    {s t : DecoderRun}
    {label : DecoderLabel}
    (hBefore : Undecoded input s)
    (hStep : s.step label = some t) :
    Undecoded input t := by
  cases label with
  | poll room =>
      simp only [DecoderRun.step] at hStep
      split at hStep
      · rename_i hReady
        cases hStep
        simp only [Undecoded, hReady.1] at hBefore ⊢
        exact ⟨hReady.2, hBefore⟩
      · cases hStep
  | advance =>
      simp only [DecoderRun.step] at hStep
      split at hStep
      · rename_i room hPhase
        simp only [Undecoded, hPhase] at hBefore
        have hRound (capacity : Nat) :
            s.decoder.advance room ≠ .read capacity := by
          intro hRead
          rw [hRead] at hStep
          cases hStep
        rw [decode_advance hBefore.1 hRound] at hBefore
        exact
          undecoded_after hPhase hBefore.1 hBefore.2 hStep
      · cases hStep
  | pending =>
      simp only [DecoderRun.step] at hStep
      split at hStep
      · rename_i room hPhase
        simp only [Undecoded, hPhase] at hBefore
        split at hStep
        · cases hStep
          exact hBefore.2
        · cases hStep
      · cases hStep
  | read count =>
      simp only [DecoderRun.step] at hStep
      split at hStep
      · rename_i room hPhase
        simp only [Undecoded, hPhase] at hBefore
        split at hStep
        · rename_i capacity hRound
          split at hStep
          · rename_i hCount
            rcases hCount with ⟨hCount, hLess, hZero⟩
            have hLeft := hBefore.2
            rw [decode_read hRound hCount hLess hZero] at hLeft
            exact
              undecoded_after
                (s := { s with rest := s.rest.drop count })
                hPhase hBefore.1 hLeft hStep
          · cases hStep
        · cases hStep
      · cases hStep

/- However the input arrives, it is decoded the same way. -/
theorem undecoded_of_reachable
    {input : Bytes}
    {s : DecoderRun}
    (hReach : (chunkedMachine input).Reachable s) :
    Undecoded input s := by
  apply hReach.invariant
  · rintro u rfl
    exact prepend_nil _
  · intro u label v hBefore _ hStep
    exact undecoded_step hBefore hStep

/- A reader that always gets on reaches the end. -/
theorem ended_of_getsOn
    {input : Bytes}
    (hGetsOn :
      ∀ s, (chunkedMachine input).Reachable s → GetsOn s) :
    ∃ s outcome,
      (chunkedMachine input).Reachable s ∧
        s.phase = .ended outcome := by
  have hStart :
      (chunkedMachine input).Reachable (.start input) :=
    .start rfl
  have hLeads :
      (chunkedMachine input).Leads (· ≠ .pending)
        (fun s => ∃ outcome, s.phase = .ended outcome)
        (.start input) := by
    apply
      Library.Machine.leads_of_rank
        (I := (chunkedMachine input).Reachable)
        DecoderRun.rank _ hStart
    intro s hReach hGoes
    rcases (hGetsOn s hReach).moves
        (fun outcome hNow => hGoes ⟨outcome, hNow⟩) with
      ⟨label, t, hLabel, hStep⟩
    exact
      ⟨label, t, hLabel, hStep,
        .step hReach trivial hStep,
        (hGetsOn s hReach).lowers label t hLabel hStep⟩
  rcases hLeads.reachable hStart with
    ⟨s, hReach, outcome, hEnded⟩
  exact ⟨s, outcome, hReach, hEnded⟩

/- Decoding undoes encoding. -/
theorem decode_encode
    (body : ChunkedBody)
    (extra : Bytes) :
    new.decode (body.encode ++ extra) =
      (body.payload, .eof) := by
  have hGetsOn
      (s : DecoderRun)
      (hReach :
        (chunkedMachine (body.encode ++ extra)).Reachable s) :
      GetsOn s :=
    (decodes_of_reachable hReach).getsOn
  rcases ended_of_getsOn hGetsOn with
    ⟨s, outcome, hReach, hEnded⟩
  have hUndecoded := undecoded_of_reachable hReach
  have hStops :=
    (decodes_of_reachable hReach).stops outcome hEnded
  simp only [Undecoded, hEnded] at hUndecoded
  rw [← hUndecoded, hStops.1, hStops.2.1]

/- A body cut short is what is there of it and an error. -/
theorem decode_cut
    {body : ChunkedBody}
    {received missing : Bytes}
    (hWhole : received ++ missing = body.encode)
    (hMissing : missing ≠ []) :
    ∃ e : IoError,
      e.kind = .unexpectedEof ∧
        new.decode received =
          (body.present received.length, .failed e) := by
  rcases ended_of_getsOn fun s hReach =>
      (failsAt_of_reachable hWhole hMissing hReach).getsOn with
    ⟨s, outcome, hReach, hEnded⟩
  have hUndecoded := undecoded_of_reachable hReach
  rcases (failsAt_of_reachable hWhole hMissing hReach).stops
      outcome hEnded with
    ⟨hPresent, e, hKind, rfl⟩
  simp only [Undecoded, hEnded] at hUndecoded
  refine ⟨e, hKind, ?_⟩
  rw [← hUndecoded, hPresent]

end RustyIce

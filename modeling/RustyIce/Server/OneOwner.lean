import RustyIce.Server.Ownership
import RustyIce.Server.Station

/-
  One owner per mount: in every run of a station at most one
  party is between its claim and its release, and only that
  party publishes.

  Main declarations:
    * `Station.Owns`, `OneOwner`
    * `MountSystem.owners`, `owners_of_step`
    * `one_owner`
-/

------------------------------------------------------------
-- Between Claim And Release
------------------------------------------------------------

namespace RustyIce

/-
  A party has won the exchange on `source_connected` and not
  yet stored `false` there. A relay that panicked on the way
  never does.
-/
def SourcePhase.Owns : SourcePhase → Prop
| .installing _ _ => True
| .streaming _ => True
| .dropping todo => .clearConnected ∈ todo
| _ => False

def PlayerPhase.Owns : PlayerPhase → Prop
| .installing _ => True
| .readCancel => True
| .playing _ _ => True
| .releasing todo _ => .clearConnected ∈ todo
| _ => False

def RelayPhase.Owns : RelayPhase → Prop
| .installing _ => True
| .readCancel => True
| .connecting _ => True
| .streaming _ => True
| .releasing todo _ => .clearConnected ∈ todo
| .panicked => True
| _ => False

def Task.Owns : Task → Prop
| .player _ phase => phase.Owns
| .relay phase => phase.Owns

def MountSystem.Owns
    (s : MountSystem) : Streamer → Prop
| .task => s.task.Owns
| .source i => ∃ h ∈ s.sources[i]?, h.phase.Owns

def Station.Owns
    (s : Station)
    (streamer : Streamer) : Prop :=
  s.system.Owns streamer

/-
  At most one party owns the slot, and a step that changes
  the bus is a packet published by an owner.
-/
structure OneOwner (s : Station) : Prop where
  unique :
    ∀ p q, s.Owns p → s.Owns q → p = q
  publishes :
    ∀ label t,
      s.step label = some t →
        t.bus = s.bus ∨
          ∃ streamer sequence data,
            label = .publish streamer sequence data ∧
              s.Owns streamer

end RustyIce

------------------------------------------------------------
-- Counting
------------------------------------------------------------

namespace RustyIce

/- The role of a request tells whether it owns the slot. -/
theorem SourcePhase.owns_iff (phase : SourcePhase) :
    phase.Owns ↔ phase.role = .holding := by
  cases phase with
  | dropping todo =>
      simp only [Owns, role]
      split
      · rename_i hMem
        exact iff_of_true hMem rfl
      · rename_i hNot
        split <;> exact iff_of_false hNot (by simp)
  | _ => simp [Owns, role]

theorem releaseRole_holds_iff
    (cancelled : Bool)
    (todo : List SlotOp) :
    (releaseRole cancelled todo).Holds ↔
      .clearConnected ∈ todo := by
  unfold releaseRole
  split
  · rename_i hMem
    refine iff_of_true ?_ hMem
    cases cancelled with
    | true => exact .inl rfl
    | false => exact .inr rfl
  · rename_i hNot
    refine iff_of_false ?_ hNot
    cases cancelled <;> simp [TaskRole.Holds]

theorem PlayerPhase.owns_iff (phase : PlayerPhase) :
    phase.Owns ↔ phase.role.Holds := by
  cases phase with
  | releasing todo outcome =>
      exact (releaseRole_holds_iff _ todo).symm
  | waiting wait =>
      cases wait <;>
        simp [Owns, role, WaitPhase.role, TaskRole.Holds]
  | passed outcome =>
      cases outcome <;> simp [Owns, role, TaskRole.Holds]
  | _ => simp [Owns, role, TaskRole.Holds]

theorem RelayPhase.owns_iff
    {phase : RelayPhase}
    (hAlive : phase ≠ .panicked) :
    phase.Owns ↔ phase.role.Holds := by
  cases phase with
  | releasing todo outcome =>
      exact (releaseRole_holds_iff _ todo).symm
  | waiting wait =>
      cases wait <;>
        simp [Owns, role, WaitPhase.role, TaskRole.Holds]
  | passed outcome =>
      cases outcome <;> simp [Owns, role, TaskRole.Holds]
  | panicked => exact absurd rfl hAlive
  | _ => simp [Owns, role, TaskRole.Holds]

instance (phase : PlayerPhase) : Decidable phase.Owns :=
  match phase with
  | .installing _ | .readCancel | .playing _ _ =>
      inferInstanceAs (Decidable True)
  | .releasing todo _ =>
      inferInstanceAs (Decidable (.clearConnected ∈ todo))
  | .top | .loadConnected | .waiting _ | .afterWait | .scan
  | .idle | .claim | .passed _ | .swapPending | .parkPoll
  | .parkAsleep | .returned =>
      inferInstanceAs (Decidable False)

instance (phase : RelayPhase) : Decidable phase.Owns :=
  match phase with
  | .installing _ | .readCancel | .connecting _
  | .streaming _ | .panicked => inferInstanceAs (Decidable True)
  | .releasing todo _ =>
      inferInstanceAs (Decidable (.clearConnected ∈ todo))
  | .top | .loadConnected | .loadKind | .waiting _
  | .afterWait | .claim | .passed _ | .backingOff
  | .swapPending | .parkPoll | .parkAsleep | .returned =>
      inferInstanceAs (Decidable False)

instance (task : Task) : Decidable task.Owns :=
  match task with
  | .player _ phase => inferInstanceAs (Decidable phase.Owns)
  | .relay phase => inferInstanceAs (Decidable phase.Owns)

/- What a task counts as an owner. -/
def Task.owned (task : Task) : Nat :=
  if task.Owns then 1 else 0

def MountSystem.owners
    (s : MountSystem) : Nat :=
  s.task.owned + holdingSources s.sources

theorem Task.owned_of_not_owns
    {task : Task}
    (hNot : ¬ task.Owns) :
    task.owned = 0 :=
  if_neg hNot

theorem Task.owned_of_owns
    {task : Task}
    (hOwns : task.Owns) :
    task.owned = 1 :=
  if_pos hOwns

theorem Task.owned_eq
    (task : Task)
    {role : TaskRole}
    (hOwns : task.Owns ↔ role.Holds) :
    task.owned = role.held := by
  by_cases hHolds : role.Holds
  · rw [TaskRole.held_eq_one hHolds,
      owned_of_owns (hOwns.mpr hHolds)]
  · rw [TaskRole.held_eq_zero hHolds,
      owned_of_not_owns fun h => hHolds (hOwns.mp h)]

theorem Task.owned_player
    (loopPlaylist : Bool)
    (phase : PlayerPhase) :
    (Task.player loopPlaylist phase).owned =
      phase.role.held :=
  owned_eq (.player loopPlaylist phase) phase.owns_iff

theorem Task.owned_relay
    {phase : RelayPhase}
    (hAlive : phase ≠ .panicked) :
    (Task.relay phase).owned = phase.role.held :=
  owned_eq (.relay phase) (RelayPhase.owns_iff hAlive)

/- A step of the relay's phase machine that panics. -/
theorem RelayPhase.readCancel_of_panicked
    {shutdown : Bool}
    {now : Nat}
    {event : RelayEvent}
    {s s' : Slot}
    {phase : RelayPhase}
    (hStep :
      phase.step shutdown now event s =
        some (.panicked, s')) :
    phase = .readCancel ∧ s' = s ∧
      s.mount.sourceCancel = none := by
  cases phase with
  | readCancel =>
      simp only [step] at hStep
      split at hStep
      · rename_i hNone
        cases hStep
        exact ⟨rfl, rfl, hNone⟩
      · cases hStep
  | streaming other =>
      simp only [step, streamStep] at hStep
      split at hStep
      · cases hStep
      · cases event <;> cases hStep
  | connecting other =>
      simp only [step, connectStep] at hStep
      split at hStep
      · cases hStep
      · cases event <;> cases hStep
  | waiting wait =>
      simp only [step] at hStep
      split at hStep <;> cases hStep
  | installing todo => cases todo <;> cases hStep
  | releasing todo outcome => cases todo <;> cases hStep
  | passed outcome =>
      cases outcome with
      | cancelled =>
          simp only [step] at hStep
          split at hStep <;> cases hStep
      | ok => cases hStep
      | failed => cases hStep
  | top | loadConnected | loadKind | afterWait | claim
  | backingOff | swapPending =>
      simp only [step] at hStep
      split at hStep <;> cases hStep
  | parkPoll | parkAsleep =>
      simp only [step] at hStep
      split at hStep
      · cases hStep
      · split at hStep <;> cases hStep
  | returned => cases hStep
  | panicked => cases hStep

/- A task's step keeps the owners within the flag. -/
theorem owned_of_relayStep
    {shutdown : Bool}
    {now : Nat}
    {event : RelayEvent}
    {s s' : Slot}
    {phase phase' : RelayPhase}
    (hProper : phase.Proper)
    (hStep :
      phase.step shutdown now event s = some (phase', s'))
    {others : Nat}
    (hOwned :
      (Task.relay phase).owned + others ≤
        s.gate.connected.toNat) :
    (Task.relay phase').owned + others ≤
      s'.gate.connected.toNat := by
  by_cases hPanicked : phase' = .panicked
  · subst hPanicked
    rcases RelayPhase.readCancel_of_panicked hStep with
      ⟨rfl, rfl, _⟩
    exact hOwned
  · have hAlive : phase ≠ .panicked := by
      rintro rfl
      cases hStep
    rw [Task.owned_relay hPanicked]
    rw [Task.owned_relay hAlive] at hOwned
    exact
      held_of_taskMove
        (RelayPhase.move_of_step hProper hStep) hOwned

theorem owned_of_playerStep
    {loopPlaylist shutdown : Bool}
    {now : Nat}
    {event : PlayerEvent}
    {s s' : Slot}
    {phase phase' : PlayerPhase}
    (hProper : phase.Proper)
    (hStep :
      phase.step loopPlaylist shutdown now event s =
        some (phase', s'))
    {others : Nat}
    (hOwned :
      (Task.player loopPlaylist phase).owned + others ≤
        s.gate.connected.toNat) :
    (Task.player loopPlaylist phase').owned + others ≤
      s'.gate.connected.toNat := by
  rw [Task.owned_player] at hOwned ⊢
  exact
    held_of_taskMove
      (PlayerPhase.move_of_step hProper hStep) hOwned

namespace MountSystem

variable {s t : MountSystem}

/- An event at the mount keeps the owners within the flag. -/
theorem owners_of_step
    {label : MountLabel}
    (hProper : s.Proper)
    (hStep : s.step label = some t)
    (hOwners : s.owners ≤ s.slot.gate.connected.toNat) :
    t.owners ≤ t.slot.gate.connected.toNat := by
  unfold owners at hOwners ⊢
  cases label with
  | player now event =>
      rcases player_step_ok hStep with
        ⟨loopPlaylist, phase, next, slot, hTask, hMove, rfl⟩
      have hTaskProper := hProper.task
      rw [hTask] at hTaskProper hOwners
      exact owned_of_playerStep hTaskProper hMove hOwners
  | relay now event =>
      rcases relay_step_ok hStep with
        ⟨phase, next, slot, hTask, hMove, rfl⟩
      have hTaskProper := hProper.task
      rw [hTask] at hTaskProper hOwners
      exact owned_of_relayStep hTaskProper hMove hOwners
  | arrive codec overlay authorised accepted =>
      cases hStep
      unfold holdingSources at hOwners ⊢
      rw [List.countP_append]
      simpa [Source.Holding, Source.role, SourcePhase.role]
        using hOwners
  | source i now expired =>
      rcases source_step_ok hStep with
        ⟨h, next, slot, hSome, hMove, rfl⟩
      have hSource :=
        hProper.sources h (List.mem_of_getElem? hSome)
      have hSet :=
        holdingSources_set hSome { h with phase := next }
      have hPart := held_le_holdingSources hSome
      have hHeld :
          h.role.held +
              (s.task.owned +
                (holdingSources s.sources -
                  h.role.held)) ≤
            s.slot.gate.connected.toNat := by
        omega
      have hAfter :=
        held_of_sourceMove
          (SourcePhase.move_of_step hSource hMove) hHeld
      have hRole :
          Source.role { h with phase := next } =
            next.role := rfl
      rw [hRole] at hSet
      simp only at hAfter ⊢
      omega
  | capture i headers =>
      rcases capture_step_ok hStep with ⟨_, _, _, _, rfl⟩
      rw [Slot.gate_storeHeader]
      exact hOwners
  | kick =>
      cases hStep
      rw [Slot.gate_kick]
      exact hOwners
  | cancelTask =>
      cases hStep
      exact hOwners

end MountSystem

end RustyIce

------------------------------------------------------------
-- The Invariant
------------------------------------------------------------

namespace RustyIce

/- At most one owner, who needs a connected slot. -/
structure Exclusive (s : MountSystem) : Prop where
  proper : s.Proper
  owners : s.owners ≤ s.slot.gate.connected.toNat

theorem Task.Fresh.not_owns
    {task : Task}
    (hFresh : task.Fresh) :
    ¬ task.Owns := by
  rcases hFresh.cases with ⟨loopPlaylist, rfl⟩ | rfl
  · exact id
  · exact id

theorem exclusive_step
    {s t : MountSystem}
    {label : MountLabel}
    (hExclusive : Exclusive s)
    (hStep : s.step label = some t) :
    Exclusive t where
  proper :=
    MountSystem.proper_of_move hExclusive.proper
      (MountSystem.move_of_step hExclusive.proper hStep)
  owners :=
    MountSystem.owners_of_step hExclusive.proper hStep
      hExclusive.owners

namespace Station

variable {s t : Station}

theorem exclusive_init
    (hInit : stationMachine.init s) :
    Exclusive s.system := by
  rcases hInit with ⟨_, hTask, hNone, _⟩
  have hIdle :
      ¬ s.system.task.Owns ∧ s.system.task.Proper := by
    rcases hTask with hFresh | hGone
    · exact ⟨hFresh.not_owns, hFresh.proper⟩
    · rw [hGone]
      exact ⟨id, trivial⟩
  constructor
  · refine ⟨hIdle.2, ?_⟩
    rw [hNone]
    intro h hMem
    cases hMem
  · unfold MountSystem.owners
    rw [Task.owned_of_not_owns hIdle.1, hNone]
    exact Nat.zero_le _

/- Reloads and listeners leave the slot alone. -/
theorem exclusive_of_step
    {label : StationLabel}
    (hExclusive : Exclusive s.system)
    (hStep : s.step label = some t) :
    Exclusive t.system := by
  cases label with
  | mount label =>
      exact
        exclusive_step hExclusive
          (system_of_mountStep hStep).1
  | respawn task format =>
      simp only [step] at hStep
      split at hStep
      · rename_i hReady
        cases hStep
        have hOwners := hExclusive.owners
        constructor
        · exact ⟨hReady.2.proper, hExclusive.proper.sources⟩
        · unfold MountSystem.owners at hOwners ⊢
          simp only
          rw [Task.owned_of_not_owns hReady.2.not_owns]
          omega
      · cases hStep
  | storeInfo sourcePassword maxListeners metadata =>
      simp only [step] at hStep
      split at hStep
      · cases hStep
      · cases hStep
        exact
          ⟨⟨hExclusive.proper.task, hExclusive.proper.sources⟩,
            hExclusive.owners⟩
  | build streamer =>
      simp only [step] at hStep
      split at hStep
      · cases hStep
      · cases hStep
        exact hExclusive
  | publish streamer sequence data =>
      simp only [step] at hStep
      split at hStep
      · cases hStep
      · cases hStep
        exact hExclusive
  | listener i =>
      simp only [step] at hStep
      split at hStep
      · cases hStep
      · split at hStep
        · cases hStep
        · cases hStep
          exact hExclusive
  | lag i | leave i | kickListener i =>
      simp only [step, changeListener] at hStep
      split at hStep
      · cases hStep
      · cases hStep
        exact hExclusive
  | readInfo | storeConfig | listen =>
      cases hStep
      exact hExclusive

theorem exclusive_of_reachable
    (hReach : stationMachine.Reachable s) :
    Exclusive s.system := by
  apply hReach.invariant
  · intro t
    exact exclusive_init
  · intro t label u hExclusive _
    exact exclusive_of_step hExclusive

end Station

end RustyIce

------------------------------------------------------------
-- One Owner
------------------------------------------------------------

namespace RustyIce

/- Two requests that own the slot are one. -/
theorem eq_of_holding
    {sources : List Source}
    (hCount : holdingSources sources ≤ 1)
    {i j : Nat}
    {h k : Source}
    (hSome : sources[i]? = some h)
    (hOther : sources[j]? = some k)
    (hHolding : h.Holding)
    (hToo : k.Holding) :
    i = j :=
  Library.eq_of_countP_le_one hCount hSome hOther
    (decide_eq_true hHolding) (decide_eq_true hToo)

/- Owners are those who are counted. -/
theorem Exclusive.unique
    {s : MountSystem}
    (hExclusive : Exclusive s)
    {p q : Streamer}
    (hOwns : s.Owns p)
    (hToo : s.Owns q) :
    p = q := by
  have hCount := hExclusive.owners
  have hFlag := Bool.toNat_le s.slot.gate.connected
  unfold MountSystem.owners at hCount
  have hAlone :
      ∀ i,
        s.Owns (.source i) → ¬ s.task.Owns := by
    rintro i ⟨h, hSome, hPhase⟩ hTask
    have hPos :=
      holdingSources_pos (List.mem_of_getElem? hSome)
        (h.phase.owns_iff.mp hPhase)
    rw [Task.owned_of_owns hTask] at hCount
    omega
  cases p with
  | task =>
      cases q with
      | task => rfl
      | source j => exact absurd hOwns (hAlone j hToo)
  | source i =>
      cases q with
      | task => exact absurd hToo (hAlone i hOwns)
      | source j =>
          rcases hOwns with ⟨h, hSome, hPhase⟩
          rcases hToo with ⟨k, hOther, hPhase'⟩
          have hSources :
              holdingSources s.sources ≤ 1 := by
            omega
          rw [eq_of_holding hSources hSome hOther
            (h.phase.owns_iff.mp hPhase)
            (k.phase.owns_iff.mp hPhase')]

variable {s t : Station}

/- A party that publishes streams. -/
theorem Station.owns_of_output
    {streamer : Streamer}
    {codec : CodecId}
    (hOutput : s.output streamer = some codec) :
    s.Owns streamer := by
  cases streamer with
  | task =>
      simp only [output] at hOutput
      unfold Owns MountSystem.Owns Task.Owns
      split at hOutput
      · rename_i hTask
        rw [hTask]
        trivial
      · rename_i hTask
        rw [hTask]
        trivial
      · cases hOutput
  | source i =>
      simp only [output] at hOutput
      split at hOutput
      · cases hOutput
      · rename_i h hSome
        split at hOutput
        · rename_i hPhase
          refine ⟨h, hSome, ?_⟩
          rw [hPhase]
          trivial
        · cases hOutput

/- Nothing else touches the bus. -/
theorem Station.publish_of_bus
    {label : StationLabel}
    (hStep : s.step label = some t) :
    t.bus = s.bus ∨
      ∃ streamer sequence data codec,
        label = .publish streamer sequence data ∧
          s.output streamer = some codec := by
  cases label with
  | mount label =>
      simp only [step, mountStep] at hStep
      split at hStep
      · cases hStep
      · cases hStep
        exact .inl rfl
  | respawn task format =>
      simp only [step] at hStep
      split at hStep
      · cases hStep
        exact .inl rfl
      · cases hStep
  | storeInfo | build =>
      simp only [step] at hStep
      split at hStep
      · cases hStep
      · cases hStep
        exact .inl rfl
  | publish streamer sequence data =>
      simp only [step] at hStep
      split at hStep
      · cases hStep
      · rename_i codec hOutput
        exact
          .inr
            ⟨streamer, sequence, data, codec, rfl, hOutput⟩
  | listener i =>
      simp only [step] at hStep
      split at hStep
      · cases hStep
      · split at hStep
        · cases hStep
        · cases hStep
          exact .inl rfl
  | lag i | leave i | kickListener i =>
      simp only [step, changeListener] at hStep
      split at hStep
      · cases hStep
      · cases hStep
        exact .inl rfl
  | readInfo | storeConfig | listen =>
      cases hStep
      exact .inl rfl

/-
  In every run at most one party is between its claim and
  its release, and nobody else publishes.
-/
theorem one_owner
    (hReach : stationMachine.Reachable s) :
    OneOwner s where
  unique := fun p q =>
    (Station.exclusive_of_reachable hReach).unique
  publishes := by
    intro label t hStep
    rcases Station.publish_of_bus hStep with
      hSame | ⟨streamer, sequence, data, codec, rfl, hOutput⟩
    · exact .inl hSame
    · exact
        .inr
          ⟨streamer, sequence, data, rfl,
            Station.owns_of_output hOutput⟩

/- The rotation that has just published. -/
theorem one_owner_oneListener :
    ∃ s,
      stationMachine.run (.idle rotationConfig) oneListener =
        some s ∧
        s.Owns .task ∧ OneOwner s :=
  ⟨_, rfl, trivial,
    one_owner
      (Library.Machine.reachable_of_run
        (Station.init_idle rotationConfig)
        (rfl :
          stationMachine.run (.idle rotationConfig)
              oneListener =
            some _))⟩

end RustyIce

import RustyIce.AutoDj.Rotation
import RustyIce.Output.HttpPassthrough
import RustyIce.Server.SessionContents

/-
  Whose title listeners see while a live source owns a mount
  with a rotation: in every run in which no live stream
  begins with a title left by a track, and no guard clears
  the name of the next source, the administrator's, or else
  the source's own, or else the mount's.

  Main declarations:
    * `Rotation.shown`, `TitleOwned`
    * `TitleOk`
    * `Titled`, `titled_step`
    * `title_owned`
-/

------------------------------------------------------------
-- The Property
------------------------------------------------------------

namespace RustyIce

namespace AutoDj

namespace Rotation

/- What `build_icy_frame` reads at this moment. -/
def shown (s : Rotation) : Output.Displayed where
  info := s.system.slot.mount.info
  currentTitle := s.system.slot.mount.currentTitle
  sourceOverlay := s.system.slot.mount.sourceOverlay

end Rotation

/-
  Every live source that has the slot is shown under the
  administrator's title, its own name, or the mount's, in
  this order.
-/
def TitleOwned (s : Rotation) : Prop :=
  ∀ i, ∀ h ∈ s.system.sources[i]?,
    (s.system.stage (.source i)).Installed →
      s.shown.title =
        (s.adminTitle <|> h.request.overlay.name <|>
          s.shown.info.metadata.name).getD ""

/- The request has stored a name in the overlay. -/
def Named (h : Source) : Prop :=
  ∃ todo ∈ h.phase.stage.todo,
    .storeOverlay h.request.overlay ∉ todo ∧
      h.request.overlay.name ≠ none

/-
  A live source does not make the last store of its claim
  while the title is a track's, and a guard that clears the
  overlay does not find the name of another source there.
-/
def SourceOk (s : Rotation) (h : Source) : Prop :=
  match h.phase with
  | .installing [_] _ => s.byTrack = false
  | .dropping (.clearOverlay :: _) =>
      ∀ k ∈ s.system.sources, ¬ Named k
  | _ => True

def TitleOk (s : Rotation) : RotationLabel → Prop
| .system (.source i _ _) =>
    ∀ h ∈ s.system.sources[i]?, SourceOk s h
| _ => True

instance (h : Source) : Decidable (Named h) := by
  unfold Named
  infer_instance

instance
    (s : Rotation)
    (h : Source) :
    Decidable (SourceOk s h) := by
  unfold SourceOk
  split <;> infer_instance

instance
    (s : Rotation)
    (label : RotationLabel) :
    Decidable (TitleOk s label) := by
  unfold TitleOk
  split <;> infer_instance

end AutoDj

end RustyIce

------------------------------------------------------------
-- Titles Through A Step
------------------------------------------------------------

namespace RustyIce

namespace Slot

variable (s : Slot)

@[simp] theorem currentTitle_exec
    (now : Nat)
    (op : SlotOp) :
    (op.exec now s).mount.currentTitle =
      s.mount.currentTitle := by
  cases op <;> rfl

@[simp] theorem currentTitle_storeHeader
    (headers : Option Bytes) :
    (s.storeHeader headers).mount.currentTitle =
      s.mount.currentTitle := by
  cases headers <;> rfl

@[simp] theorem currentTitle_kick :
    s.kick.mount.currentTitle = s.mount.currentTitle := by
  unfold kick
  split <;> rfl

@[simp] theorem overlay_storeHeader
    (headers : Option Bytes) :
    (s.storeHeader headers).mount.sourceOverlay =
      s.mount.sourceOverlay := by
  cases headers <;> rfl

end Slot

theorem WaitPhase.title_of_step
    {shutdown : Bool}
    {s s' : Slot}
    {phase : WaitPhase}
    {next : Option WaitPhase}
    (hStep : phase.step shutdown s = some (next, s')) :
    s'.mount.currentTitle = s.mount.currentTitle := by
  cases phase with
  | load =>
      simp only [step] at hStep
      split at hStep <;> cases hStep <;> rfl
  | poll =>
      simp only [step] at hStep
      split at hStep
      · cases hStep
        rfl
      · split at hStep <;> cases hStep <;> rfl
  | asleep =>
      simp only [step] at hStep
      split at hStep
      · cases hStep
        rfl
      · split at hStep
        · cases hStep
        · cases hStep
          rfl

theorem PlayerPhase.title_of_step
    {loopPlaylist shutdown : Bool}
    {now : Nat}
    {event : PlayerEvent}
    {s s' : Slot}
    {phase phase' : PlayerPhase}
    (hStep :
      phase.step loopPlaylist shutdown now event s =
        some (phase', s')) :
    s'.mount.currentTitle = s.mount.currentTitle := by
  cases phase with
  | waiting wait =>
      simp only [step] at hStep
      split at hStep
      · cases hStep
      · rename_i hWait
        cases hStep
        exact WaitPhase.title_of_step hWait
      · rename_i hWait
        cases hStep
        exact WaitPhase.title_of_step hWait
  | installing todo | releasing todo =>
      cases todo with
      | nil =>
          cases hStep
          rfl
      | cons op rest =>
          cases hStep
          exact s.currentTitle_exec now op
  | playing token combined =>
      simp only [step, playStep] at hStep
      split at hStep
      · split at hStep
        · cases hStep
          rfl
        · cases hStep
      · split at hStep
        · cases hStep
          rfl
        · cases hStep
          exact s.currentTitle_storeHeader _
      · cases hStep
        rfl
      · cases hStep
      · cases hStep
  | passed outcome =>
      cases outcome <;>
        simp only [step] at hStep <;>
        split at hStep <;>
        cases hStep <;>
        rfl
  | idle =>
      cases hStep
      rfl
  | returned => cases hStep
  | parkAsleep =>
      simp only [step] at hStep
      split at hStep
      · cases hStep
      · cases hStep
        rfl
  | _ =>
      simp only [step] at hStep
      split at hStep <;> cases hStep <;> rfl

theorem SourcePhase.title_of_step
    {req : SourceRequest}
    {env : SourceEnv}
    {s s' : Slot}
    {phase phase' : SourcePhase}
    (hStep : phase.step req env s = some (phase', s')) :
    s'.mount.currentTitle = s.mount.currentTitle := by
  cases phase with
  | installing todo | dropping todo =>
      cases todo with
      | nil =>
          cases hStep
          rfl
      | cons op rest =>
          cases hStep
          exact s.currentTitle_exec env.now op
  | setPending | cancelOwner | streaming =>
      cases hStep
      rfl
  | polling =>
      simp only [step] at hStep
      split at hStep
      · split at hStep <;> cases hStep <;> rfl
      · cases hStep
        rfl
  | rejected status => cases hStep
  | «over» => cases hStep
  | _ =>
      simp only [step] at hStep
      split at hStep <;> cases hStep <;> rfl

namespace MountSystem

variable {s t : MountSystem}

/- The mount's task is a player. -/
def Plays (s : MountSystem) : Prop :=
  ∃ loopPlaylist phase,
    s.task = .player loopPlaylist phase

/- No event at the mount touches the title. -/
theorem title_of_step
    (hPlays : s.Plays)
    {label : MountLabel}
    (hStep : s.step label = some t) :
    t.Plays ∧
      t.slot.mount.currentTitle =
        s.slot.mount.currentTitle := by
  obtain ⟨loopPlaylist, phase, hTask⟩ := hPlays
  cases label with
  | player now event =>
      simp only [step, hTask] at hStep
      split at hStep
      · cases hStep
      · rename_i next slot hMove
        cases hStep
        exact
          ⟨⟨loopPlaylist, next, rfl⟩,
            PlayerPhase.title_of_step hMove⟩
  | relay now event =>
      simp only [step, hTask] at hStep
      cases hStep
  | source i now expired =>
      rcases source_step_ok hStep with
        ⟨_, next, slot, _, hMove, rfl⟩
      exact
        ⟨⟨loopPlaylist, phase, hTask⟩,
          SourcePhase.title_of_step hMove⟩
  | capture i headers =>
      rcases capture_step_ok hStep with ⟨_, _, _, _, rfl⟩
      exact
        ⟨⟨loopPlaylist, phase, hTask⟩,
          s.slot.currentTitle_storeHeader _⟩
  | arrive | cancelTask =>
      cases hStep
      exact ⟨⟨loopPlaylist, phase, hTask⟩, rfl⟩
  | kick =>
      cases hStep
      exact
        ⟨⟨loopPlaylist, phase, hTask⟩,
          s.slot.currentTitle_kick⟩

/- A request that others do not move is as it was, or new. -/
theorem source_of_rival
    {label : MountLabel}
    {j : Nat}
    {h : Source}
    (hRival : label.party ≠ some (.source j))
    (hStep : s.step label = some t)
    (hSome : t.sources[j]? = some h) :
    s.sources[j]? = some h ∨ h.phase = .checkConnected := by
  cases label with
  | player now event =>
      rcases player_step_ok hStep with
        ⟨_, _, _, _, _, _, rfl⟩
      exact .inl hSome
  | relay now event =>
      rcases relay_step_ok hStep with ⟨_, _, _, _, _, rfl⟩
      exact .inl hSome
  | source i now expired =>
      rcases source_step_ok hStep with ⟨_, _, _, _, _, rfl⟩
      have hApart : i ≠ j := by
        rintro rfl
        exact hRival rfl
      rw [List.getElem?_set_ne hApart] at hSome
      exact .inl hSome
  | capture i headers =>
      rcases capture_step_ok hStep with ⟨_, _, _, _, rfl⟩
      exact .inl hSome
  | arrive codec overlay authorised accepted =>
      cases hStep
      rcases Nat.lt_or_ge j s.sources.length with
        hOld | hNew
      · rw [List.getElem?_append_left hOld] at hSome
        exact .inl hSome
      · rw [List.getElem?_append_right hNew,
          List.getElem?_singleton] at hSome
        split at hSome
        · cases hSome
          exact .inr rfl
        · cases hSome
  | kick | cancelTask =>
      cases hStep
      exact .inl hSome

/- A request's own event is a step of it, or a capture. -/
theorem source_of_own
    {label : MountLabel}
    {j : Nat}
    {h : Source}
    (hOwn : label.party = some (.source j))
    (hStep : s.step label = some t)
    (hSome : t.sources[j]? = some h) :
    (∃ now expired k,
      label = .source j now expired ∧
        s.sources[j]? = some k ∧
          h.request = k.request ∧
            k.phase.step k.request (k.env now expired)
                s.slot =
              some (h.phase, t.slot)) ∨
      (s.sources[j]? = some h ∧
        ∃ headers, t.slot = s.slot.storeHeader headers) := by
  cases label with
  | source i now expired =>
      cases hOwn
      rcases source_step_ok hStep with
        ⟨k, next, slot, hBefore, hMove, rfl⟩
      have hLess := (List.getElem?_eq_some_iff.mp hBefore).1
      rw [List.getElem?_set_self hLess] at hSome
      cases hSome
      exact
        .inl ⟨now, expired, k, rfl, hBefore, rfl, hMove⟩
  | capture i headers =>
      cases hOwn
      rcases capture_step_ok hStep with ⟨_, _, _, _, rfl⟩
      exact .inr ⟨hSome, some headers, rfl⟩
  | player | relay | arrive | kick | cancelTask => cases hOwn

end MountSystem

end RustyIce

------------------------------------------------------------
-- Overlays Through A Step
------------------------------------------------------------

namespace RustyIce

namespace SourcePhase

variable {req : SourceRequest}
variable {env : SourceEnv}
variable {s s' : Slot}
variable {phase phase' : SourcePhase}

/- An installation is done with its last store. -/
theorem installed_of_step
    (hStep : phase.step req env s = some (phase', s'))
    (hInstalled : phase'.stage.Installed) :
    phase.stage.Installed ∨
      ∃ op token, phase = .installing [op] token := by
  cases phase with
  | installing todo token =>
      cases todo with
      | nil => exact .inl rfl
      | cons op rest =>
          cases hStep
          cases hInstalled
          exact .inr ⟨op, token, rfl⟩
  | dropping todo =>
      cases todo <;> cases hStep <;> cases hInstalled
  | claim =>
      simp only [step] at hStep
      split at hStep <;> cases hStep <;> cases hInstalled
  | streaming | setPending | cancelOwner =>
      cases hStep
      cases hInstalled
  | polling =>
      simp only [step] at hStep
      split at hStep
      · split at hStep <;> cases hStep <;> cases hInstalled
      · cases hStep
        cases hInstalled
  | rejected status => cases hStep
  | «over» => cases hStep
  | _ =>
      simp only [step] at hStep
      split at hStep <;> cases hStep <;> cases hInstalled

/- What the overlay of a claim is once it is stored. -/
theorem overlay_of_step
    (hProper : phase.Proper req)
    (hStep : phase.step req env s = some (phase', s'))
    {todo' : List SlotOp}
    (hTodo : phase'.stage.todo = some todo')
    (hStored : .storeOverlay req.overlay ∉ todo') :
    s'.mount.sourceOverlay = some req.overlay ∨
      s'.mount.sourceOverlay = s.mount.sourceOverlay ∧
        ∃ todo,
          phase.stage.todo = some todo ∧
            .storeOverlay req.overlay ∉ todo := by
  cases phase with
  | installing todo token =>
      cases todo with
      | nil =>
          cases hStep
          exact .inr ⟨rfl, [], rfl, List.not_mem_nil⟩
      | cons op rest =>
          have hMem :
              op ∈ installSource token req.codec
                req.overlay :=
            hProper.subset List.mem_cons_self
          simp only [installSource, List.mem_cons,
            List.not_mem_nil, or_false] at hMem
          cases hStep
          cases hTodo
          rcases hMem with rfl | rfl | rfl | rfl
          case inr.inr.inr => exact .inl rfl
          all_goals
            refine .inr ⟨rfl, _, rfl, ?_⟩
            simpa using hStored
  | streaming | setPending | cancelOwner =>
      cases hStep
      cases hTodo
  | dropping todo =>
      cases todo <;> cases hStep <;> cases hTodo
  | claim =>
      simp only [step] at hStep
      split at hStep
      · cases hStep
        cases hTodo
      · cases hStep
        cases hTodo
        exact absurd (by simp [installSource]) hStored
  | polling =>
      simp only [step] at hStep
      split at hStep
      · split at hStep <;> cases hStep <;> cases hTodo
      · cases hStep
        cases hTodo
  | rejected status => cases hStep
  | «over» => cases hStep
  | _ =>
      simp only [step] at hStep
      split at hStep <;> cases hStep <;> cases hTodo

end SourcePhase

end RustyIce

------------------------------------------------------------
-- The Invariant
------------------------------------------------------------

namespace RustyIce

namespace AutoDj

/-
  The title is the administrator's unless a track's came
  after it, which is so for no live source that streams, and
  a name that a live source has stored is in the overlay.
-/
structure Titled (s : Rotation) : Prop where
  plays : s.system.Plays
  exclusive : Exclusive s.system
  title :
    s.byTrack = false →
      s.system.slot.mount.currentTitle = s.adminTitle
  streaming :
    ∀ (i : Nat) (h : Source),
      s.system.sources[i]? = some h →
        h.phase.stage.Installed → s.byTrack = false
  overlay :
    ∀ (i : Nat) (h : Source),
      s.system.sources[i]? = some h →
        ∀ todo,
          h.phase.stage.todo = some todo →
            .storeOverlay h.request.overlay ∉ todo →
              s.system.slot.mount.sourceOverlay.bind
                  (·.name) =
                h.request.overlay.name

variable {dj : AutoDjPlayer}
variable {s t : Rotation}

theorem titled_fresh
    {system : MountSystem}
    (hInit : mountMachine.init system)
    {loopPlaylist : Bool}
    (hTask : system.task = .player loopPlaylist .top) :
    Titled (.fresh system) := by
  have hProper := MountSystem.proper_init hInit
  rcases hInit with ⟨⟨info, bus, hMount⟩, _, _, hNone⟩
  have hSources :
      ∀ (i : Nat) (h : Source),
        (Rotation.fresh system).system.sources[i]? =
            some h →
          False := by
    intro i h hSome
    simp [Rotation.fresh, hNone] at hSome
  exact
    { plays := ⟨loopPlaylist, .top, hTask⟩
      exclusive :=
        { proper := hProper
          owners := by
            simp [Rotation.fresh, MountSystem.owners, hTask,
              hNone, Task.owned, Task.Owns, PlayerPhase.Owns,
              holdingSources] }
      title := by
        intro _
        simp [Rotation.fresh, hMount, ActiveMount.new]
      streaming := fun i h hSome =>
        (hSources i h hSome).elim
      overlay := fun i h hSome => (hSources i h hSome).elim }

/- Changes of the title alone, by the administrator. -/
theorem titled_storeReply
    (hTitled : Titled s)
    (reply : Admin.TitleReply) :
    Titled (s.storeReply reply) := by
  unfold Rotation.storeReply
  split
  · exact hTitled
  · exact
      { plays := hTitled.plays
        exclusive :=
          ⟨⟨hTitled.exclusive.proper.task,
              hTitled.exclusive.proper.sources⟩,
            hTitled.exclusive.owners⟩
        title := fun _ => rfl
        streaming := fun _ _ _ _ => rfl
        overlay := hTitled.overlay }

/- A track is titled while the player has the slot. -/
theorem titled_startTrack
    (hTitled : Titled s)
    (hStep : s.step dj .startTrack = some t) :
    Titled t := by
  simp only [Rotation.step] at hStep
  split at hStep
  · rename_i combined track rest hTask hPass
    cases hStep
    have hOwns : s.system.Owns .task := by
      unfold Task.playing at hTask
      unfold MountSystem.Owns
      split at hTask
      · rename_i hPlaying
        simp only [hPlaying]
        trivial
      · cases hTask
    refine
      { plays := hTitled.plays
        exclusive :=
          ⟨⟨hTitled.exclusive.proper.task,
              hTitled.exclusive.proper.sources⟩,
            hTitled.exclusive.owners⟩
        title := ?_
        streaming := ?_
        overlay := hTitled.overlay }
    · intro hByTrack
      cases hByTrack
    · intro i h hSome hInstalled
      have hStreams : s.system.Owns (.source i) := by
        apply MountSystem.owns_of_installed
        have hHere : s.system.sources[i]? = some h := hSome
        simpa [MountSystem.stage, hHere] using hInstalled
      cases hTitled.exclusive.unique hOwns hStreams
  · cases hStep

namespace Titled

variable {label : MountLabel}
variable {system : MountSystem}

/- A source that has stored its claim's overlay owns the slot. -/
theorem owns_of_stage
    {i : Nat}
    {h : Source}
    (hSome : s.system.sources[i]? = some h)
    {todo : List SlotOp}
    (hTodo : h.phase.stage.todo = some todo) :
    s.system.Owns (.source i) := by
  by_contra hNot
  have hAbsent : h.phase.stage = .absent := by
    apply SourcePhase.stage_of_not_owns
    intro hPhase
    exact hNot ⟨h, hSome, hPhase⟩
  rw [hAbsent] at hTodo
  cases hTodo

/- No live source streams with the title of a track. -/
theorem streaming_of_step
    (hTitled : Titled s)
    (hOk : TitleOk s (.system label))
    (hStep : s.system.step label = some system)
    {j : Nat}
    {h : Source}
    (hSome : system.sources[j]? = some h)
    (hInstalled : h.phase.stage.Installed) :
    s.byTrack = false := by
  by_cases hOwn : label.party = some (.source j)
  · rcases MountSystem.source_of_own hOwn hStep hSome with
      ⟨now, expired, k, rfl, hBefore, _, hMove⟩ |
        ⟨hBefore, _⟩
    · rcases
          SourcePhase.installed_of_step hMove hInstalled with
        hAlready | ⟨op, token, hLast⟩
      · exact hTitled.streaming j k hBefore hAlready
      · have hClean := hOk k hBefore
        simpa only [SourceOk, hLast] using hClean
    · exact hTitled.streaming j h hBefore hInstalled
  · rcases
        MountSystem.source_of_rival hOwn hStep hSome with
      hBefore | hNew
    · exact hTitled.streaming j h hBefore hInstalled
    · rw [hNew] at hInstalled
      cases hInstalled

/- The name a source stored is kept by others. -/
theorem overlay_of_rival
    (hTitled : Titled s)
    (hOk : TitleOk s (.system label))
    (hStep : s.system.step label = some system)
    {j : Nat}
    {h : Source}
    (hRival : label.party ≠ some (.source j))
    (hSome : s.system.sources[j]? = some h)
    {todo : List SlotOp}
    (hTodo : h.phase.stage.todo = some todo)
    (hStored : .storeOverlay h.request.overlay ∉ todo) :
    system.slot.mount.sourceOverlay.bind (·.name) =
      h.request.overlay.name := by
  have hBefore := hTitled.overlay j h hSome todo hTodo hStored
  rcases
      MountSystem.clear_of_rival hTitled.exclusive
        (owns_of_stage hSome hTodo) hRival hStep with
    ⟨hSession, _⟩ |
      ⟨i, now, expired, k, op, rest, rfl, hGuard, hPhase,
        _, hTail, hExec⟩
  · have hOverlay := congrArg Session.overlay hSession
    simp only [Slot.session] at hOverlay
    rw [hOverlay]
    exact hBefore
  · rw [hExec]
    cases op with
    | clearOverlay =>
        have hUnnamed := hOk k hGuard
        simp only [SourceOk, hPhase] at hUnnamed
        have hNone : h.request.overlay.name = none := by
          by_contra hName
          exact
            hUnnamed h (List.mem_of_getElem? hSome)
              ⟨todo, hTodo, hStored, hName⟩
        rw [hNone]
        rfl
    | clearCancel | clearConnectedAt | clearHeader
    | notifyResume | removeMount => exact hBefore
    | _ => exact hTail.elim

theorem overlay_of_systemStep
    (hTitled : Titled s)
    (hOk : TitleOk s (.system label))
    (hStep : s.system.step label = some system)
    {j : Nat}
    {h : Source}
    (hSome : system.sources[j]? = some h)
    {todo : List SlotOp}
    (hTodo : h.phase.stage.todo = some todo)
    (hStored : .storeOverlay h.request.overlay ∉ todo) :
    system.slot.mount.sourceOverlay.bind (·.name) =
      h.request.overlay.name := by
  by_cases hOwn : label.party = some (.source j)
  · rcases MountSystem.source_of_own hOwn hStep hSome with
      ⟨now, expired, k, rfl, hBefore, hRequest, hMove⟩ |
        ⟨hBefore, headers, hSlot⟩
    · have hProper :=
        hTitled.exclusive.proper.sources k
          (List.mem_of_getElem? hBefore)
      rw [hRequest] at hStored ⊢
      rcases
          SourcePhase.overlay_of_step hProper hMove hTodo
            hStored with
        hNow | ⟨hSame, before, hThere, hNot⟩
      · rw [hNow]
        rfl
      · rw [hSame]
        exact
          hTitled.overlay j k hBefore before hThere hNot
    · rw [hSlot, Slot.overlay_storeHeader]
      exact hTitled.overlay j h hBefore todo hTodo hStored
  · rcases
        MountSystem.source_of_rival hOwn hStep hSome with
      hBefore | hNew
    · exact
        overlay_of_rival hTitled hOk hStep hOwn hBefore hTodo
          hStored
    · rw [hNew] at hTodo
      cases hTodo

end Titled

/- Events at the mount keep the invariant. -/
theorem titled_afterSystem
    (hTitled : Titled s)
    {label : MountLabel}
    {system : MountSystem}
    (hOk : TitleOk s (.system label))
    (hStep : s.system.step label = some system) :
    Titled (s.afterSystem system) := by
  obtain ⟨hPlays, hSame⟩ :=
    MountSystem.title_of_step hTitled.plays hStep
  exact
    { plays := hPlays
      exclusive := exclusive_step hTitled.exclusive hStep
      title := fun hByTrack =>
        hSame.trans (hTitled.title hByTrack)
      streaming := fun _ _ hSome hInstalled =>
        hTitled.streaming_of_step hOk hStep hSome hInstalled
      overlay := fun _ _ hSome _ hTodo hStored =>
        hTitled.overlay_of_systemStep hOk hStep hSome hTodo
          hStored }

theorem titled_step
    (hTitled : Titled s)
    {label : RotationLabel}
    (hOk : TitleOk s label)
    (hStep : s.step dj label = some t) :
    Titled t := by
  cases label with
  | system label =>
      simp only [Rotation.step] at hStep
      split at hStep
      · rcases Option.map_eq_some_iff.mp hStep with
          ⟨system, hMove, rfl⟩
        exact titled_afterSystem hTitled hOk hMove
      · cases hStep
  | startTrack => exact titled_startTrack hTitled hStep
  | setTitle title | clearTitle =>
      cases hStep
      exact titled_storeReply hTitled _
  | openPipeline tracks =>
      simp only [Rotation.step] at hStep
      split at hStep
      · split at hStep
        · cases hStep
          exact { hTitled with }
        · cases hStep
      · cases hStep
  | pickTrack | endTrack =>
      simp only [Rotation.step] at hStep
      split at hStep
      · cases hStep
        exact { hTitled with }
      · cases hStep

/- Whose title is shown while the invariant holds. -/
theorem Titled.titleOwned (hTitled : Titled s) :
    TitleOwned s := by
  intro i h hSome hInstalled
  rw [Option.mem_def] at hSome
  have hStage : h.phase.stage.Installed := by
    simpa only [MountSystem.stage, hSome] using hInstalled
  have hByTrack := hTitled.streaming i h hSome hStage
  have hName :=
    hTitled.overlay i h hSome [] hStage List.not_mem_nil
  simp only [Output.Displayed.title, Rotation.shown,
    hTitled.title hByTrack, hName]

/-
  In every run in which no live stream begins with a title
  left by a track, and no guard clears the name of another
  source, the titles shown are the owner's.
-/
theorem title_owned
    (dj : AutoDjPlayer)
    {s : Rotation}
    (hReach :
      (rotationMachine dj).ReachableUnder TitleOk s) :
    TitleOwned s := by
  have hTitled : Titled s := by
    apply hReach.invariant
    · rintro u ⟨system, hInit, ⟨loopPlaylist, hTask⟩, rfl⟩
      exact titled_fresh hInit hTask
    · intro u label v hBefore hOk hStep
      exact titled_step hBefore hOk hStep
  exact hTitled.titleOwned

/- A folder of tagged files. -/
def taggedTracks : AutoDjPlayer :=
  { twoTracks with
    readTag := fun _ => some ⟨some "Song", none⟩ }

/- A live source with a name arrives. -/
def namedSource : RotationLabel :=
  .system
    (.arrive .MP3
      { name := some "Live"
        description := none
        genre := none
        url := none
        isPublic := none
        audioInfo := none
        bitrateKbps := none }
      true true)

/- It preempts the player and makes the stores of its claim. -/
def preempted : List RotationLabel :=
  namedSource ::
      List.replicate 5 (.system (.source 0 0 false)) ++
    [.system (.player 0 .bridge),
        .system (.player 0 (.chunk none))] ++
      List.replicate 6 (.system (.player 0 .go)) ++
        List.replicate 8 (.system (.source 0 0 false))

/- The title of the interrupted track stays. -/
theorem preempted_not_titleOwned :
    ∃ t,
      (rotationMachine taggedTracks).run idlePlayer
          (firstTrack ++ preempted) =
        some t ∧
        (rotationMachine taggedTracks).Reachable t ∧
          ¬ TitleOwned t := by
  refine ⟨_, rfl, ?_, ?_⟩
  · exact
      Library.Machine.reachable_of_run
        (init_idlePlayer taggedTracks)
        (rfl :
          (rotationMachine taggedTracks).run idlePlayer
              (firstTrack ++ preempted) =
            some _)
  · intro hOwned
    exact absurd (hOwned 0 _ rfl rfl) (by decide)

/- Titled by the administrator, it is shown as he says. -/
theorem titleOwned_preempted :
    ∃ t,
      (rotationMachine taggedTracks).run idlePlayer
          (firstTrack ++ .setTitle "News" :: preempted) =
        some t ∧
        TitleOwned t := by
  refine ⟨_, rfl, title_owned taggedTracks ?_⟩
  exact
    Library.Machine.reachableUnder_of_runUnder
      (init_idlePlayer taggedTracks)
      (rfl :
        (rotationMachine taggedTracks).runUnder TitleOk
            idlePlayer
            (firstTrack ++ .setTitle "News" :: preempted) =
          some _)

end AutoDj

end RustyIce

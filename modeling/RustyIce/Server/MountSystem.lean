import RustyIce.Library.Machine
import RustyIce.AutoDj.Player
import RustyIce.Server.Relay
import RustyIce.Server.SourceHandler

/-
  One mount with its background task, any number of source
  requests, kicks by an administrator, and the cancellation
  of the task by a reload.

  The password and the codec check of a request have a fixed
  outcome here; requests find the mount registered.

  Main declarations:
    * `Task`, `Source`, `MountSystem`
    * `mountMachine`
    * `MountMove`, `MountSystem.move_of_step`
    * `MountSystem.Proper`
-/

------------------------------------------------------------
-- Parties
------------------------------------------------------------

namespace RustyIce

/- The background task of a mount. -/
inductive Task where
| player (loopPlaylist : Bool) (phase : PlayerPhase)
| relay (phase : RelayPhase)
deriving DecidableEq, Repr

namespace Task

def role : Task → TaskRole
| .player _ phase => phase.role
| .relay phase => phase.role

def Proper : Task → Prop
| .player _ phase => phase.Proper
| .relay phase => phase.Proper

/- The task's handle resolves. -/
def Returned : Task → Prop
| .player _ phase => phase = .returned
| .relay phase => phase = .returned ∨ phase = .panicked

instance (task : Task) : Decidable task.Returned :=
  match task with
  | .player _ phase =>
      inferInstanceAs (Decidable (phase = .returned))
  | .relay phase =>
      inferInstanceAs
        (Decidable (phase = .returned ∨ phase = .panicked))

/- A task before its first step. -/
def Fresh : Task → Prop
| .player _ phase => phase = .top
| .relay phase => phase = .top

instance (task : Task) : Decidable task.Fresh :=
  match task with
  | .player _ phase =>
      inferInstanceAs (Decidable (phase = .top))
  | .relay phase => inferInstanceAs (Decidable (phase = .top))

end Task

/- A source request at the mount. -/
structure Source where
  request : SourceRequest
  authorised : Bool
  accepted : Bool
  phase : SourcePhase
deriving DecidableEq, Repr

namespace Source

def role (h : Source) : SourceRole :=
  h.phase.role

def Proper (h : Source) : Prop :=
  h.phase.Proper h.request

/- A request that passes the checks. -/
def Admissible (h : Source) : Prop :=
  h.authorised = true ∧ h.accepted = true

instance (h : Source) : Decidable h.Admissible := by
  unfold Admissible
  infer_instance

def env
    (h : Source)
    (now : Nat)
    (expired : Bool) : SourceEnv where
  now := now
  expired := expired
  authorised := h.authorised
  accepted := h.accepted

end Source

structure MountSystem where
  slot : Slot
  shutdown : Bool
  task : Task
  sources : List Source

/- Events at the mount. -/
inductive MountLabel where
| player (now : Nat) (event : PlayerEvent)
| relay (now : Nat) (event : RelayEvent)
| arrive
    (codec : CodecId)
    (overlay : SourceOverlay)
    (authorised accepted : Bool)
| source (i now : Nat) (expired : Bool)
| capture (i : Nat) (headers : Bytes)
| kick
| cancelTask
deriving DecidableEq, Repr

namespace MountSystem

def step
    (s : MountSystem) : MountLabel → Option MountSystem
| .player now event =>
    match s.task with
    | .relay _ => none
    | .player loopPlaylist phase =>
        match
            phase.step loopPlaylist s.shutdown now event
              s.slot with
        | none => none
        | some (next, slot) =>
            some
              { s with
                slot := slot
                task := .player loopPlaylist next }
| .relay now event =>
    match s.task with
    | .player _ _ => none
    | .relay phase =>
        match phase.step s.shutdown now event s.slot with
        | none => none
        | some (next, slot) =>
            some { s with slot := slot, task := .relay next }
| .arrive codec overlay authorised accepted =>
    some
      { s with
        sources :=
          s.sources ++
            [{ request :=
                { codec := codec
                  overlay := overlay
                  dynamic := false }
               authorised := authorised
               accepted := accepted
               phase := .checkConnected }] }
| .source i now expired =>
    match s.sources[i]? with
    | none => none
    | some h =>
        match
            h.phase.step h.request (h.env now expired)
              s.slot with
        | none => none
        | some (next, slot) =>
            some
              { s with
                slot := slot
                sources :=
                  s.sources.set i { h with phase := next } }
| .capture i headers =>
    match s.sources[i]? with
    | none => none
    | some h =>
        match h.phase with
        | .streaming _ =>
            some
              { s with
                slot := s.slot.storeHeader (some headers) }
        | _ => none
| .kick => some { s with slot := s.slot.kick }
| .cancelTask => some { s with shutdown := true }

end MountSystem

/- An untouched mount, a fresh task and no request. -/
def mountMachine :
    Library.Machine MountSystem MountLabel where
  init := fun s =>
    (∃ info bus, s.slot.mount = ActiveMount.new info bus) ∧
      s.shutdown = false ∧ s.task.Fresh ∧ s.sources = []
  step := MountSystem.step

namespace MountSystem

/- A mount nobody has used, with a task. -/
def idle (task : Task) : MountSystem where
  slot :=
    { mount :=
        .new
          { path := "/radio"
            codec := .MP3
            sourcePassword := ""
            maxListeners := none
            metadata := .default }
          { capacity := 64, burstBytes := 65536 }
      cancelled := fun _ => false
      nextToken := 0 }
  shutdown := false
  task := task
  sources := []

theorem init_idle
    (task : Task)
    (hFresh : task.Fresh) :
    mountMachine.init (idle task) :=
  ⟨⟨_, _, rfl⟩, rfl, hFresh, rfl⟩

end MountSystem

/- A rotation that has begun to play. -/
def playing : List MountLabel :=
  List.replicate 2 (.player 0 .go) ++
    .player 0 (.scanned .tracks) ::
      List.replicate 6 (.player 0 .go)

/- An upload with a right or a wrong password arrives. -/
def anySource (authorised : Bool) : MountLabel :=
  .arrive .MP3
    { name := none
      description := none
      genre := none
      url := none
      isPublic := none
      audioInfo := none
      bitrateKbps := none }
    authorised true

def sourceSteps (count : Nat) : List MountLabel :=
  List.replicate count (.source 0 0 false)

end RustyIce

------------------------------------------------------------
-- One Step
------------------------------------------------------------

/-
  What a step of each party is, guards included; the proofs
  about steps go through these.
-/

namespace RustyIce

namespace MountSystem

variable {s t : MountSystem}

theorem player_step_ok
    {now : Nat}
    {event : PlayerEvent}
    (hStep : s.step (.player now event) = some t) :
    ∃ loopPlaylist phase next slot,
      s.task = .player loopPlaylist phase ∧
        phase.step loopPlaylist s.shutdown now event s.slot =
          some (next, slot) ∧
          t =
            { s with
              slot := slot
              task := .player loopPlaylist next } := by
  simp only [step] at hStep
  split at hStep
  · cases hStep
  · rename_i loopPlaylist phase hTask
    split at hStep
    · cases hStep
    · rename_i next slot hMove
      cases hStep
      exact
        ⟨loopPlaylist, phase, next, slot, hTask, hMove, rfl⟩

theorem relay_step_ok
    {now : Nat}
    {event : RelayEvent}
    (hStep : s.step (.relay now event) = some t) :
    ∃ phase next slot,
      s.task = .relay phase ∧
        phase.step s.shutdown now event s.slot =
          some (next, slot) ∧
          t = { s with slot := slot, task := .relay next } := by
  simp only [step] at hStep
  split at hStep
  · cases hStep
  · rename_i phase hTask
    split at hStep
    · cases hStep
    · rename_i next slot hMove
      cases hStep
      exact ⟨phase, next, slot, hTask, hMove, rfl⟩

theorem source_step_ok
    {i now : Nat}
    {expired : Bool}
    (hStep : s.step (.source i now expired) = some t) :
    ∃ h next slot,
      s.sources[i]? = some h ∧
        h.phase.step h.request (h.env now expired) s.slot =
          some (next, slot) ∧
          t =
            { s with
              slot := slot
              sources :=
                s.sources.set i { h with phase := next } } := by
  simp only [step] at hStep
  split at hStep
  · cases hStep
  · rename_i h hSome
    split at hStep
    · cases hStep
    · rename_i next slot hMove
      cases hStep
      exact ⟨h, next, slot, hSome, hMove, rfl⟩

theorem capture_step_ok
    {i : Nat}
    {headers : Bytes}
    (hStep : s.step (.capture i headers) = some t) :
    ∃ h token,
      s.sources[i]? = some h ∧
        h.phase = .streaming token ∧
          t =
            { s with
              slot := s.slot.storeHeader (some headers) } := by
  simp only [step] at hStep
  split at hStep
  · cases hStep
  · rename_i h hSome
    split at hStep
    · rename_i token hPhase
      cases hStep
      exact ⟨h, token, hSome, hPhase, rfl⟩
    · cases hStep

end MountSystem

end RustyIce

------------------------------------------------------------
-- Moves
------------------------------------------------------------

namespace RustyIce

/- The event ends a pass by itself. -/
def MountLabel.ends : MountLabel → Bool
| .player _ event => event.ends
| .relay _ event => event.ends
| .arrive _ _ _ _ => false
| .source _ _ _ => false
| .capture _ _ => false
| .kick => false
| .cancelTask => false

/-
  What an event does to the gate, to the role of the task
  and to the requests.
-/
inductive MountMove
    (s : MountSystem) : MountLabel → MountSystem → Prop
| task {label : MountLabel} {t : MountSystem} :
    TaskMove label.ends s.slot.gate s.task.role t.slot.gate
        t.task.role →
      t.task.Proper →
        t.sources = s.sources →
          MountMove s label t
| arrive
    {label : MountLabel} {t : MountSystem} {h : Source} :
    h.phase = .checkConnected →
      t.sources = s.sources ++ [h] →
        t.slot = s.slot →
          t.task = s.task →
            MountMove s label t
| source
    {i now : Nat} {expired : Bool} {t : MountSystem}
    {h h' : Source} :
    s.sources[i]? = some h →
      h'.Proper →
        (h'.authorised = h.authorised ∧
            h'.accepted = h.accepted) →
          SourceMove (h.env now expired) h.phase s.slot.gate
              h.role t.slot.gate h'.role →
            t.sources = s.sources.set i h' →
              t.task = s.task →
                MountMove s (.source i now expired) t
| aside {label : MountLabel} {t : MountSystem} :
    t.slot.gate = s.slot.gate →
      t.task = s.task →
        t.sources = s.sources →
          MountMove s label t

namespace Task.Fresh

variable {task : Task}

theorem cases
    (hFresh : task.Fresh) :
    (∃ loopPlaylist, task = .player loopPlaylist .top) ∨
      task = .relay .top := by
  cases task with
  | player loopPlaylist phase =>
      exact .inl ⟨loopPlaylist, congrArg _ hFresh⟩
  | relay phase => exact .inr (congrArg _ hFresh)

theorem role_eq
    (hFresh : task.Fresh) :
    task.role = .free := by
  rcases hFresh.cases with ⟨loopPlaylist, rfl⟩ | rfl
  · rfl
  · rfl

theorem proper
    (hFresh : task.Fresh) :
    task.Proper := by
  rcases hFresh.cases with ⟨loopPlaylist, rfl⟩ | rfl
  · trivial
  · trivial

end Task.Fresh

namespace MountSystem

/- Every party is in the middle of its own list. -/
structure Proper (s : MountSystem) : Prop where
  task : s.task.Proper
  sources : ∀ h ∈ s.sources, h.Proper

theorem proper_init
    {s : MountSystem}
    (hInit : mountMachine.init s) :
    s.Proper := by
  rcases hInit with ⟨_, _, hFresh, hNone⟩
  constructor
  · exact hFresh.proper
  · rw [hNone]
    intro h hMem
    cases hMem

/- Each event is one of these moves. -/
theorem move_of_step
    {s t : MountSystem}
    {label : MountLabel}
    (hProper : s.Proper)
    (hStep : s.step label = some t) :
    MountMove s label t := by
  cases label with
  | player now event =>
      rcases player_step_ok hStep with
        ⟨loopPlaylist, phase, next, slot, hTask, hMove, rfl⟩
      have hTaskProper := hProper.task
      rw [hTask] at hTaskProper
      refine .task ?_ ?_ rfl
      · rw [hTask]
        exact PlayerPhase.move_of_step hTaskProper hMove
      · exact
          PlayerPhase.proper_of_step hTaskProper hMove
  | relay now event =>
      rcases relay_step_ok hStep with
        ⟨phase, next, slot, hTask, hMove, rfl⟩
      have hTaskProper := hProper.task
      rw [hTask] at hTaskProper
      refine .task ?_ ?_ rfl
      · rw [hTask]
        exact RelayPhase.move_of_step hTaskProper hMove
      · exact RelayPhase.proper_of_step hTaskProper hMove
  | arrive codec overlay authorised accepted =>
      cases hStep
      exact .arrive rfl rfl rfl rfl
  | source i now expired =>
      rcases source_step_ok hStep with
        ⟨h, next, slot, hSome, hMove, rfl⟩
      have hMem := List.mem_of_getElem? hSome
      have hSource := hProper.sources h hMem
      have hNext :
          Source.Proper { h with phase := next } :=
        SourcePhase.proper_of_step hSource hMove
      have hGate :=
        SourcePhase.move_of_step hSource hMove
      exact .source hSome hNext ⟨rfl, rfl⟩ hGate rfl rfl
  | capture i headers =>
      rcases capture_step_ok hStep with ⟨_, _, _, _, rfl⟩
      exact .aside (Slot.gate_storeHeader _ _) rfl rfl
  | kick =>
      cases hStep
      exact .aside (Slot.gate_kick _) rfl rfl
  | cancelTask =>
      cases hStep
      exact .aside rfl rfl rfl

theorem proper_of_move
    {s t : MountSystem}
    {label : MountLabel}
    (hProper : s.Proper)
    (hMove : MountMove s label t) :
    t.Proper := by
  cases hMove with
  | task hTask hTaskProper hSources =>
      exact
        { task := hTaskProper
          sources := hSources ▸ hProper.sources }
  | arrive hPhase hSources hSlot hTask =>
      refine
        { task := hTask ▸ hProper.task
          sources := ?_ }
      rw [hSources]
      intro h hMem
      rcases List.mem_append.mp hMem with hOld | hNew
      · exact hProper.sources h hOld
      · rw [List.mem_singleton] at hNew
        subst hNew
        unfold Source.Proper
        rw [hPhase]
        trivial
  | source hSome hSource hAttributes hGate hSources hTask =>
      refine
        { task := hTask ▸ hProper.task
          sources := ?_ }
      rw [hSources]
      intro k hMem
      rcases List.mem_or_eq_of_mem_set hMem with hOld | hNew
      · exact hProper.sources k hOld
      · rw [hNew]
        exact hSource
  | aside hGate hTask hSources =>
      exact
        { task := hTask ▸ hProper.task
          sources := hSources ▸ hProper.sources }

end MountSystem

end RustyIce

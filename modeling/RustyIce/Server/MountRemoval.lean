import RustyIce.Server.TaskRegistries

/-
  What a reload does to the source and the listeners of the
  paths it removes.

  Beside the server stand the owners of the source slots, the
  listener map, and the reload under way, one iteration at a
  time. A reload reaches an owner only through the task
  registries: it takes a task out, cancels it, and waits until
  the task has ended. It does not touch the map.

  What else a cancelled task does before it ends, such as
  waiting for a live source to leave, is left open; so is
  what sources and listeners do while the reload waits.

  Main declarations:
    * `BusyServer`, `busyMachine`
    * `BusyServer.Moved`, `moved_of_step`
    * `BusyServer.Staffed`, `BusyServer.Accounted`
    * `BusyServer.Disconnected`, `BusyServer.Clear`
    * `BusyServer.removal_disconnects_iff`
-/

------------------------------------------------------------
-- Sources And Listeners
------------------------------------------------------------

namespace RustyIce

open Library

/- A live source, or the task with this token. -/
inductive SlotHolder where
| live
| task (kind : TaskKind) (token : Token)
deriving DecidableEq, Repr

/- Who won a slot, and whether its source was cancelled. -/
structure SlotOwner where
  holder : SlotHolder
  cancelled : Bool
deriving DecidableEq, Repr

/- An entry of the listener map. -/
structure MapEntry where
  path : String
  cancelled : Bool
deriving DecidableEq, Repr

/- A task taken out of its registry, whose end is awaited. -/
structure Awaited where
  kind : TaskKind
  path : String
  entry : TaskEntry
deriving DecidableEq, Repr

/- A call of `apply_config`, and the iterations to come. -/
structure ReloadCall where
  new : Config
  todo : List ReloadStep
  waiting : Option Awaited
deriving DecidableEq, Repr

structure BusyServer where
  server : ServerState
  owners : MountId → Option SlotOwner
  listeners : Nat → Option MapEntry
  call : Option ReloadCall

/-
  A call begins, takes an iteration, goes on after the end of
  the task it waited for, and stores the configuration.
-/
inductive ReloadMove where
| apply (new : Config)
| iterate
| resume
| store
deriving DecidableEq, Repr

/-
  A live source wins a slot, a task wins the slot of its
  mount, an owner is kicked or preempted, or lets go.
-/
inductive OwnerMove where
| connect (id : MountId)
| claim (kind : TaskKind) (path : String)
| claimAwaited
| cancel (id : MountId) (holder : SlotHolder)
| release (id : MountId) (holder : SlotHolder)
deriving DecidableEq, Repr

/- The entries of the map are named with their paths. -/
inductive ListenerMove where
| register (i : Nat) (path : String)
| deregister (i : Nat) (path : String)
| kick (i : Nat) (path : String)
deriving DecidableEq, Repr

inductive BusyEvent where
| reload (move : ReloadMove)
| server (event : ServerEvent)
| source (move : OwnerMove)
| listener (move : ListenerMove)

end RustyIce

------------------------------------------------------------
-- A Reload Step By Step
------------------------------------------------------------

namespace RustyIce

open Library

/- The task an iteration stops before anything else. -/
def ReloadStep.stops
    (old new : Config) :
    ReloadStep → Option (TaskKind × String)
| .mount _ => none
| .unmount _ => none
| .stopAutodj ac =>
    if ac.mount ∈ new.autodjPaths then none
    else some (.autodj, ac.mount)
| .autodj ac =>
    if needsRespawn autodjSection old.autodjs ac then
      some (.autodj, ac.mount)
    else
      none
| .stopRelay rc =>
    if rc.mount ∈ new.relayPaths then none
    else some (.relay, rc.mount)
| .relay rc =>
    if needsRespawn relaySection old.relays rc then
      some (.relay, rc.mount)
    else
      none

/- It is waited for only if it is in the registry. -/
def ReloadStep.awaits
    (old new : Config)
    (s : ServerState)
    (step : ReloadStep) : Option Awaited :=
  match step.stops old new with
  | none => none
  | some (kind, path) =>
      match s.tasks kind path with
      | none => none
      | some entry => some ⟨kind, path, entry⟩

namespace BusyServer

def setOwner
    (s : BusyServer)
    (id : MountId)
    (owner : Option SlotOwner) : BusyServer :=
  { s with
    owners := fun i => if i = id then owner else s.owners i }

def setListener
    (s : BusyServer)
    (i : Nat)
    (entry : Option MapEntry) : BusyServer :=
  { s with
    listeners := fun j =>
      if j = i then entry else s.listeners j }

/- The awaited task is still the owner of its slot. -/
def holds
    (s : BusyServer)
    (task : Awaited) : Bool :=
  match s.owners task.entry.mount with
  | none => false
  | some owner =>
      owner.holder = .task task.kind task.entry.cancel

/- The first iteration to come is carried out. -/
def finishStep
    (s : BusyServer)
    (call : ReloadCall)
    (step : ReloadStep)
    (rest : List ReloadStep) : BusyServer :=
  { s with
    server := step.exec s.server.config call.new s.server
    call :=
      some { call with todo := rest, waiting := none } }

/- The first iteration to come waits for a task. -/
def await
    (s : BusyServer)
    (call : ReloadCall)
    (task : Awaited) : BusyServer :=
  { s with
    server := s.server.cancelTask task.kind task.path
    call := some { call with waiting := some task } }

/- Only one call runs at a time, for they take a lock. -/
def start
    (s : BusyServer)
    (new : Config) : Option BusyServer :=
  match s.call, new.validatePaths with
  | none, .ok _ =>
      some
        { s with
          server := { s.server with auth := .new new }
          call :=
            some
              { new := new
                todo := reloadSteps s.server.config new
                waiting := none } }
  | _, _ => none

def iterate
    (s : BusyServer)
    (call : ReloadCall) : Option BusyServer :=
  match call.waiting, call.todo with
  | none, step :: rest =>
      match step.awaits s.server.config call.new s.server with
      | some task => some (s.await call task)
      | none => some (s.finishStep call step rest)
  | _, _ => none

/-
  The handle of a task is done once the task has ended. What
  the iteration cancels is out of the registry by then.
-/
def resume
    (s : BusyServer)
    (call : ReloadCall) : Option BusyServer :=
  match call.waiting, call.todo with
  | some task, step :: rest =>
      if s.holds task then none
      else some (s.finishStep call step rest)
  | _, _ => none

def store
    (s : BusyServer)
    (call : ReloadCall) : Option BusyServer :=
  match call.todo with
  | [] =>
      some
        { s with
          server := { s.server with config := call.new }
          call := none }
  | _ :: _ => none

def reloadMove
    (s : BusyServer) : ReloadMove → Option BusyServer
| .apply new => s.start new
| .iterate => s.call.bind s.iterate
| .resume => s.call.bind s.resume
| .store => s.call.bind s.store

/- A slot is won only if it is free. -/
def claimSlot
    (s : BusyServer)
    (id : MountId)
    (holder : SlotHolder) : Option BusyServer :=
  match s.owners id with
  | some _ => none
  | none =>
      some
        (s.setOwner id
          (some { holder := holder, cancelled := false }))

def ownerMove
    (s : BusyServer) : OwnerMove → Option BusyServer
| .connect id => s.claimSlot id .live
| .claim kind path =>
    match s.server.tasks kind path with
    | none => none
    | some entry =>
        s.claimSlot entry.mount (.task kind entry.cancel)
| .claimAwaited =>
    match s.call.bind ReloadCall.waiting with
    | none => none
    | some task =>
        s.claimSlot task.entry.mount
          (.task task.kind task.entry.cancel)
| .cancel id holder =>
    match s.owners id with
    | none => none
    | some owner =>
        if owner.holder = holder then
          some
            (s.setOwner id
              (some { owner with cancelled := true }))
        else
          none
| .release id holder =>
    match s.owners id with
    | none => none
    | some owner =>
        if owner.holder = holder then
          some (s.setOwner id none)
        else
          none

def listenerMove
    (s : BusyServer) : ListenerMove → Option BusyServer
| .register i path =>
    match s.listeners i with
    | some _ => none
    | none =>
        some
          (s.setListener i
            (some { path := path, cancelled := false }))
| .deregister i path =>
    match s.listeners i with
    | none => none
    | some entry =>
        if entry.path = path then some (s.setListener i none)
        else none
| .kick i path =>
    match s.listeners i with
    | none => none
    | some entry =>
        if entry.path = path then
          some
            (s.setListener i
              (some { entry with cancelled := true }))
        else
          none

/- The reload is not one of the server's own events here. -/
def change
    (s : BusyServer)
    (event : ServerEvent) : Option BusyServer :=
  match event with
  | .apply _ => none
  | event =>
      match event.exec s.server with
      | none => none
      | some t => some { s with server := t }

def exec
    (s : BusyServer) : BusyEvent → Option BusyServer
| .reload move => s.reloadMove move
| .server event => s.change event
| .source move => s.ownerMove move
| .listener move => s.listenerMove move

/- A server just started has neither. -/
def bootstrap (cfg : Config) : BusyServer where
  server := RustyIce.bootstrap cfg
  owners := fun _ => none
  listeners := fun _ => none
  call := none

end BusyServer

def busyMachine : Machine BusyServer BusyEvent where
  init := fun s =>
    ∃ cfg : Config,
      cfg.validatePaths = .ok () ∧ s = .bootstrap cfg
  step := BusyServer.exec

end RustyIce

------------------------------------------------------------
-- Owners And Their Tasks
------------------------------------------------------------

namespace RustyIce

open Library ServerState

namespace BusyServer

/-
  A task that owns a slot is in a registry, on the mount of
  the slot, or is cancelled; and so is the awaited task.
-/
structure Staffed (s : BusyServer) : Prop where
  tidy : s.server.Tidy
  running :
    ∀ id kind token cancelled,
      s.owners id = some ⟨.task kind token, cancelled⟩ →
        (∃ path entry,
          s.server.tasks kind path = some entry ∧
            entry.cancel = token ∧ entry.mount = id) ∨
          s.server.cancelled token = true
  awaited :
    ∀ call, s.call = some call →
      ∀ task, call.waiting = some task →
        s.server.cancelled task.entry.cancel = true

/-
  The tasks are those the configuration lists. During a call
  they are those the new one lists and those the iterations
  to come will stop.
-/
def Accounted (s : BusyServer) : Prop :=
  match s.call with
  | none => s.server.TasksListed s.server.config
  | some call =>
      (∀ step ∈ call.todo,
        step ∈ reloadSteps s.server.config call.new) ∧
        ∀ kind path entry,
          s.server.tasks kind path = some entry →
            path ∈ call.new.taskPaths kind ∨
              ∃ step ∈ call.todo,
                step.unlists = some (kind, path)

variable {s t : BusyServer}

theorem Accounted.during
    {call : ReloadCall}
    (hAccounted : s.Accounted)
    (hCall : s.call = some call) :
    (∀ step ∈ call.todo,
      step ∈ reloadSteps s.server.config call.new) ∧
      ∀ kind path entry,
        s.server.tasks kind path = some entry →
          path ∈ call.new.taskPaths kind ∨
            ∃ step ∈ call.todo,
              step.unlists = some (kind, path) := by
  unfold Accounted at hAccounted
  rw [hCall] at hAccounted
  exact hAccounted

/- The server changes; the owners stay. -/
theorem Staffed.evolve
    {u : ServerState}
    {call : Option ReloadCall}
    (hStaffed : s.Staffed)
    (hEvolves : Evolves s.server u)
    (hAwaited :
      ∀ c, call = some c →
        ∀ task, c.waiting = some task →
          u.cancelled task.entry.cancel = true) :
    Staffed { s with server := u, call := call } where
  tidy := hEvolves.tidy hStaffed.tidy
  awaited := hAwaited
  running := by
    intro id kind token cancelled hOwner
    rcases hStaffed.running id kind token cancelled hOwner
      with ⟨path, entry, hEntry, rfl, hMount⟩ | hStopped
    · rcases hEvolves.retained.entries kind path entry hEntry
        with hThere | hStopped
      · exact .inl ⟨path, entry, hThere, rfl, hMount⟩
      · exact .inr hStopped
    · exact .inr (hEvolves.retained.stopped token hStopped)

/- Owners other than the one that is set are as before. -/
theorem setOwner_cases
    {id i : MountId}
    {owner : Option SlotOwner}
    {o : SlotOwner}
    (hOwner : (s.setOwner id owner).owners i = some o) :
    (i = id ∧ owner = some o) ∨
      (i ≠ id ∧ s.owners i = some o) := by
  simp only [setOwner] at hOwner
  split at hOwner
  · rename_i hHere
    exact .inl ⟨hHere, hOwner⟩
  · rename_i hOther
    exact .inr ⟨hOther, hOwner⟩

theorem Staffed.setOwner
    {id : MountId}
    {owner : Option SlotOwner}
    (hStaffed : s.Staffed)
    (hNew :
      ∀ kind token cancelled,
        owner = some ⟨.task kind token, cancelled⟩ →
          (∃ path entry,
            s.server.tasks kind path = some entry ∧
              entry.cancel = token ∧ entry.mount = id) ∨
            s.server.cancelled token = true) :
    (s.setOwner id owner).Staffed where
  tidy := hStaffed.tidy
  awaited := hStaffed.awaited
  running := by
    intro i kind token cancelled hOwner
    rcases setOwner_cases hOwner with ⟨rfl, hSet⟩ | ⟨_, hWas⟩
    · exact hNew kind token cancelled hSet
    · exact hStaffed.running i kind token cancelled hWas

theorem claimSlot_eq_some_iff
    {id : MountId}
    {holder : SlotHolder} :
    s.claimSlot id holder = some t ↔
      s.owners id = none ∧
        t = s.setOwner id (some ⟨holder, false⟩) := by
  unfold claimSlot
  cases s.owners id with
  | none => simp [eq_comm]
  | some owner => simp

theorem awaits_eq_some
    {old new : Config}
    {server : ServerState}
    {step : ReloadStep}
    {task : Awaited}
    (hAwaits : step.awaits old new server = some task) :
    server.tasks task.kind task.path = some task.entry := by
  unfold ReloadStep.awaits at hAwaits
  split at hAwaits
  · cases hAwaits
  · split at hAwaits
    · cases hAwaits
    · rename_i hEntry
      cases hAwaits
      exact hEntry

/-
  What a move of a reload can do: the call begins, waits for
  a task that is registered, carries out an iteration, or
  stores its configuration.
-/
inductive Moved
    (s : BusyServer) : ReloadMove → BusyServer → Prop where
| begin (new : Config) :
    s.call = none →
      Moved s (.apply new)
        { s with
          server := { s.server with auth := .new new }
          call :=
            some
              { new := new
                todo := reloadSteps s.server.config new
                waiting := none } }
| await (call : ReloadCall) (task : Awaited) :
    s.call = some call →
      s.server.tasks task.kind task.path = some task.entry →
        Moved s .iterate (s.await call task)
| finish
    (move : ReloadMove)
    (call : ReloadCall)
    (step : ReloadStep)
    (rest : List ReloadStep) :
    s.call = some call →
      call.todo = step :: rest →
        Moved s move (s.finishStep call step rest)
| store (call : ReloadCall) :
    s.call = some call →
      call.todo = [] →
        Moved s .store
          { s with
            server := { s.server with config := call.new }
            call := none }

theorem moved_of_step
    {move : ReloadMove}
    (hStep : s.reloadMove move = some t) :
    Moved s move t := by
  cases move with
  | apply new =>
      simp only [reloadMove, start] at hStep
      split at hStep
      · rename_i hNone _
        cases hStep
        exact .begin new hNone
      · cases hStep
  | iterate =>
      rcases Option.bind_eq_some_iff.mp hStep with
        ⟨call, hCall, hMove⟩
      unfold iterate at hMove
      split at hMove
      · rename_i step rest _ hTodo
        split at hMove
        · rename_i task hAwaits
          cases hMove
          exact .await call task hCall (awaits_eq_some hAwaits)
        · cases hMove
          exact .finish _ call step rest hCall hTodo
      · cases hMove
  | resume =>
      rcases Option.bind_eq_some_iff.mp hStep with
        ⟨call, hCall, hMove⟩
      unfold resume at hMove
      split at hMove
      · rename_i task step rest _ hTodo
        split at hMove
        · cases hMove
        · cases hMove
          exact .finish _ call step rest hCall hTodo
      · cases hMove
  | store =>
      rcases Option.bind_eq_some_iff.mp hStep with
        ⟨call, hCall, hMove⟩
      unfold store at hMove
      split at hMove
      · rename_i hTodo
        cases hMove
        exact .store call hCall hTodo
      · cases hMove

/- The owners and the map are out of its reach. -/
theorem Moved.frame
    {move : ReloadMove}
    (hMoved : Moved s move t) :
    t.owners = s.owners ∧ t.listeners = s.listeners := by
  cases hMoved with
  | begin new _ => exact ⟨rfl, rfl⟩
  | await call task _ _ => exact ⟨rfl, rfl⟩
  | finish _ call step rest _ _ => exact ⟨rfl, rfl⟩
  | store call _ _ => exact ⟨rfl, rfl⟩

theorem Moved.evolves
    {move : ReloadMove}
    (hMoved : Moved s move t) :
    Evolves s.server t.server := by
  cases hMoved with
  | begin new _ => exact evolves_settings s.server _ _
  | await call task _ _ => exact evolves_cancelTask s.server _ _
  | finish _ call step rest _ _ =>
      exact evolves_exec _ _ s.server step
  | store call _ _ => exact evolves_settings s.server _ _

theorem accounted_finishStep
    {call : ReloadCall}
    {step : ReloadStep}
    {rest : List ReloadStep}
    (hAccounted : s.Accounted)
    (hCall : s.call = some call)
    (hTodo : call.todo = step :: rest) :
    (s.finishStep call step rest).Accounted := by
  have hDuring := hAccounted.during hCall
  rw [hTodo] at hDuring
  rcases hDuring with ⟨hSteps, hTasks⟩
  have hConfig :
      (step.exec s.server.config call.new s.server).config =
        s.server.config := by
    have hSame :=
      settings_exec s.server.config call.new s.server step
    exact (Prod.mk.inj hSame).1
  show _ ∧ _
  constructor
  · intro other hMem
    show other ∈ reloadSteps
      (step.exec s.server.config call.new s.server).config _
    rw [hConfig]
    exact hSteps other (List.mem_cons_of_mem _ hMem)
  · intro kind path entry hEntry
    have hMem := hSteps step List.mem_cons_self
    rcases tasks_exec hMem hEntry with hNew | ⟨hWas, hNot⟩
    · exact .inl hNew
    · rcases hTasks kind path entry hWas with
        hNew | ⟨other, hOther, hUnlists⟩
      · exact .inl hNew
      · right
        rcases List.mem_cons.mp hOther with rfl | hRest
        · exact absurd hUnlists hNot
        · exact ⟨other, hRest, hUnlists⟩

theorem staffed_reloadMove
    {move : ReloadMove}
    (hStaffed : s.Staffed)
    (hMoved : Moved s move t) :
    t.Staffed := by
  have hEvolves := hMoved.evolves
  cases hMoved with
  | begin new _ =>
      refine hStaffed.evolve hEvolves ?_
      intro c hCall task hWaiting
      cases hCall
      cases hWaiting
  | await call task _ hEntry =>
      refine hStaffed.evolve hEvolves ?_
      intro c hCall other hWaiting
      cases hCall
      cases hWaiting
      exact cancelled_cancelTask hEntry
  | finish _ call step rest _ _ =>
      refine hStaffed.evolve hEvolves ?_
      intro c hCall task hWaiting
      cases hCall
      cases hWaiting
  | store call _ _ =>
      refine hStaffed.evolve hEvolves ?_
      intro c hNone
      cases hNone

theorem accounted_reloadMove
    {move : ReloadMove}
    (hAccounted : s.Accounted)
    (hMoved : Moved s move t) :
    t.Accounted := by
  cases hMoved with
  | begin new hNone =>
      unfold Accounted at hAccounted
      rw [hNone] at hAccounted
      refine ⟨fun step hMem => hMem, ?_⟩
      intro kind path entry hEntry
      exact
        .inr
          (exists_unlists (hAccounted kind path entry hEntry))
  | await call task hCall _ =>
      have hDuring := hAccounted.during hCall
      have hConfig :
          (s.server.cancelTask task.kind task.path).config =
            s.server.config :=
        (Prod.mk.inj (settings_cancelTask s.server _ _)).1
      show _ ∧ _
      constructor
      · intro other hMem
        show other ∈ reloadSteps
          (s.server.cancelTask task.kind task.path).config _
        rw [hConfig]
        exact hDuring.1 other hMem
      · intro kind path entry hEntry
        exact
          hDuring.2 kind path entry (tasks_cancelTask hEntry).1
  | finish _ call step rest hCall hTodo =>
      exact accounted_finishStep hAccounted hCall hTodo
  | store call hCall hTodo =>
      have hDuring := hAccounted.during hCall
      rw [hTodo] at hDuring
      intro kind path entry hEntry
      rcases hDuring.2 kind path entry hEntry with
        hNew | ⟨step, hMem, _⟩
      · exact hNew
      · cases hMem

/- The change of an event that is no reload. -/
theorem change_eq_some
    {event : ServerEvent}
    (hStep : s.change event = some t) :
    ∃ u, Unapplied s.server u ∧ t = { s with server := u } := by
  unfold change at hStep
  split at hStep
  · cases hStep
  · rename_i hOther
    split at hStep
    · cases hStep
    · rename_i u hMove
      cases hStep
      exact ⟨u, unapplied_of_exec hOther hMove, rfl⟩

theorem staffed_ownerMove
    {move : OwnerMove}
    (hStaffed : s.Staffed)
    (hStep : s.ownerMove move = some t) :
    t.Staffed := by
  cases move with
  | connect id =>
      rcases claimSlot_eq_some_iff.mp hStep with ⟨-, rfl⟩
      apply hStaffed.setOwner
      intro kind token cancelled hNew
      cases hNew
  | claim k path =>
      simp only [ownerMove] at hStep
      split at hStep
      · cases hStep
      · rename_i entry hEntry
        rcases claimSlot_eq_some_iff.mp hStep with ⟨-, rfl⟩
        apply hStaffed.setOwner
        intro kind token cancelled hNew
        cases hNew
        exact .inl ⟨path, entry, hEntry, rfl, rfl⟩
  | claimAwaited =>
      simp only [ownerMove] at hStep
      split at hStep
      · cases hStep
      · rename_i task hTask
        rcases Option.bind_eq_some_iff.mp hTask with
          ⟨call, hCall, hWaiting⟩
        rcases claimSlot_eq_some_iff.mp hStep with ⟨-, rfl⟩
        apply hStaffed.setOwner
        intro kind token cancelled hNew
        cases hNew
        exact .inr (hStaffed.awaited call hCall task hWaiting)
  | cancel id holder =>
      simp only [ownerMove] at hStep
      split at hStep
      · cases hStep
      · rename_i owner hThere
        split at hStep
        · cases hStep
          apply hStaffed.setOwner
          intro kind token cancelled hNew
          rcases owner with ⟨_, before⟩
          cases hNew
          exact hStaffed.running id kind token before hThere
        · cases hStep
  | release id holder =>
      simp only [ownerMove] at hStep
      split at hStep
      · cases hStep
      · split at hStep
        · cases hStep
          apply hStaffed.setOwner
          intro kind token cancelled hNew
          cases hNew
        · cases hStep

/- A move of a source changes the owners only. -/
theorem ownerMove_frame
    {move : OwnerMove}
    (hStep : s.ownerMove move = some t) :
    ∃ id owner, t = s.setOwner id owner := by
  cases move with
  | connect id =>
      exact ⟨_, _, (claimSlot_eq_some_iff.mp hStep).2⟩
  | claim kind path =>
      simp only [ownerMove] at hStep
      split at hStep
      · cases hStep
      · exact ⟨_, _, (claimSlot_eq_some_iff.mp hStep).2⟩
  | claimAwaited =>
      simp only [ownerMove] at hStep
      split at hStep
      · cases hStep
      · exact ⟨_, _, (claimSlot_eq_some_iff.mp hStep).2⟩
  | cancel id holder =>
      simp only [ownerMove] at hStep
      split at hStep
      · cases hStep
      · split at hStep
        · cases hStep
          exact ⟨_, _, rfl⟩
        · cases hStep
  | release id holder =>
      simp only [ownerMove] at hStep
      split at hStep
      · cases hStep
      · split at hStep
        · cases hStep
          exact ⟨_, _, rfl⟩
        · cases hStep

/- A move of a listener changes the map only. -/
theorem listenerMove_frame
    {move : ListenerMove}
    (hStep : s.listenerMove move = some t) :
    ∃ i entry, t = s.setListener i entry := by
  cases move with
  | register i path =>
      simp only [listenerMove] at hStep
      split at hStep
      · cases hStep
      · cases hStep
        exact ⟨_, _, rfl⟩
  | deregister i path =>
      simp only [listenerMove] at hStep
      split at hStep
      · cases hStep
      · split at hStep
        · cases hStep
          exact ⟨_, _, rfl⟩
        · cases hStep
  | kick i path =>
      simp only [listenerMove] at hStep
      split at hStep
      · cases hStep
      · split at hStep
        · cases hStep
          exact ⟨_, _, rfl⟩
        · cases hStep

theorem staffed_of_exec
    {event : BusyEvent}
    (hStaffed : s.Staffed)
    (hStep : s.exec event = some t) :
    t.Staffed := by
  cases event with
  | reload move =>
      exact staffed_reloadMove hStaffed (moved_of_step hStep)
  | server event =>
      rcases change_eq_some hStep with ⟨u, hKept, rfl⟩
      refine hStaffed.evolve hKept.evolves ?_
      intro c hCall task hWaiting
      exact
        hKept.evolves.retained.stopped _
          (hStaffed.awaited c hCall task hWaiting)
  | source move => exact staffed_ownerMove hStaffed hStep
  | listener move =>
      rcases listenerMove_frame hStep with ⟨i, entry, rfl⟩
      exact
        ⟨hStaffed.tidy, hStaffed.running, hStaffed.awaited⟩

theorem accounted_of_exec
    {event : BusyEvent}
    (hAccounted : s.Accounted)
    (hStep : s.exec event = some t) :
    t.Accounted := by
  cases event with
  | reload move =>
      exact
        accounted_reloadMove hAccounted (moved_of_step hStep)
  | server event =>
      rcases change_eq_some hStep with ⟨u, hKept, rfl⟩
      unfold Accounted TasksListed at hAccounted ⊢
      simp only [hKept.tasks, hKept.config]
      exact hAccounted
  | source move =>
      rcases ownerMove_frame hStep with ⟨id, owner, rfl⟩
      exact hAccounted
  | listener move =>
      rcases listenerMove_frame hStep with ⟨i, entry, rfl⟩
      exact hAccounted

theorem staffed_of_reachable
    (hReach : busyMachine.Reachable s) :
    s.Staffed := by
  refine Machine.ReachableUnder.invariant (I := Staffed)
    ?_ ?_ hReach
  · rintro _ ⟨cfg, _, rfl⟩
    refine ⟨tidy_bootstrap cfg, ?_, ?_⟩
    · intro id kind token cancelled hOwner
      cases hOwner
    · intro call hCall
      cases hCall
  · intro s event t hStaffed _ hStep
    exact staffed_of_exec hStaffed hStep

theorem accounted_of_reachable
    (hReach : busyMachine.Reachable s) :
    s.Accounted := by
  refine Machine.ReachableUnder.invariant (I := Accounted)
    ?_ ?_ hReach
  · rintro _ ⟨cfg, _, rfl⟩
    show (RustyIce.bootstrap cfg).TasksListed
      (RustyIce.bootstrap cfg).config
    rw [config_bootstrap]
    exact tasksListed_bootstrap cfg
  · intro s event t hAccounted _ hStep
    exact accounted_of_exec hAccounted hStep

end BusyServer

end RustyIce

------------------------------------------------------------
-- A Whole Call
------------------------------------------------------------

namespace RustyIce

open Library ServerState

namespace BusyServer

/-
  A call from its start to its return, and what happens in
  between.
-/
structure Returns
    (s : BusyServer)
    (new : Config)
    (events : List BusyEvent)
    (t : BusyServer) : Prop where
  run :
    busyMachine.run s
        (.reload (.apply new) ::
          (events ++ [.reload .store])) =
      some t
  inside : .reload .store ∉ events

/- Between start and return the call is under way. -/
def Calls (new : Config) (s : BusyServer) : Prop :=
  ∃ call, s.call = some call ∧ call.new = new

variable {s t u : BusyServer}
variable {new : Config}
variable {event : BusyEvent}

theorem calls_of_exec
    (hCalls : Calls new s)
    (hInside : event ≠ .reload .store)
    (hStep : s.exec event = some t) :
    Calls new t := by
  rcases hCalls with ⟨call, hCall, hNew⟩
  cases event with
  | reload move =>
      cases moved_of_step hStep with
      | begin other hNone => cases hNone.symm.trans hCall
      | await same task hSame _ =>
          cases hCall.symm.trans hSame
          exact ⟨_, rfl, hNew⟩
      | finish _ same step rest hSame _ =>
          cases hCall.symm.trans hSame
          exact ⟨_, rfl, hNew⟩
      | store _ _ _ => exact absurd rfl hInside
  | server event =>
      rcases change_eq_some hStep with ⟨u, -, rfl⟩
      exact ⟨call, hCall, hNew⟩
  | source move =>
      rcases ownerMove_frame hStep with ⟨id, owner, rfl⟩
      exact ⟨call, hCall, hNew⟩
  | listener move =>
      rcases listenerMove_frame hStep with ⟨i, entry, rfl⟩
      exact ⟨call, hCall, hNew⟩

/- The call returns with its configuration stored. -/
theorem returned
    {events : List BusyEvent}
    (hReturns : Returns s new events t) :
    t.call = none ∧ t.server.config = new := by
  have hRun := hReturns.run
  rw [Machine.run] at hRun
  split at hRun
  · cases hRun
  · rename_i first hApply
    have hStarted : Calls new first := by
      have hMoved : Moved s (.apply new) first :=
        moved_of_step hApply
      cases hMoved with
      | begin _ _ => exact ⟨_, rfl, rfl⟩
      | finish _ call step rest hCall _ =>
          have hStart : s.start new = some _ := hApply
          simp only [start, hCall] at hStart
          cases hStart
    rw [Machine.run_append] at hRun
    rcases Option.bind_eq_some_iff.mp hRun with
      ⟨last, hMiddle, hLast⟩
    have hCalls : Calls new last := by
      refine
        Machine.run_keeps (fun e => e ≠ .reload .store)
          ?_ hStarted ?_ hMiddle
      · intro v e w hThere hInside hStep
        exact calls_of_exec hThere hInside hStep
      · rintro e hMem rfl
        exact hReturns.inside hMem
    rcases hCalls with ⟨call, hCall, rfl⟩
    rw [Machine.run_singleton] at hLast
    have hStore : last.reloadMove .store = some t := hLast
    simp only [reloadMove, hCall, Option.bind_some, store]
      at hStore
    split at hStore
    · cases hStore
      exact ⟨rfl, rfl⟩
    · cases hStore

theorem keepsPaths_of_exec
    {base : ServerState}
    (hKeeps : KeepsPaths base s.server)
    (hStep : s.exec event = some t) :
    KeepsPaths base t.server := by
  cases event with
  | reload move =>
      exact (moved_of_step hStep).evolves.paths base hKeeps
  | server event =>
      rcases change_eq_some hStep with ⟨u, hKept, rfl⟩
      exact hKept.evolves.paths base hKeeps
  | source move =>
      rcases ownerMove_frame hStep with ⟨id, owner, rfl⟩
      exact hKeeps
  | listener move =>
      rcases listenerMove_frame hStep with ⟨i, entry, rfl⟩
      exact hKeeps

end BusyServer

end RustyIce

------------------------------------------------------------
-- Who Is There, Who Comes, Who Leaves
------------------------------------------------------------

namespace RustyIce

open Library ServerState

namespace BusyServer

/- An owner whose source was told to stop. -/
def SlotOwner.Stopped
    (server : ServerState)
    (owner : SlotOwner) : Prop :=
  owner.cancelled = true ∨
    ∃ kind token,
      owner.holder = .task kind token ∧
        server.cancelled token = true

/-
  From `s` to `t` the path was disconnected: who owns the
  slot of its former mount was told to stop, and so were the
  path's listeners.
-/
structure Disconnected
    (s t : BusyServer)
    (path : String) : Prop where
  source :
    ∀ id, s.server.mounts path = some id →
      ∀ owner, t.owners id = some owner →
        SlotOwner.Stopped t.server owner
  listeners :
    ∀ i entry, t.listeners i = some entry →
      entry.path = path → entry.cancelled = true

/-
  At `t`, no live source is on the mount that the path had at
  `s` and no listener of the path is in the map, but those
  that were told to stop.
-/
structure ClearAt
    (s : BusyServer)
    (path : String)
    (t : BusyServer) : Prop where
  source :
    ∀ id, s.server.mounts path = some id →
      ∀ owner, t.owners id = some owner →
        owner.holder = .live → owner.cancelled = true
  listeners :
    ∀ i entry, t.listeners i = some entry →
      entry.path = path → entry.cancelled = true

/- So it is before the call. -/
def Clear (s : BusyServer) (path : String) : Prop :=
  s.ClearAt path s

/- A live source or a listener comes to the path. -/
def Joins
    (s : BusyServer)
    (path : String) : BusyEvent → Prop
| .source (.connect id) => s.server.mounts path = some id
| .listener (.register _ p) => p = path
| _ => False

/- One leaves it, or is told to. -/
def Leaves
    (s : BusyServer)
    (path : String) : BusyEvent → Prop
| .source (.cancel id .live) => s.server.mounts path = some id
| .source (.release id .live) =>
    s.server.mounts path = some id
| .listener (.deregister _ p) => p = path
| .listener (.kick _ p) => p = path
| _ => False

variable {s t u : BusyServer}
variable {path : String}
variable {event : BusyEvent}

theorem setListener_cases
    {i j : Nat}
    {entry : Option MapEntry}
    {e : MapEntry}
    (hEntry : (s.setListener i entry).listeners j = some e) :
    (j = i ∧ entry = some e) ∨
      (j ≠ i ∧ s.listeners j = some e) := by
  simp only [setListener] at hEntry
  split at hEntry
  · rename_i hHere
    exact .inl ⟨hHere, hEntry⟩
  · rename_i hOther
    exact .inr ⟨hOther, hEntry⟩

theorem owners_setOwner_other
    {id i : MountId}
    {owner : Option SlotOwner}
    (hOther : i ≠ id) :
    (s.setOwner id owner).owners i = s.owners i :=
  if_neg hOther

theorem listeners_setListener_other
    {i j : Nat}
    {entry : Option MapEntry}
    (hOther : j ≠ i) :
    (s.setListener i entry).listeners j = s.listeners j :=
  if_neg hOther

/- A path is as clear as before if owners and map are same. -/
theorem ClearAt.of_frame
    (hClear : s.ClearAt path t)
    (hOwners : u.owners = t.owners)
    (hListeners : u.listeners = t.listeners) :
    s.ClearAt path u where
  source := by
    rw [hOwners]
    exact hClear.source
  listeners := by
    rw [hListeners]
    exact hClear.listeners

/- A new owner that is no live source on the mount. -/
theorem ClearAt.setOwner
    {id : MountId}
    {owner : Option SlotOwner}
    (hClear : s.ClearAt path t)
    (hNew :
      s.server.mounts path = some id →
        ∀ o, owner = some o →
          o.holder = .live → o.cancelled = true) :
    s.ClearAt path (t.setOwner id owner) where
  listeners := hClear.listeners
  source := by
    intro i hMount o hOwner hLive
    rcases setOwner_cases hOwner with ⟨rfl, hSet⟩ | ⟨_, hWas⟩
    · exact hNew hMount o hSet hLive
    · exact hClear.source i hMount o hWas hLive

theorem ClearAt.setListener
    {i : Nat}
    {entry : Option MapEntry}
    (hClear : s.ClearAt path t)
    (hNew :
      ∀ e, entry = some e → e.path = path →
        e.cancelled = true) :
    s.ClearAt path (t.setListener i entry) where
  source := hClear.source
  listeners := by
    intro j e hEntry hPath
    rcases setListener_cases hEntry with ⟨_, hSet⟩ | ⟨_, hWas⟩
    · exact hNew e hSet hPath
    · exact hClear.listeners j e hWas hPath

/- A task that wins a slot is no live source. -/
theorem ClearAt.claim
    {id : MountId}
    {kind : TaskKind}
    {token : Token}
    (hClear : s.ClearAt path t)
    (hClaim : t.claimSlot id (.task kind token) = some u) :
    s.ClearAt path u := by
  rcases claimSlot_eq_some_iff.mp hClaim with ⟨-, rfl⟩
  apply hClear.setOwner
  intro _ o hNew hLive
  cases hNew
  cases hLive

/- No owner makes a mount less clear but one who connects. -/
theorem clearAt_after_owner
    {move : OwnerMove}
    (hClear : s.ClearAt path t)
    (hNobody : ¬ Joins s path (.source move))
    (hStep : t.ownerMove move = some u) :
    s.ClearAt path u := by
  cases move with
  | connect id =>
      rcases claimSlot_eq_some_iff.mp hStep with ⟨-, rfl⟩
      apply hClear.setOwner
      intro hMount
      exact absurd hMount hNobody
  | claim kind p =>
      simp only [ownerMove] at hStep
      split at hStep
      · cases hStep
      · exact hClear.claim hStep
  | claimAwaited =>
      simp only [ownerMove] at hStep
      split at hStep
      · cases hStep
      · exact hClear.claim hStep
  | cancel id holder =>
      simp only [ownerMove] at hStep
      split at hStep
      · cases hStep
      · split at hStep
        · cases hStep
          apply hClear.setOwner
          intro _ o hNew _
          cases hNew
          rfl
        · cases hStep
  | release id holder =>
      simp only [ownerMove] at hStep
      split at hStep
      · cases hStep
      · split at hStep
        · cases hStep
          apply hClear.setOwner
          intro _ o hNew
          cases hNew
        · cases hStep

theorem clearAt_after_listener
    {move : ListenerMove}
    (hClear : s.ClearAt path t)
    (hNobody : ¬ Joins s path (.listener move))
    (hStep : t.listenerMove move = some u) :
    s.ClearAt path u := by
  cases move with
  | register i p =>
      simp only [listenerMove] at hStep
      split at hStep
      · cases hStep
      · cases hStep
        apply hClear.setListener
        intro e hNew hPath
        cases hNew
        exact absurd hPath hNobody
  | deregister i p =>
      simp only [listenerMove] at hStep
      split at hStep
      · cases hStep
      · split at hStep
        · cases hStep
          apply hClear.setListener
          intro e hNew
          cases hNew
        · cases hStep
  | kick i p =>
      simp only [listenerMove] at hStep
      split at hStep
      · cases hStep
      · split at hStep
        · cases hStep
          apply hClear.setListener
          intro e hNew _
          cases hNew
          rfl
        · cases hStep

/- A clear path stays clear unless somebody comes to it. -/
theorem clearAt_after
    (hClear : s.ClearAt path t)
    (hNobody : ¬ Joins s path event)
    (hStep : t.exec event = some u) :
    s.ClearAt path u := by
  cases event with
  | reload move =>
      rcases (moved_of_step hStep).frame with ⟨hOwners, hMap⟩
      exact hClear.of_frame hOwners hMap
  | server event =>
      rcases change_eq_some hStep with ⟨v, -, rfl⟩
      exact hClear.of_frame rfl rfl
  | source move =>
      exact clearAt_after_owner hClear hNobody hStep
  | listener move =>
      exact clearAt_after_listener hClear hNobody hStep

/- What is clear without that owner was clear with it. -/
theorem ClearAt.of_setOwner
    {id : MountId}
    {owner : Option SlotOwner}
    (hClear : s.ClearAt path (t.setOwner id owner))
    (hOld :
      s.server.mounts path = some id →
        ∀ o, t.owners id = some o → o.holder ≠ .live) :
    s.ClearAt path t where
  listeners := hClear.listeners
  source := by
    intro i hMount o hOwner hLive
    have hOther : i ≠ id := by
      rintro rfl
      exact hOld hMount o hOwner hLive
    apply hClear.source i hMount o ?_ hLive
    rw [owners_setOwner_other hOther]
    exact hOwner

/- The owner who goes, or is told to, is no live source. -/
theorem ClearAt.of_named
    {id : MountId}
    {holder : SlotHolder}
    {owner : SlotOwner}
    {after : Option SlotOwner}
    (hClear : s.ClearAt path (t.setOwner id after))
    (hThere : t.owners id = some owner)
    (hNamed : owner.holder = holder)
    (hNobody :
      holder = .live → s.server.mounts path ≠ some id) :
    s.ClearAt path t := by
  apply hClear.of_setOwner
  intro hMount o hOwner hLive
  cases hThere.symm.trans hOwner
  exact hNobody (hNamed.symm.trans hLive) hMount

theorem ClearAt.of_setListener
    {i : Nat}
    {entry : Option MapEntry}
    (hClear : s.ClearAt path (t.setListener i entry))
    (hOld :
      ∀ e, t.listeners i = some e → e.path ≠ path) :
    s.ClearAt path t where
  source := hClear.source
  listeners := by
    intro j e hEntry hPath
    have hOther : j ≠ i := by
      rintro rfl
      exact hOld e hEntry hPath
    apply hClear.listeners j e ?_ hPath
    rw [listeners_setListener_other hOther]
    exact hEntry

/- The listener who goes, or is told to, is of another path. -/
theorem ClearAt.of_entry
    {i : Nat}
    {p : String}
    {entry : MapEntry}
    {after : Option MapEntry}
    (hClear : s.ClearAt path (t.setListener i after))
    (hThere : t.listeners i = some entry)
    (hNamed : entry.path = p)
    (hNobody : p ≠ path) :
    s.ClearAt path t := by
  apply hClear.of_setListener
  intro e hEntry hPath
  cases hThere.symm.trans hEntry
  exact hNobody (hNamed.symm.trans hPath)

theorem ClearAt.of_claim
    {id : MountId}
    {holder : SlotHolder}
    (hClear : s.ClearAt path u)
    (hClaim : t.claimSlot id holder = some u) :
    s.ClearAt path t := by
  rcases claimSlot_eq_some_iff.mp hClaim with ⟨hFree, rfl⟩
  apply hClear.of_setOwner
  intro _ o hOwner
  cases hFree.symm.trans hOwner

theorem clearAt_before_owner
    {move : OwnerMove}
    (hClear : s.ClearAt path u)
    (hNobody : ¬ Leaves s path (.source move))
    (hStep : t.ownerMove move = some u) :
    s.ClearAt path t ∧ ¬ Joins s path (.source move) := by
  cases move with
  | connect id =>
      refine ⟨hClear.of_claim hStep, ?_⟩
      intro hMount
      rcases claimSlot_eq_some_iff.mp hStep with ⟨-, rfl⟩
      have hCancelled :=
        hClear.source id hMount _ (if_pos rfl) rfl
      cases hCancelled
  | claim kind p =>
      simp only [ownerMove] at hStep
      split at hStep
      · cases hStep
      · exact ⟨hClear.of_claim hStep, fun h => h⟩
  | claimAwaited =>
      simp only [ownerMove] at hStep
      split at hStep
      · cases hStep
      · exact ⟨hClear.of_claim hStep, fun h => h⟩
  | cancel id holder =>
      simp only [ownerMove] at hStep
      split at hStep
      · cases hStep
      · rename_i owner hThere
        split at hStep
        · rename_i hNamed
          cases hStep
          refine
            ⟨hClear.of_named hThere hNamed ?_, fun h => h⟩
          rintro rfl
          exact hNobody
        · cases hStep
  | release id holder =>
      simp only [ownerMove] at hStep
      split at hStep
      · cases hStep
      · rename_i owner hThere
        split at hStep
        · rename_i hNamed
          cases hStep
          refine
            ⟨hClear.of_named hThere hNamed ?_, fun h => h⟩
          rintro rfl
          exact hNobody
        · cases hStep

theorem clearAt_before_listener
    {move : ListenerMove}
    (hClear : s.ClearAt path u)
    (hNobody : ¬ Leaves s path (.listener move))
    (hStep : t.listenerMove move = some u) :
    s.ClearAt path t ∧ ¬ Joins s path (.listener move) := by
  cases move with
  | register i p =>
      simp only [listenerMove] at hStep
      split at hStep
      · cases hStep
      · rename_i hFree
        cases hStep
        constructor
        · apply hClear.of_setListener
          intro e hEntry
          cases hFree.symm.trans hEntry
        · intro hPath
          have hCancelled :=
            hClear.listeners i _ (if_pos rfl) hPath
          cases hCancelled
  | deregister i p =>
      simp only [listenerMove] at hStep
      split at hStep
      · cases hStep
      · rename_i entry hThere
        split at hStep
        · rename_i hNamed
          cases hStep
          exact
            ⟨hClear.of_entry hThere hNamed hNobody,
              fun h => h⟩
        · cases hStep
  | kick i p =>
      simp only [listenerMove] at hStep
      split at hStep
      · cases hStep
      · rename_i entry hThere
        split at hStep
        · rename_i hNamed
          cases hStep
          exact
            ⟨hClear.of_entry hThere hNamed hNobody,
              fun h => h⟩
        · cases hStep

/-
  If nobody leaves, a path that is clear was clear, and
  nobody came.
-/
theorem clearAt_before
    (hClear : s.ClearAt path u)
    (hNobody : ¬ Leaves s path event)
    (hStep : t.exec event = some u) :
    s.ClearAt path t ∧ ¬ Joins s path event := by
  cases event with
  | reload move =>
      rcases (moved_of_step hStep).frame with ⟨hOwners, hMap⟩
      exact
        ⟨hClear.of_frame hOwners.symm hMap.symm, fun h => h⟩
  | server event =>
      rcases change_eq_some hStep with ⟨v, -, rfl⟩
      exact ⟨hClear.of_frame rfl rfl, fun h => h⟩
  | source move =>
      exact clearAt_before_owner hClear hNobody hStep
  | listener move =>
      exact clearAt_before_listener hClear hNobody hStep

theorem clearAt_before_run
    {events : List BusyEvent}
    (hNobody : ∀ event ∈ events, ¬ Leaves s path event)
    (hRun : busyMachine.run t events = some u)
    (hClear : s.ClearAt path u) :
    s.ClearAt path t ∧
      ∀ event ∈ events, ¬ Joins s path event := by
  induction events generalizing t with
  | nil =>
      cases hRun
      exact ⟨hClear, List.forall_mem_nil _⟩
  | cons event events ih =>
      rw [Machine.run] at hRun
      split at hRun
      · cases hRun
      · rename_i next hStep
        rcases List.forall_mem_cons.mp hNobody with
          ⟨hFirst, hRest⟩
        rcases ih hRest hRun with ⟨hNext, hLater⟩
        rcases clearAt_before hNext hFirst hStep with
          ⟨hHere, hNow⟩
        exact
          ⟨hHere, List.forall_mem_cons.mpr ⟨hNow, hLater⟩⟩

end BusyServer

end RustyIce

------------------------------------------------------------
-- Removed Paths
------------------------------------------------------------

namespace RustyIce

open Library ServerState

namespace BusyServer

/-
  After the return, no task is on the former mount of a
  removed path but one that was told to stop.
-/
theorem stopped_of_returns
    {s t : BusyServer}
    {new : Config}
    {events : List BusyEvent}
    (hReach : busyMachine.Reachable s)
    (hReturns : Returns s new events t)
    {path : String}
    (hGone : path ∉ new.allPaths)
    {id : MountId}
    (hMount : s.server.mounts path = some id)
    {kind : TaskKind}
    {token : Token}
    {cancelled : Bool}
    (hOwner : t.owners id = some ⟨.task kind token, cancelled⟩) :
    t.server.cancelled token = true := by
  have hEnd : busyMachine.Reachable t :=
    hReach.run hReturns.run
  have hTidy := (staffed_of_reachable hReach).tidy
  have hStaffed := staffed_of_reachable hEnd
  have hPaths : KeepsPaths s.server t.server := by
    refine
      Machine.run_keeps
        (I := fun u => KeepsPaths s.server u.server)
        (fun _ => True) ?_ (KeepsPaths.refl s.server)
        (fun _ _ => trivial) hReturns.run
    intro u event v hKeeps _ hStep
    exact keepsPaths_of_exec hKeeps hStep
  rcases returned hReturns with ⟨hNone, hConfig⟩
  rcases hStaffed.running id kind token cancelled hOwner with
    ⟨p, entry, hEntry, -, hOn⟩ | hStopped
  case inr => exact hStopped
  case inl =>
    -- Its task would be at the path, and so would be listed.
    have hPath : p = path := by
      have hPlaced :=
        (hStaffed.tidy.placed kind p entry hEntry).2
      have hMade := hTidy.made path id hMount
      rw [hOn, hPaths.path id hMade,
        hTidy.path path id hMount] at hPlaced
      exact hPlaced.symm
    have hAccounted := accounted_of_reachable hEnd
    unfold Accounted at hAccounted
    rw [hNone, hConfig] at hAccounted
    have hListed := hAccounted kind p entry hEntry
    rw [hPath] at hListed
    apply absurd _ hGone
    rw [Config.mem_allPaths]
    cases kind with
    | autodj => exact .inr (.inl hListed)
    | relay => exact .inr (.inr hListed)

/- A rotation plays on its mount and is removed. -/
def rotationPlaying : List BusyEvent :=
  [.source (.claim .autodj "/radio")]

def rotationServer : BusyServer :=
  { BusyServer.bootstrap rotationConfig with
    owners := fun id =>
      if id = 0 then some ⟨.task .autodj 0, false⟩ else none }

/- It is cancelled, lets go of its slot, and has ended. -/
def rotationStopped : List BusyEvent :=
  [.reload .iterate, .source (.release 0 (.task .autodj 0)),
    .reload .resume]

/- A live source and a listener on a plain mount. -/
def liveWithListener : List BusyEvent :=
  [.source (.connect 0), .listener (.register 0 "/radio")]

end BusyServer

end RustyIce

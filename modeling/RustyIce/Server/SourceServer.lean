import RustyIce.Server.OneOwner
import RustyIce.Server.Rejection

/-
  Source requests on a whole server: any number of them, for
  any paths, each with its turns at the registry and at the
  mount it found or created, beside the tasks of the mounts.

  Main declarations:
    * `SourceServer`, `sourceMachine`
    * `UploadMove`, `SourceUpload.move_of_step`
    * `OneSourcePerPath`, `Alone`
    * `one_source_per_path`
-/

------------------------------------------------------------
-- The Machine
------------------------------------------------------------

namespace RustyIce

/- A request, and where its handler is. -/
structure SourceConnection where
  upload : SourceUpload
  phase : ConnectionPhase
deriving DecidableEq, Repr

/- A task, the mount it was given, and its cancellation. -/
structure RunningTask where
  mount : MountId
  stopped : Bool
  task : Task
deriving DecidableEq, Repr

inductive TaskEvent where
| player (event : PlayerEvent)
| relay (event : RelayEvent)
deriving DecidableEq, Repr

/- The next access of a task at its mount. -/
def Task.step
    (stopped : Bool)
    (now : Nat)
    (s : Slot) : Task → TaskEvent → Option (Task × Slot)
| .player loopPlaylist phase, .player event =>
    (phase.step loopPlaylist stopped now event s).map
      fun (next, slot) => (.player loopPlaylist next, slot)
| .relay phase, .relay event =>
    (phase.step stopped now event s).map
      fun (next, slot) => (.relay next, slot)
| .player _ _, .relay _ => none
| .relay _, .player _ => none

structure SourceServer where
  server : ServerState
  sources : List SourceConnection
  tasks : List RunningTask

/-
  Events: requests and their turns, tasks and theirs, and
  kicks by an administrator.
-/
inductive SourceLabel where
| arrive (upload : SourceUpload)
| source (i : Nat) (moment : Moment)
| spawn (mount : MountId) (task : Task)
| task (k now : Nat) (event : TaskEvent)
| stop (k : Nat)
| kick (mount : MountId)
deriving DecidableEq, Repr

namespace SourceServer

def step
    (s : SourceServer) : SourceLabel → Option SourceServer
| .arrive upload =>
    some
      { s with
        sources :=
          s.sources ++ [{ upload := upload, phase := .lookup }] }
| .source i moment =>
    match s.sources[i]? with
    | none => none
    | some c =>
        match c.upload.step moment s.server c.phase with
        | none => none
        | some (phase, server) =>
            some
              { s with
                server := server
                sources :=
                  s.sources.set i { c with phase := phase } }
| .spawn mount task =>
    if task.Fresh ∧ mount < s.server.nextMount then
      some
        { s with
          tasks :=
            s.tasks ++
              [{ mount := mount
                 stopped := false
                 task := task }] }
    else none
| .task k now event =>
    match s.tasks[k]? with
    | none => none
    | some r =>
        match
            r.task.step r.stopped now
              (s.server.slotAt r.mount) event with
        | none => none
        | some (task, slot) =>
            some
              { s with
                server := s.server.withSlot r.mount slot
                tasks := s.tasks.set k { r with task := task } }
| .stop k =>
    match s.tasks[k]? with
    | none => none
    | some r =>
        some
          { s with
            tasks := s.tasks.set k { r with stopped := true } }
| .kick mount =>
    some
      { s with
        server :=
          s.server.withSlot mount
            (s.server.slotAt mount).kick }

end SourceServer

/-
  Any registry of mounts nobody owns, and no request or task
  yet. Mounts that were created by earlier requests are among
  the registered ones.
-/
def sourceMachine :
    Library.Machine SourceServer SourceLabel where
  init := fun s =>
    s.server.Fresh ∧
      (∀ mount,
        (s.server.heap mount).sourceConnected = false) ∧
        s.sources = [] ∧ s.tasks = []
  step := SourceServer.step

end RustyIce

------------------------------------------------------------
-- One Source Per Path
------------------------------------------------------------

namespace RustyIce

instance (phase : SourcePhase) : Decidable phase.Owns :=
  match phase with
  | .installing _ _ | .streaming _ =>
      inferInstanceAs (Decidable True)
  | .dropping todo =>
      inferInstanceAs (Decidable (.clearConnected ∈ todo))
  | .checkConnected | .checkKind | .setPending | .readCancel
  | .cancelOwner _ | .polling | .verify | .checkCodec | .claim
  | .rejected _ | .over => inferInstanceAs (Decidable False)

/- The handler has claimed this mount and not released it. -/
def ConnectionPhase.Holds
    (mount : MountId) : ConnectionPhase → Prop
| .atMount own _ phase => own = mount ∧ phase.Owns
| _ => False

instance
    (mount : MountId)
    (phase : ConnectionPhase) :
    Decidable (phase.Holds mount) := by
  unfold ConnectionPhase.Holds
  split <;> infer_instance

/-
  Two connected handlers of one path are the same, and the
  registry has the mount a handler is connected to.
-/
structure OneSourcePerPath (s : SourceServer) : Prop where
  unique :
    ∀ (i j : Nat) (c d : SourceConnection) (m n : MountId),
      s.sources[i]? = some c →
        s.sources[j]? = some d →
          c.upload.path = d.upload.path →
            c.phase.Holds m → d.phase.Holds n → i = j
  registered :
    ∀ c ∈ s.sources, ∀ mount,
      c.phase.Holds mount →
        s.server.mounts c.upload.path = some mount

/-
  A handler at a mount may still claim it, has claimed it, or
  is about to unregister it.
-/
def SourcePhase.InHand : SourcePhase → Prop
| .rejected _ => False
| .over => False
| .dropping todo =>
    .clearConnected ∈ todo ∨ .removeMount ∈ todo
| _ => True

instance (phase : SourcePhase) : Decidable phase.InHand :=
  match phase with
  | .rejected _ | .over => inferInstanceAs (Decidable False)
  | .dropping todo =>
      inferInstanceAs
        (Decidable
          (.clearConnected ∈ todo ∨ .removeMount ∈ todo))
  | .checkConnected | .checkKind | .setPending | .readCancel
  | .cancelOwner _ | .polling | .verify | .checkCodec | .claim
  | .installing _ _ | .streaming _ =>
      inferInstanceAs (Decidable True)

namespace ConnectionPhase

def InHand : ConnectionPhase → Prop
| .atMount _ _ phase => phase.InHand
| _ => False

/- It is this mount that the handler has in hand. -/
def Has
    (mount : MountId) : ConnectionPhase → Prop
| .atMount own _ phase => own = mount ∧ phase.InHand
| _ => False

/- The handler is about to write to the registry. -/
def Rewrites : ConnectionPhase → Prop
| .create => True
| .atMount _ _ (.dropping (.removeMount :: _)) => True
| _ => False

instance (phase : ConnectionPhase) :
    Decidable phase.InHand := by
  unfold InHand
  split <;> infer_instance

instance (phase : ConnectionPhase) :
    Decidable phase.Rewrites := by
  unfold Rewrites
  split <;> infer_instance

theorem inHand_of_has
    {mount : MountId}
    {phase : ConnectionPhase}
    (hHas : phase.Has mount) :
    phase.InHand := by
  cases phase with
  | atMount own dynamic phase => exact hHas.2
  | _ => exact absurd hHas id

end ConnectionPhase

/-
  A request creates the mount of its path, or a dynamic one
  removes it, while no other request has a mount of the path
  in hand.
-/
def Alone (s : SourceServer) : SourceLabel → Prop
| .source i _ =>
    ∀ c ∈ s.sources[i]?,
      c.phase.Rewrites →
        ∀ d ∈ s.sources.eraseIdx i,
          d.upload.path = c.upload.path →
            ¬ d.phase.InHand
| _ => True

instance
    (s : SourceServer)
    (label : SourceLabel) :
    Decidable (Alone s label) := by
  unfold Alone
  split <;> infer_instance

end RustyIce

------------------------------------------------------------
-- Turns Of A Request
------------------------------------------------------------

namespace RustyIce

/-
  What a turn of a request does: it finds a mount, goes on
  without one, creates one, or takes a turn at its own.
-/
inductive UploadMove
    (upload : SourceUpload)
    (moment : Moment)
    (s : ServerState) :
    ConnectionPhase → ConnectionPhase → ServerState → Prop
| found {mount : MountId} :
    s.mounts upload.path = some mount →
      UploadMove upload moment s .lookup
        (.atMount mount false .checkConnected) s
| aside {phase phase' : ConnectionPhase} :
    (phase = .lookup ∨ phase = .verifyDefault) →
      (∀ mount dynamic own,
        phase' ≠ .atMount mount dynamic own) →
        UploadMove upload moment s phase phase' s
| created :
    UploadMove upload moment s .create
      (.atMount s.nextMount true .checkCodec)
      (s.createDynamicMount upload.path upload.codec)
| turn
    {mount : MountId} {dynamic : Bool}
    {own own' : SourcePhase} {slot : Slot} :
    own.step (upload.request dynamic) (upload.env moment s)
        (s.slotAt mount) = some (own', slot) →
      UploadMove upload moment s (.atMount mount dynamic own)
        (.atMount mount dynamic own')
        (upload.afterTurn own (s.withSlot mount slot))

theorem SourceUpload.move_of_step
    {upload : SourceUpload}
    {moment : Moment}
    {s s' : ServerState}
    {phase phase' : ConnectionPhase}
    (hStep :
      upload.step moment s phase = some (phase', s')) :
    UploadMove upload moment s phase phase' s' := by
  cases phase with
  | lookup =>
      simp only [step] at hStep
      split at hStep
      · rename_i mount hMount
        cases hStep
        exact .found hMount
      · cases hStep
        exact .aside (.inl rfl) (by simp)
  | verifyDefault =>
      simp only [step] at hStep
      split at hStep
      · cases hStep
        exact .aside (.inr rfl) (by simp)
      · cases hStep
        exact .aside (.inr rfl) (by simp)
  | create =>
      cases hStep
      exact .created
  | atMount mount dynamic own =>
      simp only [step] at hStep
      split at hStep
      · cases hStep
      · rename_i own' slot hTurn
        cases hStep
        exact .turn hTurn
  | rejected status => cases hStep

/- A turn leaves a mount in hand that was in hand before. -/
theorem SourcePhase.inHand_of_step
    {req : SourceRequest}
    {env : SourceEnv}
    {s s' : Slot}
    {phase phase' : SourcePhase}
    (hStep : phase.step req env s = some (phase', s'))
    (hNext : phase'.InHand) :
    phase.InHand := by
  cases phase with
  | rejected status => cases hStep
  | «over» => cases hStep
  | dropping todo =>
      cases todo with
      | nil =>
          cases hStep
          exact absurd hNext id
      | cons op rest =>
          cases hStep
          exact hNext.imp (List.mem_cons_of_mem _)
            (List.mem_cons_of_mem _)
  | _ => trivial

/- Who owns the slot has its mount in hand. -/
theorem SourcePhase.inHand_of_owns
    {phase : SourcePhase}
    (hOwns : phase.Owns) :
    phase.InHand := by
  cases phase with
  | dropping todo => exact .inl hOwns
  | installing todo token => trivial
  | streaming token => trivial
  | _ => exact absurd hOwns id

theorem ConnectionPhase.has_of_holds
    {mount : MountId}
    {phase : ConnectionPhase}
    (hHolds : phase.Holds mount) :
    phase.Has mount := by
  cases phase with
  | atMount own dynamic phase =>
      exact ⟨hHolds.1, SourcePhase.inHand_of_owns hHolds.2⟩
  | _ => exact absurd hHolds id

/- Removing the mount is the last turn of a guard. -/
theorem removeMount_last
    {dynamic : Bool}
    {rest : List SlotOp}
    (hSuffix : .removeMount :: rest <:+ guardDrop dynamic) :
    rest = [] := by
  cases dynamic with
  | false =>
      have hMem := hSuffix.subset List.mem_cons_self
      simp [guardDrop] at hMem
  | true =>
      simpa [guardDrop, List.suffix_cons_iff] using hSuffix

end RustyIce

------------------------------------------------------------
-- The Invariant
------------------------------------------------------------

namespace RustyIce

def SourceConnection.Proper (c : SourceConnection) : Prop :=
  match c.phase with
  | .atMount _ dynamic own =>
      own.Proper (c.upload.request dynamic)
  | _ => True

def SourceConnection.holdsAt
    (mount : MountId)
    (c : SourceConnection) : Bool :=
  c.phase.Holds mount

def RunningTask.ownsAt
    (mount : MountId)
    (r : RunningTask) : Bool :=
  r.mount = mount ∧ r.task.Owns

namespace SourceServer

/- The handlers and tasks that have claimed a mount. -/
def sourcesAt
    (s : SourceServer)
    (mount : MountId) : Nat :=
  s.sources.countP (SourceConnection.holdsAt mount)

def tasksAt
    (s : SourceServer)
    (mount : MountId) : Nat :=
  s.tasks.countP (RunningTask.ownsAt mount)

/- The flag of a mount. -/
def flag
    (s : SourceServer)
    (mount : MountId) : Nat :=
  (s.server.heap mount).sourceConnected.toNat

end SourceServer

/-
  What every state of a run has: whoever has a mount in hand
  has the registered one, and a mount has at most the owner
  its flag tells of.
-/
structure SourcesInv (s : SourceServer) : Prop where
  fresh : s.server.Fresh
  proper : ∀ c ∈ s.sources, c.Proper
  tasksProper : ∀ r ∈ s.tasks, r.task.Proper
  created : ∀ r ∈ s.tasks, r.mount < s.server.nextMount
  registered :
    ∀ c ∈ s.sources, ∀ mount,
      c.phase.Has mount →
        s.server.mounts c.upload.path = some mount
  counted :
    ∀ mount,
      s.sourcesAt mount + s.tasksAt mount ≤ s.flag mount

theorem SourcesInv.one_source
    {s : SourceServer}
    (hInv : SourcesInv s) :
    OneSourcePerPath s where
  registered := fun c hMem mount hHolds =>
    hInv.registered c hMem mount
      (ConnectionPhase.has_of_holds hHolds)
  unique := by
    intro i j c d m n hI hJ hPath hM hN
    have hMount :=
      hInv.registered c (List.mem_of_getElem? hI) m
        (ConnectionPhase.has_of_holds hM)
    have hOther :=
      hInv.registered d (List.mem_of_getElem? hJ) n
        (ConnectionPhase.has_of_holds hN)
    rw [hPath, hOther] at hMount
    cases hMount
    have hCount := hInv.counted m
    have hFlag := Bool.toNat_le
      (s.server.heap m).sourceConnected
    unfold SourceServer.flag at hCount
    have hOnce : s.sourcesAt m ≤ 1 := by omega
    exact
      Library.eq_of_countP_le_one hOnce hI hJ
        (decide_eq_true hM)
        (decide_eq_true hN)

end RustyIce

------------------------------------------------------------
-- Turns At A Mount
------------------------------------------------------------

namespace RustyIce

/- A task's turn keeps its list and the count of owners. -/
theorem Task.proper_of_step
    {stopped : Bool}
    {now : Nat}
    {event : TaskEvent}
    {s s' : Slot}
    {task task' : Task}
    (hProper : task.Proper)
    (hStep :
      task.step stopped now s event = some (task', s')) :
    task'.Proper := by
  rcases task with ⟨loopPlaylist, phase⟩ | ⟨phase⟩ <;>
    rcases event with ⟨event⟩ | ⟨event⟩
  · obtain ⟨⟨next, slot⟩, hMove, hEq⟩ :=
      Option.map_eq_some_iff.mp hStep
    cases hEq
    exact PlayerPhase.proper_of_step hProper hMove
  · cases hStep
  · cases hStep
  · obtain ⟨⟨next, slot⟩, hMove, hEq⟩ :=
      Option.map_eq_some_iff.mp hStep
    cases hEq
    exact RelayPhase.proper_of_step hProper hMove

theorem Task.owned_of_step
    {stopped : Bool}
    {now : Nat}
    {event : TaskEvent}
    {s s' : Slot}
    {task task' : Task}
    (hProper : task.Proper)
    (hStep :
      task.step stopped now s event = some (task', s'))
    {others : Nat}
    (hOwned : task.owned + others ≤ s.gate.connected.toNat) :
    task'.owned + others ≤ s'.gate.connected.toNat := by
  rcases task with ⟨loopPlaylist, phase⟩ | ⟨phase⟩ <;>
    rcases event with ⟨event⟩ | ⟨event⟩
  · obtain ⟨⟨next, slot⟩, hMove, hEq⟩ :=
      Option.map_eq_some_iff.mp hStep
    cases hEq
    exact owned_of_playerStep hProper hMove hOwned
  · cases hStep
  · cases hStep
  · obtain ⟨⟨next, slot⟩, hMove, hEq⟩ :=
      Option.map_eq_some_iff.mp hStep
    cases hEq
    exact owned_of_relayStep hProper hMove hOwned

/- What a handler at a mount counts. -/
theorem SourceConnection.toNat_holdsAt
    (upload : SourceUpload)
    (own mount : MountId)
    (dynamic : Bool)
    (phase : SourcePhase) :
    (holdsAt mount
        { upload := upload
          phase := .atMount own dynamic phase }).toNat =
      if own = mount then phase.role.held else 0 := by
  let c : SourceConnection :=
    { upload := upload
      phase := .atMount own dynamic phase }
  have hHolds :
      c.holdsAt mount = true ↔ own = mount ∧ phase.Owns :=
    decide_eq_true_iff
  by_cases hMount : own = mount
  · rw [if_pos hMount]
    by_cases hOwns : phase.Owns
    · rw [hHolds.mpr ⟨hMount, hOwns⟩, phase.owns_iff.mp hOwns]
      rfl
    · have hNot : c.holdsAt mount = false :=
        eq_false_of_ne_true fun h => hOwns (hHolds.mp h).2
      rw [hNot]
      rcases hRole : phase.role
      case holding =>
        exact absurd (phase.owns_iff.mpr hRole) hOwns
      all_goals rfl
  · have hNot : c.holdsAt mount = false :=
      eq_false_of_ne_true fun h => hMount (hHolds.mp h).1
    rw [if_neg hMount, hNot]
    rfl

theorem RunningTask.toNat_ownsAt
    (r : RunningTask)
    (mount : MountId) :
    (r.ownsAt mount).toNat =
      if r.mount = mount then r.task.owned else 0 := by
  unfold ownsAt Task.owned
  by_cases hMount : r.mount = mount <;>
    by_cases hOwns : r.task.Owns <;> simp [hMount, hOwns]

namespace ServerState

theorem heap_afterTurn
    (upload : SourceUpload)
    (phase : SourcePhase)
    (s : ServerState) :
    (upload.afterTurn phase s).heap = s.heap := by
  unfold SourceUpload.afterTurn
  split <;> rfl

theorem nextMount_afterTurn
    (upload : SourceUpload)
    (phase : SourcePhase)
    (s : ServerState) :
    (upload.afterTurn phase s).nextMount = s.nextMount := by
  unfold SourceUpload.afterTurn
  split <;> rfl

/- The guard of a dynamic source removes its path, last. -/
theorem afterTurn_cases
    (upload : SourceUpload)
    (phase : SourcePhase)
    (s : ServerState) :
    (∃ rest,
      phase = .dropping (.removeMount :: rest) ∧
        upload.afterTurn phase s =
          s.unregister upload.path) ∨
      upload.afterTurn phase s = s := by
  unfold SourceUpload.afterTurn
  split
  · exact .inl ⟨_, rfl, rfl⟩
  · exact .inr rfl

theorem withSlot_heap_other
    (s : ServerState)
    {mount other : MountId}
    (slot : Slot)
    (hOther : other ≠ mount) :
    (s.withSlot mount slot).heap other = s.heap other := by
  simp [withSlot, hOther]

/- A kick cancels a token and nothing else. -/
theorem connected_kick
    (s : ServerState)
    (mount other : MountId) :
    ((s.withSlot mount (s.slotAt mount).kick).heap
        other).sourceConnected =
      (s.heap other).sourceConnected := by
  by_cases hOther : other = mount
  · subst hOther
    rw [withSlot_heap_self]
    exact congrArg Gate.connected
      (Slot.gate_kick (s.slotAt other))
  · rw [withSlot_heap_other s _ hOther]

end ServerState

namespace SourceServer

variable {s : SourceServer}

/-
  A turn of a handler or a task at one mount changes its part
  of the count and the flag of that mount.
-/
theorem counted_of_sourceTurn
    {i : Nat}
    {mount at' : MountId}
    {upload : SourceUpload}
    {dynamic : Bool}
    {own own' : SourcePhase}
    {env : SourceEnv}
    {slot : Slot}
    (hSome :
      s.sources[i]? =
        some
          { upload := upload
            phase := .atMount mount dynamic own })
    (hMove :
      SourceMove env own (s.server.slotAt mount).gate own.role
        slot.gate own'.role)
    (hCounted :
      s.sourcesAt at' + s.tasksAt at' ≤ s.flag at') :
    (s.sources.set i
          { upload := upload
            phase := .atMount mount dynamic own' }).countP
        (SourceConnection.holdsAt at') + s.tasksAt at' ≤
      ((s.server.withSlot mount slot).heap
        at').sourceConnected.toNat := by
  obtain ⟨others, hBefore, hAfter⟩ :=
    Library.countP_beside (SourceConnection.holdsAt at') hSome
  unfold sourcesAt at hCounted
  rw [hAfter]
  rw [hBefore] at hCounted
  rw [SourceConnection.toNat_holdsAt] at hCounted ⊢
  by_cases hMount : mount = at'
  · subst hMount
    rw [if_pos rfl, Nat.add_assoc] at hCounted ⊢
    rw [ServerState.withSlot_heap_self]
    exact held_of_sourceMove hMove hCounted
  · rw [if_neg hMount] at hCounted ⊢
    rw [ServerState.withSlot_heap_other _ _
      (Ne.symm hMount)]
    exact hCounted

theorem counted_of_taskTurn
    {k now : Nat}
    {at' : MountId}
    {event : TaskEvent}
    {r : RunningTask}
    {task : Task}
    {slot : Slot}
    (hSome : s.tasks[k]? = some r)
    (hProper : r.task.Proper)
    (hStep :
      r.task.step r.stopped now (s.server.slotAt r.mount)
        event = some (task, slot))
    (hCounted :
      s.sourcesAt at' + s.tasksAt at' ≤ s.flag at') :
    s.sourcesAt at' +
        (s.tasks.set k { r with task := task }).countP
          (RunningTask.ownsAt at') ≤
      ((s.server.withSlot r.mount slot).heap
        at').sourceConnected.toNat := by
  obtain ⟨others, hBefore, hAfter⟩ :=
    Library.countP_beside (RunningTask.ownsAt at') hSome
  unfold tasksAt at hCounted
  rw [hAfter]
  rw [hBefore] at hCounted
  rw [RunningTask.toNat_ownsAt, Nat.add_left_comm]
    at hCounted ⊢
  by_cases hMount : r.mount = at'
  · subst hMount
    rw [if_pos rfl] at hCounted ⊢
    rw [ServerState.withSlot_heap_self]
    exact Task.owned_of_step hProper hStep hCounted
  · rw [if_neg hMount] at hCounted ⊢
    rw [ServerState.withSlot_heap_other _ _
      (Ne.symm hMount)]
    exact hCounted

end SourceServer

end RustyIce

------------------------------------------------------------
-- Every Event Keeps The Invariant
------------------------------------------------------------

namespace RustyIce

theorem SourceConnection.holdsAt_eq_false
    {c : SourceConnection}
    {mount : MountId}
    (hNot : ¬ c.phase.Holds mount) :
    c.holdsAt mount = false :=
  decide_eq_false hNot

namespace ConnectionPhase

/- Only a handler at a mount has one in hand. -/
theorem not_has
    {phase : ConnectionPhase}
    (hNone :
      ∀ mount dynamic own,
        phase ≠ .atMount mount dynamic own)
    (mount : MountId) :
    ¬ phase.Has mount := by
  cases phase with
  | atMount own dynamic phase =>
      exact absurd rfl (hNone own dynamic phase)
  | _ => exact id

end ConnectionPhase

/- A turn keeps every handler in the middle of its list. -/
theorem SourceServer.proper_of_source
    {s : SourceServer}
    {moment : Moment}
    {i : Nat}
    {c : SourceConnection}
    {phase : ConnectionPhase}
    {server : ServerState}
    (hProper : ∀ d ∈ s.sources, d.Proper)
    (hSome : s.sources[i]? = some c)
    (hMove :
      UploadMove c.upload moment s.server c.phase phase server) :
    ∀ d ∈ s.sources.set i { c with phase := phase },
      d.Proper := by
  intro d hMem
  have hHere := hProper c (List.mem_of_getElem? hSome)
  obtain ⟨upload, before⟩ := c
  rcases Library.mem_set_cases hMem with rfl | ⟨j, -, hGet⟩
  · cases hMove with
    | found hMount => trivial
    | created => trivial
    | turn hTurn =>
        exact SourcePhase.proper_of_step hHere hTurn
    | aside hBefore hNone =>
        unfold SourceConnection.Proper
        split
        · rename_i hPhase
          exact absurd hPhase (hNone _ _ _)
        · trivial
  · exact hProper d (List.mem_of_getElem? hGet)

namespace SourcesInv

variable {s : SourceServer}

/- No party has a mount in hand that is still to be made. -/
theorem uncreated
    (hInv : SourcesInv s) :
    s.sourcesAt s.server.nextMount +
      s.tasksAt s.server.nextMount = 0 := by
  have hSources : s.sourcesAt s.server.nextMount = 0 := by
    refine List.countP_eq_zero.mpr ?_
    intro c hMem hHolds
    have hMount :=
      hInv.registered c hMem _
        (ConnectionPhase.has_of_holds (of_decide_eq_true hHolds))
    exact absurd (hInv.fresh _ _ hMount) (Nat.lt_irrefl _)
  have hTasks : s.tasksAt s.server.nextMount = 0 := by
    refine List.countP_eq_zero.mpr ?_
    intro r hMem hOwns
    have hMount := hInv.created r hMem
    rw [(of_decide_eq_true hOwns).1] at hMount
    exact absurd hMount (Nat.lt_irrefl _)
  omega

theorem counted_of_source
    {moment : Moment}
    {i : Nat}
    {c : SourceConnection}
    {phase : ConnectionPhase}
    {server : ServerState}
    (hInv : SourcesInv s)
    (hSome : s.sources[i]? = some c)
    (hMove :
      UploadMove c.upload moment s.server c.phase phase server)
    (mount : MountId) :
    (s.sources.set i { c with phase := phase }).countP
        (SourceConnection.holdsAt mount) + s.tasksAt mount ≤
      (server.heap mount).sourceConnected.toNat := by
  have hCounted := hInv.counted mount
  have hAside :
      (¬ c.phase.Holds mount) → (¬ phase.Holds mount) →
        (s.sources.set i { c with phase := phase }).countP
            (SourceConnection.holdsAt mount) =
          s.sourcesAt mount :=
    fun hBefore hAfter =>
      Library.countP_set_uncounted hSome
        (SourceConnection.holdsAt_eq_false hBefore)
        (SourceConnection.holdsAt_eq_false hAfter)
  obtain ⟨upload, before⟩ := c
  cases hMove with
  | found hMount =>
      rw [hAside id fun h => h.2]
      exact hCounted
  | aside hBefore hNone =>
      rw [hAside ?_ ?_]
      · exact hCounted
      · intro hHolds
        rcases hBefore with rfl | rfl <;> exact hHolds
      · exact fun hHolds =>
          ConnectionPhase.not_has hNone mount
            (ConnectionPhase.has_of_holds hHolds)
  | created =>
      rw [hAside id fun h => h.2]
      by_cases hNew : mount = s.server.nextMount
      · rw [hNew, hInv.uncreated]
        exact Nat.zero_le _
      · have hHeap :
            (s.server.createDynamicMount upload.path
              upload.codec).heap mount = s.server.heap mount := by
          simp [ServerState.createDynamicMount,
            ServerState.registerMount, hNew]
        rw [hHeap]
        exact hCounted
  | turn hTurn =>
      rw [ServerState.heap_afterTurn]
      have hProper :=
        hInv.proper _ (List.mem_of_getElem? hSome)
      exact
        SourceServer.counted_of_sourceTurn hSome
          (SourcePhase.move_of_step hProper hTurn) hCounted

theorem registered_of_source
    {moment : Moment}
    {i : Nat}
    {c : SourceConnection}
    {phase : ConnectionPhase}
    {server : ServerState}
    (hInv : SourcesInv s)
    (hAlone : Alone s (.source i moment))
    (hSome : s.sources[i]? = some c)
    (hMove :
      UploadMove c.upload moment s.server c.phase phase server) :
    ∀ d ∈ s.sources.set i { c with phase := phase }, ∀ mount,
      d.phase.Has mount →
        server.mounts d.upload.path = some mount := by
  intro d hMem mount hHas
  have hApart := hAlone c hSome
  obtain ⟨upload, before⟩ := c
  rcases Library.mem_set_cases hMem with
    rfl | ⟨j, hOther, hGet⟩
  · cases hMove with
    | found hMount =>
        rw [← hHas.1]
        exact hMount
    | aside hBefore hNone =>
        exact absurd hHas (ConnectionPhase.not_has hNone mount)
    | created =>
        rw [← hHas.1]
        exact MountRegistry.add_self _ _ _
    | @turn own dynamic phase _ slot hTurn =>
        obtain ⟨rfl, hHand⟩ := hHas
        have hBefore := SourcePhase.inHand_of_step hTurn hHand
        have hMem := List.mem_of_getElem? hSome
        rcases ServerState.afterTurn_cases upload phase
            (s.server.withSlot own slot) with
          ⟨rest, rfl, -⟩ | hSame
        · have hLast := removeMount_last (hInv.proper _ hMem)
          subst hLast
          cases hTurn
          simp [SourcePhase.InHand] at hHand
        · rw [hSame]
          exact hInv.registered _ hMem own ⟨rfl, hBefore⟩
  · have hOld :=
      hInv.registered d (List.mem_of_getElem? hGet) mount hHas
    have hErased : d ∈ s.sources.eraseIdx i :=
      List.mem_eraseIdx_iff_getElem?.mpr ⟨j, hOther, hGet⟩
    have hHand := ConnectionPhase.inHand_of_has hHas
    cases hMove with
    | found hMount => exact hOld
    | aside hBefore hNone => exact hOld
    | created =>
        have hPath : d.upload.path ≠ upload.path :=
          fun hSame => hApart trivial d hErased hSame hHand
        exact (MountRegistry.add_other _ _ hPath).trans hOld
    | @turn own dynamic phase _ slot hTurn =>
        rcases ServerState.afterTurn_cases upload phase
            (s.server.withSlot own slot) with
          ⟨rest, rfl, hRemoved⟩ | hSame
        · have hPath : d.upload.path ≠ upload.path :=
            fun hSame => hApart trivial d hErased hSame hHand
          rw [hRemoved]
          exact (MountRegistry.remove_other _ hPath).trans hOld
        · rw [hSame]
          exact hOld

theorem nextMount_of_source
    {upload : SourceUpload}
    {moment : Moment}
    {server server' : ServerState}
    {phase phase' : ConnectionPhase}
    (hMove :
      UploadMove upload moment server phase phase' server') :
    server.nextMount ≤ server'.nextMount := by
  cases hMove with
  | found hMount => exact Nat.le_refl _
  | aside hBefore hNone => exact Nat.le_refl _
  | created => exact Nat.le_succ _
  | turn hTurn =>
      rw [ServerState.nextMount_afterTurn]
      exact Nat.le_refl _

theorem arrive
    (hInv : SourcesInv s)
    (upload : SourceUpload) :
    SourcesInv
      { s with
        sources :=
          s.sources ++
            [{ upload := upload, phase := .lookup }] } where
  fresh := hInv.fresh
  tasksProper := hInv.tasksProper
  created := hInv.created
  proper := by
    intro c hMem
    rcases List.mem_append.mp hMem with hOld | hNew
    · exact hInv.proper c hOld
    · rw [List.mem_singleton.mp hNew]
      trivial
  registered := by
    intro c hMem mount hHas
    rcases List.mem_append.mp hMem with hOld | hNew
    · exact hInv.registered c hOld mount hHas
    · rw [List.mem_singleton.mp hNew] at hHas
      exact absurd hHas id
  counted := by
    intro mount
    have hCounted := hInv.counted mount
    simp only [SourceServer.sourcesAt, List.countP_append]
      at hCounted ⊢
    exact hCounted

/- A fresh task owns nothing. -/
theorem spawn
    {mount : MountId}
    {task : Task}
    (hInv : SourcesInv s)
    (hFresh : task.Fresh)
    (hCreated : mount < s.server.nextMount) :
    SourcesInv
      { s with
        tasks :=
          s.tasks ++
            [{ mount := mount
               stopped := false
               task := task }] } where
  fresh := hInv.fresh
  proper := hInv.proper
  registered := hInv.registered
  tasksProper := by
    intro r hMem
    rcases List.mem_append.mp hMem with hOld | hNew
    · exact hInv.tasksProper r hOld
    · rw [List.mem_singleton.mp hNew]
      exact hFresh.proper
  created := by
    intro r hMem
    rcases List.mem_append.mp hMem with hOld | hNew
    · exact hInv.created r hOld
    · rw [List.mem_singleton.mp hNew]
      exact hCreated
  counted := by
    intro at'
    have hCounted := hInv.counted at'
    have hNone :
        RunningTask.ownsAt at'
          { mount := mount, stopped := false, task := task } =
          false :=
      decide_eq_false fun h => hFresh.not_owns h.2
    simp only [SourceServer.tasksAt, List.countP_append,
      List.countP_singleton, hNone] at hCounted ⊢
    exact hCounted

theorem stop
    {k : Nat}
    {r : RunningTask}
    (hInv : SourcesInv s)
    (hSome : s.tasks[k]? = some r) :
    SourcesInv
      { s with
        tasks :=
          s.tasks.set k { r with stopped := true } } where
  fresh := hInv.fresh
  proper := hInv.proper
  registered := hInv.registered
  tasksProper := by
    intro other hOther
    rcases Library.mem_set_cases hOther with
      rfl | ⟨j, -, hGet⟩
    · exact hInv.tasksProper r (List.mem_of_getElem? hSome)
    · exact hInv.tasksProper other (List.mem_of_getElem? hGet)
  created := by
    intro other hOther
    rcases Library.mem_set_cases hOther with
      rfl | ⟨j, -, hGet⟩
    · exact hInv.created r (List.mem_of_getElem? hSome)
    · exact hInv.created other (List.mem_of_getElem? hGet)
  counted := by
    intro at'
    have hCounted := hInv.counted at'
    obtain ⟨others, hBefore, hAfter⟩ :=
      Library.countP_beside (RunningTask.ownsAt at') hSome
    simp only [SourceServer.tasksAt, hAfter] at hCounted ⊢
    rw [hBefore] at hCounted
    exact hCounted

/- Each event keeps the invariant. -/
theorem step
    {t : SourceServer}
    {label : SourceLabel}
    (hInv : SourcesInv s)
    (hAlone : Alone s label)
    (hStep : s.step label = some t) :
    SourcesInv t := by
  cases label with
  | arrive upload =>
      cases hStep
      exact hInv.arrive upload
  | source i moment =>
      simp only [SourceServer.step] at hStep
      split at hStep
      · cases hStep
      · rename_i c hSome
        split at hStep
        · cases hStep
        · rename_i phase server hTurn
          cases hStep
          have hMove := SourceUpload.move_of_step hTurn
          exact
            { fresh := fresh_of_step hInv.fresh hTurn
              proper :=
                SourceServer.proper_of_source hInv.proper hSome
                  hMove
              tasksProper := hInv.tasksProper
              created := fun r hMem =>
                (hInv.created r hMem).trans_le
                  (nextMount_of_source hMove)
              registered :=
                hInv.registered_of_source hAlone hSome hMove
              counted :=
                hInv.counted_of_source hSome hMove }
  | spawn mount task =>
      simp only [SourceServer.step] at hStep
      split at hStep
      · rename_i hFresh
        cases hStep
        exact hInv.spawn hFresh.1 hFresh.2
      · cases hStep
  | task k now event =>
      simp only [SourceServer.step] at hStep
      split at hStep
      · cases hStep
      · rename_i r hSome
        split at hStep
        · cases hStep
        · rename_i task slot hTurn
          cases hStep
          have hMem := List.mem_of_getElem? hSome
          have hProper := hInv.tasksProper r hMem
          exact
            { fresh := hInv.fresh
              proper := hInv.proper
              tasksProper := by
                intro other hOther
                rcases Library.mem_set_cases hOther with
                  rfl | ⟨j, -, hGet⟩
                · exact Task.proper_of_step hProper hTurn
                · exact hInv.tasksProper other
                    (List.mem_of_getElem? hGet)
              created := by
                intro other hOther
                rcases Library.mem_set_cases hOther with
                  rfl | ⟨j, -, hGet⟩
                · exact hInv.created r hMem
                · exact hInv.created other
                    (List.mem_of_getElem? hGet)
              registered := hInv.registered
              counted := fun at' =>
                SourceServer.counted_of_taskTurn hSome hProper
                  hTurn (hInv.counted at') }
  | stop k =>
      simp only [SourceServer.step] at hStep
      split at hStep
      · cases hStep
      · rename_i r hSome
        cases hStep
        exact hInv.stop hSome
  | kick mount =>
      cases hStep
      exact
        { fresh := hInv.fresh
          proper := hInv.proper
          tasksProper := hInv.tasksProper
          created := hInv.created
          registered := hInv.registered
          counted := by
            intro at'
            have hCounted := hInv.counted at'
            unfold SourceServer.flag at hCounted ⊢
            rw [ServerState.connected_kick]
            exact hCounted }

end SourcesInv

end RustyIce

------------------------------------------------------------
-- One Source Per Path, While Alone
------------------------------------------------------------

namespace RustyIce

theorem sourcesInv_init
    {s : SourceServer}
    (hInit : sourceMachine.init s) :
    SourcesInv s := by
  obtain ⟨hFresh, hFree, hSources, hTasks⟩ := hInit
  constructor
  · exact hFresh
  · intro c hMem
    rw [hSources] at hMem
    cases hMem
  · intro r hMem
    rw [hTasks] at hMem
    cases hMem
  · intro r hMem
    rw [hTasks] at hMem
    cases hMem
  · intro c hMem
    rw [hSources] at hMem
    cases hMem
  · intro mount
    simp [SourceServer.sourcesAt, SourceServer.tasksAt,
      hSources, hTasks]

/-
  While mounts are created and removed by requests that are
  alone at their path, no path ever has two sources.
-/
theorem one_source_per_path
    {s : SourceServer}
    (hReach : sourceMachine.ReachableUnder Alone s) :
    OneSourcePerPath s := by
  apply SourcesInv.one_source
  apply hReach.invariant
  · intro t
    exact sourcesInv_init
  · intro t label u hInv hAlone hStep
    exact hInv.step hAlone hStep

/- A server that takes sources at any path. -/
def openServer : SourceServer where
  server :=
    bootstrap
      { Config.bare with
        auth :=
          { Config.bare.auth with
            sourcePassword := some "hackme" } }
  sources := []
  tasks := []

def openUpload : SourceUpload where
  path := "/live"
  password := "hackme"
  contentType := none
  overlay :=
    { name := none
      description := none
      genre := none
      url := none
      isPublic := none
      audioInfo := none
      bitrateKbps := none }

theorem init_openServer : sourceMachine.init openServer :=
  ⟨fresh_bootstrap _, fun _ => rfl, rfl, rfl⟩

/- Turns of one request. -/
def turns (i count : Nat) : List SourceLabel :=
  List.replicate count
    (.source i { now := 0, expired := false })

/- A first connect is one source of its path. -/
theorem one_source_per_path_firstConnect :
    ∃ s,
      sourceMachine.runUnder Alone openServer
          (.arrive openUpload :: turns 0 6) = some s ∧
        OneSourcePerPath s := by
  have hRun :
      sourceMachine.runUnder Alone openServer
        (.arrive openUpload :: turns 0 6) = some _ := rfl
  exact
    ⟨_, hRun,
      one_source_per_path
        (Library.Machine.reachableUnder_of_runUnder
          init_openServer hRun)⟩

/-
  Two first connects: both find the path unknown, and each
  creates and claims a mount of its own.
-/
def twoFirstConnects : List SourceLabel :=
  .arrive openUpload :: .arrive openUpload ::
    (turns 0 2 ++ turns 1 2 ++ turns 0 3 ++ turns 1 3)

theorem twoFirstConnects_both :
    ∃ s,
      sourceMachine.Reachable s ∧ ¬ OneSourcePerPath s := by
  have hRun :
      sourceMachine.run openServer twoFirstConnects =
        some _ := rfl
  refine
    ⟨_, Library.Machine.reachable_of_run init_openServer hRun,
      ?_⟩
  intro hOne
  have hSame :=
    hOne.unique 0 1 _ _ 0 1 rfl rfl rfl ⟨rfl, trivial⟩
      ⟨rfl, trivial⟩
  cases hSame

end RustyIce

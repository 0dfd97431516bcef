import RustyIce.Server.SourceServer
import RustyIce.Server.SourceAuth

/-
  What a disconnecting source tears down: sources, listeners
  and reloads on one server, in any order.

  A listener subscribes to the bus of the mount it finds and
  is registered under the path in a later step. The guard of
  a source works by the path: it cancels who is registered
  under it, and a dynamic one removes what the registry has
  there.

  Main declarations:
    * `LiveServer`, `liveMachine`
    * `Confined`, `Apart`
    * `guard_confined`
-/

------------------------------------------------------------
-- Sources, Listeners And Reloads
------------------------------------------------------------

namespace RustyIce

/- A listener on its way into the map. -/
structure PendingListener where
  path : String
  mount : MountId
deriving DecidableEq, Repr

/- An entry of the map, and the mount whose bus it hears. -/
structure ListenerEntry where
  path : String
  mount : MountId
  cancelled : Bool
deriving DecidableEq, Repr

structure LiveServer where
  base : SourceServer
  reloading : Option Reloading
  listening : List PendingListener
  listeners : List ListenerEntry

inductive LiveLabel where
| base (label : SourceLabel)
| apply (new : Config)
| iterate
| store
| subscribe (path : String)
| register (j : Nat)
| leave (k : Nat)
deriving DecidableEq, Repr

namespace ConnectionPhase

/- The next turn of the handler kicks the listeners. -/
def Kicks : ConnectionPhase → Prop
| .atMount _ _ (.dropping (.kickListeners :: _)) => True
| _ => False

instance (phase : ConnectionPhase) :
    Decidable phase.Kicks := by
  unfold Kicks
  split <;> infer_instance

end ConnectionPhase

/- Cancel every listener registered under a path. -/
def kickAll
    (path : String)
    (listeners : List ListenerEntry) : List ListenerEntry :=
  listeners.map fun l =>
    if l.path = path then { l with cancelled := true } else l

namespace LiveServer

/- The listeners after an event at the sources. -/
def kicked
    (s : LiveServer)
    (label : SourceLabel) : List ListenerEntry :=
  match label with
  | .source i _ =>
      match s.base.sources[i]? with
      | none => s.listeners
      | some c =>
          if c.phase.Kicks then
            kickAll c.upload.path s.listeners
          else s.listeners
  | _ => s.listeners

def withServer
    (s : LiveServer)
    (server : ServerState)
    (reloading : Option Reloading) : LiveServer :=
  { s with
    base := { s.base with server := server }
    reloading := reloading }

def step
    (s : LiveServer) : LiveLabel → Option LiveServer
| .base label =>
    match s.base.step label with
    | none => none
    | some base =>
        some
          { s with
            base := base
            listeners := s.kicked label }
| .apply new =>
    if s.reloading = none ∧ new.validatePaths = .ok () then
      match s.base.server.auth.reload new with
      | .error _ => some s
      | .ok auth =>
          some
            (s.withServer { s.base.server with auth := auth }
              (some
                { old := s.base.server.config
                  new := new
                  todo :=
                    reloadSteps s.base.server.config new }))
    else none
| .iterate =>
    match s.reloading with
    | none => none
    | some r =>
        match r.todo with
        | [] => none
        | step :: rest =>
            some
              (s.withServer (step.exec r.old r.new s.base.server)
                (some { r with todo := rest }))
| .store =>
    match s.reloading with
    | none => none
    | some r =>
        if r.todo = [] then
          some
            (s.withServer
              { s.base.server with config := r.new } none)
        else none
| .subscribe path =>
    match s.base.server.mounts path with
    | none => none
    | some mount =>
        some
          { s with
            listening :=
              s.listening ++ [{ path := path, mount := mount }] }
| .register j =>
    match s.listening[j]? with
    | none => none
    | some l =>
        some
          { s with
            listening := s.listening.eraseIdx j
            listeners :=
              s.listeners ++
                [{ path := l.path
                   mount := l.mount
                   cancelled := false }] }
| .leave k =>
    some { s with listeners := s.listeners.eraseIdx k }

end LiveServer

def liveMachine :
    Library.Machine LiveServer LiveLabel where
  init := fun s =>
    sourceMachine.init s.base ∧ s.reloading = none ∧
      s.listening = [] ∧ s.listeners = []
  step := LiveServer.step

end RustyIce

------------------------------------------------------------
-- Confined Guards
------------------------------------------------------------

namespace RustyIce

/-
  What a turn of the guard of a source on `mount` leaves as
  it was, up to its own: it removes that mount, at a path
  the configuration does not list, or nothing; and it cancels
  listeners of that mount.
-/
structure OwnOnly
    (s t : LiveServer)
    (path : String)
    (mount : MountId) : Prop where
  removes :
    t.base.server.mounts = s.base.server.mounts ∨
      (s.base.server.mounts path = some mount ∧
        path ∉ s.base.server.config.allPaths ∧
          t.base.server.mounts =
            s.base.server.mounts.remove path)
  cancels :
    ∀ (k : Nat) (l : ListenerEntry),
      s.listeners[k]? = some l →
        t.listeners[k]? = some l ∨
          (l.mount = mount ∧
            t.listeners[k]? = some { l with cancelled := true })

/- Every guard that can take a turn tears down its own. -/
def Confined (s : LiveServer) : Prop :=
  ∀ (i : Nat) (moment : Moment) (t : LiveServer)
    (c : SourceConnection) (mount : MountId) (dynamic : Bool)
    (todo : List SlotOp),
    s.base.sources[i]? = some c →
      c.phase = .atMount mount dynamic (.dropping todo) →
        s.step (.base (.source i moment)) = some t →
          OwnOnly s t c.upload.path mount

/-
  The guard is yet to do this, or the handler is yet to have
  its guard.
-/
def SourcePhase.Yet (op : SlotOp) : SourcePhase → Prop
| .rejected _ => False
| .over => False
| .dropping todo => op ∈ todo
| _ => True

instance
    (op : SlotOp)
    (phase : SourcePhase) :
    Decidable (phase.Yet op) :=
  match phase with
  | .rejected _ | .over => inferInstanceAs (Decidable False)
  | .dropping todo => inferInstanceAs (Decidable (op ∈ todo))
  | .checkConnected | .checkKind | .setPending | .readCancel
  | .cancelOwner _ | .polling | .verify | .checkCodec | .claim
  | .installing _ _ | .streaming _ =>
      inferInstanceAs (Decidable True)

/- The mount of a handler whose guard is yet to do this. -/
def ConnectionPhase.yet
    (op : SlotOp) : ConnectionPhase → Option MountId
| .atMount own dynamic phase =>
    if op ∈ guardDrop dynamic ∧ phase.Yet op then some own
    else none
| _ => none

/- A path of the configuration, or of the one on its way. -/
def LiveServer.Lists
    (s : LiveServer)
    (path : String) : Prop :=
  path ∈ s.base.server.config.allPaths ∨
    ∃ r ∈ s.reloading, path ∈ r.new.allPaths

instance
    (s : LiveServer)
    (path : String) :
    Decidable (s.Lists path) := by
  unfold LiveServer.Lists
  infer_instance

/-
  What keeps the mounts of a path apart.

  A request finds a mount only if no listener of the path
  still hears another one, and creates one only for a path
  that is not listed, where no listener is left and no other
  source is to unregister the path. A listener is registered
  only if no source of the path is on another mount. A reload
  lists no path that a source is to unregister.
-/
def Apart (s : LiveServer) : LiveLabel → Prop
| .base (.source i _) =>
    ∀ c ∈ s.base.sources[i]?,
      (c.phase = .lookup →
        ∀ mount ∈ s.base.server.mounts c.upload.path,
          ∀ l ∈ s.listeners,
            l.path = c.upload.path →
              l.cancelled = false → l.mount = mount) ∧
        (c.phase = .create →
          ¬ s.Lists c.upload.path ∧
            (∀ l ∈ s.listeners,
              l.path = c.upload.path → l.cancelled = true) ∧
              ∀ d ∈ s.base.sources.eraseIdx i,
                d.upload.path = c.upload.path →
                  d.phase.yet .removeMount = none)
| .register j =>
    ∀ l ∈ s.listening[j]?, ∀ c ∈ s.base.sources,
      c.upload.path = l.path →
        ∀ mount ∈ c.phase.yet .kickListeners,
          l.mount = mount
| .apply new =>
    ∀ c ∈ s.base.sources,
      c.phase.yet .removeMount ≠ none →
        c.upload.path ∉ new.allPaths
| _ => True

instance
    (s : LiveServer)
    (label : LiveLabel) :
    Decidable (Apart s label) := by
  unfold Apart
  split <;> infer_instance

end RustyIce

------------------------------------------------------------
-- The Invariant
------------------------------------------------------------

namespace RustyIce

/-
  Who is to unregister a path does so for its own mount and
  an unlisted path; who is to kick the listeners of a path is
  heard by all of them.
-/
structure ApartInv (s : LiveServer) : Prop where
  proper : ∀ c ∈ s.base.sources, c.Proper
  ownMount :
    ∀ c ∈ s.base.sources,
      ∀ mount ∈ c.phase.yet .removeMount,
        ∀ other ∈ s.base.server.mounts c.upload.path,
          other = mount
  unlisted :
    ∀ c ∈ s.base.sources,
      c.phase.yet .removeMount ≠ none →
        ¬ s.Lists c.upload.path
  ownListeners :
    ∀ c ∈ s.base.sources,
      ∀ mount ∈ c.phase.yet .kickListeners,
        ∀ l ∈ s.listeners,
          l.path = c.upload.path →
            l.cancelled = false → l.mount = mount
  iterations :
    ∀ r ∈ s.reloading, ∀ step ∈ r.todo,
      step ∈ reloadSteps r.old r.new

theorem ConnectionPhase.mem_yet_iff
    {op : SlotOp}
    {own mount : MountId}
    {dynamic : Bool}
    {phase : SourcePhase} :
    mount ∈ (ConnectionPhase.atMount own dynamic phase).yet
        op ↔
      own = mount ∧ op ∈ guardDrop dynamic ∧
        phase.Yet op := by
  rw [ConnectionPhase.yet]
  split_ifs with hYet
  · simp [hYet.1, hYet.2]
  · simp only [Option.mem_def, reduceCtorEq, false_iff]
    exact fun h => hYet h.2

/- A turn of a handler brings its guard no new work. -/
theorem SourcePhase.yet_of_step
    {op : SlotOp}
    {req : SourceRequest}
    {env : SourceEnv}
    {s s' : Slot}
    {phase phase' : SourcePhase}
    (hStep : phase.step req env s = some (phase', s'))
    (hNext : phase'.Yet op) :
    phase.Yet op := by
  cases phase with
  | rejected status => cases hStep
  | «over» => cases hStep
  | dropping todo =>
      cases todo with
      | nil =>
          cases hStep
          exact absurd hNext id
      | cons first rest =>
          cases hStep
          exact List.mem_cons_of_mem _ hNext
  | _ => trivial

/- Every turn of the guard is one of its list. -/
theorem yet_of_dropping
    {upload : SourceUpload}
    {mount : MountId}
    {dynamic : Bool}
    {op : SlotOp}
    {rest : List SlotOp}
    (hProper :
      SourceConnection.Proper
        { upload := upload
          phase :=
            .atMount mount dynamic (.dropping (op :: rest)) }) :
    mount ∈
      (ConnectionPhase.atMount mount dynamic
        (.dropping (op :: rest))).yet op := by
  have hSuffix : op :: rest <:+ guardDrop dynamic := hProper
  exact ConnectionPhase.mem_yet_iff.mpr
    ⟨rfl, hSuffix.subset List.mem_cons_self,
      List.mem_cons_self⟩

/- What an event at a request does to the whole server. -/
theorem LiveServer.source_cases
    {t : LiveServer}
    {i : Nat}
    {moment : Moment}
    (s : LiveServer)
    (hStep : s.step (.base (.source i moment)) = some t) :
    ∃ c phase server,
      s.base.sources[i]? = some c ∧
        UploadMove c.upload moment s.base.server c.phase phase
            server ∧
          t =
            { s with
              base :=
                { s.base with
                  server := server
                  sources :=
                    s.base.sources.set i
                      { c with phase := phase } }
              listeners :=
                if c.phase.Kicks then
                  kickAll c.upload.path s.listeners
                else s.listeners } := by
  simp only [step, SourceServer.step, kicked] at hStep
  split at hStep
  · cases hStep
  · rename_i base hBase
    split at hBase
    · cases hBase
    · rename_i c hSome
      split at hBase
      · cases hBase
      · rename_i phase server hTurn
        cases hBase
        cases hStep
        exact
          ⟨c, phase, server, hSome,
            SourceUpload.move_of_step hTurn, by rw [hSome]⟩

namespace ApartInv

variable {s : LiveServer}

/- What kicking a path does to one entry of the map. -/
theorem kickAll_cases
    {listeners : List ListenerEntry}
    {k : Nat}
    {l : ListenerEntry}
    (path : String)
    (hGet : listeners[k]? = some l) :
    (kickAll path listeners)[k]? = some l ∨
      (l.path = path ∧ l.cancelled = false ∧
        (kickAll path listeners)[k]? =
          some { l with cancelled := true }) := by
  rw [kickAll, List.getElem?_map, hGet, Option.map_some]
  by_cases hPath : l.path = path
  · rw [if_pos hPath]
    obtain ⟨own, mount, cancelled⟩ := l
    rcases cancelled with _ | _
    · exact .inr ⟨hPath, rfl, rfl⟩
    · exact .inl rfl
  · rw [if_neg hPath]
    exact .inl rfl

theorem confined
    (hInv : ApartInv s) :
    Confined s := by
  intro i moment t c mount dynamic todo hSome hPhase hStep
  obtain ⟨other, phase, server, hOther, hMove, rfl⟩ :=
    LiveServer.source_cases s hStep
  rw [hSome] at hOther
  cases hOther
  have hMem := List.mem_of_getElem? hSome
  have hProper := hInv.proper c hMem
  have hRemoves := hInv.ownMount c hMem
  have hUnlisted := hInv.unlisted c hMem
  have hCancels := hInv.ownListeners c hMem
  obtain ⟨upload, before⟩ := c
  subst hPhase
  constructor
  · obtain ⟨-⟩ | ⟨hBefore, -⟩ | ⟨-⟩ | ⟨hTurn⟩ := hMove
    · rcases hBefore with h | h <;> cases h
    rename_i own' slot
    rcases ServerState.afterTurn_cases upload (.dropping todo)
        (s.base.server.withSlot mount slot) with
      ⟨rest, hTodo, hRemoved⟩ | hSame
    · cases hTodo
      have hYet := yet_of_dropping hProper
      have hNot :
          upload.path ∉ s.base.server.config.allPaths := by
        intro hListed
        refine hUnlisted ?_ (.inl hListed)
        exact Option.ne_none_iff_exists'.mpr ⟨mount, hYet⟩
      rcases hMount : s.base.server.mounts upload.path with
        _ | registered
      · left
        exact
          (congrArg ServerState.mounts hRemoved).trans
            (MountRegistry.remove_of_none hMount)
      · right
        have hOwn := hRemoves mount hYet registered hMount
        subst hOwn
        exact ⟨rfl, hNot, congrArg ServerState.mounts hRemoved⟩
    · left
      have hMounts := congrArg ServerState.mounts hSame
      exact hMounts
  · intro k l hGet
    simp only
    split_ifs with hKicks
    · have hTodo : ∃ rest, todo = .kickListeners :: rest := by
        unfold ConnectionPhase.Kicks at hKicks
        split at hKicks
        · rename_i hDropping
          cases hDropping
          exact ⟨_, rfl⟩
        · exact absurd hKicks id
      obtain ⟨rest, rfl⟩ := hTodo
      rcases kickAll_cases upload.path hGet with
        hKept | ⟨hPath, hOpen, hCancelled⟩
      · exact .inl hKept
      · exact .inr
          ⟨hCancels mount (yet_of_dropping hProper) l
            (List.mem_of_getElem? hGet) hPath hOpen, hCancelled⟩
    · exact .inl hGet

end ApartInv

end RustyIce

------------------------------------------------------------
-- Events At A Request
------------------------------------------------------------

namespace RustyIce

/- The registry changes at the request's path only. -/
theorem UploadMove.mounts_subset
    {upload : SourceUpload}
    {moment : Moment}
    {s s' : ServerState}
    {phase phase' : ConnectionPhase}
    (hMove : UploadMove upload moment s phase phase' s')
    {path : String}
    (hOther : phase = .create → path ≠ upload.path)
    {mount : MountId}
    (hMount : mount ∈ s'.mounts path) :
    mount ∈ s.mounts path := by
  cases hMove with
  | found hFound => exact hMount
  | aside hBefore hNone => exact hMount
  | created =>
      have hPath : path ≠ upload.path := hOther rfl
      have hAdd :=
        MountRegistry.add_other s.mounts s.nextMount hPath
      exact hAdd ▸ hMount
  | @turn own dynamic phase _ slot hTurn =>
      rcases ServerState.afterTurn_cases upload phase
          (s.withSlot own slot) with
        ⟨rest, -, hRemoved⟩ | hSame
      · rw [hRemoved] at hMount
        by_cases hPath : path = upload.path
        · have hGone :
              ((s.withSlot own slot).unregister
                upload.path).mounts path = none := by
            rw [hPath]
            exact MountRegistry.remove_self _ _
          rw [hGone] at hMount
          cases hMount
        · have hKept :=
            MountRegistry.remove_other s.mounts hPath
          exact hKept ▸ hMount
      · rw [hSame] at hMount
        exact hMount

theorem UploadMove.config_eq
    {upload : SourceUpload}
    {moment : Moment}
    {s s' : ServerState}
    {phase phase' : ConnectionPhase}
    (hMove : UploadMove upload moment s phase phase' s') :
    s'.config = s.config := by
  cases hMove with
  | found hFound => rfl
  | aside hBefore hNone => rfl
  | created => rfl
  | @turn own dynamic phase _ slot hTurn =>
      rcases ServerState.afterTurn_cases upload phase
          (s.withSlot own slot) with
        ⟨rest, -, hRemoved⟩ | hSame
      · rw [hRemoved]
        rfl
      · rw [hSame]
        rfl

/-
  After a turn a guard is yet to do what it was before, or
  the request just found or created its mount. Only a created
  mount is to be removed.
-/
theorem UploadMove.yet_cases
    {upload : SourceUpload}
    {moment : Moment}
    {s s' : ServerState}
    {phase phase' : ConnectionPhase}
    (hMove : UploadMove upload moment s phase phase' s')
    {op : SlotOp}
    {mount : MountId}
    (hYet : mount ∈ phase'.yet op) :
    mount ∈ phase.yet op ∨
      (phase = .lookup ∧ op ≠ .removeMount ∧
        mount ∈ s.mounts upload.path) ∨
      (phase = .create ∧ mount = s.nextMount ∧
        s'.mounts upload.path = some mount) := by
  cases hMove with
  | found hFound =>
      obtain ⟨rfl, hOp, -⟩ :=
        ConnectionPhase.mem_yet_iff.mp hYet
      refine .inr (.inl ⟨rfl, ?_, hFound⟩)
      rintro rfl
      simp [guardDrop] at hOp
  | aside hBefore hNone =>
      rcases phase' with _ | _ | _ | ⟨own, dynamic, phase⟩ | _
      case atMount => exact absurd rfl (hNone own dynamic phase)
      all_goals cases hYet
  | created =>
      obtain ⟨rfl, -, -⟩ := ConnectionPhase.mem_yet_iff.mp hYet
      exact .inr (.inr
        ⟨rfl, rfl, MountRegistry.add_self _ _ _⟩)
  | turn hTurn =>
      obtain ⟨rfl, hOp, hNext⟩ :=
        ConnectionPhase.mem_yet_iff.mp hYet
      exact .inl
        (ConnectionPhase.mem_yet_iff.mpr
          ⟨rfl, hOp, SourcePhase.yet_of_step hTurn hNext⟩)

/- A request that is to create a mount has none. -/
theorem not_create_of_yet
    {op : SlotOp}
    {phase : ConnectionPhase}
    {mount : MountId}
    {P : Prop}
    (hYet : mount ∈ phase.yet op) :
    phase = .create → P := by
  rintro rfl
  cases hYet

/- A listener that a kick leaves open was there before. -/
theorem mem_of_kickAll
    {path : String}
    {listeners : List ListenerEntry}
    {l : ListenerEntry}
    (hMem : l ∈ kickAll path listeners)
    (hOpen : l.cancelled = false) :
    l ∈ listeners := by
  obtain ⟨before, hBefore, rfl⟩ := List.mem_map.mp hMem
  split_ifs at hOpen ⊢ with hPath
  exact hBefore

namespace ApartInv

variable {s : LiveServer}

/- An event at a request keeps the mounts of a path apart. -/
theorem source
    {t : LiveServer}
    {i : Nat}
    {moment : Moment}
    (hInv : ApartInv s)
    (hApart : Apart s (.base (.source i moment)))
    (hStep : s.step (.base (.source i moment)) = some t) :
    ApartInv t := by
  obtain ⟨c, phase, server, hSome, hMove, rfl⟩ :=
    LiveServer.source_cases s hStep
  obtain ⟨hFinds, hCreates⟩ := hApart c hSome
  have hHere := List.mem_of_getElem? hSome
  constructor
  · exact
      SourceServer.proper_of_source hInv.proper hSome hMove
  · intro d hMem mount hYet other hOther
    rcases Library.mem_set_cases hMem with
      rfl | ⟨j, hPlace, hGet⟩
    · rcases hMove.yet_cases hYet with
        hBefore | ⟨-, hOp, -⟩ | ⟨-, -, hCreated⟩
      · have hThere := hMove.mounts_subset
          (not_create_of_yet hBefore) hOther
        exact hInv.ownMount c hHere mount hBefore other hThere
      · exact absurd rfl hOp
      · exact Option.mem_unique hOther hCreated
    · have hMemOld := List.mem_of_getElem? hGet
      have hErased : d ∈ s.base.sources.eraseIdx i :=
        List.mem_eraseIdx_iff_getElem?.mpr ⟨j, hPlace, hGet⟩
      have hThere := hMove.mounts_subset
        (fun hCreate hPath => by
          have hNone := (hCreates hCreate).2.2 d hErased hPath
          rw [hNone] at hYet
          cases hYet)
        hOther
      exact hInv.ownMount d hMemOld mount hYet other hThere
  · intro d hMem hYet hLists
    have hListed : s.Lists d.upload.path := by
      unfold LiveServer.Lists at hLists ⊢
      simp only [hMove.config_eq] at hLists
      exact hLists
    rcases Library.mem_set_cases hMem with
      rfl | ⟨j, -, hGet⟩
    · obtain ⟨mount, hMount⟩ :=
        Option.ne_none_iff_exists'.mp hYet
      rcases hMove.yet_cases hMount with
        hBefore | ⟨-, hOp, -⟩ | ⟨hCreate, -, -⟩
      · refine hInv.unlisted c hHere ?_ hListed
        exact Option.ne_none_iff_exists'.mpr ⟨mount, hBefore⟩
      · exact absurd rfl hOp
      · exact (hCreates hCreate).1 hListed
    · exact
        hInv.unlisted d (List.mem_of_getElem? hGet) hYet hListed
  · intro d hMem mount hYet l hListener hPath hOpen
    have hThere : l ∈ s.listeners := by
      simp only at hListener
      split_ifs at hListener with hKicks
      · exact mem_of_kickAll hListener hOpen
      · exact hListener
    rcases Library.mem_set_cases hMem with
      rfl | ⟨j, -, hGet⟩
    · rcases hMove.yet_cases hYet with
        hBefore | ⟨hLookup, -, hFound⟩ | ⟨hCreate, -, -⟩
      · exact hInv.ownListeners c hHere mount hBefore l hThere
          hPath hOpen
      · exact hFinds hLookup mount hFound l hThere hPath hOpen
      · have hGone := (hCreates hCreate).2.1 l hThere hPath
        rw [hOpen] at hGone
        cases hGone
    · exact
        hInv.ownListeners d (List.mem_of_getElem? hGet) mount
          hYet l hThere hPath hOpen
  · exact hInv.iterations

end ApartInv

end RustyIce

------------------------------------------------------------
-- Other Events
------------------------------------------------------------

namespace RustyIce

/- The path has the mount it had, or none. -/
def NoNewMount
    (path : String)
    (s t : ServerState) : Prop :=
  (t.view path).mount = (s.view path).mount ∨
    (t.view path).mount = none

theorem NoNewMount.of_view
    {path : String}
    {s t : ServerState}
    (hView : t.view path = s.view path) :
    NoNewMount path s t :=
  .inl (congrArg PathView.mount hView)

/- The removal of an entry registers nothing. -/
theorem noNewMount_dropEntry {Entry : Type}
    (sec : TaskSection Entry)
    (newPaths : List String)
    (s : ServerState)
    (old : Entry)
    (path : String) :
    NoNewMount path s (dropEntry sec newPaths s old) := by
  by_cases hPath : path = sec.path old
  · subst hPath
    by_cases hKept : sec.path old ∈ newPaths
    · exact .of_view
        (view_dropEntry_other sec newPaths s (.inr hKept))
    · right
      rw [view_dropEntry_self sec s hKept]
      rfl
  · exact .of_view
      (view_dropEntry_other sec newPaths s (.inl hPath))

theorem noNewMount_dropMount
    (newPaths : List String)
    (s : ServerState)
    (old : MountConfig)
    (path : String) :
    NoNewMount path s (dropMount newPaths s old) := by
  by_cases hPath : path = old.path
  · subst hPath
    by_cases hKept : old.path ∈ newPaths
    · exact .of_view
        (view_dropMount_other newPaths s (.inr hKept))
    · right
      rw [view_dropMount_self s hKept]
      rfl
  · exact .of_view
      (view_dropMount_other newPaths s (.inl hPath))

/- An iteration registers a path of the new sections only. -/
theorem noNewMount_exec
    {old new : Config}
    {step : ReloadStep}
    (hStep : step ∈ reloadSteps old new)
    {path : String}
    (hUnlisted : path ∉ new.allPaths)
    (s : ServerState) :
    NoNewMount path s (step.exec old new s) := by
  rw [Config.mem_allPaths, not_or, not_or] at hUnlisted
  obtain ⟨hMounts, hAutodjs, hRelays⟩ := hUnlisted
  cases step with
  | unmount mc => exact noNewMount_dropMount _ s mc path
  | stopAutodj ac => exact noNewMount_dropEntry _ _ s ac path
  | stopRelay rc => exact noNewMount_dropEntry _ _ s rc path
  | mount mc =>
      have hMem : mc ∈ new.mounts := by
        simpa [reloadSteps] using hStep
      refine .of_view (view_applyMount_other new s ?_)
      rintro rfl
      exact hMounts (List.mem_map_of_mem hMem)
  | autodj ac =>
      have hMem : ac ∈ new.autodjs := by
        simpa [reloadSteps] using hStep
      refine .of_view (view_applyEntry_other _ _ new s ?_)
      rintro rfl
      exact hAutodjs (List.mem_map_of_mem hMem)
  | relay rc =>
      have hMem : rc ∈ new.relays := by
        simpa [reloadSteps] using hStep
      refine .of_view (view_applyEntry_other _ _ new s ?_)
      rintro rfl
      exact hRelays (List.mem_map_of_mem hMem)

namespace ApartInv

variable {s : LiveServer}

/-
  Events elsewhere: requests come in, and the registry, the
  configuration and the listeners change without touching
  what a guard is yet to do.
-/
theorem frame
    {t : LiveServer}
    (hInv : ApartInv s)
    (hSources :
      ∀ c ∈ t.base.sources,
        c ∈ s.base.sources ∨ c.phase = .lookup)
    (hMounts :
      ∀ c ∈ s.base.sources,
        c.phase.yet .removeMount ≠ none →
          ∀ mount ∈ t.base.server.mounts c.upload.path,
            mount ∈ s.base.server.mounts c.upload.path)
    (hLists :
      ∀ c ∈ s.base.sources,
        c.phase.yet .removeMount ≠ none →
          t.Lists c.upload.path → s.Lists c.upload.path)
    (hListeners :
      ∀ c ∈ s.base.sources,
        ∀ mount ∈ c.phase.yet .kickListeners,
          ∀ l ∈ t.listeners,
            l.path = c.upload.path →
              l ∈ s.listeners ∨ l.mount = mount)
    (hIterations :
      ∀ r ∈ t.reloading, ∀ step ∈ r.todo,
        step ∈ reloadSteps r.old r.new) :
    ApartInv t := by
  have hOld :
      ∀ (op : SlotOp), ∀ c ∈ t.base.sources,
        c.phase.yet op ≠ none → c ∈ s.base.sources := by
    intro op c hMem hYet
    rcases hSources c hMem with hThere | hLookup
    · exact hThere
    · rw [hLookup] at hYet
      exact absurd rfl hYet
  constructor
  · intro c hMem
    rcases hSources c hMem with hThere | hLookup
    · exact hInv.proper c hThere
    · unfold SourceConnection.Proper
      rw [hLookup]
      trivial
  · intro c hMem mount hYet other hOther
    have hSome : c.phase.yet .removeMount ≠ none :=
      Option.ne_none_iff_exists'.mpr ⟨mount, hYet⟩
    have hThere := hOld _ c hMem hSome
    exact hInv.ownMount c hThere mount hYet other
      (hMounts c hThere hSome other hOther)
  · intro c hMem hYet hListed
    have hThere := hOld _ c hMem hYet
    exact hInv.unlisted c hThere hYet
      (hLists c hThere hYet hListed)
  · intro c hMem mount hYet l hListener hPath hOpen
    have hThere := hOld _ c hMem
      (Option.ne_none_iff_exists'.mpr ⟨mount, hYet⟩)
    rcases hListeners c hThere mount hYet l hListener hPath with
      hBefore | hMount
    · exact hInv.ownListeners c hThere mount hYet l hBefore
        hPath hOpen
    · exact hMount
  · exact hIterations

/- Events that leave the sources and the registry alone. -/
theorem aside
    {t : LiveServer}
    (hInv : ApartInv s)
    (hSources :
      ∀ c ∈ t.base.sources,
        c ∈ s.base.sources ∨ c.phase = .lookup)
    (hMounts : t.base.server.mounts = s.base.server.mounts)
    (hConfig : t.base.server.config = s.base.server.config)
    (hReloading : t.reloading = s.reloading)
    (hListeners :
      ∀ c ∈ s.base.sources,
        ∀ mount ∈ c.phase.yet .kickListeners,
          ∀ l ∈ t.listeners,
            l.path = c.upload.path →
              l ∈ s.listeners ∨ l.mount = mount) :
    ApartInv t := by
  refine hInv.frame hSources ?_ ?_ hListeners ?_
  · rw [hMounts]
    exact fun c _ _ mount hMount => hMount
  · unfold LiveServer.Lists
    rw [hConfig, hReloading]
    exact fun c _ _ hListed => hListed
  · rw [hReloading]
    exact hInv.iterations

/- Tasks and kicks stay away from requests and paths. -/
theorem base
    {t : LiveServer}
    {label : SourceLabel}
    (hInv : ApartInv s)
    (hApart : Apart s (.base label))
    (hStep : s.step (.base label) = some t) :
    ApartInv t := by
  cases label with
  | source i moment => exact hInv.source hApart hStep
  | arrive upload =>
      cases hStep
      refine hInv.aside ?_ rfl rfl rfl
        (fun c _ mount _ l hMem _ => .inl hMem)
      intro c hMem
      rcases List.mem_append.mp hMem with hOld | hNew
      · exact .inl hOld
      · rw [List.mem_singleton.mp hNew]
        exact .inr rfl
  | spawn mount task =>
      simp only [LiveServer.step, SourceServer.step] at hStep
      split_ifs at hStep with hFresh
      cases hStep
      exact hInv.aside (fun c hMem => .inl hMem) rfl rfl rfl
        (fun c _ mount _ l hMem _ => .inl hMem)
  | task k now event =>
      simp only [LiveServer.step, SourceServer.step] at hStep
      rcases hSome : s.base.tasks[k]? with _ | r
      · simp [hSome] at hStep
      · simp only [hSome] at hStep
        rcases hTurn :
            r.task.step r.stopped now
              (s.base.server.slotAt r.mount) event with
          _ | ⟨task, slot⟩
        · simp [hTurn] at hStep
        · simp only [hTurn] at hStep
          cases hStep
          exact hInv.aside (fun c hMem => .inl hMem) rfl rfl rfl
            (fun c _ mount _ l hMem _ => .inl hMem)
  | stop k =>
      simp only [LiveServer.step, SourceServer.step] at hStep
      rcases hSome : s.base.tasks[k]? with _ | r
      · simp [hSome] at hStep
      · simp only [hSome] at hStep
        cases hStep
        exact hInv.aside (fun c hMem => .inl hMem) rfl rfl rfl
          (fun c _ mount _ l hMem _ => .inl hMem)
  | kick mount =>
      cases hStep
      exact hInv.aside (fun c hMem => .inl hMem) rfl rfl rfl
        (fun c _ mount _ l hMem _ => .inl hMem)

/- Every event keeps the mounts of a path apart. -/
theorem step
    {t : LiveServer}
    {label : LiveLabel}
    (hInv : ApartInv s)
    (hApart : Apart s label)
    (hStep : s.step label = some t) :
    ApartInv t := by
  cases label with
  | base label => exact hInv.base hApart hStep
  | apply new =>
      simp only [LiveServer.step] at hStep
      split_ifs at hStep with hFree
      split at hStep
      · cases hStep
        exact hInv
      · cases hStep
        refine hInv.frame (fun c hMem => .inl hMem)
          (fun c _ _ mount hMount => hMount) ?_
          (fun c _ mount _ l hMem _ => .inl hMem) ?_
        · intro c hMem hYet hListed
          rcases hListed with hOld | ⟨r, hSome, hNew⟩
          · exact .inl hOld
          · cases hSome
            exact absurd hNew (hApart c hMem hYet)
        · rintro r hSome step hOther
          cases hSome
          exact hOther
  | iterate =>
      simp only [LiveServer.step] at hStep
      split at hStep
      · cases hStep
      · rename_i r hReload
        split at hStep
        · cases hStep
        · rename_i step rest hTodo
          have hMember := hInv.iterations r hReload
          rw [hTodo] at hMember
          have hFirst := hMember step List.mem_cons_self
          cases hStep
          refine hInv.frame (fun c hMem => .inl hMem) ?_ ?_
            (fun c _ mount _ l hMem _ => .inl hMem) ?_
          · intro c hMem hYet mount hMount
            have hNot : c.upload.path ∉ r.new.allPaths :=
              fun hListed =>
                hInv.unlisted c hMem hYet
                  (.inr ⟨r, hReload, hListed⟩)
            rcases noNewMount_exec hFirst hNot
                s.base.server with hSame | hNone
            · exact hSame.symm.trans hMount
            · exact absurd (hNone.symm.trans hMount)
                (Option.some_ne_none mount).symm
          · intro c hMem hYet hListed
            have hConfig :
                (step.exec r.old r.new s.base.server).config =
                  s.base.server.config :=
              congrArg Prod.fst
                (settings_exec r.old r.new s.base.server step)
            rcases hListed with hOld | ⟨r', hSome, hNew⟩
            · left
              rw [← hConfig]
              exact hOld
            · cases hSome
              exact .inr ⟨r, hReload, hNew⟩
          · rintro r' hSome other hOther
            cases hSome
            exact hMember other (List.mem_cons_of_mem _ hOther)
  | store =>
      simp only [LiveServer.step] at hStep
      split at hStep
      · cases hStep
      · rename_i r hReload
        split_ifs at hStep
        cases hStep
        refine hInv.frame (fun c hMem => .inl hMem)
          (fun c _ _ mount hMount => hMount) ?_
          (fun c _ mount _ l hMem _ => .inl hMem) ?_
        · intro c hMem hYet hListed
          rcases hListed with hNew | ⟨r', hSome, -⟩
          · exact .inr ⟨r, hReload, hNew⟩
          · cases hSome
        · rintro r' hSome
          cases hSome
  | subscribe path =>
      simp only [LiveServer.step] at hStep
      split at hStep
      · cases hStep
      · cases hStep
        exact hInv.aside (fun c hMem => .inl hMem) rfl rfl rfl
          (fun c _ mount _ l hMem _ => .inl hMem)
  | register j =>
      simp only [LiveServer.step] at hStep
      split at hStep
      · cases hStep
      · rename_i pending hSome
        cases hStep
        refine hInv.aside (fun c hMem => .inl hMem) rfl rfl rfl
          ?_
        intro c hMem mount hYet l hListener hPath
        rcases List.mem_append.mp hListener with hOld | hNew
        · exact .inl hOld
        · right
          rw [List.mem_singleton.mp hNew] at hPath ⊢
          exact hApart pending hSome c hMem hPath.symm mount hYet
  | leave k =>
      cases hStep
      exact hInv.aside (fun c hMem => .inl hMem) rfl rfl rfl
        (fun c _ mount _ l hMem _ =>
          .inl (List.mem_of_mem_eraseIdx hMem))

end ApartInv

end RustyIce

------------------------------------------------------------
-- Guards In A Run
------------------------------------------------------------

namespace RustyIce

theorem apartInv_init
    {s : LiveServer}
    (hInit : liveMachine.init s) :
    ApartInv s := by
  obtain ⟨⟨-, -, hSources, -⟩, hReloading, -, -⟩ := hInit
  constructor
  · intro c hMem
    rw [hSources] at hMem
    cases hMem
  · intro c hMem
    rw [hSources] at hMem
    cases hMem
  · intro c hMem
    rw [hSources] at hMem
    cases hMem
  · intro c hMem
    rw [hSources] at hMem
    cases hMem
  · intro r hSome
    rw [hReloading] at hSome
    cases hSome

/-
  While the mounts of a path are kept apart, a disconnecting
  source tears down its own mount and nothing else.
-/
theorem guard_confined
    {s : LiveServer}
    (hReach : liveMachine.ReachableUnder Apart s) :
    Confined s := by
  apply ApartInv.confined
  apply hReach.invariant
  · intro t
    exact apartInv_init
  · intro t label u hInv hApart hStep
    exact hInv.step hApart hStep

/- A server that takes sources, with nothing going on. -/
def idleServer : LiveServer where
  base := openServer
  reloading := none
  listening := []
  listeners := []

theorem init_idleServer : liveMachine.init idleServer :=
  ⟨init_openServer, rfl, rfl, rfl⟩

/- A dynamic source connects and takes so many turns. -/
def sourceTurns (count : Nat) : List LiveLabel :=
  .base (.arrive openUpload) ::
    (turns 0 count).map LiveLabel.base

/- A source with a listener is about to disconnect. -/
theorem guard_confined_listener :
    ∃ s,
      liveMachine.runUnder Apart idleServer
          (sourceTurns 10 ++
            [.subscribe "/live", .register 0] ++
              (turns 0 1).map LiveLabel.base) = some s ∧
        Confined s := by
  have hRun :
      liveMachine.runUnder Apart idleServer
          (sourceTurns 10 ++
            [.subscribe "/live", .register 0] ++
              (turns 0 1).map LiveLabel.base) = some _ := rfl
  exact
    ⟨_, hRun,
      guard_confined
        (Library.Machine.reachableUnder_of_runUnder
          init_idleServer hRun)⟩

/- The configuration with the path of the source in it. -/
def adoptingConfig : Config :=
  { openServer.server.config with
    mounts := [.bare "/live" "secret"] }

/-
  A reload lists the path while the source streams; then the
  source disconnects, up to its last turn.
-/
def adoptedTurns : List LiveLabel :=
  sourceTurns 10 ++ [.apply adoptingConfig, .iterate, .store] ++
    (turns 0 8).map LiveLabel.base

theorem adopted_removed :
    ∃ s, liveMachine.Reachable s ∧ ¬ Confined s := by
  have hRun :
      liveMachine.run idleServer adoptedTurns = some _ := rfl
  refine
    ⟨_, Library.Machine.reachable_of_run init_idleServer hRun,
      ?_⟩
  intro hConfined
  have hOwn :=
    hConfined 0 { now := 0, expired := false } _ _ 0 true
      [.removeMount] rfl rfl rfl
  rcases hOwn.removes with hSame | ⟨-, hUnlisted, -⟩
  · have hThere := congrFun hSame "/live"
    cases hThere
  · exact hUnlisted (by decide)

end RustyIce

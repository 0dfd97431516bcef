import RustyIce.Core.Mount
import RustyIce.Library.Machine
import RustyIce.Library.Parties

/-
  The caps on listeners: any number of requests of the
  listener handler, each of which checks two counts and
  raises them later, one step each.

  The limits stay what they are. Which packets a listener is
  sent plays no part here. A log keeps who took a place and
  who gave one back, so that one can tell who did between a
  request's check and its own turn.

  Main declarations:
    * `ListenerLimits`
    * `ListenerRequest`, `ListenerRequest.step`
    * `CapMove`, `Audience`, `audienceMachine`
    * `Audience.Kept`
    * `Audience.OverlapsFit`, `Audience.NoOverlap`
    * `Audience.caps_kept_iff`
-/

------------------------------------------------------------
-- Requests
------------------------------------------------------------

namespace RustyIce

/- `limits.max_listeners_global`, and the cap of each mount. -/
structure ListenerLimits where
  maxListenersGlobal : Nat
  maxListeners : MountId → Option Nat

/-
  What a check has read, and how many places had been taken
  and given back in all by then.
-/
structure CapCheck where
  count : Nat
  moves : Nat
deriving DecidableEq, Repr

/-
  Where a request is. It keeps what the checks read until
  the counts are raised. A registered request first writes
  the headers it has captured, if any.
-/
inductive CapPhase where
| arrived
| counted (total : CapCheck)
| admitted (total : CapCheck) (subscribers : CapCheck)
| subscribed (total : CapCheck)
| priming
| streaming
| unsubscribed
| deregistered
| refused
| ended
deriving DecidableEq, Repr

/- A request; `gone` tells that its client is. -/
structure ListenerRequest where
  mount : MountId
  primed : Bool
  kicked : Bool
  gone : Bool
  phase : CapPhase
deriving DecidableEq, Repr

namespace ListenerRequest

/- A receiver of the mount's bus. -/
def Receives (r : ListenerRequest) : Bool :=
  match r.phase with
  | .subscribed _ => true
  | .priming => true
  | .streaming => true
  | .deregistered => true
  | _ => false

/- An entry of the listener map. -/
def Listed (r : ListenerRequest) : Bool :=
  match r.phase with
  | .priming => true
  | .streaming => true
  | .unsubscribed => true
  | _ => false

/-
  The next step, from the counts that are there: of the
  listener map, and of the receivers of the mount. A listener
  whose headers cannot be written leaves the map before it
  drops its subscription, the others after.
-/
def step
    (limits : ListenerLimits)
    (total subscribers moves : Nat)
    (r : ListenerRequest) : Option ListenerRequest :=
  match r.phase with
  | .arrived =>
      if limits.maxListenersGlobal ≤ total then
        some { r with phase := .refused }
      else
        some { r with phase := .counted ⟨total, moves⟩ }
  | .counted seen =>
      match limits.maxListeners r.mount with
      | none =>
          some
            { r with
              phase := .admitted seen ⟨subscribers, moves⟩ }
      | some max =>
          if max ≤ subscribers then
            some { r with phase := .refused }
          else
            some
              { r with
                phase := .admitted seen ⟨subscribers, moves⟩ }
  | .admitted seen _ => some { r with phase := .subscribed seen }
  | .subscribed _ =>
      if r.primed then some { r with phase := .priming }
      else some { r with phase := .streaming }
  | .priming =>
      if r.gone then some { r with phase := .deregistered }
      else some { r with phase := .streaming }
  | .streaming =>
      if r.kicked || r.gone then
        some { r with phase := .unsubscribed }
      else
        some r
  | .unsubscribed => some { r with phase := .ended }
  | .deregistered => some { r with phase := .ended }
  | .refused => none
  | .ended => none

end ListenerRequest

end RustyIce

------------------------------------------------------------
-- Any Number Of Them
------------------------------------------------------------

namespace RustyIce

open Library

/- A place that is taken or given back, on a bus or in all. -/
inductive CapMove where
| subscribes (mount : MountId)
| unsubscribes (mount : MountId)
| registers
| deregisters
deriving DecidableEq, Repr

/- What it means for the counts that a request goes on. -/
def ListenerRequest.moves
    (r r' : ListenerRequest) : List CapMove :=
  (match r.Receives, r'.Receives with
    | false, true => [.subscribes r.mount]
    | true, false => [.unsubscribes r.mount]
    | _, _ => []) ++
    (match r.Listed, r'.Listed with
      | false, true => [.registers]
      | true, false => [.deregisters]
      | _, _ => [])

/- All requests so far, and all they took and gave back. -/
structure Audience where
  requests : List ListenerRequest
  log : List CapMove
deriving DecidableEq, Repr

/-
  A request arrives, takes its next step, is kicked, loses
  its client, or comes to the end of its stream. The handler
  of a request whose client is gone goes on until its output
  is written to.
-/
inductive AudienceEvent where
| arrive (mount : MountId) (primed : Bool)
| step (i : Nat)
| kick (i : Nat)
| disconnect (i : Nat)
| finish (i : Nat)
deriving DecidableEq, Repr

namespace Audience

def empty : Audience where
  requests := []
  log := []

/- The receivers of a mount's bus. -/
def subscribers
    (s : Audience)
    (mount : MountId) : Nat :=
  s.requests.countP fun r => r.mount = mount && r.Receives

/- The size of the listener map. -/
def total (s : Audience) : Nat :=
  s.requests.countP ListenerRequest.Listed

/- Request `i`, which was `r`, goes on. -/
def set
    (s : Audience)
    (i : Nat)
    (r r' : ListenerRequest) : Audience where
  requests := s.requests.set i r'
  log := s.log ++ r.moves r'

/- A kick reaches a listener that is in the map. -/
def exec
    (limits : ListenerLimits)
    (s : Audience) : AudienceEvent → Option Audience
| .arrive mount primed =>
    some
      { s with
        requests :=
          s.requests ++
            [{ mount := mount
               primed := primed
               kicked := false
               gone := false
               phase := .arrived }] }
| .step i =>
    match s.requests[i]? with
    | none => none
    | some r =>
        (r.step limits s.total (s.subscribers r.mount)
            s.log.length).map
          (s.set i r)
| .kick i =>
    match s.requests[i]? with
    | none => none
    | some r =>
        if r.Listed then
          some (s.set i r { r with kicked := true })
        else
          none
| .disconnect i =>
    match s.requests[i]? with
    | none => none
    | some r => some (s.set i r { r with gone := true })
| .finish i =>
    match s.requests[i]? with
    | none => none
    | some r =>
        if r.phase = .streaming then
          some (s.set i r { r with phase := .unsubscribed })
        else
          none

end Audience

def audienceMachine
    (limits : ListenerLimits) :
    Machine Audience AudienceEvent where
  init := fun s => s = .empty
  step := Audience.exec limits

end RustyIce

------------------------------------------------------------
-- The Caps
------------------------------------------------------------

namespace RustyIce

open Library

/- The check saw a place free, and read what the log says. -/
structure CapCheck.OfTotal
    (limits : ListenerLimits)
    (log : List CapMove)
    (check : CapCheck) : Prop where
  free : check.count < limits.maxListenersGlobal
  past : check.moves ≤ log.length
  read :
    check.count +
        (log.take check.moves).count .deregisters =
      (log.take check.moves).count .registers

structure CapCheck.OfMount
    (limits : ListenerLimits)
    (mount : MountId)
    (log : List CapMove)
    (check : CapCheck) : Prop where
  free :
    ∀ max, limits.maxListeners mount = some max →
      check.count < max
  past : check.moves ≤ log.length
  read :
    check.count +
        (log.take check.moves).count (.unsubscribes mount) =
      (log.take check.moves).count (.subscribes mount)

namespace Audience

/- Neither cap is exceeded. -/
structure Kept
    (limits : ListenerLimits)
    (s : Audience) : Prop where
  mounts :
    ∀ mount max, limits.maxListeners mount = some max →
      s.subscribers mount ≤ max
  all : s.total ≤ limits.maxListenersGlobal

/- How often this happened behind a check. -/
def since
    (s : Audience)
    (check : CapCheck)
    (move : CapMove) : Nat :=
  (s.log.drop check.moves).count move

/-
  Between the check of a request and the step in which it
  raises the count, fewer others did so than the check saw
  places free and were given back.
-/
def OverlapsFit
    (limits : ListenerLimits)
    (s : Audience) : AudienceEvent → Prop
| .step i =>
    match s.requests[i]? with
    | none => True
    | some r =>
        match r.phase with
        | .admitted _ seen =>
            ∀ max ∈ limits.maxListeners r.mount,
              s.since seen (.subscribes r.mount) <
                max - seen.count +
                  s.since seen (.unsubscribes r.mount)
        | .subscribed seen =>
            s.since seen .registers <
              limits.maxListenersGlobal - seen.count +
                s.since seen .deregisters
        | _ => True
| .arrive _ _ => True
| .kick _ => True
| .disconnect _ => True
| .finish _ => True

instance
    (limits : ListenerLimits)
    (s : Audience)
    (event : AudienceEvent) :
    Decidable (s.OverlapsFit limits event) := by
  unfold OverlapsFit
  split
  · split
    · infer_instance
    · split <;> infer_instance
  all_goals infer_instance

/-
  Between the check of a request and the step in which it
  raises a count that has a cap, no other does so.
-/
def NoOverlap
    (limits : ListenerLimits)
    (s : Audience) : AudienceEvent → Prop
| .step i =>
    match s.requests[i]? with
    | none => True
    | some r =>
        match r.phase with
        | .admitted _ seen =>
            limits.maxListeners r.mount ≠ none →
              s.since seen (.subscribes r.mount) = 0
        | .subscribed seen => s.since seen .registers = 0
        | _ => True
| .arrive _ _ => True
| .kick _ => True
| .disconnect _ => True
| .finish _ => True

/- What the checks a request has passed have seen. -/
def CheckedRequest
    (limits : ListenerLimits)
    (log : List CapMove)
    (r : ListenerRequest) : Prop :=
  match r.phase with
  | .counted total => total.OfTotal limits log
  | .admitted total seen =>
      total.OfTotal limits log ∧
        seen.OfMount limits r.mount log
  | .subscribed total => total.OfTotal limits log
  | _ => True

/- The counts are what the log makes of them. -/
structure Checked
    (limits : ListenerLimits)
    (s : Audience) : Prop where
  mounts :
    ∀ mount,
      s.subscribers mount + s.log.count (.unsubscribes mount) =
        s.log.count (.subscribes mount)
  all :
    s.total + s.log.count .deregisters =
      s.log.count .registers
  requests : ∀ r ∈ s.requests, CheckedRequest limits s.log r

variable {limits : ListenerLimits}
variable {s t : Audience}

end Audience

end RustyIce

------------------------------------------------------------
-- What Raises A Count
------------------------------------------------------------

namespace RustyIce

open Library

namespace ListenerRequest

/- A request that does not count where it did not before. -/
structure Recedes (r r' : ListenerRequest) : Prop where
  mount : r'.mount = r.mount
  receives : r'.Receives.toNat ≤ r.Receives.toNat
  listed : r'.Listed.toNat ≤ r.Listed.toNat

/-
  A step subscribes, or registers, or raises no count.
-/
inductive Raises
    (r r' : ListenerRequest) : Prop where
| subscribes (total seen : CapCheck) :
    r.phase = .admitted total seen →
      r' = { r with phase := .subscribed total } →
        Raises r r'
| registers (total : CapCheck) :
    r.phase = .subscribed total →
      r'.mount = r.mount →
        r'.Receives = true → r'.Listed = true →
          Raises r r'
| neither :
    (∀ total seen, r.phase ≠ .admitted total seen) →
      (∀ total, r.phase ≠ .subscribed total) →
        Recedes r r' → Raises r r'

theorem raises_of_step
    {limits : ListenerLimits}
    {total subscribers moves : Nat}
    {r r' : ListenerRequest}
    (hStep :
      r.step limits total subscribers moves = some r') :
    Raises r r' := by
  rcases r with ⟨mount, primed, kicked, gone, phase⟩
  cases phase with
  | arrived =>
      simp only [step] at hStep
      split at hStep
      · cases hStep
        exact
          .neither nofun nofun
            ⟨rfl, Nat.le_refl _, Nat.le_refl _⟩
      · cases hStep
        exact
          .neither nofun nofun
            ⟨rfl, Nat.le_refl _, Nat.le_refl _⟩
  | counted seen =>
      have hKept :
          ∀ next, next = CapPhase.refused ∨
              (∃ n, next = .admitted seen n) →
            Raises
              ⟨mount, primed, kicked, gone, .counted seen⟩
              ⟨mount, primed, kicked, gone, next⟩ := by
        rintro next (rfl | ⟨n, rfl⟩)
        · exact
            .neither nofun nofun
              ⟨rfl, Nat.le_refl _, Nat.le_refl _⟩
        · exact
            .neither nofun nofun
              ⟨rfl, Nat.le_refl _, Nat.le_refl _⟩
      simp only [step] at hStep
      split at hStep
      · cases hStep
        exact hKept _ (.inr ⟨_, rfl⟩)
      · split at hStep
        · cases hStep
          exact hKept _ (.inl rfl)
        · cases hStep
          exact hKept _ (.inr ⟨_, rfl⟩)
  | admitted seen n =>
      cases hStep
      exact .subscribes seen n rfl rfl
  | subscribed seen =>
      simp only [step] at hStep
      split at hStep
      · cases hStep
        exact .registers seen rfl rfl rfl rfl
      · cases hStep
        exact .registers seen rfl rfl rfl rfl
  | priming =>
      simp only [step] at hStep
      split at hStep
      · cases hStep
        exact
          .neither nofun nofun
            ⟨rfl, Nat.le_refl _, Nat.zero_le _⟩
      · cases hStep
        exact
          .neither nofun nofun
            ⟨rfl, Nat.le_refl _, Nat.le_refl _⟩
  | streaming =>
      simp only [step] at hStep
      split at hStep
      · cases hStep
        exact
          .neither nofun nofun
            ⟨rfl, Nat.zero_le _, Nat.le_refl _⟩
      · cases hStep
        exact
          .neither nofun nofun
            ⟨rfl, Nat.le_refl _, Nat.le_refl _⟩
  | unsubscribed =>
      cases hStep
      exact
        .neither nofun nofun
          ⟨rfl, Nat.le_refl _, Nat.zero_le _⟩
  | deregistered =>
      cases hStep
      exact
        .neither nofun nofun
          ⟨rfl, Nat.zero_le _, Nat.le_refl _⟩
  | refused => cases hStep
  | ended => cases hStep

end ListenerRequest

theorem ListenerRequest.Raises.mount
    {r r' : ListenerRequest}
    (hRaises : ListenerRequest.Raises r r') :
    r'.mount = r.mount := by
  cases hRaises with
  | subscribes total seen hPhase hSame => rw [hSame]
  | registers total hPhase hMount hReceives hListed =>
      exact hMount
  | neither hNotAdmitted hNotSubscribed hRecedes =>
      exact hRecedes.mount

/- What the log says is what happened to the counts. -/
theorem count_moves (r r' : ListenerRequest) :
    (r.moves r').count (.subscribes r.mount) +
          r.Receives.toNat =
        (r.moves r').count (.unsubscribes r.mount) +
          r'.Receives.toNat ∧
      (r.moves r').count .registers + r.Listed.toNat =
        (r.moves r').count .deregisters + r'.Listed.toNat := by
  unfold ListenerRequest.moves
  cases r.Receives <;> cases r'.Receives <;> cases r.Listed <;>
    cases r'.Listed <;> simp

/- It says nothing about the other mounts. -/
theorem count_moves_other
    (r r' : ListenerRequest)
    {mount : MountId}
    (hOther : mount ≠ r.mount) :
    (r.moves r').count (.subscribes mount) = 0 ∧
      (r.moves r').count (.unsubscribes mount) = 0 := by
  unfold ListenerRequest.moves
  cases r.Receives <;> cases r'.Receives <;> cases r.Listed <;>
    cases r'.Listed <;> simp [Ne.symm hOther]

end RustyIce

------------------------------------------------------------
-- What The Checks Have Seen
------------------------------------------------------------

namespace RustyIce

open Library

variable {limits : ListenerLimits}

/- A check keeps what it has seen, whatever follows. -/
theorem CapCheck.OfTotal.append
    {log : List CapMove}
    {check : CapCheck}
    (hCheck : check.OfTotal limits log)
    (more : List CapMove) :
    check.OfTotal limits (log ++ more) where
  free := hCheck.free
  past := by
    rw [List.length_append]
    exact Nat.le_add_right_of_le hCheck.past
  read := by
    rw [List.take_append_of_le_length hCheck.past]
    exact hCheck.read

theorem CapCheck.OfMount.append
    {mount : MountId}
    {log : List CapMove}
    {check : CapCheck}
    (hCheck : check.OfMount limits mount log)
    (more : List CapMove) :
    check.OfMount limits mount (log ++ more) where
  free := hCheck.free
  past := by
    rw [List.length_append]
    exact Nat.le_add_right_of_le hCheck.past
  read := by
    rw [List.take_append_of_le_length hCheck.past]
    exact hCheck.read

/- A count of the log, before a check and since. -/
theorem Audience.count_log
    (s : Audience)
    (check : CapCheck)
    (move : CapMove) :
    s.log.count move =
      (s.log.take check.moves).count move +
        s.since check move := by
  unfold since
  rw [← List.count_append, List.take_append_drop]

namespace Audience

open ListenerRequest

variable {s t : Audience}

theorem CheckedRequest.append
    {log : List CapMove}
    {r : ListenerRequest}
    (hRequest : CheckedRequest limits log r)
    (more : List CapMove) :
    CheckedRequest limits (log ++ more) r := by
  unfold CheckedRequest at hRequest ⊢
  split
  · rename_i total hPhase
    rw [hPhase] at hRequest
    exact hRequest.append more
  · rename_i total seen hPhase
    rw [hPhase] at hRequest
    exact ⟨hRequest.1.append more, hRequest.2.append more⟩
  · rename_i total hPhase
    rw [hPhase] at hRequest
    exact hRequest.append more
  · trivial

/- A step passes a check or keeps what was seen. -/
theorem checked_step
    {r r' : ListenerRequest}
    (hChecked : s.Checked limits)
    (hRequest : CheckedRequest limits s.log r)
    (hStep :
      r.step limits s.total (s.subscribers r.mount)
          s.log.length =
        some r') :
    CheckedRequest limits s.log r' := by
  have hAll := hChecked.all
  have hMount := hChecked.mounts r.mount
  rcases r with ⟨mount, primed, kicked, gone, phase⟩
  cases phase with
  | arrived =>
      simp only [ListenerRequest.step] at hStep
      split at hStep
      · cases hStep
        trivial
      · rename_i hRoom
        cases hStep
        refine
          ⟨Nat.lt_of_not_le hRoom, Nat.le_refl _, ?_⟩
        rw [List.take_length]
        exact hAll
  | counted seen =>
      have hSeen
          (hFree :
            ∀ max, limits.maxListeners mount = some max →
              s.subscribers mount < max) :
          CapCheck.OfMount limits mount s.log
            ⟨s.subscribers mount, s.log.length⟩ := by
        refine ⟨hFree, Nat.le_refl _, ?_⟩
        rw [List.take_length]
        exact hMount
      simp only [ListenerRequest.step] at hStep
      split at hStep
      · rename_i hNone
        cases hStep
        refine ⟨hRequest, hSeen ?_⟩
        intro max hMax
        rw [hNone] at hMax
        cases hMax
      · rename_i max hMax
        split at hStep
        · cases hStep
          trivial
        · rename_i hRoom
          cases hStep
          refine ⟨hRequest, hSeen ?_⟩
          intro max' hMax'
          rw [hMax] at hMax'
          cases hMax'
          exact Nat.lt_of_not_le hRoom
  | admitted seen subscribers =>
      cases hStep
      exact hRequest.1
  | subscribed seen =>
      simp only [ListenerRequest.step] at hStep
      split at hStep
      · cases hStep
        trivial
      · cases hStep
        trivial
  | priming =>
      simp only [ListenerRequest.step] at hStep
      split at hStep
      · cases hStep
        trivial
      · cases hStep
        trivial
  | streaming =>
      simp only [ListenerRequest.step] at hStep
      split at hStep
      · cases hStep
        trivial
      · cases hStep
        trivial
  | unsubscribed =>
      cases hStep
      trivial
  | deregistered =>
      cases hStep
      trivial
  | refused => cases hStep
  | ended => cases hStep

/- The counts after one request changed. -/
theorem counts_set
    {i : Nat}
    {r r' : ListenerRequest}
    (hGet : s.requests[i]? = some r)
    (hMount : r'.mount = r.mount) :
    (s.set i r r').subscribers r.mount + r.Receives.toNat =
        s.subscribers r.mount + r'.Receives.toNat ∧
      (∀ mount, mount ≠ r.mount →
        (s.set i r r').subscribers mount =
          s.subscribers mount) ∧
        (s.set i r r').total + r.Listed.toNat =
          s.total + r'.Listed.toNat := by
  refine ⟨?_, ?_, ?_⟩
  · rcases
        countP_beside
          (fun q : ListenerRequest =>
            q.mount = r.mount && q.Receives) hGet
      with ⟨others, hBefore, hAfter⟩
    have hNow := hAfter r'
    simp only [hMount, decide_true, Bool.true_and]
      at hBefore hNow
    simp only [subscribers, set, hBefore, hNow]
    omega
  · intro mount hOther
    simp only [subscribers, set]
    apply countP_set_uncounted hGet
    · simp [Ne.symm hOther]
    · simp [hMount, Ne.symm hOther]
  · rcases countP_beside Listed hGet with
      ⟨others, hBefore, hAfter⟩
    simp only [total, set, hBefore, hAfter r']
    omega

/- One request goes on, and the log with it. -/
theorem checked_set
    {i : Nat}
    {r r' : ListenerRequest}
    (hChecked : s.Checked limits)
    (hGet : s.requests[i]? = some r)
    (hMount : r'.mount = r.mount)
    (hRequest : CheckedRequest limits s.log r') :
    (s.set i r r').Checked limits := by
  rcases counts_set hGet hMount with
    ⟨hHere, hElsewhere, hAll⟩
  rcases count_moves r r' with ⟨hMoves, hEntries⟩
  constructor
  · intro mount
    have hBefore := hChecked.mounts mount
    have hLog :
        (s.set i r r').log = s.log ++ r.moves r' := rfl
    rw [hLog, List.count_append, List.count_append]
    by_cases hSame : mount = r.mount
    · subst hSame
      omega
    · rw [hElsewhere mount hSame]
      rcases count_moves_other r r' hSame with ⟨hIn, hOut⟩
      omega
  · have hBefore := hChecked.all
    have hLog :
        (s.set i r r').log = s.log ++ r.moves r' := rfl
    rw [hLog, List.count_append, List.count_append]
    omega
  · intro other hMem
    rcases mem_set_cases hMem with rfl | ⟨j, -, hThere⟩
    · exact hRequest.append _
    · have hOther :=
        hChecked.requests other (List.mem_of_getElem? hThere)
      exact hOther.append _

/- Every request has passed the checks it is behind. -/
theorem checked_of_exec
    {event : AudienceEvent}
    (hChecked : s.Checked limits)
    (hStep : s.exec limits event = some t) :
    t.Checked limits := by
  cases event with
  | arrive mount primed =>
      cases hStep
      constructor
      · intro m
        have hBefore := hChecked.mounts m
        simpa [subscribers, Receives, List.countP_append] using
          hBefore
      · have hBefore := hChecked.all
        simpa [total, Listed, List.countP_append] using hBefore
      · intro r hMem
        rcases List.mem_append.mp hMem with hOld | hNew
        · exact hChecked.requests r hOld
        · rw [List.mem_singleton.mp hNew]
          trivial
  | step i =>
      simp only [exec] at hStep
      split at hStep
      · cases hStep
      · rename_i r hGet
        have hRequest :=
          hChecked.requests r (List.mem_of_getElem? hGet)
        rcases Option.map_eq_some_iff.mp hStep with
          ⟨r', hNext, rfl⟩
        exact
          checked_set hChecked hGet
            (raises_of_step hNext).mount
            (checked_step hChecked hRequest hNext)
  | kick i =>
      simp only [exec] at hStep
      split at hStep
      · cases hStep
      · rename_i r hGet
        have hRequest :=
          hChecked.requests r (List.mem_of_getElem? hGet)
        split at hStep
        · cases hStep
          exact checked_set hChecked hGet rfl hRequest
        · cases hStep
  | disconnect i =>
      simp only [exec] at hStep
      split at hStep
      · cases hStep
      · rename_i r hGet
        have hRequest :=
          hChecked.requests r (List.mem_of_getElem? hGet)
        cases hStep
        exact checked_set hChecked hGet rfl hRequest
  | finish i =>
      simp only [exec] at hStep
      split at hStep
      · cases hStep
      · rename_i r hGet
        split at hStep
        · cases hStep
          exact checked_set hChecked hGet rfl trivial
        · cases hStep

end Audience

end RustyIce

------------------------------------------------------------
-- The Caps Along A Run
------------------------------------------------------------

namespace RustyIce

open Library

namespace Audience

open ListenerRequest

variable {limits : ListenerLimits}
variable {s t : Audience}

/- A change that raises no count keeps the caps. -/
theorem kept_of_recedes
    {i : Nat}
    {r r' : ListenerRequest}
    (hKept : s.Kept limits)
    (hGet : s.requests[i]? = some r)
    (hRecedes : Recedes r r') :
    (s.set i r r').Kept limits := by
  rcases counts_set hGet hRecedes.mount with
    ⟨hHere, hElsewhere, hAll⟩
  have hReceives := hRecedes.receives
  have hListed := hRecedes.listed
  constructor
  · intro mount max hMax
    have hBefore := hKept.mounts mount max hMax
    by_cases hMount : mount = r.mount
    · subst hMount
      omega
    · rw [hElsewhere mount hMount]
      exact hBefore
  · have hBefore := hKept.all
    omega

/- A receiver more on a mount, and no listener more. -/
theorem kept_subscribes_iff
    {i : Nat}
    {total seen : CapCheck}
    {r r' : ListenerRequest}
    (hChecked : s.Checked limits)
    (hKept : s.Kept limits)
    (hGet : s.requests[i]? = some r)
    (hPhase : r.phase = .admitted total seen)
    (hSame : r' = { r with phase := .subscribed total }) :
    (s.set i r r').Kept limits ↔
      ∀ max ∈ limits.maxListeners r.mount,
        s.since seen (.subscribes r.mount) <
          max - seen.count +
            s.since seen (.unsubscribes r.mount) := by
  have hMount : r'.mount = r.mount := by rw [hSame]
  have hNot : r.Receives = false := by
    simp [Receives, hPhase]
  have hNow : r'.Receives = true := by
    simp [hSame, Receives]
  have hUnlisted :
      r'.Listed = false ∧ r.Listed = false := by
    simp [hSame, Listed, hPhase]
  rcases counts_set hGet hMount with
    ⟨hHere, hElsewhere, hAll⟩
  rw [hNot, hNow] at hHere
  rw [hUnlisted.1, hUnlisted.2] at hAll
  simp only [Bool.toNat_true, Bool.toNat_false]
    at hHere hAll
  have hRequest :=
    hChecked.requests r (List.mem_of_getElem? hGet)
  simp only [CheckedRequest, hPhase] at hRequest
  -- What was there at the check, and what came and went since.
  have hThen := hRequest.2.read
  have hCounts := hChecked.mounts r.mount
  rw [s.count_log seen (.subscribes r.mount),
    s.count_log seen (.unsubscribes r.mount)] at hCounts
  constructor
  · intro hAfter max hMax
    have hCap := hAfter.mounts r.mount max hMax
    have hSaw := hRequest.2.free max hMax
    omega
  · intro hRoom
    constructor
    · intro mount max hMax
      by_cases hAt : mount = r.mount
      · subst hAt
        have hLess := hRoom max hMax
        have hSaw := hRequest.2.free max hMax
        omega
      · rw [hElsewhere mount hAt]
        exact hKept.mounts mount max hMax
    · have hBefore := hKept.all
      omega

/- A listener more, that received before. -/
theorem kept_registers_iff
    {i : Nat}
    {seen : CapCheck}
    {r r' : ListenerRequest}
    (hChecked : s.Checked limits)
    (hKept : s.Kept limits)
    (hGet : s.requests[i]? = some r)
    (hPhase : r.phase = .subscribed seen)
    (hMount : r'.mount = r.mount)
    (hReceives : r'.Receives = true)
    (hListed : r'.Listed = true) :
    (s.set i r r').Kept limits ↔
      s.since seen .registers <
        limits.maxListenersGlobal - seen.count +
          s.since seen .deregisters := by
  have hThere : r.Receives = true := by
    simp [Receives, hPhase]
  have hNot : r.Listed = false := by
    simp [Listed, hPhase]
  rcases counts_set hGet hMount with
    ⟨hHere, hElsewhere, hAll⟩
  rw [hThere, hReceives] at hHere
  rw [hNot, hListed] at hAll
  simp only [Bool.toNat_true, Bool.toNat_false]
    at hHere hAll
  have hRequest :=
    hChecked.requests r (List.mem_of_getElem? hGet)
  simp only [CheckedRequest, hPhase] at hRequest
  have hFree := hRequest.free
  have hThen := hRequest.read
  have hCounts := hChecked.all
  rw [s.count_log seen .registers,
    s.count_log seen .deregisters] at hCounts
  constructor
  · intro hAfter
    have hCap := hAfter.all
    omega
  · intro hRoom
    constructor
    · intro mount max hMax
      have hBefore := hKept.mounts mount max hMax
      by_cases hAt : mount = r.mount
      · subst hAt
        omega
      · rw [hElsewhere mount hAt]
        exact hBefore
    · omega

/- The caps are kept by a step exactly if its overlaps fit. -/
theorem kept_step_iff
    {event : AudienceEvent}
    (hChecked : s.Checked limits)
    (hKept : s.Kept limits)
    (hStep : s.exec limits event = some t) :
    t.Kept limits ↔ s.OverlapsFit limits event := by
  cases event with
  | arrive mount primed =>
      cases hStep
      refine iff_of_true ?_ trivial
      constructor
      · intro m max hMax
        simpa [subscribers, Receives, List.countP_append] using
          hKept.mounts m max hMax
      · simpa [total, Listed, List.countP_append] using
          hKept.all
  | step i =>
      simp only [exec] at hStep
      split at hStep
      · cases hStep
      · rename_i r hGet
        rcases Option.map_eq_some_iff.mp hStep with
          ⟨r', hNext, rfl⟩
        simp only [OverlapsFit, hGet]
        cases raises_of_step hNext with
        | subscribes total seen hPhase hSame =>
            rw [hPhase]
            exact
              kept_subscribes_iff hChecked hKept hGet hPhase
                hSame
        | registers seen hPhase hMount hReceives hListed =>
            rw [hPhase]
            exact
              kept_registers_iff hChecked hKept hGet hPhase
                hMount hReceives hListed
        | neither hNotAdmitted hNotSubscribed hRecedes =>
            refine
              iff_of_true (kept_of_recedes hKept hGet hRecedes)
                ?_
            split
            · rename_i hPhase
              exact absurd hPhase (hNotAdmitted _ _)
            · rename_i hPhase
              exact absurd hPhase (hNotSubscribed _)
            · trivial
  | kick i =>
      simp only [exec] at hStep
      split at hStep
      · cases hStep
      · rename_i r hGet
        split at hStep
        · cases hStep
          exact
            iff_of_true
              (kept_of_recedes hKept hGet
                ⟨rfl, Nat.le_refl _, Nat.le_refl _⟩)
              trivial
        · cases hStep
  | disconnect i =>
      simp only [exec] at hStep
      split at hStep
      · cases hStep
      · rename_i r hGet
        cases hStep
        exact
          iff_of_true
            (kept_of_recedes hKept hGet
              ⟨rfl, Nat.le_refl _, Nat.le_refl _⟩)
            trivial
  | finish i =>
      simp only [exec] at hStep
      split at hStep
      · cases hStep
      · rename_i r hGet
        split at hStep
        · rename_i hPhase
          cases hStep
          refine
            iff_of_true (kept_of_recedes hKept hGet ?_) trivial
          refine ⟨rfl, Nat.zero_le _, ?_⟩
          simp [Listed, hPhase]
        · cases hStep

/- Where nobody overlaps, the overlaps fit. -/
theorem overlapsFit_of_noOverlap
    {event : AudienceEvent}
    (hChecked : s.Checked limits)
    (hAlone : s.NoOverlap limits event) :
    s.OverlapsFit limits event := by
  cases event with
  | arrive mount primed => trivial
  | kick i => trivial
  | disconnect i => trivial
  | finish i => trivial
  | step i =>
      simp only [NoOverlap, OverlapsFit] at hAlone ⊢
      split
      · trivial
      · rename_i r hGet
        rw [hGet] at hAlone
        have hRequest :=
          hChecked.requests r (List.mem_of_getElem? hGet)
        split
        · rename_i total seen hPhase
          simp only [hPhase] at hAlone
          simp only [CheckedRequest, hPhase] at hRequest
          intro max hMax
          have hNone := hAlone (by rw [hMax]; exact nofun)
          have hSaw := hRequest.2.free max hMax
          omega
        · rename_i seen hPhase
          simp only [hPhase] at hAlone
          simp only [CheckedRequest, hPhase] at hRequest
          have hSaw := hRequest.free
          omega
        · trivial

theorem kept_empty : empty.Kept limits where
  mounts := fun _ _ _ => Nat.zero_le _
  all := Nat.zero_le _

theorem checked_empty : empty.Checked limits where
  mounts := fun _ => rfl
  all := rfl
  requests := List.forall_mem_nil _

/-
  Throughout a run the caps hold exactly if, whenever a count
  is raised, those who came in between fit; in particular if
  nobody ever comes in between.
-/
theorem caps_kept_iff
    {events : List AudienceEvent}
    (hRun :
      (audienceMachine limits).run .empty events = some s) :
    ((audienceMachine limits).Along (Kept limits) .empty
        events ↔
      (audienceMachine limits).Admits (OverlapsFit limits)
        .empty events) ∧
      ((audienceMachine limits).Admits (NoOverlap limits)
          .empty events →
        (audienceMachine limits).Along (Kept limits) .empty
          events) := by
  constructor
  · apply
      Machine.along_iff_admits (I := Checked limits) ?_ ?_
        checked_empty kept_empty hRun
    · intro u event v hChecked hStep
      exact checked_of_exec hChecked hStep
    · intro u event v hChecked hKept hStep
      exact kept_step_iff hChecked hKept hStep
  · have hAlways (event : AudienceEvent)
        (_ : event ∈ events) : True :=
      trivial
    refine
      Machine.Admits.along
        (I := fun u => u.Checked limits ∧ u.Kept limits) ?_ ?_
        ⟨checked_empty, kept_empty⟩ hAlways
    · rintro u event v ⟨hChecked, hKept⟩ - hAlone hStep
      exact
        ⟨checked_of_exec hChecked hStep,
          (kept_step_iff hChecked hKept hStep).mpr
            (overlapsFit_of_noOverlap hChecked hAlone)⟩
    · exact fun u hBoth => hBoth.2

/- So many places on the one mount there is. -/
def places (max : Nat) : ListenerLimits where
  maxListenersGlobal := 100
  maxListeners := fun _ => some max

/- Both pass the check before either subscribes. -/
def bothChecked : List AudienceEvent :=
  [.arrive 0 false, .arrive 0 false, .step 0, .step 0,
    .step 1, .step 1, .step 0, .step 1]

/- With two places it does no harm. -/
theorem caps_kept_iff_bothChecked :
    (audienceMachine (places 2)).Along (Kept (places 2)) .empty
      bothChecked := by
  have hRun :
      (audienceMachine (places 2)).run .empty bothChecked =
        some _ := rfl
  have hFit :
      (audienceMachine (places 2)).runUnder
          (OverlapsFit (places 2)) .empty bothChecked =
        some _ := rfl
  exact
    (caps_kept_iff hRun).1.mpr
      (Machine.admits_of_runUnder hFit)

/- With one it does. -/
theorem bothChecked_over :
    ∃ s,
      (audienceMachine (places 1)).run .empty bothChecked =
          some s ∧
        (places 1).maxListeners 0 = some 1 ∧
          s.subscribers 0 = 2 := by
  have hRun :
      (audienceMachine (places 1)).run .empty bothChecked =
        some _ := rfl
  exact ⟨_, hRun, rfl, by decide⟩

end Audience

end RustyIce

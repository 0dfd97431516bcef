import Mathlib.Tactic.Common
import RustyIce.Core.Types
import RustyIce.Library.Machine

/-
  The accept loop of the stream port: one connection after
  the other is accepted, peeked at, and handed to the source
  handler or to the HTTP server.

  The loop waits for the first bytes of a connection before
  it accepts the next one, so that what a connection waits
  for is bounded, and used up, by those in front of it.

  Main declarations:
    * `TcpStream`, `classify`
    * `StreamListener`, `acceptMachine`, `AcceptMove`
    * `dispatched_once`
    * `waits_at_most`, `held_up`
-/

------------------------------------------------------------
-- Sockets And Their First Bytes
------------------------------------------------------------

namespace RustyIce

/- `CLASSIFY_TIMEOUT`, in milliseconds. -/
def classifyTimeout : Nat := 10000

/- The pause behind an accept that failed. -/
def acceptPause : Nat := 50

inductive Classification where
| source
| other
deriving DecidableEq, Repr

/- What a peer has sent; a peek leaves it where it is. -/
structure TcpStream where
  sent : Bytes
  closed : Bool
  failed : Bool
deriving DecidableEq, Repr

/- What the peer of a socket does. -/
inductive PeerEvent where
| sends (data : Bytes)
| closes
| fails
deriving DecidableEq, Repr

namespace TcpStream

def fresh : TcpStream where
  sent := []
  closed := false
  failed := false

/- A peek comes back at once. -/
def Readable (socket : TcpStream) : Bool :=
  !socket.sent.isEmpty || socket.closed || socket.failed

/- A failed socket has lost what it had received. -/
def peek (socket : TcpStream) : Option Bytes :=
  if socket.failed then none else some (socket.sent.take 8)

def after (socket : TcpStream) : PeerEvent → Option TcpStream
| .sends data =>
    if data = [] ∨ socket.closed ∨ socket.failed then none
    else some { socket with sent := socket.sent ++ data }
| .closes =>
    if socket.failed then none
    else some { socket with closed := true }
| .fails => some { socket with failed := true }

end TcpStream

/- From the bytes of a peek, unless it failed or took long. -/
def classify : Option Bytes → Classification
| none => .other
| some buf =>
    if
      (4 ≤ buf.length ∧ buf.take 4 = utf8Bytes "PUT ") ∨
        (7 ≤ buf.length ∧ buf.take 7 = utf8Bytes "SOURCE ")
    then
      .source
    else
      .other

end RustyIce

------------------------------------------------------------
-- The Loop
------------------------------------------------------------

namespace RustyIce

/-
  The loop waits for a connection, sleeps, or waits for the
  first bytes of the connection it holds.
-/
inductive AcceptPhase where
| accepting
| sleeping (wake : Nat)
| classifying (i : Nat) (deadline : Nat)
deriving DecidableEq, Repr

def AcceptPhase.held : AcceptPhase → List Nat
| .accepting => []
| .sleeping _ => []
| .classifying i _ => [i]

/- A connection that was let go, and what the peek saw. -/
structure Dispatched where
  socket : Nat
  seen : Option Bytes
  route : Classification
deriving DecidableEq, Repr

/-
  The clock, all sockets there ever were, those nobody has
  accepted, when the others were, and those let go.
-/
structure StreamListener where
  now : Nat
  sockets : List TcpStream
  backlog : List Nat
  phase : AcceptPhase
  acceptedAt : List Nat
  dispatched : List Dispatched
deriving DecidableEq, Repr

inductive AcceptLabel where
| connects
| peer (i : Nat) (event : PeerEvent)
| accepts
| acceptFails
| wakes
| peeks
| timesOut
| ticks
deriving DecidableEq, Repr

namespace StreamListener

def start : StreamListener where
  now := 0
  sockets := []
  backlog := []
  phase := .accepting
  acceptedAt := []
  dispatched := []

def ReadableAt (s : StreamListener) (i : Nat) : Bool :=
  match s.sockets[i]? with
  | some socket => socket.Readable
  | none => false

/- The loop can do nothing before time passes. -/
def Waits (s : StreamListener) : Bool :=
  match s.phase with
  | .accepting => s.backlog.isEmpty
  | .sleeping wake => s.now < wake
  | .classifying i deadline =>
      s.now < deadline && !s.ReadableAt i

def dispatch
    (s : StreamListener)
    (i : Nat)
    (seen : Option Bytes) : StreamListener :=
  { s with
    phase := .accepting
    dispatched :=
      s.dispatched ++
        [{ socket := i
           seen := seen
           route := classify seen }] }

def step
    (s : StreamListener) :
    AcceptLabel → Option StreamListener
| .connects =>
    some
      { s with
        sockets := s.sockets ++ [.fresh]
        backlog := s.backlog ++ [s.sockets.length] }
| .peer i event =>
    match s.sockets[i]? with
    | none => none
    | some socket =>
        (socket.after event).map fun next =>
          { s with sockets := s.sockets.set i next }
| .accepts =>
    match s.phase, s.backlog with
    | .accepting, i :: rest =>
        some
          { s with
            backlog := rest
            phase := .classifying i (s.now + classifyTimeout)
            acceptedAt := s.acceptedAt ++ [s.now] }
    | _, _ => none
| .acceptFails =>
    match s.phase with
    | .accepting =>
        some { s with phase := .sleeping (s.now + acceptPause) }
    | _ => none
| .wakes =>
    match s.phase with
    | .sleeping wake =>
        if wake ≤ s.now then some { s with phase := .accepting }
        else none
    | _ => none
| .peeks =>
    match s.phase with
    | .classifying i _ =>
        match s.sockets[i]? with
        | some socket =>
            if socket.Readable then
              some (s.dispatch i socket.peek)
            else
              none
        | none => none
    | _ => none
| .timesOut =>
    match s.phase with
    | .classifying i deadline =>
        -- The peek is polled before the timer.
        if deadline ≤ s.now ∧ ¬ s.ReadableAt i then
          some (s.dispatch i none)
        else
          none
    | _ => none
| .ticks =>
    -- The loop does not wait longer than it has to.
    if s.Waits then some { s with now := s.now + 1 } else none

end StreamListener

def acceptMachine :
    Library.Machine StreamListener AcceptLabel where
  init := fun s => s = .start
  step := StreamListener.step

end RustyIce

------------------------------------------------------------
-- Moves
------------------------------------------------------------

namespace RustyIce

/- What a step does, and when it may be taken. -/
inductive AcceptMove
    (s : StreamListener) :
    AcceptLabel → StreamListener → Prop
| connects :
    AcceptMove s .connects
      { s with
        sockets := s.sockets ++ [.fresh]
        backlog := s.backlog ++ [s.sockets.length] }
| peer
    {i : Nat}
    {event : PeerEvent}
    {socket next : TcpStream}
    (hSocket : s.sockets[i]? = some socket)
    (hAfter : socket.after event = some next) :
    AcceptMove s (.peer i event)
      { s with sockets := s.sockets.set i next }
| accepts
    {i : Nat}
    {rest : List Nat}
    (hPhase : s.phase = .accepting)
    (hBacklog : s.backlog = i :: rest) :
    AcceptMove s .accepts
      { s with
        backlog := rest
        phase := .classifying i (s.now + classifyTimeout)
        acceptedAt := s.acceptedAt ++ [s.now] }
| acceptFails
    (hPhase : s.phase = .accepting) :
    AcceptMove s .acceptFails
      { s with phase := .sleeping (s.now + acceptPause) }
| wakes
    {wake : Nat}
    (hPhase : s.phase = .sleeping wake)
    (hLate : wake ≤ s.now) :
    AcceptMove s .wakes { s with phase := .accepting }
| peeks
    {i deadline : Nat}
    {socket : TcpStream}
    (hPhase : s.phase = .classifying i deadline)
    (hSocket : s.sockets[i]? = some socket)
    (hReadable : socket.Readable = true) :
    AcceptMove s .peeks (s.dispatch i socket.peek)
| timesOut
    {i deadline : Nat}
    (hPhase : s.phase = .classifying i deadline)
    (hLate : deadline ≤ s.now)
    (hQuiet : ¬ s.ReadableAt i = true) :
    AcceptMove s .timesOut (s.dispatch i none)
| ticks
    (hWaits : s.Waits = true) :
    AcceptMove s .ticks { s with now := s.now + 1 }

theorem acceptMove_of_step
    {s t : StreamListener}
    {label : AcceptLabel}
    (hStep : s.step label = some t) :
    AcceptMove s label t := by
  cases label with
  | connects =>
      cases hStep
      exact .connects
  | peer i event =>
      unfold StreamListener.step at hStep
      dsimp only at hStep
      split at hStep
      · cases hStep
      · rename_i socket hSocket
        rcases Option.map_eq_some_iff.mp hStep with
          ⟨next, hAfter, hSame⟩
        subst hSame
        exact .peer hSocket hAfter
  | accepts =>
      unfold StreamListener.step at hStep
      dsimp only at hStep
      split at hStep
      · rename_i hPhase hBacklog
        cases hStep
        exact .accepts hPhase hBacklog
      · cases hStep
  | acceptFails =>
      unfold StreamListener.step at hStep
      dsimp only at hStep
      split at hStep
      · rename_i hPhase
        cases hStep
        exact .acceptFails hPhase
      · cases hStep
  | wakes =>
      unfold StreamListener.step at hStep
      dsimp only at hStep
      split at hStep
      · rename_i hPhase
        split_ifs at hStep with hLate
        cases hStep
        exact .wakes hPhase hLate
      · cases hStep
  | peeks =>
      unfold StreamListener.step at hStep
      dsimp only at hStep
      split at hStep
      · rename_i hPhase
        split at hStep
        · rename_i socket hSocket
          split_ifs at hStep with hReadable
          cases hStep
          exact .peeks hPhase hSocket hReadable
        · cases hStep
      · cases hStep
  | timesOut =>
      unfold StreamListener.step at hStep
      dsimp only at hStep
      split at hStep
      · rename_i hPhase
        split_ifs at hStep with hLate
        cases hStep
        exact .timesOut hPhase hLate.1 hLate.2
      · cases hStep
  | ticks =>
      unfold StreamListener.step at hStep
      dsimp only at hStep
      split_ifs at hStep with hWaits
      cases hStep
      exact .ticks hWaits

end RustyIce

------------------------------------------------------------
-- Sockets Over Time
------------------------------------------------------------

namespace RustyIce

variable {s t : StreamListener}

/- A socket keeps what it was sent, and does not go quiet. -/
structure TcpStream.Continues
    (before after : TcpStream) : Prop where
  sent : before.sent <+: after.sent
  readable : before.Readable = true → after.Readable = true

theorem TcpStream.Continues.refl (socket : TcpStream) :
    socket.Continues socket where
  sent := List.prefix_refl _
  readable := id

theorem TcpStream.continues_after
    {socket next : TcpStream}
    {event : PeerEvent}
    (hAfter : socket.after event = some next) :
    socket.Continues next := by
  cases event with
  | sends data =>
      unfold after at hAfter
      dsimp only at hAfter
      split_ifs at hAfter
      cases hAfter
      constructor
      · exact List.prefix_append _ _
      · intro hReadable
        unfold Readable at hReadable ⊢
        cases hSent : socket.sent with
        | nil =>
            rw [hSent] at hReadable
            simp only [Bool.or_eq_true, List.isEmpty_nil,
              Bool.not_true, Bool.false_eq_true,
              false_or] at hReadable
            simp only [Bool.or_eq_true]
            exact hReadable.imp .inr id
        | cons byte rest => rfl
  | closes =>
      unfold after at hAfter
      dsimp only at hAfter
      split_ifs at hAfter
      cases hAfter
      refine ⟨List.prefix_refl _, fun _ => ?_⟩
      simp [Readable]
  | fails =>
      cases hAfter
      refine ⟨List.prefix_refl _, fun _ => ?_⟩
      simp [Readable]

/- Sockets come, and those there are go on. -/
def StreamListener.Grows (s t : StreamListener) : Prop :=
  ∀ (i : Nat) (socket : TcpStream),
    s.sockets[i]? = some socket →
      ∃ after,
        t.sockets[i]? = some after ∧ socket.Continues after

theorem grows_of_same
    (hSame : t.sockets = s.sockets) :
    s.Grows t := by
  intro i socket hSocket
  rw [hSame]
  exact ⟨socket, hSocket, .refl socket⟩

theorem grows_of_step
    {label : AcceptLabel}
    (hStep : s.step label = some t) :
    s.Grows t := by
  cases acceptMove_of_step hStep with
  | connects =>
      intro i socket hSocket
      refine ⟨socket, ?_, .refl socket⟩
      rw [List.getElem?_append_left
        (List.getElem?_eq_some_iff.mp hSocket).1]
      exact hSocket
  | @peer k event found next hFound hAfter =>
      intro i socket hSocket
      by_cases hHere : k = i
      · subst hHere
        rw [hFound] at hSocket
        cases hSocket
        refine ⟨next, ?_, TcpStream.continues_after hAfter⟩
        exact
          List.getElem?_set_self
            (List.getElem?_eq_some_iff.mp hFound).1
      · refine ⟨socket, ?_, .refl socket⟩
        exact (List.getElem?_set_ne hHere).trans hSocket
  | accepts hPhase hBacklog => exact grows_of_same rfl
  | acceptFails hPhase => exact grows_of_same rfl
  | wakes hPhase hLate => exact grows_of_same rfl
  | peeks hPhase hSocket hReadable => exact grows_of_same rfl
  | timesOut hPhase hLate hQuiet => exact grows_of_same rfl
  | ticks hWaits => exact grows_of_same rfl

/- The peer has done nothing yet. -/
def StreamListener.Silent
    (s : StreamListener)
    (i : Nat) : Prop :=
  ∃ socket, s.sockets[i]? = some socket ∧
    socket.Readable = false

/- Silent now is silent before. -/
theorem StreamListener.Grows.silent
    {i : Nat}
    (hGrows : s.Grows t)
    (hThere : i < s.sockets.length)
    (hSilent : t.Silent i) :
    s.Silent i := by
  rcases hSilent with ⟨after, hAfter, hQuiet⟩
  rcases hGrows i _ (List.getElem?_eq_getElem hThere) with
    ⟨other, hOther, hGoes⟩
  rw [hAfter] at hOther
  cases hOther
  refine ⟨_, List.getElem?_eq_getElem hThere, ?_⟩
  cases hWas : s.sockets[i].Readable with
  | false => rfl
  | true =>
      rw [hGoes.readable hWas] at hQuiet
      cases hQuiet

end RustyIce

------------------------------------------------------------
-- Every Connection Once, In Order
------------------------------------------------------------

namespace RustyIce

variable {s t : StreamListener}

/- The bytes a peek saw are among the first of a socket's. -/
structure Dispatched.SawOf
    (d : Dispatched)
    (socket : TcpStream) : Prop where
  route : d.route = classify d.seen
  seen :
    ∀ buf,
      d.seen = some buf →
        ∃ arrived,
          arrived <+: socket.sent ∧ buf = arrived.take 8

theorem Dispatched.SawOf.continues
    {d : Dispatched}
    {socket next : TcpStream}
    (hSaw : d.SawOf socket)
    (hGoes : socket.Continues next) :
    d.SawOf next where
  route := hSaw.route
  seen := by
    intro buf hSeen
    rcases hSaw.seen buf hSeen with ⟨arrived, hArrived, hBuf⟩
    exact ⟨arrived, hArrived.trans hGoes.sent, hBuf⟩

/- What the loop's timers are set to. -/
def AcceptPhase.Timed
    (now : Nat)
    (acceptedAt : List Nat) : AcceptPhase → Prop
| .accepting => True
| .sleeping wake => now ≤ wake ∧ wake ≤ now + acceptPause
| .classifying i deadline =>
    ∃ time,
      acceptedAt[i]? = some time ∧
        deadline = time + classifyTimeout ∧
          time ≤ now ∧ now ≤ deadline

/-
  The sockets let go, the one held and those in the backlog
  are all, in the order they came; the silent ones among
  those let go took their time.
-/
structure AcceptInv (s : StreamListener) : Prop where
  order :
    s.dispatched.map (·.socket) ++
          (s.phase.held ++ s.backlog) =
      List.range s.sockets.length
  times :
    s.acceptedAt.length =
      s.dispatched.length + s.phase.held.length
  timed : s.phase.Timed s.now s.acceptedAt
  saw :
    ∀ d ∈ s.dispatched,
      ∃ socket,
        s.sockets[d.socket]? = some socket ∧ d.SawOf socket
  took :
    ∀ i time,
      s.acceptedAt[i]? = some time →
        i < s.dispatched.length →
          s.Silent i → time + classifyTimeout ≤ s.now
  apart :
    ∀ i time next,
      s.acceptedAt[i]? = some time →
        s.acceptedAt[i + 1]? = some next →
          s.Silent i → time + classifyTimeout ≤ next

namespace AcceptInv

theorem start : AcceptInv .start where
  order := rfl
  times := rfl
  timed := trivial
  saw := by
    intro d hNever
    cases hNever
  took := by
    intro i time hNever
    cases hNever
  apart := by
    intro i time next hNever
    cases hNever

/- How many sockets are accounted for. -/
theorem length
    (hInv : AcceptInv s) :
    s.dispatched.length +
          (s.phase.held.length + s.backlog.length) =
      s.sockets.length := by
  have hLength := congrArg List.length hInv.order
  simpa using hLength

/- The next socket is the one behind those let go. -/
theorem next_eq
    {i : Nat}
    {rest : List Nat}
    (hInv : AcceptInv s)
    (hNext : s.phase.held ++ s.backlog = i :: rest) :
    i = s.dispatched.length := by
  have hOrder := hInv.order
  rw [hNext] at hOrder
  have hAt := congrArg (·[s.dispatched.length]?) hOrder
  have hLength := hInv.length
  have hSome :
      0 < s.phase.held.length + s.backlog.length := by
    rw [← List.length_append, hNext]
    exact Nat.succ_pos _
  simp only [List.getElem?_append_right, List.length_map,
    Nat.le_refl, Nat.sub_self, List.getElem?_cons_zero] at hAt
  rw [List.getElem?_range (by omega)] at hAt
  exact Option.some.inj hAt

theorem accepted_lt
    {i time : Nat}
    (hInv : AcceptInv s)
    (hTime : s.acceptedAt[i]? = some time) :
    i < s.sockets.length := by
  have hLess := (List.getElem?_eq_some_iff.mp hTime).1
  have hTimes := hInv.times
  have hLength := hInv.length
  omega

/- Sockets that come, bytes that come, and time. -/
theorem grows
    (hInv : AcceptInv s)
    (hGrows : s.Grows t)
    (hOrder :
      t.phase.held ++ t.backlog =
        s.phase.held ++ s.backlog ++
          List.range' s.sockets.length
            (t.sockets.length - s.sockets.length))
    (hMore : s.sockets.length ≤ t.sockets.length)
    (hDispatched : t.dispatched = s.dispatched)
    (hAccepted : t.acceptedAt = s.acceptedAt)
    (hHeld : t.phase.held = s.phase.held)
    (hTimed : t.phase.Timed t.now t.acceptedAt)
    (hNow : s.now ≤ t.now) :
    AcceptInv t where
  order := by
    rw [hOrder, hDispatched, ← List.append_assoc, hInv.order,
      List.range_eq_range', List.range_eq_range']
    have hAll :=
      List.range'_append_1 (s := 0) (m := s.sockets.length)
        (n := t.sockets.length - s.sockets.length)
    rw [Nat.zero_add] at hAll
    rw [hAll]
    congr 1
    omega
  times := by
    rw [hAccepted, hDispatched, hHeld]
    exact hInv.times
  timed := hTimed
  saw := by
    intro d hMem
    rw [hDispatched] at hMem
    rcases hInv.saw d hMem with ⟨socket, hSocket, hSaw⟩
    rcases hGrows _ _ hSocket with ⟨after, hAfter, hGoes⟩
    exact ⟨after, hAfter, hSaw.continues hGoes⟩
  took := by
    intro i time hTime hLess hSilent
    rw [hAccepted] at hTime
    rw [hDispatched] at hLess
    have hWas := hGrows.silent (hInv.accepted_lt hTime) hSilent
    exact
      Nat.le_trans (hInv.took i time hTime hLess hWas) hNow
  apart := by
    intro i time next hTime hNext hSilent
    rw [hAccepted] at hTime hNext
    have hWas := hGrows.silent (hInv.accepted_lt hTime) hSilent
    exact hInv.apart i time next hTime hNext hWas

/- The connection it holds is let go. -/
theorem dispatch
    {i deadline : Nat}
    {seen : Option Bytes}
    (hInv : AcceptInv s)
    (hPhase : s.phase = .classifying i deadline)
    (hSaw :
      ∃ socket,
        s.sockets[i]? = some socket ∧
          ∀ buf, seen = some buf → buf = socket.sent.take 8)
    (hTook : s.Silent i → deadline ≤ s.now) :
    AcceptInv (s.dispatch i seen) := by
  have hOrder := hInv.order
  have hTimes := hInv.times
  have hTimed := hInv.timed
  have hNext : s.phase.held ++ s.backlog = i :: s.backlog := by
    rw [hPhase]
    rfl
  have hHere := hInv.next_eq hNext
  rw [hPhase] at hOrder hTimes hTimed
  rcases hTimed with ⟨start, hStart, hDeadline, -, -⟩
  constructor
  · refine Eq.trans ?_ hOrder
    simp only [StreamListener.dispatch, List.map_append,
      List.map_cons, List.map_nil, List.append_assoc]
    rfl
  · simp only [StreamListener.dispatch, List.length_append]
    exact hTimes
  · exact trivial
  · intro d hMem
    rcases List.mem_append.mp hMem with hOld | hNew
    · exact hInv.saw d hOld
    · rw [List.mem_singleton.mp hNew]
      rcases hSaw with ⟨socket, hSocket, hBuf⟩
      refine ⟨socket, hSocket, rfl, ?_⟩
      intro buf hSeen
      exact ⟨socket.sent, List.prefix_refl _, hBuf buf hSeen⟩
  · intro k time hTime hLess hSilent
    simp only [StreamListener.dispatch, List.length_append,
      List.length_singleton] at hLess
    by_cases hOld : k < s.dispatched.length
    · exact hInv.took k time hTime hOld hSilent
    · have hSame : k = i := by omega
      subst hSame
      have hTime' : s.acceptedAt[k]? = some time := hTime
      rw [hStart] at hTime'
      cases hTime'
      rw [← hDeadline]
      exact hTook hSilent
  · exact hInv.apart

/- The loop takes the next connection. -/
theorem accept
    {i : Nat}
    {rest : List Nat}
    (hInv : AcceptInv s)
    (hPhase : s.phase = .accepting)
    (hBacklog : s.backlog = i :: rest) :
    AcceptInv
      { s with
        backlog := rest
        phase := .classifying i (s.now + classifyTimeout)
        acceptedAt := s.acceptedAt ++ [s.now] } := by
  have hOrder := hInv.order
  have hTimes := hInv.times
  have hNext : s.phase.held ++ s.backlog = i :: rest := by
    rw [hPhase, hBacklog]
    rfl
  have hHere := hInv.next_eq hNext
  rw [hPhase] at hOrder hTimes
  rw [hBacklog] at hOrder
  have hLength : s.acceptedAt.length = i := by
    rw [hTimes, hHere]
    rfl
  constructor
  · exact hOrder
  · simp only [List.length_append, List.length_singleton,
      AcceptPhase.held]
    omega
  · refine
      ⟨s.now, ?_, rfl, Nat.le_refl _, Nat.le_add_right _ _⟩
    rw [← hLength]
    exact List.getElem?_concat_length
  · exact hInv.saw
  · intro k time hTime hLess hSilent
    have hLess' : k < s.dispatched.length := hLess
    rw [List.getElem?_append_left (by omega)] at hTime
    exact hInv.took k time hTime hLess hSilent
  · intro k time next hTime hNext hSilent
    by_cases hOld : k + 1 < s.acceptedAt.length
    · rw [List.getElem?_append_left (by omega)] at hTime
      rw [List.getElem?_append_left hOld] at hNext
      exact hInv.apart k time next hTime hNext hSilent
    · have hLast := (List.getElem?_eq_some_iff.mp hNext).1
      rw [List.length_append, List.length_singleton] at hLast
      have hAt : k + 1 = s.acceptedAt.length := by omega
      rw [List.getElem?_append_left (by omega)] at hTime
      rw [hAt, List.getElem?_concat_length] at hNext
      cases hNext
      exact hInv.took k time hTime (by omega) hSilent

/- A change of the phase that holds no connection. -/
theorem phase
    {phase : AcceptPhase}
    (hInv : AcceptInv s)
    (hHeld : phase.held = s.phase.held)
    (hTimed : phase.Timed s.now s.acceptedAt) :
    AcceptInv { s with phase := phase } where
  order := by
    rw [← hInv.order, ← hHeld]
  times := by
    rw [hInv.times, ← hHeld]
  timed := hTimed
  saw := hInv.saw
  took := hInv.took
  apart := hInv.apart

/- Time passes as long as the loop waits. -/
theorem tick
    (hInv : AcceptInv s)
    (hWaits : s.Waits = true) :
    AcceptInv { s with now := s.now + 1 } := by
  have hTimed := hInv.timed
  unfold StreamListener.Waits at hWaits
  refine
    { order := hInv.order
      times := hInv.times
      timed := ?_
      saw := hInv.saw
      took := ?_
      apart := hInv.apart }
  · cases hPhase : s.phase with
    | accepting => exact trivial
    | sleeping wake =>
        rw [hPhase] at hTimed hWaits
        have hBefore := of_decide_eq_true hWaits
        simp only [AcceptPhase.Timed] at hTimed ⊢
        omega
    | classifying i deadline =>
        rw [hPhase] at hTimed hWaits
        have hBefore :=
          of_decide_eq_true (Bool.and_eq_true_iff.mp hWaits).1
        rcases hTimed with
          ⟨time, hTime, hDeadline, hAfter, -⟩
        exact
          ⟨time, hTime, hDeadline, Nat.le_succ_of_le hAfter,
            hBefore⟩
  · intro i time hTime hLess hSilent
    exact
      Nat.le_succ_of_le (hInv.took i time hTime hLess hSilent)

theorem move
    {label : AcceptLabel}
    (hInv : AcceptInv s)
    (hStep : s.step label = some t) :
    AcceptInv t := by
  have hGrows := grows_of_step hStep
  cases acceptMove_of_step hStep with
  | connects =>
      refine
        hInv.grows hGrows ?_ ?_ rfl rfl rfl hInv.timed
          (Nat.le_refl _)
      · simp
      · simp
  | peer hSocket hAfter =>
      refine
        hInv.grows hGrows ?_ ?_ rfl rfl rfl hInv.timed
          (Nat.le_refl _)
      · simp
      · simp
  | accepts hPhase hBacklog => exact hInv.accept hPhase hBacklog
  | acceptFails hPhase =>
      apply hInv.phase
      · rw [hPhase]
        rfl
      · exact ⟨Nat.le_add_right _ _, Nat.le_refl _⟩
  | wakes hPhase hLate =>
      apply hInv.phase
      · rw [hPhase]
        rfl
      · exact trivial
  | @peeks i deadline socket hPhase hSocket hReadable =>
      apply hInv.dispatch hPhase
      · refine ⟨socket, hSocket, ?_⟩
        intro buf hSeen
        unfold TcpStream.peek at hSeen
        split_ifs at hSeen
        cases hSeen
        rfl
      · rintro ⟨quiet, hQuiet, hNot⟩
        rw [hSocket] at hQuiet
        cases hQuiet
        rw [hReadable] at hNot
        cases hNot
  | timesOut hPhase hLate hQuiet =>
      have hTimed := hInv.timed
      rw [hPhase] at hTimed
      rcases hTimed with ⟨time, hTime, -⟩
      apply hInv.dispatch hPhase
      · refine
          ⟨_, List.getElem?_eq_getElem
            (hInv.accepted_lt hTime), ?_⟩
        intro buf hNever
        cases hNever
      · exact fun _ => hLate
  | ticks hWaits => exact hInv.tick hWaits

theorem of_reachable
    (hReach : acceptMachine.Reachable s) :
    AcceptInv s := by
  refine
    Library.Machine.ReachableUnder.invariant ?_ ?_ hReach
  · rintro s rfl
    exact .start
  · intro s label t hInv _ hStep
    exact hInv.move hStep

end AcceptInv

end RustyIce

------------------------------------------------------------
-- What A Peek Tells
------------------------------------------------------------

namespace RustyIce

variable {s t : StreamListener}

/- How the requests of sources begin. -/
def sourceMethods : List Bytes :=
  [utf8Bytes "PUT ", utf8Bytes "SOURCE "]

theorem classify_eq_source_iff (buf : Bytes) :
    classify (some buf) = .source ↔
      ∃ method ∈ sourceMethods, method <+: buf := by
  have hBegins (method : Bytes) :
      method <+: buf ↔
        method.length ≤ buf.length ∧
          buf.take method.length = method := by
    constructor
    · intro hPrefix
      exact
        ⟨hPrefix.length_le,
          (List.prefix_iff_eq_take.mp hPrefix).symm⟩
    · rintro ⟨-, hTake⟩
      rw [← hTake]
      exact List.take_prefix _ _
  have hPut := hBegins (utf8Bytes "PUT ")
  have hSource := hBegins (utf8Bytes "SOURCE ")
  have hPutLength : (utf8Bytes "PUT ").length = 4 := by decide
  have hSourceLength : (utf8Bytes "SOURCE ").length = 7 := by
    decide
  rw [hPutLength] at hPut
  rw [hSourceLength] at hSource
  simp only [sourceMethods, List.mem_cons, List.not_mem_nil,
    or_false, exists_eq_or_imp, exists_eq_left, hPut, hSource]
  unfold classify
  dsimp only
  split_ifs with hBoth
  · exact iff_of_true rfl hBoth
  · refine iff_of_false ?_ hBoth
    intro hNever
    cases hNever

/-
  The source handler gets sources only; a source that went
  elsewhere was cut short inside its method, or not heard.
-/
structure Dispatched.RoutedBy
    (d : Dispatched)
    (socket : TcpStream) : Prop where
  source :
    d.route = .source →
      ∃ method ∈ sourceMethods, method <+: socket.sent
  other :
    d.route = .other →
      ∀ method ∈ sourceMethods,
        method <+: socket.sent →
          d.seen = none ∨
            ∃ buf,
              d.seen = some buf ∧
                buf <+: method ∧ buf ≠ method

theorem Dispatched.SawOf.routedBy
    {d : Dispatched}
    {socket : TcpStream}
    (hSaw : d.SawOf socket) :
    d.RoutedBy socket where
  source := by
    intro hSource
    rw [hSaw.route] at hSource
    cases hSeen : d.seen with
    | none =>
        rw [hSeen] at hSource
        cases hSource
    | some buf =>
        rw [hSeen] at hSource
        rcases (classify_eq_source_iff buf).mp hSource with
          ⟨method, hMethod, hBegins⟩
        rcases hSaw.seen buf hSeen with
          ⟨arrived, hArrived, hBuf⟩
        rw [hBuf] at hBegins
        exact
          ⟨method, hMethod,
            hBegins.trans
              ((List.take_prefix _ _).trans hArrived)⟩
  other := by
    intro hOther method hMethod hBegins
    rw [hSaw.route] at hOther
    cases hSeen : d.seen with
    | none => exact .inl rfl
    | some buf =>
        refine .inr ⟨buf, rfl, ?_⟩
        rw [hSeen] at hOther
        have hNot : ¬ method <+: buf := by
          intro hThere
          have hSource :=
            (classify_eq_source_iff buf).mpr
              ⟨method, hMethod, hThere⟩
          rw [hOther] at hSource
          cases hSource
        rcases hSaw.seen buf hSeen with
          ⟨arrived, hArrived, hBuf⟩
        have hSent : buf <+: socket.sent := by
          rw [hBuf]
          exact (List.take_prefix _ _).trans hArrived
        rcases List.prefix_or_prefix_of_prefix hSent hBegins
          with hShort | hLong
        · refine ⟨hShort, ?_⟩
          rintro rfl
          exact hNot (List.prefix_refl _)
        · exact absurd hLong hNot

/- What a step brings to a socket. -/
def AcceptLabel.sentTo (i : Nat) : AcceptLabel → Bytes
| .peer k (.sends data) => if k = i then data else []
| _ => []

/- What whoever reads a socket next will find there. -/
def StreamListener.sentAt
    (s : StreamListener)
    (i : Nat) : Bytes :=
  match s.sockets[i]? with
  | some socket => socket.sent
  | none => []

theorem TcpStream.sent_after
    {socket next : TcpStream}
    {event : PeerEvent}
    (i : Nat)
    (hAfter : socket.after event = some next) :
    next.sent =
      socket.sent ++ AcceptLabel.sentTo i (.peer i event) := by
  cases event with
  | sends data =>
      unfold after at hAfter
      dsimp only at hAfter
      split_ifs at hAfter
      cases hAfter
      simp only [AcceptLabel.sentTo, if_true]
  | closes =>
      unfold after at hAfter
      dsimp only at hAfter
      split_ifs at hAfter
      cases hAfter
      exact (List.append_nil _).symm
  | fails =>
      cases hAfter
      exact (List.append_nil _).symm

/- A step takes no byte off any socket. -/
theorem sentAt_of_step
    {label : AcceptLabel}
    (hStep : s.step label = some t)
    (i : Nat) :
    t.sentAt i = s.sentAt i ++ label.sentTo i := by
  have hKeeps
      (hSame : t.sockets = s.sockets)
      (hNothing : label.sentTo i = []) :
      t.sentAt i = s.sentAt i ++ label.sentTo i := by
    rw [hNothing, List.append_nil]
    unfold StreamListener.sentAt
    rw [hSame]
  cases acceptMove_of_step hStep with
  | connects =>
      have hNothing : AcceptLabel.sentTo i .connects = [] := rfl
      rw [hNothing, List.append_nil]
      unfold StreamListener.sentAt
      rcases Nat.lt_trichotomy i s.sockets.length with
        hOld | hNew | hNone
      · rw [List.getElem?_append_left hOld]
      · subst hNew
        rw [List.getElem?_concat_length,
          List.getElem?_eq_none (Nat.le_refl _)]
        rfl
      · rw [List.getElem?_eq_none (Nat.le_of_lt hNone),
          List.getElem?_eq_none]
        rw [List.length_append, List.length_singleton]
        exact hNone
  | @peer k event socket next hSocket hAfter =>
      by_cases hHere : k = i
      · subst hHere
        unfold StreamListener.sentAt
        rw [hSocket, List.getElem?_set_self
          (List.getElem?_eq_some_iff.mp hSocket).1]
        exact socket.sent_after k hAfter
      · have hNothing :
            AcceptLabel.sentTo i (.peer k event) = [] := by
          cases event with
          | sends data => exact if_neg hHere
          | closes => rfl
          | fails => rfl
        rw [hNothing, List.append_nil]
        unfold StreamListener.sentAt
        rw [List.getElem?_set_ne hHere]
  | accepts hPhase hBacklog => exact hKeeps rfl rfl
  | acceptFails hPhase => exact hKeeps rfl rfl
  | wakes hPhase hLate => exact hKeeps rfl rfl
  | peeks hPhase hSocket hReadable => exact hKeeps rfl rfl
  | timesOut hPhase hLate hQuiet => exact hKeeps rfl rfl
  | ticks hWaits => exact hKeeps rfl rfl

theorem sentAt_of_run
    {labels : List AcceptLabel}
    (hRun : acceptMachine.run s labels = some t)
    (i : Nat) :
    t.sentAt i = s.sentAt i ++ labels.flatMap (·.sentTo i) := by
  induction labels generalizing s with
  | nil =>
      cases hRun
      exact (List.append_nil _).symm
  | cons label labels ih =>
      unfold Library.Machine.run at hRun
      cases hStep : acceptMachine.step s label with
      | none =>
          rw [hStep] at hRun
          cases hRun
      | some u =>
          rw [hStep] at hRun
          rw [ih hRun, sentAt_of_step hStep, List.flatMap_cons,
            List.append_assoc]

/-
  Every connection is let go once, in the order they came,
  and all its peer has sent is still there to be read.
-/
structure DispatchedOnce
    (labels : List AcceptLabel)
    (s : StreamListener) : Prop where
  order :
    s.dispatched.map (·.socket) ++
          (s.phase.held ++ s.backlog) =
      List.range s.sockets.length
  routed :
    ∀ d ∈ s.dispatched,
      ∃ socket,
        s.sockets[d.socket]? = some socket ∧ d.RoutedBy socket
  whole :
    ∀ (i : Nat) (socket : TcpStream),
      s.sockets[i]? = some socket →
        socket.sent = labels.flatMap (·.sentTo i)

theorem dispatched_once
    {labels : List AcceptLabel}
    (hRun : acceptMachine.run .start labels = some s) :
    DispatchedOnce labels s := by
  have hInv :=
    AcceptInv.of_reachable
      (Library.Machine.reachable_of_run rfl hRun)
  refine ⟨hInv.order, ?_, ?_⟩
  · intro d hMem
    rcases hInv.saw d hMem with ⟨socket, hSocket, hSaw⟩
    exact ⟨socket, hSocket, hSaw.routedBy⟩
  · intro i socket hSocket
    have hSent := sentAt_of_run hRun i
    unfold StreamListener.sentAt at hSent
    rw [hSocket] at hSent
    exact hSent

/- The second of two sources comes in pieces. -/
def twoSources : List AcceptLabel :=
  [.connects, .connects,
    .peer 0 (.sends (utf8Bytes "SOURCE /live")), .accepts,
    .peeks, .accepts, .peer 1 (.sends (utf8Bytes "PU")),
    .peeks, .peer 1 (.sends (utf8Bytes "T /live"))]

theorem dispatched_once_twoSources :
    ∃ s,
      acceptMachine.run .start twoSources = some s ∧
        s.dispatched.map (·.route) = [.source, .other] ∧
          DispatchedOnce twoSources s := by
  have hRun :
      acceptMachine.run .start twoSources = some _ :=
    rfl
  exact ⟨_, hRun, rfl, dispatched_once hRun⟩

end RustyIce

------------------------------------------------------------
-- How Long A Connection Waits
------------------------------------------------------------

namespace RustyIce

variable {s t : StreamListener}

/- What its timer still gives the phase. -/
def AcceptPhase.left (now : Nat) : AcceptPhase → Nat
| .accepting => 0
| .sleeping wake => wake - now
| .classifying _ deadline => deadline - now

/- By then the first `n` connections have been let go. -/
def StreamListener.latest
    (n : Nat)
    (s : StreamListener) : Nat :=
  s.now + s.phase.left s.now +
    classifyTimeout * (n - s.acceptedAt.length)

/- A failed accept costs its pause. -/
def AcceptLabel.pause : AcceptLabel → Nat
| .acceptFails => acceptPause
| _ => 0

/- Steps that need nobody but the loop and the clock. -/
def AcceptLabel.Own : AcceptLabel → Prop
| .connects => False
| .peer _ _ => False
| .acceptFails => False
| _ => True

theorem sum_pause (labels : List AcceptLabel) :
    (labels.map AcceptLabel.pause).sum =
      acceptPause * labels.count .acceptFails := by
  induction labels with
  | nil => rfl
  | cons label labels ih =>
      rw [List.map_cons, List.sum_cons, ih, List.count_cons]
      cases label with
      | acceptFails =>
          simp only [AcceptLabel.pause, beq_self_eq_true,
            if_true]
          rw [Nat.mul_succ, Nat.add_comm]
      | _ => simp [AcceptLabel.pause]

namespace AcceptInv

/- While one of `n` is kept, `latest n` moves for pauses. -/
theorem latest_le
    {n : Nat}
    {label : AcceptLabel}
    (hInv : AcceptInv s)
    (hThere : n ≤ s.sockets.length)
    (hStep : s.step label = some t)
    (hKept : t.dispatched.length < n) :
    s.dispatched.length < n ∧
      t.latest n ≤ s.latest n + label.pause := by
  have hTimes := hInv.times
  have hLength := hInv.length
  unfold StreamListener.latest
  cases acceptMove_of_step hStep with
  | connects => exact ⟨hKept, Nat.le_refl _⟩
  | peer hSocket hAfter => exact ⟨hKept, Nat.le_refl _⟩
  | accepts hPhase hBacklog =>
      refine ⟨hKept, ?_⟩
      have hKept' : s.dispatched.length < n := hKept
      simp only [hPhase, AcceptPhase.left, AcceptPhase.held,
        List.length_nil, List.length_append,
        List.length_singleton, classifyTimeout,
        AcceptLabel.pause] at hTimes ⊢
      omega
  | acceptFails hPhase =>
      refine ⟨hKept, ?_⟩
      simp only [hPhase, AcceptPhase.left, AcceptLabel.pause]
      omega
  | wakes hPhase hLate =>
      refine ⟨hKept, ?_⟩
      simp only [hPhase, AcceptPhase.left]
      omega
  | peeks hPhase hSocket hReadable =>
      simp only [StreamListener.dispatch, List.length_append,
        List.length_singleton, AcceptPhase.left] at hKept ⊢
      omega
  | timesOut hPhase hLate hQuiet =>
      simp only [StreamListener.dispatch, List.length_append,
        List.length_singleton, AcceptPhase.left] at hKept ⊢
      omega
  | ticks hWaits =>
      refine ⟨hKept, ?_⟩
      have hKept' : s.dispatched.length < n := hKept
      unfold StreamListener.Waits at hWaits
      cases hPhase : s.phase with
      | accepting =>
          -- With an empty backlog all have been let go.
          rw [hPhase] at hWaits hLength
          rw [List.isEmpty_iff.mp hWaits] at hLength
          simp only [AcceptPhase.held,
            List.length_nil] at hLength
          omega
      | sleeping wake =>
          rw [hPhase] at hWaits
          have hBefore := of_decide_eq_true hWaits
          simp only [AcceptPhase.left]
          omega
      | classifying i deadline =>
          rw [hPhase] at hWaits
          have hBefore :=
            of_decide_eq_true
              (Bool.and_eq_true_iff.mp hWaits).1
          simp only [AcceptPhase.left]
          omega

/- The loop never stands still. -/
theorem goes
    (hInv : AcceptInv s) :
    ∃ label t, label.Own ∧ s.step label = some t := by
  by_cases hWaits : s.Waits = true
  · refine ⟨.ticks, { s with now := s.now + 1 }, trivial, ?_⟩
    unfold StreamListener.step
    rw [if_pos hWaits]
  · unfold StreamListener.Waits at hWaits
    cases hPhase : s.phase with
    | accepting =>
        cases hBacklog : s.backlog with
        | nil => simp [hPhase, hBacklog] at hWaits
        | cons i rest =>
            have hStep : ∃ t, s.step .accepts = some t := by
              simp only [StreamListener.step, hPhase, hBacklog]
              exact ⟨_, rfl⟩
            rcases hStep with ⟨t, hStep⟩
            exact ⟨.accepts, t, trivial, hStep⟩
    | sleeping wake =>
        rw [hPhase] at hWaits
        have hLate : wake ≤ s.now := by simpa using hWaits
        refine
          ⟨.wakes, { s with phase := .accepting }, trivial,
            ?_⟩
        simp only [StreamListener.step, hPhase]
        rw [if_pos hLate]
    | classifying i deadline =>
        rw [hPhase] at hWaits
        have hTimed := hInv.timed
        rw [hPhase] at hTimed
        rcases hTimed with ⟨time, hTime, -⟩
        have hSocket :=
          List.getElem?_eq_getElem (hInv.accepted_lt hTime)
        cases hReadable : s.ReadableAt i with
        | true =>
            have hPeek := hReadable
            unfold StreamListener.ReadableAt at hPeek
            rw [hSocket] at hPeek
            have hStep : ∃ t, s.step .peeks = some t := by
              simp only [StreamListener.step, hPhase, hSocket]
              rw [if_pos hPeek]
              exact ⟨_, rfl⟩
            rcases hStep with ⟨t, hStep⟩
            exact ⟨.peeks, t, trivial, hStep⟩
        | false =>
            have hLate : deadline ≤ s.now := by
              simpa [hReadable] using hWaits
            refine
              ⟨.timesOut, s.dispatch i none, trivial, ?_⟩
            simp only [StreamListener.step, hPhase, hReadable]
            rw [if_pos ⟨hLate, Bool.false_ne_true⟩]

/- Those let go are the first. -/
theorem letGo_of_lt
    {i : Nat}
    (hInv : AcceptInv s)
    (hLess : i < s.dispatched.length) :
    i ∈ s.dispatched.map (·.socket) := by
  have hLength := hInv.length
  have hAt := congrArg (·[i]?) hInv.order
  rw [List.getElem?_append_left
    (by rw [List.length_map]; exact hLess),
    List.getElem?_range (by omega)] at hAt
  exact List.mem_of_getElem? hAt

/- What the phase and the backlog still take. -/
theorem latest_start
    {n : Nat}
    (hInv : AcceptInv s)
    (hAll : n = s.sockets.length) :
    s.latest n ≤
      s.now +
          classifyTimeout *
            (s.phase.held.length + s.backlog.length) +
        acceptPause := by
  have hLength := hInv.length
  have hTimes := hInv.times
  have hTimed := hInv.timed
  have hLeft :
      s.phase.left s.now ≤
        classifyTimeout * s.phase.held.length +
          acceptPause := by
    cases hPhase : s.phase with
    | accepting => exact Nat.zero_le _
    | sleeping wake =>
        rw [hPhase] at hTimed
        simp only [AcceptPhase.Timed, AcceptPhase.left]
          at hTimed ⊢
        omega
    | classifying i deadline =>
        rw [hPhase] at hTimed
        rcases hTimed with ⟨time, -, hDeadline, hAfter, -⟩
        simp only [AcceptPhase.left, AcceptPhase.held,
          List.length_singleton]
        omega
  have hCount : n - s.acceptedAt.length = s.backlog.length := by
    omega
  unfold StreamListener.latest
  rw [hCount, Nat.mul_add]
  omega

end AcceptInv

theorem StreamListener.Grows.length_le
    (hGrows : s.Grows t) :
    s.sockets.length ≤ t.sockets.length := by
  by_contra hLess
  have hThere : t.sockets.length < s.sockets.length := by
    omega
  rcases hGrows _ _ (List.getElem?_eq_getElem hThere) with
    ⟨after, hAfter, -⟩
  exact
    Nat.lt_irrefl _ (List.getElem?_eq_some_iff.mp hAfter).1

/- The run: as long as one of the first `n` is kept. -/
theorem AcceptInv.latest_of_run
    {n : Nat}
    {labels : List AcceptLabel}
    (hInv : AcceptInv s)
    (hThere : n ≤ s.sockets.length)
    (hRun : acceptMachine.run s labels = some t)
    (hKept : t.dispatched.length < n) :
    t.latest n ≤
      s.latest n +
        acceptPause * labels.count .acceptFails := by
  have hMoves
      (v : StreamListener)
      (label : AcceptLabel)
      (w : StreamListener)
      (hHere : AcceptInv v ∧ n ≤ v.sockets.length)
      (hMove : acceptMachine.step v label = some w) :
      (AcceptInv w ∧ n ≤ w.sockets.length) ∧
        (w.dispatched.length < n →
          v.dispatched.length < n ∧
            w.latest n ≤ v.latest n + label.pause) := by
    have hMore := (grows_of_step hMove).length_le
    exact
      ⟨⟨hHere.1.move hMove, Nat.le_trans hHere.2 hMore⟩,
        hHere.1.latest_le hHere.2 hMove⟩
  have hSpent :=
    (Library.Machine.run_spends (StreamListener.latest n)
      AcceptLabel.pause hMoves ⟨hInv, hThere⟩ hRun hKept).2
  rw [sum_pause] at hSpent
  exact hSpent

/-
  A connection is let go once those in front of it and it
  itself have had their time, and the accepts that failed
  their pause; and the loop can always go on.
-/
theorem waits_at_most
    {u : StreamListener}
    {labels : List AcceptLabel}
    (hReach : acceptMachine.Reachable s)
    (hComes : s.step .connects = some u)
    (hRun : acceptMachine.run u labels = some t)
    (hKept :
      s.sockets.length ∉ t.dispatched.map (·.socket)) :
    t.now ≤
        s.now +
            classifyTimeout *
              (s.phase.held.length + s.backlog.length + 1) +
          acceptPause * (labels.count .acceptFails + 1) ∧
      ∃ label next,
        label.Own ∧ acceptMachine.step t label = some next := by
  have hComing : acceptMachine.step s .connects = some u :=
    hComes
  have hReached :=
    Library.Machine.ReachableUnder.step hReach trivial hComing
  have hInv := AcceptInv.of_reachable hReached
  have hLast :=
    AcceptInv.of_reachable
      (Library.Machine.Reachable.run hReached hRun)
  cases hComes
  have hAll :
      s.sockets.length + 1 =
        (s.sockets ++ [TcpStream.fresh]).length := by
    rw [List.length_append, List.length_singleton]
  have hStart :
      StreamListener.latest (s.sockets.length + 1) _ ≤
        s.now +
            classifyTimeout *
              (s.phase.held.length +
                (s.backlog ++ [s.sockets.length]).length) +
          acceptPause :=
    hInv.latest_start hAll
  -- It is one of the first, and not let go at the end.
  have hLess :
      t.dispatched.length < s.sockets.length + 1 := by
    by_contra hGone
    exact hKept (hLast.letGo_of_lt (by omega))
  have hSpent :=
    hInv.latest_of_run (Nat.le_of_eq hAll) hRun hLess
  have hNow :
      t.now ≤ t.latest (s.sockets.length + 1) := by
    unfold StreamListener.latest
    omega
  refine ⟨?_, hLast.goes⟩
  rw [Nat.mul_add acceptPause, Nat.mul_one]
  rw [List.length_append, List.length_singleton,
    ← Nat.add_assoc] at hStart
  omega

/- The one behind another is let go a little later. -/
theorem waits_at_most_second :
    ∃ s u t,
      acceptMachine.run .start [.connects, .accepts] =
          some s ∧
        s.step .connects = some u ∧
          acceptMachine.run u
              [.ticks, .peer 0 (.sends [71]), .peeks,
                .acceptFails, .ticks] =
            some t ∧
            t.now = 2 ∧
              t.now ≤
                s.now +
                    classifyTimeout *
                      (s.phase.held.length +
                          s.backlog.length +
                        1) +
                  acceptPause * (1 + 1) := by
  have hRuns :
      ∃ s u t,
        acceptMachine.run .start [.connects, .accepts] =
            some s ∧
          s.step .connects = some u ∧
            acceptMachine.run u
                [.ticks, .peer 0 (.sends [71]), .peeks,
                  .acceptFails, .ticks] =
              some t ∧
              t.now = 2 ∧
                s.sockets.length ∉
                  t.dispatched.map (·.socket) := by
    refine ⟨_, _, _, rfl, rfl, rfl, rfl, ?_⟩
    decide
  rcases hRuns with
    ⟨s, u, t, hFirst, hComes, hRun, hNow, hKept⟩
  have hReach :=
    Library.Machine.reachable_of_run rfl hFirst
  exact
    ⟨s, u, t, hFirst, hComes, hRun, hNow,
      (waits_at_most hReach hComes hRun hKept).1⟩

/-
  Each connection of a row that sends nothing keeps the ones
  behind it from being accepted for the whole of its time.
-/
theorem held_up
    {i j first last : Nat}
    (hReach : acceptMachine.Reachable s)
    (hBehind : i ≤ j)
    (hFirst : s.acceptedAt[i]? = some first)
    (hLast : s.acceptedAt[j]? = some last)
    (hSilent : ∀ k, i ≤ k → k < j → s.Silent k) :
    first + classifyTimeout * (j - i) ≤ last := by
  have hInv := AcceptInv.of_reachable hReach
  rcases Nat.exists_eq_add_of_le hBehind with ⟨count, rfl⟩
  rw [Nat.add_sub_cancel_left]
  clear hBehind
  induction count generalizing last with
  | zero =>
      rw [Nat.add_zero, hFirst] at hLast
      cases hLast
      exact Nat.le_refl _
  | succ count ih =>
      have hLess := (List.getElem?_eq_some_iff.mp hLast).1
      have hThere : i + count < s.acceptedAt.length := by
        omega
      have hBefore := List.getElem?_eq_getElem hThere
      have hGap :=
        hInv.apart (i + count) _ last hBefore hLast
          (hSilent (i + count) (Nat.le_add_right _ _)
            (Nat.lt_succ_self _))
      have hRest :=
        ih hBefore fun k hFrom hTo =>
          hSilent k hFrom (Nat.lt_succ_of_lt hTo)
      rw [Nat.mul_succ]
      omega

/- Time passes over a silent connection. -/
theorem run_ticks
    {i deadline count : Nat}
    (hPhase : s.phase = .classifying i deadline)
    (hSilent : s.ReadableAt i = false)
    (hBefore : s.now + count ≤ deadline) :
    acceptMachine.run s (List.replicate count .ticks) =
      some { s with now := s.now + count } := by
  induction count generalizing s with
  | zero => rfl
  | succ count ih =>
      have hWaits : s.Waits = true := by
        unfold StreamListener.Waits
        rw [hPhase]
        simp only [hSilent, Bool.not_false, Bool.and_true,
          decide_eq_true_eq]
        omega
      have hTick :
          acceptMachine.step s .ticks =
            some { s with now := s.now + 1 } := by
        change s.step .ticks = _
        unfold StreamListener.step
        rw [if_pos hWaits]
      have hNext :
          acceptMachine.run s
              (.ticks :: List.replicate count .ticks) =
            acceptMachine.run { s with now := s.now + 1 }
              (List.replicate count .ticks) := by
        rw [Library.Machine.run, hTick]
      rw [List.replicate_succ, hNext]
      have hLeft : s.now + 1 + count ≤ deadline := by omega
      have hRest :=
        ih (s := { s with now := s.now + 1 }) hPhase hSilent
          hLeft
      rw [hRest, Nat.add_assoc, Nat.add_comm 1 count]

/- Three silent connections, the first of them accepted. -/
def StreamListener.holding : StreamListener where
  now := 0
  sockets := List.replicate 3 .fresh
  backlog := [1, 2]
  phase := .classifying 0 classifyTimeout
  acceptedAt := [0]
  dispatched := []

/- The first of them has had its time. -/
def StreamListener.holdingSecond : StreamListener where
  now := classifyTimeout
  sockets := List.replicate 3 .fresh
  backlog := [2]
  phase := .classifying 1 (classifyTimeout + classifyTimeout)
  acceptedAt := [0, classifyTimeout]
  dispatched :=
    [{ socket := 0
       seen := none
       route := .other }]

def silentRow : List AcceptLabel :=
  [.connects, .connects, .connects, .accepts] ++
    (List.replicate classifyTimeout .ticks ++
      ([.timesOut, .accepts] ++
        (List.replicate classifyTimeout .ticks ++
          [.timesOut, .accepts])))

theorem held_up_silentRow :
    ∃ s first last,
      acceptMachine.run .start silentRow = some s ∧
        s.acceptedAt[0]? = some first ∧
          s.acceptedAt[2]? = some last ∧
            first + classifyTimeout * (2 - 0) ≤ last := by
  have hFirst :
      acceptMachine.run .start
          [.connects, .connects, .connects, .accepts] =
        some .holding :=
    rfl
  have hTicks :
      acceptMachine.run .holding
          (List.replicate classifyTimeout .ticks) =
        some
          { StreamListener.holding with
            now := 0 + classifyTimeout } :=
    run_ticks rfl rfl (Nat.le_of_eq (Nat.zero_add _))
  have hSecond :
      acceptMachine.run
          { StreamListener.holding with
            now := 0 + classifyTimeout }
          [.timesOut, .accepts] =
        some .holdingSecond :=
    rfl
  have hMore :
      acceptMachine.run .holdingSecond
          (List.replicate classifyTimeout .ticks) =
        some
          { StreamListener.holdingSecond with
            now := classifyTimeout + classifyTimeout } :=
    run_ticks rfl rfl (Nat.le_refl _)
  have hRuns :
      ∃ s first last,
        acceptMachine.run
            { StreamListener.holdingSecond with
              now := classifyTimeout + classifyTimeout }
            [.timesOut, .accepts] =
          some s ∧
          s.acceptedAt[0]? = some first ∧
            s.acceptedAt[2]? = some last ∧
              s.Silent 0 ∧ s.Silent 1 :=
    ⟨_, _, _, rfl, rfl, rfl, ⟨_, rfl, rfl⟩, ⟨_, rfl, rfl⟩⟩
  rcases hRuns with
    ⟨s, first, last, hThen, hHere, hNext, hQuiet, hStill⟩
  have hRun : acceptMachine.run .start silentRow = some s := by
    unfold silentRow
    rw [Library.Machine.run_append, hFirst, Option.bind_some,
      Library.Machine.run_append, hTicks, Option.bind_some,
      Library.Machine.run_append, hSecond, Option.bind_some,
      Library.Machine.run_append, hMore, Option.bind_some]
    exact hThen
  have hReach := Library.Machine.reachable_of_run rfl hRun
  refine
    ⟨s, first, last, hRun, hHere, hNext,
      held_up hReach (Nat.zero_le _) hHere hNext ?_⟩
  intro k _ hTo
  rcases k with _ | _ | k
  · exact hQuiet
  · exact hStill
  · omega

end RustyIce

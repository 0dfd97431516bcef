import RustyIce.Admin.ListenerMap
import RustyIce.Library.Parties
import RustyIce.Output.IcyTransparency
import RustyIce.Server.ListenerTask

/-
  Delivery: the mounts, any number of listeners on them, the
  clients that read their response bodies, and the map they
  are registered in, every move one step.

  What a client has read is always the beginning of one
  stream: the captured headers, then whole packets in the
  order they were published, each at most once, with the
  metadata frames in between. The caps on listeners and the
  head of the response are left out.

  Main declarations:
    * `Delivery`, `deliveryMachine`
    * `Following`, `DeliveryInv`
    * `Delivered`, `decoded_after_lag`
    * `decoded_after_lag`
    * `bytesSent_conserved`
-/

------------------------------------------------------------
-- The System
------------------------------------------------------------

namespace RustyIce

open Admin

/-
  A request of `listener_handler`: the description, then the
  captured headers are read, then the bus is subscribed to.
-/
inductive ListenerHandler where
| arrived (mount : Nat) (icyRequested : Bool)
| informed
    (mount : Nat)
    (icyRequested : Bool)
    (info : MountInfo)
| primed
    (mount : Nat)
    (icyRequested : Bool)
    (info : MountInfo)
    (headers : Option Bytes)
| serving (task : ListenerTask)

structure Delivery where
  feeds : List MountFeed
  map : ListenerMap
  shutdown : Bool
  handlers : List ListenerHandler

inductive DeliveryLabel where
| publish (m : Nat) (packet : StreamPacket)
| setTitle (m : Nat) (title : Option String)
| setOverlay (m : Nat) (overlay : Option SourceOverlay)
| setHeaders (m : Nat) (headers : Option Bytes)
| setInfo (m : Nat) (info : MountInfo)
| dropBus (m : Nat)
| arrive (m : Nat) (icyRequested : Bool)
| advance (i : Nat)
| read (i : Nat) (count : Nat)
| disconnect (i : Nat)
| kick (id : ListenerId)
| shutdown
deriving DecidableEq, Repr

namespace ListenerHandler

/- A change to the task, once there is one. -/
def onTask
    (change : ListenerTask → ListenerTask) :
    ListenerHandler → ListenerHandler
| .serving task => .serving (change task)
| .arrived mount icy => .arrived mount icy
| .informed mount icy info => .informed mount icy info
| .primed mount icy info headers =>
    .primed mount icy info headers

/- A handler that has not subscribed holds the mount. -/
def Holds (m : Nat) : ListenerHandler → Bool
| .serving _ => false
| .arrived mount _ => mount = m
| .informed mount _ _ => mount = m
| .primed mount _ _ _ => mount = m

/- The bytes written to the listener, if it is on mount `m`. -/
def carriedOn (m : Nat) : ListenerHandler → Nat
| .serving task =>
    if task.mount = m then task.pipe.carried.length else 0
| .arrived _ _ => 0
| .informed _ _ _ => 0
| .primed _ _ _ _ => 0

end ListenerHandler

namespace ListenerTask

def cancel (task : ListenerTask) : ListenerTask :=
  { task with cancelled := true }

/- An id is taken, with the token as it is then. -/
def numbered
    (task : ListenerTask)
    (shutdown : Bool)
    (number : Nat) : ListenerTask :=
  { task with
    cancelled := shutdown
    number := number
    phase := .numbered }

/- The entry of listener `i` in the map. -/
def entry
    (task : ListenerTask)
    (path : String)
    (i : Nat) : ListenerEntry where
  id := ListenerMap.idOf task.number
  mountPath := path
  cancel := i

/- A new subscription: live only behind captured headers. -/
def subscribe
    (feed : MountFeed)
    (mount : Nat)
    (icyRequested : Bool)
    (info : MountInfo)
    (headers : Option Bytes) : ListenerTask where
  mount := mount
  info := info
  icyRequested := icyRequested
  headers := headers
  subscription := feed.busSystem.subscriber headers.isSome
  cancelled := false
  number := 0
  phase := .subscribed
  bytesSinceMeta := 0
  bytesSent := 0
  pipe := .new duplexBytes
  shown := []

end ListenerTask

namespace Delivery

def setHandler
    (s : Delivery)
    (i : Nat)
    (handler : ListenerHandler) : Delivery :=
  { s with handlers := s.handlers.set i handler }

/- A change to one mount. -/
def onFeed
    (s : Delivery)
    (m : Nat)
    (change : MountFeed → MountFeed) : Option Delivery :=
  match s.feeds[m]? with
  | none => none
  | some feed =>
      some { s with feeds := s.feeds.set m (change feed) }

/-
  A step of a listener that has subscribed. The token is a
  child of the server's; leaving the map is the last step but
  for a listener whose headers failed, which still holds its
  end of the pipe.
-/
def advanceTask
    (metaint : Nat)
    (s : Delivery)
    (i : Nat)
    (task : ListenerTask)
    (feed : MountFeed) : Option Delivery :=
  match task.phase with
  | .subscribed =>
      some
        ({ s with map := s.map.issue }.setHandler i
          (.serving (task.numbered s.shutdown s.map.issued)))
  | .numbered =>
      some
        ({ s with
            map :=
              s.map.insert
                (task.entry feed.path i) }.setHandler i
          (.serving { task with phase := .spawned }))
  | .unprimed =>
      some
        ({ s with
            map :=
              s.map.deregister
                (ListenerMap.idOf task.number) }.setHandler i
          (.serving
            { task with
              pipe := task.pipe.closeWriter
              phase := .ended none }))
  | .returned reason =>
      some
        ({ s with
            map :=
              s.map.deregister
                (ListenerMap.idOf task.number) }.setHandler i
          (.serving { task with phase := .ended reason }))
  | _ =>
      match task.step metaint feed with
      | none => none
      | some (after, count) =>
          some
            ({ s with
                feeds :=
                  s.feeds.set task.mount
                    (feed.count count) }.setHandler i
              (.serving after))

/- The next step of a handler. -/
def advance
    (metaint : Nat)
    (s : Delivery)
    (i : Nat) : Option Delivery :=
  match s.handlers[i]? with
  | none => none
  | some (.arrived m icy) =>
      match s.feeds[m]? with
      | none => none
      | some feed =>
          some (s.setHandler i (.informed m icy feed.info))
  | some (.informed m icy info) =>
      match s.feeds[m]? with
      | none => none
      | some feed =>
          some
            (s.setHandler i
              (.primed m icy info feed.headerBytes))
  | some (.primed m icy info headers) =>
      match s.feeds[m]? with
      | none => none
      | some feed =>
          some
            (s.setHandler i
              (.serving (.subscribe feed m icy info headers)))
  | some (.serving task) =>
      match s.feeds[task.mount]? with
      | none => none
      | some feed => s.advanceTask metaint i task feed

def step
    (metaint : Nat)
    (s : Delivery) : DeliveryLabel → Option Delivery
| .publish m packet =>
    match s.feeds[m]? with
    | none => none
    | some feed =>
        if feed.dropped then
          none
        else
          some
            { s with
              feeds :=
                s.feeds.set m
                  { feed with
                    bus := feed.bus.publish packet
                    sender := feed.sender.send packet } }
| .setTitle m title =>
    s.onFeed m fun feed => { feed with currentTitle := title }
| .setOverlay m overlay =>
    s.onFeed m fun feed =>
      { feed with sourceOverlay := overlay }
| .setHeaders m headers =>
    s.onFeed m fun feed => { feed with headerBytes := headers }
| .setInfo m info =>
    s.onFeed m fun feed => { feed with info := info }
| .dropBus m =>
    if s.handlers.any (·.Holds m) then
      none
    else
      s.onFeed m fun feed => { feed with dropped := true }
| .arrive m icy =>
    match s.feeds[m]? with
    | none => none
    | some feed =>
        if feed.dropped then
          none
        else
          some
            { s with
              handlers := s.handlers ++ [.arrived m icy] }
| .advance i => s.advance metaint i
| .read i count =>
    match s.handlers[i]? with
    | some (.serving task) =>
        if task.pipe.readerClosed then
          none
        else
          some
            (s.setHandler i
              (.serving
                { task with pipe := task.pipe.read count }))
    | _ => none
| .disconnect i =>
    match s.handlers[i]? with
    | some (.serving task) =>
        some
          (s.setHandler i
            (.serving
              { task with pipe := task.pipe.closeReader }))
    | _ => none
| .kick id =>
    match s.map.kick id with
    | none => some s
    | some i =>
        match s.handlers[i]? with
        | none => some s
        | some handler =>
            some
              (s.setHandler i
                (handler.onTask ListenerTask.cancel))
| .shutdown =>
    some
      { s with
        shutdown := true
        handlers :=
          s.handlers.map (·.onTask ListenerTask.cancel) }

end Delivery

/- A mount no source has published on yet. -/
def MountFeed.Fresh (feed : MountFeed) : Prop :=
  ∃ buffer,
    feed.bus = .new feed.bus.size ∧
      feed.sender = .new buffer ∧
        feed.dropped = false ∧ feed.bytesSent = 0

/- A server without listeners whose mounts are fresh. -/
def deliveryMachine
    (output : Output.HttpPassthroughOutput) :
    Library.Machine Delivery DeliveryLabel where
  init := fun s =>
    (∀ feed ∈ s.feeds, feed.Fresh) ∧ s.map = .new ∧
      s.shutdown = false ∧ s.handlers = []
  step := Delivery.step output.icyMetaint

end RustyIce

------------------------------------------------------------
-- The Steps Of A Subscribed Listener
------------------------------------------------------------

namespace RustyIce

open Admin

namespace Delivery

/- All that `advanceTask` does. -/
inductive Advances
    (metaint : Nat)
    (s : Delivery)
    (i : Nat)
    (task : ListenerTask)
    (feed : MountFeed) : Delivery → Prop
| issue :
    task.phase = .subscribed →
      Advances metaint s i task feed
        ({ s with map := s.map.issue }.setHandler i
          (.serving (task.numbered s.shutdown s.map.issued)))
| insert :
    task.phase = .numbered →
      Advances metaint s i task feed
        ({ s with
            map :=
              s.map.insert
                (task.entry feed.path i) }.setHandler i
          (.serving { task with phase := .spawned }))
| unprimed :
    task.phase = .unprimed →
      Advances metaint s i task feed
        ({ s with
            map :=
              s.map.deregister
                (ListenerMap.idOf task.number) }.setHandler i
          (.serving
            { task with
              pipe := task.pipe.closeWriter
              phase := .ended none }))
| deregister (reason : Option Output.DisconnectReason) :
    task.phase = .returned reason →
      Advances metaint s i task feed
        ({ s with
            map :=
              s.map.deregister
                (ListenerMap.idOf task.number) }.setHandler i
          (.serving { task with phase := .ended reason }))
| move (after : ListenerTask) (count : Nat) :
    task.step metaint feed = some (after, count) →
      Advances metaint s i task feed
        ({ s with
            feeds :=
              s.feeds.set task.mount
                (feed.count count) }.setHandler i
          (.serving after))

theorem advances_of_advanceTask
    {metaint : Nat}
    {s t : Delivery}
    {i : Nat}
    {task : ListenerTask}
    {feed : MountFeed}
    (hStep : s.advanceTask metaint i task feed = some t) :
    s.Advances metaint i task feed t := by
  have hMove :
      (match task.step metaint feed with
        | none => none
        | some (after, count) =>
            some
              ({ s with
                  feeds :=
                    s.feeds.set task.mount
                      (feed.count count) }.setHandler i
                (.serving after))) =
          some t →
        s.Advances metaint i task feed t := by
    intro hSome
    rcases hOne : task.step metaint feed with
      _ | ⟨after, count⟩
    · rw [hOne] at hSome
      cases hSome
    · rw [hOne] at hSome
      cases hSome
      exact .move after count hOne
  unfold advanceTask at hStep
  cases hPhase : task.phase with
  | subscribed =>
      simp only [hPhase] at hStep
      cases hStep
      exact .issue hPhase
  | numbered =>
      simp only [hPhase] at hStep
      cases hStep
      exact .insert hPhase
  | unprimed =>
      simp only [hPhase] at hStep
      cases hStep
      exact .unprimed hPhase
  | returned reason =>
      simp only [hPhase] at hStep
      cases hStep
      exact .deregister reason hPhase
  | spawned =>
      simp only [hPhase] at hStep
      exact hMove hStep
  | writing job left =>
      simp only [hPhase] at hStep
      exact hMove hStep
  | looking =>
      simp only [hPhase] at hStep
      exact hMove hStep
  | taking =>
      simp only [hPhase] at hStep
      exact hMove hStep
  | titling rest =>
      simp only [hPhase] at hStep
      exact hMove hStep
  | overlaying title rest =>
      simp only [hPhase] at hStep
      exact hMove hStep
  | ended reason =>
      simp only [hPhase] at hStep
      exact hMove hStep

end Delivery

end RustyIce

------------------------------------------------------------
-- Subscribers That May Lag
------------------------------------------------------------

namespace RustyIce

/-
  A subscriber has taken a selection of its burst and of what
  was published since, in that order; with nothing missing
  unless it was told so.
-/
structure Following
    (s : BusSystem)
    (sub : BusSubscriber) : Prop where
  since : sub.since ≤ s.sender.sent.length
  next : sub.next ≤ s.sender.sent.length
  stream :
    ∃ burst,
      (sub.live = true → burst = []) ∧
        (sub.live = false →
          Burst s.bus.size.burstBytes
            (s.sender.sent.take sub.since) burst) ∧
          (sub.received ++ sub.snapshot ++
              s.sender.unread sub.next).Sublist
            (burst ++ s.sender.unread sub.since) ∧
            (sub.lagged = false →
              sub.received ++ sub.snapshot ++
                  s.sender.unread sub.next =
                burst ++ s.sender.unread sub.since)

variable {s t : BusSystem}
variable {sub after : BusSubscriber}

theorem following_new
    (hKept :
      Kept s.bus.size.burstBytes s.sender.sent
        s.bus.history.packets)
    (live : Bool) :
    Following s (s.subscriber live) := by
  have hInv := subscriberInv_new hKept live
  rcases hInv.stream rfl with ⟨burst, hLive, hBurst, hStream⟩
  exact
    { since := hInv.since
      next := hInv.next
      stream :=
        ⟨burst, hLive, hBurst,
          hStream ▸ List.Sublist.refl _, fun _ => hStream⟩ }

/- What is published later comes last in every stream. -/
theorem following_publish
    (hFollows : Following s sub)
    (packet : StreamPacket) :
    Following
      { s with
        bus := s.bus.publish packet
        sender := s.sender.send packet } sub where
  since := by
    have hSince := hFollows.since
    simp only [Library.Broadcast.send, List.length_append]
    omega
  next := by
    have hNext := hFollows.next
    simp only [Library.Broadcast.send, List.length_append]
    omega
  stream := by
    rcases hFollows.stream with
      ⟨burst, hLive, hBurst, hPart, hAll⟩
    have hTake :
        (s.sender.send packet).sent.take sub.since =
          s.sender.sent.take sub.since :=
      List.take_append_of_le_length hFollows.since
    refine ⟨burst, hLive, ?_, ?_, ?_⟩
    · intro hCall
      simp only
      rw [hTake]
      exact hBurst hCall
    · simp only
      rw [Library.Broadcast.unread_send hFollows.next,
        Library.Broadcast.unread_send hFollows.since,
        ← List.append_assoc, ← List.append_assoc]
      exact hPart.append (List.Sublist.refl _)
    · intro hLagged
      simp only
      rw [Library.Broadcast.unread_send hFollows.next,
        Library.Broadcast.unread_send hFollows.since,
        ← List.append_assoc, hAll hLagged, List.append_assoc]

theorem live_of_poll
    {sender : Library.Broadcast StreamPacket}
    (hPoll : sub.poll sender = some after) :
    after.live = sub.live := by
  unfold BusSubscriber.poll at hPoll
  cases hSnapshot : sub.snapshot with
  | cons packet rest =>
      simp only [hSnapshot] at hPoll
      cases hPoll
      rfl
  | nil =>
      simp only [hSnapshot] at hPoll
      rcases hRecv : sender.recv sub.next with
        _ | ⟨packet | missed, next⟩
      · rw [hRecv] at hPoll
        cases hPoll
      · rw [hRecv] at hPoll
        cases hPoll
        rfl
      · rw [hRecv] at hPoll
        cases hPoll
        rfl

/- A receiver that lost values reads on behind them. -/
theorem unread_of_lagged
    {missed after : Nat}
    {sender : Library.Broadcast StreamPacket}
    (hRecv :
      sender.recv sub.next = some (.lagged missed, after)) :
    (sender.unread after).Sublist
      (sender.unread sub.next) := by
  unfold Library.Broadcast.recv at hRecv
  by_cases hBehind :
      sender.buffer < sender.sent.length - sub.next
  · rw [if_pos hBehind] at hRecv
    cases hRecv
    apply List.drop_sublist_drop_left
    omega
  · rw [if_neg hBehind] at hRecv
    cases hGet : sender.sent[sub.next]? with
    | none => simp [hGet] at hRecv
    | some packet => simp [hGet] at hRecv

theorem following_poll
    (hFollows : Following s sub)
    (hPoll : sub.poll s.sender = some after) :
    Following s after := by
  rcases hFollows.stream with
    ⟨burst, hLive, hBurst, hPart, hAll⟩
  unfold BusSubscriber.poll at hPoll
  cases hSnapshot : sub.snapshot with
  | cons packet rest =>
      simp only [hSnapshot] at hPoll
      cases hPoll
      rw [hSnapshot] at hPart hAll
      refine
        ⟨hFollows.since, hFollows.next, burst, hLive, hBurst,
          ?_, ?_⟩
      · simpa using hPart
      · simpa using hAll
  | nil =>
      simp only [hSnapshot] at hPoll
      rw [hSnapshot, List.append_nil] at hPart hAll
      rcases hRecv : s.sender.recv sub.next with
        _ | ⟨packet | missed, next⟩
      · rw [hRecv] at hPoll
        cases hPoll
      · rw [hRecv] at hPoll
        cases hPoll
        rcases Library.Broadcast.unread_of_recv hRecv with
          ⟨hUnread, hNext⟩
        rw [hUnread] at hPart hAll
        refine
          ⟨hFollows.since, hNext, burst, hLive, hBurst,
            ?_, ?_⟩
        · simpa [hSnapshot] using hPart
        · simpa [hSnapshot] using hAll
      · rw [hRecv] at hPoll
        cases hPoll
        refine
          ⟨hFollows.since,
            Library.Broadcast.le_of_recv hRecv, burst, hLive,
            hBurst, ?_, fun hNever => nomatch hNever⟩
        simp only [List.append_nil]
        exact
          ((List.Sublist.refl _).append
            (unread_of_lagged hRecv)).trans hPart

end RustyIce

------------------------------------------------------------
-- The Invariant Of The System
------------------------------------------------------------

namespace RustyIce

/- A task and the mount it is on. -/
structure TaskOk
    (metaint : Nat)
    (feed : MountFeed)
    (task : ListenerTask) : Prop where
  inv : task.TaskInv metaint
  live : task.subscription.live = task.headers.isSome
  follows : Following feed.busSystem task.subscription
  capacity : task.pipe.capacity = ListenerTask.duplexBytes

/-
  The counter of a mount is what was written to its
  listeners, present and past.
-/
structure DeliveryInv
    (metaint : Nat)
    (s : Delivery) : Prop where
  kept :
    ∀ feed ∈ s.feeds,
      Kept feed.bus.size.burstBytes feed.sender.sent
        feed.bus.history.packets
  tasks :
    ∀ (i : Nat) (task : ListenerTask),
      s.handlers[i]? = some (.serving task) →
        ∃ feed,
          s.feeds[task.mount]? = some feed ∧
            TaskOk metaint feed task
  counted :
    ∀ (m : Nat) (feed : MountFeed),
      s.feeds[m]? = some feed →
        feed.bytesSent =
          (s.handlers.map (·.carriedOn m)).sum % 2 ^ 64

namespace DeliveryInv

variable {metaint : Nat}
variable {s : Delivery}

/- One mount changes; its listeners are well all the same. -/
theorem setFeed
    (hInv : DeliveryInv metaint s)
    {m : Nat}
    {feed next : MountFeed}
    (hFeed : s.feeds[m]? = some feed)
    (hKept :
      Kept next.bus.size.burstBytes next.sender.sent
        next.bus.history.packets)
    (hTasks :
      ∀ task,
        TaskOk metaint feed task → TaskOk metaint next task)
    (hSent : next.bytesSent = feed.bytesSent) :
    DeliveryInv metaint
      { s with feeds := s.feeds.set m next } := by
  have hIndex := (List.getElem?_eq_some_iff.mp hFeed).1
  have hHere : (s.feeds.set m next)[m]? = some next := by
    rw [List.getElem?_set_self hIndex]
  refine ⟨?_, ?_, ?_⟩
  · intro other hMem
    rcases List.mem_or_eq_of_mem_set hMem with hOld | hNew
    · exact hInv.kept other hOld
    · rw [hNew]
      exact hKept
  · intro i task hTask
    rcases hInv.tasks i task hTask with ⟨own, hOwn, hOk⟩
    by_cases hSame : task.mount = m
    · rw [hSame] at hOwn ⊢
      cases hFeed.symm.trans hOwn
      exact ⟨next, hHere, hTasks task hOk⟩
    · refine ⟨own, ?_, hOk⟩
      rw [List.getElem?_set_ne (Ne.symm hSame)]
      exact hOwn
  · intro n other hOther
    by_cases hSame : n = m
    · rw [hSame] at hOther ⊢
      cases hHere.symm.trans hOther
      rw [hSent]
      exact hInv.counted m feed hFeed
    · rw [List.getElem?_set_ne (Ne.symm hSame)] at hOther
      exact hInv.counted n other hOther

/- One handler changes, and writes nothing. -/
theorem setHandler
    (hInv : DeliveryInv metaint s)
    {i : Nat}
    {handler next : ListenerHandler}
    (hHandler : s.handlers[i]? = some handler)
    (hTask :
      ∀ task,
        next = .serving task →
          ∃ feed,
            s.feeds[task.mount]? = some feed ∧
              TaskOk metaint feed task)
    (hCarried :
      ∀ m, next.carriedOn m = handler.carriedOn m) :
    DeliveryInv metaint (s.setHandler i next) := by
  have hIndex := (List.getElem?_eq_some_iff.mp hHandler).1
  refine ⟨hInv.kept, ?_, ?_⟩
  · intro j task hSome
    change (s.handlers.set i next)[j]? = _ at hSome
    by_cases hSame : j = i
    · rw [hSame, List.getElem?_set_self hIndex] at hSome
      exact hTask task (Option.some.inj hSome)
    · rw [List.getElem?_set_ne (Ne.symm hSame)] at hSome
      exact hInv.tasks j task hSome
  · intro m feed hFeed
    rcases Library.sum_beside (ListenerHandler.carriedOn m)
        hHandler with
      ⟨others, hBefore, hAfter⟩
    rw [hInv.counted m feed hFeed]
    change
      _ =
        ((s.handlers.set i next).map
            (ListenerHandler.carriedOn m)).sum % 2 ^ 64
    rw [hAfter, hCarried, ← hBefore]

end DeliveryInv

namespace TaskOk

variable {metaint : Nat}
variable {feed : MountFeed}
variable {task after : ListenerTask}

/- Only the stream, the phase and the subscription count. -/
theorem of_alike
    (hOk : TaskOk metaint feed task)
    (hAlike : ListenerTask.Alike task after)
    (hPhase : after.phase = task.phase)
    (hSub : after.subscription = task.subscription)
    (hCapacity :
      after.pipe.capacity = task.pipe.capacity) :
    TaskOk metaint feed after where
  inv := by
    unfold ListenerTask.TaskInv
    rw [hPhase]
    exact hAlike.phaseInv hOk.inv
  live := by
    rw [hSub, hAlike.headers]
    exact hOk.live
  follows := hSub ▸ hOk.follows
  capacity := hCapacity.trans hOk.capacity

/- A new subscription is well. -/
theorem subscribe
    (hKept :
      Kept feed.bus.size.burstBytes feed.sender.sent
        feed.bus.history.packets)
    (m : Nat)
    (icy : Bool)
    (info : MountInfo)
    (headers : Option Bytes) :
    TaskOk metaint feed
      (.subscribe feed m icy info headers) where
  inv := by
    refine ⟨⟨rfl, rfl, ?_, ?_⟩, rfl⟩
    · intro _
      exact (Nat.zero_mod _).symm
    · intro _
      change 0 = 0 + (0 + 0) / metaint
      rw [Nat.zero_add, Nat.zero_div]
  live := rfl
  follows := following_new hKept _
  capacity := rfl

/- A step of the task. -/
theorem step
    {count : Nat}
    (hMetaint : 0 < metaint)
    (hOk : TaskOk metaint feed task)
    (hStep : task.step metaint feed = some (after, count)) :
    TaskOk metaint feed after := by
  have hMoves := ListenerTask.step_moves hStep
  refine
    ⟨ListenerTask.taskInv_step hMetaint hOk.inv hStep,
      ?_, ?_, hMoves.capacity.trans hOk.capacity⟩
  · rw [hMoves.headers, ← hOk.live]
    rcases hMoves.subscription with hSame | ⟨-, hPoll⟩
    · rw [hSame]
    · exact live_of_poll hPoll
  · rcases hMoves.subscription with hSame | ⟨-, hPoll⟩
    · rw [hSame]
      exact hOk.follows
    · exact following_poll hOk.follows hPoll

end TaskOk

end RustyIce

------------------------------------------------------------
-- The System Keeps Its Invariant
------------------------------------------------------------

namespace RustyIce

open Admin

namespace DeliveryInv

variable {metaint : Nat}
variable {s t : Delivery}

/- The map and the server's token play no part in it. -/
theorem aside
    (hInv : DeliveryInv metaint s)
    (map : ListenerMap)
    (shutdown : Bool) :
    DeliveryInv metaint
      { s with
        map := map
        shutdown := shutdown } :=
  ⟨hInv.kept, hInv.tasks, hInv.counted⟩

/- What a task writes, its mount counts. -/
theorem move
    (hMetaint : 0 < metaint)
    (hInv : DeliveryInv metaint s)
    {i count : Nat}
    {task after : ListenerTask}
    {feed : MountFeed}
    (hTask : s.handlers[i]? = some (.serving task))
    (hFeed : s.feeds[task.mount]? = some feed)
    (hStep : task.step metaint feed = some (after, count)) :
    DeliveryInv metaint
      ({ s with
          feeds :=
            s.feeds.set task.mount
              (feed.count count) }.setHandler i
        (.serving after)) := by
  have hMoves := ListenerTask.step_moves hStep
  have hIndex := (List.getElem?_eq_some_iff.mp hTask).1
  have hPlace := (List.getElem?_eq_some_iff.mp hFeed).1
  have hHere :
      (s.feeds.set task.mount (feed.count count))[
          task.mount]? =
        some (feed.count count) := by
    rw [List.getElem?_set_self hPlace]
  have hOwn : TaskOk metaint feed task := by
    rcases hInv.tasks i task hTask with ⟨own, hSome, hOk⟩
    cases hFeed.symm.trans hSome
    exact hOk
  refine ⟨?_, ?_, ?_⟩
  · intro other hMem
    rcases List.mem_or_eq_of_mem_set hMem with hOld | hNew
    · exact hInv.kept other hOld
    · rw [hNew]
      exact hInv.kept feed (List.mem_of_getElem? hFeed)
  · intro j other hOther
    change (s.handlers.set i (.serving after))[j]? = _ at hOther
    by_cases hSame : j = i
    · rw [hSame, List.getElem?_set_self hIndex] at hOther
      cases hOther
      have hOk := hOwn.step hMetaint hStep
      refine
        ⟨feed.count count, ?_, hOk.inv, hOk.live,
          hOk.follows, hOk.capacity⟩
      rw [hMoves.mount]
      exact hHere
    · rw [List.getElem?_set_ne (Ne.symm hSame)] at hOther
      rcases hInv.tasks j other hOther with ⟨own, hSome, hOk⟩
      by_cases hMount : other.mount = task.mount
      · rw [hMount] at hSome ⊢
        cases hFeed.symm.trans hSome
        exact
          ⟨feed.count count, hHere, hOk.inv, hOk.live,
            hOk.follows, hOk.capacity⟩
      · refine ⟨own, ?_, hOk⟩
        change (s.feeds.set _ _)[other.mount]? = _
        rw [List.getElem?_set_ne (Ne.symm hMount)]
        exact hSome
  · intro m other hOther
    rcases Library.sum_beside (ListenerHandler.carriedOn m)
        hTask with
      ⟨others, hBefore, hAfter⟩
    change
      _ =
        ((s.handlers.set i (.serving after)).map
            (ListenerHandler.carriedOn m)).sum % 2 ^ 64
    change (s.feeds.set _ _)[m]? = _ at hOther
    rw [hAfter]
    by_cases hMount : m = task.mount
    · subst hMount
      cases hHere.symm.trans hOther
      simp only [ListenerHandler.carriedOn, if_true,
        hMoves.mount] at hBefore ⊢
      simp only [MountFeed.count]
      rw [hInv.counted _ feed hFeed, hBefore, hMoves.carried,
        Nat.mod_add_mod]
      congr 1
      omega
    · rw [List.getElem?_set_ne (Ne.symm hMount)] at hOther
      have hAway : ¬ task.mount = m := Ne.symm hMount
      have hAlso : ¬ after.mount = m := hMoves.mount ▸ hAway
      simp only [ListenerHandler.carriedOn, if_neg hAway]
        at hBefore
      simp only [ListenerHandler.carriedOn, if_neg hAlso]
      rw [hInv.counted m other hOther, hBefore]

/- A task that changes in nothing that was written. -/
theorem setTask
    (hInv : DeliveryInv metaint s)
    {i : Nat}
    {task after : ListenerTask}
    (hTask : s.handlers[i]? = some (.serving task))
    (hMount : after.mount = task.mount)
    (hOk :
      ∀ feed,
        TaskOk metaint feed task → TaskOk metaint feed after)
    (hCarried : after.pipe.carried = task.pipe.carried) :
    DeliveryInv metaint (s.setHandler i (.serving after)) := by
  apply hInv.setHandler hTask
  · intro other hSame
    cases hSame
    rcases hInv.tasks i task hTask with ⟨feed, hFeed, hWell⟩
    rw [hMount]
    exact ⟨feed, hFeed, hOk feed hWell⟩
  · intro m
    simp only [ListenerHandler.carriedOn, hMount, hCarried]

/- A cancelled task is as it was. -/
theorem taskOk_cancel
    {feed : MountFeed}
    {task : ListenerTask}
    (hOk : TaskOk metaint feed task) :
    TaskOk metaint feed task.cancel :=
  hOk.of_alike ⟨rfl, rfl, rfl, rfl, rfl, rfl, rfl⟩ rfl rfl
    rfl

@[simp] theorem carriedOn_cancel
    (m : Nat)
    (handler : ListenerHandler) :
    (handler.onTask ListenerTask.cancel).carriedOn m =
      handler.carriedOn m := by
  cases handler <;> rfl

/- A task that changes phase, with what holds there. -/
theorem taskOk_phase
    {feed : MountFeed}
    {task after : ListenerTask}
    (hOk : TaskOk metaint feed task)
    (hAlike : ListenerTask.Alike task after)
    (hSub : after.subscription = task.subscription)
    (hCapacity :
      after.pipe.capacity = task.pipe.capacity)
    (hPhase :
      task.PhaseInv metaint task.phase →
        task.PhaseInv metaint after.phase) :
    TaskOk metaint feed after where
  inv := hAlike.phaseInv (hPhase hOk.inv)
  live := by
    rw [hSub, hAlike.headers]
    exact hOk.live
  follows := hSub ▸ hOk.follows
  capacity := hCapacity.trans hOk.capacity

/- The steps of a subscribed listener. -/
theorem advanceTask
    (hMetaint : 0 < metaint)
    (hInv : DeliveryInv metaint s)
    {i : Nat}
    {task : ListenerTask}
    {feed : MountFeed}
    (hTask : s.handlers[i]? = some (.serving task))
    (hFeed : s.feeds[task.mount]? = some feed)
    (hStep : s.advanceTask metaint i task feed = some t) :
    DeliveryInv metaint t := by
  have hAside :
      ∀ (map : ListenerMap) (after : ListenerTask),
        ListenerTask.Alike task after →
          after.mount = task.mount →
            after.subscription = task.subscription →
              after.pipe.capacity = task.pipe.capacity →
                (task.PhaseInv metaint task.phase →
                  task.PhaseInv metaint after.phase) →
                  DeliveryInv metaint
                    ({ s with map := map }.setHandler i
                      (.serving after)) := by
    intro map after hAlike hMount hSub hCapacity hPhase
    refine
      (hInv.aside map s.shutdown).setTask hTask hMount ?_
        hAlike.carried
    intro own hOk
    exact taskOk_phase hOk hAlike hSub hCapacity hPhase
  cases Delivery.advances_of_advanceTask hStep with
  | issue hPhase =>
      refine
        hAside s.map.issue _ ⟨rfl, rfl, rfl, rfl, rfl, rfl, rfl⟩
          rfl rfl rfl ?_
      rw [hPhase]
      exact id
  | insert hPhase =>
      refine
        hAside _ _ ⟨rfl, rfl, rfl, rfl, rfl, rfl, rfl⟩ rfl rfl
          rfl ?_
      rw [hPhase]
      exact id
  | unprimed hPhase =>
      refine
        hAside _ _ ⟨rfl, rfl, rfl, rfl, rfl, rfl, rfl⟩ rfl rfl
          rfl ?_
      rw [hPhase]
      exact id
  | deregister reason hPhase =>
      refine
        hAside _ _ ⟨rfl, rfl, rfl, rfl, rfl, rfl, rfl⟩ rfl rfl
          rfl ?_
      rw [hPhase]
      cases reason <;> exact id
  | move after count hOne =>
      exact hInv.move hMetaint hTask hFeed hOne

end DeliveryInv

end RustyIce

------------------------------------------------------------
-- Every Step And Every Run
------------------------------------------------------------

namespace RustyIce

open Admin

namespace DeliveryInv

variable {metaint : Nat}
variable {s t : Delivery}

/- A change of a mount beside its bus. -/
theorem onFeed
    (hInv : DeliveryInv metaint s)
    {m : Nat}
    {change : MountFeed → MountFeed}
    (hStep : s.onFeed m change = some t)
    (hBus : ∀ feed, (change feed).bus = feed.bus)
    (hSender : ∀ feed, (change feed).sender = feed.sender)
    (hSent :
      ∀ feed, (change feed).bytesSent = feed.bytesSent) :
    DeliveryInv metaint t := by
  unfold Delivery.onFeed at hStep
  cases hFeed : s.feeds[m]? with
  | none => simp [hFeed] at hStep
  | some feed =>
      simp only [hFeed] at hStep
      cases hStep
      apply hInv.setFeed hFeed
      · rw [hBus, hSender]
        exact hInv.kept feed (List.mem_of_getElem? hFeed)
      · intro task hOk
        refine ⟨hOk.inv, hOk.live, ?_, hOk.capacity⟩
        have hSame :
            (change feed).busSystem = feed.busSystem := by
          unfold MountFeed.busSystem
          rw [hBus, hSender]
        rw [hSame]
        exact hOk.follows
      · exact hSent feed

theorem publish
    (hInv : DeliveryInv metaint s)
    {m : Nat}
    {feed : MountFeed}
    (hFeed : s.feeds[m]? = some feed)
    (packet : StreamPacket) :
    DeliveryInv metaint
      { s with
        feeds :=
          s.feeds.set m
            { feed with
              bus := feed.bus.publish packet
              sender := feed.sender.send packet } } := by
  apply hInv.setFeed hFeed
  · exact
      kept_publish
        (hInv.kept feed (List.mem_of_getElem? hFeed)) packet
  · intro task hOk
    exact
      ⟨hOk.inv, hOk.live,
        following_publish hOk.follows packet, hOk.capacity⟩
  · rfl

/- A client reads, or closes its end. -/
theorem setPipe
    (hInv : DeliveryInv metaint s)
    {i : Nat}
    {task : ListenerTask}
    {pipe : Library.Pipe UInt8}
    (hTask : s.handlers[i]? = some (.serving task))
    (hCarried : pipe.carried = task.pipe.carried)
    (hCapacity : pipe.capacity = task.pipe.capacity) :
    DeliveryInv metaint
      (s.setHandler i (.serving { task with pipe := pipe })) := by
  refine hInv.setTask hTask ?_ ?_ ?_
  · rfl
  · intro feed hOk
    exact
      hOk.of_alike ⟨rfl, rfl, rfl, rfl, rfl, rfl, hCarried⟩
        rfl rfl hCapacity
  · exact hCarried

theorem advance
    (hMetaint : 0 < metaint)
    (hInv : DeliveryInv metaint s)
    {i : Nat}
    (hStep : s.advance metaint i = some t) :
    DeliveryInv metaint t := by
  unfold Delivery.advance at hStep
  rcases hHandler : s.handlers[i]? with
    _ | ⟨m, icy⟩ | ⟨m, icy, info⟩ | ⟨m, icy, info, headers⟩ |
      task
  · simp [hHandler] at hStep
  · simp only [hHandler] at hStep
    cases hFeed : s.feeds[m]? with
    | none => simp [hFeed] at hStep
    | some feed =>
        simp only [hFeed] at hStep
        cases hStep
        exact
          hInv.setHandler hHandler
            (fun task hSame => nomatch hSame) fun _ => rfl
  · simp only [hHandler] at hStep
    cases hFeed : s.feeds[m]? with
    | none => simp [hFeed] at hStep
    | some feed =>
        simp only [hFeed] at hStep
        cases hStep
        exact
          hInv.setHandler hHandler
            (fun task hSame => nomatch hSame) fun _ => rfl
  · simp only [hHandler] at hStep
    cases hFeed : s.feeds[m]? with
    | none => simp [hFeed] at hStep
    | some feed =>
        simp only [hFeed] at hStep
        cases hStep
        apply hInv.setHandler hHandler
        · intro task hSame
          cases hSame
          refine ⟨feed, hFeed, TaskOk.subscribe ?_ _ _ _ _⟩
          exact hInv.kept feed (List.mem_of_getElem? hFeed)
        · intro n
          change (if m = n then 0 else 0) = 0
          exact ite_self 0
  · simp only [hHandler] at hStep
    cases hFeed : s.feeds[task.mount]? with
    | none => simp [hFeed] at hStep
    | some feed =>
        simp only [hFeed] at hStep
        exact hInv.advanceTask hMetaint hHandler hFeed hStep

/- A handler that is cancelled. -/
theorem cancel
    (hInv : DeliveryInv metaint s)
    {i : Nat}
    {handler : ListenerHandler}
    (hHandler : s.handlers[i]? = some handler) :
    DeliveryInv metaint
      (s.setHandler i
        (handler.onTask ListenerTask.cancel)) := by
  apply hInv.setHandler hHandler
  · intro after hSame
    cases handler with
    | arrived m icy => cases hSame
    | informed m icy info => cases hSame
    | primed m icy info headers => cases hSame
    | serving task =>
        cases hSame
        rcases hInv.tasks i task hHandler with
          ⟨feed, hFeed, hOk⟩
        exact ⟨feed, hFeed, taskOk_cancel hOk⟩
  · exact fun m => carriedOn_cancel m handler

/- The server shuts down: every token is cancelled. -/
theorem shutdown
    (hInv : DeliveryInv metaint s) :
    DeliveryInv metaint
      { s with
        shutdown := true
        handlers :=
          s.handlers.map
            (·.onTask ListenerTask.cancel) } := by
  refine ⟨hInv.kept, ?_, ?_⟩
  · intro i after hSome
    simp only [List.getElem?_map, Option.map_eq_some_iff]
      at hSome
    rcases hSome with ⟨handler, hHandler, hSame⟩
    cases handler with
    | arrived m icy => cases hSame
    | informed m icy info => cases hSame
    | primed m icy info headers => cases hSame
    | serving task =>
        cases hSame
        rcases hInv.tasks i task hHandler with
          ⟨feed, hFeed, hOk⟩
        exact ⟨feed, hFeed, taskOk_cancel hOk⟩
  · intro m feed hFeed
    rw [hInv.counted m feed hFeed, List.map_map]
    congr 3
    funext handler
    exact (carriedOn_cancel m handler).symm

theorem step
    (hMetaint : 0 < metaint)
    (hInv : DeliveryInv metaint s)
    {label : DeliveryLabel}
    (hStep : s.step metaint label = some t) :
    DeliveryInv metaint t := by
  cases label with
  | publish m packet =>
      simp only [Delivery.step] at hStep
      cases hFeed : s.feeds[m]? with
      | none => simp [hFeed] at hStep
      | some feed =>
          simp only [hFeed] at hStep
          split at hStep
          · cases hStep
          · cases hStep
            exact hInv.publish hFeed packet
  | setTitle m title =>
      exact
        hInv.onFeed hStep (fun _ => rfl) (fun _ => rfl)
          fun _ => rfl
  | setOverlay m overlay =>
      exact
        hInv.onFeed hStep (fun _ => rfl) (fun _ => rfl)
          fun _ => rfl
  | setHeaders m headers =>
      exact
        hInv.onFeed hStep (fun _ => rfl) (fun _ => rfl)
          fun _ => rfl
  | setInfo m info =>
      exact
        hInv.onFeed hStep (fun _ => rfl) (fun _ => rfl)
          fun _ => rfl
  | dropBus m =>
      simp only [Delivery.step] at hStep
      split at hStep
      · cases hStep
      · exact
          hInv.onFeed hStep (fun _ => rfl) (fun _ => rfl)
            fun _ => rfl
  | arrive m icy =>
      simp only [Delivery.step] at hStep
      cases hFeed : s.feeds[m]? with
      | none => simp [hFeed] at hStep
      | some feed =>
          simp only [hFeed] at hStep
          split at hStep
          · cases hStep
          · cases hStep
            refine ⟨hInv.kept, ?_, ?_⟩
            · intro i task hSome
              rcases List.mem_append.mp
                  (List.mem_of_getElem? hSome) with
                hOld | hNew
              · rcases List.mem_iff_getElem?.mp hOld with
                  ⟨j, hGet⟩
                exact hInv.tasks j task hGet
              · cases List.mem_singleton.mp hNew
            · intro n other hOther
              rw [hInv.counted n other hOther]
              simp [ListenerHandler.carriedOn]
  | advance i => exact hInv.advance hMetaint hStep
  | read i count =>
      simp only [Delivery.step] at hStep
      split at hStep
      · rename_i task hHandler
        split at hStep
        · cases hStep
        · cases hStep
          exact
            hInv.setPipe hHandler
              (Library.Pipe.carried_read _ _) rfl
      · cases hStep
  | disconnect i =>
      simp only [Delivery.step] at hStep
      split at hStep
      · rename_i task hHandler
        cases hStep
        exact hInv.setPipe hHandler rfl rfl
      · cases hStep
  | kick id =>
      simp only [Delivery.step] at hStep
      split at hStep
      · cases hStep
        exact hInv
      · rename_i i hKick
        split at hStep
        · cases hStep
          exact hInv
        · rename_i handler hHandler
          cases hStep
          exact hInv.cancel hHandler
  | shutdown =>
      cases hStep
      exact hInv.shutdown

/- The invariant holds in every run. -/
theorem of_reachable
    {output : Output.HttpPassthroughOutput}
    (hMetaint : 0 < output.icyMetaint)
    (hReach : (deliveryMachine output).Reachable s) :
    DeliveryInv output.icyMetaint s := by
  apply hReach.invariant
  · rintro u ⟨hFresh, -, -, hNone⟩
    refine ⟨?_, ?_, ?_⟩
    · intro feed hMem
      rcases hFresh feed hMem with ⟨buffer, hBus, hSender, -, -⟩
      rw [hBus, hSender]
      exact kept_nil _
    · intro i task hSome
      rw [hNone] at hSome
      cases hSome
    · intro m feed hFeed
      rcases hFresh feed (List.mem_of_getElem? hFeed) with
        ⟨buffer, -, -, -, hSent⟩
      rw [hSent, hNone]
      rfl
  · intro u label v hBefore _ hStep
    exact hBefore.step hMetaint hStep

end DeliveryInv

end RustyIce

------------------------------------------------------------
-- What A Client Reads
------------------------------------------------------------

namespace RustyIce

/- No packet is half written, and none will be. -/
def TaskPhase.BetweenPackets : TaskPhase → Prop
| .looking => True
| .taking => True
| .returned (some _) => True
| .ended (some _) => True
| _ => False

/-
  What a listener got: a selection, in order, of the burst
  and of what was published since it came, with nothing
  missing unless it lagged; its client has read a beginning
  of the stream these packets make, whatever is displayed at
  the metadata points to come; and between two packets all of
  those before are written.
-/
structure Delivered
    (metaint : Nat)
    (feed : MountFeed)
    (task : ListenerTask) : Prop where
  order :
    ∃ burst,
      (task.headers.isSome = true → burst = []) ∧
        (task.headers.isSome = false →
          Burst feed.bus.size.burstBytes
            (feed.sender.sent.take task.subscription.since)
            burst) ∧
          task.subscription.received.Sublist
            (burst ++
              feed.sender.sent.drop task.subscription.since) ∧
            (task.subscription.lagged = false →
              task.subscription.received <+:
                burst ++
                  feed.sender.sent.drop
                    task.subscription.since)
  part :
    ∀ seen, Continues seen task.shown →
      task.pipe.taken <+: task.stream metaint seen task.heard
  whole :
    task.phase.BetweenPackets →
      task.bytesSent = task.heard.length ∧
        ∀ seen, Continues seen task.shown →
          task.pipe.taken ++ task.pipe.buffered =
            task.stream metaint seen task.heard

variable {metaint : Nat}
variable {feed : MountFeed}
variable {task : ListenerTask}

theorem delivered_of_taskOk
    (hMetaint : 0 < metaint)
    (hOk : TaskOk metaint feed task) :
    Delivered metaint feed task where
  order := by
    rcases hOk.follows.stream with
      ⟨burst, hLive, hBurst, hPart, hAll⟩
    rw [hOk.live] at hLive hBurst
    rw [List.append_assoc] at hPart hAll
    refine ⟨burst, hLive, hBurst, ?_, ?_⟩
    · exact (List.sublist_append_left _ _).trans hPart
    · intro hLagged
      exact ⟨_, hAll hLagged⟩
  part := by
    intro seen hSeen
    have hCut :=
      ListenerTask.cut_of_taskInv hMetaint hOk.inv seen hSeen
    exact (List.prefix_append _ _).trans hCut
  whole := by
    intro hBetween
    have hWhole : task.Whole metaint := by
      have hInv := hOk.inv
      unfold ListenerTask.TaskInv at hInv
      revert hBetween hInv
      cases task.phase with
      | looking => exact fun _ hInv => ⟨hInv.1.sent, hInv.2⟩
      | taking => exact fun _ hInv => ⟨hInv.1.sent, hInv.2⟩
      | returned reason =>
          cases reason with
          | none => exact fun hNever => nomatch hNever
          | some reason => exact fun _ hInv => hInv
      | ended reason =>
          cases reason with
          | none => exact fun hNever => nomatch hNever
          | some reason => exact fun _ hInv => hInv
      | subscribed => exact fun hNever => nomatch hNever
      | numbered => exact fun hNever => nomatch hNever
      | spawned => exact fun hNever => nomatch hNever
      | writing job left => exact fun hNever => nomatch hNever
      | titling rest => exact fun hNever => nomatch hNever
      | overlaying title rest =>
          exact fun hNever => nomatch hNever
      | unprimed => exact fun hNever => nomatch hNever
    refine ⟨hWhole.1, ?_⟩
    intro seen hSeen
    have hNow := hWhole.2 seen hSeen
    rw [List.append_nil, List.append_nil] at hNow
    exact hNow

/- Nothing is displayed. -/
def blank : Output.Displayed where
  info :=
    { path := ""
      codec := .MP3
      sourcePassword := ""
      maxListeners := none
      metadata := .default }
  currentTitle := none
  sourceOverlay := none

/- What was shown, and then nothing. -/
def shownThenBlank (task : ListenerTask) : Nat → Output.Displayed :=
  fun k => (task.shown[k]?).getD blank

theorem continues_shownThenBlank (task : ListenerTask) :
    Continues (shownThenBlank task) task.shown := by
  intro k displayed hSome
  simp only [shownThenBlank, hSome, Option.getD_some]

/- What a client decodes is a beginning of what was heard. -/
theorem Delivered.decoded
    (hMetaint : 0 < metaint)
    (hDelivered : Delivered metaint feed task)
    (hIcy : task.icyRequested = true)
    (hFits :
      ∀ displayed ∈ task.shown, Output.FrameFits displayed) :
    Output.icyDecode metaint
        (task.pipe.taken.drop (task.headers.getD []).length) <+:
      task.heard := by
  have hFrames :
      ∀ k,
        Library.Interleave.WellFramed Output.icyAnnounced
          (Output.buildIcyFrame (shownThenBlank task k)) := by
    intro k
    apply Output.wellFramed_of_frameFits
    unfold shownThenBlank
    cases hShown : task.shown[k]? with
    | none => decide
    | some displayed =>
        exact hFits displayed (List.mem_of_getElem? hShown)
  have hPart :=
    hDelivered.part _ (continues_shownThenBlank task)
  unfold ListenerTask.stream at hPart
  rw [if_pos hIcy] at hPart
  have hBehind := hPart.drop (task.headers.getD []).length
  rw [List.drop_left] at hBehind
  have hRead :=
    Library.Interleave.unweave_weave metaint 0
      Output.icyAnnounced
      (fun k => Output.buildIcyFrame (shownThenBlank task k))
      0 task.heard hMetaint fun k _ _ => hFrames k
  rw [Nat.sub_zero] at hRead
  have hDecoded :=
    Library.Interleave.unweave_isPrefix metaint
      Output.icyAnnounced (.payload metaint) hBehind
  rw [hRead.2] at hDecoded
  exact hDecoded

/- Without metadata the body is the audio as it is. -/
theorem Delivered.plain
    (hDelivered : Delivered metaint feed task)
    (hIcy : task.icyRequested = false) :
    task.pipe.taken.drop (task.headers.getD []).length <+:
      task.heard := by
  have hPart :=
    hDelivered.part _ (continues_shownThenBlank task)
  unfold ListenerTask.stream at hPart
  rw [hIcy, if_neg Bool.false_ne_true] at hPart
  have hBehind := hPart.drop (task.headers.getD []).length
  rw [List.drop_left] at hBehind
  exact hBehind

/-
  A client that reads metadata by its lengths takes whole
  packets in order off what it has read, also when packets
  were missed in between.
-/
theorem decoded_after_lag
    {output : Output.HttpPassthroughOutput}
    {s : Delivery}
    {i : Nat}
    (hMetaint : 0 < output.icyMetaint)
    (hReach : (deliveryMachine output).Reachable s)
    (hTask : s.handlers[i]? = some (.serving task))
    (hIcy : task.icyRequested = true)
    (hFits :
      ∀ displayed ∈ task.shown, Output.FrameFits displayed) :
    Output.icyDecode output.icyMetaint
        (task.pipe.taken.drop (task.headers.getD []).length) <+:
      task.heard := by
  have hInv := DeliveryInv.of_reachable hMetaint hReach
  rcases hInv.tasks i task hTask with ⟨feed, -, hOk⟩
  exact
    (delivered_of_taskOk hMetaint hOk).decoded hMetaint hIcy
      hFits

/-
  The bytes a mount counts as sent are those its listeners'
  clients have read or have in their pipes, up to the wrap of
  the counter.
-/
theorem bytesSent_conserved
    {output : Output.HttpPassthroughOutput}
    {s : Delivery}
    {m : Nat}
    {feed : MountFeed}
    (hMetaint : 0 < output.icyMetaint)
    (hReach : (deliveryMachine output).Reachable s)
    (hFeed : s.feeds[m]? = some feed) :
    feed.bytesSent =
      (s.handlers.map
          (ListenerHandler.carriedOn m)).sum % 2 ^ 64 :=
  (DeliveryInv.of_reachable hMetaint hReach).counted m feed
    hFeed

end RustyIce

------------------------------------------------------------
-- One Late Listener
------------------------------------------------------------

namespace RustyIce

open Admin

/- A mount on which nothing is displayed. -/
def MountFeed.silent : MountFeed where
  path := "/live"
  info :=
    { path := "/live"
      codec := .MP3
      sourcePassword := ""
      maxListeners := none
      metadata := .default }
  bus := .new { capacity := 1, burstBytes := 8 }
  sender := .new 1
  dropped := false
  currentTitle := none
  sourceOverlay := none
  headerBytes := none
  bytesSent := 0

/- A server with that one mount. -/
def Delivery.oneMount : Delivery where
  feeds := [.silent]
  map := .new
  shutdown := false
  handlers := []

theorem Delivery.init_oneMount
    (output : Output.HttpPassthroughOutput) :
    (deliveryMachine output).init .oneMount := by
  refine ⟨?_, rfl, rfl, rfl⟩
  intro feed hMem
  rw [List.mem_singleton.mp hMem]
  exact ⟨1, rfl, rfl, rfl, rfl⟩

def mp3Packet (data : Bytes) : StreamPacket where
  payload := .encoded { codec := .MP3, data := data }
  sequence := 0

/- Metadata after every third byte. -/
def everyThird : Output.HttpPassthroughOutput where
  icyMetaint := 3

/-
  A listener that asked for metadata is handed the burst,
  misses a packet, is handed the next one, and its client
  reads all of it.
-/
def lateListener : List DeliveryLabel :=
  [.publish 0 (mp3Packet [1, 2]), .arrive 0 true] ++
    List.replicate 8 (.advance 0) ++
      [.publish 0 (mp3Packet [3]),
        .publish 0 (mp3Packet [4, 5])] ++
        List.replicate 14 (.advance 0) ++ [.read 0 9]

theorem decoded_after_lag_lateListener :
    ∃ s task,
      (deliveryMachine everyThird).run .oneMount lateListener =
          some s ∧
        s.handlers[0]? = some (.serving task) ∧
          Output.icyDecode 3 task.pipe.taken = [1, 2, 4, 5] ∧
            Output.icyDecode 3
                (task.pipe.taken.drop
                  (task.headers.getD []).length) <+:
              task.heard := by
  have hRun :
      (deliveryMachine everyThird).run .oneMount lateListener =
        some _ :=
    rfl
  have hReach :=
    Library.Machine.reachable_of_run
      (Delivery.init_oneMount everyThird) hRun
  refine
    ⟨_, _, hRun, rfl, rfl,
      decoded_after_lag (i := 0) (by decide) hReach rfl rfl
        ?_⟩
  intro displayed hMem
  rw [List.mem_singleton.mp hMem]
  decide

theorem bytesSent_conserved_lateListener :
    ∃ s feed,
      (deliveryMachine everyThird).run .oneMount lateListener =
          some s ∧
        s.feeds[0]? = some feed ∧
          feed.bytesSent = 5 ∧
            feed.bytesSent =
              (s.handlers.map
                  (ListenerHandler.carriedOn 0)).sum %
                2 ^ 64 := by
  have hRun :
      (deliveryMachine everyThird).run .oneMount lateListener =
        some _ :=
    rfl
  have hReach :=
    Library.Machine.reachable_of_run
      (Delivery.init_oneMount everyThird) hRun
  exact
    ⟨_, _, hRun, rfl, rfl,
      bytesSent_conserved (by decide) hReach rfl⟩

end RustyIce

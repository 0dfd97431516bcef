import RustyIce.Server.ListenerEnds

/-
  How a listener catches up: whatever happened before, its
  own steps and the reads of its client bring it to where all
  that was published has been taken and read, unless it is
  kicked or the server shuts down.

  Main declarations:
    * `Delivery.Turns`, `Delivery.handlers_of_step`
    * `ListenerTask.Leaves`, `ListenerTask.EndsInv`
    * `delivered`
    * `ListenerTask.behind`, `ListenerTask.behind_step`
    * `catches_up`
-/

------------------------------------------------------------
-- Where A Task Comes From
------------------------------------------------------------

namespace RustyIce

namespace Delivery

/- What one step can make of one handler. -/
inductive Turns
    (s : Delivery) : ListenerHandler → ListenerHandler → Prop
| informed (m : Nat) (icy : Bool) (info : MountInfo) :
    Turns s (.arrived m icy) (.informed m icy info)
| primed
    (m : Nat)
    (icy : Bool)
    (info : MountInfo)
    (headers : Option Bytes) :
    Turns s (.informed m icy info)
      (.primed m icy info headers)
| subscribed
    (m : Nat)
    (icy : Bool)
    (info : MountInfo)
    (headers : Option Bytes)
    (feed : MountFeed) :
    Turns s (.primed m icy info headers)
      (.serving (.subscribe feed m icy info headers))
| task (task after : ListenerTask) :
    Turns s (.serving task) (.serving after)
| cancelled (handler : ListenerHandler) :
    Turns s handler (handler.onTask ListenerTask.cancel)

variable {metaint : Nat}
variable {s t : Delivery}
variable {i : Nat}

theorem turns_of_advance
    (hStep : s.advance metaint i = some t) :
    ∃ before after,
      s.handlers[i]? = some before ∧
        t.handlers = s.handlers.set i after ∧
          s.Turns before after := by
  unfold advance at hStep
  rcases hHandler : s.handlers[i]? with
    _ | ⟨m, icy⟩ | ⟨m, icy, info⟩ | ⟨m, icy, info, headers⟩ |
      task
  · simp [hHandler] at hStep
  · simp only [hHandler] at hStep
    split at hStep
    · cases hStep
    · cases hStep
      exact ⟨_, _, rfl, rfl, .informed m icy _⟩
  · simp only [hHandler] at hStep
    split at hStep
    · cases hStep
    · cases hStep
      exact ⟨_, _, rfl, rfl, .primed m icy info _⟩
  · simp only [hHandler] at hStep
    split at hStep
    · cases hStep
    · cases hStep
      exact ⟨_, _, rfl, rfl, .subscribed m icy info headers _⟩
  · simp only [hHandler] at hStep
    split at hStep
    · cases hStep
    · cases advances_of_advanceTask hStep with
      | issue _ => exact ⟨_, _, rfl, rfl, .task _ _⟩
      | insert _ => exact ⟨_, _, rfl, rfl, .task _ _⟩
      | unprimed _ => exact ⟨_, _, rfl, rfl, .task _ _⟩
      | deregister reason _ =>
          exact ⟨_, _, rfl, rfl, .task _ _⟩
      | move after count _ =>
          exact ⟨_, _, rfl, rfl, .task _ _⟩

/- A step turns one handler, adds one, or cancels them all. -/
theorem handlers_of_step
    {label : DeliveryLabel}
    (hStep : s.step metaint label = some t) :
    t.handlers = s.handlers ∨
      (∃ m icy, t.handlers = s.handlers ++ [.arrived m icy]) ∨
        t.handlers =
            s.handlers.map (·.onTask ListenerTask.cancel) ∨
          ∃ i before after,
            s.handlers[i]? = some before ∧
              t.handlers = s.handlers.set i after ∧
                s.Turns before after := by
  cases label with
  | publish m packet =>
      left
      simp only [Delivery.step] at hStep
      split at hStep
      · cases hStep
      · split at hStep
        · cases hStep
        · cases hStep
          rfl
  | setTitle m title => exact .inl (handlers_onFeed hStep)
  | setOverlay m overlay => exact .inl (handlers_onFeed hStep)
  | setHeaders m headers => exact .inl (handlers_onFeed hStep)
  | setInfo m info => exact .inl (handlers_onFeed hStep)
  | dropBus m =>
      left
      simp only [Delivery.step] at hStep
      split at hStep
      · cases hStep
      · exact handlers_onFeed hStep
  | arrive m icy =>
      right
      left
      simp only [Delivery.step] at hStep
      split at hStep
      · cases hStep
      · split at hStep
        · cases hStep
        · cases hStep
          exact ⟨m, icy, rfl⟩
  | advance i =>
      exact .inr (.inr (.inr ⟨i, turns_of_advance hStep⟩))
  | read i count =>
      right
      right
      right
      simp only [Delivery.step] at hStep
      split at hStep
      · rename_i task hTask
        split at hStep
        · cases hStep
        · cases hStep
          exact ⟨i, _, _, hTask, rfl, .task _ _⟩
      · cases hStep
  | disconnect i =>
      right
      right
      right
      simp only [Delivery.step] at hStep
      split at hStep
      · rename_i task hTask
        cases hStep
        exact ⟨i, _, _, hTask, rfl, .task _ _⟩
      · cases hStep
  | kick id =>
      simp only [Delivery.step] at hStep
      split at hStep
      · cases hStep
        exact .inl rfl
      · rename_i i _
        split at hStep
        · cases hStep
          exact .inl rfl
        · rename_i handler hHandler
          cases hStep
          exact
            .inr (.inr (.inr
              ⟨i, handler, _, hHandler, rfl,
                .cancelled handler⟩))
  | shutdown =>
      cases hStep
      exact .inr (.inr (.inl rfl))

/- A task was there before, or has just subscribed. -/
theorem comes_of_step
    {label : DeliveryLabel}
    {after : ListenerTask}
    (hStep : s.step metaint label = some t)
    (hAfter : t.handlers[i]? = some (.serving after)) :
    (∃ task,
        s.handlers[i]? = some (.serving task) ∧
          s.Touched metaint i label task after) ∨
      ∃ feed m icy info headers,
        after = .subscribe feed m icy info headers := by
  by_cases hTask :
      ∃ task, s.handlers[i]? = some (.serving task)
  · rcases hTask with ⟨task, hTask⟩
    rcases touched_of_step hTask hStep with
      ⟨other, hOther, hTouched⟩
    cases hAfter.symm.trans hOther
    exact .inl ⟨task, hTask, hTouched⟩
  right
  rcases handlers_of_step hStep with
    hSame | ⟨m, icy, hMore⟩ | hAll |
      ⟨j, before, next, hBefore, hSet, hTurns⟩
  · rw [hSame] at hAfter
    exact absurd ⟨after, hAfter⟩ hTask
  · rw [hMore] at hAfter
    by_cases hIndex : i < s.handlers.length
    · rw [List.getElem?_append_left hIndex] at hAfter
      exact absurd ⟨after, hAfter⟩ hTask
    · have hLess := (List.getElem?_eq_some_iff.mp hAfter).1
      rw [List.length_append, List.length_singleton] at hLess
      have hLast : i = s.handlers.length := by omega
      rw [hLast, List.getElem?_concat_length] at hAfter
      cases hAfter
  · rw [hAll, List.getElem?_map] at hAfter
    cases hBefore : s.handlers[i]? with
    | none => simp [hBefore] at hAfter
    | some before =>
        rw [hBefore] at hAfter
        cases before with
        | arrived m icy => cases hAfter
        | informed m icy info => cases hAfter
        | primed m icy info headers => cases hAfter
        | serving task => exact absurd ⟨task, hBefore⟩ hTask
  · have hIndex := (List.getElem?_eq_some_iff.mp hBefore).1
    rw [hSet] at hAfter
    by_cases hPlace : j = i
    · subst hPlace
      rw [List.getElem?_set_self hIndex] at hAfter
      cases hTurns with
      | informed m icy info => cases hAfter
      | primed m icy info headers => cases hAfter
      | subscribed m icy info headers feed =>
          cases hAfter
          exact ⟨feed, m, icy, info, headers, rfl⟩
      | task task after =>
          exact absurd ⟨task, hBefore⟩ hTask
      | cancelled handler =>
          cases before with
          | arrived m icy => cases hAfter
          | informed m icy info => cases hAfter
          | primed m icy info headers => cases hAfter
          | serving task =>
              exact absurd ⟨task, hBefore⟩ hTask
    · rw [List.getElem?_set_ne hPlace] at hAfter
      exact absurd ⟨after, hAfter⟩ hTask

end Delivery

end RustyIce

------------------------------------------------------------
-- When A Task Leaves Its Loop
------------------------------------------------------------

namespace RustyIce

/- The output has neither returned nor failed. -/
def TaskPhase.Goes : TaskPhase → Prop
| .unprimed => False
| .returned _ => False
| .ended _ => False
| _ => True

namespace ListenerTask

variable {metaint : Nat}
variable {feed : MountFeed}
variable {task after : ListenerTask}

/- A poll that yields nothing has nothing ahead. -/
theorem ahead_of_pollNext_none
    (hNext : task.subscription.pollNext feed.sender = none) :
    task.subscription.ahead feed.sender = [] := by
  unfold BusSubscriber.pollNext at hNext
  unfold BusSubscriber.ahead
  cases hSnapshot : task.subscription.snapshot with
  | cons packet rest =>
      simp only [hSnapshot] at hNext
      cases hNext
  | nil =>
      simp only [hSnapshot] at hNext
      rw [List.nil_append]
      apply Library.Broadcast.unread_of_recv_none
      cases hRecv :
          feed.sender.recv task.subscription.next with
      | none => rfl
      | some received =>
          rcases received with ⟨packet | missed, place⟩
          · rw [hRecv] at hNext
            cases hNext
          · rw [hRecv] at hNext
            cases hNext

/- A step goes on, or leaves for one of three reasons. -/
inductive Leaves
    (feed : MountFeed)
    (task : ListenerTask) : ListenerTask → Prop
| goes (after : ListenerTask) :
    after.phase.Goes →
      after.pipe.writerClosed = task.pipe.writerClosed →
        Leaves feed task after
| broken (job : WriteJob) :
    task.pipe.closed = true →
      Leaves feed task (task.failed job)
| cancelled :
    task.phase = .looking →
      task.cancelled = true →
        Leaves feed task (task.finish (some .shuttingDown))
| dropped :
    task.phase = .taking →
      task.subscription.ahead feed.sender = [] →
        feed.dropped = true →
          Leaves feed task (task.finish (some .sourceEnded))

theorem nextChunk_goes
    (metaint : Nat)
    (task : ListenerTask)
    (data : Bytes) :
    (task.nextChunk metaint data).phase.Goes ∧
      (task.nextChunk metaint data).pipe = task.pipe := by
  cases data with
  | nil => exact ⟨trivial, rfl⟩
  | cons byte data => exact ⟨trivial, rfl⟩

theorem takePacket_goes
    (metaint : Nat)
    (task : ListenerTask)
    (packet : StreamPacket) :
    (task.takePacket metaint packet).phase.Goes ∧
      (task.takePacket metaint packet).pipe = task.pipe := by
  unfold takePacket
  cases packet.payload with
  | decoded frame => exact ⟨trivial, rfl⟩
  | encoded enc =>
      simp only
      split
      · exact nextChunk_goes metaint task enc.data
      · exact ⟨trivial, rfl⟩

theorem written_goes
    (metaint : Nat)
    (task : ListenerTask)
    (job : WriteJob) :
    (task.written metaint job).phase.Goes ∧
      (task.written metaint job).pipe = task.pipe := by
  cases job with
  | headers => exact ⟨trivial, rfl⟩
  | plain count => exact ⟨trivial, rfl⟩
  | chunk count rest =>
      unfold written
      simp only
      split
      · exact ⟨trivial, rfl⟩
      · exact nextChunk_goes metaint _ rest
  | frame rest => exact nextChunk_goes metaint _ rest

theorem leaves_of_step
    {count : Nat}
    (hStep : task.step metaint feed = some (after, count)) :
    Leaves feed task after := by
  unfold step at hStep
  cases hPhase : task.phase with
  | subscribed => simp [hPhase] at hStep
  | numbered => simp [hPhase] at hStep
  | unprimed => simp [hPhase] at hStep
  | returned reason => simp [hPhase] at hStep
  | ended reason => simp [hPhase] at hStep
  | spawned =>
      simp only [hPhase] at hStep
      split at hStep
      · cases hStep
        exact .goes _ trivial rfl
      · cases hStep
        exact .goes _ trivial rfl
  | writing job left =>
      cases left with
      | nil =>
          simp only [hPhase] at hStep
          cases hStep
          have hWritten := written_goes metaint task job
          refine .goes _ hWritten.1 ?_
          rw [hWritten.2]
      | cons byte left =>
          simp only [hPhase] at hStep
          rcases hPolled :
              task.pipe.pollWrite (byte :: left) with
            _ | _ | ⟨taken, pipe⟩
          · rw [hPolled] at hStep
            cases hStep
            refine .broken job ?_
            unfold Library.Pipe.pollWrite at hPolled
            by_contra hOpen
            rw [if_neg hOpen] at hPolled
            split at hPolled <;> cases hPolled
          · rw [hPolled] at hStep
            cases hStep
          · rw [hPolled] at hStep
            cases hStep
            rcases Library.Pipe.ready_exact hPolled with
              ⟨rfl, -, -, -⟩
            exact .goes _ trivial rfl
  | looking =>
      simp only [hPhase] at hStep
      by_cases hCancelled : task.cancelled = true
      · rw [if_pos hCancelled] at hStep
        cases hStep
        exact .cancelled hPhase hCancelled
      · rw [if_neg hCancelled] at hStep
        cases hStep
        exact .goes _ trivial rfl
  | taking =>
      simp only [hPhase] at hStep
      rcases hNext : task.subscription.pollNext feed.sender with
        _ | ⟨_ | packet, subscription⟩
      · simp only [hNext] at hStep
        by_cases hDropped : feed.dropped = true
        · rw [if_pos hDropped] at hStep
          cases hStep
          exact
            .dropped hPhase (ahead_of_pollNext_none hNext)
              hDropped
        · rw [if_neg hDropped] at hStep
          cases hStep
          exact .goes _ trivial rfl
      · simp only [hNext] at hStep
        cases hStep
        exact .goes _ trivial rfl
      · simp only [hNext] at hStep
        cases hStep
        have hTaken :=
          takePacket_goes metaint
            { task with
              subscription := subscription
              phase := .taking }
            packet
        refine .goes _ hTaken.1 ?_
        rw [hTaken.2]
  | titling rest =>
      simp only [hPhase] at hStep
      cases hStep
      exact .goes _ trivial rfl
  | overlaying title rest =>
      simp only [hPhase] at hStep
      cases hStep
      exact .goes _ trivial rfl

end ListenerTask

end RustyIce

------------------------------------------------------------
-- Which Tasks Have Closed Their Pipe
------------------------------------------------------------

namespace RustyIce

namespace ListenerTask

/- The output has returned. -/
def Returned (task : ListenerTask) : Prop :=
  ∃ reason,
    task.phase = .returned reason ∨ task.phase = .ended reason

/- A write has failed. -/
def GaveUp (task : ListenerTask) : Prop :=
  task.phase = .unprimed ∨
    task.phase = .returned none ∨ task.phase = .ended none

/-
  A listener gives up on a write only after its client has
  gone, and closes its end of the pipe on returning.
-/
structure EndsInv (task : ListenerTask) : Prop where
  gaveUp : task.GaveUp → task.pipe.readerClosed = true
  returned : task.pipe.writerClosed = true → task.Returned

variable {metaint : Nat}
variable {feed : MountFeed}
variable {task after : ListenerTask}

theorem EndsInv.of_goes
    (hGoes : task.phase.Goes)
    (hOpen : task.pipe.writerClosed = false) :
    task.EndsInv where
  gaveUp := by
    rintro (hPhase | hPhase | hPhase) <;>
      rw [hPhase] at hGoes <;> exact hGoes.elim
  returned := by
    intro hClosed
    rw [hOpen] at hClosed
    cases hClosed

theorem EndsInv.of_returned
    (hReturned : task.Returned)
    (hClient : task.GaveUp → task.pipe.readerClosed = true) :
    task.EndsInv where
  gaveUp := hClient
  returned := fun _ => hReturned

/- A task that was told to stop did not give up. -/
theorem EndsInv.of_finish
    (task : ListenerTask)
    (reason : Output.DisconnectReason) :
    (task.finish (some reason)).EndsInv := by
  refine .of_returned ⟨_, .inl rfl⟩ ?_
  rintro (hPhase | hPhase | hPhase) <;> cases hPhase

/- A task that takes a step has its end of the pipe. -/
theorem EndsInv.writer_open
    (hInv : task.EndsInv)
    (hRuns : ¬ task.Returned) :
    task.pipe.writerClosed = false := by
  by_contra hClosed
  exact hRuns (hInv.returned (by simpa using hClosed))

/- A step of the task. -/
theorem EndsInv.move
    {count : Nat}
    (hInv : task.EndsInv)
    (hStep : task.step metaint feed = some (after, count)) :
    after.EndsInv := by
  have hOpen : task.pipe.writerClosed = false := by
    apply hInv.writer_open
    rintro ⟨reason, hPhase | hPhase⟩
    · unfold step at hStep
      simp [hPhase] at hStep
    · unfold step at hStep
      simp [hPhase] at hStep
  cases leaves_of_step hStep with
  | goes _ hGoes hSame => exact .of_goes hGoes (hSame.trans hOpen)
  | cancelled _ _ => exact .of_finish task _
  | dropped _ _ _ => exact .of_finish task _
  | broken job hClosed =>
      unfold Library.Pipe.closed at hClosed
      rw [hOpen, Bool.false_or] at hClosed
      cases job with
      | plain count =>
          exact .of_returned ⟨_, .inl rfl⟩ fun _ => hClosed
      | chunk count rest =>
          exact .of_returned ⟨_, .inl rfl⟩ fun _ => hClosed
      | frame rest =>
          exact .of_returned ⟨_, .inl rfl⟩ fun _ => hClosed
      | headers =>
          refine ⟨fun _ => hClosed, ?_⟩
          intro hWriter
          change task.pipe.writerClosed = true at hWriter
          rw [hOpen] at hWriter
          cases hWriter

end ListenerTask

variable {metaint : Nat}
variable {s t : Delivery}
variable {i : Nat}
variable {task after : ListenerTask}

/- Whatever touches the task keeps it. -/
theorem ListenerTask.EndsInv.touched
    {label : DeliveryLabel}
    (hInv : task.EndsInv)
    (hTouched : s.Touched metaint i label task after) :
    after.EndsInv := by
  have hOpen :
      ∀ phase : TaskPhase,
        task.phase = phase →
          (phase = .subscribed ∨ phase = .numbered) →
            task.pipe.writerClosed = false := by
    intro phase hPhase hEarly
    apply hInv.writer_open
    rintro ⟨reason, hReturned | hEnded⟩
    · rw [hPhase.symm.trans hReturned] at hEarly
      rcases hEarly with hNever | hNever <;> cases hNever
    · rw [hPhase.symm.trans hEnded] at hEarly
      rcases hEarly with hNever | hNever <;> cases hNever
  cases hTouched with
  | same => exact hInv
  | cancel _ => exact ⟨hInv.gaveUp, hInv.returned⟩
  | read count _ => exact ⟨hInv.gaveUp, hInv.returned⟩
  | disconnect _ => exact ⟨fun _ => rfl, hInv.returned⟩
  | issue _ hPhase =>
      exact .of_goes trivial (hOpen _ hPhase (.inl rfl))
  | insert _ hPhase =>
      exact .of_goes trivial (hOpen _ hPhase (.inr rfl))
  | unprimed _ hPhase =>
      exact
        .of_returned ⟨_, .inr rfl⟩ fun _ =>
          hInv.gaveUp (.inl hPhase)
  | deregister reason _ hPhase =>
      refine .of_returned ⟨_, .inr rfl⟩ ?_
      intro hEnded
      apply hInv.gaveUp
      rcases hEnded with hSame | hSame | hSame
      · cases hSame
      · cases hSame
      · cases hSame
        exact .inr (.inl hPhase)
  | move feed after count _ _ hStep => exact hInv.move hStep

theorem endsInv_of_reachable
    {output : Output.HttpPassthroughOutput}
    (hReach : (deliveryMachine output).Reachable s)
    (hTask : s.handlers[i]? = some (.serving task)) :
    task.EndsInv := by
  have hAll :
      ∀ (i : Nat) (task : ListenerTask),
        s.handlers[i]? = some (.serving task) →
          task.EndsInv := by
    apply hReach.invariant
    · rintro u ⟨-, -, -, hNone⟩ j task hSome
      rw [hNone] at hSome
      cases hSome
    · intro u label v hBefore _ hStep j after hAfter
      rcases Delivery.comes_of_step hStep hAfter with
        ⟨task, hTask, hTouched⟩ |
          ⟨feed, m, icy, info, headers, rfl⟩
      · exact (hBefore j task hTask).touched hTouched
      · exact .of_goes trivial rfl
  exact hAll i task hTask

end RustyIce

------------------------------------------------------------
-- What A Client Reads, And Where It Stops
------------------------------------------------------------

namespace RustyIce

/-
  Whatever is published, displayed, cancelled and read in
  between, every client reads the beginning of its stream;
  and an output that has stopped did so between two packets,
  or its client has gone.
-/
theorem delivered
    {output : Output.HttpPassthroughOutput}
    {s : Delivery}
    {i : Nat}
    {task : ListenerTask}
    (hMetaint : 0 < output.icyMetaint)
    (hReach : (deliveryMachine output).Reachable s)
    (hTask : s.handlers[i]? = some (.serving task)) :
    (∃ feed,
        s.feeds[task.mount]? = some feed ∧
          Delivered output.icyMetaint feed task) ∧
      (task.Returned →
        task.phase.BetweenPackets ∨
          task.pipe.readerClosed = true) := by
  constructor
  · have hInv := DeliveryInv.of_reachable hMetaint hReach
    rcases hInv.tasks i task hTask with ⟨feed, hFeed, hOk⟩
    exact ⟨feed, hFeed, delivered_of_taskOk hMetaint hOk⟩
  · have hEnds := endsInv_of_reachable hReach hTask
    rintro ⟨_ | reason, hPhase | hPhase⟩
    · exact .inr (hEnds.gaveUp (.inr (.inl hPhase)))
    · exact .inr (hEnds.gaveUp (.inr (.inr hPhase)))
    · rw [hPhase]
      exact .inl trivial
    · rw [hPhase]
      exact .inl trivial

/-
  A listener that asked for metadata is handed the burst,
  misses a packet and is handed the next one; its client
  reads all but the last byte and goes, and the packet behind
  that is not written.
-/
def brokenListener : List DeliveryLabel :=
  [.publish 0 (mp3Packet [1, 2]), .arrive 0 true] ++
    List.replicate 8 (.advance 0) ++
      [.publish 0 (mp3Packet [3]),
        .publish 0 (mp3Packet [4, 5])] ++
        List.replicate 14 (.advance 0) ++
          [.read 0 4, .disconnect 0,
            .publish 0 (mp3Packet [6])] ++
            List.replicate 3 (.advance 0)

theorem delivered_brokenListener :
    ∃ s task,
      (deliveryMachine everyThird).run .oneMount
            brokenListener =
          some s ∧
        s.handlers[0]? = some (.serving task) ∧
          task.subscription.lagged = true ∧
            task.pipe.taken = [1, 2, 4, 0] ∧
              (∃ feed,
                s.feeds[task.mount]? = some feed ∧
                  Delivered 3 feed task) ∧
                (task.phase.BetweenPackets ∨
                  task.pipe.readerClosed = true) := by
  have hRun :
      (deliveryMachine everyThird).run .oneMount
          brokenListener =
        some _ :=
    rfl
  have hReach :=
    Library.Machine.reachable_of_run
      (Delivery.init_oneMount everyThird) hRun
  have hDelivered :=
    delivered (i := 0) (by decide) hReach rfl
  exact
    ⟨_, _, hRun, rfl, rfl, rfl, hDelivered.1,
      hDelivered.2 ⟨none, .inr rfl⟩⟩

end RustyIce

------------------------------------------------------------
-- How Far Behind A Listener Is
------------------------------------------------------------

namespace RustyIce

namespace ListenerTask

/- What the packets ahead cost. -/
def aheadCost
    (feed : MountFeed)
    (task : ListenerTask) : Nat :=
  6 * (task.subscription.ahead feed.sender).length +
    task.byteCost feed *
      audioBytes (task.subscription.ahead feed.sender)

/- The poll comes behind the look at the token. -/
def behind
    (feed : MountFeed)
    (task : ListenerTask) : Nat :=
  (if task.phase = .taking then
      1 + task.pipe.buffered.length
    else
      task.rank feed) +
    task.aheadCost feed

variable {metaint : Nat}
variable {feed : MountFeed}
variable {task after : ListenerTask}

theorem behind_le
    (feed : MountFeed)
    (task : ListenerTask) :
    task.behind feed ≤ task.rank feed + task.aheadCost feed := by
  unfold behind
  by_cases hTaking : task.phase = .taking
  · rw [if_pos hTaking]
    have hRank :
        task.rank feed =
          task.phaseRank feed task.phase +
            task.pipe.buffered.length :=
      rfl
    rw [hRank, hTaking]
    simp only [phaseRank]
    omega
  · rw [if_neg hTaking]

theorem behind_of_ne
    (hPhase : task.phase ≠ .taking) :
    task.behind feed =
      task.rank feed + task.aheadCost feed := by
  unfold behind
  rw [if_neg hPhase]

/- The packets ahead are those of the subscription. -/
theorem aheadCost_same
    (hSub : after.subscription = task.subscription)
    (hInfo : after.info = task.info) :
    after.aheadCost feed = task.aheadCost feed := by
  unfold aheadCost byteCost frameBytes
  rw [hSub, hInfo]

/- What a poll takes pays for what it makes to be written. -/
theorem behind_taking
    {count : Nat}
    (hMetaint : 0 < metaint)
    (hInv : task.TaskInv metaint)
    (hTaking : task.phase = .taking)
    (hMore : task.subscription.ahead feed.sender ≠ [])
    (hStep : task.step metaint feed = some (after, count)) :
    after.behind feed < task.behind feed := by
  have hSettled : task.PhaseInv metaint .taking := by
    rw [← hTaking]
    exact hInv
  have hBelow :
      task.icyRequested = true →
        task.bytesSinceMeta < metaint := by
    intro hIcy
    rw [hSettled.1.since hIcy]
    exact Library.Interleave.sinceAfter_lt _ _ hMetaint
  have hHere :
      task.behind feed =
        1 + task.pipe.buffered.length +
          task.aheadCost feed := by
    unfold behind
    rw [if_pos hTaking]
  unfold step at hStep
  simp only [hTaking] at hStep
  rcases hNext : task.subscription.pollNext feed.sender with
    _ | ⟨item, subscription⟩
  · exact absurd (ahead_of_pollNext_none hNext) hMore
  · rcases BusSubscriber.ahead_of_pollNext hNext with
      ⟨missed, hAhead, hSome, hOne⟩
    have hCount := List.length_pos_of_ne_nil hSome
    have hCost :
        task.aheadCost feed =
          6 * missed.length +
              task.byteCost feed * audioBytes missed +
            { task with
              subscription := subscription }.aheadCost
              feed := by
      change
        6 * (task.subscription.ahead feed.sender).length +
            task.byteCost feed *
              audioBytes
                (task.subscription.ahead feed.sender) =
          6 * missed.length +
              task.byteCost feed * audioBytes missed +
            (6 * (subscription.ahead feed.sender).length +
              task.byteCost feed *
                audioBytes (subscription.ahead feed.sender))
      rw [hAhead, List.length_append, audioBytes_append,
        Nat.mul_add, Nat.mul_add]
      omega
    rw [hHere, hCost]
    cases item with
    | none =>
        simp only [hNext] at hStep
        cases hStep
        change
          1 + task.pipe.buffered.length +
              { task with
                subscription := subscription }.aheadCost
                feed <
            _
        omega
    | some packet =>
        simp only [hNext] at hStep
        cases hStep
        have hAudio :
            audioBytes missed =
              (Output.packetAudio packet).length := by
          rw [hOne packet rfl]
          exact Nat.add_zero _
        have hPacket :=
          rank_takePacket feed
            { task with
              subscription := subscription
              phase := .taking }
            hBelow packet
        change
          _ ≤
            4 +
                task.byteCost feed *
                  (Output.packetAudio packet).length +
              task.pipe.buffered.length at hPacket
        have hSame :=
          sameTask_takePacket metaint
            { task with
              subscription := subscription
              phase := .taking }
            packet
        have hAfter :=
          behind_le feed
            ({ task with
                subscription := subscription
                phase := .taking }.takePacket metaint packet)
        rw [aheadCost_same hSame.subscription hSame.info]
          at hAfter
        change
          _ ≤
            _ +
              { task with
                subscription := subscription }.aheadCost
                feed at hAfter
        rw [hAudio]
        omega

/-
  Every step of a task that has not caught up brings it
  nearer.
-/
theorem behind_step
    {count : Nat}
    (hMetaint : 0 < metaint)
    (hInv : task.TaskInv metaint)
    (hLive : task.cancelled = false)
    (hMore :
      task.phase = .taking →
        task.subscription.ahead feed.sender ≠ [])
    (hStep : task.step metaint feed = some (after, count)) :
    after.behind feed < task.behind feed := by
  by_cases hTaking : task.phase = .taking
  · exact
      behind_taking hMetaint hInv hTaking (hMore hTaking)
        hStep
  by_cases hLooking : task.phase = .looking
  · unfold step at hStep
    simp only [hLooking, hLive] at hStep
    cases hStep
    rw [behind_of_ne hTaking]
    have hRank :
        task.rank feed =
          task.phaseRank feed task.phase +
            task.pipe.buffered.length :=
      rfl
    rw [hRank, hLooking]
    change
      1 + task.pipe.buffered.length + task.aheadCost feed <
        2 + task.pipe.buffered.length + task.aheadCost feed
    omega
  · have hMoves := step_moves hStep
    have hSub :
        after.subscription = task.subscription := by
      rcases hMoves.subscription with hSame | ⟨hNever, -⟩
      · exact hSame
      · exact absurd hNever hTaking
    have hRank :=
      rank_step hMetaint hInv
        (fun hNever => absurd hNever hLooking) hStep
    have hAfter := behind_le feed after
    rw [aheadCost_same hSub hMoves.info] at hAfter
    rw [behind_of_ne hTaking]
    omega

/- A read of its client also does. -/
theorem behind_read
    (hSome : 0 < task.pipe.buffered.length) :
    ({ task with pipe := task.pipe.read 1 } :
        ListenerTask).behind feed < task.behind feed := by
  have hLess :
      (task.pipe.read 1).buffered.length <
        task.pipe.buffered.length := by
    unfold Library.Pipe.read
    rw [List.length_drop]
    omega
  have hRank :
      ({ task with pipe := task.pipe.read 1 } :
          ListenerTask).rank feed < task.rank feed :=
    Delivery.rank_read hSome
  unfold behind
  apply Nat.add_lt_add_right
  by_cases hTaking : task.phase = .taking
  · rw [if_pos hTaking, if_pos hTaking]
    exact Nat.add_lt_add_left hLess 1
  · rw [if_neg hTaking, if_neg hTaking]
    exact hRank

end ListenerTask

end RustyIce

------------------------------------------------------------
-- A Listener Catches Up
------------------------------------------------------------

namespace RustyIce

open Admin

/- Nobody stopped the listener, and its client is there. -/
structure ListenerTask.Live (task : ListenerTask) : Prop where
  cancelled : task.cancelled = false
  client : task.pipe.readerClosed = false
  goes : task.phase.Goes

/-
  Nothing published is left to take and nothing written is
  left to read: the client holds the whole stream of a
  selection, in order, of the burst and of all that was
  published since; of all of it unless packets were missed.
-/
structure CaughtUp
    (metaint : Nat)
    (feed : MountFeed)
    (task : ListenerTask) : Prop where
  order :
    ∃ burst,
      (task.headers.isSome = true → burst = []) ∧
        (task.headers.isSome = false →
          Burst feed.bus.size.burstBytes
            (feed.sender.sent.take task.subscription.since)
            burst) ∧
          task.subscription.received.Sublist
            (burst ++
              feed.sender.sent.drop task.subscription.since) ∧
            (task.subscription.lagged = false →
              task.subscription.received =
                burst ++
                  feed.sender.sent.drop
                    task.subscription.since)
  read :
    ∀ seen, Continues seen task.shown →
      task.pipe.taken = task.stream metaint seen task.heard

def Delivery.CaughtUp
    (metaint : Nat)
    (i : Nat)
    (s : Delivery) : Prop :=
  ∃ task feed,
    s.handlers[i]? = some (.serving task) ∧
      s.feeds[task.mount]? = some feed ∧
        RustyIce.CaughtUp metaint feed task

variable {metaint : Nat}
variable {s t : Delivery}
variable {i : Nat}
variable {task after : ListenerTask}
variable {feed : MountFeed}

theorem caughtUp_of_idle
    (hMetaint : 0 < metaint)
    (hOk : TaskOk metaint feed task)
    (hIdle : task.phase = .looking ∨ task.phase = .taking)
    (hAhead : task.subscription.ahead feed.sender = [])
    (hRead : task.pipe.buffered = []) :
    CaughtUp metaint feed task where
  order := by
    rcases hOk.follows.stream with
      ⟨burst, hLive, hBurst, hPart, hAll⟩
    rw [hOk.live] at hLive hBurst
    unfold BusSubscriber.ahead at hAhead
    have hSnapshot := (List.append_eq_nil_iff.mp hAhead).1
    have hUnread := (List.append_eq_nil_iff.mp hAhead).2
    have hSame :
        task.subscription.received ++
              task.subscription.snapshot ++
            feed.busSystem.sender.unread
              task.subscription.next =
          task.subscription.received := by
      change _ ++ feed.sender.unread _ = _
      rw [hSnapshot, hUnread, List.append_nil,
        List.append_nil]
    rw [hSame] at hPart hAll
    exact ⟨burst, hLive, hBurst, hPart, hAll⟩
  read := by
    intro seen hSeen
    have hBetween : task.phase.BetweenPackets := by
      rcases hIdle with hLooking | hTaking
      · rw [hLooking]
        trivial
      · rw [hTaking]
        trivial
    have hWhole :=
      ((delivered_of_taskOk hMetaint hOk).whole hBetween).2
        seen hSeen
    rw [hRead, List.append_nil] at hWhole
    exact hWhole

/- A step on the way keeps the listener going. -/
theorem live_touched
    {label : DeliveryLabel}
    (hLive : task.Live)
    (hEnds : task.EndsInv)
    (hShutdown : s.shutdown = false)
    (hFeed : s.feeds[task.mount]? = some feed)
    (hMore :
      task.phase = .taking →
        task.subscription.ahead feed.sender ≠ [])
    (hOwn : DeliveryLabel.Own i label)
    (hTouched : s.Touched metaint i label task after) :
    after.Live := by
  have hGoes := hLive.goes
  cases hTouched with
  | same => exact hLive
  | cancel hLabel =>
      rcases hOwn with rfl | rfl <;>
        rcases hLabel with ⟨id, hNever⟩ | hNever <;>
          cases hNever
  | read count _ =>
      exact ⟨hLive.cancelled, hLive.client, hGoes⟩
  | disconnect hLabel =>
      rw [hLabel] at hOwn
      rcases hOwn with hNever | hNever <;> cases hNever
  | issue _ _ => exact ⟨hShutdown, hLive.client, trivial⟩
  | insert _ _ =>
      exact ⟨hLive.cancelled, hLive.client, trivial⟩
  | unprimed _ hPhase =>
      rw [hPhase] at hGoes
      exact hGoes.elim
  | deregister reason _ hPhase =>
      rw [hPhase] at hGoes
      exact hGoes.elim
  | move own after count _ hOwnFeed hStep =>
      cases hFeed.symm.trans hOwnFeed
      have hMoves := ListenerTask.step_moves hStep
      refine
        ⟨hMoves.cancelled.trans hLive.cancelled,
          hMoves.client.trans hLive.client, ?_⟩
      cases ListenerTask.leaves_of_step hStep with
      | goes _ hStays _ => exact hStays
      | broken job hClosed =>
          have hRuns : ¬ task.Returned := by
            rintro ⟨reason, hPhase | hPhase⟩
            · rw [hPhase] at hGoes
              exact hGoes
            · rw [hPhase] at hGoes
              exact hGoes
          unfold Library.Pipe.closed at hClosed
          rw [hEnds.writer_open hRuns, hLive.client] at hClosed
          cases hClosed
      | cancelled _ hCancelled =>
          rw [hLive.cancelled] at hCancelled
          cases hCancelled
      | dropped hTaking hAhead _ =>
          exact absurd hAhead (hMore hTaking)

namespace Delivery

theorem shutdown_of_own
    {label : DeliveryLabel}
    (hOwn : DeliveryLabel.Own i label)
    (hTask : s.handlers[i]? = some (.serving task))
    (hStep : s.step metaint label = some t) :
    t.shutdown = s.shutdown := by
  rcases hOwn with rfl | rfl
  · change s.advance metaint i = some t at hStep
    unfold advance at hStep
    simp only [hTask] at hStep
    split at hStep
    · cases hStep
    · cases advances_of_advanceTask hStep <;> rfl
  · simp only [Delivery.step, hTask] at hStep
    split at hStep
    · cases hStep
    · cases hStep
      rfl

/- Some own step brings a listener that goes on nearer. -/
theorem nearer_of_goes
    (hMetaint : 0 < metaint)
    (hTask : s.handlers[i]? = some (.serving task))
    (hFeed : s.feeds[task.mount]? = some feed)
    (hOk : TaskOk metaint feed task)
    (hLive : task.Live)
    (hMore :
      task.phase = .taking →
        task.subscription.ahead feed.sender ≠ []) :
    ∃ label t,
      DeliveryLabel.Own i label ∧
        s.step metaint label = some t ∧
          t.distance ListenerTask.behind i <
            s.distance ListenerTask.behind i := by
  have hGoes := hLive.goes
  by_cases hFirst : task.phase = .subscribed
  · refine
      nearer_of_aside (task.numbered s.shutdown s.map.issued)
        s.map.issue hTask hFeed ?_ rfl ?_
    · unfold advanceTask
      rw [hFirst]
    · have hPhase : task.phase ≠ .taking := by
        rw [hFirst]
        exact TaskPhase.noConfusion
      rw [ListenerTask.behind_of_ne TaskPhase.noConfusion,
        ListenerTask.behind_of_ne hPhase]
      unfold ListenerTask.rank
      rw [hFirst]
      change
        2 * (task.headers.getD []).length + 5 +
              task.pipe.buffered.length +
            task.aheadCost feed <
          2 * (task.headers.getD []).length + 6 +
              task.pipe.buffered.length +
            task.aheadCost feed
      omega
  by_cases hSecond : task.phase = .numbered
  · refine
      nearer_of_aside { task with phase := .spawned }
        (s.map.insert (task.entry feed.path i)) hTask hFeed ?_
        rfl ?_
    · unfold advanceTask
      rw [hSecond]
    · have hPhase : task.phase ≠ .taking := by
        rw [hSecond]
        exact TaskPhase.noConfusion
      rw [ListenerTask.behind_of_ne TaskPhase.noConfusion,
        ListenerTask.behind_of_ne hPhase]
      unfold ListenerTask.rank
      rw [hSecond]
      change
        2 * (task.headers.getD []).length + 4 +
              task.pipe.buffered.length +
            task.aheadCost feed <
          2 * (task.headers.getD []).length + 5 +
              task.pipe.buffered.length +
            task.aheadCost feed
      omega
  have hListed : task.Listed = true := by
    unfold ListenerTask.Listed
    revert hFirst hSecond hGoes
    cases task.phase <;> simp [TaskPhase.Goes]
  have hRuns :
      task.phase ≠ .unprimed ∧
        ∀ reason, task.phase ≠ .returned reason := by
    constructor
    · intro hUnprimed
      rw [hUnprimed] at hGoes
      exact hGoes
    · intro reason hReturned
      rw [hReturned] at hGoes
      exact hGoes
  exact
    nearer_of_rank hTask hFeed hOk.capacity hListed hRuns
      ListenerTask.behind_read fun after count hStep =>
        ListenerTask.behind_step hMetaint hOk.inv
          hLive.cancelled hMore hStep

/-
  A listener that has taken all there is, whose client has
  something left to read, is brought nearer by the read.
-/
theorem nearer_of_read
    (hTask : s.handlers[i]? = some (.serving task))
    (hFeed : s.feeds[task.mount]? = some feed)
    (hLive : task.Live)
    (hSome : task.pipe.buffered ≠ []) :
    ∃ label t,
      DeliveryLabel.Own i label ∧
        s.step metaint label = some t ∧
          t.distance ListenerTask.behind i <
              s.distance ListenerTask.behind i ∧
            t.shutdown = s.shutdown ∧
              ∃ after,
                t.handlers[i]? = some (.serving after) ∧
                  after.Live := by
  have hHere :=
    getElem?_setHandler hTask
      (.serving { task with pipe := task.pipe.read 1 })
  refine
    ⟨.read i 1,
      s.setHandler i
        (.serving { task with pipe := task.pipe.read 1 }),
      .inr rfl, ?_, ?_, rfl, _, hHere,
      ⟨hLive.cancelled, hLive.client, hLive.goes⟩⟩
  · simp only [Delivery.step, hTask]
    rw [if_neg]
    rw [hLive.client]
    exact Bool.false_ne_true
  · rw [distance_eq hHere hFeed, distance_eq hTask hFeed]
    exact
      ListenerTask.behind_read
        (List.length_pos_of_ne_nil hSome)

end Delivery

/-
  From every reachable state, a listener that nobody stopped
  and whose client is there comes to where it has caught up,
  by its own steps and single-byte reads of its client.
-/
theorem catches_up
    {output : Output.HttpPassthroughOutput}
    {s : Delivery}
    {i : Nat}
    {task : ListenerTask}
    (hMetaint : 0 < output.icyMetaint)
    (hReach : (deliveryMachine output).Reachable s)
    (hShutdown : s.shutdown = false)
    (hTask : s.handlers[i]? = some (.serving task))
    (hCancelled : task.cancelled = false)
    (hClient : task.pipe.readerClosed = false)
    (hRuns : ¬ task.Returned) :
    (deliveryMachine output).Leads (DeliveryLabel.Own i)
      (Delivery.CaughtUp output.icyMetaint i) s := by
  have hEnds := endsInv_of_reachable hReach hTask
  have hGoes : task.phase.Goes := by
    cases hPhase : task.phase with
    | unprimed =>
        rw [hEnds.gaveUp (.inl hPhase)] at hClient
        cases hClient
    | returned reason => exact hRuns ⟨reason, .inl hPhase⟩
    | ended reason => exact hRuns ⟨reason, .inr hPhase⟩
    | _ => trivial
  refine
    Library.Machine.leads_of_rank (M := deliveryMachine output)
      (I := fun u =>
        (deliveryMachine output).Reachable u ∧
          u.shutdown = false ∧
            ∃ now,
              u.handlers[i]? = some (.serving now) ∧ now.Live)
      (Delivery.distance ListenerTask.behind i) ?_
      ⟨hReach, hShutdown, task, hTask, hCancelled, hClient,
        hGoes⟩
  rintro u ⟨hRun, hUp, now, hNow, hLive⟩ hBehind
  have hInv := DeliveryInv.of_reachable hMetaint hRun
  rcases hInv.tasks i now hNow with ⟨feed, hFeed, hOk⟩
  by_cases hIdle :
      (now.phase = .looking ∨ now.phase = .taking) ∧
        now.subscription.ahead feed.sender = []
  · have hSome : now.pipe.buffered ≠ [] := fun hRead =>
      hBehind
        ⟨now, feed, hNow, hFeed,
          caughtUp_of_idle hMetaint hOk hIdle.1 hIdle.2 hRead⟩
    rcases Delivery.nearer_of_read hNow hFeed hLive hSome with
      ⟨label, t, hOwn, hStep, hLess, hSame, after, hAfter,
        hStill⟩
    exact
      ⟨label, t, hOwn, hStep,
        ⟨.step hRun trivial hStep, hSame.trans hUp, after,
          hAfter, hStill⟩, hLess⟩
  · have hMore :
        now.phase = .taking →
          now.subscription.ahead feed.sender ≠ [] :=
      fun hTaking hAhead => hIdle ⟨.inr hTaking, hAhead⟩
    rcases Delivery.nearer_of_goes hMetaint hNow hFeed hOk hLive
        hMore with
      ⟨label, t, hOwn, hStep, hLess⟩
    rcases Delivery.touched_of_step hNow hStep with
      ⟨after, hAfter, hTouched⟩
    have hStill :=
      live_touched hLive (endsInv_of_reachable hRun hNow) hUp
        hFeed hMore hOwn hTouched
    exact
      ⟨label, t, hOwn, hStep,
        ⟨.step hRun trivial hStep,
          (Delivery.shutdown_of_own hOwn hNow hStep).trans hUp,
          after, hAfter, hStill⟩, hLess⟩

/-
  A listener is handed the burst, and then more is published
  than its channel keeps.
-/
def fallenBehind : List DeliveryLabel :=
  [.publish 0 (mp3Packet [1, 2]), .arrive 0 true] ++
    List.replicate 8 (.advance 0) ++
      [.publish 0 (mp3Packet [3]),
        .publish 0 (mp3Packet [4, 5])]

def Delivery.atFallenBehind : Delivery :=
  ((deliveryMachine everyThird).run .oneMount
    fallenBehind).getD .oneMount

theorem catches_up_fallenBehind :
    (deliveryMachine everyThird).Leads (DeliveryLabel.Own 0)
      (Delivery.CaughtUp 3 0) .atFallenBehind := by
  have hRun :
      (deliveryMachine everyThird).run .oneMount fallenBehind =
        some Delivery.atFallenBehind :=
    rfl
  have hReach :=
    Library.Machine.reachable_of_run
      (Delivery.init_oneMount everyThird) hRun
  refine
    catches_up (i := 0) (by decide) hReach rfl rfl rfl rfl ?_
  rintro ⟨reason, hPhase | hPhase⟩ <;> cases hPhase

end RustyIce

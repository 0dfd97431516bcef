import RustyIce.Server.ListenerRegistry

/-
  What a kick or a shutdown does to a listener: it is handed
  at most the packet it was about to take.

  Main declarations:
    * `ListenerTask.Winding`, `ListenerTask.Winding.step`
    * `Delivery.Touched`, `Delivery.touched_of_step`
    * `last_packet`
-/

------------------------------------------------------------
-- The Last Packet
------------------------------------------------------------

namespace RustyIce

namespace ListenerTask

/-
  A cancelled listener since `before`: it has taken nothing,
  or the one packet it was about to take, and will not look
  for another.
-/
structure Winding
    (before after : ListenerTask) : Prop where
  numbered : after.Numbered = true
  cancelled : after.cancelled = true
  received :
    after.subscription.received =
          before.subscription.received ∧
        (after.phase = .taking → before.phase = .taking) ∨
      before.phase = .taking ∧ after.phase ≠ .taking ∧
        ∃ packet,
          after.subscription.received =
            before.subscription.received ++ [packet]

variable {metaint : Nat}
variable {feed : MountFeed}
variable {before task after : ListenerTask}

theorem Winding.start
    (hNumbered : task.Numbered = true)
    (hCancelled : task.cancelled = true) :
    Winding task task where
  numbered := hNumbered
  cancelled := hCancelled
  received := .inl ⟨rfl, id⟩

/- Nothing else of the task matters. -/
theorem Winding.same
    (hWinding : Winding before task)
    (hPhase : after.phase = task.phase)
    (hCancelled : after.cancelled = true)
    (hSub : after.subscription = task.subscription) :
    Winding before after where
  numbered := by
    have hNumbered := hWinding.numbered
    unfold Numbered at hNumbered ⊢
    rw [hPhase]
    exact hNumbered
  cancelled := hCancelled
  received := by
    rw [hPhase, hSub]
    exact hWinding.received

/- A phase other than the poll keeps what was taken. -/
theorem Winding.turn
    (hWinding : Winding before task)
    (hCancelled : after.cancelled = task.cancelled)
    (hSub : after.subscription = task.subscription)
    (hNumbered : after.Numbered = true)
    (hPhase : after.phase ≠ .taking) :
    Winding before after where
  numbered := hNumbered
  cancelled := hCancelled.trans hWinding.cancelled
  received := by
    rw [hSub]
    rcases hWinding.received with ⟨hNone, -⟩ | ⟨hAbout, -, hOne⟩
    · exact .inl ⟨hNone, fun hTaking => absurd hTaking hPhase⟩
    · exact .inr ⟨hAbout, hPhase, hOne⟩

/- Only the poll and the look before it lead to the poll. -/
theorem not_taking_nextChunk
    (metaint : Nat)
    (task : ListenerTask)
    (data : Bytes) :
    (task.nextChunk metaint data).phase ≠ .taking := by
  cases data <;> exact TaskPhase.noConfusion

theorem not_taking_takePacket
    (metaint : Nat)
    (task : ListenerTask)
    (packet : StreamPacket) :
    (task.takePacket metaint packet).phase ≠ .taking := by
  unfold takePacket
  cases packet.payload with
  | decoded frame => exact TaskPhase.noConfusion
  | encoded enc =>
      simp only
      split
      · exact not_taking_nextChunk metaint task enc.data
      · exact TaskPhase.noConfusion

theorem not_taking_written
    (metaint : Nat)
    (task : ListenerTask)
    (job : WriteJob) :
    (task.written metaint job).phase ≠ .taking := by
  cases job with
  | headers => exact TaskPhase.noConfusion
  | plain count => exact TaskPhase.noConfusion
  | chunk count rest =>
      unfold written
      simp only
      split
      · exact TaskPhase.noConfusion
      · exact not_taking_nextChunk metaint _ rest
  | frame rest => exact not_taking_nextChunk metaint _ rest

/- The phase behind a step is the poll only in two cases. -/
theorem taking_of_step
    {count : Nat}
    (hStep : task.step metaint feed = some (after, count))
    (hTaking : after.phase = .taking) :
    task.phase = .looking ∧ task.cancelled = false ∨
      task.phase = .taking ∧
        after.subscription.received =
          task.subscription.received := by
  unfold step at hStep
  cases hPhase : task.phase with
  | subscribed => simp [hPhase] at hStep
  | numbered => simp [hPhase] at hStep
  | unprimed => simp [hPhase] at hStep
  | returned reason => simp [hPhase] at hStep
  | ended reason => simp [hPhase] at hStep
  | spawned =>
      simp only [hPhase] at hStep
      split at hStep <;> cases hStep <;> cases hTaking
  | writing job left =>
      cases left with
      | nil =>
          simp only [hPhase] at hStep
          cases hStep
          exact
            absurd hTaking (not_taking_written metaint task job)
      | cons byte left =>
          simp only [hPhase] at hStep
          rcases hPolled :
              task.pipe.pollWrite (byte :: left) with
            _ | _ | ⟨taken, pipe⟩
          · rw [hPolled] at hStep
            cases hStep
            cases job <;> cases hTaking
          · rw [hPolled] at hStep
            cases hStep
          · rw [hPolled] at hStep
            cases hStep
            cases hTaking
  | looking =>
      left
      simp only [hPhase] at hStep
      by_cases hCancelled : task.cancelled = true
      · rw [if_pos hCancelled] at hStep
        cases hStep
        cases hTaking
      · exact ⟨rfl, by simpa using hCancelled⟩
  | taking =>
      right
      simp only [hPhase] at hStep
      rcases hNext : task.subscription.pollNext feed.sender with
        _ | ⟨_ | packet, subscription⟩
      · simp only [hNext] at hStep
        split at hStep <;> cases hStep <;> cases hTaking
      · simp only [hNext] at hStep
        cases hStep
        refine ⟨rfl, ?_⟩
        have hSame :=
          (BusSubscriber.poll_of_pollNext hNext).2
        simpa using hSame
      · simp only [hNext] at hStep
        cases hStep
        exact
          absurd hTaking (not_taking_takePacket metaint _ packet)
  | titling rest =>
      simp only [hPhase] at hStep
      cases hStep
      cases hTaking
  | overlaying title rest =>
      simp only [hPhase] at hStep
      cases hStep
      cases hTaking

/- A poll takes one packet at most. -/
theorem received_of_poll
    {sender : Library.Broadcast StreamPacket}
    {sub next : BusSubscriber}
    (hPoll : sub.poll sender = some next) :
    next.received = sub.received ∨
      ∃ packet, next.received = sub.received ++ [packet] := by
  unfold BusSubscriber.poll at hPoll
  cases hSnapshot : sub.snapshot with
  | cons packet rest =>
      simp only [hSnapshot] at hPoll
      cases hPoll
      exact .inr ⟨packet, rfl⟩
  | nil =>
      simp only [hSnapshot] at hPoll
      rcases hRecv : sender.recv sub.next with
        _ | ⟨packet | missed, place⟩
      · rw [hRecv] at hPoll
        cases hPoll
      · rw [hRecv] at hPoll
        cases hPoll
        exact .inr ⟨packet, rfl⟩
      · rw [hRecv] at hPoll
        cases hPoll
        exact .inl rfl

/- A step of a cancelled task. -/
theorem Winding.step
    {count : Nat}
    (hWinding : Winding before task)
    (hStep : task.step metaint feed = some (after, count)) :
    Winding before after := by
  have hMoves := step_moves hStep
  refine
    { numbered := numbered_of_listed hMoves.stays
      cancelled := hMoves.cancelled.trans hWinding.cancelled
      received := ?_ }
  have hTurn :
      after.phase = .taking →
        task.phase = .taking ∧
          after.subscription.received =
            task.subscription.received := by
    intro hTaking
    rcases taking_of_step hStep hTaking with
      ⟨-, hNot⟩ | hStays
    · rw [hWinding.cancelled] at hNot
      cases hNot
    · exact hStays
  have hOnly :
      task.phase ≠ .taking →
        after.subscription.received =
          task.subscription.received := by
    intro hNot
    rcases hMoves.subscription with hSame | ⟨hTaking, -⟩
    · rw [hSame]
    · exact absurd hTaking hNot
  rcases hWinding.received with
    ⟨hNone, hAbout⟩ | ⟨hAbout, hPast, packet, hOne⟩
  · by_cases hTaking : task.phase = .taking
    · have hReceived :
          after.subscription.received =
                task.subscription.received ∨
              ∃ packet,
                after.subscription.received =
                  task.subscription.received ++ [packet] := by
        rcases hMoves.subscription with hSame | ⟨-, hPoll⟩
        · exact .inl (by rw [hSame])
        · exact received_of_poll hPoll
      rcases hReceived with hSame | ⟨packet, hOne⟩
      · left
        exact
          ⟨hSame.trans hNone, fun _ => hAbout hTaking⟩
      · right
        refine ⟨hAbout hTaking, ?_, packet, ?_⟩
        · intro hAgain
          have hSame := (hTurn hAgain).2
          rw [hOne] at hSame
          exact absurd hSame (by simp)
        · rw [hOne, hNone]
    · left
      refine ⟨(hOnly hTaking).trans hNone, ?_⟩
      intro hAgain
      exact absurd (hTurn hAgain).1 hTaking
  · right
    refine ⟨hAbout, ?_, packet, (hOnly hPast).trans hOne⟩
    intro hAgain
    exact hPast (hTurn hAgain).1

end ListenerTask

end RustyIce

------------------------------------------------------------
-- One Listener In The System
------------------------------------------------------------

namespace RustyIce

open Admin

namespace Delivery

/-
  All that one step of the system does to listener `i`: its
  own step, its client, a cancellation, or nothing.
-/
inductive Touched
    (metaint : Nat)
    (s : Delivery)
    (i : Nat)
    (label : DeliveryLabel)
    (task : ListenerTask) : ListenerTask → Prop
| same : Touched metaint s i label task task
| cancel :
    (∃ id, label = .kick id) ∨ label = .shutdown →
      Touched metaint s i label task task.cancel
| read (count : Nat) :
    label = .read i count →
      Touched metaint s i label task
        { task with pipe := task.pipe.read count }
| disconnect :
    label = .disconnect i →
      Touched metaint s i label task
        { task with pipe := task.pipe.closeReader }
| issue :
    label = .advance i →
      task.phase = .subscribed →
        Touched metaint s i label task
          (task.numbered s.shutdown s.map.issued)
| insert :
    label = .advance i →
      task.phase = .numbered →
        Touched metaint s i label task
          { task with phase := .spawned }
| unprimed :
    label = .advance i →
      task.phase = .unprimed →
        Touched metaint s i label task
          { task with
            pipe := task.pipe.closeWriter
            phase := .ended none }
| deregister (reason : Option Output.DisconnectReason) :
    label = .advance i →
      task.phase = .returned reason →
        Touched metaint s i label task
          { task with phase := .ended reason }
| move
    (feed : MountFeed)
    (after : ListenerTask)
    (count : Nat) :
    label = .advance i →
      s.feeds[task.mount]? = some feed →
        task.step metaint feed = some (after, count) →
          Touched metaint s i label task after

variable {metaint : Nat}
variable {s t : Delivery}
variable {i : Nat}
variable {task : ListenerTask}

theorem getElem?_setHandler
    (hTask : s.handlers[i]? = some (.serving task))
    (handler : ListenerHandler) :
    (s.setHandler i handler).handlers[i]? = some handler :=
  List.getElem?_set_self (List.getElem?_eq_some_iff.mp hTask).1

/- A step on another handler. -/
theorem getElem?_setHandler_other
    {j : Nat}
    (hAway : j ≠ i)
    (hTask : s.handlers[i]? = some (.serving task))
    (handler : ListenerHandler) :
    (s.setHandler j handler).handlers[i]? =
      some (.serving task) := by
  change (s.handlers.set j handler)[i]? = _
  rw [List.getElem?_set_ne hAway]
  exact hTask

theorem handlers_onFeed
    {m : Nat}
    {change : MountFeed → MountFeed}
    (hStep : s.onFeed m change = some t) :
    t.handlers = s.handlers := by
  unfold onFeed at hStep
  split at hStep
  · cases hStep
  · cases hStep
    rfl

/- A handler's step leaves the others alone. -/
theorem handlers_advance_other
    {j : Nat}
    (hAway : j ≠ i)
    (hTask : s.handlers[i]? = some (.serving task))
    (hStep : s.advance metaint j = some t) :
    t.handlers[i]? = some (.serving task) := by
  unfold advance at hStep
  rcases hHandler : s.handlers[j]? with
    _ | ⟨m, icy⟩ | ⟨m, icy, info⟩ | ⟨m, icy, info, headers⟩ |
      other
  · simp [hHandler] at hStep
  · simp only [hHandler] at hStep
    split at hStep
    · cases hStep
    · cases hStep
      exact getElem?_setHandler_other hAway hTask _
  · simp only [hHandler] at hStep
    split at hStep
    · cases hStep
    · cases hStep
      exact getElem?_setHandler_other hAway hTask _
  · simp only [hHandler] at hStep
    split at hStep
    · cases hStep
    · cases hStep
      exact getElem?_setHandler_other hAway hTask _
  · simp only [hHandler] at hStep
    split at hStep
    · cases hStep
    · rename_i feed hFeed
      cases advances_of_advanceTask hStep with
      | issue hPhase =>
          exact getElem?_setHandler_other hAway hTask _
      | insert hPhase =>
          exact getElem?_setHandler_other hAway hTask _
      | unprimed hPhase =>
          exact getElem?_setHandler_other hAway hTask _
      | deregister reason hPhase =>
          exact getElem?_setHandler_other hAway hTask _
      | move after count hOne =>
          exact getElem?_setHandler_other hAway hTask _

theorem touched_of_advance
    (hTask : s.handlers[i]? = some (.serving task))
    (hStep : s.advance metaint i = some t) :
    ∃ after,
      t.handlers[i]? = some (.serving after) ∧
        s.Touched metaint i (.advance i) task after := by
  unfold advance at hStep
  simp only [hTask] at hStep
  cases hFeed : s.feeds[task.mount]? with
  | none => simp [hFeed] at hStep
  | some feed =>
      simp only [hFeed] at hStep
      cases advances_of_advanceTask hStep with
      | issue hPhase =>
          exact
            ⟨_, getElem?_setHandler hTask _,
              .issue rfl hPhase⟩
      | insert hPhase =>
          exact
            ⟨_, getElem?_setHandler hTask _,
              .insert rfl hPhase⟩
      | unprimed hPhase =>
          exact
            ⟨_, getElem?_setHandler hTask _,
              .unprimed rfl hPhase⟩
      | deregister reason hPhase =>
          exact
            ⟨_, getElem?_setHandler hTask _,
              .deregister reason rfl hPhase⟩
      | move after count hOne =>
          exact
            ⟨after, getElem?_setHandler hTask _,
              .move feed after count rfl hFeed hOne⟩

theorem touched_of_step
    {label : DeliveryLabel}
    (hTask : s.handlers[i]? = some (.serving task))
    (hStep : s.step metaint label = some t) :
    ∃ after,
      t.handlers[i]? = some (.serving after) ∧
        s.Touched metaint i label task after := by
  have hSame :
      t.handlers = s.handlers →
        ∃ after,
          t.handlers[i]? = some (.serving after) ∧
            s.Touched metaint i label task after :=
    fun hHandlers => ⟨task, hHandlers ▸ hTask, .same⟩
  cases label with
  | publish m packet =>
      apply hSame
      simp only [Delivery.step] at hStep
      split at hStep
      · cases hStep
      · split at hStep
        · cases hStep
        · cases hStep
          rfl
  | setTitle m title => exact hSame (handlers_onFeed hStep)
  | setOverlay m overlay => exact hSame (handlers_onFeed hStep)
  | setHeaders m headers => exact hSame (handlers_onFeed hStep)
  | setInfo m info => exact hSame (handlers_onFeed hStep)
  | dropBus m =>
      simp only [Delivery.step] at hStep
      split at hStep
      · cases hStep
      · exact hSame (handlers_onFeed hStep)
  | arrive m icy =>
      simp only [Delivery.step] at hStep
      split at hStep
      · cases hStep
      · split at hStep
        · cases hStep
        · cases hStep
          refine ⟨task, ?_, .same⟩
          have hIndex :=
            (List.getElem?_eq_some_iff.mp hTask).1
          rw [List.getElem?_append_left hIndex]
          exact hTask
  | advance j =>
      by_cases hPlace : j = i
      · subst hPlace
        exact touched_of_advance hTask hStep
      · exact
          ⟨task, handlers_advance_other hPlace hTask hStep,
            .same⟩
  | read j count =>
      simp only [Delivery.step] at hStep
      split at hStep
      · rename_i other hOther
        split at hStep
        · cases hStep
        · cases hStep
          by_cases hPlace : j = i
          · subst hPlace
            cases hTask.symm.trans hOther
            exact
              ⟨_, getElem?_setHandler hTask _, .read count rfl⟩
          · exact
              ⟨task,
                getElem?_setHandler_other hPlace hTask _, .same⟩
      · cases hStep
  | disconnect j =>
      simp only [Delivery.step] at hStep
      split at hStep
      · rename_i other hOther
        cases hStep
        by_cases hPlace : j = i
        · subst hPlace
          cases hTask.symm.trans hOther
          exact
            ⟨_, getElem?_setHandler hTask _, .disconnect rfl⟩
        · exact
            ⟨task, getElem?_setHandler_other hPlace hTask _,
              .same⟩
      · cases hStep
  | kick id =>
      simp only [Delivery.step] at hStep
      split at hStep
      · cases hStep
        exact hSame rfl
      · rename_i j hKick
        split at hStep
        · cases hStep
          exact hSame rfl
        · rename_i handler hHandler
          cases hStep
          by_cases hPlace : j = i
          · subst hPlace
            cases hTask.symm.trans hHandler
            exact
              ⟨_, getElem?_setHandler hTask _,
                .cancel (.inl ⟨id, rfl⟩)⟩
          · exact
              ⟨task, getElem?_setHandler_other hPlace hTask _,
                .same⟩
  | shutdown =>
      cases hStep
      refine ⟨task.cancel, ?_, .cancel (.inr rfl)⟩
      simp only [List.getElem?_map, hTask, Option.map_some]
      rfl

end Delivery

end RustyIce

------------------------------------------------------------
-- Behind A Kick
------------------------------------------------------------

namespace RustyIce

open Admin

variable {metaint : Nat}
variable {s t : Delivery}
variable {i : Nat}
variable {before task after : ListenerTask}

theorem winding_touched
    {label : DeliveryLabel}
    (hWinding : ListenerTask.Winding before task)
    (hTouched : s.Touched metaint i label task after) :
    ListenerTask.Winding before after := by
  have hTurn :
      ∀ (pipe : Library.Pipe UInt8) (phase : TaskPhase),
        ({ task with
            pipe := pipe
            phase := phase } : ListenerTask).Numbered = true →
          phase ≠ .taking →
            ListenerTask.Winding before
              { task with
                pipe := pipe
                phase := phase } :=
    fun pipe phase hNumbered hPast =>
      hWinding.turn rfl rfl hNumbered hPast
  cases hTouched with
  | same => exact hWinding
  | cancel _ => exact hWinding.same rfl rfl rfl
  | read count hLabel =>
      exact hWinding.same rfl hWinding.cancelled rfl
  | disconnect hLabel =>
      exact hWinding.same rfl hWinding.cancelled rfl
  | issue hLabel hPhase =>
      have hNumbered := hWinding.numbered
      unfold ListenerTask.Numbered at hNumbered
      simp [hPhase] at hNumbered
  | insert hLabel hPhase =>
      exact hTurn task.pipe .spawned rfl TaskPhase.noConfusion
  | unprimed hLabel hPhase =>
      exact hTurn _ (.ended none) rfl TaskPhase.noConfusion
  | deregister reason hLabel hPhase =>
      exact
        hTurn task.pipe (.ended reason) rfl
          TaskPhase.noConfusion
  | move feed after count hLabel hFeed hStep =>
      exact hWinding.step hStep

/-
  In every run, a listener that is cancelled takes at most
  the one packet it was about to take.
-/
theorem last_packet
    {output : Output.HttpPassthroughOutput}
    {labels : List DeliveryLabel}
    (hTask : s.handlers[i]? = some (.serving task))
    (hNumbered : task.Numbered = true)
    (hCancelled : task.cancelled = true)
    (hRun : (deliveryMachine output).run s labels = some t) :
    ∃ after,
      t.handlers[i]? = some (.serving after) ∧
        ListenerTask.Winding task after := by
  refine
    Library.Machine.run_keeps (M := deliveryMachine output)
      (fun _ => True)
      (I := fun u =>
        ∃ after,
          u.handlers[i]? = some (.serving after) ∧
            ListenerTask.Winding task after)
      ?_ ⟨task, hTask, .start hNumbered hCancelled⟩
      (fun _ _ => trivial) hRun
  rintro u label v ⟨now, hNow, hWinding⟩ _ hMove
  rcases Delivery.touched_of_step hNow hMove with
    ⟨after, hAfter, hTouched⟩
  exact ⟨after, hAfter, winding_touched hWinding hTouched⟩

/-
  A listener that is about to take a packet is kicked: it is
  handed that packet and not the next.
-/
def kickedAtPoll : List DeliveryLabel :=
  [.arrive 0 false] ++ List.replicate 7 (.advance 0) ++
    [.publish 0 (mp3Packet [1, 2]), .kick 0]

def behindKick : List DeliveryLabel :=
  List.replicate 3 (.advance 0) ++
    [.publish 0 (mp3Packet [3])] ++
      List.replicate 2 (.advance 0)

/- The server right behind the kick. -/
def Delivery.atPoll : Delivery :=
  ((deliveryMachine everyThird).run .oneMount
    kickedAtPoll).getD .oneMount

theorem last_packet_kickedAtPoll :
    ∃ t task after,
      (deliveryMachine everyThird).run .oneMount kickedAtPoll =
          some Delivery.atPoll ∧
        Delivery.atPoll.handlers[0]? = some (.serving task) ∧
          (deliveryMachine everyThird).run .atPoll behindKick =
              some t ∧
            t.handlers[0]? = some (.serving after) ∧
              after.pipe.buffered = [1, 2] ∧
                ListenerTask.Winding task after := by
  have hRun :
      (deliveryMachine everyThird).run .oneMount kickedAtPoll =
        some Delivery.atPoll :=
    rfl
  have hMore :
      (deliveryMachine everyThird).run .atPoll behindKick =
        some _ :=
    rfl
  rcases last_packet (i := 0) rfl rfl rfl hMore with
    ⟨after, hAfter, hWinding⟩
  cases hAfter
  exact ⟨_, _, _, hRun, rfl, hMore, rfl, rfl, hWinding⟩

end RustyIce

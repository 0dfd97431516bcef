import RustyIce.Server.KickedListeners

/-
  How a cancelled listener ends: by its own steps and the
  reads of its client alone, whatever it was doing; but as
  long as its pipe is full and its client neither reads nor
  leaves, nothing moves it, and it stays in the map.

  Main declarations:
    * `ListenerTask.Stalled`, `stalled_stays`
    * `ListenerTask.rank`, `ListenerTask.rank_step`
    * `kicked_ends`
-/

------------------------------------------------------------
-- A Full Pipe
------------------------------------------------------------

namespace RustyIce

open Admin

namespace ListenerTask

/- A write that the full pipe keeps waiting. -/
def Stalled (task : ListenerTask) : Prop :=
  ∃ job byte left,
    task.phase = .writing job (byte :: left) ∧
      task.pipe.closed = false ∧ task.pipe.room = 0

variable {metaint : Nat}
variable {feed : MountFeed}
variable {task after : ListenerTask}

theorem Stalled.listed (hStalled : task.Stalled) :
    task.Listed = true := by
  rcases hStalled with ⟨job, byte, left, hPhase, -, -⟩
  unfold Listed
  rw [hPhase]

theorem Stalled.step_eq_none
    (hStalled : task.Stalled)
    (metaint : Nat)
    (feed : MountFeed) :
    task.step metaint feed = none := by
  rcases hStalled with
    ⟨job, byte, left, hPhase, hClosed, hRoom⟩
  unfold step
  simp only [hPhase]
  unfold Library.Pipe.pollWrite
  rw [hClosed, if_neg Bool.false_ne_true, if_pos hRoom]

/- The only step that a task in the map can be denied. -/
theorem step_eq_none_iff
    (hListed : task.Listed = true)
    (hRuns :
      task.phase ≠ .unprimed ∧
        ∀ reason, task.phase ≠ .returned reason) :
    task.step metaint feed = none ↔ task.Stalled := by
  constructor
  · intro hNone
    unfold step at hNone
    cases hPhase : task.phase with
    | subscribed => simp [Listed, hPhase] at hListed
    | numbered => simp [Listed, hPhase] at hListed
    | ended reason => simp [Listed, hPhase] at hListed
    | unprimed => exact absurd hPhase hRuns.1
    | returned reason => exact absurd hPhase (hRuns.2 reason)
    | spawned =>
        simp only [hPhase] at hNone
        split at hNone <;> cases hNone
    | looking =>
        simp only [hPhase] at hNone
        split at hNone <;> cases hNone
    | taking =>
        simp only [hPhase] at hNone
        rcases hNext :
            task.subscription.pollNext feed.sender with
          _ | ⟨_ | packet, subscription⟩
        · simp only [hNext] at hNone
          split at hNone <;> cases hNone
        · simp only [hNext] at hNone
          cases hNone
        · simp only [hNext] at hNone
          cases hNone
    | titling rest =>
        simp only [hPhase] at hNone
        cases hNone
    | overlaying title rest =>
        simp only [hPhase] at hNone
        cases hNone
    | writing job left =>
        cases left with
        | nil =>
            simp only [hPhase] at hNone
            cases hNone
        | cons byte left =>
            simp only [hPhase] at hNone
            refine ⟨job, byte, left, hPhase, ?_⟩
            unfold Library.Pipe.pollWrite at hNone
            by_cases hClosed : task.pipe.closed = true
            · rw [if_pos hClosed] at hNone
              cases hNone
            · rw [if_neg hClosed] at hNone
              refine ⟨by simpa using hClosed, ?_⟩
              by_contra hRoom
              rw [if_neg hRoom] at hNone
              cases hNone
  · exact fun hStalled => hStalled.step_eq_none metaint feed

end ListenerTask

/- The label of a client of listener `i`. -/
def DeliveryLabel.ByClient
    (i : Nat) : DeliveryLabel → Prop
| .read j _ => j = i
| .disconnect j => j = i
| _ => False

variable {metaint : Nat}
variable {s t : Delivery}
variable {i : Nat}
variable {task after : ListenerTask}

/-
  Only its client moves a stalled listener. What anybody else
  can change is whether it is cancelled.
-/
theorem stalled_touched
    {label : DeliveryLabel}
    (hStalled : task.Stalled)
    (hLabel : ¬ label.ByClient i)
    (hTouched : s.Touched metaint i label task after) :
    after.Stalled ∧
      after = { task with cancelled := after.cancelled } := by
  have hBlocked := hStalled.step_eq_none metaint
  rcases hStalled with
    ⟨job, byte, left, hPhase, hClosed, hRoom⟩
  cases hTouched with
  | same =>
      exact ⟨⟨job, byte, left, hPhase, hClosed, hRoom⟩, rfl⟩
  | cancel _ =>
      exact ⟨⟨job, byte, left, hPhase, hClosed, hRoom⟩, rfl⟩
  | read count hRead =>
      rw [hRead] at hLabel
      exact absurd rfl hLabel
  | disconnect hLeave =>
      rw [hLeave] at hLabel
      exact absurd rfl hLabel
  | issue _ hOther => simp [hPhase] at hOther
  | insert _ hOther => simp [hPhase] at hOther
  | unprimed _ hOther => simp [hPhase] at hOther
  | deregister reason _ hOther => simp [hPhase] at hOther
  | move feed next count _ _ hStep =>
      rw [hBlocked feed] at hStep
      cases hStep

/-
  However often it is kicked, whatever is published and
  whoever comes and goes: until its client reads or leaves, a
  stalled listener is as it was, cancelled or not, and is
  found in the map under its id.
-/
theorem stalled_stays
    {output : Output.HttpPassthroughOutput}
    {labels : List DeliveryLabel}
    (hReach : (deliveryMachine output).Reachable s)
    (hTask : s.handlers[i]? = some (.serving task))
    (hStalled : task.Stalled)
    (hClient : ∀ label ∈ labels, ¬ label.ByClient i)
    (hRun : (deliveryMachine output).run s labels = some t)
    (hFew : t.map.issued ≤ 2 ^ 64) :
    ∃ after,
      t.handlers[i]? = some (.serving after) ∧
        after.Stalled ∧
          after = { task with cancelled := after.cancelled } ∧
            t.map.kick (ListenerMap.idOf task.number) =
              some i := by
  have hKept :
      ∃ after,
        t.handlers[i]? = some (.serving after) ∧
          after.Stalled ∧
            after =
              { task with cancelled := after.cancelled } := by
    refine
      Library.Machine.run_keeps (M := deliveryMachine output)
        (fun label => ¬ label.ByClient i)
        (I := fun u =>
          ∃ after,
            u.handlers[i]? = some (.serving after) ∧
              after.Stalled ∧
                after =
                  { task with cancelled := after.cancelled })
        ?_ ⟨task, hTask, hStalled, rfl⟩ hClient hRun
    rintro u label v ⟨now, hNow, hStill, hSame⟩ hOther hMove
    rcases Delivery.touched_of_step hNow hMove with
      ⟨after, hAfter, hTouched⟩
    rcases stalled_touched hStill hOther hTouched with
      ⟨hStays, hFlag⟩
    refine ⟨after, hAfter, hStays, ?_⟩
    rw [hSame] at hFlag
    exact hFlag
  rcases hKept with ⟨after, hAfter, hStays, hSame⟩
  have hRegistered :=
    registered_of_inv
      (Delivery.registryOk_of_reachable (hReach.run hRun) hFew)
  refine ⟨after, hAfter, hStays, hSame, ?_⟩
  have hNumber : after.number = task.number := by rw [hSame]
  rw [hRegistered.kicked]
  exact ⟨after, hAfter, hStays.listed, by rw [hNumber]⟩

end RustyIce

------------------------------------------------------------
-- How Far A Cancelled Listener Is From Its End
------------------------------------------------------------

namespace RustyIce

namespace BusSubscriber

/- What the subscription can still yield as things are. -/
def ahead
    (sender : Library.Broadcast StreamPacket)
    (sub : BusSubscriber) : List StreamPacket :=
  sub.snapshot ++ sender.unread sub.next

/- Every item of the stream shortens what is ahead. -/
theorem ahead_of_pollNext
    {sender : Library.Broadcast StreamPacket}
    {sub next : BusSubscriber}
    {item : Option StreamPacket}
    (hNext : sub.pollNext sender = some (item, next)) :
    ∃ missed,
      sub.ahead sender = missed ++ next.ahead sender ∧
        missed ≠ [] ∧
          ∀ packet, item = some packet → missed = [packet] := by
  unfold pollNext at hNext
  cases hSnapshot : sub.snapshot with
  | cons packet rest =>
      simp only [hSnapshot] at hNext
      cases hNext
      refine ⟨[packet], ?_, List.cons_ne_nil _ _, ?_⟩
      · unfold ahead
        rw [hSnapshot]
        rfl
      · intro other hSome
        rw [Option.some.inj hSome]
  | nil =>
      simp only [hSnapshot] at hNext
      rcases hRecv : sender.recv sub.next with
        _ | ⟨packet | missed, place⟩
      · rw [hRecv] at hNext
        cases hNext
      · rw [hRecv] at hNext
        cases hNext
        refine ⟨[packet], ?_, List.cons_ne_nil _ _, ?_⟩
        · unfold ahead
          rw [hSnapshot,
            (Library.Broadcast.unread_of_recv hRecv).1]
          rfl
        · intro other hSome
          rw [Option.some.inj hSome]
      · rw [hRecv] at hNext
        cases hNext
        unfold Library.Broadcast.recv at hRecv
        by_cases hBehind :
            sender.buffer < sender.sent.length - sub.next
        · rw [if_pos hBehind] at hRecv
          cases hRecv
          refine
            ⟨(sender.unread sub.next).take
                (sender.sent.length - sender.buffer -
                  sub.next), ?_, ?_,
              fun packet hNever => nomatch hNever⟩
          · unfold ahead Library.Broadcast.unread
            rw [hSnapshot, List.nil_append]
            have hSkip :
                sender.sent.length - sender.buffer =
                  sub.next +
                    (sender.sent.length - sender.buffer -
                      sub.next) := by
              omega
            have hDrop :
                sender.sent.drop
                    (sender.sent.length - sender.buffer) =
                  (sender.sent.drop sub.next).drop
                    (sender.sent.length - sender.buffer -
                      sub.next) := by
              rw [List.drop_drop, ← hSkip]
            simp only [List.nil_append]
            rw [hDrop, List.take_append_drop]
          · intro hNone
            have hLength := congrArg List.length hNone
            unfold Library.Broadcast.unread at hLength
            rw [List.length_take, List.length_drop,
              List.length_nil] at hLength
            omega
        · rw [if_neg hBehind] at hRecv
          cases hGet : sender.sent[sub.next]? with
          | none => simp [hGet] at hRecv
          | some packet => simp [hGet] at hRecv

end BusSubscriber

namespace ListenerTask

/- The audio of some packets, in bytes. -/
def audioBytes (packets : List StreamPacket) : Nat :=
  (packets.map fun p => (Output.packetAudio p).length).sum

/- The length of the frame a task would build now. -/
def frameBytes
    (feed : MountFeed)
    (task : ListenerTask)
    (title : Option String) : Nat :=
  (Output.buildIcyFrame
    { info := task.info
      currentTitle := title
      sourceOverlay := feed.sourceOverlay }).length

/- What each byte of a packet may cost. -/
def byteCost
    (feed : MountFeed)
    (task : ListenerTask) : Nat :=
  2 * task.frameBytes feed feed.currentTitle + 20

def jobRank
    (feed : MountFeed)
    (task : ListenerTask) : WriteJob → Nat
| .headers => 3
| .plain _ => 3
| .chunk _ rest =>
    2 * task.frameBytes feed feed.currentTitle + 8 +
      task.byteCost feed * rest.length
| .frame rest => 5 + task.byteCost feed * rest.length

def phaseRank
    (feed : MountFeed)
    (task : ListenerTask) : TaskPhase → Nat
| .ended _ => 0
| .returned _ => 1
| .unprimed => 1
| .looking => 2
| .taking =>
    4 + (task.subscription.ahead feed.sender).length +
      task.byteCost feed *
        audioBytes (task.subscription.ahead feed.sender)
| .writing job left =>
    2 * left.length + task.jobRank feed job
| .titling rest =>
    2 * task.frameBytes feed feed.currentTitle + 7 +
      task.byteCost feed * rest.length
| .overlaying title rest =>
    2 * task.frameBytes feed title + 6 +
      task.byteCost feed * rest.length
| .spawned => 2 * (task.headers.getD []).length + 4
| .numbered => 2 * (task.headers.getD []).length + 5
| .subscribed => 2 * (task.headers.getD []).length + 6

/- The phase, and what the client has not read yet. -/
def rank
    (feed : MountFeed)
    (task : ListenerTask) : Nat :=
  task.phaseRank feed task.phase + task.pipe.buffered.length

variable {metaint : Nat}
variable {feed : MountFeed}
variable {task after : ListenerTask}

/- The cost of a byte covers a frame behind it. -/
theorem le_byteCost_mul
    (feed : MountFeed)
    (task : ListenerTask)
    {count : Nat}
    (hSome : 0 < count) :
    2 * count + 2 * task.frameBytes feed feed.currentTitle + 4 ≤
      task.byteCost feed * count := by
  have hFrame :
      2 * task.frameBytes feed feed.currentTitle * 1 ≤
        2 * task.frameBytes feed feed.currentTitle * count :=
    Nat.mul_le_mul_left _ hSome
  unfold byteCost
  rw [Nat.add_mul]
  omega

theorem rank_nextChunk
    (feed : MountFeed)
    (task : ListenerTask)
    (hBelow : task.bytesSinceMeta < metaint)
    (data : Bytes) :
    (task.nextChunk metaint data).rank feed ≤
      4 + task.byteCost feed * data.length +
        task.pipe.buffered.length := by
  cases data with
  | nil =>
      change
        2 + task.pipe.buffered.length ≤
          4 + 0 + task.pipe.buffered.length
      omega
  | cons byte data =>
      have hChunk :
          0 <
            ((byte :: data).take
              (metaint - task.bytesSinceMeta)).length := by
        rw [List.length_take, List.length_cons]
        omega
      have hSplit :
          (byte :: data).length =
            ((byte :: data).take
                (metaint - task.bytesSinceMeta)).length +
              ((byte :: data).drop
                (metaint - task.bytesSinceMeta)).length := by
        rw [← List.length_append, List.take_append_drop]
      have hCost := le_byteCost_mul feed task hChunk
      change
        2 *
              ((byte :: data).take
                (metaint - task.bytesSinceMeta)).length +
              (2 * task.frameBytes feed feed.currentTitle + 8 +
                task.byteCost feed *
                  ((byte :: data).drop
                    (metaint -
                      task.bytesSinceMeta)).length) +
            task.pipe.buffered.length ≤
          4 + task.byteCost feed * (byte :: data).length +
            task.pipe.buffered.length
      rw [hSplit, Nat.mul_add]
      omega

/- A packet costs no more than its bytes. -/
theorem rank_takePacket
    (feed : MountFeed)
    (task : ListenerTask)
    (hBelow :
      task.icyRequested = true → task.bytesSinceMeta < metaint)
    (packet : StreamPacket) :
    (task.takePacket metaint packet).rank feed ≤
      4 +
          task.byteCost feed *
            (Output.packetAudio packet).length +
        task.pipe.buffered.length := by
  unfold takePacket
  cases hPayload : packet.payload with
  | decoded frame =>
      change 2 + task.pipe.buffered.length ≤ _
      omega
  | encoded enc =>
      have hData : Output.packetAudio packet = enc.data := by
        simp only [Output.packetAudio, hPayload]
      rw [hData]
      simp only
      by_cases hIcy : task.icyRequested = true
      · rw [if_pos hIcy]
        exact rank_nextChunk feed task (hBelow hIcy) enc.data
      · rw [if_neg hIcy]
        change
          2 * enc.data.length + 3 +
              task.pipe.buffered.length ≤
            _
        have hCost :
            20 * enc.data.length ≤
              task.byteCost feed * enc.data.length := by
          apply Nat.mul_le_mul_right
          unfold byteCost
          omega
        omega

/- A completed write costs less than it. -/
theorem rank_written
    (feed : MountFeed)
    (task : ListenerTask)
    (hMetaint : 0 < metaint)
    (job : WriteJob) :
    (task.written metaint job).rank feed <
      task.jobRank feed job + task.pipe.buffered.length := by
  cases job with
  | headers =>
      change 2 + task.pipe.buffered.length < 3 + _
      omega
  | plain count =>
      change 2 + task.pipe.buffered.length < 3 + _
      omega
  | chunk count rest =>
      unfold written
      simp only
      by_cases hDue : metaint ≤ task.bytesSinceMeta + count
      · rw [if_pos hDue]
        change
          2 * task.frameBytes feed feed.currentTitle + 7 +
                task.byteCost feed * rest.length +
              task.pipe.buffered.length <
            2 * task.frameBytes feed feed.currentTitle + 8 +
                task.byteCost feed * rest.length +
              task.pipe.buffered.length
        omega
      · rw [if_neg hDue]
        have hNext :=
          rank_nextChunk feed
            { task with
              bytesSent := task.bytesSent + count
              bytesSinceMeta := task.bytesSinceMeta + count }
            (by simpa using hDue) rest
        change
          _ ≤
            4 + task.byteCost feed * rest.length +
              task.pipe.buffered.length at hNext
        change
          _ <
            2 * task.frameBytes feed feed.currentTitle + 8 +
                task.byteCost feed * rest.length +
              task.pipe.buffered.length
        omega
  | frame rest =>
      have hNext :=
        rank_nextChunk feed
          { task with bytesSinceMeta := 0 } hMetaint rest
      change
        _ ≤
          4 + task.byteCost feed * rest.length +
            task.pipe.buffered.length at hNext
      change
        ({ task with bytesSinceMeta := 0 }.nextChunk metaint
              rest).rank feed <
          5 + task.byteCost feed * rest.length +
            task.pipe.buffered.length
      omega

/- The audio ahead is that of a packet and of the rest. -/
theorem audioBytes_append
    (first second : List StreamPacket) :
    audioBytes (first ++ second) =
      audioBytes first + audioBytes second := by
  unfold audioBytes
  rw [List.map_append, List.sum_append]

/-
  Every step brings a task nearer to where it looks at its
  token, and a cancelled one nearer its end.
-/
theorem rank_step
    {count : Nat}
    (hMetaint : 0 < metaint)
    (hInv : task.TaskInv metaint)
    (hCancelled :
      task.phase = .looking → task.cancelled = true)
    (hStep : task.step metaint feed = some (after, count)) :
    after.rank feed < task.rank feed := by
  unfold TaskInv at hInv
  unfold step at hStep
  have hRank :
      task.rank feed =
        task.phaseRank feed task.phase +
          task.pipe.buffered.length :=
    rfl
  rw [hRank]
  cases hPhase : task.phase with
  | subscribed => simp [hPhase] at hStep
  | numbered => simp [hPhase] at hStep
  | unprimed => simp [hPhase] at hStep
  | returned reason => simp [hPhase] at hStep
  | ended reason => simp [hPhase] at hStep
  | spawned =>
      simp only [hPhase] at hStep
      cases hHeaders : task.headers with
      | some headers =>
          simp only [hHeaders] at hStep
          cases hStep
          simp only [rank, phaseRank, jobRank, hHeaders,
            Option.getD_some]
          omega
      | none =>
          simp only [hHeaders] at hStep
          cases hStep
          simp only [rank, phaseRank]
          omega
  | writing job left =>
      cases left with
      | nil =>
          simp only [hPhase] at hStep
          cases hStep
          have hWritten :=
            rank_written feed task hMetaint job
          simp only [phaseRank, List.length_nil]
          omega
      | cons byte left =>
          simp only [hPhase] at hStep
          rcases hPolled :
              task.pipe.pollWrite (byte :: left) with
            _ | _ | ⟨taken, pipe⟩
          · rw [hPolled] at hStep
            cases hStep
            simp only [phaseRank, List.length_cons]
            cases job with
            | headers =>
                change
                  1 + task.pipe.buffered.length < _
                omega
            | plain count =>
                change
                  1 + task.pipe.buffered.length < _
                omega
            | chunk count rest =>
                change
                  1 + task.pipe.buffered.length < _
                omega
            | frame rest =>
                change
                  1 + task.pipe.buffered.length < _
                omega
          · rw [hPolled] at hStep
            cases hStep
          · rw [hPolled] at hStep
            cases hStep
            rcases Library.Pipe.ready_exact hPolled with
              ⟨rfl, rfl, -, hRoom⟩
            have hBuffered :
                (task.pipe.push (byte :: left)).buffered.length =
                  task.pipe.buffered.length +
                    ((byte :: left).take
                      task.pipe.room).length := by
              unfold Library.Pipe.push
              rw [List.length_append]
            have hSome :
                0 <
                  ((byte :: left).take
                    task.pipe.room).length := by
              rw [List.length_take, List.length_cons]
              omega
            have hLess :
                ((byte :: left).take
                    task.pipe.room).length ≤
                  (byte :: left).length := by
              rw [List.length_take]
              exact Nat.min_le_right _ _
            simp only [phaseRank]
            change
              2 *
                    ((byte :: left).drop
                      ((byte :: left).take
                        task.pipe.room).length).length +
                    task.jobRank feed job +
                  (task.pipe.push
                    (byte :: left)).buffered.length <
                _
            rw [hBuffered, List.length_drop]
            omega
  | looking =>
      simp only [hPhase, hCancelled hPhase, if_true] at hStep
      cases hStep
      change
        1 + task.pipe.buffered.length <
          2 + task.pipe.buffered.length
      omega
  | taking =>
      rw [hPhase] at hInv
      simp only [hPhase] at hStep
      simp only [phaseRank]
      rcases hNext : task.subscription.pollNext feed.sender with
        _ | ⟨item, subscription⟩
      · simp only [hNext] at hStep
        by_cases hDropped : feed.dropped = true
        · rw [if_pos hDropped] at hStep
          cases hStep
          change 1 + task.pipe.buffered.length < _
          omega
        · rw [if_neg hDropped] at hStep
          cases hStep
          change 2 + task.pipe.buffered.length < _
          omega
      · rcases BusSubscriber.ahead_of_pollNext hNext with
          ⟨missed, hAhead, hSome, hOne⟩
        have hCount := List.length_pos_of_ne_nil hSome
        rw [hAhead, List.length_append, audioBytes_append,
          Nat.mul_add]
        cases item with
        | none =>
            simp only [hNext] at hStep
            cases hStep
            change
              4 + (subscription.ahead feed.sender).length +
                    task.byteCost feed *
                      audioBytes
                        (subscription.ahead feed.sender) +
                  task.pipe.buffered.length <
                _
            omega
        | some packet =>
            simp only [hNext] at hStep
            cases hStep
            have hAudio :
                audioBytes missed =
                  (Output.packetAudio packet).length := by
              rw [hOne packet rfl]
              exact Nat.add_zero _
            have hBelow :
                task.icyRequested = true →
                  task.bytesSinceMeta < metaint := by
              intro hIcy
              rw [hInv.1.since hIcy]
              exact
                Library.Interleave.sinceAfter_lt _ _ hMetaint
            have hPacket :=
              rank_takePacket feed
                { task with
                  subscription := subscription
                  phase := .taking }
                hBelow packet
            change
              _ ≤
                4 +
                    task.byteCost feed *
                      (Output.packetAudio packet).length +
                  task.pipe.buffered.length at hPacket
            rw [hAudio]
            omega
  | titling rest =>
      simp only [hPhase] at hStep
      cases hStep
      change
        2 * task.frameBytes feed feed.currentTitle + 6 +
              task.byteCost feed * rest.length +
            task.pipe.buffered.length <
          2 * task.frameBytes feed feed.currentTitle + 7 +
              task.byteCost feed * rest.length +
            task.pipe.buffered.length
      omega
  | overlaying title rest =>
      simp only [hPhase] at hStep
      cases hStep
      change
        2 * task.frameBytes feed title +
              (5 + task.byteCost feed * rest.length) +
            task.pipe.buffered.length <
          2 * task.frameBytes feed title + 6 +
              task.byteCost feed * rest.length +
            task.pipe.buffered.length
      omega

end ListenerTask

end RustyIce

------------------------------------------------------------
-- Who Is In The Map
------------------------------------------------------------

namespace RustyIce

open Admin

namespace Delivery

/- An entry of the map is that of a listener still there. -/
def Attended (s : Delivery) : Prop :=
  ∀ e ∈ s.map.entries,
    ∃ task,
      s.handlers[e.cancel]? = some (.serving task) ∧
        task.Listed = true ∧
          e.id = ListenerMap.idOf task.number

/- How a step changes the entries of the map. -/
inductive Entries
    (s : Delivery)
    (label : DeliveryLabel)
    (t : Delivery) : Prop
| same :
    t.map.entries = s.map.entries →
      (∀ i task,
        label = .advance i →
          s.handlers[i]? = some (.serving task) →
            task.phase ≠ .unprimed ∧
              ∀ reason, task.phase ≠ .returned reason) →
        Entries s label t
| entered
    (i : Nat)
    (task : ListenerTask)
    (path : String) :
    label = .advance i →
      s.handlers[i]? = some (.serving task) →
        task.phase = .numbered →
          t.map = s.map.insert (task.entry path i) →
            t.handlers[i]? =
                some (.serving { task with phase := .spawned }) →
              Entries s label t
| left (i : Nat) (task : ListenerTask) :
    label = .advance i →
      s.handlers[i]? = some (.serving task) →
        t.map =
            s.map.deregister (ListenerMap.idOf task.number) →
          Entries s label t

variable {metaint : Nat}
variable {s t : Delivery}
variable {i : Nat}
variable {task : ListenerTask}

theorem entries_of_advance
    (hStep : s.advance metaint i = some t) :
    s.Entries (.advance i) t := by
  have hSame :
      t.map.entries = s.map.entries →
        (∀ task,
          s.handlers[i]? = some (.serving task) →
            task.phase ≠ .unprimed ∧
              ∀ reason, task.phase ≠ .returned reason) →
          s.Entries (.advance i) t := by
    intro hEntries hStays
    refine .same hEntries ?_
    rintro j now hLabel hNow
    cases hLabel
    exact hStays now hNow
  unfold advance at hStep
  rcases hHandler : s.handlers[i]? with
    _ | ⟨m, icy⟩ | ⟨m, icy, info⟩ | ⟨m, icy, info, headers⟩ | task
  all_goals simp only [hHandler] at hStep
  · cases hStep
  all_goals
    try
      split at hStep
      · cases hStep
      · cases hStep
        exact
          hSame rfl fun now hNow => by
            cases hHandler.symm.trans hNow
  split at hStep
  · cases hStep
  · rename_i feed hFeed
    have hSelf :
        ∀ now : ListenerTask,
          s.handlers[i]? = some (.serving now) → now = task := by
      intro now hNow
      cases hHandler.symm.trans hNow
      rfl
    unfold advanceTask at hStep
    split at hStep
    · rename_i hPhase
      cases hStep
      refine hSame rfl fun now hNow => ?_
      rw [hSelf now hNow, hPhase]
      exact ⟨nofun, nofun⟩
    · rename_i hPhase
      cases hStep
      have hIndex := (List.getElem?_eq_some_iff.mp hHandler).1
      exact
        .entered i task feed.path rfl hHandler hPhase rfl
          (List.getElem?_set_self hIndex)
    · cases hStep
      exact .left i task rfl hHandler rfl
    · cases hStep
      exact .left i task rfl hHandler rfl
    · rename_i hUnprimed hReturned
      split at hStep
      · cases hStep
      · cases hStep
        refine hSame rfl fun now hNow => ?_
        rw [hSelf now hNow]
        exact ⟨hUnprimed, fun reason => hReturned reason⟩

theorem entries_of_step
    {label : DeliveryLabel}
    (hStep : s.step metaint label = some t) :
    s.Entries label t := by
  have hSame :
      t.map = s.map →
        (∀ i, label ≠ .advance i) → s.Entries label t := by
    intro hMap hOther
    refine .same (by rw [hMap]) ?_
    intro i task hLabel
    exact absurd hLabel (hOther i)
  have hFeed :
      ∀ {m change},
        s.onFeed m change = some t → t.map = s.map := by
    intro m change hOn
    unfold onFeed at hOn
    split at hOn <;> cases hOn
    rfl
  cases label with
  | publish m packet =>
      refine hSame ?_ (by simp)
      simp only [Delivery.step] at hStep
      split at hStep
      · cases hStep
      · split_ifs at hStep
        cases hStep
        rfl
  | setTitle m title => exact hSame (hFeed hStep) (by simp)
  | setOverlay m overlay => exact hSame (hFeed hStep) (by simp)
  | setHeaders m headers => exact hSame (hFeed hStep) (by simp)
  | setInfo m info => exact hSame (hFeed hStep) (by simp)
  | dropBus m =>
      refine hSame ?_ (by simp)
      simp only [Delivery.step] at hStep
      split_ifs at hStep
      exact hFeed hStep
  | arrive m icy =>
      refine hSame ?_ (by simp)
      simp only [Delivery.step] at hStep
      split at hStep
      · cases hStep
      · split_ifs at hStep
        cases hStep
        rfl
  | advance j => exact entries_of_advance hStep
  | read j count =>
      refine hSame ?_ (by simp)
      simp only [Delivery.step] at hStep
      split at hStep
      · split_ifs at hStep
        cases hStep
        rfl
      · cases hStep
  | disconnect j =>
      refine hSame ?_ (by simp)
      simp only [Delivery.step] at hStep
      split at hStep <;> cases hStep
      rfl
  | kick id =>
      refine hSame ?_ (by simp)
      simp only [Delivery.step] at hStep
      split at hStep
      · cases hStep
        rfl
      · split at hStep <;> cases hStep <;> rfl
  | shutdown =>
      cases hStep
      exact hSame rfl (by simp)

/- A listener that stays listed keeps its number. -/
theorem listed_of_touched
    {label : DeliveryLabel}
    {after : ListenerTask}
    (hTouched : s.Touched metaint i label task after)
    (hListed : task.Listed = true)
    (hStays :
      label = .advance i →
        task.phase ≠ .unprimed ∧
          ∀ reason, task.phase ≠ .returned reason) :
    after.Listed = true ∧ after.number = task.number := by
  have hPhase :
      ∀ phase,
        task.phase = phase →
          (phase = .subscribed ∨ phase = .numbered) → False := by
    rintro phase hSame (rfl | rfl) <;>
      simp [ListenerTask.Listed, hSame] at hListed
  cases hTouched with
  | same => exact ⟨hListed, rfl⟩
  | cancel _ => exact ⟨hListed, rfl⟩
  | read count _ => exact ⟨hListed, rfl⟩
  | disconnect _ => exact ⟨hListed, rfl⟩
  | issue _ hNow => exact (hPhase _ hNow (.inl rfl)).elim
  | insert _ hNow => exact (hPhase _ hNow (.inr rfl)).elim
  | unprimed hLabel hNow => exact absurd hNow (hStays hLabel).1
  | deregister reason hLabel hNow =>
      exact absurd hNow ((hStays hLabel).2 reason)
  | move feed after count _ _ hStep =>
      have hMoves := ListenerTask.step_moves hStep
      exact ⟨hMoves.stays, hMoves.number⟩

/- A step keeps every entry that of a listener still there. -/
theorem Attended.step
    {label : DeliveryLabel}
    (hAttended : s.Attended)
    (hStep : s.step metaint label = some t) :
    t.Attended := by
  -- An entry that was there and whose listener does not leave.
  have hKept :
      ∀ e ∈ s.map.entries,
        (∀ task,
          s.handlers[e.cancel]? = some (.serving task) →
            e.id = ListenerMap.idOf task.number →
              label = .advance e.cancel →
                task.phase ≠ .unprimed ∧
                  ∀ reason, task.phase ≠ .returned reason) →
          ∃ task,
            t.handlers[e.cancel]? = some (.serving task) ∧
              task.Listed = true ∧
                e.id = ListenerMap.idOf task.number := by
    intro e hMem hStays
    rcases hAttended e hMem with ⟨task, hTask, hListed, hId⟩
    rcases touched_of_step hTask hStep with
      ⟨after, hAfter, hTouched⟩
    obtain ⟨hStill, hNumber⟩ :=
      listed_of_touched hTouched hListed
        (hStays task hTask hId)
    exact ⟨after, hAfter, hStill, by rw [hNumber]; exact hId⟩
  intro e hMem
  cases entries_of_step hStep with
  | same hEntries hStays =>
      rw [hEntries] at hMem
      refine hKept e hMem fun task hTask _ hLabel => ?_
      exact hStays e.cancel task hLabel hTask
  | entered i task path hLabel hTask hPhase hMap hAfter =>
      rw [hMap] at hMem
      unfold ListenerMap.insert at hMem
      rcases List.mem_append.mp hMem with hOld | hNew
      · rw [ListenerMap.mem_deregister] at hOld
        refine hKept e hOld.1 fun other hOther _ hNow => ?_
        rw [hLabel] at hNow
        cases hNow
        cases hTask.symm.trans hOther
        rw [hPhase]
        exact ⟨nofun, nofun⟩
      · rw [List.mem_singleton.mp hNew]
        exact ⟨_, hAfter, rfl, rfl⟩
  | left i task hLabel hTask hMap =>
      rw [hMap, ListenerMap.mem_deregister] at hMem
      refine hKept e hMem.1 fun other hOther hId hNow => ?_
      rw [hLabel] at hNow
      cases hNow
      cases hTask.symm.trans hOther
      exact absurd hId hMem.2

theorem attended_of_reachable
    {output : Output.HttpPassthroughOutput}
    (hReach : (deliveryMachine output).Reachable s) :
    s.Attended := by
  apply hReach.invariant
  · rintro u ⟨-, hMap, -, -⟩ e hMem
    rw [hMap] at hMem
    cases hMem
  · intro u label v hBefore _ hStep
    exact hBefore.step hStep

/- One that has ended is found under no id. -/
theorem Attended.gone
    {reason : Option Output.DisconnectReason}
    (hAttended : s.Attended)
    (hTask : s.handlers[i]? = some (.serving task))
    (hEnded : task.phase = .ended reason)
    (id : ListenerId) :
    s.map.kick id ≠ some i := by
  intro hKick
  unfold ListenerMap.kick at hKick
  rcases Option.map_eq_some_iff.mp hKick with ⟨e, hGet, rfl⟩
  rcases hAttended e (ListenerMap.mem_of_get hGet).1 with
    ⟨other, hOther, hListed, -⟩
  cases hTask.symm.trans hOther
  simp [ListenerTask.Listed, hEnded] at hListed

end Delivery

end RustyIce

------------------------------------------------------------
-- A Cancelled Listener Ends
------------------------------------------------------------

namespace RustyIce

open Admin

/- The listener's own steps, and reads of its client. -/
def DeliveryLabel.Own (i : Nat) (label : DeliveryLabel) : Prop :=
  label = .advance i ∨ label = .read i 1

/- The task of the listener is over. -/
def Delivery.Over (s : Delivery) (i : Nat) : Prop :=
  ∃ task reason,
    s.handlers[i]? = some (.serving task) ∧
      task.phase = .ended reason

/- It is over, and the map finds it under no id. -/
def Delivery.Ended (i : Nat) (s : Delivery) : Prop :=
  s.Over i ∧ ∀ id, s.map.kick id ≠ some i

namespace Delivery

/- How far listener `i` is from where its rank leads. -/
def distance
    (rank : MountFeed → ListenerTask → Nat)
    (i : Nat)
    (s : Delivery) : Nat :=
  match s.handlers[i]? with
  | some (.serving task) =>
      match s.feeds[task.mount]? with
      | some feed => rank feed task
      | none => 0
  | _ => 0

variable {metaint : Nat}
variable {rank : MountFeed → ListenerTask → Nat}
variable {s : Delivery}
variable {i : Nat}
variable {task after : ListenerTask}
variable {feed : MountFeed}

theorem distance_eq
    (hTask : s.handlers[i]? = some (.serving task))
    (hFeed : s.feeds[task.mount]? = some feed) :
    s.distance rank i = rank feed task := by
  unfold distance
  simp only [hTask, hFeed]

/- A step of the listener that leaves the mounts alone. -/
theorem distance_setHandler
    (hTask : s.handlers[i]? = some (.serving task))
    (hFeed : s.feeds[task.mount]? = some feed)
    (hMount : after.mount = task.mount)
    (map : ListenerMap) :
    ({ s with map := map }.setHandler i
        (.serving after)).distance rank i =
      rank feed after := by
  have hHere :
      ({ s with map := map }.setHandler i
          (.serving after)).handlers[i]? =
        some (.serving after) :=
    getElem?_setHandler hTask _
  apply distance_eq hHere
  rw [hMount]
  exact hFeed

theorem step_advance
    (hTask : s.handlers[i]? = some (.serving task))
    (hFeed : s.feeds[task.mount]? = some feed) :
    s.step metaint (.advance i) =
      s.advanceTask metaint i task feed := by
  change s.advance metaint i = _
  unfold advance
  simp only [hTask, hFeed]

/- Steps around the map, which leave the mounts alone. -/
theorem nearer_of_aside
    (after : ListenerTask)
    (map : ListenerMap)
    (hTask : s.handlers[i]? = some (.serving task))
    (hFeed : s.feeds[task.mount]? = some feed)
    (hStep :
      s.advanceTask metaint i task feed =
        some
          ({ s with map := map }.setHandler i
            (.serving after)))
    (hMount : after.mount = task.mount)
    (hLess : rank feed after < rank feed task) :
    ∃ label t,
      DeliveryLabel.Own i label ∧
        s.step metaint label = some t ∧
          t.distance rank i < s.distance rank i := by
  refine
    ⟨.advance i, _, .inl rfl,
      (step_advance hTask hFeed).trans hStep, ?_⟩
  rw [distance_setHandler hTask hFeed hMount map,
    distance_eq hTask hFeed]
  exact hLess

/-
  A listener in its loop is brought nearer by an own step, if
  its task's steps and the reads of its client all lower the
  rank: a task that cannot move has filled its pipe.
-/
theorem nearer_of_rank
    (hTask : s.handlers[i]? = some (.serving task))
    (hFeed : s.feeds[task.mount]? = some feed)
    (hCapacity :
      task.pipe.capacity = ListenerTask.duplexBytes)
    (hListed : task.Listed = true)
    (hRuns :
      task.phase ≠ .unprimed ∧
        ∀ reason, task.phase ≠ .returned reason)
    (hRead :
      0 < task.pipe.buffered.length →
        rank feed { task with pipe := task.pipe.read 1 } <
          rank feed task)
    (hStep :
      ∀ after count,
        task.step metaint feed = some (after, count) →
          rank (feed.count count) after < rank feed task) :
    ∃ label t,
      DeliveryLabel.Own i label ∧
        s.step metaint label = some t ∧
          t.distance rank i < s.distance rank i := by
  by_cases hStalled : task.Stalled
  · -- A full pipe has something for the client to read.
    rcases hStalled with
      ⟨job, byte, left, -, hClosed, hRoom⟩
    have hReader : task.pipe.readerClosed ≠ true := by
      unfold Library.Pipe.closed at hClosed
      intro hGone
      rw [hGone, Bool.or_true] at hClosed
      cases hClosed
    have hSome : 0 < task.pipe.buffered.length := by
      unfold Library.Pipe.room at hRoom
      unfold ListenerTask.duplexBytes at hCapacity
      omega
    refine
      ⟨.read i 1,
        s.setHandler i
          (.serving { task with pipe := task.pipe.read 1 }),
        .inr rfl, ?_, ?_⟩
    · simp only [Delivery.step, hTask]
      rw [if_neg hReader]
    · have hHere :=
        getElem?_setHandler hTask
          (.serving { task with pipe := task.pipe.read 1 })
      rw [distance_eq hHere hFeed, distance_eq hTask hFeed]
      exact hRead hSome
  · have hMoves : task.step metaint feed ≠ none :=
      fun hNone =>
        hStalled
          ((ListenerTask.step_eq_none_iff hListed hRuns).mp
            hNone)
    cases hOne : task.step metaint feed with
    | none => exact absurd hOne hMoves
    | some moved =>
        rcases moved with ⟨after, count⟩
        have hSame := (ListenerTask.step_moves hOne).mount
        refine
          ⟨.advance i,
            { s with
              feeds :=
                s.feeds.set task.mount
                  (feed.count count) }.setHandler i
              (.serving after),
            .inl rfl, ?_, ?_⟩
        · rw [step_advance hTask hFeed]
          unfold advanceTask
          have hOther := hRuns.2
          cases hPhase : task.phase with
          | subscribed =>
              simp [ListenerTask.Listed, hPhase] at hListed
          | numbered =>
              simp [ListenerTask.Listed, hPhase] at hListed
          | unprimed => exact absurd hPhase hRuns.1
          | returned reason =>
              exact absurd hPhase (hOther reason)
          | _ => simp only [hOne]
        · have hHere :
              ({ s with
                  feeds :=
                    s.feeds.set task.mount
                      (feed.count count) }.setHandler i
                  (.serving after)).handlers[i]? =
                some (.serving after) :=
            getElem?_setHandler hTask _
          have hPlace := (List.getElem?_eq_some_iff.mp hFeed).1
          have hThere :
              (s.feeds.set task.mount (feed.count count))[
                  after.mount]? =
                some (feed.count count) := by
            rw [hSame, List.getElem?_set_self hPlace]
          rw [distance_eq hHere hThere, distance_eq hTask hFeed]
          exact hStep after count hOne

/- The read of a client whose pipe is full. -/
theorem rank_read
    (hSome : 0 < task.pipe.buffered.length) :
    ({ task with pipe := task.pipe.read 1 } :
        ListenerTask).rank feed < task.rank feed := by
  have hLess :
      (task.pipe.read 1).buffered.length <
        task.pipe.buffered.length := by
    unfold Library.Pipe.read
    rw [List.length_drop]
    omega
  have hSame :
      ({ task with pipe := task.pipe.read 1 } :
          ListenerTask).phaseRank feed task.phase =
        task.phaseRank feed task.phase := by
    cases task.phase with
    | writing job left => cases job <;> rfl
    | _ => rfl
  unfold ListenerTask.rank
  rw [hSame]
  exact Nat.add_lt_add_left hLess _

/- While it has not ended, some own step brings it nearer. -/
theorem nearer
    (hMetaint : 0 < metaint)
    (hTask : s.handlers[i]? = some (.serving task))
    (hFeed : s.feeds[task.mount]? = some feed)
    (hOk : TaskOk metaint feed task)
    (hNumbered : task.Numbered = true)
    (hCancelled : task.cancelled = true)
    (hOn : ¬ s.Over i) :
    ∃ label t,
      DeliveryLabel.Own i label ∧
        s.step metaint label = some t ∧
          t.distance ListenerTask.rank i <
            s.distance ListenerTask.rank i := by
  by_cases hFirst : task.phase = .numbered
  · refine
      nearer_of_aside
        { task with phase := .spawned }
        (s.map.insert (task.entry feed.path i)) hTask hFeed ?_
        rfl ?_
    · unfold advanceTask
      rw [hFirst]
    · unfold ListenerTask.rank
      rw [hFirst]
      change
        2 * (task.headers.getD []).length + 4 +
            task.pipe.buffered.length <
          2 * (task.headers.getD []).length + 5 +
            task.pipe.buffered.length
      omega
  by_cases hUnprimed : task.phase = .unprimed
  · refine
      nearer_of_aside
        { task with
          pipe := task.pipe.closeWriter
          phase := .ended none }
        (s.map.deregister (ListenerMap.idOf task.number)) hTask
        hFeed ?_ rfl ?_
    · unfold advanceTask
      rw [hUnprimed]
    · unfold ListenerTask.rank
      rw [hUnprimed]
      change
        0 + task.pipe.buffered.length <
          1 + task.pipe.buffered.length
      omega
  by_cases hReturned :
      ∃ reason, task.phase = .returned reason
  · rcases hReturned with ⟨reason, hReturned⟩
    refine
      nearer_of_aside
        { task with phase := .ended reason }
        (s.map.deregister (ListenerMap.idOf task.number)) hTask
        hFeed ?_ rfl ?_
    · unfold advanceTask
      rw [hReturned]
    · unfold ListenerTask.rank
      rw [hReturned]
      change
        0 + task.pipe.buffered.length <
          1 + task.pipe.buffered.length
      omega
  have hListed : task.Listed = true := by
    unfold ListenerTask.Numbered at hNumbered
    unfold ListenerTask.Listed
    cases hPhase : task.phase with
    | subscribed => simp [hPhase] at hNumbered
    | numbered => exact absurd hPhase hFirst
    | ended reason =>
        exact absurd ⟨task, reason, hTask, hPhase⟩ hOn
    | _ => rfl
  have hRuns :
      task.phase ≠ .unprimed ∧
        ∀ reason, task.phase ≠ .returned reason :=
    ⟨hUnprimed,
      fun reason hSame => hReturned ⟨reason, hSame⟩⟩
  exact
    nearer_of_rank hTask hFeed hOk.capacity hListed hRuns
      rank_read fun after count hStep =>
        ListenerTask.rank_step hMetaint hOk.inv
          (fun _ => hCancelled) hStep

end Delivery

/-
  From every reachable state, a listener that was kicked or
  shut down comes to its end, and out of the listener map, by
  its own steps and single-byte reads of its client.
-/
theorem kicked_ends
    {output : Output.HttpPassthroughOutput}
    {s : Delivery}
    {i : Nat}
    {task : ListenerTask}
    (hMetaint : 0 < output.icyMetaint)
    (hReach : (deliveryMachine output).Reachable s)
    (hTask : s.handlers[i]? = some (.serving task))
    (hNumbered : task.Numbered = true)
    (hCancelled : task.cancelled = true) :
    (deliveryMachine output).Leads (DeliveryLabel.Own i)
      (Delivery.Ended i) s := by
  refine
    Library.Machine.leads_of_rank (M := deliveryMachine output)
      (I := fun u =>
        (deliveryMachine output).Reachable u ∧
          ∃ now,
            u.handlers[i]? = some (.serving now) ∧
              now.Numbered = true ∧ now.cancelled = true)
      (Delivery.distance ListenerTask.rank i) ?_
      ⟨hReach, task, hTask, hNumbered, hCancelled⟩
  rintro u ⟨hRun, now, hNow, hNum, hOff⟩ hOn
  have hAttended := Delivery.attended_of_reachable hRun
  have hRuns : ¬ u.Over i := by
    intro hOver
    refine hOn ⟨hOver, ?_⟩
    rcases hOver with ⟨task, reason, hTask, hEnded⟩
    exact hAttended.gone hTask hEnded
  have hInv := DeliveryInv.of_reachable hMetaint hRun
  rcases hInv.tasks i now hNow with ⟨feed, hFeed, hOk⟩
  rcases
    Delivery.nearer hMetaint hNow hFeed hOk hNum hOff hRuns
    with ⟨label, t, hOwn, hStep, hLess⟩
  refine
    ⟨label, t, hOwn, hStep, ⟨.step hRun trivial hStep, ?_⟩,
      hLess⟩
  rcases Delivery.touched_of_step hNow hStep with
    ⟨after, hAfter, hTouched⟩
  have hWinding :=
    winding_touched (.start hNum hOff) hTouched
  exact ⟨after, hAfter, hWinding.numbered, hWinding.cancelled⟩

end RustyIce

------------------------------------------------------------
-- A Listener Whose Client Does Not Read
------------------------------------------------------------

namespace RustyIce

open Admin

theorem kicked_ends_atPoll :
    (deliveryMachine everyThird).Leads (DeliveryLabel.Own 0)
      (Delivery.Ended 0) Delivery.atPoll := by
  have hRun :
      (deliveryMachine everyThird).run .oneMount kickedAtPoll =
        some Delivery.atPoll :=
    rfl
  have hReach :=
    Library.Machine.reachable_of_run
      (Delivery.init_oneMount everyThird) hRun
  exact kicked_ends (i := 0) (by decide) hReach rfl rfl rfl

/- A packet longer than the pipe, and what follows. -/
def overlongPacket (rest : Bytes) : List DeliveryLabel :=
  [.arrive 0 false] ++ List.replicate 7 (.advance 0) ++
    [.publish 0 (mp3Packet (0 :: rest)), .advance 0]

/- The server when the packet is about to be written. -/
def Delivery.atPacket (rest : Bytes) : Delivery :=
  ((deliveryMachine everyThird).run .oneMount
    (overlongPacket rest)).getD .oneMount

/- A write that is longer than an empty pipe. -/
theorem pollWrite_overlong
    {data : Bytes}
    (hLong : ListenerTask.duplexBytes < data.length) :
    (Library.Pipe.new ListenerTask.duplexBytes).pollWrite data =
      .ready ListenerTask.duplexBytes
        ((Library.Pipe.new ListenerTask.duplexBytes).push
          data) := by
  unfold Library.Pipe.pollWrite
  rw [if_neg (by decide), if_neg (by decide)]
  congr 1
  change
    min data.length ListenerTask.duplexBytes =
      ListenerTask.duplexBytes
  omega

/- It is then full. -/
theorem room_overlong
    {data : Bytes}
    (hLong : ListenerTask.duplexBytes < data.length) :
    ((Library.Pipe.new ListenerTask.duplexBytes).push
        data).room =
      0 := by
  change
    ListenerTask.duplexBytes -
        (data.take ListenerTask.duplexBytes).length =
      0
  rw [List.length_take]
  omega

/- The listener once its pipe is full. -/
theorem stalled_atPacket
    {rest : Bytes}
    (hLong : ListenerTask.duplexBytes ≤ rest.length) :
    ∃ s task,
      (deliveryMachine everyThird).Reachable s ∧
        s.handlers[0]? = some (.serving task) ∧
          s.map.issued = 1 ∧ task.number = 0 ∧
            task.Stalled := by
  have hRun :
      (deliveryMachine everyThird).run .oneMount
          (overlongPacket rest) =
        some (.atPacket rest) :=
    rfl
  have hReach :=
    Library.Machine.reachable_of_run
      (Delivery.init_oneMount everyThird) hRun
  have hLess :
      ListenerTask.duplexBytes < ((0 : UInt8) :: rest).length :=
    Nat.lt_succ_of_le hLong
  have hTask :
      ∃ task feed,
        (Delivery.atPacket rest).handlers[0]? =
            some (.serving task) ∧
          (Delivery.atPacket rest).feeds[task.mount]? =
              some feed ∧
            task.phase =
                .writing (.plain (rest.length + 1))
                  (0 :: rest) ∧
              task.pipe = .new ListenerTask.duplexBytes ∧
                task.number = 0 :=
    ⟨_, _, rfl, rfl, rfl, rfl, rfl⟩
  rcases hTask with
    ⟨task, feed, hHere, hFeed, hPhase, hPipe, hNumber⟩
  have hStep :
      (deliveryMachine everyThird).step (.atPacket rest)
          (.advance 0) =
        some
          ({ Delivery.atPacket rest with
              feeds :=
                (Delivery.atPacket rest).feeds.set task.mount
                  (feed.count
                    ListenerTask.duplexBytes) }.setHandler 0
            (.serving
              { task with
                pipe :=
                  (Library.Pipe.new
                    ListenerTask.duplexBytes).push (0 :: rest)
                phase :=
                  .writing (.plain (rest.length + 1))
                    ((0 :: rest).drop
                      ListenerTask.duplexBytes) })) := by
    change Delivery.advance 3 (.atPacket rest) 0 = _
    unfold Delivery.advance
    simp only [hHere, hFeed]
    unfold Delivery.advanceTask
    simp only [hPhase]
    unfold ListenerTask.step
    simp only [hPhase, hPipe]
    rw [pollWrite_overlong hLess]
  refine
    ⟨_, _, hReach.step trivial hStep,
      Delivery.getElem?_setHandler hHere _, rfl, hNumber, ?_⟩
  have hLeft :
      ((0 : UInt8) :: rest).drop ListenerTask.duplexBytes ≠
        [] := by
    intro hNone
    have hLength := List.drop_eq_nil_iff.mp hNone
    omega
  rcases List.exists_cons_of_ne_nil hLeft with
    ⟨byte, left, hCons⟩
  refine ⟨.plain (rest.length + 1), byte, left, ?_, rfl, ?_⟩
  · rw [hCons]
  · exact room_overlong hLess

/- It is kicked, and then the server shuts down. -/
def inVain : List DeliveryLabel :=
  [.kick 0, .shutdown]

theorem stalled_stays_inVain :
    ∃ s t task after,
      (deliveryMachine everyThird).Reachable s ∧
        s.handlers[0]? = some (.serving task) ∧
          (deliveryMachine everyThird).run s inVain = some t ∧
            t.handlers[0]? = some (.serving after) ∧
              after.Stalled ∧ t.map.kick 0 = some 0 := by
  have hLong :
      ListenerTask.duplexBytes ≤
        (List.replicate ListenerTask.duplexBytes
          (0 : UInt8)).length := by
    rw [List.length_replicate]
  rcases stalled_atPacket hLong with
    ⟨s, task, hReach, hTask, hIssued, hNumber, hStalled⟩
  have hKick : s.map.kick 0 = some 0 := by
    have hFew : s.map.issued ≤ 2 ^ 64 := by
      rw [hIssued]
      decide
    have hRegistered :=
      registered_of_inv
        (Delivery.registryOk_of_reachable hReach hFew)
    rw [hRegistered.kicked]
    exact ⟨task, hTask, hStalled.listed, by rw [hNumber]; rfl⟩
  have hFirst :
      s.step everyThird.icyMetaint (.kick 0) =
        some (s.setHandler 0 (.serving task.cancel)) := by
    simp only [Delivery.step, hKick, hTask]
    rfl
  have hRun :
      (deliveryMachine everyThird).run s inVain =
        some
          { s with
            shutdown := true
            handlers :=
              (s.handlers.set 0 (.serving task.cancel)).map
                (·.onTask ListenerTask.cancel) } := by
    have hStep :
        (deliveryMachine everyThird).step s (.kick 0) =
          some (s.setHandler 0 (.serving task.cancel)) :=
      hFirst
    simp only [inVain, Library.Machine.run, hStep]
    rfl
  have hFew : s.map.issued ≤ 2 ^ 64 := by
    rw [hIssued]
    decide
  have hClient :
      ∀ label ∈ inVain, ¬ label.ByClient 0 := by
    intro label hMem
    rcases List.mem_cons.mp hMem with rfl | hMem
    · exact id
    · rw [List.mem_singleton.mp hMem]
      exact id
  rcases stalled_stays hReach hTask hStalled hClient hRun hFew
    with ⟨after, hAfter, hStill, -, hFound⟩
  rw [hNumber] at hFound
  exact
    ⟨s, _, task, after, hReach, hTask, hRun, hAfter, hStill,
      hFound⟩

end RustyIce

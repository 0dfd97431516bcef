import RustyIce.Library.Pipe
import RustyIce.Output.HttpPassthrough
import RustyIce.Server.BusStream

/-
  The task of one listener: the captured headers, and then
  packet after packet of its subscription, written to the
  pipe its response body is read from.

  A write goes through the pipe in as many parts as the pipe
  has room for, and everything else in the server may move
  between two parts. The title and the overlay of a metadata
  frame are read one after the other.

  Main declarations:
    * `MountFeed`, `ListenerTask`
    * `ListenerTask.step`
    * `ListenerTask.stream`
    * `TaskInv`, `taskInv_step`
-/

------------------------------------------------------------
-- What A Task Reads
------------------------------------------------------------

namespace RustyIce

/-
  The part of a mount that its listeners read, its bus with
  the channel, and the bytes its listeners were sent. The bus
  is dropped once nothing holds the mount any more.
-/
structure MountFeed where
  path : String
  info : MountInfo
  bus : TokioBroadcastBus
  sender : Library.Broadcast StreamPacket
  dropped : Bool
  currentTitle : Option String
  sourceOverlay : Option SourceOverlay
  headerBytes : Option Bytes
  bytesSent : Nat

namespace MountFeed

/- The bus without its subscribers. -/
def busSystem (feed : MountFeed) : BusSystem where
  bus := feed.bus
  sender := feed.sender
  subscribers := []

/- `fetch_add` on a counter of 64 bits. -/
def count
    (feed : MountFeed)
    (bytes : Nat) : MountFeed :=
  { feed with
    bytesSent := (feed.bytesSent + bytes) % 2 ^ 64 }

end MountFeed

namespace BusSubscriber

/-
  The next item of the stream, if there is one: a packet, or
  nothing after the channel told of missed ones.
-/
def pollNext
    (sender : Library.Broadcast StreamPacket)
    (sub : BusSubscriber) :
    Option (Option StreamPacket × BusSubscriber) :=
  match sub.snapshot with
  | packet :: rest =>
      some
        (some packet,
          { sub with
            snapshot := rest
            received := sub.received ++ [packet] })
  | [] =>
      match sender.recv sub.next with
      | none => none
      | some (.value packet, next) =>
          some
            (some packet,
              { sub with
                next := next
                received := sub.received ++ [packet] })
      | some (.lagged _, next) =>
          some (none, { sub with next := next, lagged := true })

/- It is the poll, and tells what was yielded. -/
theorem poll_of_pollNext
    {sender : Library.Broadcast StreamPacket}
    {sub after : BusSubscriber}
    {item : Option StreamPacket}
    (hNext : sub.pollNext sender = some (item, after)) :
    sub.poll sender = some after ∧
      after.received = sub.received ++ item.toList := by
  unfold pollNext at hNext
  unfold poll
  cases hSnapshot : sub.snapshot with
  | cons packet rest =>
      simp only [hSnapshot] at hNext ⊢
      cases hNext
      exact ⟨rfl, rfl⟩
  | nil =>
      simp only [hSnapshot] at hNext ⊢
      rcases hRecv : sender.recv sub.next with
        _ | ⟨packet | missed, place⟩
      · rw [hRecv] at hNext
        cases hNext
      · rw [hRecv] at hNext
        cases hNext
        exact ⟨rfl, rfl⟩
      · rw [hRecv] at hNext
        cases hNext
        exact ⟨rfl, (List.append_nil _).symm⟩

end BusSubscriber

end RustyIce

------------------------------------------------------------
-- The Task
------------------------------------------------------------

namespace RustyIce

/-
  What is being written, and what the task does after it:
  `count` is the length of the audio, `rest` what is left of
  the packet.
-/
inductive WriteJob where
| headers
| plain (count : Nat)
| chunk (count : Nat) (rest : Bytes)
| frame (rest : Bytes)
deriving DecidableEq, Repr

/-
  Where a listener is from its subscription on. A look at the
  token comes before each poll of the subscription.
-/
inductive TaskPhase where
| subscribed
| numbered
| spawned
| writing (job : WriteJob) (left : Bytes)
| looking
| taking
| titling (rest : Bytes)
| overlaying (title : Option String) (rest : Bytes)
| unprimed
| returned (reason : Option Output.DisconnectReason)
| ended (reason : Option Output.DisconnectReason)
deriving DecidableEq, Repr

/-
  The task's variables. `shown` records what the metadata
  frames so far were built from; `number` counts the ids the
  listener map gave out before its own.
-/
structure ListenerTask where
  mount : Nat
  info : MountInfo
  icyRequested : Bool
  headers : Option Bytes
  subscription : BusSubscriber
  cancelled : Bool
  number : Nat
  phase : TaskPhase
  bytesSinceMeta : Nat
  bytesSent : Nat
  pipe : Library.Pipe UInt8
  shown : List Output.Displayed

namespace ListenerTask

/- The capacity of the pipe. -/
def duplexBytes : Nat := 65536

/- The head of the packet loop, with what is left. -/
def nextChunk
    (metaint : Nat)
    (task : ListenerTask)
    (data : Bytes) : ListenerTask :=
  match data with
  | [] => { task with phase := .looking }
  | _ :: _ =>
      let space := metaint - task.bytesSinceMeta
      let chunk := data.take space
      { task with
        phase :=
          .writing (.chunk chunk.length (data.drop space))
            chunk }

/- A packet; decoded frames are passed over. -/
def takePacket
    (metaint : Nat)
    (task : ListenerTask)
    (packet : StreamPacket) : ListenerTask :=
  match packet.payload with
  | .decoded _ => { task with phase := .looking }
  | .encoded enc =>
      if task.icyRequested then
        task.nextChunk metaint enc.data
      else
        { task with
          phase := .writing (.plain enc.data.length) enc.data }

/- What follows a completed write. -/
def written
    (metaint : Nat)
    (task : ListenerTask) : WriteJob → ListenerTask
| .headers => { task with phase := .looking }
| .plain count =>
    { task with
      bytesSent := task.bytesSent + count
      phase := .looking }
| .chunk count rest =>
    let task :=
      { task with
        bytesSent := task.bytesSent + count
        bytesSinceMeta := task.bytesSinceMeta + count }
    if metaint ≤ task.bytesSinceMeta then
      { task with phase := .titling rest }
    else
      task.nextChunk metaint rest
| .frame rest =>
    { task with bytesSinceMeta := 0 }.nextChunk metaint rest

/- The output returns, and drops its end of the pipe. -/
def finish
    (task : ListenerTask)
    (reason : Option Output.DisconnectReason) :
    ListenerTask :=
  { task with
    pipe := task.pipe.closeWriter
    phase := .returned reason }

/- A write that fails. -/
def failed
    (task : ListenerTask) : WriteJob → ListenerTask
| .headers => { task with phase := .unprimed }
| .plain _ => task.finish none
| .chunk _ _ => task.finish none
| .frame _ => task.finish none

/-
  The next step and the bytes the pipe accepted in it. The
  steps on the listener map are not among these.
-/
def step
    (metaint : Nat)
    (feed : MountFeed)
    (task : ListenerTask) : Option (ListenerTask × Nat) :=
  match task.phase with
  | .spawned =>
      match task.headers with
      | some headers =>
          some
            ({ task with phase := .writing .headers headers },
              0)
      | none => some ({ task with phase := .looking }, 0)
  | .writing job [] => some (task.written metaint job, 0)
  | .writing job (byte :: left) =>
      match task.pipe.pollWrite (byte :: left) with
      | .broken => some (task.failed job, 0)
      | .pending => none
      | .ready count pipe =>
          some
            ({ task with
                pipe := pipe
                phase :=
                  .writing job ((byte :: left).drop count) },
              count)
  | .looking =>
      if task.cancelled then
        some (task.finish (some .shuttingDown), 0)
      else
        some ({ task with phase := .taking }, 0)
  | .taking =>
      match task.subscription.pollNext feed.sender with
      | none =>
          if feed.dropped then
            some (task.finish (some .sourceEnded), 0)
          else
            some ({ task with phase := .looking }, 0)
      | some (none, subscription) =>
          some ({ task with subscription := subscription }, 0)
      | some (some packet, subscription) =>
          some
            ({ task with
                subscription := subscription }.takePacket
                metaint packet,
              0)
  | .titling rest =>
      some
        ({ task with
            phase := .overlaying feed.currentTitle rest },
          0)
  | .overlaying title rest =>
      let shown : Output.Displayed :=
        { info := task.info
          currentTitle := title
          sourceOverlay := feed.sourceOverlay }
      some
        ({ task with
            shown := task.shown ++ [shown]
            phase :=
              .writing (.frame rest)
                (Output.buildIcyFrame shown) },
          0)
  | .subscribed => none
  | .numbered => none
  | .unprimed => none
  | .returned _ => none
  | .ended _ => none

end ListenerTask

end RustyIce

------------------------------------------------------------
-- What A Client Is Meant To Get
------------------------------------------------------------

namespace RustyIce

open Library.Interleave

/- A choice of displayed texts that agrees with those used. -/
def Continues
    (seen : Nat → Output.Displayed)
    (shown : List Output.Displayed) : Prop :=
  ∀ k displayed, shown[k]? = some displayed → seen k = displayed

theorem Continues.of_append
    {seen : Nat → Output.Displayed}
    {shown more : List Output.Displayed}
    (hContinues : Continues seen (shown ++ more)) :
    Continues seen shown := by
  intro k displayed hSome
  apply hContinues
  rw [List.getElem?_append_left]
  · exact hSome
  · exact (List.getElem?_eq_some_iff.mp hSome).1

namespace ListenerTask

/- The audio of the packets taken off the subscription. -/
def heard (task : ListenerTask) : Bytes :=
  (task.subscription.received.map Output.packetAudio).flatten

/-
  The headers, and the audio with the metadata frames in
  between when the listener asked for them.
-/
def stream
    (metaint : Nat)
    (seen : Nat → Output.Displayed)
    (task : ListenerTask)
    (audio : Bytes) : Bytes :=
  task.headers.getD [] ++
    if task.icyRequested then
      weave metaint (fun k => Output.buildIcyFrame (seen k)) 0 0
        audio
    else
      audio

variable {metaint : Nat}
variable {seen : Nat → Output.Displayed}
variable {task : ListenerTask}

/- The stream goes on where it stopped. -/
theorem stream_append
    (hMetaint : 0 < metaint)
    (hIcy : task.icyRequested = true)
    (first second : Bytes) :
    task.stream metaint seen (first ++ second) =
      task.stream metaint seen first ++
        weave metaint (fun k => Output.buildIcyFrame (seen k))
          (sinceAfter metaint 0 first.length)
          (framesAfter metaint 0 0 first.length) second := by
  simp only [stream, hIcy, if_true, List.append_assoc,
    weave_append _ _ _ _ hMetaint]

theorem stream_append_plain
    (hPlain : task.icyRequested = false)
    (first second : Bytes) :
    task.stream metaint seen (first ++ second) =
      task.stream metaint seen first ++ second := by
  simp [stream, hPlain]

/- A chunk that stops before the next metadata point. -/
theorem stream_append_short
    {first chunk : Bytes}
    (hIcy : task.icyRequested = true)
    (hShort :
      sinceAfter metaint 0 first.length + chunk.length <
        metaint) :
    task.stream metaint seen (first ++ chunk) =
      task.stream metaint seen first ++ chunk := by
  rw [stream_append (by omega) hIcy, weave_short _ _ _ hShort]

/- A chunk up to the next metadata point, and its frame. -/
theorem stream_append_full
    {first chunk : Bytes}
    (hMetaint : 0 < metaint)
    (hIcy : task.icyRequested = true)
    (hFull :
      sinceAfter metaint 0 first.length + chunk.length =
        metaint) :
    task.stream metaint seen (first ++ chunk) =
      task.stream metaint seen first ++
        (chunk ++
          Output.buildIcyFrame
            (seen (framesAfter metaint 0 0 first.length))) := by
  have hWeave :=
    weave_full (fun k => Output.buildIcyFrame (seen k))
      (framesAfter metaint 0 0 first.length) chunk []
      (sinceAfter_lt 0 first.length hMetaint) hFull
  rw [List.append_nil] at hWeave
  rw [stream_append hMetaint hIcy, hWeave, weave,
    List.append_nil]

/- A chunk within the space left is written as it is. -/
theorem stream_chunk
    {first chunk : Bytes}
    (hMetaint : 0 < metaint)
    (hIcy : task.icyRequested = true)
    (hSpace :
      sinceAfter metaint 0 first.length + chunk.length ≤
        metaint)
    (rest : Bytes) :
    task.stream metaint seen first ++ chunk <+:
      task.stream metaint seen (first ++ (chunk ++ rest)) := by
  rw [← List.append_assoc, stream_append hMetaint hIcy]
  by_cases hFull :
      sinceAfter metaint 0 first.length + chunk.length =
        metaint
  · rw [stream_append_full hMetaint hIcy hFull]
    simp only [List.append_assoc]
    rw [List.prefix_append_right_inj]
    exact List.prefix_append _ _
  · rw [stream_append_short hIcy (by omega)]
    exact List.prefix_append _ _

end ListenerTask

end RustyIce

------------------------------------------------------------
-- The Invariant Of A Task
------------------------------------------------------------

namespace RustyIce

open Library.Interleave

namespace ListenerTask

/-
  Of the audio heard, `done` has been passed by the counters
  and `rest` has not.
-/
structure Settled
    (metaint : Nat)
    (task : ListenerTask)
    (done rest : Bytes) : Prop where
  heard : task.heard = done ++ rest
  sent : task.bytesSent = done.length
  since :
    task.icyRequested = true →
      task.bytesSinceMeta = sinceAfter metaint 0 done.length
  points :
    task.icyRequested = true →
      task.shown.length = framesAfter metaint 0 0 done.length

/-
  A metadata point: `chunk` is what was written up to it. The
  counter of the audio has passed it.
-/
structure AtPoint
    (metaint : Nat)
    (task : ListenerTask)
    (done chunk rest : Bytes) : Prop where
  icy : task.icyRequested = true
  heard : task.heard = done ++ (chunk ++ rest)
  sent : task.bytesSent = done.length + chunk.length
  points :
    task.shown.length = framesAfter metaint 0 0 done.length
  due :
    sinceAfter metaint 0 done.length + chunk.length = metaint

/- The frame behind `done` is on its way. -/
structure Framing
    (metaint : Nat)
    (task : ListenerTask)
    (done rest : Bytes) : Prop where
  icy : task.icyRequested = true
  heard : task.heard = done ++ rest
  sent : task.bytesSent = done.length
  points :
    task.shown.length = framesAfter metaint 0 0 done.length
  due : sinceAfter metaint 0 done.length = 0

/-
  With what is left of the write, the pipe carried the stream
  of `done` and then `extra`.
-/
def Wrote
    (metaint : Nat)
    (task : ListenerTask)
    (left done extra : Bytes) : Prop :=
  ∀ seen, Continues seen task.shown →
    task.pipe.carried ++ left =
      task.stream metaint seen done ++ extra

/- The pipe carried a first part of what was heard. -/
def Cut
    (metaint : Nat)
    (task : ListenerTask) : Prop :=
  ∀ seen, Continues seen task.shown →
    task.pipe.carried <+:
      task.stream metaint seen task.heard

/- The pipe carried all of what was heard. -/
def Whole
    (metaint : Nat)
    (task : ListenerTask) : Prop :=
  task.bytesSent = task.heard.length ∧
    task.Wrote metaint [] task.heard []

/- A write under way. -/
def JobInv
    (metaint : Nat)
    (task : ListenerTask) : WriteJob → Bytes → Prop
| .headers, left =>
    task.Settled metaint [] [] ∧ task.Wrote metaint left [] []
| .plain count, left =>
    task.icyRequested = false ∧
      ∃ done data,
        task.Settled metaint done data ∧
          data.length = count ∧
            task.Wrote metaint left done data
| .chunk count rest, left =>
    task.icyRequested = true ∧
      ∃ done chunk,
        task.Settled metaint done (chunk ++ rest) ∧
          chunk.length = count ∧
            task.bytesSinceMeta + count ≤ metaint ∧
              (rest ≠ [] →
                  task.bytesSinceMeta + count = metaint) ∧
                task.Wrote metaint left done chunk
| .frame rest, left =>
    ∃ done,
      task.Framing metaint done rest ∧
        task.Wrote metaint left done []

/- What each phase knows of the pipe. -/
def PhaseInv
    (metaint : Nat)
    (task : ListenerTask) : TaskPhase → Prop
| .subscribed =>
    task.Settled metaint [] [] ∧ task.pipe.carried = []
| .numbered =>
    task.Settled metaint [] [] ∧ task.pipe.carried = []
| .spawned =>
    task.Settled metaint [] [] ∧ task.pipe.carried = []
| .writing job left => task.JobInv metaint job left
| .looking =>
    task.Settled metaint task.heard [] ∧
      task.Wrote metaint [] task.heard []
| .taking =>
    task.Settled metaint task.heard [] ∧
      task.Wrote metaint [] task.heard []
| .titling rest =>
    ∃ done chunk,
      task.AtPoint metaint done chunk rest ∧
        task.Wrote metaint [] done chunk
| .overlaying _ rest =>
    ∃ done chunk,
      task.AtPoint metaint done chunk rest ∧
        task.Wrote metaint [] done chunk
| .unprimed => task.Cut metaint
| .returned none => task.Cut metaint
| .returned (some _) => task.Whole metaint
| .ended none => task.Cut metaint
| .ended (some _) => task.Whole metaint

/- The invariant of a task. -/
def TaskInv
    (metaint : Nat)
    (task : ListenerTask) : Prop :=
  task.PhaseInv metaint task.phase

variable {metaint : Nat}
variable {task other : ListenerTask}

/- The parts of a task the invariant reads. -/
structure Alike (task other : ListenerTask) : Prop where
  icy : other.icyRequested = task.icyRequested
  headers : other.headers = task.headers
  heard : other.heard = task.heard
  since : other.bytesSinceMeta = task.bytesSinceMeta
  sent : other.bytesSent = task.bytesSent
  shown : other.shown = task.shown
  carried : other.pipe.carried = task.pipe.carried

theorem Alike.stream
    (hAlike : Alike task other)
    (seen : Nat → Output.Displayed)
    (audio : Bytes) :
    other.stream metaint seen audio =
      task.stream metaint seen audio := by
  unfold ListenerTask.stream
  rw [hAlike.headers, hAlike.icy]

theorem Alike.settled
    (hAlike : Alike task other)
    {done rest : Bytes}
    (hSettled : task.Settled metaint done rest) :
    other.Settled metaint done rest where
  heard := hAlike.heard.trans hSettled.heard
  sent := hAlike.sent.trans hSettled.sent
  since := by
    intro hIcy
    rw [hAlike.since]
    exact hSettled.since (hAlike.icy ▸ hIcy)
  points := by
    intro hIcy
    rw [hAlike.shown]
    exact hSettled.points (hAlike.icy ▸ hIcy)

theorem Alike.wrote
    (hAlike : Alike task other)
    {left done extra : Bytes}
    (hWrote : task.Wrote metaint left done extra) :
    other.Wrote metaint left done extra := by
  intro seen hSeen
  rw [hAlike.carried, hAlike.stream]
  exact hWrote seen (hAlike.shown ▸ hSeen)

theorem Alike.cut
    (hAlike : Alike task other)
    (hCut : task.Cut metaint) :
    other.Cut metaint := by
  intro seen hSeen
  rw [hAlike.carried, hAlike.stream, hAlike.heard]
  exact hCut seen (hAlike.shown ▸ hSeen)

theorem Alike.whole
    (hAlike : Alike task other)
    (hWhole : task.Whole metaint) :
    other.Whole metaint := by
  refine ⟨?_, ?_⟩
  · rw [hAlike.sent, hAlike.heard]
    exact hWhole.1
  · rw [hAlike.heard]
    exact hAlike.wrote hWhole.2

/- Nothing else of a task matters to the invariant. -/
theorem Alike.phaseInv
    (hAlike : Alike task other)
    {phase : TaskPhase}
    (hInv : task.PhaseInv metaint phase) :
    other.PhaseInv metaint phase := by
  have hFresh :
      task.Settled metaint [] [] ∧ task.pipe.carried = [] →
        other.Settled metaint [] [] ∧
          other.pipe.carried = [] :=
    fun hNew =>
      ⟨hAlike.settled hNew.1, hAlike.carried.trans hNew.2⟩
  have hRest :
      task.Settled metaint task.heard [] ∧
          task.Wrote metaint [] task.heard [] →
        other.Settled metaint other.heard [] ∧
          other.Wrote metaint [] other.heard [] := by
    rw [hAlike.heard]
    exact fun hNow =>
      ⟨hAlike.settled hNow.1, hAlike.wrote hNow.2⟩
  have hPoint :
      ∀ rest,
        (∃ done chunk,
          task.AtPoint metaint done chunk rest ∧
            task.Wrote metaint [] done chunk) →
          ∃ done chunk,
            other.AtPoint metaint done chunk rest ∧
              other.Wrote metaint [] done chunk := by
    rintro rest ⟨done, chunk, hPoint, hWrote⟩
    refine ⟨done, chunk, ?_, hAlike.wrote hWrote⟩
    exact
      { icy := hAlike.icy.trans hPoint.icy
        heard := hAlike.heard.trans hPoint.heard
        sent := hAlike.sent.trans hPoint.sent
        points := by
          rw [hAlike.shown]
          exact hPoint.points
        due := hPoint.due }
  cases phase with
  | subscribed => exact hFresh hInv
  | numbered => exact hFresh hInv
  | spawned => exact hFresh hInv
  | looking => exact hRest hInv
  | taking => exact hRest hInv
  | titling rest => exact hPoint rest hInv
  | overlaying title rest => exact hPoint rest hInv
  | unprimed => exact hAlike.cut hInv
  | returned reason =>
      cases reason with
      | none => exact hAlike.cut hInv
      | some reason => exact hAlike.whole hInv
  | ended reason =>
      cases reason with
      | none => exact hAlike.cut hInv
      | some reason => exact hAlike.whole hInv
  | writing job left =>
      cases job with
      | headers =>
          exact ⟨hAlike.settled hInv.1, hAlike.wrote hInv.2⟩
      | plain count =>
          rcases hInv with
            ⟨hPlain, done, data, hSettled, hCount, hWrote⟩
          exact
            ⟨hAlike.icy.trans hPlain, done, data,
              hAlike.settled hSettled, hCount,
              hAlike.wrote hWrote⟩
      | chunk count rest =>
          rcases hInv with
            ⟨hIcy, done, chunk, hSettled, hCount, hSpace, hFull,
             hWrote⟩
          rw [← hAlike.since] at hSpace hFull
          exact
            ⟨hAlike.icy.trans hIcy, done, chunk,
              hAlike.settled hSettled, hCount, hSpace, hFull,
              hAlike.wrote hWrote⟩
      | frame rest =>
          rcases hInv with ⟨done, hFraming, hWrote⟩
          refine ⟨done, ?_, hAlike.wrote hWrote⟩
          exact
            { icy := hAlike.icy.trans hFraming.icy
              heard := hAlike.heard.trans hFraming.heard
              sent := hAlike.sent.trans hFraming.sent
              points := by
                rw [hAlike.shown]
                exact hFraming.points
              due := hFraming.due }

end ListenerTask

end RustyIce

------------------------------------------------------------
-- The Steps Of A Task
------------------------------------------------------------

namespace RustyIce

open Library.Interleave

namespace ListenerTask

variable {metaint : Nat}
variable {task : ListenerTask}

/- The head of the packet loop starts the next chunk. -/
theorem taskInv_nextChunk
    (hMetaint : 0 < metaint)
    (hIcy : task.icyRequested = true)
    (done : Bytes)
    {rest : Bytes}
    (hSettled : task.Settled metaint done rest)
    (hWrote : task.Wrote metaint [] done []) :
    (task.nextChunk metaint rest).TaskInv metaint := by
  cases rest with
  | nil =>
      have hAll : task.heard = done := by
        rw [hSettled.heard, List.append_nil]
      rw [← hAll] at hSettled hWrote
      refine ⟨?_, ?_⟩
      · exact
          ⟨hSettled.heard, hSettled.sent, hSettled.since,
            hSettled.points⟩
      · exact hWrote
  | cons byte rest =>
      have hSince := hSettled.since hIcy
      have hBelow := sinceAfter_lt 0 done.length hMetaint
      refine
        ⟨hIcy, done,
          (byte :: rest).take (metaint - task.bytesSinceMeta),
          ?_, rfl, ?_, ?_, ?_⟩
      · rw [List.take_append_drop]
        exact
          ⟨hSettled.heard, hSettled.sent, hSettled.since,
            hSettled.points⟩
      · change
          task.bytesSinceMeta +
              ((byte :: rest).take
                (metaint - task.bytesSinceMeta)).length ≤
            metaint
        rw [List.length_take]
        omega
      · intro hMore
        have hLess :
            metaint - task.bytesSinceMeta <
              (byte :: rest).length := by
          by_contra hNot
          exact
            hMore (List.drop_eq_nil_of_le (by omega))
        change
          task.bytesSinceMeta +
              ((byte :: rest).take
                (metaint - task.bytesSinceMeta)).length =
            metaint
        rw [List.length_take]
        omega
      · intro seen hSeen
        have hNow := hWrote seen hSeen
        rw [List.append_nil, List.append_nil] at hNow
        change task.pipe.carried ++ _ = task.stream _ _ _ ++ _
        rw [hNow]

/- A packet taken off the subscription. -/
theorem taskInv_takePacket
    (hMetaint : 0 < metaint)
    (done : Bytes)
    {packet : StreamPacket}
    (hSettled :
      task.Settled metaint done (Output.packetAudio packet))
    (hWrote : task.Wrote metaint [] done []) :
    (task.takePacket metaint packet).TaskInv metaint := by
  unfold takePacket
  cases hPayload : packet.payload with
  | decoded frame =>
      have hNone : Output.packetAudio packet = [] := by
        simp only [Output.packetAudio, hPayload]
      rw [hNone] at hSettled
      have hAll : task.heard = done := by
        rw [hSettled.heard, List.append_nil]
      rw [← hAll] at hSettled hWrote
      exact
        ⟨⟨hSettled.heard, hSettled.sent, hSettled.since,
            hSettled.points⟩, hWrote⟩
  | encoded enc =>
      have hData : Output.packetAudio packet = enc.data := by
        simp only [Output.packetAudio, hPayload]
      rw [hData] at hSettled
      simp only
      by_cases hIcy : task.icyRequested = true
      · rw [if_pos hIcy]
        exact
          taskInv_nextChunk hMetaint hIcy done hSettled hWrote
      · rw [if_neg hIcy]
        refine
          ⟨by simpa using hIcy, done, enc.data, ?_, rfl, ?_⟩
        · exact
            ⟨hSettled.heard, hSettled.sent, hSettled.since,
              hSettled.points⟩
        · intro seen hSeen
          have hNow := hWrote seen hSeen
          rw [List.append_nil, List.append_nil] at hNow
          change
            task.pipe.carried ++ _ = task.stream _ _ _ ++ _
          rw [hNow]

/- What follows a completed write. -/
theorem taskInv_written
    (hMetaint : 0 < metaint)
    {job : WriteJob}
    (hInv : task.JobInv metaint job []) :
    (task.written metaint job).TaskInv metaint := by
  cases job with
  | headers =>
      rcases hInv with ⟨hSettled, hWrote⟩
      have hNone : task.heard = [] := hSettled.heard
      refine ⟨?_, ?_⟩
      · refine
          ⟨(List.append_nil _).symm, ?_, ?_, ?_⟩
        · change task.bytesSent = task.heard.length
          rw [hNone]
          exact hSettled.sent
        · intro hIcy
          change task.bytesSinceMeta = sinceAfter _ _ _
          rw [hSettled.since hIcy, ← hNone]
          rfl
        · intro hIcy
          change task.shown.length = framesAfter _ _ _ _
          rw [hSettled.points hIcy, ← hNone]
          rfl
      · intro seen hSeen
        change
          task.pipe.carried ++ [] =
            task.stream metaint seen task.heard ++ []
        rw [hNone]
        exact hWrote seen hSeen
  | plain count =>
      rcases hInv with
        ⟨hPlain, done, data, hSettled, hCount, hWrote⟩
      have hOff : task.icyRequested ≠ true := by
        rw [hPlain]
        exact Bool.false_ne_true
      refine ⟨⟨(List.append_nil _).symm, ?_, ?_, ?_⟩, ?_⟩
      · change task.bytesSent + count = task.heard.length
        rw [hSettled.heard, hSettled.sent, List.length_append,
          hCount]
      · exact fun hIcy => absurd hIcy hOff
      · exact fun hIcy => absurd hIcy hOff
      · intro seen hSeen
        have hNow := hWrote seen hSeen
        change
          task.pipe.carried ++ [] =
            task.stream _ _ task.heard ++ []
        rw [hNow, hSettled.heard, stream_append_plain hPlain,
          List.append_nil]
  | chunk count rest =>
      rcases hInv with
        ⟨hIcy, done, chunk, hSettled, hCount, hSpace, hFull,
         hWrote⟩
      have hSince := hSettled.since hIcy
      rw [hSince] at hSpace hFull
      unfold written
      simp only
      by_cases hDue : metaint ≤ task.bytesSinceMeta + count
      · rw [if_pos hDue]
        refine ⟨done, chunk, ?_, hWrote⟩
        exact
          { icy := hIcy
            heard := hSettled.heard
            sent := by
              change task.bytesSent + count = _
              rw [hSettled.sent, hCount]
            points := hSettled.points hIcy
            due := by
              rw [hCount]
              omega }
      · rw [if_neg hDue]
        -- A chunk short of the point ends its packet.
        have hLast : rest = [] := by
          by_contra hMore
          have hPoint := hFull hMore
          omega
        subst hLast
        have hShort :
            sinceAfter metaint 0 done.length + chunk.length <
              metaint := by
          omega
        have hPassed :
            sinceAfter metaint 0 (done ++ chunk).length =
              task.bytesSinceMeta + count := by
          rw [List.length_append, ← sinceAfter_add, hSince,
            ← hCount]
          exact Nat.mod_eq_of_lt hShort
        have hPoints :
            framesAfter metaint 0 0 (done ++ chunk).length =
              framesAfter metaint 0 0 done.length := by
          rw [List.length_append, ← framesAfter_add]
          exact
            (Nat.add_eq_left).mpr (Nat.div_eq_of_lt hShort)
        refine
          taskInv_nextChunk hMetaint ?_ (done ++ chunk) ?_ ?_
        · exact hIcy
        · refine ⟨?_, ?_, ?_, ?_⟩
          · have hHeard := hSettled.heard
            rw [List.append_nil] at hHeard
            rw [List.append_nil]
            exact hHeard
          · change task.bytesSent + count = _
            rw [hSettled.sent, List.length_append, hCount]
          · exact fun _ => hPassed.symm
          · intro _
            rw [hPoints]
            exact hSettled.points hIcy
        · intro seen hSeen
          have hNow := hWrote seen hSeen
          have hStream :
              task.stream metaint seen (done ++ chunk) =
                task.stream metaint seen done ++ chunk :=
            stream_append_short hIcy hShort
          change
            task.pipe.carried ++ [] =
              task.stream metaint seen (done ++ chunk) ++ []
          rw [hNow, hStream, List.append_nil]
  | frame rest =>
      rcases hInv with ⟨done, hFraming, hWrote⟩
      refine taskInv_nextChunk hMetaint ?_ done ?_ ?_
      · exact hFraming.icy
      · exact
          ⟨hFraming.heard, hFraming.sent,
            fun _ => hFraming.due.symm,
            fun _ => hFraming.points⟩
      · exact hWrote

end ListenerTask

end RustyIce

------------------------------------------------------------
-- Parts Of The Stream
------------------------------------------------------------

namespace RustyIce

open Library.Interleave

namespace ListenerTask

variable {metaint : Nat}
variable {task : ListenerTask}

/- What was written before a write is a part of the whole. -/
theorem Wrote.cut
    {left done extra : Bytes}
    (hWrote : task.Wrote metaint left done extra)
    (hPart :
      ∀ seen,
        task.stream metaint seen done ++ extra <+:
          task.stream metaint seen task.heard) :
    task.Cut metaint := by
  intro seen hSeen
  have hFront :
      task.pipe.carried <+: task.pipe.carried ++ left :=
    List.prefix_append _ _
  rw [hWrote seen hSeen] at hFront
  exact hFront.trans (hPart seen)

theorem Whole.cut
    (hWhole : task.Whole metaint) :
    task.Cut metaint := by
  apply hWhole.2.cut
  intro seen
  rw [List.append_nil]

/- A write that breaks off leaves a part of the stream. -/
theorem cut_of_jobInv
    (hMetaint : 0 < metaint)
    {job : WriteJob}
    {left : Bytes}
    (hInv : task.JobInv metaint job left) :
    task.Cut metaint := by
  cases job with
  | headers =>
      rcases hInv with ⟨hSettled, hWrote⟩
      apply hWrote.cut
      intro seen
      rw [hSettled.heard, List.append_nil]
      rfl
  | plain count =>
      rcases hInv with ⟨hPlain, done, data, hSettled, -, hWrote⟩
      apply hWrote.cut
      intro seen
      rw [hSettled.heard, stream_append_plain hPlain]
  | chunk count rest =>
      rcases hInv with
        ⟨hIcy, done, chunk, hSettled, hCount, hSpace, -, hWrote⟩
      apply hWrote.cut
      intro seen
      rw [hSettled.heard]
      apply stream_chunk hMetaint hIcy
      rw [← hSettled.since hIcy, hCount]
      exact hSpace
  | frame rest =>
      rcases hInv with ⟨done, hFraming, hWrote⟩
      apply hWrote.cut
      intro seen
      rw [hFraming.heard, List.append_nil,
        stream_append hMetaint hFraming.icy]
      exact List.prefix_append _ _

/- In every phase the pipe carried a part of the stream. -/
theorem cut_of_taskInv
    (hMetaint : 0 < metaint)
    (hInv : task.TaskInv metaint) :
    task.Cut metaint := by
  have hFresh : task.pipe.carried = [] → task.Cut metaint := by
    intro hNone seen _
    rw [hNone]
    exact List.nil_prefix
  have hPoint :
      ∀ rest,
        (∃ done chunk,
          task.AtPoint metaint done chunk rest ∧
            task.Wrote metaint [] done chunk) →
          task.Cut metaint := by
    rintro rest ⟨done, chunk, hPoint, hWrote⟩
    apply hWrote.cut
    intro seen
    rw [hPoint.heard]
    exact
      stream_chunk hMetaint hPoint.icy
        (Nat.le_of_eq hPoint.due) rest
  have hRest :
      task.Wrote metaint [] task.heard [] →
        task.Cut metaint := by
    intro hWrote
    apply hWrote.cut
    intro seen
    rw [List.append_nil]
  unfold TaskInv at hInv
  cases hPhase : task.phase with
  | subscribed =>
      rw [hPhase] at hInv
      exact hFresh hInv.2
  | numbered =>
      rw [hPhase] at hInv
      exact hFresh hInv.2
  | spawned =>
      rw [hPhase] at hInv
      exact hFresh hInv.2
  | looking =>
      rw [hPhase] at hInv
      exact hRest hInv.2
  | taking =>
      rw [hPhase] at hInv
      exact hRest hInv.2
  | titling rest =>
      rw [hPhase] at hInv
      exact hPoint rest hInv
  | overlaying title rest =>
      rw [hPhase] at hInv
      exact hPoint rest hInv
  | unprimed =>
      rw [hPhase] at hInv
      exact hInv
  | returned reason =>
      rw [hPhase] at hInv
      cases reason with
      | none => exact hInv
      | some reason => exact Whole.cut hInv
  | ended reason =>
      rw [hPhase] at hInv
      cases reason with
      | none => exact hInv
      | some reason => exact Whole.cut hInv
  | writing job left =>
      rw [hPhase] at hInv
      exact cut_of_jobInv hMetaint hInv

end ListenerTask

end RustyIce

------------------------------------------------------------
-- A Task Keeps Its Invariant
------------------------------------------------------------

namespace RustyIce

open Library.Interleave

namespace ListenerTask

variable {metaint : Nat}
variable {feed : MountFeed}
variable {task after : ListenerTask}

/- The pipe takes the front of what is left. -/
theorem wrote_of_ready
    {left done extra : Bytes}
    {pipe : Library.Pipe UInt8}
    {count : Nat}
    (phase : TaskPhase)
    (hWrote : task.Wrote metaint left done extra)
    (hReady : task.pipe.pollWrite left = .ready count pipe) :
    ({ task with
        pipe := pipe
        phase := phase } : ListenerTask).Wrote metaint
      (left.drop count) done extra := by
  intro seen hSeen
  change
    pipe.carried ++ left.drop count =
      task.stream metaint seen done ++ extra
  rw [(Library.Pipe.carried_of_ready hReady).1]
  exact hWrote seen hSeen

theorem jobInv_of_ready
    {job : WriteJob}
    {left : Bytes}
    {pipe : Library.Pipe UInt8}
    {count : Nat}
    (phase : TaskPhase)
    (hInv : task.JobInv metaint job left)
    (hReady : task.pipe.pollWrite left = .ready count pipe) :
    ({ task with
        pipe := pipe
        phase := phase } : ListenerTask).JobInv metaint job
      (left.drop count) := by
  cases job with
  | headers =>
      rcases hInv with ⟨hSettled, hWrote⟩
      exact
        ⟨⟨hSettled.heard, hSettled.sent, hSettled.since,
            hSettled.points⟩,
          wrote_of_ready phase hWrote hReady⟩
  | plain length =>
      rcases hInv with
        ⟨hPlain, done, data, hSettled, hCount, hWrote⟩
      exact
        ⟨hPlain, done, data,
          ⟨hSettled.heard, hSettled.sent, hSettled.since,
            hSettled.points⟩,
          hCount, wrote_of_ready phase hWrote hReady⟩
  | chunk length rest =>
      rcases hInv with
        ⟨hIcy, done, chunk, hSettled, hCount, hSpace, hFull,
         hWrote⟩
      exact
        ⟨hIcy, done, chunk,
          ⟨hSettled.heard, hSettled.sent, hSettled.since,
            hSettled.points⟩,
          hCount, hSpace, hFull,
          wrote_of_ready phase hWrote hReady⟩
  | frame rest =>
      rcases hInv with ⟨done, hFraming, hWrote⟩
      exact
        ⟨done,
          ⟨hFraming.icy, hFraming.heard, hFraming.sent,
            hFraming.points, hFraming.due⟩,
          wrote_of_ready phase hWrote hReady⟩

/- The frame of a metadata point is built. -/
theorem framing_of_atPoint
    (hMetaint : 0 < metaint)
    {done chunk rest : Bytes}
    (hPoint : task.AtPoint metaint done chunk rest)
    (hWrote : task.Wrote metaint [] done chunk)
    (displayed : Output.Displayed) :
    ({ task with
        shown := task.shown ++ [displayed]
        phase :=
          .writing (.frame rest)
            (Output.buildIcyFrame displayed) } :
        ListenerTask).TaskInv metaint := by
  have hBelow := sinceAfter_lt 0 done.length hMetaint
  have hPoints :
      framesAfter metaint 0 0 (done ++ chunk).length =
        framesAfter metaint 0 0 done.length + 1 := by
    rw [List.length_append, ← framesAfter_add]
    have hDiv := Nat.div_self hMetaint
    rw [← hPoint.due] at hDiv
    simp only [framesAfter] at hDiv ⊢
    rw [hPoint.due] at hDiv ⊢
    rw [Nat.div_self hMetaint]
  refine ⟨done ++ chunk, ⟨hPoint.icy, ?_, ?_, ?_, ?_⟩, ?_⟩
  · rw [List.append_assoc]
    exact hPoint.heard
  · rw [List.length_append]
    exact hPoint.sent
  · rw [hPoints, ← hPoint.points]
    simp
  · rw [List.length_append, ← sinceAfter_add]
    rw [sinceAfter, hPoint.due, Nat.mod_self]
  · intro seen hSeen
    have hNow := hWrote seen hSeen.of_append
    have hFrame :
        seen (framesAfter metaint 0 0 done.length) =
          displayed := by
      apply hSeen
      rw [← hPoint.points, List.getElem?_append_right]
      · simp
      · exact Nat.le_refl _
    rw [List.append_nil] at hNow
    change
      task.pipe.carried ++ Output.buildIcyFrame displayed =
        task.stream metaint seen (done ++ chunk) ++ []
    rw [hNow, stream_append_full hMetaint hPoint.icy hPoint.due,
      hFrame, List.append_nil, List.append_assoc]

/- A step keeps the invariant. -/
theorem taskInv_step
    {count : Nat}
    (hMetaint : 0 < metaint)
    (hInv : task.TaskInv metaint)
    (hStep : task.step metaint feed = some (after, count)) :
    after.TaskInv metaint := by
  unfold TaskInv at hInv
  unfold step at hStep
  cases hPhase : task.phase with
  | subscribed => simp [hPhase] at hStep
  | numbered => simp [hPhase] at hStep
  | unprimed => simp [hPhase] at hStep
  | returned reason => simp [hPhase] at hStep
  | ended reason => simp [hPhase] at hStep
  | spawned =>
      rw [hPhase] at hInv
      simp only [hPhase] at hStep
      rcases hInv with ⟨hSettled, hNone⟩
      have hHeard : task.heard = [] := hSettled.heard
      cases hHeaders : task.headers with
      | some headers =>
          simp only [hHeaders] at hStep
          cases hStep
          refine ⟨?_, ?_⟩
          · exact
              ⟨hSettled.heard, hSettled.sent, hSettled.since,
                hSettled.points⟩
          · intro seen _
            simp [hNone, stream, weave]
      | none =>
          simp only [hHeaders] at hStep
          cases hStep
          have hRest : task.Settled metaint task.heard [] := by
            rw [hHeard]
            exact hSettled
          refine ⟨?_, ?_⟩
          · exact
              ⟨hRest.heard, hRest.sent, hRest.since,
                hRest.points⟩
          · intro seen _
            have hStill : task.heard = [] := hHeard
            unfold heard at hStill ⊢
            simp [hNone, stream, hStill, weave]
  | writing job left =>
      rw [hPhase] at hInv
      cases left with
      | nil =>
          simp only [hPhase] at hStep
          cases hStep
          exact taskInv_written hMetaint hInv
      | cons byte left =>
          simp only [hPhase] at hStep
          rcases hPolled :
              task.pipe.pollWrite (byte :: left) with
            _ | _ | ⟨taken, pipe⟩
          · rw [hPolled] at hStep
            cases hStep
            have hCut := cut_of_jobInv hMetaint hInv
            cases job <;> exact hCut
          · rw [hPolled] at hStep
            cases hStep
          · rw [hPolled] at hStep
            cases hStep
            exact jobInv_of_ready _ hInv hPolled
  | looking =>
      rw [hPhase] at hInv
      simp only [hPhase] at hStep
      by_cases hCancelled : task.cancelled = true
      · rw [if_pos hCancelled] at hStep
        cases hStep
        exact ⟨hInv.1.sent, hInv.2⟩
      · rw [if_neg hCancelled] at hStep
        cases hStep
        refine ⟨?_, hInv.2⟩
        exact
          ⟨hInv.1.heard, hInv.1.sent, hInv.1.since,
            hInv.1.points⟩
  | taking =>
      rw [hPhase] at hInv
      simp only [hPhase] at hStep
      rcases hNext : task.subscription.pollNext feed.sender with
        _ | ⟨_ | packet, subscription⟩
      · simp only [hNext] at hStep
        by_cases hDropped : feed.dropped = true
        · rw [if_pos hDropped] at hStep
          cases hStep
          exact ⟨hInv.1.sent, hInv.2⟩
        · rw [if_neg hDropped] at hStep
          cases hStep
          refine ⟨?_, hInv.2⟩
          exact
            ⟨hInv.1.heard, hInv.1.sent, hInv.1.since,
              hInv.1.points⟩
      · -- Missed packets leave no trace in the stream.
        simp only [hNext] at hStep
        cases hStep
        have hSame :=
          (BusSubscriber.poll_of_pollNext hNext).2
        have hAlike :
            Alike task
              { task with
                subscription := subscription
                phase := .taking } :=
          { icy := rfl
            headers := rfl
            heard := by simp [heard, hSame]
            since := rfl
            sent := rfl
            shown := rfl
            carried := rfl }
        exact hAlike.phaseInv hInv
      · simp only [hNext] at hStep
        cases hStep
        have hMore :=
          (BusSubscriber.poll_of_pollNext hNext).2
        refine
          taskInv_takePacket hMetaint task.heard
            ⟨?_, hInv.1.sent, hInv.1.since, hInv.1.points⟩
            hInv.2
        simp [heard, hMore]
  | titling rest =>
      rw [hPhase] at hInv
      simp only [hPhase] at hStep
      cases hStep
      rcases hInv with ⟨done, chunk, hPoint, hWrote⟩
      exact
        ⟨done, chunk,
          ⟨hPoint.icy, hPoint.heard, hPoint.sent,
            hPoint.points, hPoint.due⟩, hWrote⟩
  | overlaying title rest =>
      rw [hPhase] at hInv
      simp only [hPhase] at hStep
      cases hStep
      rcases hInv with ⟨done, chunk, hPoint, hWrote⟩
      exact framing_of_atPoint hMetaint hPoint hWrote _

end ListenerTask

end RustyIce

------------------------------------------------------------
-- What A Step Changes
------------------------------------------------------------

namespace RustyIce

namespace ListenerTask

/- The task has an entry in the listener map. -/
def Listed (task : ListenerTask) : Bool :=
  match task.phase with
  | .subscribed => false
  | .numbered => false
  | .ended _ => false
  | .spawned => true
  | .writing _ _ => true
  | .looking => true
  | .taking => true
  | .titling _ => true
  | .overlaying _ _ => true
  | .unprimed => true
  | .returned _ => true

/-
  All that a step does to a task, seen from outside: `count`
  bytes went into the pipe, and its subscription was polled
  or left alone.
-/
structure Moves
    (feed : MountFeed)
    (task after : ListenerTask)
    (count : Nat) : Prop where
  mount : after.mount = task.mount
  info : after.info = task.info
  headers : after.headers = task.headers
  icy : after.icyRequested = task.icyRequested
  cancelled : after.cancelled = task.cancelled
  number : after.number = task.number
  carried :
    after.pipe.carried.length =
      task.pipe.carried.length + count
  capacity : after.pipe.capacity = task.pipe.capacity
  client :
    after.pipe.readerClosed = task.pipe.readerClosed
  subscription :
    after.subscription = task.subscription ∨
      task.phase = .taking ∧
        task.subscription.poll feed.sender =
          some after.subscription
  listed : task.Listed = true
  stays : after.Listed = true

variable {metaint : Nat}
variable {feed : MountFeed}
variable {task after : ListenerTask}

/- The parts of a task that only its handler sets. -/
structure SameTask (task after : ListenerTask) : Prop where
  mount : after.mount = task.mount
  info : after.info = task.info
  headers : after.headers = task.headers
  icy : after.icyRequested = task.icyRequested
  cancelled : after.cancelled = task.cancelled
  number : after.number = task.number
  carried : after.pipe.carried = task.pipe.carried
  capacity : after.pipe.capacity = task.pipe.capacity
  client :
    after.pipe.readerClosed = task.pipe.readerClosed
  subscription : after.subscription = task.subscription
  stays : after.Listed = true

theorem sameTask_nextChunk
    (metaint : Nat)
    (task : ListenerTask)
    (data : Bytes) :
    SameTask task (task.nextChunk metaint data) := by
  cases data <;>
    exact
      ⟨rfl, rfl, rfl, rfl, rfl, rfl, rfl, rfl, rfl, rfl,
        rfl⟩

theorem sameTask_takePacket
    (metaint : Nat)
    (task : ListenerTask)
    (packet : StreamPacket) :
    SameTask task (task.takePacket metaint packet) := by
  unfold takePacket
  cases packet.payload with
  | decoded frame =>
      exact
        ⟨rfl, rfl, rfl, rfl, rfl, rfl, rfl, rfl, rfl, rfl,
          rfl⟩
  | encoded enc =>
      simp only
      split
      · exact sameTask_nextChunk metaint task enc.data
      · exact
          ⟨rfl, rfl, rfl, rfl, rfl, rfl, rfl, rfl, rfl, rfl,
            rfl⟩

theorem sameTask_written
    (metaint : Nat)
    (task : ListenerTask)
    (job : WriteJob) :
    SameTask task (task.written metaint job) := by
  cases job with
  | headers =>
      exact
        ⟨rfl, rfl, rfl, rfl, rfl, rfl, rfl, rfl, rfl, rfl,
          rfl⟩
  | plain count =>
      exact
        ⟨rfl, rfl, rfl, rfl, rfl, rfl, rfl, rfl, rfl, rfl,
          rfl⟩
  | chunk count rest =>
      unfold written
      simp only
      split
      · exact
          ⟨rfl, rfl, rfl, rfl, rfl, rfl, rfl, rfl, rfl, rfl,
            rfl⟩
      · have hNext :=
          sameTask_nextChunk metaint
            { task with
              bytesSent := task.bytesSent + count
              bytesSinceMeta := task.bytesSinceMeta + count }
            rest
        exact
          ⟨hNext.mount, hNext.info, hNext.headers, hNext.icy,
            hNext.cancelled, hNext.number, hNext.carried,
            hNext.capacity, hNext.client, hNext.subscription,
            hNext.stays⟩
  | frame rest =>
      have hNext :=
        sameTask_nextChunk metaint
          { task with bytesSinceMeta := 0 } rest
      exact
        ⟨hNext.mount, hNext.info, hNext.headers, hNext.icy,
          hNext.cancelled, hNext.number, hNext.carried,
          hNext.capacity, hNext.client, hNext.subscription,
            hNext.stays⟩

theorem SameTask.moves
    {feed : MountFeed}
    (hSame : SameTask task after)
    (hListed : task.Listed = true) :
    Moves feed task after 0 where
  mount := hSame.mount
  info := hSame.info
  headers := hSame.headers
  icy := hSame.icy
  cancelled := hSame.cancelled
  number := hSame.number
  carried := by rw [hSame.carried, Nat.add_zero]
  capacity := hSame.capacity
  client := hSame.client
  subscription := .inl hSame.subscription
  listed := hListed
  stays := hSame.stays

/- A task whose subscription was polled. -/
theorem SameTask.moves_polled
    {feed : MountFeed}
    {subscription : BusSubscriber}
    (hSame :
      SameTask { task with subscription := subscription } after)
    (hTaking : task.phase = .taking)
    (hPoll :
      task.subscription.poll feed.sender = some subscription) :
    Moves feed task after 0 where
  mount := hSame.mount
  info := hSame.info
  headers := hSame.headers
  icy := hSame.icy
  cancelled := hSame.cancelled
  number := hSame.number
  carried := by rw [hSame.carried, Nat.add_zero]
  capacity := hSame.capacity
  client := hSame.client
  subscription := by
    right
    rw [hSame.subscription]
    exact ⟨hTaking, hPoll⟩
  listed := by
    unfold Listed
    rw [hTaking]
  stays := hSame.stays

/- The one place where the steps of a task are told apart. -/
theorem step_moves
    {count : Nat}
    (hStep : task.step metaint feed = some (after, count)) :
    Moves feed task after count := by
  have hPlain :
      ∀ phase : TaskPhase,
        ({ task with phase := phase } :
            ListenerTask).Listed = true →
          SameTask task { task with phase := phase } :=
    fun phase hStays =>
      ⟨rfl, rfl, rfl, rfl, rfl, rfl, rfl, rfl, rfl, rfl,
        hStays⟩
  have hFinish :
      ∀ reason, SameTask task (task.finish reason) :=
    fun reason =>
      ⟨rfl, rfl, rfl, rfl, rfl, rfl, rfl, rfl, rfl, rfl,
        rfl⟩
  unfold step at hStep
  cases hPhase : task.phase with
  | subscribed => simp [hPhase] at hStep
  | numbered => simp [hPhase] at hStep
  | unprimed => simp [hPhase] at hStep
  | returned reason => simp [hPhase] at hStep
  | ended reason => simp [hPhase] at hStep
  | spawned =>
      have hListed : task.Listed = true := by
        unfold Listed
        rw [hPhase]
      simp only [hPhase] at hStep
      split at hStep
      · cases hStep
        exact (hPlain _ rfl).moves hListed
      · cases hStep
        exact (hPlain _ rfl).moves hListed
  | writing job left =>
      have hListed : task.Listed = true := by
        unfold Listed
        rw [hPhase]
      cases left with
      | nil =>
          simp only [hPhase] at hStep
          cases hStep
          exact (sameTask_written metaint task job).moves hListed
      | cons byte left =>
          simp only [hPhase] at hStep
          rcases hPolled :
              task.pipe.pollWrite (byte :: left) with
            _ | _ | ⟨taken, pipe⟩
          · rw [hPolled] at hStep
            cases hStep
            cases job with
            | headers => exact (hPlain _ rfl).moves hListed
            | plain count => exact (hFinish none).moves hListed
            | chunk count rest =>
                exact (hFinish none).moves hListed
            | frame rest => exact (hFinish none).moves hListed
          · rw [hPolled] at hStep
            cases hStep
          · rw [hPolled] at hStep
            cases hStep
            exact
              { mount := rfl
                info := rfl
                headers := rfl
                icy := rfl
                cancelled := rfl
                number := rfl
                carried :=
                  (Library.Pipe.carried_of_ready hPolled).2
                capacity :=
                  Library.Pipe.capacity_of_ready hPolled
                client := by
                  rcases Library.Pipe.ready_exact hPolled with
                    ⟨rfl, -, -, -⟩
                  rfl
                subscription := .inl rfl
                listed := hListed
                stays := rfl }
  | looking =>
      have hListed : task.Listed = true := by
        unfold Listed
        rw [hPhase]
      simp only [hPhase] at hStep
      by_cases hCancelled : task.cancelled = true
      · rw [if_pos hCancelled] at hStep
        cases hStep
        exact (hFinish _).moves hListed
      · rw [if_neg hCancelled] at hStep
        cases hStep
        exact (hPlain _ rfl).moves hListed
  | taking =>
      have hListed : task.Listed = true := by
        unfold Listed
        rw [hPhase]
      simp only [hPhase] at hStep
      rcases hNext : task.subscription.pollNext feed.sender with
        _ | ⟨_ | packet, subscription⟩
      · simp only [hNext] at hStep
        by_cases hDropped : feed.dropped = true
        · rw [if_pos hDropped] at hStep
          cases hStep
          exact (hFinish _).moves hListed
        · rw [if_neg hDropped] at hStep
          cases hStep
          exact (hPlain _ rfl).moves hListed
      · simp only [hNext] at hStep
        cases hStep
        have hPoll :=
          (BusSubscriber.poll_of_pollNext hNext).1
        have hSame :
            SameTask { task with subscription := subscription }
              { task with
                subscription := subscription
                phase := .taking } :=
          ⟨rfl, rfl, rfl, rfl, rfl, rfl, rfl, rfl, rfl, rfl,
            rfl⟩
        exact hSame.moves_polled hPhase hPoll
      · simp only [hNext] at hStep
        cases hStep
        have hPoll :=
          (BusSubscriber.poll_of_pollNext hNext).1
        have hSame :=
          sameTask_takePacket metaint
            { task with
              subscription := subscription
              phase := .taking }
            packet
        exact
          SameTask.moves_polled
            ⟨hSame.mount, hSame.info, hSame.headers, hSame.icy,
              hSame.cancelled, hSame.number, hSame.carried,
              hSame.capacity, hSame.client, hSame.subscription,
              hSame.stays⟩
            hPhase hPoll
  | titling rest =>
      have hListed : task.Listed = true := by
        unfold Listed
        rw [hPhase]
      simp only [hPhase] at hStep
      cases hStep
      exact (hPlain _ rfl).moves hListed
  | overlaying title rest =>
      have hListed : task.Listed = true := by
        unfold Listed
        rw [hPhase]
      simp only [hPhase] at hStep
      cases hStep
      have hSame :
          ∀ shown phase,
            ({ task with
                shown := shown
                phase := phase } : ListenerTask).Listed =
              true →
              SameTask task
                { task with
                  shown := shown
                  phase := phase } :=
        fun shown phase hStays =>
          ⟨rfl, rfl, rfl, rfl, rfl, rfl, rfl, rfl, rfl, rfl,
            hStays⟩
      exact (hSame _ _ rfl).moves hListed

end ListenerTask

end RustyIce

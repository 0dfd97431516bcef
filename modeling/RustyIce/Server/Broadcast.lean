import RustyIce.Server.Delivery
import RustyIce.Server.IngestRuns

/-
  From a source to the clients of its listeners: the tasks of
  its ingest beside the delivery of what they publish, on one
  mount of the server.

  What the client of a listener that never lagged decodes is
  a part of the source's own audio, in one piece.

  Main declarations:
    * `Broadcast`, `broadcastMachine`
    * `BroadcastInv`
    * `heard_of_source`
-/

------------------------------------------------------------
-- The Source Beside Its Listeners
------------------------------------------------------------

namespace RustyIce

open Ingest Transcode

variable {Sample : Type}

/- With what was published on the mount before the source. -/
structure Broadcast
    (lib : Symphonia Sample)
    (E : Engines Sample) where
  earlier : List StreamPacket
  ingest : IngestTasks lib E
  delivery : Delivery

inductive BroadcastLabel where
| ingest (label : TasksLabel)
| delivery (label : DeliveryLabel)
deriving DecidableEq, Repr

namespace Broadcast

variable {lib : Symphonia Sample}
variable {E : Engines Sample}

/-
  The source owns the mount: nobody else publishes on it, and
  the ingest holds the bus.
-/
def Owned
    (m : Nat)
    (s : Broadcast lib E) : DeliveryLabel → Bool
| .publish k _ => k = m
| .dropBus k => k = m && !s.ingest.phase.Over
| _ => false

def step
    (metaint : Nat)
    (m : Nat)
    (chunkSize : Nat)
    (codec : CodecId)
    (s : Broadcast lib E) :
    BroadcastLabel → Option (Broadcast lib E)
| .ingest label =>
    match s.ingest.step chunkSize codec label with
    | none => none
    | some next =>
        let packets := next.bus.drop s.ingest.bus.length
        match
            packets.foldlM
              (fun delivery packet =>
                delivery.step metaint (.publish m packet))
              s.delivery with
        | none => none
        | some delivery =>
            some
              { s with
                ingest := next
                delivery := delivery }
| .delivery label =>
    if s.Owned m label then
      none
    else
      match s.delivery.step metaint label with
      | none => none
      | some delivery => some { s with delivery := delivery }

end Broadcast

/- A source comes to a mount that has had any life before. -/
def broadcastMachine
    (output : Output.HttpPassthroughOutput)
    (m : Nat)
    (lib : Symphonia Sample)
    (E : Engines Sample)
    (build : IngestBuild)
    (codec : CodecId) :
    Library.Machine (Broadcast lib E) BroadcastLabel where
  init := fun s =>
    (deliveryMachine output).Reachable s.delivery ∧
      (∃ feed,
        s.delivery.feeds[m]? = some feed ∧
          feed.sender.sent = s.earlier) ∧
        ∃ cancelled,
          s.ingest = .start lib E build codec cancelled
  step :=
    Broadcast.step output.icyMetaint m build.ingest.chunkSize
      codec

end RustyIce

------------------------------------------------------------
-- What Is On The Mount's Bus
------------------------------------------------------------

namespace RustyIce

open Ingest Transcode

namespace Delivery

variable {metaint m : Nat}
variable {s t : Delivery}

/- All that was ever published on a mount. -/
def sentOn
    (m : Nat)
    (s : Delivery) : Option (List StreamPacket) :=
  s.feeds[m]?.map (·.sender.sent)

/- A change to one mount that leaves its channel alone. -/
theorem sentOn_setFeed
    {k : Nat}
    {feed next : MountFeed}
    (hFeed : s.feeds[k]? = some feed)
    (hSame : next.sender = feed.sender)
    (hFeeds : t.feeds = s.feeds.set k next) :
    t.sentOn m = s.sentOn m := by
  rw [sentOn, sentOn, hFeeds]
  by_cases hMount : k = m
  · subst hMount
    rw [List.getElem?_set_self
      (List.getElem?_eq_some_iff.mp hFeed).1, hFeed]
    exact congrArg (fun sender => some sender.sent) hSame
  · rw [List.getElem?_set_ne hMount]

theorem sentOn_onFeed
    {k : Nat}
    {change : MountFeed → MountFeed}
    (hStep : s.onFeed k change = some t)
    (hSame : ∀ feed, (change feed).sender = feed.sender) :
    t.sentOn m = s.sentOn m := by
  unfold onFeed at hStep
  split at hStep
  · cases hStep
  · rename_i feed hFeed
    cases hStep
    exact sentOn_setFeed hFeed (hSame feed) rfl

theorem sentOn_advance
    {i : Nat}
    (hStep : s.advance metaint i = some t) :
    t.sentOn m = s.sentOn m := by
  unfold advance at hStep
  split at hStep
  · cases hStep
  · split at hStep
    · cases hStep
    · cases hStep
      rfl
  · split at hStep
    · cases hStep
    · cases hStep
      rfl
  · split at hStep
    · cases hStep
    · cases hStep
      rfl
  · split at hStep
    · cases hStep
    · rename_i feed hFeed
      cases advances_of_advanceTask hStep with
      | issue _ => rfl
      | insert _ => rfl
      | unprimed _ => rfl
      | deregister reason _ => rfl
      | move after count _ =>
          have hSame :
              (feed.count count).sender = feed.sender :=
            rfl
          exact sentOn_setFeed hFeed hSame rfl

/- Only publishing on the mount adds to it. -/
theorem sentOn_of_step
    {label : DeliveryLabel}
    (hOther : ∀ packet, label ≠ .publish m packet)
    (hStep : s.step metaint label = some t) :
    t.sentOn m = s.sentOn m := by
  cases label with
  | publish k packet =>
      have hMount : k ≠ m := by
        rintro rfl
        exact hOther packet rfl
      unfold step at hStep
      dsimp only at hStep
      split at hStep
      · cases hStep
      · split_ifs at hStep
        cases hStep
        unfold sentOn
        rw [List.getElem?_set_ne hMount]
  | setTitle k title => exact sentOn_onFeed hStep fun _ => rfl
  | setOverlay k overlay =>
      exact sentOn_onFeed hStep fun _ => rfl
  | setHeaders k headers =>
      exact sentOn_onFeed hStep fun _ => rfl
  | setInfo k info => exact sentOn_onFeed hStep fun _ => rfl
  | dropBus k =>
      unfold step at hStep
      dsimp only at hStep
      split_ifs at hStep
      exact sentOn_onFeed hStep fun _ => rfl
  | arrive k icy =>
      unfold step at hStep
      dsimp only at hStep
      split at hStep
      · cases hStep
      · split_ifs at hStep
        cases hStep
        rfl
  | advance i => exact sentOn_advance hStep
  | read i count =>
      unfold step at hStep
      dsimp only at hStep
      split at hStep
      · split_ifs at hStep
        cases hStep
        rfl
      · cases hStep
  | disconnect i =>
      unfold step at hStep
      dsimp only at hStep
      split at hStep
      · cases hStep
        rfl
      · cases hStep
  | kick id =>
      unfold step at hStep
      dsimp only at hStep
      split at hStep
      · cases hStep
        rfl
      · split at hStep
        · cases hStep
          rfl
        · cases hStep
          rfl
  | shutdown =>
      cases hStep
      rfl

theorem sentOn_publish
    {packet : StreamPacket}
    {sent : List StreamPacket}
    (hSent : s.sentOn m = some sent)
    (hStep : s.step metaint (.publish m packet) = some t) :
    t.sentOn m = some (sent ++ [packet]) := by
  unfold step at hStep
  dsimp only at hStep
  unfold sentOn at hSent ⊢
  split at hStep
  · cases hStep
  · rename_i feed hFeed
    split_ifs at hStep
    cases hStep
    rw [hFeed] at hSent
    cases hSent
    rw [List.getElem?_set_self
      (List.getElem?_eq_some_iff.mp hFeed).1]
    rfl

/- Some packets in a row. -/
theorem sentOn_publishAll
    {packets sent : List StreamPacket}
    (hSent : s.sentOn m = some sent)
    (hSteps :
      packets.foldlM
          (fun delivery packet =>
            delivery.step metaint (.publish m packet))
          s =
        some t) :
    t.sentOn m = some (sent ++ packets) := by
  induction packets generalizing s sent with
  | nil =>
      cases hSteps
      rw [hSent, List.append_nil]
  | cons packet rest ih =>
      rw [List.foldlM_cons] at hSteps
      cases hStep : s.step metaint (.publish m packet) with
      | none => simp [hStep] at hSteps
      | some next =>
          rw [hStep] at hSteps
          have hNext := ih (sentOn_publish hSent hStep) hSteps
          rw [hNext, List.append_assoc, List.singleton_append]

theorem reachable_publishAll
    {output : Output.HttpPassthroughOutput}
    {packets : List StreamPacket}
    (hReach : (deliveryMachine output).Reachable s)
    (hSteps :
      packets.foldlM
          (fun delivery packet =>
            delivery.step output.icyMetaint
              (.publish m packet))
          s =
        some t) :
    (deliveryMachine output).Reachable t := by
  induction packets generalizing s with
  | nil =>
      cases hSteps
      exact hReach
  | cons packet rest ih =>
      rw [List.foldlM_cons] at hSteps
      cases hStep :
          s.step output.icyMetaint (.publish m packet) with
      | none => simp [hStep] at hSteps
      | some next =>
          have hMove :
              (deliveryMachine output).step s
                  (.publish m packet) =
                some next :=
            hStep
          rw [hStep] at hSteps
          exact ih (.step hReach trivial hMove) hSteps

end Delivery

end RustyIce

------------------------------------------------------------
-- The Bus Carries The Source
------------------------------------------------------------

namespace RustyIce

open Ingest Transcode

variable {Sample : Type}
variable {output : Output.HttpPassthroughOutput}
variable {m : Nat}
variable {lib : Symphonia Sample}
variable {E : Engines Sample}
variable {build : IngestBuild}
variable {codec : CodecId}

/- Both parts run as they do alone, joined by the bus. -/
structure BroadcastInv
    (output : Output.HttpPassthroughOutput)
    (m : Nat)
    (build : IngestBuild)
    (codec : CodecId)
    (s : Broadcast lib E) : Prop where
  delivery : (deliveryMachine output).Reachable s.delivery
  ingest : TasksInv build codec s.ingest
  joined :
    s.delivery.sentOn m = some (s.earlier ++ s.ingest.bus)

theorem broadcastInv_step
    {s t : Broadcast lib E}
    {label : BroadcastLabel}
    (hInv : BroadcastInv output m build codec s)
    (hStep :
      s.step output.icyMetaint m build.ingest.chunkSize codec
          label =
        some t) :
    BroadcastInv output m build codec t := by
  unfold Broadcast.step at hStep
  cases label with
  | ingest label =>
      dsimp only at hStep
      split at hStep
      · cases hStep
      · rename_i next hNext
        split at hStep
        · cases hStep
        · rename_i delivery hSteps
          cases hStep
          rcases tasksInv_step hInv.ingest hNext with
            ⟨hIngest, more, hBus⟩
          constructor
          · exact
              Delivery.reachable_publishAll hInv.delivery
                hSteps
          · exact hIngest
          · rw [Delivery.sentOn_publishAll hInv.joined hSteps,
              ← hBus, List.drop_left, List.append_assoc]
  | delivery label =>
      dsimp only at hStep
      split_ifs at hStep with hOwned
      split at hStep
      · cases hStep
      · rename_i delivery hMove
        cases hStep
        constructor
        · exact .step hInv.delivery trivial hMove
        · exact hInv.ingest
        · rw [← hInv.joined]
          apply Delivery.sentOn_of_step ?_ hMove
          rintro packet rfl
          simp [Broadcast.Owned] at hOwned

theorem BroadcastInv.of_reachable
    {s : Broadcast lib E}
    (hReach :
      (broadcastMachine output m lib E build
        codec).Reachable s) :
    BroadcastInv output m build codec s := by
  refine
    Library.Machine.ReachableUnder.invariant ?_ ?_ hReach
  · rintro s ⟨hDelivery, ⟨feed, hFeed, hSent⟩, cancelled,
      hIngest⟩
    constructor
    · exact hDelivery
    · rw [hIngest]
      exact tasksInv_start cancelled
    · rw [Delivery.sentOn, hFeed, hIngest, ← hSent]
      exact congrArg some (List.append_nil _).symm
  · intro s label t hInv _ hStep
    exact broadcastInv_step hInv hStep

end RustyIce

------------------------------------------------------------
-- A Part Of The Source In One Piece
------------------------------------------------------------

namespace RustyIce

open Ingest Transcode

variable {Sample : Type}
variable {output : Output.HttpPassthroughOutput}
variable {m : Nat}
variable {lib : Symphonia Sample}
variable {E : Engines Sample}
variable {build : IngestBuild}
variable {codec : CodecId}

/- The audio of some packets. -/
def audioOf (packets : List StreamPacket) : Bytes :=
  packets.flatMap Output.packetAudio

theorem audioOf_append
    (front rest : List StreamPacket) :
    audioOf (front ++ rest) = audioOf front ++ audioOf rest :=
  List.flatMap_append

theorem audioOf_prefix
    {front packets : List StreamPacket}
    (hFront : front <+: packets) :
    audioOf front <+: audioOf packets := by
  rcases hFront with ⟨rest, rfl⟩
  rw [audioOf_append]
  exact List.prefix_append _ _

theorem audioOf_publishChunks
    (codec : CodecId)
    (st : PublishLoop)
    (chunks : List Bytes) :
    audioOf
        (chunks.foldl (PublishLoop.publishChunk codec)
          st).publisher.bus =
      audioOf st.publisher.bus ++ chunks.flatten := by
  induction chunks generalizing st with
  | nil => exact (List.append_nil _).symm
  | cons data rest ih =>
      have hLock := (st.lockRate_frame codec data).1
      have hChunk :=
        st.publisher.audio_publishEncoded codec data
      rw [List.foldl_cons, ih, List.flatten_cons,
        ← List.append_assoc]
      congr 1
      simp only [PublishLoop.publishChunk, hLock]
      exact hChunk

/- Without a pipeline the chunks are published as they are. -/
theorem audioOf_leftBy
    {phase : IngestPhase lib E}
    {chunks : List Bytes}
    {bus : List StreamPacket}
    (hPlain : build.transcode = none)
    (hLeft : phase.LeftBy build codec chunks bus) :
    audioOf bus = chunks.flatten := by
  have hLoop :
      build.loopAfter lib E codec chunks =
        .passthrough
          (chunks.foldl (PublishLoop.publishChunk codec)
            (.start build.ingest codec)) := by
    unfold IngestBuild.loopAfter IngestBuild.loop
    simp only [hPlain, foldl_chunk_passthrough]
  have hAudio :=
    audioOf_publishChunks codec
      (.start build.ingest codec) chunks
  have hSame :
      bus = (build.loopAfter lib E codec chunks).bus := by
    cases phase with
    | selecting loop => exact hLeft.bus_eq rfl
    | pacing loop => exact hLeft.bus_eq rfl
    | panicked => exact hLeft
    | returned result =>
        cases result with
        | error error => exact hLeft
        | ok stats =>
            -- There is no pipeline whose tail could follow.
            refine hLeft.2.trans ?_
            rw [hLoop]
            rfl
  rw [hSame, hLoop]
  exact hAudio

/- What the client of a listener takes for audio. -/
def ListenerTask.decoded
    (metaint : Nat)
    (task : ListenerTask) : Bytes :=
  let body :=
    task.pipe.taken.drop (task.headers.getD []).length
  if task.icyRequested then
    Output.icyDecode metaint body
  else
    body

theorem decoded_prefix_heard
    {metaint : Nat}
    {feed : MountFeed}
    {task : ListenerTask}
    (hMetaint : 0 < metaint)
    (hDelivered : Delivered metaint feed task)
    (hFits :
      task.icyRequested = true →
        ∀ displayed ∈ task.shown, Output.FrameFits displayed) :
    task.decoded metaint <+: task.heard := by
  unfold ListenerTask.decoded
  cases hIcy : task.icyRequested with
  | true => exact hDelivered.decoded hMetaint hIcy (hFits hIcy)
  | false => exact hDelivered.plain hIcy

/- Without a lag it is handed one piece of what was sent. -/
theorem received_piece
    {metaint : Nat}
    {feed : MountFeed}
    {task : ListenerTask}
    (hDelivered : Delivered metaint feed task)
    (hLagged : task.subscription.lagged = false) :
    ∃ skipped,
      skipped ++ task.subscription.received <+:
        feed.sender.sent := by
  rcases hDelivered.order with
    ⟨burst, hLive, hBurst, -, hAll⟩
  have hSuffix :
      burst <:+
        feed.sender.sent.take task.subscription.since := by
    cases hHeaders : task.headers.isSome with
    | true =>
        rw [hLive hHeaders]
        exact List.nil_suffix
    | false => exact (hBurst hHeaders).suffix
  rcases hSuffix with ⟨skipped, hSkipped⟩
  rcases hAll hLagged with ⟨rest, hRest⟩
  refine ⟨skipped, rest, ?_⟩
  rw [List.append_assoc, hRest, ← List.append_assoc, hSkipped,
    List.take_append_drop]

/-
  The two sides meet on the bus. `more` is what the source
  may still send.
-/
theorem BroadcastInv.heard
    {s : Broadcast lib E}
    {i : Nat}
    {task : ListenerTask}
    {more : List Bytes}
    (hMetaint : 0 < output.icyMetaint)
    (hInv : BroadcastInv output m build codec s)
    (hTask : s.delivery.handlers[i]? = some (.serving task))
    (hMount : task.mount = m)
    (hLagged : task.subscription.lagged = false)
    (hFits :
      task.icyRequested = true →
        ∀ displayed ∈ task.shown, Output.FrameFits displayed)
    (hPlain : build.transcode = none)
    (hMore : s.ingest.ended = true → more = [])
    (hNotLate :
      codec = .MP3 →
        10 ≤ (s.ingest.given ++ more).flatten.length →
          ¬ LateTagFrame
            (afterId3 (s.ingest.given ++ more).flatten)) :
    ∃ skipped,
      skipped ++ task.decoded output.icyMetaint <+:
        audioOf s.earlier ++
          passthroughAudio codec
            (s.ingest.given ++ more).flatten := by
  -- The listener's side: one piece of what was sent.
  have hDelivery :=
    DeliveryInv.of_reachable hMetaint hInv.delivery
  rcases hDelivery.tasks i task hTask with ⟨feed, hFeed, hOk⟩
  have hDelivered := delivered_of_taskOk hMetaint hOk
  rcases received_piece hDelivered hLagged with
    ⟨before, hPiece⟩
  have hJoined := hInv.joined
  rw [hMount] at hFeed
  rw [Delivery.sentOn, hFeed] at hJoined
  have hSent :
      feed.sender.sent = s.earlier ++ s.ingest.bus :=
    Option.some.inj hJoined
  -- The source's side: a beginning of its audio.
  rcases hInv.ingest.loop with ⟨events, hLoop⟩
  have hBus := audioOf_leftBy hPlain hLoop.left
  rcases hLoop.front.trans (sent_isPrefix hMore) with
    ⟨rest, hRest⟩
  have hSource := drainReader_flatten hNotLate
  rw [← hRest, List.flatten_append] at hSource
  refine ⟨audioOf before, ?_⟩
  calc
    audioOf before ++ task.decoded output.icyMetaint <+:
        audioOf before ++ task.heard :=
      (List.prefix_append_right_inj _).mpr
        (decoded_prefix_heard hMetaint hDelivered hFits)
    _ = audioOf (before ++ task.subscription.received) := by
      rw [audioOf_append, ListenerTask.heard,
        ← List.flatMap_def]
      rfl
    _ <+: audioOf feed.sender.sent := audioOf_prefix hPiece
    _ = audioOf s.earlier ++ audioOf s.ingest.bus := by
      rw [hSent, audioOf_append]
    _ <+:
        audioOf s.earlier ++
          passthroughAudio codec
            (s.ingest.given ++ more).flatten := by
      rw [← hSource, hBus]
      exact
        (List.prefix_append_right_inj _).mpr
          (List.prefix_append _ _)

/-
  However the reader, the loop, the listeners and their
  clients interleave: what a client decodes is one piece of
  what was broadcast, and that is what came before and then
  the source's audio, whatever it still sends.
-/
theorem heard_of_source
    {s : Broadcast lib E}
    {i : Nat}
    {task : ListenerTask}
    {more : List Bytes}
    (hMetaint : 0 < output.icyMetaint)
    (hReach :
      (broadcastMachine output m lib E build
        codec).Reachable s)
    (hTask : s.delivery.handlers[i]? = some (.serving task))
    (hMount : task.mount = m)
    (hLagged : task.subscription.lagged = false)
    (hFits :
      task.icyRequested = true →
        ∀ displayed ∈ task.shown, Output.FrameFits displayed)
    (hPlain : build.transcode = none)
    (hMore : s.ingest.ended = true → more = [])
    (hNotLate :
      codec = .MP3 →
        10 ≤ (s.ingest.given ++ more).flatten.length →
          ¬ LateTagFrame
            (afterId3 (s.ingest.given ++ more).flatten)) :
    ∃ skipped,
      skipped ++ task.decoded output.icyMetaint <+:
        audioOf s.earlier ++
          passthroughAudio codec
            (s.ingest.given ++ more).flatten :=
  (BroadcastInv.of_reachable hReach).heard hMetaint hTask
    hMount hLagged hFits hPlain hMore hNotLate

end RustyIce

------------------------------------------------------------
-- One Source And One Listener
------------------------------------------------------------

namespace RustyIce

/- Nothing has happened on the mount. -/
def Broadcast.oneMount :
    Broadcast Transcode.idle Transcode.recorder where
  earlier := []
  ingest :=
    .start Transcode.idle Transcode.recorder plainBuild .AAC
      false
  delivery := .oneMount

theorem Broadcast.init_oneMount :
    (broadcastMachine everyThird 0 Transcode.idle
          Transcode.recorder plainBuild .AAC).init
      .oneMount :=
  ⟨.start (Delivery.init_oneMount everyThird),
    ⟨.silent, rfl, rfl⟩, false, rfl⟩

/- A listener arrives before the source sends anything. -/
def firstListener : List BroadcastLabel :=
  [.delivery (.arrive 0 true)] ++
    List.replicate 5 (.delivery (.advance 0)) ++
      oneChunk.map .ingest ++
        List.replicate 6 (.delivery (.advance 0)) ++
          [.delivery (.read 0 9)]

theorem heard_of_source_firstListener :
    ∃ s task skipped,
      (broadcastMachine everyThird 0 Transcode.idle
            Transcode.recorder plainBuild .AAC).run
          .oneMount firstListener =
        some s ∧
        s.delivery.handlers[0]? = some (.serving task) ∧
          task.decoded 3 = [1, 2, 3] ∧
            skipped ++ task.decoded 3 <+:
              audioOf s.earlier ++
                Ingest.passthroughAudio .AAC
                  (s.ingest.given ++ []).flatten := by
  have hRuns :
      ∃ s task,
        (broadcastMachine everyThird 0 Transcode.idle
              Transcode.recorder plainBuild .AAC).run
            .oneMount firstListener =
          some s ∧
          s.delivery.handlers[0]? = some (.serving task) ∧
            task.mount = 0 ∧
              task.subscription.lagged = false ∧
                task.shown = [] ∧
                  task.decoded 3 = [1, 2, 3] :=
    ⟨_, _, rfl, rfl, rfl, rfl, rfl, rfl⟩
  rcases hRuns with
    ⟨s, task, hRun, hTask, hMount, hLagged, hShown, hDecoded⟩
  have hReach :=
    Library.Machine.reachable_of_run Broadcast.init_oneMount
      hRun
  have hFits :
      task.icyRequested = true →
        ∀ displayed ∈ task.shown,
          Output.FrameFits displayed := by
    intro _ displayed hMem
    rw [hShown] at hMem
    cases hMem
  rcases
    heard_of_source (by decide) hReach hTask hMount hLagged
      hFits rfl (fun _ => rfl)
      (fun hMp3 => absurd hMp3 (by decide)) with
    ⟨skipped, hHeard⟩
  exact ⟨s, task, skipped, hRun, hTask, hDecoded, hHeard⟩

end RustyIce

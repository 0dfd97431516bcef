import RustyIce.Server.ListenerProgress

/-
  Where the metadata a listener is shown comes from: each
  frame takes the title of the mount at one moment and the
  overlay of its source at a later one, both while the
  listener is there, and a frame takes both of them later
  than the frame before it.

  Main declarations:
    * `ListenerTask.Titles`, `ListenerTask.titles_of_step`
    * `TitlesInOrder`
    * `titles_in_order`
-/

------------------------------------------------------------
-- The Title A Task Holds
------------------------------------------------------------

namespace RustyIce

/- The title read for a frame that is not built yet. -/
def TaskPhase.title : TaskPhase → Option (Option String)
| .overlaying title _ => some title
| _ => none

namespace ListenerTask

/- What a step does to the metadata a task read. -/
inductive Titles
    (feed : MountFeed)
    (task : ListenerTask) : ListenerTask → Prop
| aside
    {after : ListenerTask}
    (hShown : after.shown = task.shown)
    (hTitle :
      after.phase.title = none ∨
        after.phase.title = task.phase.title) :
    Titles feed task after
| title
    {after : ListenerTask}
    (hShown : after.shown = task.shown)
    (hTitle : after.phase.title = some feed.currentTitle) :
    Titles feed task after
| overlay
    {after : ListenerTask}
    {title : Option String}
    (hTitle : task.phase.title = some title)
    (hShown :
      after.shown =
        task.shown ++
          [{ info := task.info
             currentTitle := title
             sourceOverlay := feed.sourceOverlay }])
    (hDone : after.phase.title = none) :
    Titles feed task after

variable {metaint : Nat}
variable {feed : MountFeed}
variable {task after : ListenerTask}

theorem titles_nextChunk
    (metaint : Nat)
    (task : ListenerTask)
    (data : Bytes) :
    (task.nextChunk metaint data).shown = task.shown ∧
      (task.nextChunk metaint data).phase.title = none := by
  cases data with
  | nil => exact ⟨rfl, rfl⟩
  | cons byte data => exact ⟨rfl, rfl⟩

theorem titles_takePacket
    (metaint : Nat)
    (task : ListenerTask)
    (packet : StreamPacket) :
    (task.takePacket metaint packet).shown = task.shown ∧
      (task.takePacket metaint packet).phase.title =
        none := by
  unfold takePacket
  cases packet.payload with
  | decoded frame => exact ⟨rfl, rfl⟩
  | encoded enc =>
      dsimp only
      split
      · exact titles_nextChunk metaint task enc.data
      · exact ⟨rfl, rfl⟩

theorem titles_written
    (metaint : Nat)
    (task : ListenerTask)
    (job : WriteJob) :
    (task.written metaint job).shown = task.shown ∧
      (task.written metaint job).phase.title = none := by
  cases job with
  | headers => exact ⟨rfl, rfl⟩
  | plain count => exact ⟨rfl, rfl⟩
  | chunk count rest =>
      unfold written
      dsimp only
      split
      · exact ⟨rfl, rfl⟩
      · exact titles_nextChunk metaint _ rest
  | frame rest => exact titles_nextChunk metaint _ rest

theorem titles_failed
    (task : ListenerTask)
    (job : WriteJob) :
    (task.failed job).shown = task.shown ∧
      (task.failed job).phase.title = none := by
  cases job with
  | headers => exact ⟨rfl, rfl⟩
  | plain count => exact ⟨rfl, rfl⟩
  | chunk count rest => exact ⟨rfl, rfl⟩
  | frame rest => exact ⟨rfl, rfl⟩

/- Two of a task's steps read what the mount displays. -/
theorem titles_of_step
    {count : Nat}
    (hStep : task.step metaint feed = some (after, count)) :
    Titles feed task after := by
  unfold step at hStep
  split at hStep
  · split at hStep
    · cases hStep
      exact .aside rfl (.inl rfl)
    · cases hStep
      exact .aside rfl (.inl rfl)
  · cases hStep
    have hBoth := titles_written metaint task
    exact .aside (hBoth _).1 (.inl (hBoth _).2)
  · split at hStep
    · cases hStep
      have hBoth := titles_failed task
      exact .aside (hBoth _).1 (.inl (hBoth _).2)
    · cases hStep
    · cases hStep
      exact .aside rfl (.inl rfl)
  · split at hStep
    · cases hStep
      exact .aside rfl (.inl rfl)
    · cases hStep
      exact .aside rfl (.inl rfl)
  · split at hStep
    · split at hStep
      · cases hStep
        exact .aside rfl (.inl rfl)
      · cases hStep
        exact .aside rfl (.inl rfl)
    · cases hStep
      exact .aside rfl (.inr rfl)
    · rename_i packet subscription hNext
      cases hStep
      have hBoth :=
        titles_takePacket metaint
          { task with subscription := subscription } packet
      exact .aside hBoth.1 (.inl hBoth.2)
  · cases hStep
    exact .title rfl rfl
  · rename_i title rest hPhase
    cases hStep
    refine .overlay ?_ rfl rfl
    rw [hPhase]
    rfl
  · cases hStep
  · cases hStep
  · cases hStep
  · cases hStep
  · cases hStep

end ListenerTask

/- A step of the system as it concerns one listener. -/
theorem Delivery.titles_of_touched
    {metaint : Nat}
    {s : Delivery}
    {i : Nat}
    {label : DeliveryLabel}
    {task after : ListenerTask}
    (hTouched : s.Touched metaint i label task after) :
    after.mount = task.mount ∧ after.info = task.info ∧
      (after.shown = task.shown ∧
          (after.phase.title = none ∨
            after.phase.title = task.phase.title) ∨
        ∃ feed,
          s.feeds[task.mount]? = some feed ∧
            ListenerTask.Titles feed task after) := by
  cases hTouched with
  | same => exact ⟨rfl, rfl, .inl ⟨rfl, .inr rfl⟩⟩
  | cancel _ => exact ⟨rfl, rfl, .inl ⟨rfl, .inr rfl⟩⟩
  | read count _ => exact ⟨rfl, rfl, .inl ⟨rfl, .inr rfl⟩⟩
  | disconnect _ => exact ⟨rfl, rfl, .inl ⟨rfl, .inr rfl⟩⟩
  | issue _ _ => exact ⟨rfl, rfl, .inl ⟨rfl, .inl rfl⟩⟩
  | insert _ _ => exact ⟨rfl, rfl, .inl ⟨rfl, .inl rfl⟩⟩
  | unprimed _ _ => exact ⟨rfl, rfl, .inl ⟨rfl, .inl rfl⟩⟩
  | deregister reason _ _ =>
      exact ⟨rfl, rfl, .inl ⟨rfl, .inl rfl⟩⟩
  | move feed after count _ hFeed hStep =>
      have hMoves := ListenerTask.step_moves hStep
      exact
        ⟨hMoves.mount, hMoves.info,
          .inr
            ⟨feed, hFeed,
              ListenerTask.titles_of_step hStep⟩⟩

end RustyIce

------------------------------------------------------------
-- When It Was Read
------------------------------------------------------------

namespace RustyIce

/- After `count` of the labels mount `m` was as `feed` says. -/
structure FeedAt
    (output : Output.HttpPassthroughOutput)
    (s : Delivery)
    (labels : List DeliveryLabel)
    (m count : Nat)
    (feed : MountFeed) : Prop where
  within : count < labels.length
  there :
    ∃ u,
      (deliveryMachine output).run s (labels.take count) =
          some u ∧
        u.feeds[m]? = some feed

/- When the two parts of a frame were read. -/
structure FrameTimes where
  title : Nat
  overlay : Nat

/- What a frame says was there when it was read. -/
structure ReadAt
    (output : Output.HttpPassthroughOutput)
    (s : Delivery)
    (labels : List DeliveryLabel)
    (task : ListenerTask)
    (times : FrameTimes)
    (shown : Output.Displayed) : Prop where
  info : shown.info = task.info
  title :
    ∃ feed,
      FeedAt output s labels task.mount times.title feed ∧
        shown.currentTitle = feed.currentTitle
  overlay :
    ∃ feed,
      FeedAt output s labels task.mount times.overlay feed ∧
        shown.sourceOverlay = feed.sourceOverlay
  order : times.title < times.overlay

/-
  Every frame of a listener has its times, and those of a
  frame come after those of the frame before it.
-/
def TitlesInOrder
    (output : Output.HttpPassthroughOutput)
    (s : Delivery)
    (labels : List DeliveryLabel)
    (task : ListenerTask) : Prop :=
  ∃ reads : List FrameTimes,
    List.Forall₂ (ReadAt output s labels task) reads
        task.shown ∧
      reads.Pairwise fun early late =>
        early.overlay < late.title

variable {output : Output.HttpPassthroughOutput}
variable {s t u : Delivery}
variable {labels : List DeliveryLabel}
variable {label : DeliveryLabel}
variable {m count : Nat}
variable {feed : MountFeed}

/- A run that goes on went through the same states. -/
theorem FeedAt.more
    (hAt : FeedAt output s labels m count feed)
    (label : DeliveryLabel) :
    FeedAt output s (labels ++ [label]) m count feed where
  within := by
    rw [List.length_append]
    exact Nat.lt_add_right _ hAt.within
  there := by
    rw [List.take_append_of_le_length
      (Nat.le_of_lt hAt.within)]
    exact hAt.there

theorem feedAt_last
    (hRun :
      (deliveryMachine output).run s labels = some u)
    (hFeed : u.feeds[m]? = some feed)
    (label : DeliveryLabel) :
    FeedAt output s (labels ++ [label]) m labels.length
      feed where
  within := by
    rw [List.length_append]
    exact Nat.lt_succ_self _
  there := by
    rw [List.take_left]
    exact ⟨u, hRun, hFeed⟩

theorem ReadAt.more
    {task after : ListenerTask}
    {times : FrameTimes}
    {shown : Output.Displayed}
    (hRead : ReadAt output s labels task times shown)
    (hMount : after.mount = task.mount)
    (hInfo : after.info = task.info)
    (label : DeliveryLabel) :
    ReadAt output s (labels ++ [label]) after times
      shown where
  info := hRead.info.trans hInfo.symm
  title := by
    rcases hRead.title with ⟨feed, hAt, hTitle⟩
    rw [hMount]
    exact ⟨feed, hAt.more label, hTitle⟩
  overlay := by
    rcases hRead.overlay with ⟨feed, hAt, hOverlay⟩
    rw [hMount]
    exact ⟨feed, hAt.more label, hOverlay⟩
  order := hRead.order

/-
  The times so far, all before the time of the title a task
  holds for its next frame.
-/
structure ReadsSoFar
    (output : Output.HttpPassthroughOutput)
    (s : Delivery)
    (labels : List DeliveryLabel)
    (task : ListenerTask)
    (reads : List FrameTimes) : Prop where
  frames :
    List.Forall₂ (ReadAt output s labels task) reads
      task.shown
  order :
    reads.Pairwise fun early late => early.overlay < late.title
  within :
    ∀ times ∈ reads, times.overlay < labels.length
  held :
    ∀ title,
      task.phase.title = some title →
        ∃ count feed,
          FeedAt output s labels task.mount count feed ∧
            title = feed.currentTitle ∧
              ∀ times ∈ reads, times.overlay < count

namespace ReadsSoFar

variable {task after : ListenerTask}
variable {reads : List FrameTimes}

theorem subscribe
    (feed : MountFeed)
    (m : Nat)
    (icy : Bool)
    (info : MountInfo)
    (headers : Option Bytes) :
    ReadsSoFar output s labels
      (.subscribe feed m icy info headers) [] where
  frames := .nil
  order := .nil
  within := List.forall_mem_nil _
  held := by
    intro title hNever
    cases hNever

/- The times of the frames that are there already. -/
theorem frames_more
    (hReads : ReadsSoFar output s labels task reads)
    (hMount : after.mount = task.mount)
    (hInfo : after.info = task.info)
    (label : DeliveryLabel) :
    List.Forall₂ (ReadAt output s (labels ++ [label]) after)
      reads task.shown :=
  hReads.frames.imp fun _ _ hRead =>
    hRead.more hMount hInfo label

theorem within_more
    (hReads : ReadsSoFar output s labels task reads)
    (label : DeliveryLabel) :
    ∀ times ∈ reads,
      times.overlay < (labels ++ [label]).length := by
  intro times hMem
  rw [List.length_append]
  exact Nat.lt_add_right _ (hReads.within times hMem)

/- A step that reads nothing of the mount's. -/
theorem aside
    (hReads : ReadsSoFar output s labels task reads)
    (hMount : after.mount = task.mount)
    (hInfo : after.info = task.info)
    (hShown : after.shown = task.shown)
    (hTitle :
      after.phase.title = none ∨
        after.phase.title = task.phase.title)
    (label : DeliveryLabel) :
    ReadsSoFar output s (labels ++ [label]) after reads where
  frames := by
    rw [hShown]
    exact hReads.frames_more hMount hInfo label
  order := hReads.order
  within := hReads.within_more label
  held := by
    intro title hHeld
    rcases hTitle with hNone | hSame
    · rw [hNone] at hHeld
      cases hHeld
    · rw [hSame] at hHeld
      rcases hReads.held title hHeld with
        ⟨count, feed, hAt, hIs, hLater⟩
      rw [hMount]
      exact ⟨count, feed, hAt.more label, hIs, hLater⟩

/- The step of the run. -/
theorem step
    (hReads : ReadsSoFar output s labels task reads)
    (hRun :
      (deliveryMachine output).run s labels = some u)
    (hFeed : u.feeds[task.mount]? = some feed)
    (hMount : after.mount = task.mount)
    (hInfo : after.info = task.info)
    (hTitles : ListenerTask.Titles feed task after)
    (label : DeliveryLabel) :
    ∃ more,
      ReadsSoFar output s (labels ++ [label]) after more := by
  have hNow := feedAt_last hRun hFeed label
  cases hTitles with
  | aside hShown hTitle =>
      exact
        ⟨reads, hReads.aside hMount hInfo hShown hTitle label⟩
  | title hShown hTitle =>
      refine ⟨reads, ?_⟩
      constructor
      · rw [hShown]
        exact hReads.frames_more hMount hInfo label
      · exact hReads.order
      · exact hReads.within_more label
      · intro title hHeld
        rw [hTitle] at hHeld
        cases hHeld
        rw [hMount]
        exact ⟨labels.length, feed, hNow, rfl, hReads.within⟩
  | @overlay title hTitle hShown hDone =>
      rcases hReads.held title hTitle with
        ⟨count, early, hAt, hIs, hLater⟩
      refine
        ⟨reads ++
            [{ title := count
               overlay := labels.length }], ?_⟩
      constructor
      · rw [hShown]
        refine
          List.rel_append
            (hReads.frames_more hMount hInfo label) ?_
        refine .cons ?_ .nil
        constructor
        · exact hInfo.symm
        · rw [hMount]
          exact ⟨early, hAt.more label, hIs⟩
        · rw [hMount]
          exact ⟨feed, hNow, rfl⟩
        · exact hAt.within
      · rw [List.pairwise_append]
        refine ⟨hReads.order, List.pairwise_singleton _ _, ?_⟩
        intro times hMem late hLate
        rw [List.mem_singleton.mp hLate]
        exact hLater times hMem
      · intro times hMem
        rcases List.mem_append.mp hMem with hOld | hNew
        · exact hReads.within_more label times hOld
        · rw [List.mem_singleton.mp hNew, List.length_append]
          exact Nat.lt_succ_self _
      · intro title hNever
        rw [hDone] at hNever
        cases hNever

end ReadsSoFar

/- The run, from before any listener came. -/
theorem readsSoFar_of_run
    {i : Nat}
    {task : ListenerTask}
    (hInit : (deliveryMachine output).init s)
    (hRun :
      (deliveryMachine output).run s labels = some t)
    (hTask : t.handlers[i]? = some (.serving task)) :
    ∃ reads, ReadsSoFar output s labels task reads := by
  induction labels using List.reverseRecOn
    generalizing t task with
  | nil =>
      cases hRun
      rcases hInit with ⟨-, -, -, hNobody⟩
      rw [hNobody] at hTask
      cases hTask
  | append_singleton before label ih =>
      rw [Library.Machine.run_append] at hRun
      rcases Option.bind_eq_some_iff.mp hRun with
        ⟨u, hBefore, hLast⟩
      rw [Library.Machine.run_singleton] at hLast
      rcases Delivery.comes_of_step hLast hTask with
        ⟨old, hOld, hTouched⟩ |
          ⟨feed, m, icy, info, headers, rfl⟩
      · rcases ih hBefore hOld with ⟨reads, hReads⟩
        rcases Delivery.titles_of_touched hTouched with
          ⟨hMount, hInfo,
            ⟨hShown, hTitle⟩ | ⟨feed, hFeed, hTitles⟩⟩
        · exact
            ⟨reads,
              hReads.aside hMount hInfo hShown hTitle label⟩
        · exact
            hReads.step hBefore hFeed hMount hInfo hTitles
              label
      · exact ⟨[], .subscribe feed m icy info headers⟩

/-
  However the titles and overlays of a mount change while its
  listeners are served.
-/
theorem titles_in_order
    {i : Nat}
    {task : ListenerTask}
    (hInit : (deliveryMachine output).init s)
    (hRun :
      (deliveryMachine output).run s labels = some t)
    (hTask : t.handlers[i]? = some (.serving task)) :
    TitlesInOrder output s labels task := by
  rcases readsSoFar_of_run hInit hRun hTask with
    ⟨reads, hReads⟩
  exact ⟨reads, hReads.frames, hReads.order⟩

end RustyIce

------------------------------------------------------------
-- A Frame Of Two Moments
------------------------------------------------------------

namespace RustyIce

/- A source that only says where it is at home. -/
def linkedOverlay (url : String) : SourceOverlay where
  name := none
  description := none
  genre := none
  url := some url
  isPublic := none
  audioInfo := none
  bitrateKbps := none

/-
  Between the two reads of a frame the title is cleared and a
  source comes.
-/
def betweenReads : List DeliveryLabel :=
  [.setTitle 0 (some "song"), .arrive 0 true] ++
    List.replicate 7 (.advance 0) ++
      [.publish 0 (mp3Packet [1, 2, 3])] ++
        List.replicate 4 (.advance 0) ++
          [.setTitle 0 none,
            .setOverlay 0 (some (linkedOverlay "live")),
            .advance 0]

/- The old title is shown with the address of the source. -/
theorem titles_in_order_betweenReads :
    ∃ t task,
      (deliveryMachine everyThird).run .oneMount
          betweenReads =
        some t ∧
        t.handlers[0]? = some (.serving task) ∧
          task.shown =
              [{ info := MountFeed.silent.info
                 currentTitle := some "song"
                 sourceOverlay :=
                   some (linkedOverlay "live") }] ∧
            TitlesInOrder everyThird .oneMount betweenReads
              task := by
  have hRun :
      (deliveryMachine everyThird).run .oneMount
          betweenReads =
        some _ :=
    rfl
  exact
    ⟨_, _, hRun, rfl, rfl,
      titles_in_order (i := 0)
        (Delivery.init_oneMount everyThird) hRun rfl⟩

end RustyIce

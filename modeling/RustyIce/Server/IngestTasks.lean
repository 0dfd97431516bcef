import RustyIce.Ingest.Passthrough
import RustyIce.Ingest.ReaderTask
import RustyIce.Server.IngestEndings

/-
  The two tasks of an ingest: the reader that drains the
  network, the paced publish loop, and between them the
  channel, the token both listen to and the slot the reader
  parks its error in. Every look at the token, every access
  to the slot and the channel is one step.

  Main declarations:
    * `ReaderTask`, `LoopPoint`, `IngestTasks`
    * `TasksLabel`, `IngestTasks.step`, `tasksMachine`
-/

------------------------------------------------------------
-- The Two Tasks
------------------------------------------------------------

namespace RustyIce

open Ingest Transcode

variable {Sample : Type}

/-
  Where `drain_reader` is: at a `select!`, whose look at the
  token is over once it is `polled`, behind the prefix, on
  its way out with an error or without, or gone, with its end
  of the channel dropped.
-/
inductive ReaderTask where
| reading (polled : Bool) (phase : ReaderPhase)
| stripped
| parking (error : IoError)
| aborting
| returning
| done
deriving DecidableEq, Repr

/- How far a poll of the publish loop's `select!` has come. -/
inductive LoopPoint where
| entering
| uncancelled
| unaborted
deriving DecidableEq, Repr

/-
  Both tasks and what they share. The reads so far, the error
  of a read and the packets on the bus are kept to speak of.
-/
structure IngestTasks
    (lib : Symphonia Sample)
    (E : Engines Sample) where
  given : List Bytes
  ended : Bool
  failure : Option IoError
  reader : ReaderTask
  queue : List Bytes
  receiverOpen : Bool
  cancelled : Bool
  errorSlot : Option IoError
  aborted : Bool
  phase : IngestPhase lib E
  point : LoopPoint
  bus : List StreamPacket

/-
  What happens next: the token is cancelled, the reader looks
  at it, its read gives bytes, ends, fails or is pending, or
  it does what follows; the loop's poll goes on, with the
  clock past what it paces to or not; the loop has ended and
  the reader is aborted, or the receiver dropped.
-/
inductive TasksLabel where
| cancel
| readerPolls
| gives (data : Bytes)
| ends
| fails (error : IoError)
| pends
| readerGoes
| loopPolls (late : Bool)
| reaped
| left
deriving DecidableEq, Repr

namespace IngestLoop

variable {lib : Symphonia Sample}
variable {E : Engines Sample}

/- What the loop has published. -/
def bus : IngestLoop lib E → List StreamPacket
| .passthrough st => st.publisher.bus
| .transcoding _ st => st.source.publisher.bus

/- With the tail of its pipeline. -/
def finishBus : IngestLoop lib E → List StreamPacket
| .passthrough st => st.publisher.bus
| .transcoding config st =>
    (finishPipeline (outputCodecFor config.format)
      st.pipeline st.source.publisher).bus

end IngestLoop

namespace IngestPhase

variable {lib : Symphonia Sample}
variable {E : Engines Sample}

/- The loop has broken off, or its task has panicked. -/
def Over : IngestPhase lib E → Bool
| .selecting _ => false
| .pacing _ => false
| .returned _ => true
| .panicked => true

/- A rate the clock is behind of waits for nothing. -/
def unlessLate
    (late : Bool) : IngestPhase lib E → IngestPhase lib E
| .pacing loop => if late then .selecting loop else .pacing loop
| .selecting loop => .selecting loop
| .returned result => .returned result
| .panicked => .panicked

end IngestPhase

namespace IngestTasks

variable {lib : Symphonia Sample}
variable {E : Engines Sample}

/- Chunks sent, which are dropped without a receiver. -/
def send
    (s : IngestTasks lib E)
    (chunks : List Bytes) : IngestTasks lib E :=
  if s.receiverOpen then
    { s with queue := s.queue ++ chunks }
  else
    s

/- The reader behind a read that gave bytes. -/
def afterRead
    (s : IngestTasks lib E)
    (phase next : ReaderPhase) : ReaderTask :=
  match phase with
  | .forwarding =>
      -- Only here does the reader look at what `send` says.
      if s.receiverOpen then .reading false .forwarding
      else .returning
  | _ =>
      match next with
      | .forwarding => .stripped
      | next => .reading false next

def readGives
    (chunkSize : Nat)
    (s : IngestTasks lib E)
    (data : Bytes) : Option (IngestTasks lib E) :=
  match s.reader with
  | .reading true phase =>
      -- An end of the source stays one.
      if s.ended ∨ data = [] ∨ chunkSize < data.length then
        none
      else
        let next := phase.read data
        some
          { s.send next.2 with
            given := s.given ++ [data]
            reader := s.afterRead phase next.1 }
  | _ => none

def readEnds
    (s : IngestTasks lib E) : Option (IngestTasks lib E) :=
  match s.reader with
  | .reading true .forwarding =>
      some { s with ended := true, reader := .returning }
  | .reading true phase =>
      some
        { s.send phase.eof with
          ended := true
          reader := .stripped }
  | _ => none

/-
  What the reader does without a read. Behind a failure in
  the prefix it finds the abort and returns as well.
-/
def readerGoes
    (s : IngestTasks lib E) : Option (IngestTasks lib E) :=
  match s.reader with
  | .stripped =>
      if s.cancelled ∨ s.aborted ∨ ¬ s.receiverOpen then
        some { s with reader := .returning }
      else
        some { s with reader := .reading false .forwarding }
  | .parking error =>
      some { s with errorSlot := some error, reader := .aborting }
  | .aborting =>
      some { s with aborted := true, reader := .returning }
  | .returning => some { s with reader := .done }
  | _ => none

/- The loop takes an event and is back at a `select!`. -/
def hear
    (codec : CodecId)
    (late : Bool)
    (s : IngestTasks lib E)
    (event : IngestEvent) : Option (IngestTasks lib E) :=
  (s.phase.step codec event).map fun phase =>
    { s with phase := phase.unlessLate late, point := .entering }

/- The branches of a `select!` in order, each one step. -/
def loopPolls
    (codec : CodecId)
    (s : IngestTasks lib E)
    (late : Bool) : Option (IngestTasks lib E) :=
  if s.phase.Over then
    none
  else
    match s.point with
    | .entering =>
        if s.cancelled then
          s.hear codec late .cancelled
        else
          some { s with point := .uncancelled }
    | .uncancelled =>
        if s.aborted then
          match s.errorSlot with
          | none => some { s with phase := .panicked }
          | some error =>
              ({ s with errorSlot := none } :
                IngestTasks lib E).hear codec late
                  (.aborted error)
        else
          some { s with point := .unaborted }
    | .unaborted =>
        match s.phase with
        | .selecting loop =>
            match s.queue with
            | data :: rest =>
                ({ s with
                    queue := rest
                    bus := (loop.chunk codec data).bus } :
                  IngestTasks lib E).hear codec late
                    (.received data)
            | [] =>
                if s.reader = .done then
                  ({ s with bus := loop.finishBus } :
                    IngestTasks lib E).hear codec late .closed
                else
                  some { s with point := .entering }
        | .pacing _ =>
            if late then
              s.hear codec late .paced
            else
              some { s with point := .entering }
        | _ => none

def step
    (chunkSize : Nat)
    (codec : CodecId)
    (s : IngestTasks lib E) :
    TasksLabel → Option (IngestTasks lib E)
| .cancel => some { s with cancelled := true }
| .readerPolls =>
    match s.reader with
    | .reading false phase =>
        if s.cancelled then
          some { s with reader := .returning }
        else
          some { s with reader := .reading true phase }
    | _ => none
| .gives data => s.readGives chunkSize data
| .ends => s.readEnds
| .fails error =>
    match s.reader with
    | .reading true _ =>
        some
          { s with
            failure := some error
            reader := .parking error }
    | _ => none
| .pends =>
    match s.reader with
    | .reading true phase =>
        some { s with reader := .reading false phase }
    | _ => none
| .readerGoes => s.readerGoes
| .loopPolls late => s.loopPolls codec late
| .reaped =>
    match s.phase, s.reader with
    | .returned _, .reading false _ =>
        some { s with reader := .done }
    | _, _ => none
| .left =>
    if s.phase.Over then some { s with receiverOpen := false }
    else none

end IngestTasks

/- Nothing read, nothing sent, the loop at its `select!`. -/
def IngestTasks.start
    (lib : Symphonia Sample)
    (E : Engines Sample)
    (build : IngestBuild)
    (codec : CodecId)
    (cancelled : Bool) : IngestTasks lib E where
  given := []
  ended := false
  failure := none
  reader := .reading false (.start codec)
  queue := []
  receiverOpen := true
  cancelled := cancelled
  errorSlot := none
  aborted := false
  phase := build.start lib E codec
  point := .entering
  bus := []

def tasksMachine
    (lib : Symphonia Sample)
    (E : Engines Sample)
    (build : IngestBuild)
    (codec : CodecId) :
    Library.Machine (IngestTasks lib E) TasksLabel where
  init := fun s =>
    ∃ cancelled, s = .start lib E build codec cancelled
  step := fun s =>
    s.step build.ingest.chunkSize codec

end RustyIce

------------------------------------------------------------
-- What The Reader Has Sent
------------------------------------------------------------

namespace RustyIce

open Ingest Transcode

variable {Sample : Type}
variable {lib : Symphonia Sample}
variable {E : Engines Sample}
variable {codec : CodecId}
variable {chunkSize : Nat}
variable {s s' : IngestTasks lib E}

/- The chunks of the reads so far, sent before or after. -/
def IngestTasks.sent
    (codec : CodecId)
    (s : IngestTasks lib E) : List Bytes :=
  if s.ended then
    drainReader codec s.given
  else
    ((ReaderPhase.start codec).feed s.given).2

/- The parked error is in its slot until the loop takes it. -/
def IngestTasks.Parked (s : IngestTasks lib E) : Prop :=
  s.failure ≠ none ∧
    (s.phase.Over = false → s.errorSlot = s.failure)

/- Where the reader is in the source, and how it got there. -/
def ReaderTask.Follows
    (codec : CodecId)
    (s : IngestTasks lib E) : ReaderTask → Prop
| .reading _ phase =>
    s.aborted = false ∧
      if s.ended then
        phase = .forwarding
      else
        phase = ((ReaderPhase.start codec).feed s.given).1
| .stripped =>
    s.aborted = false ∧
      (s.ended = false →
        ((ReaderPhase.start codec).feed s.given).1 =
          .forwarding)
| .parking error =>
    s.aborted = false ∧ s.failure = some error
| .aborting => s.aborted = false ∧ s.Parked
| .returning =>
    (s.phase.Over = false →
        s.ended = true ∨ s.cancelled = true ∨
          s.aborted = true) ∧
      (s.aborted = true → s.Parked)
| .done =>
    (s.phase.Over = false →
        s.ended = true ∨ s.cancelled = true ∨
          s.aborted = true) ∧
      (s.aborted = true → s.Parked)

structure ReaderInv
    (codec : CodecId)
    (s : IngestTasks lib E) : Prop where
  listening : s.phase.Over = false → s.receiverOpen = true
  reader : s.reader.Follows codec s

/- Every read gives something that fits the buffer. -/
def IngestTasks.Fits
    (chunkSize : Nat)
    (s : IngestTasks lib E) : Prop :=
  ∀ data ∈ s.given, data ≠ [] ∧ data.length ≤ chunkSize

/- A step of the reader, as the loop sees it. -/
structure ReaderMove
    (chunkSize : Nat)
    (codec : CodecId)
    (s s' : IngestTasks lib E) : Prop where
  fits : s.Fits chunkSize → s'.Fits chunkSize
  phase : s'.phase = s.phase
  bus : s'.bus = s.bus
  receiverOpen : s'.receiverOpen = s.receiverOpen
  cancelled : s'.cancelled = s.cancelled
  aborted :
    s.aborted = true →
      s'.aborted = true ∧ s'.failure = s.failure
  ended : s.ended = true → s'.ended = true
  running : s.reader ≠ .done
  queue :
    ∃ chunks,
      s'.sent codec = s.sent codec ++ chunks ∧
        (s.receiverOpen = true → s'.queue = s.queue ++ chunks)

namespace IngestTasks

/- Sending changes the queue alone. -/
theorem send_frame
    (s : IngestTasks lib E)
    (chunks : List Bytes) :
    s.send chunks =
      { s with
        queue :=
          if s.receiverOpen then s.queue ++ chunks
          else s.queue } := by
  unfold send
  split_ifs <;> rfl

theorem afterRead_cases
    (s : IngestTasks lib E)
    (phase : ReaderPhase)
    (data : Bytes) :
    s.afterRead phase (phase.read data).1 =
        .reading false (phase.read data).1 ∨
      (s.afterRead phase (phase.read data).1 = .stripped ∧
          (phase.read data).1 = .forwarding) ∨
        (s.afterRead phase (phase.read data).1 = .returning ∧
          s.receiverOpen = false) := by
  have hPrefix :
      ∀ next : ReaderPhase,
        (match next with
          | .forwarding => ReaderTask.stripped
          | next => .reading false next) =
            .reading false next ∨
          ((match next with
              | .forwarding => ReaderTask.stripped
              | next => .reading false next) =
                .stripped ∧
            next = .forwarding) := by
    intro next
    cases next with
    | heading head => exact Or.inl rfl
    | skipping toSkip => exact Or.inl rfl
    | tagged pending => exact Or.inl rfl
    | forwarding => exact Or.inr ⟨rfl, rfl⟩
  cases phase with
  | heading head => exact (hPrefix _).imp id Or.inl
  | skipping toSkip => exact (hPrefix _).imp id Or.inl
  | tagged pending => exact (hPrefix _).imp id Or.inl
  | forwarding =>
      unfold afterRead
      cases hOpen : s.receiverOpen with
      | true => exact Or.inl rfl
      | false => exact Or.inr (Or.inr ⟨rfl, rfl⟩)

theorem sent_gives
    {data : Bytes}
    (hNotEnded : s.ended = false)
    (hGiven : s'.given = s.given ++ [data])
    (hEnded : s'.ended = s.ended) :
    s'.sent codec =
      s.sent codec ++
        (((ReaderPhase.start codec).feed s.given).1.read
          data).2 := by
  simp only [sent, hGiven, hEnded, hNotEnded,
    Bool.false_eq_true, if_false, ReaderPhase.feed_snoc]

theorem readerMove_of_gives
    {data : Bytes}
    (hInv : ReaderInv codec s)
    (hStep : s.readGives chunkSize data = some s') :
    ReaderMove chunkSize codec s s' ∧ ReaderInv codec s' := by
  unfold readGives at hStep
  split at hStep
  · rename_i phase hReader
    have hFollows := hInv.reader
    rw [hReader] at hFollows
    rcases hFollows with ⟨hAborted, hPhase⟩
    split_ifs at hStep with hGuard
    push Not at hGuard
    have hNotEnded : s.ended = false := by simpa using hGuard.1
    rw [if_neg hGuard.1] at hPhase
    have hNext :=
      congrArg Prod.fst
        ((ReaderPhase.start codec).feed_snoc s.given data)
    rw [← hPhase] at hNext
    simp only [send_frame] at hStep
    cases hStep
    constructor
    · exact
        { fits := by
            intro hFits part hPart
            rcases List.mem_append.mp hPart with hOld | hNew
            · exact hFits part hOld
            · rw [List.mem_singleton.mp hNew]
              exact hGuard.2
          phase := rfl
          bus := rfl
          receiverOpen := rfl
          cancelled := rfl
          aborted := fun hAborted => ⟨hAborted, rfl⟩
          ended := id
          running := by simp [hReader]
          queue := by
            refine ⟨(phase.read data).2, ?_, ?_⟩
            · rw [hPhase]
              exact sent_gives hNotEnded rfl rfl
            · intro hReceiver
              simp only [hReceiver, if_true] }
    · refine ⟨hInv.listening, ?_⟩
      rcases s.afterRead_cases phase data with
        hReads | ⟨hStrips, hForwards⟩ | ⟨hReturns, hClosed⟩
      · simp only [hReads, ReaderTask.Follows, hNotEnded,
          hAborted, Bool.false_eq_true, if_false, true_and]
        exact hNext.symm
      · simp only [hStrips, ReaderTask.Follows, hAborted,
          true_and]
        intro _
        exact hNext.trans hForwards
      · simp only [hReturns, ReaderTask.Follows, hAborted,
          Bool.false_eq_true, false_imp_iff, and_true]
        intro hRunning
        simp [hInv.listening hRunning] at hClosed
  · cases hStep

theorem sent_ends
    {polled : Bool}
    {phase : ReaderPhase}
    (hFollows :
      (ReaderTask.reading polled phase).Follows codec s)
    (hGiven : s'.given = s.given)
    (hEnded : s'.ended = true) :
    s'.sent codec = s.sent codec ++ phase.eof := by
  have hPhase := hFollows.2
  unfold sent
  rw [hGiven, if_pos hEnded]
  split_ifs at hPhase ⊢ with hBefore
  · rw [hPhase]
    exact (List.append_nil _).symm
  · rw [hPhase]
    exact drainReader_eq_whole codec s.given

theorem readerMove_of_ends
    (hInv : ReaderInv codec s)
    (hStep : s.readEnds = some s') :
    ReaderMove chunkSize codec s s' ∧ ReaderInv codec s' := by
  unfold readEnds at hStep
  have hFollows := hInv.reader
  split at hStep
  · rename_i hReader
    rw [hReader] at hFollows
    cases hStep
    constructor
    · exact
        { fits := id
          phase := rfl
          bus := rfl
          receiverOpen := rfl
          cancelled := rfl
          aborted := fun hAborted => ⟨hAborted, rfl⟩
          ended := fun _ => rfl
          running := by simp [hReader]
          queue :=
            ⟨[], sent_ends hFollows rfl rfl,
              fun _ => (List.append_nil _).symm⟩ }
    · refine ⟨hInv.listening, fun _ => Or.inl rfl, ?_⟩
      intro hAborted
      simp [hFollows.1] at hAborted
  · rename_i phase _ hReader
    rw [hReader] at hFollows
    simp only [send_frame] at hStep
    cases hStep
    constructor
    · exact
        { fits := id
          phase := rfl
          bus := rfl
          receiverOpen := rfl
          cancelled := rfl
          aborted := fun hAborted => ⟨hAborted, rfl⟩
          ended := fun _ => rfl
          running := by simp [hReader]
          queue := by
            refine
              ⟨phase.eof, sent_ends hFollows rfl rfl, ?_⟩
            intro hReceiver
            simp only [hReceiver, if_true] }
    · exact ⟨hInv.listening, hFollows.1, nofun⟩
  · cases hStep

/- A step that neither reads nor sends. -/
theorem readerMove_of_quiet
    (hPhase : s'.phase = s.phase)
    (hBus : s'.bus = s.bus)
    (hReceiver : s'.receiverOpen = s.receiverOpen)
    (hCancelled : s'.cancelled = s.cancelled)
    (hAborted :
      s.aborted = true →
        s'.aborted = true ∧ s'.failure = s.failure)
    (hGiven : s'.given = s.given)
    (hEnded : s'.ended = s.ended)
    (hQueue : s'.queue = s.queue)
    (hRunning : s.reader ≠ .done) :
    ReaderMove chunkSize codec s s' where
  fits := by
    rw [Fits, Fits, hGiven]
    exact id
  phase := hPhase
  bus := hBus
  receiverOpen := hReceiver
  cancelled := hCancelled
  aborted := hAborted
  ended := fun hBefore => hEnded.trans hBefore
  running := hRunning
  queue := by
    refine ⟨[], ?_, ?_⟩
    · rw [sent, sent, hEnded, hGiven, List.append_nil]
    · intro _
      rw [hQueue, List.append_nil]

theorem readerMove_of_goes
    (hInv : ReaderInv codec s)
    (hStep : s.readerGoes = some s') :
    ReaderMove chunkSize codec s s' ∧ ReaderInv codec s' := by
  unfold readerGoes at hStep
  have hFollows := hInv.reader
  have hListening := hInv.listening
  split at hStep
  · rename_i hReader
    rw [hReader] at hFollows
    split_ifs at hStep with hOut
    · cases hStep
      constructor
      · apply readerMove_of_quiet <;> simp [hReader]
      · refine ⟨hListening, ?_, ?_⟩
        · intro hRunning
          rcases hOut with hCancelled | hAborted | hClosed
          · exact Or.inr (Or.inl hCancelled)
          · exact Or.inr (Or.inr hAborted)
          · exact absurd (hListening hRunning) hClosed
        · intro hAborted
          simp [hFollows.1] at hAborted
    · cases hStep
      constructor
      · apply readerMove_of_quiet <;> simp [hReader]
      · refine ⟨hListening, hFollows.1, ?_⟩
        split_ifs with hEnded
        · rfl
        · exact (hFollows.2 (by simpa using hEnded)).symm
  · rename_i error hReader
    rw [hReader] at hFollows
    cases hStep
    constructor
    · apply readerMove_of_quiet <;> simp [hReader]
    · refine ⟨hListening, hFollows.1, ?_, ?_⟩
      · simp [hFollows.2]
      · intro _
        exact hFollows.2.symm
  · rename_i hReader
    rw [hReader] at hFollows
    cases hStep
    constructor
    · apply readerMove_of_quiet <;> simp [hReader]
    · refine ⟨hListening, ?_, ?_⟩
      · exact fun _ => Or.inr (Or.inr rfl)
      · exact fun _ => hFollows.2
  · rename_i hReader
    rw [hReader] at hFollows
    cases hStep
    constructor
    · apply readerMove_of_quiet <;> simp [hReader]
    · exact ⟨hListening, hFollows⟩
  · cases hStep

theorem readerMove_of_fails
    {polled : Bool}
    {phase : ReaderPhase}
    (hInv : ReaderInv codec s)
    (hReader : s.reader = .reading polled phase)
    (error : IoError) :
    ReaderMove chunkSize codec s
        { s with
          failure := some error
          reader := .parking error } ∧
      ReaderInv codec
        { s with
          failure := some error
          reader := .parking error } := by
  have hFollows := hInv.reader
  rw [hReader] at hFollows
  constructor
  · apply readerMove_of_quiet <;>
      simp [hReader, hFollows.1]
  · exact ⟨hInv.listening, hFollows.1, rfl⟩

/- A look at the token, or a read that is pending. -/
theorem readerMove_of_polls
    {polled : Bool}
    {phase : ReaderPhase}
    {next : ReaderTask}
    (hInv : ReaderInv codec s)
    (hReader : s.reader = .reading polled phase)
    (hNext :
      (∃ again, next = .reading again phase) ∨
        (next = .returning ∧ s.cancelled = true)) :
    ReaderMove chunkSize codec s { s with reader := next } ∧
      ReaderInv codec { s with reader := next } := by
  have hFollows := hInv.reader
  rw [hReader] at hFollows
  constructor
  · apply readerMove_of_quiet <;> simp [hReader]
  · refine ⟨hInv.listening, ?_⟩
    rcases hNext with ⟨again, rfl⟩ | ⟨rfl, hCancelled⟩
    · exact hFollows
    · refine ⟨fun _ => Or.inr (Or.inl hCancelled), ?_⟩
      intro hAborted
      simp [hFollows.1] at hAborted

end IngestTasks

end RustyIce

------------------------------------------------------------
-- What The Loop Has Done
------------------------------------------------------------

namespace RustyIce

open Ingest Transcode

variable {Sample : Type}
variable {lib : Symphonia Sample}
variable {E : Engines Sample}
variable {build : IngestBuild}
variable {codec : CodecId}
variable {s s' : IngestTasks lib E}
variable {events : List IngestEvent}

namespace IngestBuild

/- The loop a build starts with. -/
def loop
    (lib : Symphonia Sample)
    (E : Engines Sample)
    (build : IngestBuild)
    (codec : CodecId) : IngestLoop lib E :=
  match build.transcode with
  | none => .passthrough (.start build.ingest codec)
  | some config =>
      .transcoding config
        (.start build.ingest config build.transcodeComments
          codec)

theorem start_eq_selecting
    (lib : Symphonia Sample)
    (E : Engines Sample)
    (build : IngestBuild)
    (codec : CodecId) :
    build.start lib E codec =
      .selecting (build.loop lib E codec) := by
  unfold start loop
  cases build.transcode with
  | none => rfl
  | some config => rfl

/- The same loop over chunks that nothing interrupts. -/
def loopAfter
    (lib : Symphonia Sample)
    (E : Engines Sample)
    (build : IngestBuild)
    (codec : CodecId)
    (chunks : List Bytes) : IngestLoop lib E :=
  chunks.foldl (fun loop data => loop.chunk codec data)
    (build.loop lib E codec)

theorem loopAfter_snoc
    (chunks : List Bytes)
    (data : Bytes) :
    build.loopAfter lib E codec (chunks ++ [data]) =
      (build.loopAfter lib E codec chunks).chunk codec
        data := by
  rw [loopAfter, List.foldl_concat]
  rfl

end IngestBuild

/- What is left behind by chunks, wherever the loop is. -/
def IngestPhase.LeftBy
    (build : IngestBuild)
    (codec : CodecId)
    (chunks : List Bytes)
    (bus : List StreamPacket) : IngestPhase lib E → Prop
| .selecting loop =>
    loop = build.loopAfter lib E codec chunks ∧
      bus = loop.bus
| .pacing loop =>
    loop = build.loopAfter lib E codec chunks ∧
      bus = loop.bus
| .returned (.ok stats) =>
    stats = (build.loopAfter lib E codec chunks).finish ∧
      bus = (build.loopAfter lib E codec chunks).finishBus
| .returned (.error _) =>
    bus = (build.loopAfter lib E codec chunks).bus
| .panicked =>
    bus = (build.loopAfter lib E codec chunks).bus

/- Why the loop has ended, if it has. -/
def IngestPhase.Excused
    (s : IngestTasks lib E)
    (unsent : Prop) : IngestPhase lib E → Prop
| .selecting _ => True
| .pacing _ => True
| .returned (.ok _) =>
    s.reader = .done ∧ unsent ∧
      (s.ended = true ∨ s.cancelled = true ∨
        s.aborted = true)
| .returned (.error .cancelled) => s.cancelled = true
| .returned (.error (.io error)) =>
    s.aborted = true ∧ s.failure = some error
| .returned (.error .mountBusy) => False
| .returned (.error (.transcodeInit _)) => False
| .panicked => True

/-
  The loop as a run of its own over these events, whose
  chunks are the front of what the reader has sent.
-/
structure LoopInv
    (build : IngestBuild)
    (codec : CodecId)
    (s : IngestTasks lib E)
    (events : List IngestEvent) : Prop where
  run :
    (ingestMachine lib E build codec).run
        (build.start lib E codec) events =
      some s.phase
  front : receivedChunks events <+: s.sent codec
  queued :
    s.phase.Over = false →
      receivedChunks events ++ s.queue = s.sent codec
  left :
    s.phase.LeftBy build codec (receivedChunks events) s.bus
  excused :
    s.phase.Excused s (receivedChunks events = s.sent codec)

end RustyIce

------------------------------------------------------------
-- Steps Of Both Tasks
------------------------------------------------------------

namespace RustyIce

open Ingest Transcode

variable {Sample : Type}
variable {lib : Symphonia Sample}
variable {E : Engines Sample}
variable {build : IngestBuild}
variable {codec : CodecId}
variable {s s' : IngestTasks lib E}
variable {events : List IngestEvent}

/- The loop's run is not touched by a step of the reader. -/
theorem LoopInv.readerMove
    {chunkSize : Nat}
    (hInv : LoopInv build codec s events)
    (hReader : ReaderInv codec s)
    (hMove : ReaderMove chunkSize codec s s') :
    LoopInv build codec s' events := by
  rcases hMove.queue with ⟨chunks, hSent, hQueue⟩
  constructor
  · rw [hMove.phase]
    exact hInv.run
  · rw [hSent]
    exact hInv.front.trans (List.prefix_append _ _)
  · rw [hMove.phase, hSent]
    intro hRunning
    rw [hQueue (hReader.listening hRunning),
      ← List.append_assoc, hInv.queued hRunning]
  · rw [hMove.phase, hMove.bus]
    exact hInv.left
  · have hExcused := hInv.excused
    rw [hMove.phase]
    revert hExcused
    cases s.phase with
    | selecting loop => exact id
    | pacing loop => exact id
    | panicked => exact id
    | returned result =>
        cases result with
        | ok stats =>
            exact fun hExcused =>
              absurd hExcused.1 hMove.running
        | error error =>
            cases error with
            | cancelled =>
                intro hExcused
                exact hMove.cancelled.trans hExcused
            | io error =>
                rintro ⟨hAborted, hFailure⟩
                rcases hMove.aborted hAborted with
                  ⟨hStill, hSame⟩
                exact ⟨hStill, hSame.trans hFailure⟩
            | mountBusy => exact id
            | transcodeInit message => exact id

theorem Publisher.bus_prefix_publishEncoded
    (outputCodec : CodecId)
    (st : Publisher)
    (data : Bytes) :
    st.bus <+: (st.publishEncoded outputCodec data).bus := by
  rw [publishEncoded, (st.captureHeaders_frame data).1]
  exact List.prefix_append _ _

namespace IngestLoop

/- A chunk only adds to the bus. -/
theorem bus_prefix_chunk
    (loop : IngestLoop lib E)
    (data : Bytes) :
    loop.bus <+: (loop.chunk codec data).bus := by
  cases loop with
  | passthrough st =>
      have hLock := (st.lockRate_frame codec data).1
      simp only [chunk, bus, PublishLoop.publishChunk, hLock]
      exact Publisher.bus_prefix_publishEncoded _ _ _
  | transcoding config st =>
      have hLock := (st.source.lockRate_frame codec data).1
      simp only [chunk, bus, TranscodeLoop.pushChunk]
      cases hPush : st.pipeline.push data with
      | mk result next =>
          cases result with
          | error e =>
              simp only [hLock]
              exact List.prefix_refl _
          | ok out =>
              simp only [TranscodeLoop.publishOutput]
              split_ifs with hNone
              · simp only [hLock]
                exact List.prefix_refl _
              · simp only [hLock]
                exact Publisher.bus_prefix_publishEncoded _ _ _

/- So does the tail of a pipeline. -/
theorem bus_prefix_finishBus (loop : IngestLoop lib E) :
    loop.bus <+: loop.finishBus := by
  cases loop with
  | passthrough st => exact List.prefix_refl _
  | transcoding config st =>
      simp only [bus, finishBus, finishPipeline]
      split
      · exact List.prefix_refl _
      · split_ifs with hNone
        · exact List.prefix_refl _
        · exact List.prefix_append _ _

end IngestLoop

/- A step of the loop, as the reader sees it. -/
structure LoopMove (s s' : IngestTasks lib E) : Prop where
  given : s'.given = s.given
  ended : s'.ended = s.ended
  failure : s'.failure = s.failure
  reader : s'.reader = s.reader
  receiverOpen : s'.receiverOpen = s.receiverOpen
  cancelled : s'.cancelled = s.cancelled
  aborted : s'.aborted = s.aborted
  running : s.phase.Over = false
  errorSlot :
    s'.phase.Over = false → s'.errorSlot = s.errorSlot
  bus : s.bus <+: s'.bus

theorem ReaderInv.loopMove
    (hInv : ReaderInv codec s)
    (hMove : LoopMove s s') :
    ReaderInv codec s' := by
  have hParked : s.Parked → s'.Parked := by
    rintro ⟨hFailed, hSlot⟩
    rw [IngestTasks.Parked, hMove.failure]
    refine ⟨hFailed, fun hRunning => ?_⟩
    rw [hMove.errorSlot hRunning, hSlot hMove.running]
  have hOut :
      (s.phase.Over = false →
          s.ended = true ∨ s.cancelled = true ∨
            s.aborted = true) ∧
          (s.aborted = true → s.Parked) →
        (s'.phase.Over = false →
            s'.ended = true ∨ s'.cancelled = true ∨
              s'.aborted = true) ∧
          (s'.aborted = true → s'.Parked) := by
    rintro ⟨hLeaving, hAborted⟩
    rw [hMove.ended, hMove.cancelled, hMove.aborted]
    exact ⟨fun _ => hLeaving hMove.running,
      fun hNow => hParked (hAborted hNow)⟩
  have hFollows := hInv.reader
  constructor
  · intro _
    rw [hMove.receiverOpen]
    exact hInv.listening hMove.running
  · rw [hMove.reader]
    revert hFollows
    cases s.reader with
    | returning => exact hOut
    | done => exact hOut
    | aborting =>
        rintro ⟨hAborted, hSlot⟩
        exact ⟨hMove.aborted.trans hAborted, hParked hSlot⟩
    | reading polled phase =>
        simp only [ReaderTask.Follows, hMove.aborted,
          hMove.ended, hMove.given, imp_self]
    | stripped =>
        simp only [ReaderTask.Follows, hMove.aborted,
          hMove.ended, hMove.given, imp_self]
    | parking error =>
        simp only [ReaderTask.Follows, hMove.aborted,
          hMove.failure, imp_self]

end RustyIce

------------------------------------------------------------
-- A Poll Of The Loop
------------------------------------------------------------

namespace RustyIce

open Ingest Transcode

variable {Sample : Type}
variable {lib : Symphonia Sample}
variable {E : Engines Sample}
variable {build : IngestBuild}
variable {codec : CodecId}
variable {s s' : IngestTasks lib E}
variable {events : List IngestEvent}

/- An error that is announced is in the slot. -/
theorem ReaderInv.parked
    (hInv : ReaderInv codec s)
    (hAborted : s.aborted = true) :
    s.Parked := by
  have hFollows := hInv.reader
  revert hFollows
  cases s.reader with
  | returning => exact fun hFollows => hFollows.2 hAborted
  | done => exact fun hFollows => hFollows.2 hAborted
  | aborting => exact fun hFollows => hFollows.2
  | reading polled phase =>
      intro hFollows
      simp [hFollows.1] at hAborted
  | stripped =>
      intro hFollows
      simp [hFollows.1] at hAborted
  | parking error =>
      intro hFollows
      simp [hFollows.1] at hAborted

theorem hear_cases
    {late : Bool}
    {event : IngestEvent}
    (hHear : s.hear codec late event = some s') :
    ∃ next,
      s.phase.step codec event = some next ∧
        s' =
          { s with
            phase := next.unlessLate late
            point := .entering } := by
  unfold IngestTasks.hear at hHear
  cases hStep : s.phase.step codec event with
  | none => simp [hStep] at hHear
  | some next =>
      rw [hStep] at hHear
      cases hHear
      exact ⟨next, rfl, rfl⟩

/- The run goes on, by the end of a wait too if it is late. -/
theorem run_hear
    {phase next : IngestPhase lib E}
    {event : IngestEvent}
    (late : Bool)
    (hRun :
      (ingestMachine lib E build codec).run
          (build.start lib E codec) events =
        some phase)
    (hStep : phase.step codec event = some next) :
    ∃ more,
      (ingestMachine lib E build codec).run
            (build.start lib E codec) more =
          some (next.unlessLate late) ∧
        receivedChunks more =
          receivedChunks events ++ receivedChunks [event] := by
  have hOne :
      (ingestMachine lib E build codec).run
          (build.start lib E codec) (events ++ [event]) =
        some next := by
    rw [Library.Machine.run_append, hRun, Option.bind_some,
      Library.Machine.run_singleton]
    exact hStep
  have hSame :
      next.unlessLate late = next →
        ∃ more,
          (ingestMachine lib E build codec).run
                (build.start lib E codec) more =
              some (next.unlessLate late) ∧
            receivedChunks more =
              receivedChunks events ++
                receivedChunks [event] := by
    intro hStays
    rw [hStays]
    exact ⟨_, hOne, List.filterMap_append⟩
  cases next with
  | selecting loop => exact hSame rfl
  | returned result => exact hSame rfl
  | panicked => exact hSame rfl
  | pacing loop =>
      cases late with
      | false => exact hSame rfl
      | true =>
          refine ⟨events ++ [event] ++ [.paced], ?_, ?_⟩
          · rw [Library.Machine.run_append, hOne,
              Option.bind_some, Library.Machine.run_singleton]
            rfl
          · rw [receivedChunks, List.filterMap_append,
              List.filterMap_append]
            exact List.append_nil _

/- A running loop has published what its chunks say. -/
theorem IngestPhase.LeftBy.bus_eq
    {phase : IngestPhase lib E}
    {chunks : List Bytes}
    {bus : List StreamPacket}
    (hLeft : phase.LeftBy build codec chunks bus)
    (hRunning : phase.Over = false) :
    bus = (build.loopAfter lib E codec chunks).bus := by
  cases phase with
  | selecting loop => rw [← hLeft.1, hLeft.2]
  | pacing loop => rw [← hLeft.1, hLeft.2]
  | returned result => cases hRunning
  | panicked => cases hRunning

/- An event that breaks the loop off with an error. -/
theorem loopInv_broken
    {event : IngestEvent}
    {error : IngestError}
    (hInv : LoopInv build codec s events)
    (hRunning : s.phase.Over = false)
    (hStep :
      s.phase.step codec event =
        some (.returned (.error error)))
    (hNone : receivedChunks [event] = [])
    (hPhase : s'.phase = .returned (.error error))
    (hBus : s'.bus = s.bus)
    (hSent : s'.sent codec = s.sent codec)
    (hExcused :
      ∀ unsent,
        (IngestPhase.returned (.error error) :
            IngestPhase lib E).Excused s' unsent) :
    ∃ more, LoopInv build codec s' more := by
  rcases run_hear false hInv.run hStep with ⟨more, hRun, hMore⟩
  rw [hNone, List.append_nil] at hMore
  refine ⟨more, ?_, ?_, ?_, ?_, ?_⟩
  · rw [hPhase]
    exact hRun
  · rw [hMore, hSent]
    exact hInv.front
  · rw [hPhase]
    exact nofun
  · rw [hPhase, hBus, hMore]
    exact hInv.left.bus_eq hRunning
  · rw [hPhase]
    exact hExcused _

/- A step that only moves the poll on. -/
theorem loopInv_point
    (hInv : LoopInv build codec s events)
    (point : LoopPoint) :
    LoopInv build codec { s with point := point } events where
  run := hInv.run
  front := hInv.front
  queued := hInv.queued
  left := hInv.left
  excused := hInv.excused

theorem IngestPhase.step_cancelled
    (codec : CodecId)
    {phase : IngestPhase lib E}
    (hRunning : phase.Over = false) :
    phase.step codec .cancelled =
      some (.returned (.error .cancelled)) := by
  cases phase with
  | selecting loop => rfl
  | pacing loop => rfl
  | returned result => cases hRunning
  | panicked => cases hRunning

theorem IngestPhase.step_aborted
    (codec : CodecId)
    {phase : IngestPhase lib E}
    (hRunning : phase.Over = false)
    (error : IoError) :
    phase.step codec (.aborted error) =
      some (.returned (.error (.io error))) := by
  cases phase with
  | selecting loop => rfl
  | pacing loop => rfl
  | returned result => cases hRunning
  | panicked => cases hRunning

/- Behind a chunk the loop goes on, waits or has panicked. -/
theorem IngestLoop.onChunk_cases
    (late : Bool)
    (loop : IngestLoop lib E)
    (data : Bytes) :
    (IngestPhase.onChunk codec loop data).unlessLate late =
        .selecting (loop.chunk codec data) ∨
      (IngestPhase.onChunk codec loop data).unlessLate late =
          .pacing (loop.chunk codec data) ∨
        (IngestPhase.onChunk codec loop data).unlessLate
            late =
          .panicked := by
  unfold IngestPhase.onChunk IngestPhase.afterChunk
  split_ifs
  · exact Or.inr (Or.inr rfl)
  · cases (loop.chunk codec data).pacingBps with
    | none => exact Or.inl rfl
    | some bps =>
        cases bps with
        | zero => exact Or.inr (Or.inr rfl)
        | succ bps =>
            cases late with
            | false => exact Or.inr (Or.inl rfl)
            | true => exact Or.inl rfl

/- A pipeline that panics at the end publishes no tail. -/
theorem IngestLoop.finishBus_of_panics
    {loop : IngestLoop lib E}
    (hPanics : loop.panicsAtEnd = true) :
    loop.finishBus = loop.bus := by
  cases loop with
  | passthrough st => rfl
  | transcoding config st =>
      simp only [panicsAtEnd, TranscodeLoop.panicsAtEnd]
        at hPanics
      simp only [finishBus, finishPipeline, bus]
      cases hFlush : st.pipeline.flush.1 with
      | error e => rfl
      | ok tail =>
          rw [hFlush] at hPanics
          cases hPanics

/- A chunk is taken off the queue and published. -/
theorem loopInv_received
    {late : Bool}
    {loop : IngestLoop lib E}
    {data : Bytes}
    {rest : List Bytes}
    {next : IngestPhase lib E}
    (hInv : LoopInv build codec s events)
    (hPhase : s.phase = .selecting loop)
    (hQueue : s.queue = data :: rest)
    (hStep :
      s.phase.step codec (.received data) = some next) :
    ∃ more,
      LoopInv build codec
        { s with
          queue := rest
          bus := (loop.chunk codec data).bus
          phase := next.unlessLate late
          point := .entering }
        more := by
  rcases run_hear late hInv.run hStep with ⟨more, hRun, hMore⟩
  have hTaken :
      receivedChunks events ++ [data] ++ rest =
        s.sent codec := by
    rw [List.append_assoc, List.singleton_append, ← hQueue]
    exact hInv.queued (by rw [hPhase]; rfl)
  have hLoop := hInv.left
  rw [hPhase] at hLoop hStep
  have hNext : next = .onChunk codec loop data := by
    rw [IngestPhase.step] at hStep
    split_ifs at hStep
    exact (Option.some.inj hStep).symm
  have hChunks :
      loop.chunk codec data =
        build.loopAfter lib E codec (receivedChunks more) := by
    rw [hMore, hLoop.1]
    exact (IngestBuild.loopAfter_snoc _ _).symm
  refine ⟨more, hRun, ?_, ?_, ?_, ?_⟩
  · rw [hMore]
    exact ⟨rest, hTaken⟩
  · intro _
    rw [hMore]
    exact hTaken
  · rcases IngestLoop.onChunk_cases late loop data with
      hGoes | hWaits | hPanics
    · rw [hNext, hGoes]
      exact ⟨hChunks, rfl⟩
    · rw [hNext, hWaits]
      exact ⟨hChunks, rfl⟩
    · rw [hNext, hPanics]
      exact congrArg IngestLoop.bus hChunks
  · rcases IngestLoop.onChunk_cases late loop data with
      hGoes | hWaits | hPanics
    · rw [hNext, hGoes]
      exact trivial
    · rw [hNext, hWaits]
      exact trivial
    · rw [hNext, hPanics]
      exact trivial

/- The channel is empty and the reader's end dropped. -/
theorem loopInv_closed
    {late : Bool}
    {loop : IngestLoop lib E}
    {next : IngestPhase lib E}
    (hReader : ReaderInv codec s)
    (hInv : LoopInv build codec s events)
    (hPhase : s.phase = .selecting loop)
    (hQueue : s.queue = [])
    (hDone : s.reader = .done)
    (hStep : s.phase.step codec .closed = some next) :
    ∃ more,
      LoopInv build codec
        { s with
          bus := loop.finishBus
          phase := next.unlessLate late
          point := .entering }
        more := by
  rcases run_hear late hInv.run hStep with ⟨more, hRun, hMore⟩
  have hRunning : s.phase.Over = false := by
    rw [hPhase]
    rfl
  have hTaken := hInv.queued hRunning
  rw [hQueue, List.append_nil] at hTaken
  have hSame : receivedChunks more = receivedChunks events := by
    rw [hMore]
    exact List.append_nil _
  have hLoop := hInv.left
  rw [hPhase] at hLoop hStep
  rw [IngestPhase.step] at hStep
  cases hStep
  have hFollows := hReader.reader
  rw [hDone] at hFollows
  have hFront :
      receivedChunks more <+: s.sent codec := by
    rw [hSame]
    exact hInv.front
  unfold IngestPhase.onEnd at hRun ⊢
  split_ifs at hRun ⊢ with hPanics
  · refine ⟨more, hRun, hFront, nofun, ?_, trivial⟩
    rw [hSame, IngestLoop.finishBus_of_panics hPanics]
    exact congrArg IngestLoop.bus hLoop.1
  · refine ⟨more, hRun, hFront, nofun, ?_, ?_⟩
    · rw [hSame]
      exact
        ⟨congrArg IngestLoop.finish hLoop.1,
          congrArg IngestLoop.finishBus hLoop.1⟩
    · refine ⟨hDone, ?_, hFollows.1 hRunning⟩
      rw [hSame]
      exact hTaken

/- The wait is over. -/
theorem loopInv_paced
    {late : Bool}
    {next : IngestPhase lib E}
    (hInv : LoopInv build codec s events)
    (hStep : s.phase.step codec .paced = some next) :
    ∃ more,
      LoopInv build codec
        { s with
          phase := next.unlessLate late
          point := .entering }
        more := by
  rcases run_hear late hInv.run hStep with ⟨more, hRun, hMore⟩
  have hSame : receivedChunks more = receivedChunks events := by
    rw [hMore]
    exact List.append_nil _
  have hLoop := hInv.left
  have hQueued := hInv.queued
  refine ⟨more, hRun, ?_, ?_, ?_, ?_⟩
  · rw [hSame]
    exact hInv.front
  all_goals
    revert hLoop hQueued hStep
    rw [hSame]
    cases s.phase with
    | selecting loop => exact nofun
    | returned result => exact nofun
    | panicked => exact nofun
    | pacing loop =>
        rintro hStep hLoop hQueued
        cases hStep
        first
          | exact hLoop
          | exact hQueued
          | exact trivial

/- A poll that finds its task cancelled, or goes on. -/
theorem loopMove_of_entering
    {late : Bool}
    (hInv : LoopInv build codec s events)
    (hRunning : s.phase.Over = false)
    (hCancelled : s.cancelled = true)
    (hHear : s.hear codec late .cancelled = some s') :
    LoopMove s s' ∧ ∃ more, LoopInv build codec s' more := by
  rcases hear_cases hHear with ⟨next, hNext, rfl⟩
  have hBroken :=
    IngestPhase.step_cancelled codec hRunning
  rw [hBroken] at hNext
  cases hNext
  constructor
  · exact ⟨rfl, rfl, rfl, rfl, rfl, rfl, rfl, hRunning, nofun,
      List.prefix_refl _⟩
  · exact
      loopInv_broken hInv hRunning hBroken rfl rfl rfl rfl
        fun _ => hCancelled

/- The error that made the reader stop is taken. -/
theorem loopMove_of_uncancelled
    {late : Bool}
    {error : IoError}
    (hReader : ReaderInv codec s)
    (hInv : LoopInv build codec s events)
    (hRunning : s.phase.Over = false)
    (hAborted : s.aborted = true)
    (hSlot : s.errorSlot = some error)
    (hHear :
      ({ s with errorSlot := none } :
          IngestTasks lib E).hear codec late
            (.aborted error) =
        some s') :
    LoopMove s s' ∧ ∃ more, LoopInv build codec s' more := by
  rcases hear_cases hHear with ⟨next, hNext, rfl⟩
  have hBroken :=
    IngestPhase.step_aborted codec hRunning error
  rw [hBroken] at hNext
  cases hNext
  have hFailure := (hReader.parked hAborted).2 hRunning
  rw [hSlot] at hFailure
  constructor
  · exact ⟨rfl, rfl, rfl, rfl, rfl, rfl, rfl, hRunning, nofun,
      List.prefix_refl _⟩
  · exact
      loopInv_broken hInv hRunning hBroken rfl rfl rfl rfl
        fun _ => ⟨hAborted, hFailure.symm⟩

/- Every part of a poll, by what the loop finds. -/
theorem loopMove_of_polls
    {late : Bool}
    (hReader : ReaderInv codec s)
    (hInv : LoopInv build codec s events)
    (hStep : s.loopPolls codec late = some s') :
    LoopMove s s' ∧ ∃ more, LoopInv build codec s' more := by
  unfold IngestTasks.loopPolls at hStep
  by_cases hOver : s.phase.Over = true
  · simp [hOver] at hStep
  have hRunning : s.phase.Over = false := by simpa using hOver
  rw [if_neg hOver] at hStep
  have hPoint :
      ∀ point,
        some ({ s with point := point } : IngestTasks lib E) =
            some s' →
          LoopMove s s' ∧
            ∃ more, LoopInv build codec s' more := by
    intro point hSame
    cases hSame
    refine ⟨?_, events, loopInv_point hInv point⟩
    exact ⟨rfl, rfl, rfl, rfl, rfl, rfl, rfl, hRunning,
      fun _ => rfl, List.prefix_refl _⟩
  have hLoop :
      ∀ {loop : IngestLoop lib E},
        s.phase = .selecting loop → s.bus = loop.bus := by
    intro loop hPhase
    have hLeft := hInv.left
    rw [hPhase] at hLeft
    exact hLeft.2
  split at hStep
  · by_cases hCancelled : s.cancelled = true
    · rw [if_pos hCancelled] at hStep
      exact
        loopMove_of_entering hInv hRunning hCancelled hStep
    · rw [if_neg hCancelled] at hStep
      exact hPoint _ hStep
  · by_cases hAborted : s.aborted = true
    · rw [if_pos hAborted] at hStep
      split at hStep
      · rename_i hSlot
        have hParked := hReader.parked hAborted
        rw [IngestTasks.Parked, hSlot] at hParked
        exact absurd (hParked.2 hRunning).symm hParked.1
      · rename_i error hSlot
        exact
          loopMove_of_uncancelled hReader hInv hRunning
            hAborted hSlot hStep
    · rw [if_neg hAborted] at hStep
      exact hPoint _ hStep
  · split at hStep
    · rename_i loop hPhase
      split at hStep
      · rename_i data rest hQueue
        rcases hear_cases hStep with ⟨next, hNext, rfl⟩
        constructor
        · refine ⟨rfl, rfl, rfl, rfl, rfl, rfl, rfl, hRunning,
            fun _ => rfl, ?_⟩
          rw [hLoop hPhase]
          exact loop.bus_prefix_chunk data
        · exact
            loopInv_received (s := s) hInv hPhase hQueue hNext
      · rename_i hQueue
        by_cases hDone : s.reader = .done
        · rw [if_pos hDone] at hStep
          rcases hear_cases hStep with ⟨next, hNext, rfl⟩
          constructor
          · refine ⟨rfl, rfl, rfl, rfl, rfl, rfl, rfl,
              hRunning, fun _ => rfl, ?_⟩
            rw [hLoop hPhase]
            exact loop.bus_prefix_finishBus
          · exact
              loopInv_closed (s := s) hReader hInv hPhase
                hQueue hDone hNext
        · rw [if_neg hDone] at hStep
          exact hPoint _ hStep
    · cases late with
      | false =>
          rw [if_neg Bool.false_ne_true] at hStep
          exact hPoint _ hStep
      | true =>
          rw [if_pos rfl] at hStep
          rcases hear_cases hStep with ⟨next, hNext, rfl⟩
          constructor
          · exact ⟨rfl, rfl, rfl, rfl, rfl, rfl, rfl,
              hRunning, fun _ => rfl, List.prefix_refl _⟩
          · exact loopInv_paced hInv hNext
    · cases hStep

/- The token is cancelled: nothing else changes. -/
theorem loopInv_cancel
    (hInv : LoopInv build codec s events) :
    LoopInv build codec { s with cancelled := true } events where
  run := hInv.run
  front := hInv.front
  queued := hInv.queued
  left := hInv.left
  excused := by
    have hExcused := hInv.excused
    change s.phase.Excused { s with cancelled := true } _
    revert hExcused
    cases s.phase with
    | selecting loop => exact id
    | pacing loop => exact id
    | panicked => exact id
    | returned result =>
        cases result with
        | ok stats =>
            rintro ⟨hDone, hAll, -⟩
            exact ⟨hDone, hAll, Or.inr (Or.inl rfl)⟩
        | error error =>
            cases error with
            | cancelled => exact fun _ => rfl
            | io error => exact id
            | mountBusy => exact id
            | transcodeInit message => exact id

theorem readerInv_cancel
    (hInv : ReaderInv codec s) :
    ReaderInv codec { s with cancelled := true } := by
  have hFollows := hInv.reader
  refine ⟨hInv.listening, ?_⟩
  change s.reader.Follows codec { s with cancelled := true }
  revert hFollows
  cases s.reader with
  | returning =>
      exact fun hFollows =>
        ⟨fun _ => Or.inr (Or.inl rfl), hFollows.2⟩
  | done =>
      exact fun hFollows =>
        ⟨fun _ => Or.inr (Or.inl rfl), hFollows.2⟩
  | aborting => exact id
  | reading polled phase => exact id
  | stripped => exact id
  | parking error => exact id

/- The loop has returned: its reader is aborted at its read. -/
theorem inv_reaped
    {result : Except IngestError SourceStats}
    {polled : Bool}
    {phase : ReaderPhase}
    (hReader : ReaderInv codec s)
    (hInv : LoopInv build codec s events)
    (hPhase : s.phase = .returned result)
    (hReading : s.reader = .reading polled phase) :
    ReaderInv codec { s with reader := .done } ∧
      LoopInv build codec { s with reader := .done } events := by
  have hFollows := hReader.reader
  rw [hReading] at hFollows
  constructor
  · refine ⟨hReader.listening, ?_, ?_⟩
    · rw [hPhase]
      exact nofun
    · intro hAborted
      simp [hFollows.1] at hAborted
  · refine
      ⟨hInv.run, hInv.front, hInv.queued, hInv.left, ?_⟩
    have hExcused := hInv.excused
    simp only [hPhase] at hExcused ⊢
    cases result with
    | ok stats =>
        have hDone := hExcused.1
        rw [hReading] at hDone
        cases hDone
    | error error =>
        cases error with
        | cancelled => exact hExcused
        | io error => exact hExcused
        | mountBusy => exact hExcused
        | transcodeInit message => exact hExcused

theorem inv_left
    (hReader : ReaderInv codec s)
    (hInv : LoopInv build codec s events)
    (hOver : s.phase.Over = true) :
    ReaderInv codec { s with receiverOpen := false } ∧
      LoopInv build codec { s with receiverOpen := false }
        events := by
  constructor
  · refine ⟨?_, ?_⟩
    · intro hRunning
      have hBoth := hOver.symm.trans hRunning
      cases hBoth
    · have hFollows := hReader.reader
      change s.reader.Follows codec _
      revert hFollows
      cases s.reader <;> exact id
  · refine
      ⟨hInv.run, hInv.front, hInv.queued, hInv.left, ?_⟩
    exact hInv.excused

end RustyIce

------------------------------------------------------------
-- Every Reachable State
------------------------------------------------------------

namespace RustyIce

open Ingest Transcode

variable {Sample : Type}
variable {lib : Symphonia Sample}
variable {E : Engines Sample}
variable {build : IngestBuild}
variable {codec : CodecId}
variable {s s' : IngestTasks lib E}

structure TasksInv
    (build : IngestBuild)
    (codec : CodecId)
    (s : IngestTasks lib E) : Prop where
  fits : s.Fits build.ingest.chunkSize
  reader : ReaderInv codec s
  loop : ∃ events, LoopInv build codec s events

theorem tasksInv_start (cancelled : Bool) :
    TasksInv build codec
      (.start lib E build codec cancelled) := by
  have hPhase :
      (IngestTasks.start lib E build codec cancelled).phase =
        .selecting (build.loop lib E codec) :=
    build.start_eq_selecting lib E codec
  constructor
  · exact nofun
  · exact ⟨fun _ => rfl, rfl, rfl⟩
  · refine ⟨[], rfl, List.nil_prefix, fun _ => rfl, ?_, ?_⟩
    · rw [hPhase]
      refine ⟨rfl, ?_⟩
      unfold IngestBuild.loop
      cases build.transcode with
      | none => rfl
      | some config => rfl
    · rw [hPhase]
      exact trivial

theorem tasksInv_step
    {label : TasksLabel}
    (hInv : TasksInv build codec s)
    (hStep :
      s.step build.ingest.chunkSize codec label = some s') :
    TasksInv build codec s' ∧ s.bus <+: s'.bus := by
  rcases hInv with ⟨hFits, hReader, events, hLoop⟩
  -- A step of the reader keeps the loop's run.
  have hMoved :
      ReaderMove build.ingest.chunkSize codec s s' ∧
          ReaderInv codec s' →
        TasksInv build codec s' ∧ s.bus <+: s'.bus := by
    rintro ⟨hMove, hNext⟩
    refine
      ⟨⟨hMove.fits hFits, hNext, events,
        hLoop.readerMove hReader hMove⟩, ?_⟩
    rw [hMove.bus]
  cases label with
  | cancel =>
      cases hStep
      exact
        ⟨⟨hFits, readerInv_cancel hReader, events,
          loopInv_cancel hLoop⟩, List.prefix_refl _⟩
  | readerPolls =>
      unfold IngestTasks.step at hStep
      dsimp only at hStep
      split at hStep
      · rename_i phase hReading
        split_ifs at hStep with hCancelled
        · cases hStep
          exact hMoved
            (IngestTasks.readerMove_of_polls hReader hReading
              (Or.inr ⟨rfl, hCancelled⟩))
        · cases hStep
          exact hMoved
            (IngestTasks.readerMove_of_polls hReader hReading
              (Or.inl ⟨true, rfl⟩))
      · cases hStep
  | gives data =>
      exact hMoved (IngestTasks.readerMove_of_gives hReader hStep)
  | ends =>
      exact hMoved (IngestTasks.readerMove_of_ends hReader hStep)
  | fails error =>
      unfold IngestTasks.step at hStep
      dsimp only at hStep
      split at hStep
      · rename_i phase hReading
        cases hStep
        exact hMoved
          (IngestTasks.readerMove_of_fails hReader hReading
            error)
      · cases hStep
  | pends =>
      unfold IngestTasks.step at hStep
      dsimp only at hStep
      split at hStep
      · rename_i phase hReading
        cases hStep
        exact hMoved
          (IngestTasks.readerMove_of_polls hReader hReading
            (Or.inl ⟨false, rfl⟩))
      · cases hStep
  | readerGoes =>
      exact hMoved (IngestTasks.readerMove_of_goes hReader hStep)
  | loopPolls late =>
      rcases loopMove_of_polls hReader hLoop hStep with
        ⟨hMove, hNext⟩
      refine
        ⟨⟨?_, hReader.loopMove hMove, hNext⟩, hMove.bus⟩
      rw [IngestTasks.Fits, hMove.given]
      exact hFits
  | reaped =>
      unfold IngestTasks.step at hStep
      dsimp only at hStep
      split at hStep
      · rename_i hPhase hReading
        cases hStep
        rcases inv_reaped hReader hLoop hPhase hReading with
          ⟨hNextReader, hNextLoop⟩
        exact
          ⟨⟨hFits, hNextReader, events, hNextLoop⟩,
            List.prefix_refl _⟩
      · cases hStep
  | left =>
      unfold IngestTasks.step at hStep
      dsimp only at hStep
      split_ifs at hStep with hOver
      cases hStep
      rcases inv_left hReader hLoop hOver with
        ⟨hNextReader, hNextLoop⟩
      exact
        ⟨⟨hFits, hNextReader, events, hNextLoop⟩,
          List.prefix_refl _⟩

theorem TasksInv.of_reachable
    (hReach : (tasksMachine lib E build codec).Reachable s) :
    TasksInv build codec s := by
  refine
    Library.Machine.ReachableUnder.invariant ?_ ?_ hReach
  · rintro s ⟨cancelled, rfl⟩
    exact tasksInv_start cancelled
  · intro s label t hInv _ hStep
    exact (tasksInv_step hInv hStep).1

end RustyIce

import RustyIce.Server.Broadcast
import RustyIce.Server.RequestBody

/-
  A source's connection from its first byte to the clients of
  its listeners: the request's head, the readers of its body,
  the two tasks of the ingest they feed, the bus and the
  listeners' tasks, all running beside each other.

  What the client of a listener that never lagged decodes is
  one piece of what went over the mount before and of the
  audio in the request's body, whatever its framing and in
  whatever pieces it came.

  Main declarations:
    * `Wire`, `WireLabel`, `Wire.step`, `wireMachine`
    * `SourceStream.told`, `StreamMove`
    * `WireInv`
    * `heard_of_request`
-/

------------------------------------------------------------
-- A Connection And Its Ingest
------------------------------------------------------------

namespace RustyIce

open Ingest Transcode

variable {Sample : Type}

/- The readers of a request's body, and what they feed. -/
structure Wire
    (lib : Symphonia Sample)
    (E : Engines Sample) where
  stream : SourceStream
  cast : Broadcast lib E

/-
  A step of the connection, of what it feeds, or a packet of
  the source that has the mount before this one comes to it.
-/
inductive WireLabel where
| stream (label : StreamLabel)
| cast (label : BroadcastLabel)
| previous (packet : StreamPacket)
deriving DecidableEq, Repr

namespace SourceStream

/- The readers have found the end of the body. -/
def AtEnd (s : SourceStream) : Bool :=
  match s.phase with
  | .body _ _ (.ended .eof) => true
  | _ => false

/- What a call that is over says of its read. -/
def answer (s t : SourceStream) : Option TasksLabel :=
  match t.phase with
  | .body _ _ .between =>
      some (.gives (t.handed.drop s.handed.length))
  | .body _ _ (.ended .eof) => some .ends
  | .body _ _ (.ended (.failed e)) => some (.fails e)
  | _ => none

/- What a step from `s` to `t` tells the ingest's reader. -/
def told (s t : SourceStream) : StreamLabel → Option TasksLabel
| .advance => s.answer t
| .replay => s.answer t
| .read _ => s.answer t
| .pending => some .pends
| .breaks e => some (.fails e)
| _ => none

end SourceStream

namespace Wire

variable {lib : Symphonia Sample}
variable {E : Engines Sample}

/-
  The ingest asks for bytes behind its look at the token, with
  the whole of its buffer.
-/
def Admits
    (chunkSize : Nat)
    (s : Wire lib E) : StreamLabel → Bool
| .poll room =>
    room = chunkSize &&
      match s.cast.ingest.reader with
      | .reading true _ => true
      | _ => false
| _ => true

/-
  The ingest is there once the request is accepted, and what
  its reads give is what the connection's readers say. Past
  the end of the body a read finds the end again.
-/
def Free (s : Wire lib E) : BroadcastLabel → Bool
| .delivery _ => true
| .ingest label =>
    s.stream.reader.isSome &&
      match label with
      | .gives _ => false
      | .fails _ => false
      | .pends => false
      | .ends => s.stream.AtEnd
      | _ => true

def step
    (parse : Bytes → HeadStatus)
    (metaint : Nat)
    (m : Nat)
    (chunkSize : Nat)
    (codec : CodecId)
    (s : Wire lib E) : WireLabel → Option (Wire lib E)
| .stream label =>
    if s.Admits chunkSize label then
      match s.stream.step parse label with
      | none => none
      | some stream =>
          match s.stream.told stream label with
          | none => some { s with stream := stream }
          | some event =>
              match
                s.cast.step metaint m chunkSize codec
                  (.ingest event)
              with
              | none => none
              | some cast => some ⟨stream, cast⟩
    else
      none
| .cast label =>
    if s.Free label then
      match s.cast.step metaint m chunkSize codec label with
      | none => none
      | some cast => some { s with cast := cast }
    else
      none
| .previous packet =>
    if s.stream.reader.isNone then
      match
        s.cast.delivery.step metaint (.publish m packet)
      with
      | none => none
      | some delivery =>
          some
            { s with
              cast :=
                { s.cast with
                  earlier := s.cast.earlier ++ [packet]
                  delivery := delivery } }
    else
      none

end Wire

/- A connection comes while the server runs. -/
def wireMachine
    (output : Output.HttpPassthroughOutput)
    (parse : Bytes → HeadStatus)
    (m : Nat)
    (lib : Symphonia Sample)
    (E : Engines Sample)
    (build : IngestBuild)
    (codec : CodecId)
    (stream : Bytes)
    (bytesReceived : Nat) :
    Library.Machine (Wire lib E) WireLabel where
  init := fun s =>
    s.stream = .start stream bytesReceived ∧
      (broadcastMachine output m lib E build codec).init s.cast
  step :=
    Wire.step parse output.icyMetaint m build.ingest.chunkSize
      codec

end RustyIce

------------------------------------------------------------
-- What A Connection Hands On
------------------------------------------------------------

namespace RustyIce

open Ingest

/- The bytes an event gives the reader. -/
def TasksLabel.data : TasksLabel → List Bytes
| .gives data => [data]
| _ => []

/- A step of a connection, as the ingest's reader sees it. -/
structure StreamMove
    (s t : SourceStream)
    (event : Option TasksLabel) : Prop where
  handed :
    t.handed =
      s.handed ++ (event.elim [] TasksLabel.data).flatten
  accepted : s.reader.isSome = true → t.reader.isSome = true
  told : event.isSome = true → t.reader.isSome = true
  going : s.AtEnd = false
  ends : event = some .ends → t.AtEnd = true

variable {parse : Bytes → HeadStatus}
variable {s u t : SourceStream}
variable {chain : ChainReader}
variable {framing : Framing}

namespace SourceStream

theorem atEnd_of_polling
    {room : Nat}
    (hPhase : s.phase = .body chain framing (.polling room)) :
    s.AtEnd = false := by
  simp only [AtEnd, hPhase]

/- The end of a round, with what it tells. -/
theorem move_of_after
    {room : Nat}
    {round : BodyRound}
    {next : ChainReader}
    (hPhase : s.phase = .body chain framing (.polling room))
    (hHanded : u.handed = s.handed)
    (hAfter : u.after next room round = some t) :
    StreamMove s t (s.answer t) := by
  have hGoing := atEnd_of_polling hPhase
  cases round with
  | read capacity => cases hAfter
  | again framing =>
      cases hAfter
      constructor
      · rw [hHanded]
        exact (List.append_nil _).symm
      · exact fun _ => rfl
      · exact fun _ => rfl
      · exact hGoing
      · exact fun hNever => nomatch hNever
  | finish framing result =>
      cases result with
      | error e =>
          cases hAfter
          constructor
          · rw [hHanded]
            exact (List.append_nil _).symm
          · exact fun _ => rfl
          · exact fun _ => rfl
          · exact hGoing
          · intro hNever
            cases hNever
      | ok data =>
          cases data with
          | nil =>
              cases hAfter
              constructor
              · rw [hHanded]
                exact (List.append_nil _).symm
              · exact fun _ => rfl
              · exact fun _ => rfl
              · exact hGoing
              · exact fun _ => rfl
          | cons byte data =>
              cases hAfter
              constructor
              · simp only [answer, Option.elim_some,
                  TasksLabel.data, List.flatten_cons,
                  List.flatten_nil, List.append_nil, hHanded,
                  List.drop_left]
              · exact fun _ => rfl
              · exact fun _ => rfl
              · exact hGoing
              · intro hNever
                cases hNever

/- A step that hands nothing on and tells nothing. -/
theorem move_of_quiet
    (hHanded : t.handed = s.handed)
    (hAccepted :
      s.reader.isSome = true → t.reader.isSome = true)
    (hGoing : s.AtEnd = false) :
    StreamMove s t none where
  handed := by
    rw [hHanded]
    exact (List.append_nil _).symm
  accepted := hAccepted
  told := fun hNever => by cases hNever
  going := hGoing
  ends := fun hNever => by cases hNever

theorem streamMove_of_step
    {label : StreamLabel}
    (hStep : s.step parse label = some t) :
    StreamMove s t (s.told t label) := by
  cases label with
  | readHead count =>
      simp only [step] at hStep
      split at hStep
      · rename_i buf hPhase
        have hNone : ¬ s.reader.isSome = true := by
          simp [reader, hPhase]
        have hGoing : s.AtEnd = false := by
          simp [AtEnd, hPhase]
        split_ifs at hStep
        split at hStep
        · cases hStep
          exact move_of_quiet rfl (absurd · hNone) hGoing
        · cases hStep
          exact move_of_quiet rfl (absurd · hNone) hGoing
        · cases hStep
          exact move_of_quiet rfl (absurd · hNone) hGoing
      · cases hStep
  | headFails e =>
      simp only [step] at hStep
      split at hStep
      · rename_i buf hPhase
        cases hStep
        exact
          move_of_quiet rfl (by simp [reader, hPhase])
            (by simp [AtEnd, hPhase])
      · cases hStep
  | accept =>
      simp only [step] at hStep
      split at hStep
      · rename_i found hPhase
        cases hStep
        exact
          move_of_quiet rfl (fun _ => rfl)
            (by simp [AtEnd, hPhase])
      · cases hStep
  | turnAway =>
      simp only [step] at hStep
      split at hStep
      · rename_i found hPhase
        cases hStep
        exact
          move_of_quiet rfl (by simp [reader, hPhase])
            (by simp [AtEnd, hPhase])
      · cases hStep
  | poll room =>
      simp only [step] at hStep
      split at hStep
      · rename_i chain framing hPhase
        split_ifs at hStep
        cases hStep
        exact
          move_of_quiet rfl (fun _ => rfl)
            (by simp [AtEnd, hPhase])
      · cases hStep
  | advance =>
      simp only [step] at hStep
      split at hStep
      · rename_i chain framing room hPhase
        exact move_of_after hPhase rfl hStep
      · cases hStep
  | pending =>
      simp only [step] at hStep
      split at hStep
      · rename_i chain framing room hPhase
        split at hStep
        · cases hStep
          exact
            { handed := (List.append_nil _).symm
              accepted := fun _ => rfl
              told := fun _ => rfl
              going := atEnd_of_polling hPhase
              ends := fun hNever => by cases hNever }
        · cases hStep
      · cases hStep
  | replay =>
      simp only [step] at hStep
      split at hStep
      · rename_i chain framing room hPhase
        split at hStep
        · refine move_of_after hPhase ?_ hStep
          rfl
        · cases hStep
      · cases hStep
  | read count =>
      simp only [step] at hStep
      split at hStep
      · rename_i chain framing room hPhase
        split at hStep
        · split_ifs at hStep
          refine move_of_after hPhase ?_ hStep
          rfl
        · cases hStep
      · cases hStep
  | breaks e =>
      simp only [step] at hStep
      split at hStep
      · rename_i chain framing room hPhase
        split at hStep
        · split at hStep
          · cases hStep
            exact
              { handed := (List.append_nil _).symm
                accepted := fun _ => rfl
                told := fun _ => rfl
                going := atEnd_of_polling hPhase
                ends := fun hNever => by cases hNever }
          · cases hStep
        · cases hStep
      · cases hStep

end SourceStream

end RustyIce

------------------------------------------------------------
-- What The Ingest Was Given
------------------------------------------------------------

namespace RustyIce

open Ingest Transcode

variable {Sample : Type}
variable {lib : Symphonia Sample}
variable {E : Engines Sample}
variable {build : IngestBuild}
variable {codec : CodecId}

namespace IngestTasks

variable {s t : IngestTasks lib E}

/- Nothing but a read adds to the reads or ends them. -/
structure ReadBy
    (label : TasksLabel)
    (s t : IngestTasks lib E) : Prop where
  given : t.given = s.given ++ label.data
  ended : t.ended = true → s.ended = true ∨ label = .ends

theorem readBy_of_same
    {label : TasksLabel}
    (hData : label.data = [])
    (hGiven : t.given = s.given)
    (hEnded : t.ended = s.ended) :
    s.ReadBy label t where
  given := by rw [hGiven, hData, List.append_nil]
  ended := fun hEnd => .inl (hEnded ▸ hEnd)

theorem readBy_of_goes
    (hStep : s.readerGoes = some t) :
    s.ReadBy .readerGoes t := by
  unfold readerGoes at hStep
  split at hStep
  · split_ifs at hStep <;> cases hStep <;>
      exact readBy_of_same rfl rfl rfl
  · cases hStep
    exact readBy_of_same rfl rfl rfl
  · cases hStep
    exact readBy_of_same rfl rfl rfl
  · cases hStep
    exact readBy_of_same rfl rfl rfl
  · cases hStep

theorem readBy_of_gives
    {chunkSize : Nat}
    {data : Bytes}
    (hStep : s.readGives chunkSize data = some t) :
    s.ReadBy (.gives data) t := by
  unfold readGives at hStep
  split at hStep
  · split_ifs at hStep
    simp only [send_frame] at hStep
    cases hStep
    exact ⟨rfl, .inl⟩
  · cases hStep

theorem readBy_of_ends
    (hStep : s.readEnds = some t) :
    s.ReadBy .ends t := by
  have hEnds :
      t.given = s.given → s.ReadBy .ends t := by
    intro hGiven
    refine ⟨?_, fun _ => .inr rfl⟩
    rw [hGiven]
    exact (List.append_nil _).symm
  unfold readEnds at hStep
  split at hStep
  · cases hStep
    exact hEnds rfl
  · simp only [send_frame] at hStep
    cases hStep
    exact hEnds rfl
  · cases hStep

theorem readBy_of_step
    {label : TasksLabel}
    (hInv : TasksInv build codec s)
    (hStep :
      s.step build.ingest.chunkSize codec label = some t) :
    s.ReadBy label t := by
  cases label with
  | gives data => exact readBy_of_gives hStep
  | ends => exact readBy_of_ends hStep
  | readerGoes => exact readBy_of_goes hStep
  | loopPolls late =>
      rcases hInv.loop with ⟨events, hLoop⟩
      have hMove :=
        (loopMove_of_polls hInv.reader hLoop hStep).1
      exact readBy_of_same rfl hMove.given hMove.ended
  | cancel =>
      cases hStep
      exact readBy_of_same rfl rfl rfl
  | readerPolls =>
      simp only [step] at hStep
      split at hStep
      · split_ifs at hStep <;> cases hStep <;>
          exact readBy_of_same rfl rfl rfl
      · cases hStep
  | fails error =>
      simp only [step] at hStep
      split at hStep
      · cases hStep
        exact readBy_of_same rfl rfl rfl
      · cases hStep
  | pends =>
      simp only [step] at hStep
      split at hStep
      · cases hStep
        exact readBy_of_same rfl rfl rfl
      · cases hStep
  | reaped =>
      simp only [step] at hStep
      split at hStep
      · cases hStep
        exact readBy_of_same rfl rfl rfl
      · cases hStep
  | left =>
      simp only [step] at hStep
      split_ifs at hStep
      cases hStep
      exact readBy_of_same rfl rfl rfl

end IngestTasks

end RustyIce

------------------------------------------------------------
-- From The Connection To The Clients
------------------------------------------------------------

namespace RustyIce

open Ingest Transcode

variable {Sample : Type}
variable {output : Output.HttpPassthroughOutput}
variable {parse : Bytes → HeadStatus}
variable {m : Nat}
variable {lib : Symphonia Sample}
variable {E : Engines Sample}
variable {build : IngestBuild}
variable {codec : CodecId}
variable {head rest : Bytes}
variable {request : RequestHead}
variable {before : Nat}

/- Each part as it is alone, joined by what is handed on. -/
structure WireInv
    (output : Output.HttpPassthroughOutput)
    (m : Nat)
    (build : IngestBuild)
    (codec : CodecId)
    (head rest : Bytes)
    (headers : HeaderMap)
    (before : Nat)
    (s : Wire lib E) : Prop where
  stream : StreamInv head rest headers before s.stream
  cast : BroadcastInv output m build codec s.cast
  handed : s.stream.handed = s.cast.ingest.given.flatten
  ended :
    s.cast.ingest.ended = true → s.stream.AtEnd = true
  waiting : s.stream.reader = none → s.cast.ingest.bus = []

namespace Wire

variable {s t : Wire lib E}

/- The ingest's own step behind one of the whole. -/
theorem readBy_of_cast
    {metaint : Nat}
    {label : TasksLabel}
    {next cast : Broadcast lib E}
    (hInv : TasksInv build codec cast.ingest)
    (hStep :
      cast.step metaint m build.ingest.chunkSize codec
          (.ingest label) =
        some next) :
    cast.ingest.ReadBy label next.ingest := by
  unfold Broadcast.step at hStep
  dsimp only at hStep
  split at hStep
  · cases hStep
  · rename_i ingest hIngest
    split at hStep
    · cases hStep
    · cases hStep
      exact IngestTasks.readBy_of_step hInv hIngest

theorem ingest_of_delivery
    {metaint chunkSize : Nat}
    {label : DeliveryLabel}
    {next cast : Broadcast lib E}
    (hStep :
      cast.step metaint m chunkSize codec (.delivery label) =
        some next) :
    next.ingest = cast.ingest := by
  unfold Broadcast.step at hStep
  dsimp only at hStep
  split_ifs at hStep
  split at hStep
  · cases hStep
  · cases hStep
    rfl

end Wire

/- A step of the connection. -/
theorem wireInv_stream
    {s t : Wire lib E}
    {label : StreamLabel}
    (hParse : ParsesHead parse head request)
    (hInv :
      WireInv output m build codec head rest request.headers
        before s)
    (hStep :
      s.step parse output.icyMetaint m build.ingest.chunkSize
          codec (.stream label) =
        some t) :
    WireInv output m build codec head rest request.headers
      before t := by
  unfold Wire.step at hStep
  dsimp only at hStep
  split_ifs at hStep
  split at hStep
  · cases hStep
  · rename_i stream hStream
    have hNext := streamInv_step hParse hInv.stream hStream
    have hMove := SourceStream.streamMove_of_step hStream
    have hNotEnded : s.cast.ingest.ended ≠ true := by
      intro hEnded
      have hEnd := hInv.ended hEnded
      rw [hMove.going] at hEnd
      cases hEnd
    split at hStep
    · rename_i hTold
      rw [hTold] at hMove
      cases hStep
      constructor
      · exact hNext
      · exact hInv.cast
      · rw [← hInv.handed]
        exact hMove.handed.trans (List.append_nil _)
      · exact fun hEnded => absurd hEnded hNotEnded
      · intro hNone
        apply hInv.waiting
        rw [← Option.not_isSome_iff_eq_none]
        intro hSome
        have hStill := hMove.accepted hSome
        rw [hNone] at hStill
        cases hStill
    · rename_i event hTold
      rw [hTold] at hMove
      split at hStep
      · cases hStep
      · rename_i cast hCast
        cases hStep
        have hRead :=
          Wire.readBy_of_cast hInv.cast.ingest hCast
        constructor
        · exact hNext
        · exact broadcastInv_step hInv.cast hCast
        · rw [hRead.given, List.flatten_append, ← hInv.handed]
          exact hMove.handed
        · intro hEnded
          rcases hRead.ended hEnded with hWas | hEnds
          · exact absurd hWas hNotEnded
          · exact hMove.ends (congrArg some hEnds)
        · intro hNone
          have hSome := hMove.told rfl
          rw [hNone] at hSome
          cases hSome

/- A step of what the connection feeds. -/
theorem wireInv_cast
    {s t : Wire lib E}
    {label : BroadcastLabel}
    {headers : HeaderMap}
    (hInv :
      WireInv output m build codec head rest headers before s)
    (hStep :
      s.step parse output.icyMetaint m build.ingest.chunkSize
          codec (.cast label) =
        some t) :
    WireInv output m build codec head rest headers before
      t := by
  unfold Wire.step at hStep
  dsimp only at hStep
  split_ifs at hStep with hFree
  split at hStep
  · cases hStep
  · rename_i cast hCast
    cases hStep
    have hNext := broadcastInv_step hInv.cast hCast
    cases label with
    | delivery label =>
        have hSame := Wire.ingest_of_delivery hCast
        constructor
        · exact hInv.stream
        · exact hNext
        · rw [hSame]
          exact hInv.handed
        · rw [hSame]
          exact hInv.ended
        · rw [hSame]
          exact hInv.waiting
    | ingest label =>
        have hRead :=
          Wire.readBy_of_cast hInv.cast.ingest hCast
        rcases Bool.and_eq_true_iff.mp hFree with
          ⟨hAccepted, hAlone⟩
        have hData : label.data = [] := by
          cases label with
          | gives data => cases hAlone
          | _ => rfl
        constructor
        · exact hInv.stream
        · exact hNext
        · rw [hRead.given, hData, List.append_nil]
          exact hInv.handed
        · intro hEnded
          rcases hRead.ended hEnded with hWas | hEnds
          · exact hInv.ended hWas
          · subst hEnds
            exact hAlone
        · intro hNone
          rw [hNone] at hAccepted
          cases hAccepted

theorem wireInv_previous
    {s t : Wire lib E}
    {packet : StreamPacket}
    {headers : HeaderMap}
    (hInv :
      WireInv output m build codec head rest headers before s)
    (hStep :
      s.step parse output.icyMetaint m build.ingest.chunkSize
          codec (.previous packet) =
        some t) :
    WireInv output m build codec head rest headers before
      t := by
  unfold Wire.step at hStep
  dsimp only at hStep
  split_ifs at hStep with hNone
  split at hStep
  · cases hStep
  · rename_i delivery hMove
    cases hStep
    have hBus :=
      hInv.waiting (Option.isNone_iff_eq_none.mp hNone)
    have hJoined := hInv.cast.joined
    rw [hBus, List.append_nil] at hJoined
    have hPublish :
        (deliveryMachine output).step s.cast.delivery
            (.publish m packet) =
          some delivery :=
      hMove
    constructor
    · exact hInv.stream
    · constructor
      · exact .step hInv.cast.delivery trivial hPublish
      · exact hInv.cast.ingest
      · rw [Delivery.sentOn_publish hJoined hMove, hBus,
          List.append_nil]
    · exact hInv.handed
    · exact hInv.ended
    · exact hInv.waiting

theorem WireInv.of_reachable
    {s : Wire lib E}
    (hParse : ParsesHead parse head request)
    (hReach :
      (wireMachine output parse m lib E build codec
        (head ++ rest) before).Reachable s) :
    WireInv output m build codec head rest request.headers
      before s := by
  refine
    Library.Machine.ReachableUnder.invariant ?_ ?_ hReach
  · rintro s ⟨hStream, hDelivery, ⟨feed, hFeed, hSent⟩,
      cancelled, hIngest⟩
    constructor
    · rw [hStream]
      exact ⟨⟨head, rfl, rfl⟩, rfl, rfl⟩
    · exact
        BroadcastInv.of_reachable
          (.start ⟨hDelivery, ⟨feed, hFeed, hSent⟩, cancelled,
            hIngest⟩)
    · rw [hStream, hIngest]
      rfl
    · rw [hIngest]
      exact fun hNever => by cases hNever
    · rw [hIngest]
      exact fun _ => rfl
  · intro s label t hInv _ hStep
    cases label with
    | stream label => exact wireInv_stream hParse hInv hStep
    | cast label =>
        have hCast :
            s.step parse output.icyMetaint m
                build.ingest.chunkSize codec (.cast label) =
              some t :=
          hStep
        exact wireInv_cast hInv hCast
    | previous packet =>
        have hPrevious :
            s.step parse output.icyMetaint m
                build.ingest.chunkSize codec
                (.previous packet) =
              some t :=
          hStep
        exact wireInv_previous hInv hPrevious

/- The rest of the body is what the source may still send. -/
theorem WireInv.body
    {s : Wire lib E}
    {headers : HeaderMap}
    (hInv :
      WireInv output m build codec head rest headers
        before s) :
    ∃ more,
      (s.cast.ingest.given ++ more).flatten =
          (requestBody headers rest).1 ∧
        (s.cast.ingest.ended = true → more = []) := by
  have hStream := hInv.stream
  unfold StreamInv at hStream
  have hPrefix :
      s.stream.handed <+: (requestBody headers rest).1 := by
    cases hPhase : s.stream.phase with
    | body chain framing call =>
        rw [hPhase] at hStream
        exact handed_prefix hStream.2
    | broken chain e =>
        rw [hPhase] at hStream
        exact hStream.2
    | head buf =>
        rw [hPhase] at hStream
        rw [hStream.2.1]
        exact List.nil_prefix
    | parsed found =>
        rw [hPhase] at hStream
        rw [hStream.2.1]
        exact List.nil_prefix
    | turnedAway =>
        rw [hPhase] at hStream
        rw [hStream.1]
        exact List.nil_prefix
    | headFailed e =>
        rw [hPhase] at hStream
        rw [hStream.1]
        exact List.nil_prefix
  rcases hPrefix with ⟨left, hLeft⟩
  cases hEnded : s.cast.ingest.ended with
  | false =>
      refine ⟨[left], ?_, fun hNever => by cases hNever⟩
      rw [List.flatten_append, ← hInv.handed,
        List.flatten_singleton]
      exact hLeft
  | true =>
      have hEnd := hInv.ended hEnded
      unfold SourceStream.AtEnd at hEnd
      split at hEnd
      · rename_i chain framing hPhase
        rw [hPhase] at hStream
        have hWhole := hStream.2
        simp only [InCall] at hWhole
        refine ⟨[], ?_, fun _ => rfl⟩
        rw [List.append_nil, ← hInv.handed]
        exact congrArg Prod.fst hWhole
      · cases hEnd

/-
  Whatever follows the head of a source's request, in whatever
  framing and pieces, and however the connection, the ingest's
  tasks, the listeners and their clients interleave: what a
  client decodes is one piece of what the mount broadcast
  before and of the audio in the request's body.
-/
theorem heard_of_request
    {s : Wire lib E}
    {i : Nat}
    {task : ListenerTask}
    (hMetaint : 0 < output.icyMetaint)
    (hParse : ParsesHead parse head request)
    (hReach :
      (wireMachine output parse m lib E build codec
        (head ++ rest) before).Reachable s)
    (hTask :
      s.cast.delivery.handlers[i]? = some (.serving task))
    (hMount : task.mount = m)
    (hLagged : task.subscription.lagged = false)
    (hFits :
      task.icyRequested = true →
        ∀ displayed ∈ task.shown, Output.FrameFits displayed)
    (hPlain : build.transcode = none)
    (hNotLate :
      codec = .MP3 →
        10 ≤ (requestBody request.headers rest).1.length →
          ¬ LateTagFrame
            (afterId3 (requestBody request.headers rest).1)) :
    ∃ skipped,
      skipped ++ task.decoded output.icyMetaint <+:
        audioOf s.cast.earlier ++
          passthroughAudio codec
            (requestBody request.headers rest).1 := by
  have hInv := WireInv.of_reachable hParse hReach
  rcases hInv.body with ⟨more, hBody, hMore⟩
  rw [← hBody] at hNotLate ⊢
  exact
    hInv.cast.heard hMetaint hTask hMount hLagged hFits hPlain
      hMore hNotLate

end RustyIce

------------------------------------------------------------
-- A Source That Takes Over From Another
------------------------------------------------------------

namespace RustyIce

/- A request of three bytes comes to a fresh mount. -/
def Wire.sized : Wire Transcode.idle Transcode.recorder where
  stream := .start (sizedHead ++ [1, 2, 3, 4]) 100
  cast := .oneMount

def sizedMachine :
    Library.Machine
      (Wire Transcode.idle Transcode.recorder) WireLabel :=
  wireMachine everyThird (parseOnly sizedHead sizedRequest) 0
    Transcode.idle Transcode.recorder plainBuild .AAC
    (sizedHead ++ [1, 2, 3, 4]) 100

/- The listener goes on, and its client reads. -/
def listens : List WireLabel :=
  List.replicate 6 (.cast (.delivery (.advance 0))) ++
    [.cast (.delivery (.read 0 9))]

def publishes : List WireLabel :=
  wholePoll.map fun label => .cast (.ingest label)

/- Behind a packet of another source, in two reads. -/
def takenOver : List WireLabel :=
  [.cast (.delivery (.arrive 0 true))] ++ listens ++
    [.previous (mp3Packet [9])] ++ listens ++
      [.stream (.readHead 10), .stream (.readHead 33),
        .stream .accept, .cast (.ingest .readerPolls),
        .stream (.poll 4096), .stream .replay] ++
        publishes ++ listens ++ listens ++
          [.cast (.ingest .readerPolls),
            .stream (.poll 4096), .stream (.read 1)] ++
            publishes ++ listens ++ listens

theorem Wire.init_sized : sizedMachine.init .sized :=
  ⟨rfl, Broadcast.init_oneMount⟩

theorem heard_of_request_takenOver :
    ∃ s task skipped,
      sizedMachine.run .sized takenOver = some s ∧
        s.cast.delivery.handlers[0]? =
            some (.serving task) ∧
          task.decoded 3 = [9, 1, 2, 3] ∧
            skipped ++ task.decoded 3 <+:
              audioOf s.cast.earlier ++
                Ingest.passthroughAudio .AAC
                  (requestBody sizedRequest.headers
                    [1, 2, 3, 4]).1 := by
  have hRuns :
      ∃ s task,
        sizedMachine.run .sized takenOver = some s ∧
          s.cast.delivery.handlers[0]? =
              some (.serving task) ∧
            task.mount = 0 ∧
              task.subscription.lagged = false ∧
                (∀ displayed ∈ task.shown,
                    Output.FrameFits displayed) ∧
                  task.decoded 3 = [9, 1, 2, 3] := by
    refine ⟨_, _, rfl, rfl, rfl, rfl, ?_, rfl⟩
    intro displayed hMem
    rw [List.mem_singleton.mp hMem]
    decide
  rcases hRuns with
    ⟨s, task, hRun, hTask, hMount, hLagged, hFits, hDecoded⟩
  have hReach :=
    Library.Machine.reachable_of_run Wire.init_sized hRun
  rcases
    heard_of_request (by decide)
      (parseOnly_parses sizedHead sizedRequest) hReach hTask
      hMount hLagged (fun _ => hFits) rfl
      (fun hMp3 => absurd hMp3 (by decide)) with
    ⟨skipped, hHeard⟩
  exact ⟨s, task, skipped, hRun, hTask, hDecoded, hHeard⟩

end RustyIce

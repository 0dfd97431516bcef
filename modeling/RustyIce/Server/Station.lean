import RustyIce.Server.MountSystem
import RustyIce.Server.StreamRouter

/-
  A mount on the air: its task and source requests, its bus,
  reloads, and any number of listeners.

  A party publishes while it streams, in the codec of its
  ingest or of its rotation. A reload reads the description
  of the mount and stores it back with the codec it read,
  stores the configuration, and starts another task when the
  old one has returned.

  Main declarations:
    * `Streamer`, `Station`, `stationMachine`
    * `Station.ingests_of_mountStep`,
      `Station.system_of_mountStep`
    * `MountSystem.streaming_source_of_step`,
      `MountSystem.task_of_step`
-/

------------------------------------------------------------
-- Publishers
------------------------------------------------------------

namespace RustyIce

/- Who publishes on the bus of a mount. -/
inductive Streamer where
| task
| source (i : Nat)
deriving DecidableEq, Repr

/-
  The format of the rotation, the codec of the relay's
  upstream, the output codec of each ingest once it is
  built, and the description a reload has read.
-/
structure Station where
  system : MountSystem
  path : String
  config : Config
  format : TranscodeFormat
  upstream : CodecId
  ingests : Streamer → Option CodecId
  reload : Option MountInfo
  bus : TokioBroadcastBus
  listeners : List Listener

namespace Station

/- The output codec of the ingest a streaming party builds. -/
def ingestCodec
    (s : Station) : Streamer → Option CodecId
| .task =>
    match s.system.task with
    | .relay (.streaming _) =>
        some
          (outputCodec s.upstream
            (mountTranscode s.config s.path))
    | _ => none
| .source i =>
    match s.system.sources[i]? with
    | none => none
    | some h =>
        match h.phase with
        | .streaming _ =>
            some
              (outputCodec h.request.codec
                (mountTranscode s.config s.path))
        | _ => none

/- The codec of the packets a party publishes, if it does. -/
def output
    (s : Station) : Streamer → Option CodecId
| .task =>
    match s.system.task with
    | .player _ (.playing _ _) => some (codecSeed s.format)
    | .relay (.streaming _) => s.ingests .task
    | _ => none
| .source i =>
    match s.system.sources[i]? with
    | none => none
    | some h =>
        match h.phase with
        | .streaming _ => s.ingests (.source i)
        | _ => none

/- The codecs being published. -/
def outputs (s : Station) : List CodecId :=
  (.task ::
    (List.range s.system.sources.length).map
      Streamer.source).filterMap s.output

theorem mem_outputs
    {s : Station}
    {streamer : Streamer}
    {codec : CodecId}
    (hOutput : s.output streamer = some codec) :
    codec ∈ s.outputs := by
  refine List.mem_filterMap.mpr ⟨streamer, ?_, hOutput⟩
  cases streamer with
  | task => exact List.mem_cons_self
  | source i =>
      have hIndex : i < s.system.sources.length := by
        by_contra hOut
        have hNone : s.system.sources[i]? = none :=
          List.getElem?_eq_none (Nat.le_of_not_lt hOut)
        simp only [output, hNone] at hOutput
        cases hOutput
      apply List.mem_cons_of_mem
      exact
        List.mem_map.mpr
          ⟨i, List.mem_range.mpr hIndex, rfl⟩

end Station

namespace MountSystem

/- The party whose stream begins with an event. -/
def starts
    (s : MountSystem) : MountLabel → Option Streamer
| .source i _ _ =>
    match s.sources[i]? with
    | none => none
    | some h =>
        match h.phase with
        | .installing [] _ => some (.source i)
        | _ => none
| .relay _ (.connected _) => some .task
| _ => none

/- The event is the kick of a source's guard. -/
def kicks (s : MountSystem) : MountLabel → Bool
| .source i _ _ =>
    match s.sources[i]? with
    | none => false
    | some h =>
        match h.phase with
        | .dropping (.kickListeners :: _) => true
        | _ => false
| _ => false

end MountSystem

end RustyIce

------------------------------------------------------------
-- The Machine
------------------------------------------------------------

namespace RustyIce

/- Events at the mount, in the server, and at a listener. -/
inductive StationLabel where
| mount (label : MountLabel)
| respawn (task : Task) (format : TranscodeFormat)
| readInfo
| storeInfo
    (sourcePassword : String)
    (maxListeners : Option Nat)
    (metadata : MountMetadata)
| storeConfig (cfg : Config)
| build (streamer : Streamer)
| publish
    (streamer : Streamer)
    (sequence : Nat)
    (data : Bytes)
| listen (icyMetadata : Bool)
| listener (i : Nat)
| lag (i : Nat)
| leave (i : Nat)
| kickListener (i : Nat)

namespace Station

def setIngest
    (s : Station)
    (streamer : Streamer)
    (codec : Option CodecId) : Streamer → Option CodecId :=
  fun p => if p = streamer then codec else s.ingests p

/- An event at the mount, and what hangs on it. -/
def mountStep
    (s : Station)
    (label : MountLabel) : Option Station :=
  match s.system.step label with
  | none => none
  | some system =>
      some
        { s with
          system := system
          upstream :=
            match label with
            | .relay _ (.connected codec) => codec
            | _ => s.upstream
          ingests :=
            match s.system.starts label with
            | some streamer => s.setIngest streamer none
            | none => s.ingests
          listeners :=
            if s.system.kicks label then
              s.listeners.map (.onSubscribed .kick)
            else
              s.listeners }

/- A change to one subscription. -/
def changeListener
    (s : Station)
    (i : Nat)
    (change : Subscription → Subscription) :
    Option Station :=
  match s.listeners[i]? with
  | none => none
  | some l =>
      some
        { s with
          listeners :=
            s.listeners.set i (l.onSubscribed change) }

def step
    (s : Station) : StationLabel → Option Station
| .mount label => s.mountStep label
| .respawn task format =>
    if s.system.task.Returned ∧ task.Fresh then
      some
        { s with
          system :=
            { s.system with task := task, shutdown := false }
          format := format }
    else
      none
| .readInfo =>
    some { s with reload := some s.system.slot.mount.info }
| .storeInfo sourcePassword maxListeners metadata =>
    match s.reload with
    | none => none
    | some old =>
        some
          { s with
            system :=
              { s.system with
                slot :=
                  { s.system.slot with
                    mount :=
                      { s.system.slot.mount with
                        info :=
                          { old with
                            sourcePassword := sourcePassword
                            maxListeners := maxListeners
                            metadata := metadata } } } }
            reload := none }
| .storeConfig cfg => some { s with config := cfg }
| .build streamer =>
    match s.ingestCodec streamer with
    | none => none
    | some codec =>
        some
          { s with
            ingests := s.setIngest streamer (some codec) }
| .publish streamer sequence data =>
    match s.output streamer with
    | none => none
    | some codec =>
        let packet : StreamPacket :=
          { payload := .encoded { codec := codec, data := data }
            sequence := sequence }
        some
          { s with
            bus := s.bus.publish packet
            listeners :=
              s.listeners.map
                (.onSubscribed fun sub =>
                  sub.receive packet) }
| .listen icyMetadata =>
    some
      { s with
        listeners := s.listeners ++ [.arrived icyMetadata] }
| .listener i =>
    match s.listeners[i]? with
    | none => none
    | some l =>
        match
            l.step s.config s.path s.system.slot.mount s.bus
        with
        | none => none
        | some next =>
            some
              { s with
                listeners := s.listeners.set i next }
| .lag i => s.changeListener i .lag
| .leave i => s.changeListener i .leave
| .kickListener i => s.changeListener i .kick

end Station

/-
  An untouched mount with a fresh task or none, and nobody
  there.
-/
def stationMachine :
    Library.Machine Station StationLabel where
  init := fun s =>
    (∃ size,
      s.system.slot.mount =
        ActiveMount.new s.system.slot.mount.info size ∧
      s.bus = .new size) ∧
      (s.system.task.Fresh ∨
        s.system.task = .relay .returned) ∧
        s.system.sources = [] ∧
          s.ingests = (fun _ => none) ∧
            s.reload = none ∧ s.listeners = []
  step := Station.step

end RustyIce

------------------------------------------------------------
-- Where A Stream Begins
------------------------------------------------------------

namespace RustyIce

theorem SourcePhase.installing_of_streaming
    {req : SourceRequest}
    {env : SourceEnv}
    {s s' : Slot}
    {phase : SourcePhase}
    {token : Token}
    (hStep :
      phase.step req env s = some (.streaming token, s')) :
    phase = .installing [] token := by
  cases phase with
  | installing todo other =>
      cases todo with
      | nil =>
          cases hStep
          rfl
      | cons op rest => cases hStep
  | dropping todo => cases todo <;> cases hStep
  | polling =>
      simp only [step] at hStep
      split at hStep
      · split at hStep <;> cases hStep
      · cases hStep
  | checkConnected | checkKind | readCancel | verify
  | checkCodec | claim =>
      simp only [step] at hStep
      split at hStep <;> cases hStep
  | _ => cases hStep

theorem PlayerPhase.readCancel_of_playing
    {loopPlaylist shutdown : Bool}
    {now : Nat}
    {event : PlayerEvent}
    {s s' : Slot}
    {phase : PlayerPhase}
    {token : Token}
    {combined : Bool}
    (hStep :
      phase.step loopPlaylist shutdown now event s =
        some (.playing token combined, s')) :
    phase = .readCancel ∨
      ∃ other before, phase = .playing other before := by
  cases phase with
  | readCancel => exact .inl rfl
  | playing other before => exact .inr ⟨other, before, rfl⟩
  | waiting wait =>
      simp only [step] at hStep
      split at hStep <;> cases hStep
  | scan =>
      simp only [step] at hStep
      split at hStep <;> cases hStep
  | installing todo => cases todo <;> cases hStep
  | releasing todo outcome => cases todo <;> cases hStep
  | passed outcome =>
      cases outcome <;>
        simp only [step] at hStep <;>
        split at hStep <;>
        cases hStep
  | top | loadConnected | afterWait | claim | swapPending
  | parkPoll =>
      simp only [step] at hStep
      split at hStep <;> cases hStep
  | parkAsleep =>
      simp only [step] at hStep
      split at hStep <;> cases hStep
  | idle => cases hStep
  | returned => cases hStep

theorem RelayPhase.connected_of_streaming
    {shutdown : Bool}
    {now : Nat}
    {event : RelayEvent}
    {s s' : Slot}
    {phase : RelayPhase}
    {token : Token}
    (hStep :
      phase.step shutdown now event s =
        some (.streaming token, s')) :
    phase = .streaming token ∨
      ∃ codec, event = .connected codec := by
  cases phase with
  | streaming other =>
      simp only [step, streamStep] at hStep
      split at hStep
      · cases hStep
      · cases event with
        | data captured =>
            cases hStep
            exact .inl rfl
        | _ => cases hStep
  | connecting other =>
      simp only [step, connectStep] at hStep
      split at hStep
      · cases hStep
      · cases event with
        | connected codec => exact .inr ⟨codec, rfl⟩
        | _ => cases hStep
  | waiting wait =>
      simp only [step] at hStep
      split at hStep <;> cases hStep
  | installing todo => cases todo <;> cases hStep
  | releasing todo outcome => cases todo <;> cases hStep
  | passed outcome =>
      cases outcome with
      | cancelled =>
          simp only [step] at hStep
          split at hStep <;> cases hStep
      | ok => cases hStep
      | failed => cases hStep
  | top | loadConnected | loadKind | afterWait | claim
  | readCancel | backingOff | swapPending =>
      simp only [step] at hStep
      split at hStep <;> cases hStep
  | parkPoll | parkAsleep =>
      simp only [step] at hStep
      split at hStep
      · cases hStep
      · split at hStep <;> cases hStep
  | returned => cases hStep
  | panicked => cases hStep

end RustyIce

------------------------------------------------------------
-- Events At The Mount
------------------------------------------------------------

namespace RustyIce

namespace Station

variable {s t : Station}

theorem setIngest_self
    (s : Station)
    (streamer : Streamer)
    (codec : Option CodecId) :
    s.setIngest streamer codec streamer = codec := by
  simp [setIngest]

theorem setIngest_other
    (s : Station)
    {streamer other : Streamer}
    (codec : Option CodecId)
    (hOther : other ≠ streamer) :
    s.setIngest streamer codec other = s.ingests other := by
  simp [setIngest, hOther]

/- A stream that begins has no ingest yet. -/
theorem ingests_of_mountStep
    {label : MountLabel}
    (hStep : s.mountStep label = some t)
    {streamer : Streamer}
    {codec : CodecId}
    (hIngest : t.ingests streamer = some codec) :
    s.system.starts label ≠ some streamer ∧
      s.ingests streamer = some codec := by
  simp only [mountStep] at hStep
  split at hStep
  · cases hStep
  · cases hStep
    cases hStarts : s.system.starts label with
    | none =>
        simp only [hStarts] at hIngest
        exact ⟨by simp, hIngest⟩
    | some other =>
        simp only [hStarts] at hIngest
        by_cases hSame : streamer = other
        · rw [hSame, setIngest_self] at hIngest
          cases hIngest
        · rw [setIngest_other s none hSame] at hIngest
          exact ⟨by simpa using Ne.symm hSame, hIngest⟩

theorem system_of_mountStep
    {label : MountLabel}
    (hStep : s.mountStep label = some t) :
    s.system.step label = some t.system ∧
      t.format = s.format ∧
        (t.listeners = s.listeners ∨
          t.listeners =
            s.listeners.map (.onSubscribed .kick)) := by
  simp only [mountStep] at hStep
  split at hStep
  · cases hStep
  · rename_i system hSystem
    cases hStep
    refine ⟨hSystem, rfl, ?_⟩
    simp only
    split
    · exact .inr rfl
    · exact .inl rfl

end Station

namespace MountSystem

variable {s t : MountSystem}

/- A source that streams after an event. -/
theorem streaming_source_of_step
    {label : MountLabel}
    (hStep : s.step label = some t)
    {j : Nat}
    {k : Source}
    {token : Token}
    (hSource : t.sources[j]? = some k)
    (hPhase : k.phase = .streaming token) :
    s.starts label = some (.source j) ∨
      ∃ h,
        s.sources[j]? = some h ∧ h.phase = .streaming token := by
  cases label with
  | player now event =>
      rcases player_step_ok hStep with ⟨_, _, _, _, _, _, rfl⟩
      exact .inr ⟨k, hSource, hPhase⟩
  | relay now event =>
      rcases relay_step_ok hStep with ⟨_, _, _, _, _, rfl⟩
      exact .inr ⟨k, hSource, hPhase⟩
  | arrive codec overlay authorised accepted =>
      cases hStep
      rw [List.getElem?_append] at hSource
      split at hSource
      · exact .inr ⟨k, hSource, hPhase⟩
      · have hMem := List.mem_of_getElem? hSource
        rw [List.mem_singleton] at hMem
        subst hMem
        cases hPhase
  | source i now expired =>
      rcases source_step_ok hStep with
        ⟨h, next, slot, hSome, hMove, rfl⟩
      by_cases hSame : i = j
      · subst hSame
        have hIndex := (List.getElem?_eq_some_iff.mp hSome).1
        rw [List.getElem?_set_self hIndex] at hSource
        cases hSource
        simp only at hPhase
        rw [hPhase] at hMove
        left
        simp only [starts, hSome,
          SourcePhase.installing_of_streaming hMove]
      · rw [List.getElem?_set_ne hSame] at hSource
        exact .inr ⟨k, hSource, hPhase⟩
  | capture i headers =>
      rcases capture_step_ok hStep with ⟨_, _, _, _, rfl⟩
      exact .inr ⟨k, hSource, hPhase⟩
  | kick =>
      cases hStep
      exact .inr ⟨k, hSource, hPhase⟩
  | cancelTask =>
      cases hStep
      exact .inr ⟨k, hSource, hPhase⟩

/- A task moves by its own label only. -/
theorem task_of_step
    {label : MountLabel}
    (hStep : s.step label = some t) :
    t.task = s.task ∨
      (∃ now event loopPlaylist phase next,
        label = .player now event ∧
          s.task = .player loopPlaylist phase ∧
            phase.step loopPlaylist s.shutdown now event
                s.slot =
              some (next, t.slot) ∧
              t.task = .player loopPlaylist next) ∨
        ∃ now event phase next,
          label = .relay now event ∧
            s.task = .relay phase ∧
              phase.step s.shutdown now event s.slot =
                  some (next, t.slot) ∧
                t.task = .relay next := by
  cases label with
  | player now event =>
      rcases player_step_ok hStep with
        ⟨loopPlaylist, phase, next, slot, hTask, hMove, rfl⟩
      exact
        .inr
          (.inl
            ⟨now, event, loopPlaylist, phase, next, rfl,
              hTask, hMove, rfl⟩)
  | relay now event =>
      rcases relay_step_ok hStep with
        ⟨phase, next, slot, hTask, hMove, rfl⟩
      exact
        .inr
          (.inr
            ⟨now, event, phase, next, rfl, hTask, hMove,
              rfl⟩)
  | source i now expired =>
      rcases source_step_ok hStep with ⟨_, _, _, _, _, rfl⟩
      exact .inl rfl
  | capture i headers =>
      rcases capture_step_ok hStep with ⟨_, _, _, _, rfl⟩
      exact .inl rfl
  | arrive | kick | cancelTask =>
      cases hStep
      exact .inl rfl

end MountSystem

end RustyIce

------------------------------------------------------------
-- A Station Of One Rotation
------------------------------------------------------------

namespace RustyIce

namespace Station

/- An MP3 rotation under a configuration. -/
def idle (cfg : Config) : Station where
  system := .idle (.player true .top)
  path := "/radio"
  config := cfg
  format := .mp3
  upstream := .MP3
  ingests := fun _ => none
  reload := none
  bus := .new { capacity := 64, burstBytes := 65536 }
  listeners := []

theorem init_idle (cfg : Config) :
    stationMachine.init (idle cfg) :=
  ⟨⟨_, rfl, rfl⟩, .inl rfl, rfl, rfl, rfl, rfl⟩

end Station

/-
  The rotation plays, a listener with interleaved metadata
  comes, and one packet reaches him.
-/
def oneListener : List StationLabel :=
  playing.map .mount ++
    .listen true :: List.replicate 5 (.listener 0) ++
    .publish .task 0 [0xff] :: List.replicate 2 (.listener 0)

def audioPacket : StreamPacket where
  payload := .encoded { codec := .MP3, data := [0xff] }
  sequence := 0

end RustyIce

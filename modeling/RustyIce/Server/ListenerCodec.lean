import RustyIce.Server.Station

/-
  What listeners are sent, in every run whose codecs agree.

  Main declarations:
    * `CodecsKept`
    * `CodecsAgree`
    * `codecs_kept`
-/

------------------------------------------------------------
-- The Property
------------------------------------------------------------

namespace RustyIce

/-
  Every packet delivered to a listener has the content type
  it was told, and interleaved metadata goes into MP3 only.
-/
def CodecsKept (s : Station) : Prop :=
  ∀ l ∈ s.listeners,
    l.Subscribed fun sub =>
      ∀ packet ∈ sub.delivered, sub.promise.Keeps packet

end RustyIce

------------------------------------------------------------
-- Runs Whose Codecs Agree
------------------------------------------------------------

namespace RustyIce

namespace Station

/- Every listener that may be handed packets expects it. -/
def Fits
    (s : Station)
    (codec : CodecId) : Prop :=
  ∀ l ∈ s.listeners,
    l.Subscribed fun sub =>
      sub.Listens → sub.promise.Fits codec

instance (s : Station) (codec : CodecId) :
    Decidable (s.Fits codec) := by
  unfold Fits
  infer_instance

/- A listener about to subscribe was told the right codec. -/
def Agrees (s : Station) : Listener → Prop
| .primed promise headers =>
    (∀ packet ∈ Listener.burst s.bus headers,
      promise.Keeps packet) ∧
      ∀ codec ∈ s.outputs, promise.Fits codec
| .arrived _ => True
| .configured _ _ => True
| .promised _ => True
| .subscribed _ => True

end Station

/-
  When a rotation begins to play or an ingest is built, its
  codec fits every listener still there. When a listener
  subscribes, its burst and what is being published fit what
  it was told.
-/
def CodecsAgree
    (s : Station) : StationLabel → Prop
| .mount (.player _ _) =>
    match s.system.task with
    | .player _ .readCancel => s.Fits (codecSeed s.format)
    | _ => True
| .build streamer =>
    ∀ codec ∈ s.ingestCodec streamer, s.Fits codec
| .listener i => ∀ l ∈ s.listeners[i]?, s.Agrees l
| _ => True

namespace Subscription

/- The promise is kept, and will be. -/
def Kept (sub : Subscription) : Prop :=
  (sub.Listens →
    ∀ packet ∈ sub.queue, sub.promise.Keeps packet) ∧
    ∀ packet ∈ sub.delivered, sub.promise.Keeps packet

end Subscription

structure CodecInv (s : Station) : Prop where
  published :
    ∀ streamer codec,
      s.output streamer = some codec → s.Fits codec
  kept : ∀ l ∈ s.listeners, l.Subscribed Subscription.Kept

end RustyIce

------------------------------------------------------------
-- What A Step Keeps
------------------------------------------------------------

namespace RustyIce

namespace Subscription

/-
  A change after which a listener was told the same, and
  listens no more than before.
-/
structure Quieter (sub sub' : Subscription) : Prop where
  promise : sub'.promise = sub.promise
  listens : sub'.Listens → sub.Listens

theorem quieter_receive
    (packet : StreamPacket)
    (sub : Subscription) :
    sub.Quieter (sub.receive packet) :=
  ⟨rfl, id⟩

theorem quieter_lag (sub : Subscription) :
    sub.Quieter sub.lag :=
  ⟨rfl, id⟩

theorem quieter_leave (sub : Subscription) :
    sub.Quieter sub.leave :=
  ⟨rfl, fun hListens => absurd rfl hListens.1⟩

theorem quieter_kick (sub : Subscription) :
    sub.Quieter sub.kick := by
  unfold kick
  split
  · exact ⟨rfl, id⟩
  · refine ⟨rfl, ?_⟩
    rintro ⟨hHere, hKicked | hTaking⟩
    · cases hKicked
    · exact ⟨hHere, .inr hTaking⟩

theorem quieter_step
    {sub sub' : Subscription}
    (hStep : sub.step = some sub') :
    sub.Quieter sub' := by
  unfold step at hStep
  cases hPhase : sub.phase with
  | unregistered =>
      rw [hPhase] at hStep
      cases hStep
      refine ⟨rfl, ?_⟩
      rintro ⟨_, hKicked | hTaking⟩
      · exact ⟨by simp [hPhase], .inl hKicked⟩
      · cases hTaking
  | looking =>
      rw [hPhase] at hStep
      simp only at hStep
      split at hStep
      · cases hStep
        exact quieter_leave sub
      · rename_i hKicked
        cases hStep
        refine ⟨rfl, fun _ => ⟨by simp [hPhase], .inl ?_⟩⟩
        exact eq_false_of_ne_true hKicked
  | taking =>
      have hListens : sub.Listens :=
        ⟨by simp [hPhase], .inr hPhase⟩
      rw [hPhase] at hStep
      simp only at hStep
      split at hStep
      · cases hStep
        exact ⟨rfl, fun _ => hListens⟩
      · cases hStep
        exact ⟨rfl, fun _ => hListens⟩
  | left =>
      rw [hPhase] at hStep
      cases hStep

/- A packet that fits keeps the promise. -/
theorem Kept.receive
    {sub : Subscription}
    (hKept : sub.Kept)
    {packet : StreamPacket}
    (hPacket : sub.Listens → sub.promise.Keeps packet) :
    (sub.receive packet).Kept := by
  refine ⟨?_, hKept.2⟩
  intro hListens p hMem
  rcases List.mem_append.mp hMem with hOld | hNew
  · exact hKept.1 hListens p hOld
  · rw [List.mem_singleton] at hNew
    subst hNew
    exact hPacket hListens

/- A change that adds no packet. -/
theorem Kept.mono
    {sub sub' : Subscription}
    (hKept : sub.Kept)
    (hQuieter : sub.Quieter sub')
    (hQueue : sub'.queue ⊆ sub.queue)
    (hDelivered : sub'.delivered ⊆ sub.delivered) :
    sub'.Kept := by
  unfold Kept
  rw [hQuieter.promise]
  constructor
  · intro hListens p hMem
    exact hKept.1 (hQuieter.listens hListens) p (hQueue hMem)
  · intro p hMem
    exact hKept.2 p (hDelivered hMem)

theorem Kept.kick
    {sub : Subscription}
    (hKept : sub.Kept) :
    sub.kick.Kept := by
  apply hKept.mono (quieter_kick sub)
  · unfold Subscription.kick
    split <;> exact List.Subset.refl _
  · unfold Subscription.kick
    split <;> exact List.Subset.refl _

/- A packet taken was in the queue. -/
theorem Kept.step
    {sub sub' : Subscription}
    (hKept : sub.Kept)
    (hStep : sub.step = some sub') :
    sub'.Kept := by
  have hQuieter := quieter_step hStep
  unfold Subscription.step at hStep
  cases hPhase : sub.phase with
  | unregistered =>
      rw [hPhase] at hStep
      cases hStep
      exact
        hKept.mono hQuieter (List.Subset.refl _)
          (List.Subset.refl _)
  | looking =>
      rw [hPhase] at hStep
      simp only at hStep
      split at hStep <;> cases hStep
      · exact
          hKept.mono hQuieter (List.Subset.refl _)
            (List.Subset.refl _)
      · exact
          hKept.mono hQuieter (List.Subset.refl _)
            (List.Subset.refl _)
  | taking =>
      have hQueue :=
        hKept.1 ⟨by simp [hPhase], .inr hPhase⟩
      rw [hPhase] at hStep
      simp only at hStep
      split at hStep
      · cases hStep
        exact
          hKept.mono hQuieter (List.Subset.refl _)
            (List.Subset.refl _)
      · rename_i packet rest hCons
        rw [hCons] at hQueue
        cases hStep
        constructor
        · intro _ p hMem
          exact hQueue p (List.mem_cons_of_mem _ hMem)
        · intro p hMem
          rcases List.mem_append.mp hMem with hOld | hNew
          · exact hKept.2 p hOld
          · rw [List.mem_singleton] at hNew
            subst hNew
            exact hQueue p List.mem_cons_self
  | left =>
      rw [hPhase] at hStep
      cases hStep

end Subscription

namespace Station

/- A quieter listener in the place of one. -/
theorem Fits.onSubscribed
    {codec : CodecId}
    {change : Subscription → Subscription}
    (hQuieter :
      ∀ sub : Subscription, sub.Quieter (change sub))
    {l : Listener}
    (hFits :
      l.Subscribed fun sub =>
        sub.Listens → sub.promise.Fits codec) :
    (l.onSubscribed change).Subscribed fun sub =>
      sub.Listens → sub.promise.Fits codec := by
  refine Listener.subscribed_onSubscribed ?_ hFits
  intro sub hSub hListens
  rw [(hQuieter sub).promise]
  exact hSub ((hQuieter sub).listens hListens)

/-
  The codecs published in `t` are published in `s`, and fit
  the listeners of `t` if they fit those of `s`.
-/
theorem published_of
    {s t : Station}
    (hInv : CodecInv s)
    (hOutput :
      ∀ streamer codec,
        t.output streamer = some codec →
          s.output streamer = some codec ∨ s.Fits codec)
    (hFits : ∀ codec, s.Fits codec → t.Fits codec) :
    ∀ streamer codec,
      t.output streamer = some codec → t.Fits codec := by
  intro streamer codec hSome
  apply hFits
  rcases hOutput streamer codec hSome with hOld | hNew
  · exact hInv.published streamer codec hOld
  · exact hNew

end Station

end RustyIce

------------------------------------------------------------
-- The Invariant
------------------------------------------------------------

namespace RustyIce

namespace Station

variable {s t : Station}

theorem output_task_playing
    {loopPlaylist : Bool}
    {token : Token}
    {combined : Bool}
    (hTask :
      s.system.task =
        .player loopPlaylist (.playing token combined)) :
    s.output .task = some (codecSeed s.format) := by
  simp only [output, hTask]

/-
  What is published after an event at the mount was
  published before, unless a rotation began to play.
-/
theorem output_of_mountStep
    {label : MountLabel}
    (hOk : CodecsAgree s (.mount label))
    (hStep : s.mountStep label = some t)
    {streamer : Streamer}
    {codec : CodecId}
    (hOutput : t.output streamer = some codec) :
    s.output streamer = some codec ∨ s.Fits codec := by
  rcases system_of_mountStep hStep with
    ⟨hSystem, hFormat, _⟩
  cases streamer with
  | source i =>
      simp only [output] at hOutput
      split at hOutput
      · cases hOutput
      · rename_i k hSource
        split at hOutput
        · rename_i token hPhase
          rcases ingests_of_mountStep hStep hOutput with
            ⟨hStarts, hIngest⟩
          rcases
              MountSystem.streaming_source_of_step hSystem
                hSource hPhase with
            hNew | ⟨h, hSome, hBefore⟩
          · exact absurd hNew hStarts
          · left
            simp only [output, hSome, hBefore, hIngest]
        · cases hOutput
  | task =>
      rcases MountSystem.task_of_step hSystem with
        hTask |
          ⟨now, event, loopPlaylist, phase, next, rfl, hTask,
            hMove, hNext⟩ |
          ⟨now, event, phase, next, rfl, hTask, hMove, hNext⟩
      · simp only [output, hTask, hFormat] at hOutput
        split at hOutput
        · rename_i loopPlaylist token combined hPlaying
          cases hOutput
          exact .inl (output_task_playing hPlaying)
        · rename_i token hRelay
          have hIngest := ingests_of_mountStep hStep hOutput
          left
          simp only [output, hRelay, hIngest.2]
        · cases hOutput
      · simp only [output, hNext, hFormat] at hOutput
        cases next with
        | playing token combined =>
            cases hOutput
            rcases PlayerPhase.readCancel_of_playing hMove
              with rfl | ⟨other, before, rfl⟩
            · simp only [CodecsAgree, hTask] at hOk
              exact .inr hOk
            · exact .inl (output_task_playing hTask)
        | _ => cases hOutput
      · simp only [output, hNext] at hOutput
        cases next with
        | streaming token =>
            rcases ingests_of_mountStep hStep hOutput with
              ⟨hStarts, hIngest⟩
            rcases RelayPhase.connected_of_streaming hMove
              with rfl | ⟨upstream, rfl⟩
            · left
              simp only [output, hTask, hIngest]
            · exact absurd rfl hStarts
        | _ => cases hOutput

/- Building an ingest adds its codec only. -/
theorem output_of_build
    {streamer other : Streamer}
    {built codec : CodecId}
    (hOutput :
      Station.output
          { s with
            ingests := s.setIngest streamer (some built) }
          other =
        some codec) :
    s.output other = some codec ∨ codec = built := by
  have hIngest :
      s.setIngest streamer (some built) other = some codec →
        s.ingests other = some codec ∨ codec = built := by
    intro hSet
    unfold setIngest at hSet
    split at hSet
    · cases hSet
      exact .inr rfl
    · exact .inl hSet
  cases other with
  | task =>
      simp only [output] at hOutput ⊢
      split at hOutput
      · exact .inl hOutput
      · exact hIngest hOutput
      · cases hOutput
  | source i =>
      simp only [output] at hOutput ⊢
      split at hOutput
      · cases hOutput
      · split at hOutput
        · exact hIngest hOutput
        · cases hOutput

/- An event that leaves parties and listeners alone. -/
theorem codecInv_aside
    (hInv : CodecInv s)
    (hSources : t.system.sources = s.system.sources)
    (hTask : t.system.task = s.system.task)
    (hFormat : t.format = s.format)
    (hIngests : t.ingests = s.ingests)
    (hListeners : t.listeners = s.listeners) :
    CodecInv t := by
  have hOutput : t.output = s.output := by
    funext streamer
    cases streamer with
    | task => simp only [output, hTask, hFormat, hIngests]
    | source i => simp only [output, hSources, hIngests]
  have hFits : t.Fits = s.Fits := by
    funext codec
    simp only [Fits, hListeners]
  constructor
  · rw [hOutput, hFits]
    exact hInv.published
  · rw [hListeners]
    exact hInv.kept

/- One listener replaced by a quieter one. -/
theorem codecInv_set
    (hInv : CodecInv s)
    {i : Nat}
    {l next : Listener}
    (hSome : s.listeners[i]? = some l)
    (hFits :
      ∀ codec,
        (l.Subscribed fun sub =>
          sub.Listens → sub.promise.Fits codec) →
        (∀ streamer, s.output streamer ≠ some codec) ∨
          next.Subscribed fun sub =>
            sub.Listens → sub.promise.Fits codec)
    (hKept : next.Subscribed Subscription.Kept) :
    CodecInv { s with listeners := s.listeners.set i next } := by
  have hMem := List.mem_of_getElem? hSome
  constructor
  · intro streamer codec hOutput k hK
    have hThere : s.output streamer = some codec := hOutput
    have hOld := hInv.published streamer codec hThere
    rcases List.mem_or_eq_of_mem_set hK with hIn | hNew
    · exact hOld k hIn
    · rw [hNew]
      rcases hFits codec (hOld l hMem) with hNone | hNext
      · exact absurd hThere (hNone streamer)
      · exact hNext
  · intro k hK
    rcases List.mem_or_eq_of_mem_set hK with hIn | hNew
    · exact hInv.kept k hIn
    · rw [hNew]
      exact hKept

/- All listeners changed alike, into quieter ones. -/
theorem codecInv_map
    (hInv : CodecInv s)
    {change : Subscription → Subscription}
    (hQuieter :
      ∀ sub : Subscription, sub.Quieter (change sub))
    (hKept :
      ∀ sub : Subscription,
        .subscribed sub ∈ s.listeners →
          sub.Kept → (change sub).Kept)
    (hOutput :
      ∀ streamer codec,
        t.output streamer = some codec →
          s.output streamer = some codec ∨ s.Fits codec)
    (hListeners :
      t.listeners = s.listeners.map (.onSubscribed change)) :
    CodecInv t := by
  constructor
  · apply published_of hInv hOutput
    intro codec hFits l hMem
    rw [hListeners] at hMem
    rcases List.mem_map.mp hMem with ⟨k, hK, rfl⟩
    exact Fits.onSubscribed hQuieter (hFits k hK)
  · intro l hMem
    rw [hListeners] at hMem
    rcases List.mem_map.mp hMem with ⟨k, hK, rfl⟩
    cases k with
    | subscribed sub => exact hKept sub hK (hInv.kept _ hK)
    | _ => trivial

theorem codecInv_changeListener
    (hInv : CodecInv s)
    {i : Nat}
    {change : Subscription → Subscription}
    (hStep : s.changeListener i change = some t)
    (hQuieter :
      ∀ sub : Subscription, sub.Quieter (change sub))
    (hKept :
      ∀ sub : Subscription, sub.Kept → (change sub).Kept) :
    CodecInv t := by
  simp only [changeListener] at hStep
  split at hStep
  · cases hStep
  · rename_i l hSome
    cases hStep
    apply codecInv_set hInv hSome
    · intro codec hFits
      exact .inr (Fits.onSubscribed hQuieter hFits)
    · have hMem := List.mem_of_getElem? hSome
      exact
        Listener.subscribed_onSubscribed hKept
          (hInv.kept l hMem)

/- The next read of a listener. -/
theorem codecInv_listener
    (hInv : CodecInv s)
    {i : Nat}
    {l next : Listener}
    (hSome : s.listeners[i]? = some l)
    (hOk : s.Agrees l)
    (hStep :
      l.step s.config s.path s.system.slot.mount s.bus =
        some next) :
    CodecInv { s with listeners := s.listeners.set i next } := by
  apply codecInv_set hInv hSome
  · intro codec hFits
    cases l with
    | subscribed sub =>
        rw [Listener.step] at hStep
        rcases Option.map_eq_some_iff.mp hStep with
          ⟨sub', hMove, rfl⟩
        have hQuieter := Subscription.quieter_step hMove
        right
        intro hListens
        rw [hQuieter.promise]
        exact hFits (hQuieter.listens hListens)
    | primed promise headers =>
        cases hStep
        by_cases hOutput :
            ∀ streamer, s.output streamer ≠ some codec
        · exact .inl hOutput
        · right
          intro _
          rcases not_forall_not.mp hOutput with
            ⟨streamer, hThere⟩
          exact hOk.2 codec (mem_outputs hThere)
    | _ =>
        cases hStep
        exact .inr trivial
  · have hMem := List.mem_of_getElem? hSome
    cases l with
    | subscribed sub =>
        rw [Listener.step] at hStep
        rcases Option.map_eq_some_iff.mp hStep with
          ⟨sub', hMove, rfl⟩
        have hKept : sub.Kept := hInv.kept _ hMem
        exact hKept.step hMove
    | primed promise headers =>
        cases hStep
        refine ⟨fun _ => hOk.1, ?_⟩
        intro packet hPacket
        cases hPacket
    | _ =>
        cases hStep
        trivial

end Station

theorem codecInv_init
    {s : Station}
    (hInit : stationMachine.init s) :
    CodecInv s := by
  rcases hInit with ⟨_, _, _, _, _, hNone⟩
  constructor
  · intro streamer codec _ l hMem
    rw [hNone] at hMem
    cases hMem
  · intro l hMem
    rw [hNone] at hMem
    cases hMem

/- An event of such a run. -/
theorem codecInv_step
    {s t : Station}
    {label : StationLabel}
    (hInv : CodecInv s)
    (hOk : CodecsAgree s label)
    (hStep : s.step label = some t) :
    CodecInv t := by
  cases label with
  | mount label =>
      have hOutput :=
        fun streamer codec =>
          @Station.output_of_mountStep s t label hOk hStep
            streamer codec
      rcases Station.system_of_mountStep hStep with
        ⟨_, _, hSame | hKicked⟩
      · constructor
        · apply Station.published_of hInv hOutput
          intro codec hFits
          unfold Station.Fits
          rw [hSame]
          exact hFits
        · rw [hSame]
          exact hInv.kept
      · exact
          Station.codecInv_map hInv
            Subscription.quieter_kick
            (fun sub _ hKept => hKept.kick) hOutput hKicked
  | respawn task format =>
      simp only [Station.step] at hStep
      split at hStep
      · rename_i hReady
        cases hStep
        refine ⟨?_, hInv.kept⟩
        intro streamer codec hOutput
        cases streamer with
        | source i => exact hInv.published (.source i) codec hOutput
        | task =>
            simp only [Station.output] at hOutput
            rcases hReady.2.cases with
              ⟨loopPlaylist, rfl⟩ | rfl
            · cases hOutput
            · cases hOutput
      · cases hStep
  | readInfo =>
      cases hStep
      exact Station.codecInv_aside hInv rfl rfl rfl rfl rfl
  | storeInfo sourcePassword maxListeners metadata =>
      simp only [Station.step] at hStep
      split at hStep
      · cases hStep
      · cases hStep
        exact Station.codecInv_aside hInv rfl rfl rfl rfl rfl
  | storeConfig cfg =>
      cases hStep
      exact Station.codecInv_aside hInv rfl rfl rfl rfl rfl
  | build streamer =>
      simp only [Station.step] at hStep
      split at hStep
      · cases hStep
      · rename_i built hBuilt
        cases hStep
        refine ⟨?_, hInv.kept⟩
        intro other codec hOutput
        rcases Station.output_of_build hOutput with
          hBefore | rfl
        · exact hInv.published other codec hBefore
        · exact hOk codec hBuilt
  | publish streamer sequence data =>
      simp only [Station.step] at hStep
      split at hStep
      · cases hStep
      · rename_i codec hOutput
        have hFits := hInv.published streamer codec hOutput
        cases hStep
        refine
          Station.codecInv_map hInv
            (Subscription.quieter_receive _) ?_ ?_ rfl
        · intro sub hMem hKept
          exact hKept.receive (hFits _ hMem)
        · intro other codec hOther
          exact .inl hOther
  | listen icyMetadata =>
      cases hStep
      constructor
      · intro streamer codec hOutput l hMem
        rcases List.mem_append.mp hMem with hOld | hNew
        · exact hInv.published streamer codec hOutput l hOld
        · rw [List.mem_singleton] at hNew
          subst hNew
          trivial
      · intro l hMem
        rcases List.mem_append.mp hMem with hOld | hNew
        · exact hInv.kept l hOld
        · rw [List.mem_singleton] at hNew
          subst hNew
          trivial
  | listener i =>
      simp only [Station.step] at hStep
      split at hStep
      · cases hStep
      · rename_i l hSome
        have hAgrees := hOk l hSome
        split at hStep
        · cases hStep
        · rename_i next hMove
          cases hStep
          exact
            Station.codecInv_listener hInv hSome hAgrees hMove
  | lag i =>
      refine
        Station.codecInv_changeListener hInv hStep
          Subscription.quieter_lag ?_
      intro sub hKept
      exact
        hKept.mono (Subscription.quieter_lag sub)
          (List.tail_subset _) (List.Subset.refl _)
  | leave i =>
      refine
        Station.codecInv_changeListener hInv hStep
          Subscription.quieter_leave ?_
      intro sub hKept
      exact
        hKept.mono (Subscription.quieter_leave sub)
          (List.Subset.refl _) (List.Subset.refl _)
  | kickListener i =>
      exact
        Station.codecInv_changeListener hInv hStep
          Subscription.quieter_kick
          fun sub hKept => hKept.kick

/-
  In every run whose codecs agree, listeners are sent what
  they were told.
-/
theorem codecs_kept
    {s : Station}
    (hReach :
      stationMachine.ReachableUnder CodecsAgree s) :
    CodecsKept s := by
  have hInv : CodecInv s := by
    apply hReach.invariant
    · intro t
      exact codecInv_init
    · intro _ _ _
      exact codecInv_step
  intro l hMem
  exact (hInv.kept l hMem).mono fun sub hKept => hKept.2

end RustyIce

------------------------------------------------------------
-- A Listener Of A Rotation
------------------------------------------------------------

namespace RustyIce

instance (s : Station) (l : Listener) :
    Decidable (s.Agrees l) :=
  match l with
  | .primed promise headers =>
      inferInstanceAs
        (Decidable
          ((∀ packet ∈ Listener.burst s.bus headers,
              promise.Keeps packet) ∧
            ∀ codec ∈ s.outputs, promise.Fits codec))
  | .arrived _ | .configured _ _ | .promised _
  | .subscribed _ => inferInstanceAs (Decidable True)

instance (s : Station) (label : StationLabel) :
    Decidable (CodecsAgree s label) := by
  unfold CodecsAgree
  split
  · split <;> infer_instance
  · infer_instance
  · infer_instance
  · infer_instance

theorem codecs_kept_oneListener :
    ∃ s sub,
      stationMachine.runUnder CodecsAgree
          (.idle rotationConfig) oneListener =
        some s ∧
        s.listeners = [.subscribed sub] ∧
          sub.delivered = [audioPacket] ∧
            sub.promise = { codec := .MP3, icy := true } ∧
              CodecsKept s :=
  ⟨_, _, rfl, rfl, rfl, rfl,
    codecs_kept
      (Library.Machine.reachableUnder_of_runUnder
        (Station.init_idle rotationConfig)
        (rfl :
          stationMachine.runUnder CodecsAgree
              (.idle rotationConfig) oneListener =
            some _))⟩

/- The same rotation, and Ogg Vorbis for everyone else. -/
def vorbisByDefault : Config :=
  { rotationConfig with transcode := some (.bare .vorbis) }

/-
  The listener is told that he gets Ogg, and gets what the
  rotation plays.
-/
theorem oneListener_not_kept :
    ∃ s sub,
      stationMachine.Reachable s ∧
        stationMachine.run (.idle vorbisByDefault)
            oneListener =
          some s ∧
          s.listeners = [.subscribed sub] ∧
            sub.delivered = [audioPacket] ∧
              sub.promise.contentType = "application/ogg" ∧
                ¬ CodecsKept s := by
  refine
    ⟨_, _,
      Library.Machine.reachable_of_run
        (Station.init_idle vorbisByDefault)
        (rfl :
          stationMachine.run (.idle vorbisByDefault)
              oneListener =
            some _),
      rfl, rfl, rfl, rfl, ?_⟩
  intro hKept
  have hPacket :=
    hKept _ List.mem_cons_self audioPacket
      List.mem_cons_self
  have hFits :
      "audio/mpeg" = "application/ogg" := hPacket.1
  cases (by decide : "audio/mpeg" ≠ "application/ogg") hFits

end RustyIce

import RustyIce.Server.SourceHeaders
import RustyIce.Server.TranscodeDecision

/-
  The response a listener gets, headers and all: what a
  source says of itself can always be sent, the texts of the
  configuration are taken as they are.

  Main declarations:
    * `isHeaderValue`, `buildResponse`, `listenerHandler`
    * `PatchEntry`, `PatchEntry.Accepted`
    * `isHeaderValue_readString`
    * `Sendable`
    * `listenerHandler_ok_iff`
-/

------------------------------------------------------------
-- The Response
------------------------------------------------------------

namespace RustyIce

/- `HeaderValue::from_bytes`: no control bytes but tabs. -/
def isHeaderValue (value : Bytes) : Bool :=
  value.all fun b => b = 9 || (32 ≤ b && b ≠ 127)

structure Response where
  status : Nat
  headers : List (String × String)
  text : Option String
deriving DecidableEq, Repr

/- A response without a stream. -/
def Response.plain
    (status : Nat)
    (text : Option String) : Response where
  status := status
  headers := []
  text := text

/-
  The end of a response builder: one header that cannot be
  sent spoils it.
-/
def buildResponse
    (headers : List (String × String)) : Option Response :=
  if headers.all fun h => isHeaderValue (utf8Bytes h.2) then
    some { status := 200, headers := headers, text := none }
  else
    none

def optionalHeader
    (name : String)
    (value : Option String) : List (String × String) :=
  (value.map fun v => (name, v)).toList

def EffectiveIdentity.headers
    (identity : EffectiveIdentity) : List (String × String) :=
  optionalHeader "icy-name" identity.name ++
    optionalHeader "icy-description" identity.description ++
    optionalHeader "icy-genre" identity.genre ++
    optionalHeader "icy-url" identity.url ++
    optionalHeader "icy-pub"
      (identity.isPublic.map fun p => if p then "1" else "0") ++
    optionalHeader "ice-audio-info" identity.audioInfo ++
    optionalHeader "icy-br" (identity.bitrateKbps.map toString)

def responseHeaders
    (promise : Promise)
    (identity : EffectiveIdentity) : List (String × String) :=
  [("content-type", promise.contentType),
      ("access-control-allow-origin", "*")] ++
    identity.headers ++
    if promise.icy then [("icy-metaint", "8192")] else []

/-
  What a listener gets that finds so many listeners on the
  server and on the mount.
-/
def listenerHandler
    (cfg : Config)
    (path : String)
    (mount? : Option ActiveMount)
    (total listeners : Nat)
    (icyMetadata : Bool) : Response :=
  match mount? with
  | none => .plain 404 "mount not found"
  | some mount =>
      if cfg.limits.maxListenersGlobal ≤ total then
        .plain 503 "server full"
      else if mount.info.maxListeners.any (· ≤ listeners) then
        .plain 503 "mount full"
      else
        let transcode := mountTranscode cfg path
        let promise :=
          Promise.make mount.info.codec transcode icyMetadata
        let identity := mount.effectiveIdentity transcode
        (buildResponse (responseHeaders promise identity)).getD
          (.plain 500 none)

/- There is room for the listener. -/
structure BelowCaps
    (cfg : Config)
    (mount : ActiveMount)
    (total listeners : Nat) : Prop where
  server : total < cfg.limits.maxListenersGlobal
  mount : ∀ max ∈ mount.info.maxListeners, listeners < max

end RustyIce

------------------------------------------------------------
-- Where The Texts Come From
------------------------------------------------------------

namespace RustyIce

open ConfigPut ConfigWrite

/- An entry of the sections that describe mounts. -/
inductive PatchEntry where
| mount (m : MountSubPatch)
| autodj (a : AutoDjSubPatch)
| relay (r : RelaySubPatch)

namespace PatchEntry

/- It is in a patch that its validator accepts. -/
def Accepted : PatchEntry → Prop
| .mount m =>
    ∃ p, validateMountsPatch p = .ok () ∧ m ∈ p.mounts
| .autodj a =>
    ∃ p, validateAutodjsPatch p = .ok () ∧ a ∈ p.autodjs
| .relay r =>
    ∃ p, validateRelaysPatch p = .ok () ∧ r ∈ p.relays

/- The mount that the configuration makes of it. -/
def info : PatchEntry → Except String MountInfo
| .mount m => mountInfo <$> mountConfig m
| .autodj a => autodjInfo <$> autodjConfig a
| .relay r => relayInfo <$> relayConfig r

def texts : PatchEntry → MountMetadata
| .mount m =>
    { name := m.name
      description := m.description
      genre := m.genre
      url := m.url }
| .autodj a =>
    { name := a.name
      description := a.description
      genre := a.genre
      url := a.url }
| .relay r =>
    { name := r.name
      description := r.description
      genre := r.genre
      url := r.url }

/- An accepted entry describes a mount with its texts. -/
theorem info_of_accepted
    {entry : PatchEntry}
    (hAccepted : entry.Accepted) :
    ∃ info,
      entry.info = .ok info ∧ info.metadata = entry.texts := by
  cases entry with
  | mount m =>
      rcases hAccepted with ⟨p, hValid, hMem⟩
      rcases check_of_validateEach hValid m hMem with
        ⟨name, seen, hCheck⟩
      rcases
          optionalTranscodeConfig_total
            (format_of_validateMount hCheck) with
        ⟨transcode, hTranscode⟩
      have hConfig :
          ∃ c,
            mountConfig m = .ok c ∧
              (mountInfo c).metadata =
                (PatchEntry.mount m).texts := by
        rw [mountConfig, hTranscode]
        exact ⟨_, rfl, rfl⟩
      rcases hConfig with ⟨c, hConfig, hTexts⟩
      refine ⟨mountInfo c, ?_, hTexts⟩
      rw [info, hConfig]
      rfl
  | autodj a =>
      rcases hAccepted with ⟨p, hValid, hMem⟩
      rcases check_of_validateEach hValid a hMem with
        ⟨name, seen, hCheck⟩
      rcases
          transcodeConfig_total
            (order_of_validateAutoDj hCheck).2 with
        ⟨transcode, hTranscode⟩
      have hConfig :
          ∃ c,
            autodjConfig a = .ok c ∧
              (autodjInfo c).metadata =
                (PatchEntry.autodj a).texts := by
        rw [autodjConfig, hTranscode]
        exact ⟨_, rfl, rfl⟩
      rcases hConfig with ⟨c, hConfig, hTexts⟩
      refine ⟨autodjInfo c, ?_, hTexts⟩
      rw [info, hConfig]
      rfl
  | relay r =>
      rcases hAccepted with ⟨p, hValid, hMem⟩
      rcases check_of_validateEach hValid r hMem with
        ⟨name, seen, hCheck⟩
      rcases
          optionalTranscodeConfig_total
            (format_of_validateRelay hCheck) with
        ⟨transcode, hTranscode⟩
      have hConfig :
          ∃ c,
            relayConfig r = .ok c ∧
              (relayInfo c).metadata =
                (PatchEntry.relay r).texts := by
        rw [relayConfig, hTranscode]
        exact ⟨_, rfl, rfl⟩
      rcases hConfig with ⟨c, hConfig, hTexts⟩
      refine ⟨relayInfo c, ?_, hTexts⟩
      rw [info, hConfig]
      rfl

end PatchEntry

/- What a source said of itself, if there is one. -/
def FromSource (overlay : Option SourceOverlay) : Prop :=
  ∀ o ∈ overlay, ∃ headers, parseSourceOverlay headers = o

/- A configured text can be sent, or is not shown. -/
def SendableUnless
    (text supplied : Option String) : Prop :=
  supplied = none →
    ∀ t ∈ text, isHeaderValue (utf8Bytes t) = true

/-
  The configured texts that the source does not replace can
  be sent.
-/
structure Sendable
    (texts : MountMetadata)
    (overlay : Option SourceOverlay) : Prop where
  name : SendableUnless texts.name (overlay.bind (·.name))
  description :
    SendableUnless texts.description
      (overlay.bind (·.description))
  genre : SendableUnless texts.genre (overlay.bind (·.genre))
  url : SendableUnless texts.url (overlay.bind (·.url))

end RustyIce

------------------------------------------------------------
-- Texts That Can Be Sent
------------------------------------------------------------

namespace RustyIce

/- Visible ASCII or a tab. -/
def IsVisible (c : Char) : Prop :=
  c.toNat = 9 ∨ 32 ≤ c.toNat ∧ c.toNat < 127

instance (c : Char) : Decidable (IsVisible c) :=
  inferInstanceAs
    (Decidable (c.toNat = 9 ∨ 32 ≤ c.toNat ∧ c.toNat < 127))

/- Each such character is one byte, and may be sent. -/
theorem isHeaderValue_of_visible
    {text : String}
    (hVisible : ∀ c ∈ text.toList, IsVisible c) :
    isHeaderValue (utf8Bytes text) = true := by
  apply List.all_eq_true.mpr
  intro b hMem
  rcases List.mem_flatMap.mp hMem with ⟨c, hC, hByte⟩
  have hRange := hVisible c hC
  have hSmall : c.toNat < 127 := by
    rcases hRange with h | h
    · omega
    · exact h.2
  have hOne : c.utf8Size = 1 := by
    rw [Char.utf8Size_eq_one_iff, UInt32.le_iff_toNat_le]
    exact Nat.le_of_lt hSmall
  rw [String.utf8EncodeChar_eq_singleton hOne,
    List.mem_singleton] at hByte
  have hSame : b.toNat = c.toNat := by
    rw [hByte, UInt32.toNat_toUInt8]
    exact Nat.mod_eq_of_lt (Nat.lt_trans hSmall (by decide))
  have hNine : b = 9 ↔ b.toNat = 9 := UInt8.toNat_inj.symm
  have hDel : b ≠ 127 ↔ b.toNat ≠ 127 :=
    not_congr UInt8.toNat_inj.symm
  have hLow : 32 ≤ b ↔ 32 ≤ b.toNat := UInt8.le_iff_toNat_le
  simp only [Bool.or_eq_true, Bool.and_eq_true,
    decide_eq_true_iff, hNine, hDel, hLow, hSame]
  rcases hRange with h | h
  · exact .inl h
  · exact .inr ⟨h.1, by omega⟩

theorem mem_of_mem_trimText
    {text : List Char}
    {c : Char}
    (hMem : c ∈ trimText text) :
    c ∈ text := by
  unfold trimText at hMem
  have hBack :=
    (List.dropWhile_sublist _).mem (List.mem_reverse.mp hMem)
  exact
    (List.dropWhile_sublist _).mem (List.mem_reverse.mp hBack)

/- What is read of a header can be sent in another one. -/
theorem isHeaderValue_readString
    {headers : HeaderMap}
    {primary fallback text : String}
    (hRead : readString headers primary fallback = some text) :
    isHeaderValue (utf8Bytes text) = true := by
  rcases Option.bind_eq_some_iff.mp hRead with
    ⟨trimmed, hEither, hText⟩
  split at hText
  · cases hText
  · cases hText
    rcases Option.bind_eq_some_iff.mp hEither with
      ⟨header, -, hHeader⟩
    rcases Option.map_eq_some_iff.mp hHeader with
      ⟨raw, hRaw, rfl⟩
    unfold visibleText at hRaw
    split at hRaw
    · rename_i hAll
      cases hRaw
      apply isHeaderValue_of_visible
      intro c hMem
      rw [String.toList_ofList] at hMem
      rcases List.mem_map.mp (mem_of_mem_trimText hMem) with
        ⟨b, hB, rfl⟩
      have hByte := List.all_eq_true.mp hAll b hB
      simp only [Bool.or_eq_true, Bool.and_eq_true,
        decide_eq_true_iff] at hByte
      have hAscii :
          ∀ n < 256, (Char.ofNat n).toNat = n := by
        decide +kernel
      have hSame := hAscii b.toNat b.toNat_lt
      rw [IsVisible, hSame]
      rcases hByte with hTab | ⟨hLow, hHigh⟩
      · exact .inl (by rw [hTab]; rfl)
      · exact
          .inr
            ⟨UInt8.le_iff_toNat_le.mp hLow,
              UInt8.lt_iff_toNat_lt.mp hHigh⟩
    · cases hRaw

/- A check of a text that can be run. -/
theorem visible_of_all
    {text : String}
    (hAll :
      (text.toList.all fun c => decide (IsVisible c)) =
        true) :
    ∀ c ∈ text.toList, IsVisible c := by
  intro c hMem
  exact of_decide_eq_true (List.all_eq_true.mp hAll c hMem)

/- So can a number. -/
theorem visible_toString
    (n : Nat) :
    ∀ c ∈ (toString n).toList, IsVisible c := by
  intro c hMem
  have hDigits : c ∈ Nat.toDigits 10 n := by
    rw [← Nat.toList_repr]
    exact hMem
  have hDigit :=
    Nat.isDigit_of_mem_toDigits (by decide) (by decide) hDigits
  simp only [Char.isDigit, Bool.and_eq_true,
    decide_eq_true_iff] at hDigit
  have hLow := UInt32.le_iff_toNat_le.mp hDigit.1
  have hHigh := UInt32.le_iff_toNat_le.mp hDigit.2
  exact .inr ⟨Nat.le_trans (by decide) hLow,
    Nat.lt_of_le_of_lt hHigh (by decide)⟩

theorem visible_append
    {first second : String}
    (hFirst : ∀ c ∈ first.toList, IsVisible c)
    (hSecond : ∀ c ∈ second.toList, IsVisible c) :
    ∀ c ∈ (first ++ second).toList, IsVisible c := by
  intro c hMem
  rw [String.toList_append] at hMem
  rcases List.mem_append.mp hMem with hMem | hMem
  · exact hFirst c hMem
  · exact hSecond c hMem

end RustyIce

------------------------------------------------------------
-- The Headers Of A Mount
------------------------------------------------------------

namespace RustyIce

/- All values of a list of headers can be sent. -/
def AllSent (headers : List (String × String)) : Prop :=
  ∀ h ∈ headers, isHeaderValue (utf8Bytes h.2) = true

theorem allSent_append
    (first second : List (String × String)) :
    AllSent (first ++ second) ↔
      AllSent first ∧ AllSent second :=
  List.forall_mem_append

theorem allSent_optional
    (name : String)
    (value : Option String) :
    AllSent (optionalHeader name value) ↔
      ∀ v ∈ value, isHeaderValue (utf8Bytes v) = true := by
  cases value with
  | none => simp [AllSent, optionalHeader]
  | some v => simp [AllSent, optionalHeader]

/- A field of the source is shown in front of the setting. -/
theorem sent_orElse_iff
    {supplied : Option String}
    (text : Option String)
    (hSource :
      ∀ v ∈ supplied, isHeaderValue (utf8Bytes v) = true) :
    (∀ v ∈ (supplied <|> text),
        isHeaderValue (utf8Bytes v) = true) ↔
      SendableUnless text supplied := by
  cases supplied with
  | none =>
      constructor
      · exact fun h _ => h
      · exact fun h => h rfl
  | some v =>
      constructor
      · intro _ hNone
        cases hNone
      · exact fun _ => hSource

/- What a source supplies can be sent, whatever it is. -/
theorem sent_of_source
    {overlay : Option SourceOverlay}
    (hOverlay : FromSource overlay)
    (field : SourceOverlay → Option String)
    {primary fallback : String}
    (hField :
      ∀ headers,
        field (parseSourceOverlay headers) =
          readString headers primary fallback) :
    ∀ v ∈ overlay.bind field,
      isHeaderValue (utf8Bytes v) = true := by
  intro v hMem
  rcases Option.bind_eq_some_iff.mp hMem with ⟨o, hO, hV⟩
  rcases hOverlay o hO with ⟨headers, rfl⟩
  rw [hField headers] at hV
  exact isHeaderValue_readString hV

theorem sent_audioInfo
    {mount : ActiveMount}
    (hOverlay : FromSource mount.sourceOverlay)
    (transcode : Option TranscodeConfig) :
    ∀ v ∈ (mount.effectiveIdentity transcode).audioInfo,
      isHeaderValue (utf8Bytes v) = true := by
  cases transcode with
  | none =>
      exact
        sent_of_source hOverlay (·.audioInfo) fun _ => rfl
  | some tc =>
      intro v hMem
      cases hMem
      have hRate : ∀ c ∈ "samplerate=".toList, IsVisible c :=
        visible_of_all (by decide)
      have hRest :
          ∀ c ∈ ";channels=2;bitrate=".toList, IsVisible c :=
        visible_of_all (by decide)
      apply isHeaderValue_of_visible
      exact
        visible_append
          (visible_append
            (visible_append hRate (visible_toString _)) hRest)
          (visible_toString _)

/- Of the identity only the configured texts may not do. -/
theorem sent_identity_iff
    {mount : ActiveMount}
    (hOverlay : FromSource mount.sourceOverlay)
    (transcode : Option TranscodeConfig) :
    AllSent (mount.effectiveIdentity transcode).headers ↔
      Sendable mount.info.metadata mount.sourceOverlay := by
  have hName :=
    sent_orElse_iff mount.info.metadata.name
      (sent_of_source hOverlay (·.name) fun _ => rfl)
  have hDescription :=
    sent_orElse_iff mount.info.metadata.description
      (sent_of_source hOverlay (·.description) fun _ => rfl)
  have hGenre :=
    sent_orElse_iff mount.info.metadata.genre
      (sent_of_source hOverlay (·.genre) fun _ => rfl)
  have hUrl :=
    sent_orElse_iff mount.info.metadata.url
      (sent_of_source hOverlay (·.url) fun _ => rfl)
  have hPublic :
      ∀ v ∈ (mount.sourceOverlay.bind (·.isPublic)).map
          (fun p : Bool => if p then "1" else "0"),
        isHeaderValue (utf8Bytes v) = true := by
    intro v hMem
    rcases Option.map_eq_some_iff.mp hMem with ⟨p, -, rfl⟩
    cases p with
    | true => decide
    | false => decide
  have hBitrate :
      ∀ v ∈
          (mount.effectiveIdentity
            transcode).bitrateKbps.map toString,
        isHeaderValue (utf8Bytes v) = true := by
    intro v hMem
    rcases Option.map_eq_some_iff.mp hMem with ⟨n, -, rfl⟩
    exact isHeaderValue_of_visible (visible_toString n)
  simp only [EffectiveIdentity.headers, allSent_append,
    allSent_optional]
  constructor
  · rintro ⟨⟨⟨⟨⟨⟨hN, hD⟩, hG⟩, hU⟩, -⟩, -⟩, -⟩
    exact
      ⟨hName.mp hN, hDescription.mp hD, hGenre.mp hG,
        hUrl.mp hU⟩
  · intro hSendable
    exact
      ⟨⟨⟨⟨⟨⟨hName.mpr hSendable.name,
                  hDescription.mpr hSendable.description⟩,
                hGenre.mpr hSendable.genre⟩,
              hUrl.mpr hSendable.url⟩,
            hPublic⟩,
          sent_audioInfo hOverlay transcode⟩,
        hBitrate⟩

theorem sent_response_iff
    (promise : Promise)
    (identity : EffectiveIdentity) :
    AllSent (responseHeaders promise identity) ↔
      AllSent identity.headers := by
  have hFixed :
      AllSent
        [("content-type", promise.contentType),
          ("access-control-allow-origin", "*")] := by
    intro h hMem
    rcases List.mem_cons.mp hMem with rfl | hMem
    · simp only [Promise.contentType, contentTypeFor]
      split
      · decide
      · decide
    · rw [List.mem_singleton.mp hMem]
      decide
  have hIcy :
      AllSent
        (if promise.icy then [("icy-metaint", "8192")]
          else []) := by
    split
    · intro h hMem
      rw [List.mem_singleton.mp hMem]
      decide
    · intro h hMem
      cases hMem
  rw [responseHeaders, allSent_append, allSent_append]
  exact
    ⟨fun h => h.1.2, fun h => ⟨⟨hFixed, h⟩, hIcy⟩⟩

/-
  A listener below the caps gets its stream exactly where
  the configured texts that are shown can be sent.
-/
theorem listenerHandler_ok_iff
    (entry : PatchEntry)
    (hAccepted : entry.Accepted) :
    ∃ info,
      entry.info = .ok info ∧
        ∀ (cfg : Config) (path : String) (mount : ActiveMount)
          (total listeners : Nat) (icyMetadata : Bool),
          mount.info.metadata = info.metadata →
            FromSource mount.sourceOverlay →
              BelowCaps cfg mount total listeners →
                ((listenerHandler cfg path mount total
                    listeners icyMetadata).status = 200 ↔
                  Sendable entry.texts
                    mount.sourceOverlay) := by
  rcases PatchEntry.info_of_accepted hAccepted with
    ⟨info, hInfo, hTexts⟩
  refine ⟨info, hInfo, ?_⟩
  intro cfg path mount total listeners icyMetadata hMetadata
    hOverlay hCaps
  have hServer : ¬ cfg.limits.maxListenersGlobal ≤ total := by
    have := hCaps.server
    omega
  have hMount :
      ¬ mount.info.maxListeners.any (· ≤ listeners) = true := by
    cases hMax : mount.info.maxListeners with
    | none => simp
    | some max =>
        have hLess := hCaps.mount max hMax
        simpa using hLess
  rw [← hTexts, ← hMetadata,
    ← sent_identity_iff hOverlay (mountTranscode cfg path),
    ← sent_response_iff
      (.make mount.info.codec (mountTranscode cfg path)
        icyMetadata)]
  simp only [listenerHandler, if_neg hServer, if_neg hMount,
    buildResponse]
  by_cases hSent :
      AllSent
        (responseHeaders
          (.make mount.info.codec (mountTranscode cfg path)
            icyMetadata)
          (mount.effectiveIdentity (mountTranscode cfg path)))
  · rw [if_pos (List.all_eq_true.mpr hSent)]
    exact iff_of_true rfl hSent
  · rw [if_neg fun h => hSent (List.all_eq_true.mp h)]
    refine iff_of_false ?_ hSent
    show ¬ (500 = 200)
    decide

/- A mount entry with this name and nothing special. -/
def namedMount (name : String) : ConfigWrite.MountSubPatch where
  path := "/live"
  sourcePassword := "hackme"
  maxListeners := none
  name := some name
  description := none
  genre := none
  url := none
  burstSize := none
  transcode := none

def liveInfo (name : String) : MountInfo where
  path := "/live"
  codec := .MP3
  sourcePassword := "hackme"
  maxListeners := none
  metadata :=
    { name := some name
      description := none
      genre := none
      url := none }

def liveMount (name : String) : ActiveMount :=
  .new (liveInfo name) { capacity := 16, burstBytes := 0 }

theorem belowCaps_liveMount (name : String) :
    BelowCaps .bare (liveMount name) 0 0 where
  server := by decide
  mount := by
    intro max hMax
    cases hMax

theorem fromSource_liveMount (name : String) :
    FromSource (liveMount name).sourceOverlay := by
  intro o hO
  cases hO

theorem listenerHandler_ok_radio :
    ∃ info,
      (PatchEntry.mount (namedMount "Radio")).info =
          .ok info ∧
        (listenerHandler .bare "/live"
          (some (liveMount "Radio")) 0 0 false).status =
          200 := by
  have hAccepted :
      (PatchEntry.mount (namedMount "Radio")).Accepted :=
    ⟨⟨[namedMount "Radio"]⟩, by decide, by simp⟩
  rcases listenerHandler_ok_iff _ hAccepted with
    ⟨info, hInfo, hAll⟩
  refine ⟨info, hInfo, ?_⟩
  have hSame : info = liveInfo "Radio" := by
    cases hInfo
    rfl
  apply
    (hAll .bare "/live" (liveMount "Radio") 0 0 false
      (by rw [hSame]; rfl) (fromSource_liveMount _)
      (belowCaps_liveMount _)).mpr
  constructor
  · intro _ t hMem
    cases hMem
    decide
  · intro _ t hMem
    cases hMem
  · intro _ t hMem
    cases hMem
  · intro _ t hMem
    cases hMem

/- A name of two lines is accepted, and no listener is. -/
theorem twoLines_refused :
    (PatchEntry.mount (namedMount "Radio\nOne")).Accepted ∧
      (PatchEntry.mount (namedMount "Radio\nOne")).info =
          .ok (liveInfo "Radio\nOne") ∧
        BelowCaps .bare (liveMount "Radio\nOne") 0 0 ∧
          listenerHandler .bare "/live"
              (some (liveMount "Radio\nOne")) 0 0 false =
            .plain 500 none := by
  refine
    ⟨⟨⟨[namedMount "Radio\nOne"]⟩, by decide, by simp⟩, rfl,
      belowCaps_liveMount _, by decide⟩

end RustyIce

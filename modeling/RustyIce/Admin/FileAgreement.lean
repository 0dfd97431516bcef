import RustyIce.Admin.WriteBack

/-
  The file and the running configuration under saves that
  come one after the other.

  A save edits the document by hand and builds the applied
  configuration by hand. The two agree as long as the tables
  it edits are spelled so that the edit reaches them, and
  the numbers fit the file.

  Main declarations:
    * `RunAgrees`
    * `Fits` and `RunFits`
    * `apply_agrees_iff`
    * `file_agrees_iff`
-/

------------------------------------------------------------
-- Sections Of A Configuration
------------------------------------------------------------

namespace RustyIce

/- What belongs to a section; `tls` belongs to none. -/
inductive SectionValue where
| server
    (server : ServerConfig)
    (logging : LoggingConfig)
    (limits : LimitsConfig)
    (sourcePassword : Option String)
| transcode (transcode : Option TranscodeConfig)
| mounts (mounts : List MountConfig)
| users (users : List UserConfig)
| autodjs (autodjs : List AutoDjConfig)
| relays (relays : List RelayConfig)
deriving DecidableEq, Repr

def Config.sectionValue
    (cfg : Config) : ConfigSection → SectionValue
| .server =>
    .server cfg.server cfg.logging cfg.limits
      cfg.auth.sourcePassword
| .transcode => .transcode cfg.transcode
| .mounts => .mounts cfg.mounts
| .users => .users cfg.auth.users
| .autodjs => .autodjs cfg.autodjs
| .relays => .relays cfg.relays

theorem SectionPatch.sectionValue_overlay_other
    {patch : SectionPatch}
    {other : ConfigSection}
    (hOther : other ≠ patch.target)
    (cfg : Config) :
    (patch.overlay cfg).sectionValue other =
      cfg.sectionValue other := by
  cases patch <;> cases other <;>
    first
    | rfl
    | exact absurd rfl hOther

theorem SectionPatch.tls_overlay
    (patch : SectionPatch)
    (cfg : Config) :
    (patch.overlay cfg).tls = cfg.tls := by
  cases patch <;> rfl

end RustyIce

------------------------------------------------------------
-- Saves One After The Other
------------------------------------------------------------

namespace RustyIce

namespace ConfigPut

open ConfigWrite Library Library.Toml

def PutRequest.target : PutRequest → ConfigSection
| .server _ => .server
| .transcode _ => .transcode
| .mounts _ => .mounts
| .users _ _ _ => .users
| .autodjs _ => .autodjs
| .relays _ => .relays

/-
  The file is accepted, says what runs, and the sections not
  saved say what they said before.
-/
structure SaveAgrees
    (changed : ConfigSection)
    (s t : FileState) : Prop where
  loads : load t.document = .ok t.running
  others :
    ∀ other, other ≠ changed →
      (parseDocument t.document).map (·.sectionValue other) =
        (parseDocument s.document).map
          (·.sectionValue other)
  tls :
    (parseDocument t.document).map Config.tls =
      (parseDocument s.document).map Config.tls

/-
  No save of a sequence panics, and each leaves file and
  running configuration in agreement. A request that is
  turned down changes nothing.
-/
def RunAgrees : FileState → List PutRequest → Prop
| _, [] => True
| s, put :: puts =>
    match put.exec s with
    | .ok t => SaveAgrees put.target s t ∧ RunAgrees t puts
    | .error (.rejected _) => RunAgrees s puts
    | .error (.panicked _) => False

/- A key holds a table in one of the two spellings. -/
def tableLikeAt
    (doc : Table)
    (name : String) : Bool :=
  ((doc.get name).bind Item.asTableLike).isSome

/- A key holds a standard table. -/
def standardAt
    (doc : Table)
    (name : String) : Bool :=
  ((doc.get name).bind Item.asTable).isSome

/-
  What the edit of a section asks of the document, and of
  the numbers of the patch.
-/
def Fits (s : FileState) : Patch → Prop
| .server p =>
    tableLikeAt s.document "server" ∧
      tableLikeAt s.document "logging" ∧
        tableLikeAt s.document "limits" ∧
          (p.auth.isSome → tableLikeAt s.document "auth") ∧
            p.limits.ringSize.toNat ≤ i64Max ∧
              p.limits.slowListenerGraceS.toNat ≤ i64Max ∧
                (standardAt s.document "limits" ∨
                  p.limits.sourceMaxKbps.isSome ∨
                    s.running.limits.sourceMaxKbps = none)
| .transcode p =>
    p.transcode.isSome →
      s.document.get "transcode" = none ∨
        tableLikeAt s.document "transcode"
| .users _ => standardAt s.document "auth"
| .mounts _ => True
| .autodjs _ => True
| .relays _ => True

/- The patch a request resolves to. -/
def PutRequest.resolve
    (current : Config) :
    PutRequest → Except PutError Patch
| .server body => pure (.server (resolveServer body))
| .transcode body => pure (.transcode body)
| .mounts body => do
    let patch ← resolveMounts current body
    pure (.mounts patch)
| .users requester hash body => do
    let patch ← resolveUsers current requester hash body
    pure (.users patch)
| .autodjs body => pure (.autodjs body)
| .relays body =>
    pure (.relays (resolveRelays current body))

/- A request that passes every check. -/
structure Accepted
    (current : Config)
    (put : PutRequest)
    (patch : Patch)
    (candidate : Config) : Prop where
  resolved : put.resolve current = .ok patch
  checked : checkPatch patch = .ok ()
  built : patch.candidate current = .ok candidate
  paths : checkCandidate patch candidate = .ok ()

/- Every accepted save of a sequence fits its document. -/
def RunFits : FileState → List PutRequest → Prop
| _, [] => True
| s, put :: puts =>
    (∀ patch candidate,
      Accepted s.running put patch candidate →
        Fits s patch) ∧
      match put.exec s with
      | .ok t => RunFits t puts
      | .error _ => RunFits s puts

end ConfigPut

end RustyIce

------------------------------------------------------------
-- Accepted Requests
------------------------------------------------------------

namespace RustyIce

namespace ConfigPut

open ConfigWrite Library Library.Toml

theorem PutRequest.exec_eq
    (put : PutRequest)
    (s : FileState) :
    put.exec s =
      orReject (put.resolve s.running) >>= saveSection s := by
  cases put with
  | server body => rfl
  | transcode body => rfl
  | mounts body =>
      simp only [exec, putMounts, resolve]
      cases resolveMounts s.running body <;> rfl
  | users requester hash body =>
      simp only [exec, putUsers, resolve]
      cases resolveUsers s.running requester hash body <;> rfl
  | autodjs body => rfl
  | relays body => rfl

theorem transcodeConfig_total
    {t : TranscodeSubPatch}
    (hFormat : t.format = "mp3" ∨ t.format = "vorbis") :
    ∃ config, transcodeConfig t = .ok config := by
  unfold transcodeConfig transcodeFormat
  rcases hFormat with hFormat | hFormat
  · rw [hFormat]
    exact ⟨_, rfl⟩
  · rw [hFormat]
    exact ⟨_, rfl⟩

theorem optionalTranscodeConfig_total
    {source : Option TranscodeSubPatch}
    (hFormat :
      ∀ t ∈ source,
        t.format = "mp3" ∨ t.format = "vorbis") :
    ∃ config, optionalTranscodeConfig source = .ok config := by
  cases source with
  | none => exact ⟨none, rfl⟩
  | some t =>
      rcases transcodeConfig_total (hFormat t rfl) with
        ⟨config, hConfig⟩
      refine ⟨some config, ?_⟩
      rw [optionalTranscodeConfig, hConfig]
      rfl

theorem orPanic_eq_ok_iff
    {Value : Type}
    {x : Except String Value}
    {value : Value} :
    orPanic x = .ok value ↔ x = .ok value := by
  cases x <;> simp [orPanic]

theorem orReject_eq_ok_iff
    {Value : Type}
    {x : Except PutError Value}
    {value : Value} :
    orReject x = .ok value ↔ x = .ok value := by
  cases x <;> simp [orReject]

/- No handler reaches the arms validation rules out. -/
theorem Patch.candidate_total
    {patch : Patch}
    (hValid : patch.validate = .ok ())
    (current : Config) :
    ∃ candidate, patch.candidate current = .ok candidate := by
  cases patch with
  | server p =>
      have hFormat := format_of_validateServer hValid
      simp only [candidate, serverCandidate, logFormat]
      rcases hFormat with hFormat | hFormat
      · rw [hFormat]
        exact ⟨_, rfl⟩
      · rw [hFormat]
        exact ⟨_, rfl⟩
  | transcode p =>
      have hFormat :
          ∀ t ∈ p.transcode,
            t.format = "mp3" ∨ t.format = "vorbis" := by
        intro t hSome
        rcases p with ⟨source⟩
        rw [Option.mem_def] at hSome
        subst hSome
        exact format_of_validateTranscode hValid
      rcases optionalTranscodeConfig_total hFormat with
        ⟨config, hConfig⟩
      simp only [candidate, transcodeCandidate, hConfig]
      exact ⟨_, rfl⟩
  | mounts p =>
      have hEach :
          ∀ m ∈ p.mounts, ∃ c, mountConfig m = .ok c := by
        intro m hMem
        rcases check_of_validateEach hValid m hMem with
          ⟨_, _, hCheck⟩
        rcases optionalTranscodeConfig_total
            (format_of_validateMount hCheck) with
          ⟨config, hConfig⟩
        rw [mountConfig, hConfig]
        exact ⟨_, rfl⟩
      rcases exists_mapM_eq_ok hEach with ⟨mounts, hMounts⟩
      simp only [candidate, mountsCandidate, hMounts]
      exact ⟨_, rfl⟩
  | users p => exact ⟨_, rfl⟩
  | autodjs p =>
      have hEach :
          ∀ a ∈ p.autodjs, ∃ c, autodjConfig a = .ok c := by
        intro a hMem
        rcases check_of_validateEach hValid a hMem with
          ⟨_, _, hCheck⟩
        rcases transcodeConfig_total
            (order_of_validateAutoDj hCheck).2 with
          ⟨config, hConfig⟩
        rw [autodjConfig, hConfig]
        exact ⟨_, rfl⟩
      rcases exists_mapM_eq_ok hEach with ⟨autodjs, hAutodjs⟩
      simp only [candidate, autodjsCandidate, hAutodjs]
      exact ⟨_, rfl⟩
  | relays p =>
      have hEach :
          ∀ r ∈ p.relays, ∃ c, relayConfig r = .ok c := by
        intro r hMem
        rcases check_of_validateEach hValid r hMem with
          ⟨_, _, hCheck⟩
        rcases optionalTranscodeConfig_total
            (format_of_validateRelay hCheck) with
          ⟨config, hConfig⟩
        rw [relayConfig, hConfig]
        exact ⟨_, rfl⟩
      rcases exists_mapM_eq_ok hEach with ⟨relays, hRelays⟩
      simp only [candidate, relaysCandidate, hRelays]
      exact ⟨_, rfl⟩

theorem validate_of_checkPatch
    {patch : Patch}
    (hCheck : checkPatch patch = .ok ()) :
    patch.validate = .ok () := by
  unfold checkPatch at hCheck
  split at hCheck
  · assumption
  · cases hCheck

theorem saveSection_of_built
    {s : FileState}
    {patch : Patch}
    {candidate : Config}
    (hChecked : checkPatch patch = .ok ())
    (hBuilt : patch.candidate s.running = .ok candidate) :
    saveSection s patch =
      orReject (checkCandidate patch candidate) >>= fun _ =>
        persistAndApply s candidate fun doc =>
          patch.apply doc := by
  simp only [saveSection, hChecked, hBuilt]
  rfl

/- An accepted request is a matter of its edit alone. -/
theorem exec_of_accepted
    {s : FileState}
    {put : PutRequest}
    {patch : Patch}
    {candidate : Config}
    (hAccepted : Accepted s.running put patch candidate) :
    put.exec s =
      persistAndApply s candidate fun doc =>
        patch.apply doc := by
  rw [put.exec_eq, hAccepted.resolved]
  change saveSection s patch = _
  rw [saveSection_of_built hAccepted.checked hAccepted.built,
    hAccepted.paths]
  rfl

/- What is accepted of a request is determined. -/
theorem Accepted.unique
    {current : Config}
    {put : PutRequest}
    {patch patch' : Patch}
    {candidate candidate' : Config}
    (hFirst : Accepted current put patch candidate)
    (hSecond : Accepted current put patch' candidate') :
    patch' = patch ∧ candidate' = candidate := by
  have hPatch :=
    hFirst.resolved.symm.trans hSecond.resolved
  cases hPatch
  have hCandidate := hFirst.built.symm.trans hSecond.built
  cases hCandidate
  exact ⟨rfl, rfl⟩

/- Any other request is turned down. -/
theorem exec_cases
    (s : FileState)
    (put : PutRequest) :
    (∃ patch candidate,
      Accepted s.running put patch candidate) ∨
      (∃ error, put.exec s = .error (.rejected error)) ∧
        ∀ patch candidate,
          ¬ Accepted s.running put patch candidate := by
  rw [put.exec_eq]
  cases hResolve : put.resolve s.running with
  | error e =>
      refine .inr ⟨⟨e, rfl⟩, ?_⟩
      intro patch candidate hAccepted
      cases hResolve.symm.trans hAccepted.resolved
  | ok patch =>
      cases hCheck : checkPatch patch with
      | error e =>
          refine .inr ⟨⟨e, ?_⟩, ?_⟩
          · change saveSection s patch = _
            rw [saveSection, hCheck]
            rfl
          · intro other candidate hAccepted
            cases hResolve.symm.trans hAccepted.resolved
            cases hCheck.symm.trans hAccepted.checked
      | ok value =>
          rcases Patch.candidate_total
              (validate_of_checkPatch hCheck) s.running with
            ⟨candidate, hBuilt⟩
          cases hPaths : checkCandidate patch candidate with
          | error e =>
              refine .inr ⟨⟨e, ?_⟩, ?_⟩
              · change saveSection s patch = _
                rw [saveSection_of_built hCheck hBuilt,
                  hPaths]
                rfl
              · intro other candidate' hAccepted
                cases hResolve.symm.trans hAccepted.resolved
                cases hBuilt.symm.trans hAccepted.built
                cases hPaths.symm.trans hAccepted.paths
          | ok value =>
              exact
                .inl
                  ⟨patch, candidate, hResolve, hCheck, hBuilt,
                    hPaths⟩

end ConfigPut

end RustyIce

------------------------------------------------------------
-- One Edit
------------------------------------------------------------

namespace RustyIce

namespace ConfigPut

open ConfigWrite Library Library.Toml

theorem editTable_ok_iff
    {doc result : Table}
    {name : String}
    {edit : Item → Except String Item} :
    editTable doc name edit = .ok result ↔
      ∃ item,
        edit ((doc.get name).getD (.table .empty)) =
            .ok item ∧
          result = doc.insert name item := by
  rw [editTable, bind_eq_ok_iff]
  constructor
  · rintro ⟨item, hEdit, hResult⟩
    cases hResult
    exact ⟨item, hEdit, rfl⟩
  · rintro ⟨item, hEdit, rfl⟩
    exact ⟨item, hEdit, rfl⟩

/- An assignment that works has found keys. -/
theorem tableLike_of_setKey
    {item result : Item}
    {key : String}
    {value : Item}
    (hOk : item.setKey key value = .ok result) :
    ∃ entries, item.asTableLike = some entries := by
  cases hTable : item.asTableLike with
  | some entries => exact ⟨entries, rfl⟩
  | none =>
      rw [Item.setKey_of_asTableLike_none hTable] at hOk
      cases hOk

theorem tableLikeAt_iff
    {doc : Table}
    {name : String}
    {item : Item}
    (hItem : doc.get name = some item) :
    tableLikeAt doc name = true ↔
      ∃ entries, item.asTableLike = some entries := by
  rw [tableLikeAt, hItem, Option.bind_some,
    Option.isSome_iff_exists]

/- The item a section that has to be there is read from. -/
theorem exists_item_of_required
    {Value : Type}
    {fields : Fields}
    {name : String}
    {read : Item → Option Value}
    {value : Value}
    (hRead : fields.required name read = some value) :
    ∃ item,
      fields name = some item ∧ read item = some value :=
  Option.bind_eq_some_iff.mp hRead

/-
  A patch resolved from a request never asks for the global
  source password to be removed.
-/
def Patch.KeepsPassword : Patch → Prop
| .server p => p.auth ≠ some ⟨none⟩
| _ => True

theorem keepsPassword_of_resolve
    {current : Config}
    {put : PutRequest}
    {patch : Patch}
    (hResolve : put.resolve current = .ok patch) :
    patch.KeepsPassword := by
  cases put with
  | server body =>
      cases hResolve
      intro hAuth
      simp only [resolveServer, Option.map_eq_some_iff]
        at hAuth
      rcases hAuth with ⟨p, _, hEq⟩
      cases hEq
  | transcode body =>
      cases hResolve
      trivial
  | mounts body =>
      rw [PutRequest.resolve, bind_eq_ok_iff] at hResolve
      rcases hResolve with ⟨p, _, hEq⟩
      cases hEq
      trivial
  | users requester hash body =>
      rw [PutRequest.resolve, bind_eq_ok_iff] at hResolve
      rcases hResolve with ⟨p, _, hEq⟩
      cases hEq
      trivial
  | autodjs body =>
      cases hResolve
      trivial
  | relays body =>
      cases hResolve
      trivial

/- One edit that works on the item that is there. -/
theorem editTable_of_eq
    {doc : Table}
    {name : String}
    {item item' : Item}
    (hItem : doc.get name = some item)
    {edit : Item → Except String Item}
    (hEdit : edit item = .ok item') :
    editTable doc name edit = .ok (doc.insert name item') :=
  editTable_ok_iff.mpr
    ⟨item', by rw [hItem]; exact hEdit, rfl⟩

/- The document a server save leaves, once all edits work. -/
theorem parse_applyServer
    {doc : Table}
    {running candidate : Config}
    (hParse : ParsesTo doc.get running)
    {p : WritePatch}
    (hPassword : p.auth ≠ some ⟨none⟩)
    (hBuilt : serverCandidate running p = .ok candidate)
    (hServer : tableLikeAt doc "server")
    (hLogging : tableLikeAt doc "logging")
    (hLimits : tableLikeAt doc "limits")
    (hAuth : p.auth.isSome → tableLikeAt doc "auth") :
    ∃ result,
      applyServerPatch doc p = .ok result ∧
        parseDocument result =
          some
            { candidate with
              limits :=
                writtenLimits (standardAt doc "limits")
                  running.limits p.limits } := by
  rw [serverCandidate, bind_eq_ok_iff] at hBuilt
  rcases hBuilt with ⟨format, hFormat, hCandidate⟩
  cases hCandidate
  rcases exists_item_of_required hParse.server with
    ⟨server, hServerAt, _⟩
  rcases (tableLikeAt_iff hServerAt).mp hServer with
    ⟨_, hServerKeys⟩
  rcases read_setServer hServerKeys p.server with
    ⟨server', hSetServer, hReadServer⟩
  rcases exists_item_of_required hParse.logging with
    ⟨logging, hLoggingAt, _⟩
  rcases (tableLikeAt_iff hLoggingAt).mp hLogging with
    ⟨_, hLoggingKeys⟩
  rcases read_setLogging hLoggingKeys hFormat with
    ⟨logging', hSetLogging, hReadLogging⟩
  rcases exists_item_of_required hParse.limits with
    ⟨limits, hLimitsAt, hOldLimits⟩
  rcases (tableLikeAt_iff hLimitsAt).mp hLimits with
    ⟨_, hLimitsKeys⟩
  rcases read_setLimits hLimitsKeys hOldLimits p.limits with
    ⟨limits', hSetLimits, hReadLimits⟩
  have hStandard :
      standardAt doc "limits" = limits.asTable.isSome := by
    rw [standardAt, hLimitsAt, Option.bind_some]
  have hFirst := editTable_of_eq hServerAt hSetServer
  have hLoggingAt' :
      (doc.insert "server" server').get "logging" =
        some logging := by
    simpa using hLoggingAt
  have hSecond := editTable_of_eq hLoggingAt' hSetLogging
  have hLimitsAt' :
      ((doc.insert "server" server').insert "logging"
        logging').get "limits" = some limits := by
    simpa using hLimitsAt
  have hThird := editTable_of_eq hLimitsAt' hSetLimits
  rw [hStandard]
  cases hPatch : p.auth with
  | none =>
      have hApply :
          applyServerPatch doc p =
            .ok
              (((doc.insert "server" server').insert "logging"
                logging').insert "limits" limits') := by
        rw [applyServerPatch, bind_eq_ok_iff]
        refine ⟨_, hFirst, bind_eq_ok_iff.mpr ?_⟩
        refine ⟨_, hSecond, bind_eq_ok_iff.mpr ?_⟩
        refine ⟨_, hThird, ?_⟩
        rw [hPatch]
        rfl
      refine ⟨_, hApply, parseDocument_eq_some_iff.mpr ?_⟩
      constructor
      case server => simpa using hReadServer
      case logging => simpa using hReadLogging
      case auth => simpa using hParse.auth
      case limits => simpa using hReadLimits
      case mounts => simpa using hParse.mounts
      case autodjs => simpa using hParse.autodjs
      case relays => simpa using hParse.relays
      case tls => simpa using hParse.tls
      case transcode => simpa using hParse.transcode
  | some authPatch =>
      rcases authPatch with ⟨password⟩
      cases password with
      | none => exact absurd hPatch hPassword
      | some password =>
          rcases exists_item_of_required hParse.auth with
            ⟨auth, hAuthAt, hOldAuth⟩
          have hAuthTable := hAuth (by rw [hPatch]; rfl)
          rcases (tableLikeAt_iff hAuthAt).mp hAuthTable with
            ⟨_, hAuthKeys⟩
          rcases read_setAuth hAuthKeys hOldAuth password with
            ⟨auth', hSetAuth, hReadAuth⟩
          have hAuthAt' :
              (((doc.insert "server" server').insert "logging"
                logging').insert "limits" limits').get
                  "auth" = some auth := by
            simpa using hAuthAt
          have hFourth := editTable_of_eq hAuthAt' hSetAuth
          have hApply :
              applyServerPatch doc p =
                .ok
                  ((((doc.insert "server" server').insert
                    "logging" logging').insert "limits"
                      limits').insert "auth" auth') := by
            rw [applyServerPatch, bind_eq_ok_iff]
            refine ⟨_, hFirst, bind_eq_ok_iff.mpr ?_⟩
            refine ⟨_, hSecond, bind_eq_ok_iff.mpr ?_⟩
            refine ⟨_, hThird, ?_⟩
            rw [hPatch]
            exact hFourth
          refine ⟨_, hApply, parseDocument_eq_some_iff.mpr ?_⟩
          constructor
          case server => simpa using hReadServer
          case logging => simpa using hReadLogging
          case auth => simpa using hReadAuth
          case limits => simpa using hReadLimits
          case mounts => simpa using hParse.mounts
          case autodjs => simpa using hParse.autodjs
          case relays => simpa using hParse.relays
          case tls => simpa using hParse.tls
          case transcode => simpa using hParse.transcode

/- An edit that begins with an assignment needs a table. -/
theorem tableLikeAt_of_editTable
    {doc result : Table}
    {name key : String}
    {value : Item}
    {rest : Item → Except String Item}
    (hPresent : (doc.get name).isSome)
    (hEdit :
      editTable doc name
          (fun item => item.setKey key value >>= rest) =
        .ok result) :
    tableLikeAt doc name := by
  rcases Option.isSome_iff_exists.mp hPresent with
    ⟨item, hItem⟩
  rcases editTable_ok_iff.mp hEdit with ⟨item', hOk, _⟩
  rw [hItem, Option.getD_some] at hOk
  rcases bind_eq_ok_iff.mp hOk with ⟨_, hKey, _⟩
  exact (tableLikeAt_iff hItem).mpr (tableLike_of_setKey hKey)

theorem tableLikeAt_of_applyServer
    {doc result : Table}
    {running : Config}
    (hParse : ParsesTo doc.get running)
    {p : WritePatch}
    (hPassword : p.auth ≠ some ⟨none⟩)
    (hApply : applyServerPatch doc p = .ok result) :
    tableLikeAt doc "server" ∧
      tableLikeAt doc "logging" ∧
        tableLikeAt doc "limits" ∧
          (p.auth.isSome → tableLikeAt doc "auth") := by
  rw [applyServerPatch, bind_eq_ok_iff] at hApply
  rcases hApply with ⟨first, hFirst, hApply⟩
  rcases bind_eq_ok_iff.mp hApply with
    ⟨second, hSecond, hApply⟩
  rcases bind_eq_ok_iff.mp hApply with
    ⟨third, hThird, hApply⟩
  rcases editTable_ok_iff.mp hFirst with ⟨_, _, rfl⟩
  rcases editTable_ok_iff.mp hSecond with ⟨_, _, rfl⟩
  rcases editTable_ok_iff.mp hThird with ⟨_, _, rfl⟩
  rcases exists_item_of_required hParse.server with
    ⟨_, hServerAt, _⟩
  rcases exists_item_of_required hParse.logging with
    ⟨_, hLoggingAt, _⟩
  rcases exists_item_of_required hParse.limits with
    ⟨_, hLimitsAt, _⟩
  rcases exists_item_of_required hParse.auth with
    ⟨_, hAuthAt, _⟩
  have hServer :=
    tableLikeAt_of_editTable (by simp [hServerAt]) hFirst
  have hLogging :=
    tableLikeAt_of_editTable (by simp [hLoggingAt]) hSecond
  have hLimits :=
    tableLikeAt_of_editTable (by simp [hLimitsAt]) hThird
  refine
    ⟨hServer, by simpa [tableLikeAt] using hLogging,
      by simpa [tableLikeAt] using hLimits, ?_⟩
  intro hSome
  rcases Option.isSome_iff_exists.mp hSome with
    ⟨⟨password⟩, hPatch⟩
  cases password with
  | none => exact absurd hPatch hPassword
  | some password =>
      rw [hPatch] at hApply
      rcases editTable_ok_iff.mp hApply with ⟨_, hSet, _⟩
      simp only [IndexMap.get_insert, String.reduceEq,
        if_false, hAuthAt, Option.getD_some] at hSet
      exact
        (tableLikeAt_iff hAuthAt).mpr
          (tableLike_of_setKey hSet)

/- The edit of the server section, exactly. -/
theorem applyServer_agrees_iff
    {doc : Table}
    {running candidate : Config}
    (hParse : ParsesTo doc.get running)
    {p : WritePatch}
    (hPassword : p.auth ≠ some ⟨none⟩)
    (hBuilt : serverCandidate running p = .ok candidate) :
    (∃ result,
      applyServerPatch doc p = .ok result ∧
        parseDocument result = some candidate) ↔
      Fits ⟨doc, running⟩ (.server p) := by
  have hCandidate :
      candidate.limits =
        { maxListenersGlobal :=
            p.limits.maxListenersGlobal.toNat
          ringSize := p.limits.ringSize.toNat
          slowListenerGraceS :=
            p.limits.slowListenerGraceS.toNat
          sourceMaxKbps :=
            p.limits.sourceMaxKbps.map UInt32.toNat
          burstSize := p.limits.burstSize.toNat } := by
    rcases bind_eq_ok_iff.mp hBuilt with ⟨_, _, hEq⟩
    cases hEq
    rfl
  have hWritten :=
    writtenLimits_eq_iff (standardAt doc "limits")
      running.limits p.limits
  rw [← hCandidate] at hWritten
  constructor
  · rintro ⟨result, hApply, hResult⟩
    rcases tableLikeAt_of_applyServer hParse hPassword
        hApply with ⟨hServer, hLogging, hLimits, hAuth⟩
    rcases parse_applyServer hParse hPassword hBuilt hServer
        hLogging hLimits hAuth with
      ⟨result', hApply', hResult'⟩
    cases hApply.symm.trans hApply'
    have hEq := hResult'.symm.trans hResult
    rw [Option.some.injEq] at hEq
    have hSame := congrArg Config.limits hEq
    exact
      ⟨hServer, hLogging, hLimits, hAuth, hWritten.mp hSame⟩
  · rintro ⟨hServer, hLogging, hLimits, hAuth, hFile⟩
    rcases parse_applyServer hParse hPassword hBuilt hServer
        hLogging hLimits hAuth with
      ⟨result, hApply, hResult⟩
    refine ⟨result, hApply, ?_⟩
    rw [hResult, hWritten.mpr hFile]

theorem applyTranscode_agrees_iff
    {doc : Table}
    {running candidate : Config}
    (hParse : ParsesTo doc.get running)
    {p : TranscodePatch}
    (hBuilt : transcodeCandidate running p = .ok candidate) :
    (∃ result,
      applyTranscodePatch doc p = .ok result ∧
        parseDocument result = some candidate) ↔
      Fits ⟨doc, running⟩ (.transcode p) := by
  rcases bind_eq_ok_iff.mp hBuilt with
    ⟨config, hConfig, hEq⟩
  cases hEq
  rcases p with ⟨source⟩
  cases source with
  | none =>
      cases hConfig
      refine iff_of_true ⟨_, rfl, ?_⟩ (by simp [Fits])
      rw [parseDocument_eq_some_iff]
      constructor
      case server => simpa using hParse.server
      case logging => simpa using hParse.logging
      case auth => simpa using hParse.auth
      case limits => simpa using hParse.limits
      case mounts => simpa using hParse.mounts
      case autodjs => simpa using hParse.autodjs
      case relays => simpa using hParse.relays
      case tls => simpa using hParse.tls
      case transcode => simp
  | some t =>
      rcases bind_eq_ok_iff.mp hConfig with ⟨c, hOk, hEq⟩
      cases hEq
      change
        (∃ result,
          editTable doc "transcode" (setTranscode t) =
              .ok result ∧ _) ↔
          (true → _)
      constructor
      · rintro ⟨result, hApply, _⟩ _
        cases hItem : doc.get "transcode" with
        | none => exact .inl rfl
        | some item =>
            exact
              .inr
                (tableLikeAt_of_editTable (by simp [hItem])
                  hApply)
      · intro hFits
        have hKeys :
            ∃ entries,
              ((doc.get "transcode").getD
                (.table .empty)).asTableLike =
                  some entries := by
          rcases hFits rfl with hNone | hTable
          · rw [hNone]
            exact ⟨_, rfl⟩
          · rcases Option.isSome_iff_exists.mp hTable with
              ⟨entries, hEntries⟩
            rcases Option.bind_eq_some_iff.mp hEntries with
              ⟨item, hItem, hKeys⟩
            rw [hItem]
            exact ⟨entries, hKeys⟩
        rcases hKeys with ⟨entries, hKeys⟩
        rcases read_setTranscode hKeys hOk with
          ⟨item', hSet, hRead⟩
        have hApply :=
          editTable_ok_iff.mpr ⟨item', hSet, rfl⟩
        refine ⟨_, hApply, parseDocument_eq_some_iff.mpr ?_⟩
        constructor
        case server => simpa using hParse.server
        case logging => simpa using hParse.logging
        case auth => simpa using hParse.auth
        case limits => simpa using hParse.limits
        case mounts => simpa using hParse.mounts
        case autodjs => simpa using hParse.autodjs
        case relays => simpa using hParse.relays
        case tls => simpa using hParse.tls
        case transcode => simp [hRead]

theorem applyUsers_agrees_iff
    {doc : Table}
    {running candidate : Config}
    (hParse : ParsesTo doc.get running)
    {p : UsersPatch}
    (hValid : validateUsersPatch p = .ok ())
    (hBuilt : usersCandidate running p = .ok candidate) :
    (∃ result,
      applyUsersPatch doc p = .ok result ∧
        parseDocument result = some candidate) ↔
      Fits ⟨doc, running⟩ (.users p) := by
  cases hBuilt
  rcases exists_item_of_required hParse.auth with
    ⟨auth, hAuthAt, hOldAuth⟩
  have hStandard :
      Fits ⟨doc, running⟩ (.users p) ↔
        ∃ entries, auth = .table entries := by
    simp only [Fits, standardAt, hAuthAt, Option.bind_some,
      Option.isSome_iff_exists, Item.asTable_eq_some_iff]
  have hRoles :
      ∀ u ∈ p.users,
        u.role = "admin" ∨ u.role = "operator" := by
    rcases bind_eq_ok_iff.mp hValid with ⟨_, hEach, _⟩
    intro u hMem
    rcases check_of_validateEach hEach u hMem with
      ⟨_, _, hCheck⟩
    exact role_of_validateUser hCheck
  rw [hStandard]
  constructor
  · rintro ⟨result, hApply, _⟩
    rcases editTable_ok_iff.mp hApply with ⟨item, hSet, _⟩
    rw [hAuthAt, Option.getD_some, setUsers] at hSet
    cases hTable : auth.asTable with
    | none =>
        rw [hTable] at hSet
        cases hSet
    | some entries =>
        exact ⟨entries, Item.asTable_eq_some_iff.mp hTable⟩
  · rintro ⟨entries, rfl⟩
    rcases read_setUsers hOldAuth hRoles with
      ⟨auth', hSet, hRead⟩
    have hApply := editTable_of_eq hAuthAt hSet
    refine ⟨_, hApply, parseDocument_eq_some_iff.mpr ?_⟩
    constructor
    case server => simpa using hParse.server
    case logging => simpa using hParse.logging
    case auth => simpa using hRead
    case limits => simpa using hParse.limits
    case mounts => simpa using hParse.mounts
    case autodjs => simpa using hParse.autodjs
    case relays => simpa using hParse.relays
    case tls => simpa using hParse.tls
    case transcode => simpa using hParse.transcode

theorem applyMounts_agrees
    {doc : Table}
    {running candidate : Config}
    (hParse : ParsesTo doc.get running)
    {p : MountsPatch}
    (hBuilt : mountsCandidate running p = .ok candidate) :
    ∃ result,
      applyMountsPatch doc p = .ok result ∧
        parseDocument result = some candidate := by
  rcases bind_eq_ok_iff.mp hBuilt with
    ⟨mounts, hMounts, hEq⟩
  cases hEq
  have hRead :=
    readList_replaceTables doc "mounts" mountTable mountConfig
      MountConfig.read hMounts
      fun _ _ _ => read_mountTable
  refine ⟨_, rfl, parseDocument_eq_some_iff.mpr ?_⟩
  constructor
  case server => simpa using hParse.server
  case logging => simpa using hParse.logging
  case auth => simpa using hParse.auth
  case limits => simpa using hParse.limits
  case mounts => exact hRead
  case autodjs => simpa using hParse.autodjs
  case relays => simpa using hParse.relays
  case tls => simpa using hParse.tls
  case transcode => simpa using hParse.transcode

theorem applyAutodjs_agrees
    {doc : Table}
    {running candidate : Config}
    (hParse : ParsesTo doc.get running)
    {p : AutoDjsPatch}
    (hValid : validateAutodjsPatch p = .ok ())
    (hBuilt : autodjsCandidate running p = .ok candidate) :
    ∃ result,
      applyAutodjsPatch doc p = .ok result ∧
        parseDocument result = some candidate := by
  rcases bind_eq_ok_iff.mp hBuilt with
    ⟨autodjs, hAutodjs, hEq⟩
  cases hEq
  have hOrders :
      ∀ a ∈ p.autodjs,
        a.order = "shuffle" ∨ a.order = "sequential" := by
    intro a hMem
    rcases check_of_validateEach hValid a hMem with
      ⟨_, _, hCheck⟩
    exact (order_of_validateAutoDj hCheck).1
  have hRead :=
    readList_replaceTables doc "autodjs" autodjTable
      autodjConfig AutoDjConfig.read hAutodjs
      fun a hMem _ => read_autodjTable (hOrders a hMem)
  refine ⟨_, rfl, parseDocument_eq_some_iff.mpr ?_⟩
  constructor
  case server => simpa using hParse.server
  case logging => simpa using hParse.logging
  case auth => simpa using hParse.auth
  case limits => simpa using hParse.limits
  case mounts => simpa using hParse.mounts
  case autodjs => exact hRead
  case relays => simpa using hParse.relays
  case tls => simpa using hParse.tls
  case transcode => simpa using hParse.transcode

theorem applyRelays_agrees
    {doc : Table}
    {running candidate : Config}
    (hParse : ParsesTo doc.get running)
    {p : RelaysPatch}
    (hBuilt : relaysCandidate running p = .ok candidate) :
    ∃ result,
      applyRelaysPatch doc p = .ok result ∧
        parseDocument result = some candidate := by
  rcases bind_eq_ok_iff.mp hBuilt with
    ⟨relays, hRelays, hEq⟩
  cases hEq
  have hRead :=
    readList_replaceTables doc "relays" relayTable relayConfig
      RelayConfig.read hRelays
      fun _ _ _ => read_relayTable
  refine ⟨_, rfl, parseDocument_eq_some_iff.mpr ?_⟩
  constructor
  case server => simpa using hParse.server
  case logging => simpa using hParse.logging
  case auth => simpa using hParse.auth
  case limits => simpa using hParse.limits
  case mounts => simpa using hParse.mounts
  case autodjs => simpa using hParse.autodjs
  case relays => exact hRead
  case tls => simpa using hParse.tls
  case transcode => simpa using hParse.transcode

/-
  The edited document says what is applied exactly if the
  edit fits the document.
-/
theorem apply_agrees_iff
    {doc : Table}
    {running candidate : Config}
    (hParse : ParsesTo doc.get running)
    {patch : Patch}
    (hPassword : patch.KeepsPassword)
    (hValid : patch.validate = .ok ())
    (hBuilt : patch.candidate running = .ok candidate) :
    (∃ result,
      patch.apply doc = .ok result ∧
        parseDocument result = some candidate) ↔
      Fits ⟨doc, running⟩ patch := by
  cases patch with
  | server p =>
      exact applyServer_agrees_iff hParse hPassword hBuilt
  | transcode p => exact applyTranscode_agrees_iff hParse hBuilt
  | mounts p =>
      exact
        iff_of_true (applyMounts_agrees hParse hBuilt) trivial
  | users p =>
      exact applyUsers_agrees_iff hParse hValid hBuilt
  | autodjs p =>
      exact
        iff_of_true
          (applyAutodjs_agrees hParse hValid hBuilt) trivial
  | relays p =>
      exact
        iff_of_true (applyRelays_agrees hParse hBuilt) trivial

end ConfigPut

end RustyIce

------------------------------------------------------------
-- Runs Of Saves
------------------------------------------------------------

namespace RustyIce

namespace ConfigPut

open ConfigWrite Library Library.Toml

theorem target_of_resolve
    {current : Config}
    {put : PutRequest}
    {patch : Patch}
    (hResolve : put.resolve current = .ok patch) :
    patch.target = put.target := by
  cases put with
  | server body =>
      cases hResolve
      rfl
  | transcode body =>
      cases hResolve
      rfl
  | mounts body =>
      rcases bind_eq_ok_iff.mp hResolve with ⟨_, _, hEq⟩
      cases hEq
      rfl
  | users requester hash body =>
      rcases bind_eq_ok_iff.mp hResolve with ⟨_, _, hEq⟩
      cases hEq
      rfl
  | autodjs body =>
      cases hResolve
      rfl
  | relays body =>
      cases hResolve
      rfl

/-
  What a handler builds is the running configuration with
  one section laid over it, the same over every other.
-/
theorem candidate_eq_overlay
    {current candidate : Config}
    {patch : Patch}
    (hPassword : patch.KeepsPassword)
    (hBuilt : patch.candidate current = .ok candidate) :
    ∃ saved : SectionPatch,
      saved.target = patch.target ∧
        ∀ cfg, patch.candidate cfg = .ok (saved.overlay cfg) := by
  cases patch with
  | server p =>
      rcases bind_eq_ok_iff.mp hBuilt with ⟨format, hFormat, hEq⟩
      refine
        ⟨.server
          { server := candidate.server
            logging := candidate.logging
            limits := candidate.limits
            sourcePassword :=
              p.auth.bind (·.sourcePassword) },
          rfl, ?_⟩
      cases hEq
      intro cfg
      refine bind_eq_ok_iff.mpr ⟨format, hFormat, ?_⟩
      cases hAuth : p.auth with
      | none => rfl
      | some authPatch =>
          rcases authPatch with ⟨password⟩
          cases password with
          | none => exact absurd hAuth hPassword
          | some password => rfl
  | transcode p =>
      rcases bind_eq_ok_iff.mp hBuilt with ⟨config, hRead, hEq⟩
      refine ⟨.transcode config, rfl, fun cfg => ?_⟩
      exact bind_eq_ok_iff.mpr ⟨config, hRead, rfl⟩
  | mounts p =>
      rcases bind_eq_ok_iff.mp hBuilt with ⟨mounts, hRead, hEq⟩
      refine ⟨.mounts mounts, rfl, fun cfg => ?_⟩
      exact bind_eq_ok_iff.mpr ⟨mounts, hRead, rfl⟩
  | users p =>
      exact ⟨.users (p.users.map userConfig), rfl, fun _ => rfl⟩
  | autodjs p =>
      rcases bind_eq_ok_iff.mp hBuilt with
        ⟨autodjs, hRead, hEq⟩
      refine ⟨.autodjs autodjs, rfl, fun cfg => ?_⟩
      exact bind_eq_ok_iff.mpr ⟨autodjs, hRead, rfl⟩
  | relays p =>
      rcases bind_eq_ok_iff.mp hBuilt with ⟨relays, hRead, hEq⟩
      refine ⟨.relays relays, rfl, fun cfg => ?_⟩
      exact bind_eq_ok_iff.mpr ⟨relays, hRead, rfl⟩

/- Saving users leaves what the path check looks at. -/
theorem validatePaths_of_checked
    {current candidate : Config}
    {patch : Patch}
    (hCurrent : current.validatePaths = .ok ())
    (hBuilt : patch.candidate current = .ok candidate)
    (hChecked : checkCandidate patch candidate = .ok ()) :
    candidate.validatePaths = .ok () := by
  have hPaths : patch.checkPaths candidate = .ok () := by
    unfold checkCandidate at hChecked
    split at hChecked
    · assumption
    · cases hChecked
  cases patch with
  | users p =>
      cases hBuilt
      exact hCurrent
  | server p => exact hPaths
  | transcode p => exact hPaths
  | mounts p => exact hPaths
  | autodjs p => exact hPaths
  | relays p => exact hPaths

theorem validatePaths_of_accepted
    {current candidate : Config}
    {put : PutRequest}
    {patch : Patch}
    (hCurrent : current.validatePaths = .ok ())
    (hAccepted : Accepted current put patch candidate) :
    candidate.validatePaths = .ok () :=
  validatePaths_of_checked hCurrent hAccepted.built
    hAccepted.paths

/- A document that says what is applied is all it takes. -/
theorem saveAgrees_iff
    {s : FileState}
    {put : PutRequest}
    {patch : Patch}
    {candidate : Config}
    (hLoad : load s.document = .ok s.running)
    (hAccepted : Accepted s.running put patch candidate)
    (result : Table) :
    SaveAgrees put.target s ⟨result, candidate⟩ ↔
      parseDocument result = some candidate := by
  rcases load_eq_ok_iff.mp hLoad with ⟨hParse, hPaths⟩
  constructor
  · intro hAgrees
    exact (load_eq_ok_iff.mp hAgrees.loads).1
  · intro hResult
    rcases candidate_eq_overlay
        (keepsPassword_of_resolve hAccepted.resolved)
        hAccepted.built with ⟨saved, hTarget, hSaved⟩
    have hOverlay : candidate = saved.overlay s.running :=
      Except.ok.inj
        (hAccepted.built.symm.trans (hSaved _))
    rw [target_of_resolve hAccepted.resolved] at hTarget
    constructor
    case loads =>
      exact
        load_eq_ok_iff.mpr
          ⟨hResult, validatePaths_of_accepted hPaths hAccepted⟩
    case others =>
      intro other hOther
      rw [← hTarget] at hOther
      rw [hResult, hParse, Option.map_some, Option.map_some,
        hOverlay, SectionPatch.sectionValue_overlay_other hOther]
    case tls =>
      rw [hResult, hParse, Option.map_some, Option.map_some,
        hOverlay, SectionPatch.tls_overlay]

/- One accepted save, exactly. -/
theorem save_agrees_iff
    {s : FileState}
    {put : PutRequest}
    {patch : Patch}
    {candidate : Config}
    (hLoad : load s.document = .ok s.running)
    (hAccepted : Accepted s.running put patch candidate) :
    (∃ t, put.exec s = .ok t ∧ SaveAgrees put.target s t) ↔
      Fits s patch := by
  have hParse :=
    parseDocument_eq_some_iff.mp (load_eq_ok_iff.mp hLoad).1
  have hEdit :=
    apply_agrees_iff hParse
      (keepsPassword_of_resolve hAccepted.resolved)
      (validate_of_checkPatch hAccepted.checked)
      hAccepted.built
  rw [exec_of_accepted hAccepted]
  rw [← hEdit]
  constructor
  · rintro ⟨t, hSaved, hAgrees⟩
    rcases bind_eq_ok_iff.mp hSaved with
      ⟨result, hApply, hEq⟩
    cases hEq
    exact
      ⟨result, orPanic_eq_ok_iff.mp hApply,
        (saveAgrees_iff hLoad hAccepted _).mp hAgrees⟩
  · rintro ⟨result, hApply, hResult⟩
    refine
      ⟨⟨result, candidate⟩, ?_,
        (saveAgrees_iff hLoad hAccepted _).mpr hResult⟩
    rw [persistAndApply, hApply]
    rfl

/- An accepted save ends in a save or in a panic. -/
theorem exec_not_rejected
    {s : FileState}
    {put : PutRequest}
    {patch : Patch}
    {candidate : Config}
    (hAccepted : Accepted s.running put patch candidate)
    (error : PutError) :
    put.exec s ≠ .error (.rejected error) := by
  rw [exec_of_accepted hAccepted, persistAndApply]
  cases patch.apply s.document with
  | error message =>
      intro hEq
      cases hEq
  | ok document =>
      intro hEq
      cases hEq

end ConfigPut

end RustyIce

------------------------------------------------------------
-- One Account, Spelled Twice
------------------------------------------------------------

namespace RustyIce

namespace ConfigPut

open ConfigWrite Library Library.Toml

/- A document that leaves the spelling of `auth` open. -/
def documentWith (auth : Item) : Table where
  entries :=
    [("server",
      .table
        ⟨[("stream_bind", .string "0.0.0.0:8000"),
          ("admin_bind", .string "127.0.0.1:8001"),
          ("hostname", .string "localhost")]⟩),
      ("logging",
        .table
          ⟨[("level", .string "info"),
            ("format", .string "json")]⟩),
      ("auth", auth),
      ("limits",
        .table
          ⟨[("max_listeners_global", .integer 500),
            ("ring_size", .integer 64),
            ("slow_listener_grace_s", .integer 2)]⟩)]

/- The account of one admin. -/
def adminKeys : Table where
  entries :=
    [("username", .string "admin"),
      ("password_bcrypt", .string "$2b$12$hash")]

def adminConfig : Config :=
  { Config.bare with
    auth :=
      { users :=
          [{ username := "admin"
             passwordBcrypt := "$2b$12$hash"
             role := .admin }]
        sourcePassword := none } }

/- `[[auth.users]]` with the keys below it. -/
def standardState : FileState where
  document :=
    documentWith
      (.table ⟨[("users", .arrayOfTables [adminKeys])]⟩)
  running := adminConfig

/- `auth = { users = [{ ... }] }`. -/
def inlineState : FileState where
  document :=
    documentWith
      (.inlineTable
        ⟨[("users", .array [.inlineTable adminKeys])]⟩)
  running := adminConfig

/- The admin saves the list of users as it is. -/
def saveUsers : PutRequest :=
  .users "admin" (fun _ plain => .ok plain)
    [{ username := "admin", password := none, role := "admin" }]

end ConfigPut

end RustyIce

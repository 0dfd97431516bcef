import RustyIce.Admin.ConfigPut

/-
  What loading a configuration reads back from an edited
  document: every record a patch writes is read as the
  record its handler applies, up to the numbers the file
  cannot hold and the key an inline table keeps.

  Main declarations:
    * `read_mountTable` and its siblings
    * `readList_replaceTables`
    * `read_setServer` and its siblings
    * `writtenLimits` and `writtenLimits_eq_iff`
-/

------------------------------------------------------------
-- Values
------------------------------------------------------------

namespace RustyIce

namespace ConfigPut

open ConfigWrite Library Library.Toml

theorem readU32_ofU32 (n : UInt32) :
    readU32 (ofU32 n) = some n.toNat := by
  have hLt := n.toNat_lt
  apply Item.readUnsigned_natCast
  unfold u32Max
  omega

/- Past the largest signed number that one is stored. -/
theorem readU64_ofU64 (n : UInt64) :
    readU64 (ofU64 n) = some (min n.toNat i64Max) := by
  apply Item.readUnsigned_natCast
  unfold i64Max u64Max
  omega

theorem read_bindAddr (addr : BindAddr) :
    SocketAddr.read (.string addr.val) = some addr.val :=
  addr.property

/- An off flag is written, an on flag is the default. -/
theorem withDefault_offFlag
    {fields : Fields}
    {name : String}
    {flag : Bool}
    (hItem : fields name = offFlag flag) :
    fields.withDefault name Item.readBoolean true =
      some flag := by
  rw [Fields.withDefault, hItem]
  cases flag <;> rfl

theorem logFormat_ok
    {text : String}
    {format : LogFormat}
    (hFormat : logFormat text = .ok format) :
    Item.readVariant logFormats (.string text) =
      some format := by
  unfold logFormat at hFormat
  split_ifs at hFormat with hPretty hJson
  · cases hFormat
    rw [hPretty]
    rfl
  · cases hFormat
    rw [hJson]
    rfl

theorem transcodeFormat_ok
    {text : String}
    {format : TranscodeFormat}
    (hFormat : transcodeFormat text = .ok format) :
    Item.readVariant transcodeFormats (.string text) =
      some format := by
  unfold transcodeFormat at hFormat
  split_ifs at hFormat with hMp3 hVorbis
  · cases hFormat
    rw [hMp3]
    rfl
  · cases hFormat
    rw [hVorbis]
    rfl

theorem read_userRole
    {text : String}
    (hRole : text = "admin" ∨ text = "operator") :
    Item.readVariant userRoles (.string text) =
      some (userRole text) := by
  rcases hRole with rfl | rfl <;> rfl

theorem read_order
    {text : String}
    (hOrder : text = "shuffle" ∨ text = "sequential") :
    Item.readVariant orders (.string text) =
      some (order text) := by
  rcases hOrder with rfl | rfl <;> rfl

end ConfigPut

end RustyIce

------------------------------------------------------------
-- Entries
------------------------------------------------------------

namespace RustyIce

namespace ConfigPut

open ConfigWrite Library Library.Toml

theorem read_transcodeFields
    {t : TranscodeSubPatch}
    {config : TranscodeConfig}
    (hConfig : transcodeConfig t = .ok config)
    {entries : Table}
    (hFormat : entries.get "format" = some (.string t.format))
    (hRate :
      entries.get "sample_rate" = some (ofU32 t.sampleRate))
    (hKbps :
      entries.get "bitrate_kbps" =
        some (ofU32 t.bitrateKbps)) :
    TranscodeConfig.read (.table entries) = some config := by
  unfold transcodeConfig at hConfig
  rw [bind_eq_ok_iff] at hConfig
  rcases hConfig with ⟨format, hOk, hConfig⟩
  cases hConfig
  unfold TranscodeConfig.read
  simp [Fields.required, hFormat, hRate, hKbps,
    transcodeFormat_ok hOk, readU32_ofU32]

theorem read_transcodeTable
    {t : TranscodeSubPatch}
    {config : TranscodeConfig}
    (hConfig : transcodeConfig t = .ok config) :
    TranscodeConfig.read (.table (transcodeTable t)) =
      some config :=
  read_transcodeFields hConfig
    (by simp [transcodeTable]) (by simp [transcodeTable])
    (by simp [transcodeTable])

theorem optional_transcodeTable
    {source : Option TranscodeSubPatch}
    {config : Option TranscodeConfig}
    (hConfig : optionalTranscodeConfig source = .ok config)
    {fields : Fields}
    {name : String}
    (hItem :
      fields name =
        source.map fun t => .table (transcodeTable t)) :
    fields.optional name TranscodeConfig.read =
      some config := by
  rw [Fields.optional, hItem]
  cases source with
  | none =>
      cases hConfig
      rfl
  | some t =>
      unfold optionalTranscodeConfig at hConfig
      rw [bind_eq_ok_iff] at hConfig
      rcases hConfig with ⟨c, hOk, hConfig⟩
      cases hConfig
      simp [read_transcodeTable hOk]

theorem optional_text
    {fields : Fields}
    {name : String}
    {source : Option String}
    (hItem : fields name = source.map .string) :
    fields.optional name Item.readString = some source := by
  have hEach : ∀ s, Item.readString (.string s) = some s :=
    fun _ => rfl
  rw [Fields.optional_of_map hItem hEach, Option.map_id']

theorem optional_u32
    {fields : Fields}
    {name : String}
    {source : Option UInt32}
    (hItem : fields name = source.map ofU32) :
    fields.optional name readU32 =
      some (source.map UInt32.toNat) :=
  Fields.optional_of_map hItem readU32_ofU32

theorem required_text
    {fields : Fields}
    {name text : String}
    (hItem : fields name = some (.string text)) :
    fields.required name Item.readString = some text :=
  Fields.required_of_eq hItem Item.readString

theorem read_mountTable
    {m : MountSubPatch}
    {config : MountConfig}
    (hConfig : mountConfig m = .ok config) :
    MountConfig.read (.table (mountTable m)) =
      some config := by
  unfold mountConfig at hConfig
  rw [bind_eq_ok_iff] at hConfig
  rcases hConfig with ⟨transcode, hTranscode, hConfig⟩
  cases hConfig
  let entries := mountTable m
  have hPath : entries.get "path" = some (.string m.path) := by
    simp [entries, mountTable]
  have hPassword :
      entries.get "source_password" =
        some (.string m.sourcePassword) := by
    simp [entries, mountTable]
  have hListeners :
      entries.get "max_listeners" =
        m.maxListeners.map ofU32 := by
    simp [entries, mountTable]
  have hName :
      entries.get "name" = m.name.map .string := by
    simp [entries, mountTable]
  have hDescription :
      entries.get "description" =
        m.description.map .string := by
    simp [entries, mountTable]
  have hGenre :
      entries.get "genre" = m.genre.map .string := by
    simp [entries, mountTable]
  have hUrl : entries.get "url" = m.url.map .string := by
    simp [entries, mountTable]
  have hBlock :
      entries.get "transcode" =
        m.transcode.map fun t =>
          .table (transcodeTable t) := by
    simp [entries, mountTable]
  have hBurst :
      entries.get "burst_size" = m.burstSize.map ofU32 := by
    simp [entries, mountTable]
  change MountConfig.read (.table entries) = _
  unfold MountConfig.read
  rw [bind_of_some (Item.fields_table _ _),
    bind_of_some (required_text hPath),
    bind_of_some (required_text hPassword),
    bind_of_some (optional_u32 hListeners),
    bind_of_some (optional_text hName),
    bind_of_some (optional_text hDescription),
    bind_of_some (optional_text hGenre),
    bind_of_some (optional_text hUrl),
    bind_of_some (optional_transcodeTable hTranscode hBlock),
    bind_of_some (optional_u32 hBurst)]
  rfl

theorem read_userTable
    {u : UserSubPatch}
    (hRole : u.role = "admin" ∨ u.role = "operator") :
    UserConfig.read (.table (userTable u)) =
      some (userConfig u) := by
  let entries := userTable u
  have hUsername :
      entries.get "username" = some (.string u.username) := by
    simp [entries, userTable]
  have hPassword :
      entries.get "password_bcrypt" =
        some (.string u.passwordBcrypt) := by
    simp [entries, userTable]
  have hRoleText :
      entries.get "role" = some (.string u.role) := by
    simp [entries, userTable]
  change UserConfig.read (.table entries) = _
  unfold UserConfig.read
  simp only [Item.fields_table, Option.bind_eq_bind,
    Option.bind_some, required_text hUsername,
    required_text hPassword,
    Fields.withDefault_of_eq hRoleText, read_userRole hRole,
    Option.pure_def]
  rfl

theorem read_autodjTable
    {a : AutoDjSubPatch}
    (hOrder : a.order = "shuffle" ∨ a.order = "sequential")
    {config : AutoDjConfig}
    (hConfig : autodjConfig a = .ok config) :
    AutoDjConfig.read (.table (autodjTable a)) =
      some config := by
  unfold autodjConfig at hConfig
  rw [bind_eq_ok_iff] at hConfig
  rcases hConfig with ⟨transcode, hTranscode, hConfig⟩
  cases hConfig
  let entries := autodjTable a
  have hMount :
      entries.get "mount" = some (.string a.mount) := by
    simp [entries, autodjTable]
  have hFolder :
      entries.get "folder" = some (.string a.folder) := by
    simp [entries, autodjTable]
  have hName :
      entries.get "name" = a.name.map .string := by
    simp [entries, autodjTable]
  have hDescription :
      entries.get "description" =
        a.description.map .string := by
    simp [entries, autodjTable]
  have hGenre :
      entries.get "genre" = a.genre.map .string := by
    simp [entries, autodjTable]
  have hUrl : entries.get "url" = a.url.map .string := by
    simp [entries, autodjTable]
  have hEnabled :
      entries.get "enabled" = offFlag a.enabled := by
    simp [entries, autodjTable]
  have hLoop :
      entries.get "loop" = offFlag a.loopPlaylist := by
    simp [entries, autodjTable]
  have hOrderText :
      entries.get "order" = some (.string a.order) := by
    simp [entries, autodjTable]
  have hListeners :
      entries.get "max_listeners" =
        a.maxListeners.map ofU32 := by
    simp [entries, autodjTable]
  have hBurst :
      entries.get "burst_size" = a.burstSize.map ofU32 := by
    simp [entries, autodjTable]
  have hBlock :
      entries.get "transcode" =
        some (.table (transcodeTable a.transcode)) := by
    simp [entries, autodjTable]
  have hOrderRead :=
    (Fields.withDefault_of_eq hOrderText
      (Item.readVariant orders) defaultOrder).trans
      (read_order hOrder)
  have hBlockRead :=
    (Fields.required_of_eq hBlock TranscodeConfig.read).trans
      (read_transcodeTable hTranscode)
  change AutoDjConfig.read (.table entries) = _
  unfold AutoDjConfig.read
  rw [bind_of_some (Item.fields_table _ _),
    bind_of_some (required_text hMount),
    bind_of_some (required_text hFolder),
    bind_of_some (optional_text hName),
    bind_of_some (optional_text hDescription),
    bind_of_some (optional_text hGenre),
    bind_of_some (optional_text hUrl),
    bind_of_some (withDefault_offFlag hEnabled),
    bind_of_some (withDefault_offFlag hLoop),
    bind_of_some hOrderRead,
    bind_of_some (optional_u32 hListeners),
    bind_of_some (optional_u32 hBurst),
    bind_of_some hBlockRead]
  rfl

theorem read_relayTable
    {r : RelaySubPatch}
    {config : RelayConfig}
    (hConfig : relayConfig r = .ok config) :
    RelayConfig.read (.table (relayTable r)) =
      some config := by
  unfold relayConfig at hConfig
  rw [bind_eq_ok_iff] at hConfig
  rcases hConfig with ⟨transcode, hTranscode, hConfig⟩
  cases hConfig
  let entries := relayTable r
  have hMount :
      entries.get "mount" = some (.string r.mount) := by
    simp [entries, relayTable]
  have hUpstream :
      entries.get "upstream" = some (.string r.upstream) := by
    simp [entries, relayTable]
  have hName :
      entries.get "name" = r.name.map .string := by
    simp [entries, relayTable]
  have hDescription :
      entries.get "description" =
        r.description.map .string := by
    simp [entries, relayTable]
  have hGenre :
      entries.get "genre" = r.genre.map .string := by
    simp [entries, relayTable]
  have hUrl : entries.get "url" = r.url.map .string := by
    simp [entries, relayTable]
  have hEnabled :
      entries.get "enabled" = offFlag r.enabled := by
    simp [entries, relayTable]
  have hUsername :
      entries.get "username" = r.username.map .string := by
    simp [entries, relayTable]
  have hPassword :
      entries.get "password" = r.password.map .string := by
    simp [entries, relayTable]
  have hListeners :
      entries.get "max_listeners" =
        r.maxListeners.map ofU32 := by
    simp [entries, relayTable]
  have hBurst :
      entries.get "burst_size" = r.burstSize.map ofU32 := by
    simp [entries, relayTable]
  have hBlock :
      entries.get "transcode" =
        r.transcode.map fun t =>
          .table (transcodeTable t) := by
    simp [entries, relayTable]
  change RelayConfig.read (.table entries) = _
  unfold RelayConfig.read
  rw [bind_of_some (Item.fields_table _ _),
    bind_of_some (required_text hMount),
    bind_of_some (required_text hUpstream),
    bind_of_some (optional_text hName),
    bind_of_some (optional_text hDescription),
    bind_of_some (optional_text hGenre),
    bind_of_some (optional_text hUrl),
    bind_of_some (withDefault_offFlag hEnabled),
    bind_of_some (optional_text hUsername),
    bind_of_some (optional_text hPassword),
    bind_of_some (optional_u32 hListeners),
    bind_of_some (optional_u32 hBurst),
    bind_of_some (optional_transcodeTable hTranscode hBlock)]
  rfl

end ConfigPut

end RustyIce

------------------------------------------------------------
-- Sections
------------------------------------------------------------

namespace RustyIce

namespace ConfigPut

open ConfigWrite Library Library.Toml

/- A replaced list is read back, also if nothing is left. -/
theorem readList_replaceTables
    {Entry Value : Type}
    (doc : Table)
    (name : String)
    (write : Entry → Table)
    (value : Entry → Except String Value)
    (read : Item → Option Value)
    {entries : List Entry}
    {values : List Value}
    (hValues : entries.mapM value = .ok values)
    (hEach :
      ∀ entry ∈ entries, ∀ v,
        value entry = .ok v →
          read (.table (write entry)) = some v) :
    Fields.withDefault
        (replaceTables doc name write entries).get name
        (Item.readList read) [] =
      some values := by
  unfold replaceTables
  cases entries with
  | nil =>
      cases hValues
      simp [Fields.withDefault]
  | cons entry entries =>
      have hItem :
          (doc.insert name
            (.arrayOfTables
              ((entry :: entries).map write))).get name =
            some
              (.arrayOfTables
                ((entry :: entries).map write)) := by
        simp
      rw [List.isEmpty_cons, if_neg Bool.false_ne_true,
        Fields.withDefault_of_eq hItem]
      exact
        Item.readList_arrayOfTables write value read hValues
          hEach

theorem get_replaceTables_other
    {Entry : Type}
    (doc : Table)
    {name other : String}
    (hOther : name ≠ other)
    (write : Entry → Table)
    (entries : List Entry) :
    (replaceTables doc name write entries).get other =
      doc.get other := by
  unfold replaceTables
  split
  · simp [hOther]
  · simp [hOther]

section Others

variable {Entry Value : Type}
variable (doc : Table)
variable {name other : String}
variable (hOther : name ≠ other)
variable (write : Entry → Table)
variable (entries : List Entry)
variable (read : Item → Option Value)

include hOther

@[simp] theorem required_replaceTables :
    Fields.required (replaceTables doc name write entries).get
        other read =
      Fields.required doc.get other read := by
  rw [Fields.required, get_replaceTables_other doc hOther]
  rfl

@[simp] theorem withDefault_replaceTables
    (default : Value) :
    Fields.withDefault
        (replaceTables doc name write entries).get other read
        default =
      Fields.withDefault doc.get other read default := by
  rw [Fields.withDefault, get_replaceTables_other doc hOther]
  rfl

@[simp] theorem optional_replaceTables :
    Fields.optional (replaceTables doc name write entries).get
        other read =
      Fields.optional doc.get other read := by
  rw [Fields.optional, get_replaceTables_other doc hOther]
  rfl

end Others

theorem read_setServer
    {item : Item}
    {entries : Table}
    (hTable : item.asTableLike = some entries)
    (p : ServerSubPatch) :
    ∃ item',
      setServer p item = .ok item' ∧
        ServerConfig.read item' =
          some
            { streamBind := p.streamBind.val
              adminBind := p.adminBind.val
              hostname := p.hostname } := by
  have hRead :
      ∀ t : Table,
        t =
            ((entries.insert "stream_bind"
              (.string p.streamBind.val)).insert "admin_bind"
                (.string p.adminBind.val)).insert "hostname"
                  (.string p.hostname) →
          ServerConfig.read (.table t) =
            some
              { streamBind := p.streamBind.val
                adminBind := p.adminBind.val
                hostname := p.hostname } := by
    rintro t rfl
    simp [ServerConfig.read, Fields.required, read_bindAddr,
      Item.readString]
  rcases Item.asTableLike_eq_some_iff.mp hTable with
    rfl | rfl
  · exact ⟨_, rfl, hRead _ rfl⟩
  · exact ⟨_, rfl, hRead _ rfl⟩

theorem read_setLogging
    {item : Item}
    {entries : Table}
    (hTable : item.asTableLike = some entries)
    {p : LoggingSubPatch}
    {format : LogFormat}
    (hFormat : logFormat p.format = .ok format) :
    ∃ item',
      setLogging p item = .ok item' ∧
        LoggingConfig.read item' =
          some { level := p.level, format := format } := by
  have hRead :
      LoggingConfig.read
          (.table
            ((entries.insert "level"
              (.string p.level)).insert "format"
                (.string p.format))) =
        some { level := p.level, format := format } := by
    simp [LoggingConfig.read, Fields.required,
      Item.readString, logFormat_ok hFormat]
  rcases Item.asTableLike_eq_some_iff.mp hTable with
    rfl | rfl
  · exact ⟨_, rfl, hRead⟩
  · exact ⟨_, rfl, hRead⟩

/- The cap a save leaves, given what the file had. -/
def writtenCap
    (standard : Bool)
    (old : Option Nat)
    (cap : Option UInt32) : Option Nat :=
  match cap with
  | some n => some n.toNat
  | none => if standard then none else old

/- The limits a save of `p` leaves in the file. -/
def writtenLimits
    (standard : Bool)
    (old : LimitsConfig)
    (p : LimitsSubPatch) : LimitsConfig where
  maxListenersGlobal := p.maxListenersGlobal.toNat
  ringSize := min p.ringSize.toNat i64Max
  slowListenerGraceS := min p.slowListenerGraceS.toNat i64Max
  sourceMaxKbps :=
    writtenCap standard old.sourceMaxKbps p.sourceMaxKbps
  burstSize := p.burstSize.toNat

/- The keys every save of the limits assigns. -/
def limitsKeys
    (p : LimitsSubPatch)
    (entries : Table) : Table :=
  entries
    |>.insert "max_listeners_global"
      (ofU32 p.maxListenersGlobal)
    |>.insert "ring_size" (ofU64 p.ringSize)
    |>.insert "slow_listener_grace_s"
      (ofU64 p.slowListenerGraceS)
    |>.insert "burst_size" (ofU32 p.burstSize)

/- Keys with the numbers of a save, whatever the cap is. -/
theorem read_limits
    {p : LimitsSubPatch}
    {entries written : Table}
    (hSame :
      ∀ name, name ≠ "source_max_kbps" →
        written.get name = (limitsKeys p entries).get name)
    {cap : Option Nat}
    (hCap :
      Fields.optional written.get "source_max_kbps" readU32 =
        some cap) :
    LimitsConfig.read (.table written) =
      some
        { maxListenersGlobal := p.maxListenersGlobal.toNat
          ringSize := min p.ringSize.toNat i64Max
          slowListenerGraceS :=
            min p.slowListenerGraceS.toNat i64Max
          sourceMaxKbps := cap
          burstSize := p.burstSize.toNat } := by
  have hGlobal :
      written.get "max_listeners_global" =
        some (ofU32 p.maxListenersGlobal) := by
    simp [hSame, limitsKeys]
  have hRing :
      written.get "ring_size" = some (ofU64 p.ringSize) := by
    simp [hSame, limitsKeys]
  have hGrace :
      written.get "slow_listener_grace_s" =
        some (ofU64 p.slowListenerGraceS) := by
    simp [hSame, limitsKeys]
  have hBurst :
      written.get "burst_size" =
        some (ofU32 p.burstSize) := by
    simp [hSame, limitsKeys]
  unfold LimitsConfig.read
  simp only [Item.fields_table, Option.bind_eq_bind,
    Option.bind_some, Fields.required_of_eq hGlobal,
    Fields.required_of_eq hRing,
    Fields.required_of_eq hGrace,
    Fields.withDefault_of_eq hBurst, readU32_ofU32,
    readU64_ofU64, hCap, Option.pure_def]

/- The cap of the limits is read from its key. -/
theorem optional_cap_of_read
    {entries : Table}
    {limits : LimitsConfig}
    (hRead :
      LimitsConfig.read (.table entries) = some limits) :
    Fields.optional entries.get "source_max_kbps" readU32 =
      some limits.sourceMaxKbps := by
  unfold LimitsConfig.read at hRead
  simp only [Item.fields_table, Option.bind_eq_bind,
    Option.bind_some, Option.bind_eq_some_iff,
    Option.pure_def, Option.some.injEq] at hRead
  rcases hRead with
    ⟨_, _, _, _, _, _, cap, hCap, _, _, rfl⟩
  exact hCap

theorem read_setLimits
    {item : Item}
    {entries : Table}
    (hTable : item.asTableLike = some entries)
    {old : LimitsConfig}
    (hOld : LimitsConfig.read item = some old)
    (p : LimitsSubPatch) :
    ∃ item',
      setLimits p item = .ok item' ∧
        LimitsConfig.read item' =
          some (writtenLimits item.asTable.isSome old p) := by
  unfold setLimits writtenLimits writtenCap
  cases hCap : p.sourceMaxKbps with
  | some n =>
      have hItem :
          ((limitsKeys p entries).insert "source_max_kbps"
            (ofU32 n)).get "source_max_kbps" =
              (some n).map ofU32 := by
        simp
      have hSame :
          ∀ name, name ≠ "source_max_kbps" →
            ((limitsKeys p entries).insert "source_max_kbps"
              (ofU32 n)).get name =
                (limitsKeys p entries).get name := by
        intro name hName
        simp [Ne.symm hName]
      have hRead := read_limits hSame (optional_u32 hItem)
      rcases Item.asTableLike_eq_some_iff.mp hTable with
        rfl | rfl
      · exact ⟨_, rfl, hRead⟩
      · exact ⟨_, rfl, hRead⟩
  | none =>
      rcases Item.asTableLike_eq_some_iff.mp hTable with
        rfl | rfl
      · -- A standard table loses the key.
        have hSame :
            ∀ name, name ≠ "source_max_kbps" →
              ((limitsKeys p entries).remove
                "source_max_kbps").get name =
                  (limitsKeys p entries).get name := by
          intro name hName
          simp [Ne.symm hName]
        have hGone :
            Fields.optional
                ((limitsKeys p entries).remove
                  "source_max_kbps").get
                "source_max_kbps" readU32 =
              some none := by
          simp [Fields.optional]
        exact ⟨_, rfl, read_limits hSame hGone⟩
      · -- An inline table keeps it.
        have hKept :
            Fields.optional (limitsKeys p entries).get
                "source_max_kbps" readU32 =
              some old.sourceMaxKbps := by
          rw [← optional_cap_of_read hOld]
          simp [limitsKeys, Fields.optional]
        have hRead := read_limits (fun _ _ => rfl) hKept
        exact ⟨_, rfl, hRead⟩

/- When the file holds exactly the limits of the patch. -/
theorem writtenLimits_eq_iff
    (standard : Bool)
    (old : LimitsConfig)
    (p : LimitsSubPatch) :
    writtenLimits standard old p =
        { maxListenersGlobal := p.maxListenersGlobal.toNat
          ringSize := p.ringSize.toNat
          slowListenerGraceS := p.slowListenerGraceS.toNat
          sourceMaxKbps := p.sourceMaxKbps.map UInt32.toNat
          burstSize := p.burstSize.toNat } ↔
      p.ringSize.toNat ≤ i64Max ∧
        p.slowListenerGraceS.toNat ≤ i64Max ∧
          (standard ∨ p.sourceMaxKbps.isSome ∨
            old.sourceMaxKbps = none) := by
  have hMin : ∀ n : Nat, min n i64Max = n ↔ n ≤ i64Max := by
    intro n
    omega
  simp only [writtenLimits, LimitsConfig.mk.injEq, true_and,
    and_true, hMin]
  apply and_congr_right'
  apply and_congr_right'
  cases p.sourceMaxKbps with
  | some n => simp [writtenCap]
  | none =>
      cases standard with
      | true => simp [writtenCap]
      | false => simp [writtenCap]

theorem read_setAuth
    {item : Item}
    {entries : Table}
    (hTable : item.asTableLike = some entries)
    {old : AuthConfig}
    (hOld : AuthConfig.read item = some old)
    (password : String) :
    ∃ item',
      setAuth ⟨some password⟩ item = .ok item' ∧
        AuthConfig.read item' =
          some { old with sourcePassword := some password } := by
  have hSpelled :
      AuthConfig.read (.table entries) = some old := by
    rcases Item.asTableLike_eq_some_iff.mp hTable with
      rfl | rfl
    · exact hOld
    · exact hOld
  have hRead :
      AuthConfig.read
          (.table
            (entries.insert "source_password"
              (.string password))) =
        some { old with sourcePassword := some password } := by
    unfold AuthConfig.read at hSpelled ⊢
    simp only [Item.fields_table, Option.bind_eq_bind,
      Option.bind_some, Option.bind_eq_some_iff,
      Option.pure_def, Option.some.injEq] at hSpelled ⊢
    rcases hSpelled with ⟨users, hUsers, _, _, rfl⟩
    refine ⟨users, ?_, some password, ?_, rfl⟩
    · rw [← hUsers]
      simp [Fields.withDefault]
    · simp [Fields.optional, Item.readString]
  rcases Item.asTableLike_eq_some_iff.mp hTable with
    rfl | rfl
  · exact ⟨_, rfl, hRead⟩
  · exact ⟨_, rfl, hRead⟩

theorem read_setTranscode
    {item : Item}
    {entries : Table}
    (hTable : item.asTableLike = some entries)
    {t : TranscodeSubPatch}
    {config : TranscodeConfig}
    (hConfig : transcodeConfig t = .ok config) :
    ∃ item',
      setTranscode t item = .ok item' ∧
        TranscodeConfig.read item' = some config := by
  have hRead :
      TranscodeConfig.read
          (.table
            (((entries.insert "format"
              (.string t.format)).insert "sample_rate"
                (ofU32 t.sampleRate)).insert "bitrate_kbps"
                  (ofU32 t.bitrateKbps))) =
        some config :=
    read_transcodeFields hConfig (by simp) (by simp)
      (by simp)
  rcases Item.asTableLike_eq_some_iff.mp hTable with
    rfl | rfl
  · exact ⟨_, rfl, hRead⟩
  · exact ⟨_, rfl, hRead⟩

theorem read_setUsers
    {entries : Table}
    {old : AuthConfig}
    (hOld : AuthConfig.read (.table entries) = some old)
    {p : UsersPatch}
    (hRoles :
      ∀ u ∈ p.users, u.role = "admin" ∨ u.role = "operator") :
    ∃ item',
      setUsers p (.table entries) = .ok item' ∧
        AuthConfig.read item' =
          some { old with users := p.users.map userConfig } := by
  have hUsers :=
    readList_replaceTables entries "users" userTable
      (fun u => Except.ok (userConfig u)) UserConfig.read
      (List.mapM_pure) fun u hMem v hEq => by
        cases hEq
        exact read_userTable (hRoles u hMem)
  refine ⟨_, rfl, ?_⟩
  unfold AuthConfig.read at hOld ⊢
  simp only [Item.fields_table, Option.bind_eq_bind,
    Option.bind_some, Option.bind_eq_some_iff,
    Option.pure_def, Option.some.injEq] at hOld ⊢
  rcases hOld with ⟨_, _, password, hPassword, rfl⟩
  refine ⟨_, hUsers, password, ?_, rfl⟩
  rw [← hPassword]
  simp [Fields.optional, get_replaceTables_other]

end ConfigPut

end RustyIce

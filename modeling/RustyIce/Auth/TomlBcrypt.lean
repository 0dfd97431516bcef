import RustyIce.Core.Config

/-
  The credential store built from a configuration, as far as
  source uploads use it.

  Main declarations:
    * `TomlBcryptAuth`
    * `TomlBcryptAuth.verifySource`
    * `TomlBcryptAuth.verifyDefaultSource`
    * `Authorised`
    * `verifySource_iff_authorised`
-/

------------------------------------------------------------
-- The Credential Store
------------------------------------------------------------

namespace RustyIce

/- The three credential tables; each lookup is by key. -/
structure TomlBcryptAuth where
  users : String → Option String
  mountPasswords : String → Option String
  defaultSourcePassword : Option String

/-
  The value of a key in a table collected from a list, where
  later entries win.
-/
def collectMap {Entry : Type}
    (key value : Entry → String)
    (entries : List Entry)
    (name : String) : Option String :=
  (entries.reverse.find? fun entry =>
    key entry = name).map value

def userMap (cfg : Config) : String → Option String :=
  collectMap UserConfig.username UserConfig.passwordBcrypt
    cfg.auth.users

def mountMap (cfg : Config) : String → Option String :=
  collectMap MountConfig.path MountConfig.sourcePassword
    cfg.mounts

namespace TomlBcryptAuth

def new (cfg : Config) : TomlBcryptAuth where
  users := userMap cfg
  mountPasswords := mountMap cfg
  defaultSourcePassword := cfg.auth.sourcePassword

/- Reloading never fails. -/
def reload
    (_auth : TomlBcryptAuth)
    (cfg : Config) : Except String TomlBcryptAuth :=
  .ok
    { users := userMap cfg
      mountPasswords := mountMap cfg
      defaultSourcePassword := cfg.auth.sourcePassword }

def verifyDefaultSource
    (auth : TomlBcryptAuth)
    (password : String) : Bool :=
  auth.defaultSourcePassword = some password

/-
  A per-mount password is checked strictly; without one the
  global password decides.
-/
def verifySource
    (auth : TomlBcryptAuth)
    (mountPath password : String) : Bool :=
  match auth.mountPasswords mountPath with
  | some stored => stored = password
  | none => auth.verifyDefaultSource password

end TomlBcryptAuth

end RustyIce

------------------------------------------------------------
-- The Authorisation Rule
------------------------------------------------------------

namespace RustyIce

/-
  What a configuration says about a source password: the
  mount's own for a listed mount, the global one otherwise.
-/
def Authorised
    (cfg : Config)
    (path password : String) : Prop :=
  (∃ m ∈ cfg.mounts,
    m.path = path ∧ m.sourcePassword = password) ∨
    (path ∉ cfg.mountPaths ∧
      cfg.auth.sourcePassword = some password)

/- Keys that occur once are looked up exactly. -/
theorem collectMap_eq_some_iff {Entry : Type}
    {key value : Entry → String}
    {entries : List Entry}
    (hNodup : (entries.map key).Nodup)
    (name found : String) :
    collectMap key value entries name = some found ↔
      ∃ entry ∈ entries,
        key entry = name ∧ value entry = found := by
  unfold collectMap
  rw [Option.map_eq_some_iff]
  constructor
  · rintro ⟨entry, hFind, hValue⟩
    have hMem := List.mem_of_find?_eq_some hFind
    have hKey := List.find?_some hFind
    refine ⟨entry, by simpa using hMem, ?_, hValue⟩
    simpa using hKey
  · rintro ⟨entry, hEntry, hKey, hValue⟩
    cases hFind :
        entries.reverse.find? fun e => key e = name with
    | none =>
        rw [List.find?_eq_none] at hFind
        have hNot := hFind entry (by simpa using hEntry)
        simp [hKey] at hNot
    | some other =>
        have hMem := List.mem_of_find?_eq_some hFind
        have hOther := List.find?_some hFind
        have hSame : other = entry := by
          apply List.inj_on_of_nodup_map hNodup
          · simpa using hMem
          · exact hEntry
          · rw [hKey]
            simpa using hOther
        exact ⟨other, rfl, by rw [hSame, hValue]⟩

theorem collectMap_eq_none_iff {Entry : Type}
    (key value : Entry → String)
    (entries : List Entry)
    (name : String) :
    collectMap key value entries name = none ↔
      name ∉ entries.map key := by
  unfold collectMap
  rw [Option.map_eq_none_iff, List.find?_eq_none]
  simp [eq_comm]

/- A key whose entries agree is looked up as they say. -/
theorem collectMap_of_agree {Entry : Type}
    {key value : Entry → String}
    {entries : List Entry}
    {name found : String}
    (hMem : name ∈ entries.map key)
    (hAgree :
      ∀ entry ∈ entries,
        key entry = name → value entry = found) :
    collectMap key value entries name = some found := by
  cases hLookup : collectMap key value entries name with
  | none =>
      rw [collectMap_eq_none_iff] at hLookup
      exact absurd hMem hLookup
  | some other =>
      unfold collectMap at hLookup
      rcases Option.map_eq_some_iff.mp hLookup with
        ⟨entry, hFind, hValue⟩
      have hEntry := List.mem_of_find?_eq_some hFind
      have hKey := List.find?_some hFind
      rw [← hValue, hAgree entry (by simpa using hEntry)
        (by simpa using hKey)]

/-
  The check for a registered mount is the rule of the
  configuration the store was built from.
-/
theorem verifySource_iff_authorised
    {cfg : Config}
    (hNodup : cfg.mountPaths.Nodup)
    (path password : String) :
    (TomlBcryptAuth.new cfg).verifySource path password =
        true ↔
      Authorised cfg path password := by
  unfold TomlBcryptAuth.verifySource Authorised
  cases hLookup :
      (TomlBcryptAuth.new cfg).mountPasswords path with
  | some stored =>
      have hEntry :=
        (collectMap_eq_some_iff hNodup path stored).mp
          hLookup
      rcases hEntry with ⟨m, hm, hPath, hStored⟩
      have hListed : path ∈ cfg.mountPaths :=
        List.mem_map.mpr ⟨m, hm, hPath⟩
      simp only [decide_eq_true_eq, hListed,
        not_true_eq_false, false_and, or_false]
      constructor
      · intro hPassword
        exact ⟨m, hm, hPath, hStored.trans hPassword⟩
      · rintro ⟨other, hOther, hOtherPath, hPassword⟩
        have hSame : other = m :=
          List.inj_on_of_nodup_map hNodup hOther hm
            (hOtherPath.trans hPath.symm)
        rw [← hStored, ← hPassword, hSame]
  | none =>
      have hUnlisted : path ∉ cfg.mountPaths :=
        (collectMap_eq_none_iff _ _ _ _).mp hLookup
      have hNone :
          ¬ ∃ m ∈ cfg.mounts,
            m.path = path ∧ m.sourcePassword = password := by
        rintro ⟨m, hm, hPath, _⟩
        exact hUnlisted (List.mem_map.mpr ⟨m, hm, hPath⟩)
      simp only [hNone, false_or, hUnlisted,
        not_false_eq_true, true_and,
        TomlBcryptAuth.verifyDefaultSource,
        decide_eq_true_eq]
      rfl

end RustyIce

import Mathlib.Data.List.Nodup

/-
  JSON values and the records written as objects: a field
  that is skipped is not a member, and a reader takes the
  members it knows by name and passes over the others.

  Main declarations:
    * `Json`, `Json.record`
    * `Json.fields`, `fields_record`
    * `Fields.required`, `Fields.withDefault` and
      `Fields.optional`
-/

------------------------------------------------------------
-- Values
------------------------------------------------------------

namespace Library

/- Nothing reads a number with a fraction but its text. -/
inductive Json where
| null
| bool (value : Bool)
| number (value : Int)
| float (text : String)
| string (text : String)
| array (elements : List Json)
| object (members : List (String × Json))

namespace Json

def get
    (name : String) : Json → Option Json
| .object members => members.lookup name
| _ => none

/-
  The members of a record that lists all its fields, with
  nothing for a field that is skipped.
-/
def written :
    List (String × Option Json) → List (String × Json)
| [] => []
| (_, none) :: rest => written rest
| (name, some value) :: rest => (name, value) :: written rest

def record (spec : List (String × Option Json)) : Json :=
  .object (written spec)

/- An absent value that is not skipped. -/
def orNull : Option Json → Json
| none => .null
| some value => value

theorem mem_keys_of_written
    {name : String}
    {spec : List (String × Option Json)}
    (hMem : name ∈ (written spec).map Prod.fst) :
    name ∈ spec.map Prod.fst := by
  induction spec with
  | nil => exact hMem
  | cons entry rest ih =>
      rcases entry with ⟨key, value⟩
      cases value with
      | none => exact List.mem_cons_of_mem _ (ih hMem)
      | some value =>
          rcases List.mem_cons.mp hMem with rfl | hLater
          · exact List.mem_cons_self
          · exact List.mem_cons_of_mem _ (ih hLater)

/- Each name of a record is a member once at most. -/
theorem nodup_written
    {spec : List (String × Option Json)}
    (hNodup : (spec.map Prod.fst).Nodup) :
    ((written spec).map Prod.fst).Nodup := by
  induction spec with
  | nil => exact List.nodup_nil
  | cons entry rest ih =>
      rcases entry with ⟨key, value⟩
      rcases List.nodup_cons.mp hNodup with ⟨hNew, hRest⟩
      cases value with
      | none => exact ih hRest
      | some value =>
          apply List.nodup_cons.mpr
          refine ⟨?_, ih hRest⟩
          intro hMem
          exact hNew (mem_keys_of_written hMem)

theorem lookup_of_mem
    {Value : Type}
    {name : String}
    {value : Value}
    {spec : List (String × Value)}
    (hNodup : (spec.map Prod.fst).Nodup)
    (hMem : (name, value) ∈ spec) :
    spec.lookup name = some value := by
  induction spec with
  | nil => cases hMem
  | cons entry rest ih =>
      rcases entry with ⟨key, first⟩
      rcases List.nodup_cons.mp hNodup with ⟨hNew, hRest⟩
      rcases List.mem_cons.mp hMem with hHead | hTail
      · cases hHead
        exact List.lookup_cons_self
      · rw [List.lookup_cons, ih hRest hTail]
        have hOther : (name == key) = false := by
          rw [beq_eq_false_iff_ne]
          rintro rfl
          exact hNew (List.mem_map.mpr ⟨_, hTail, rfl⟩)
        rw [hOther]

theorem lookup_written
    (name : String)
    {spec : List (String × Option Json)}
    (hNodup : (spec.map Prod.fst).Nodup) :
    (written spec).lookup name = (spec.lookup name).join := by
  induction spec with
  | nil => rfl
  | cons entry rest ih =>
      rcases entry with ⟨key, value⟩
      rcases List.nodup_cons.mp hNodup with ⟨hNew, hRest⟩
      cases value with
      | none =>
          rw [written, ih hRest, List.lookup_cons]
          split
          · rename_i hKey
            rw [beq_iff_eq] at hKey
            have hNone : rest.lookup name = none := by
              rw [List.lookup_eq_none_iff]
              intro other hOther
              rw [bne_iff_ne, hKey]
              rintro rfl
              exact
                hNew (List.mem_map.mpr ⟨other, hOther, rfl⟩)
            rw [hNone]
            rfl
          · rfl
      | some value =>
          rw [written, List.lookup_cons, List.lookup_cons]
          split
          · rfl
          · exact ih hRest

theorem get_of_mem
    {name : String}
    {value : Json}
    {spec : List (String × Option Json)}
    (hNodup : (spec.map Prod.fst).Nodup)
    (hMem : (name, some value) ∈ spec) :
    (record spec).get name = some value := by
  show (written spec).lookup name = some value
  rw [lookup_written name hNodup, lookup_of_mem hNodup hMem]
  rfl

end Json

end Library

------------------------------------------------------------
-- Reading
------------------------------------------------------------

namespace Library

namespace Json

/- Where the fields of a record are found. -/
abbrev Fields := String → Option Json

/-
  The members of an object by name. A known name may not
  occur twice. A record spelled as an array is left out.
-/
def fields
    (names : List String) : Json → Option Fields
| .object members =>
    if ((members.map Prod.fst).filter (· ∈ names)).Nodup then
      some fun name => members.lookup name
    else
      none
| _ => none

/-
  A written record is read by name, each field as it is, and
  another one as absent.
-/
theorem fields_record
    (names : List String)
    (spec : List (String × Option Json))
    (hNodup : (spec.map Prod.fst).Nodup) :
    ∃ found,
      (record spec).fields names = some found ∧
        (∀ name {value},
          (name, value) ∈ spec → found name = value) ∧
          ∀ name,
            name ∉ spec.map Prod.fst → found name = none := by
  refine
    ⟨fun name => (spec.lookup name).join, ?_, ?_, ?_⟩
  · simp only [record, fields]
    rw [if_pos ((nodup_written hNodup).filter _)]
    congr 1
    funext name
    exact lookup_written name hNodup
  · intro name value hMem
    show (spec.lookup name).join = value
    rw [lookup_of_mem hNodup hMem]
    rfl
  · intro name hNone
    show (spec.lookup name).join = none
    rw [List.lookup_eq_none_iff.mpr]
    · rfl
    · intro entry hMem
      rw [bne_iff_ne]
      rintro rfl
      exact hNone (List.mem_map_of_mem hMem)

namespace Fields

variable {Value : Type}

def required
    (fields : Fields)
    (name : String)
    (read : Json → Option Value) : Option Value :=
  (fields name).bind read

def withDefault
    (fields : Fields)
    (name : String)
    (read : Json → Option Value)
    (default : Value) : Option Value :=
  match fields name with
  | none => some default
  | some value => read value

/- An absent field and `null` are no value. -/
def optional
    (fields : Fields)
    (name : String)
    (read : Json → Option Value) : Option (Option Value) :=
  match fields name with
  | none => some none
  | some .null => some none
  | some value => (read value).map some

theorem required_of_read
    {read : Json → Option Value}
    {value : Json}
    {result : Value}
    (hRead : read value = some result)
    {fields : Fields}
    {name : String}
    (hField : fields name = some value) :
    fields.required name read = some result := by
  rw [required, hField, Option.bind_some, hRead]

theorem withDefault_of_read
    {read : Json → Option Value}
    {value : Json}
    {result : Value}
    (hRead : read value = some result)
    (default : Value)
    {fields : Fields}
    {name : String}
    (hField : fields name = some value) :
    fields.withDefault name read default = some result := by
  rw [withDefault, hField]
  exact hRead

/- A skipped field is read back as what was skipped. -/
theorem optional_of_map
    {Source : Type}
    {fields : Fields}
    {name : String}
    {source : Option Source}
    {write : Source → Json}
    (hField : fields name = source.map write)
    {read : Json → Option Value}
    {value : Source → Value}
    (hSome : ∀ x, write x ≠ .null)
    (hEach : ∀ x ∈ source, read (write x) = some (value x)) :
    fields.optional name read = some (source.map value) := by
  rw [optional, hField]
  cases source with
  | none => rfl
  | some x =>
      have hRead := hEach x rfl
      simp only [Option.map_some]
      split
      · rename_i hNone
        cases hNone
      · rename_i hNull
        exact absurd (Option.some.inj hNull) (hSome x)
      · rename_i other _ hOther
        rw [← Option.some.inj hOther, hRead, Option.map_some]

/- A field that is `null` when there is nothing to write. -/
theorem optional_of_orNull
    {Source : Type}
    {fields : Fields}
    {name : String}
    {source : Option Source}
    {write : Source → Json}
    (hField :
      fields name = some (.orNull (source.map write)))
    {read : Json → Option Value}
    {value : Source → Value}
    (hSome : ∀ x, write x ≠ .null)
    (hEach : ∀ x ∈ source, read (write x) = some (value x)) :
    fields.optional name read = some (source.map value) := by
  cases source with
  | none =>
      rw [optional, hField]
      rfl
  | some x =>
      exact
        optional_of_map hField hSome hEach

end Fields

def readString : Json → Option String
| .string text => some text
| _ => none

def readBool : Json → Option Bool
| .bool value => some value
| _ => none

theorem readString_string (text : String) :
    readString (.string text) = some text :=
  rfl

theorem readBool_bool (value : Bool) :
    readBool (.bool value) = some value :=
  rfl

/- All elements of an array, or nothing. -/
def readList {Value : Type}
    (read : Json → Option Value) :
    Json → Option (List Value)
| .array elements => elements.mapM read
| _ => none

/- A list written element by element is read back. -/
theorem readList_array
    {Entry Value : Type}
    {write : Entry → Json}
    {read : Json → Option Value}
    {value : Entry → Value}
    {entries : List Entry}
    (hEach :
      ∀ entry ∈ entries,
        read (write entry) = some (value entry)) :
    readList read (.array (entries.map write)) =
      some (entries.map value) := by
  change (entries.map write).mapM read = _
  induction entries with
  | nil => rfl
  | cons entry entries ih =>
      have hRest :=
        ih fun other hOther =>
          hEach other (List.mem_cons_of_mem _ hOther)
      rw [List.map_cons, List.mapM_cons,
        hEach entry List.mem_cons_self, hRest]
      rfl

end Json

end Library

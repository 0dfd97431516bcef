import Mathlib.Tactic.Common

/-
  Configuration documents as an editor of such files holds
  them: a tree of standard tables, inline tables, arrays of
  tables and values, the rules for looking up and assigning
  keys in it, and the reading of records from it.

  Formatting and comments are left out. So are the texts of
  reading errors: reading something gives a value or not.

  Main declarations:
    * `IndexMap` with `get`, `insert` and `remove`
    * `Toml.Item`, `Toml.Table`
    * `Toml.Item.setKey`, `Toml.Item.removeKey`
    * `Toml.Item.fields` and the readers
    * `Toml.Item.readList_arrayOfTables`
-/

------------------------------------------------------------
-- Results
------------------------------------------------------------

namespace Library

theorem bind_of_some
    {First Second : Type}
    {x : Option First}
    {value : First}
    (hSome : x = some value)
    {next : First → Option Second} :
    (x >>= next) = next value := by
  rw [hSome]
  rfl

theorem bind_eq_ok_iff
    {Error First Second : Type}
    {x : Except Error First}
    {f : First → Except Error Second}
    {result : Second} :
    x >>= f = .ok result ↔
      ∃ value, x = .ok value ∧ f value = .ok result := by
  cases x with
  | error e => simp [bind, Except.bind]
  | ok value => simp [bind, Except.bind]

/- What gives a value everywhere gives a list of values. -/
theorem exists_mapM_eq_ok
    {Error Entry Value : Type}
    {f : Entry → Except Error Value}
    {entries : List Entry}
    (hEach : ∀ entry ∈ entries, ∃ v, f entry = .ok v) :
    ∃ values, entries.mapM f = .ok values := by
  induction entries with
  | nil => exact ⟨[], rfl⟩
  | cons entry entries ih =>
      rcases hEach entry List.mem_cons_self with ⟨v, hHead⟩
      rcases ih fun other hOther =>
          hEach other (List.mem_cons_of_mem _ hOther) with
        ⟨vs, hTail⟩
      refine ⟨v :: vs, ?_⟩
      rw [List.mapM_cons, hHead, hTail]
      rfl

/- Each value of such a list is that of some entry. -/
theorem exists_of_mem_mapM
    {Error Entry Value : Type}
    {f : Entry → Except Error Value}
    {entries : List Entry}
    {values : List Value}
    (hValues : entries.mapM f = .ok values)
    {v : Value}
    (hMem : v ∈ values) :
    ∃ entry ∈ entries, f entry = .ok v := by
  induction entries generalizing values with
  | nil =>
      cases hValues
      cases hMem
  | cons entry entries ih =>
      rw [List.mapM_cons, bind_eq_ok_iff] at hValues
      rcases hValues with ⟨first, hHead, hValues⟩
      rw [bind_eq_ok_iff] at hValues
      rcases hValues with ⟨rest, hTail, hValues⟩
      cases hValues
      rcases List.mem_cons.mp hMem with rfl | hLater
      · exact ⟨entry, List.mem_cons_self, hHead⟩
      · rcases ih hTail hLater with ⟨other, hOther, hEq⟩
        exact ⟨other, List.mem_cons_of_mem _ hOther, hEq⟩

/- What undoes a function entry by entry undoes its list. -/
theorem mapM_map_eq_ok
    {Error Entry Value : Type}
    {f : Value → Except Error Entry}
    {g : Entry → Value}
    {entries : List Entry}
    (hEach : ∀ entry ∈ entries, f (g entry) = .ok entry) :
    (entries.map g).mapM f = .ok entries := by
  induction entries with
  | nil => rfl
  | cons entry entries ih =>
      have hRest :=
        ih fun other hOther =>
          hEach other (List.mem_cons_of_mem _ hOther)
      rw [List.map_cons, List.mapM_cons,
        hEach entry List.mem_cons_self, hRest]
      rfl

/- The same with places that play no part. -/
theorem mapM_zipIdx_map_eq_ok
    {Error Entry Place Value : Type}
    {f : Place × Nat → Except Error Value}
    {g : Entry → Place}
    {h : Entry → Value}
    {entries : List Entry}
    (hEach :
      ∀ entry ∈ entries, ∀ index,
        f (g entry, index) = .ok (h entry))
    (first : Nat) :
    ((entries.map g).zipIdx first).mapM f =
      .ok (entries.map h) := by
  induction entries generalizing first with
  | nil => rfl
  | cons entry entries ih =>
      have hRest :=
        ih (fun other hOther =>
          hEach other (List.mem_cons_of_mem _ hOther))
          (first + 1)
      rw [List.map_cons, List.zipIdx_cons, List.mapM_cons,
        hEach entry List.mem_cons_self, hRest]
      rfl

end Library

------------------------------------------------------------
-- Insertion-Ordered Maps
------------------------------------------------------------

namespace Library

/- Keys with values, in the order of first insertion. -/
structure IndexMap (Key Value : Type) where
  entries : List (Key × Value)

namespace IndexMap

variable {Key Value : Type}
variable [DecidableEq Key]

def empty : IndexMap Key Value :=
  ⟨[]⟩

/- The value of a key in a list of entries. -/
def find (key : Key) :
    List (Key × Value) → Option Value
| [] => none
| (k, v) :: rest =>
    if k = key then some v else find key rest

/- A known key keeps its place, a new one goes last. -/
def put
    (key : Key)
    (value : Value) :
    List (Key × Value) → List (Key × Value)
| [] => [(key, value)]
| (k, v) :: rest =>
    if k = key then (key, value) :: rest
    else (k, v) :: put key value rest

/- The entries of the other keys. -/
def drop (key : Key) :
    List (Key × Value) → List (Key × Value)
| [] => []
| (k, v) :: rest =>
    if k = key then drop key rest
    else (k, v) :: drop key rest

def get
    (m : IndexMap Key Value)
    (key : Key) : Option Value :=
  find key m.entries

def insert
    (m : IndexMap Key Value)
    (key : Key)
    (value : Value) : IndexMap Key Value :=
  ⟨put key value m.entries⟩

def remove
    (m : IndexMap Key Value)
    (key : Key) : IndexMap Key Value :=
  ⟨drop key m.entries⟩

/- Insert a value if there is one. -/
def insertSome
    (m : IndexMap Key Value)
    (key : Key) :
    Option Value → IndexMap Key Value
| some value => m.insert key value
| none => m

@[simp] theorem get_empty (key : Key) :
    (empty : IndexMap Key Value).get key = none :=
  rfl

theorem find_put
    (key other : Key)
    (value : Value)
    (entries : List (Key × Value)) :
    find other (put key value entries) =
      if key = other then some value
      else find other entries := by
  induction entries with
  | nil => rfl
  | cons entry rest ih =>
      rcases entry with ⟨k, v⟩
      rw [put]
      by_cases hKey : k = key
      · subst hKey
        simp only [if_true, find]
        by_cases hOther : k = other
        · simp [hOther]
        · simp [hOther]
      · rw [if_neg hKey, find, find, ih]
        by_cases hOther : k = other
        · have hNe : key ≠ other :=
            fun hEq => hKey (hOther.trans hEq.symm)
          simp [hOther, hNe]
        · simp [hOther]

theorem find_drop
    (key other : Key)
    (entries : List (Key × Value)) :
    find other (drop key entries) =
      if key = other then none
      else find other entries := by
  induction entries with
  | nil => simp [drop, find]
  | cons entry rest ih =>
      rcases entry with ⟨k, v⟩
      rw [drop]
      by_cases hKey : k = key
      · subst hKey
        rw [if_pos rfl, ih, find]
        by_cases hOther : k = other
        · simp [hOther]
        · simp [hOther]
      · rw [if_neg hKey, find, find, ih]
        by_cases hOther : k = other
        · have hNe : key ≠ other :=
            fun hEq => hKey (hOther.trans hEq.symm)
          simp [hOther, hNe]
        · simp [hOther]

/- What an insertion changes, and what it leaves alone. -/
@[simp] theorem get_insert
    (m : IndexMap Key Value)
    (key other : Key)
    (value : Value) :
    (m.insert key value).get other =
      if key = other then some value else m.get other :=
  find_put key other value m.entries

@[simp] theorem get_remove
    (m : IndexMap Key Value)
    (key other : Key) :
    (m.remove key).get other =
      if key = other then none else m.get other :=
  find_drop key other m.entries

@[simp] theorem get_insertSome
    (m : IndexMap Key Value)
    (key other : Key)
    (value : Option Value) :
    (m.insertSome key value).get other =
      if key = other then value <|> m.get other
      else m.get other := by
  cases value with
  | none => simp [insertSome]
  | some v => simp [insertSome]

end IndexMap

end Library

------------------------------------------------------------
-- The Document Tree
------------------------------------------------------------

namespace Library

namespace Toml

/-
  A position in a document. Nothing reads the number of a
  float or the moment of a date, so their texts stand for
  them.
-/
inductive Item where
| string (text : String)
| integer (value : Int)
| float (text : String)
| boolean (value : Bool)
| datetime (text : String)
| array (elements : List Item)
| inlineTable (entries : IndexMap String Item)
| table (entries : IndexMap String Item)
| arrayOfTables (tables : List (IndexMap String Item))

/- The keys of a table; a document is its root table. -/
abbrev Table := IndexMap String Item

namespace Item

/- The keys of a standard table, and of nothing else. -/
def asTable : Item → Option Table
| .table entries => some entries
| _ => none

/- The keys of a table in either spelling. -/
def asTableLike : Item → Option Table
| .table entries => some entries
| .inlineTable entries => some entries
| _ => none

/-
  Assign `item[key]`. Whatever is not a table in one of the
  two spellings has no keys, and indexing it panics.
-/
def setKey
    (item : Item)
    (key : String)
    (value : Item) : Except String Item :=
  match item with
  | .table entries => .ok (.table (entries.insert key value))
  | .inlineTable entries =>
      .ok (.inlineTable (entries.insert key value))
  | _ => .error "index not found"

/- Remove a key from a standard table; anything else stays. -/
def removeKey
    (item : Item)
    (key : String) : Item :=
  match item with
  | .table entries => .table (entries.remove key)
  | other => other

/- A table is in one of the two spellings. -/
theorem asTableLike_eq_some_iff
    {item : Item}
    {entries : Table} :
    item.asTableLike = some entries ↔
      item = .table entries ∨ item = .inlineTable entries := by
  cases item <;> simp [asTableLike]

theorem asTable_eq_some_iff
    {item : Item}
    {entries : Table} :
    item.asTable = some entries ↔ item = .table entries := by
  cases item <;> simp [asTable]

/- Without keys there is nothing to assign to. -/
theorem setKey_of_asTableLike_none
    {item : Item}
    (hTable : item.asTableLike = none)
    (key : String)
    (value : Item) :
    item.setKey key value = .error "index not found" := by
  cases item <;> first | rfl | cases hTable

end Item

end Toml

end Library

------------------------------------------------------------
-- Reading
------------------------------------------------------------

namespace Library

namespace Toml

variable {Value : Type}

/- Where a record's fields are found. -/
abbrev Fields := String → Option Item

namespace Fields

def required
    (fields : Fields)
    (name : String)
    (read : Item → Option Value) : Option Value :=
  (fields name).bind read

/- An absent field has its default. -/
def withDefault
    (fields : Fields)
    (name : String)
    (read : Item → Option Value)
    (default : Value) : Option Value :=
  match fields name with
  | none => some default
  | some item => read item

/- An absent field has no value. -/
def optional
    (fields : Fields)
    (name : String)
    (read : Item → Option Value) :
    Option (Option Value) :=
  match fields name with
  | none => some none
  | some item => (read item).map some

theorem required_of_eq
    {fields : Fields}
    {name : String}
    {item : Item}
    (hItem : fields name = some item)
    (read : Item → Option Value) :
    fields.required name read = read item := by
  rw [required, hItem, Option.bind_some]

theorem withDefault_of_eq
    {fields : Fields}
    {name : String}
    {item : Item}
    (hItem : fields name = some item)
    (read : Item → Option Value)
    (default : Value) :
    fields.withDefault name read default = read item := by
  rw [withDefault, hItem]

/-
  A field written only if there is something to write is
  read back as what was there.
-/
theorem optional_of_map
    {Source : Type}
    {fields : Fields}
    {name : String}
    {source : Option Source}
    {write : Source → Item}
    (hItem : fields name = source.map write)
    {read : Item → Option Value}
    {value : Source → Value}
    (hEach : ∀ x, read (write x) = some (value x)) :
    fields.optional name read = some (source.map value) := by
  rw [optional, hItem]
  cases source with
  | none => rfl
  | some x =>
      change (read (write x)).map some = some (some (value x))
      rw [hEach, Option.map_some]

section Edits

variable (doc : Table)
variable (key name : String)
variable (item : Item)
variable (read : Item → Option Value)

/- What an edit of one key means to each way of reading. -/
@[simp] theorem required_insert :
    Fields.required (doc.insert key item).get name read =
      if key = name then read item
      else Fields.required doc.get name read := by
  unfold required
  rw [IndexMap.get_insert]
  by_cases hKey : key = name
  · rw [if_pos hKey, if_pos hKey, Option.bind_some]
  · rw [if_neg hKey, if_neg hKey]

@[simp] theorem withDefault_insert (default : Value) :
    Fields.withDefault (doc.insert key item).get name read
        default =
      if key = name then read item
      else Fields.withDefault doc.get name read default := by
  unfold withDefault
  rw [IndexMap.get_insert]
  by_cases hKey : key = name
  · rw [if_pos hKey, if_pos hKey]
  · rw [if_neg hKey, if_neg hKey]

@[simp] theorem optional_insert :
    Fields.optional (doc.insert key item).get name read =
      if key = name then (read item).map some
      else Fields.optional doc.get name read := by
  unfold optional
  rw [IndexMap.get_insert]
  by_cases hKey : key = name
  · rw [if_pos hKey, if_pos hKey]
  · rw [if_neg hKey, if_neg hKey]

@[simp] theorem required_remove_other
    (hOther : key ≠ name) :
    Fields.required (doc.remove key).get name read =
      Fields.required doc.get name read := by
  unfold required
  rw [IndexMap.get_remove, if_neg hOther]

@[simp] theorem withDefault_remove (default : Value) :
    Fields.withDefault (doc.remove key).get name read
        default =
      if key = name then some default
      else Fields.withDefault doc.get name read default := by
  unfold withDefault
  rw [IndexMap.get_remove]
  by_cases hKey : key = name
  · rw [if_pos hKey, if_pos hKey]
  · rw [if_neg hKey, if_neg hKey]

@[simp] theorem optional_remove :
    Fields.optional (doc.remove key).get name read =
      if key = name then some none
      else Fields.optional doc.get name read := by
  unfold optional
  rw [IndexMap.get_remove]
  by_cases hKey : key = name
  · rw [if_pos hKey, if_pos hKey]
  · rw [if_neg hKey, if_neg hKey]

end Edits

end Fields

/- The elements of a sequence in the order of the names. -/
def positional
    (names : List String)
    (elements : List Item) : Fields :=
  fun name => IndexMap.find name (names.zip elements)

namespace Item

/-
  A record is read from a table of either spelling by name,
  and from a sequence by position: fewer elements leave the
  last fields absent, further ones are not looked at.
-/
def fields
    (names : List String)
    (item : Item) : Option Fields :=
  match item with
  | .table entries => some entries.get
  | .inlineTable entries => some entries.get
  | .array elements => some (positional names elements)
  | .arrayOfTables tables =>
      some (positional names (tables.map .table))
  | _ => none

def readString : Item → Option String
| .string text => some text
| _ => none

def readBoolean : Item → Option Bool
| .boolean value => some value
| _ => none

/- An integer between zero and the largest of its type. -/
def readUnsigned
    (largest : Nat)
    (item : Item) : Option Nat :=
  match item with
  | .integer value =>
      if 0 ≤ value ∧ value ≤ largest then some value.toNat
      else none
  | _ => none

theorem readUnsigned_natCast
    {n largest : Nat}
    (hLe : n ≤ largest) :
    readUnsigned largest (.integer n) = some n := by
  have hRange : (0 : Int) ≤ n ∧ (n : Int) ≤ largest := by
    omega
  rw [readUnsigned]
  simp [hRange]

/- Nothing is inside: an empty array or table. -/
def isVacant : Item → Bool
| .array elements => elements.isEmpty
| .inlineTable entries => entries.entries.isEmpty
| .table entries => entries.entries.isEmpty
| _ => false

/-
  A variant without data is its name, or a table whose only
  key is its name with nothing inside.
-/
def readVariant
    (variants : List (String × Value))
    (item : Item) : Option Value :=
  match item with
  | .string text => IndexMap.find text variants
  | .table ⟨[(key, inside)]⟩ =>
      if inside.isVacant then IndexMap.find key variants
      else none
  | .inlineTable ⟨[(key, inside)]⟩ =>
      if inside.isVacant then IndexMap.find key variants
      else none
  | _ => none

/- All elements of a sequence, or nothing. -/
def readList
    (read : Item → Option Value)
    (item : Item) : Option (List Value) :=
  match item with
  | .array elements => elements.mapM read
  | .arrayOfTables tables =>
      tables.mapM fun entries => read (.table entries)
  | _ => none

@[simp] theorem fields_table
    (entries : Table)
    (names : List String) :
    (table entries).fields names = some entries.get :=
  rfl

@[simp] theorem fields_inlineTable
    (entries : Table)
    (names : List String) :
    (inlineTable entries).fields names = some entries.get :=
  rfl

/-
  Tables written one for each entry of a list are read back
  as the values of the entries.
-/
theorem readList_arrayOfTables
    {Entry Error : Type}
    (write : Entry → Table)
    (value : Entry → Except Error Value)
    (read : Item → Option Value)
    {entries : List Entry}
    {values : List Value}
    (hValues : entries.mapM value = .ok values)
    (hEach :
      ∀ entry ∈ entries, ∀ v,
        value entry = .ok v →
          read (.table (write entry)) = some v) :
    (arrayOfTables (entries.map write)).readList read =
      some values := by
  change (entries.map write).mapM _ = some values
  induction entries generalizing values with
  | nil =>
      cases hValues
      rfl
  | cons entry entries ih =>
      rw [List.mapM_cons, bind_eq_ok_iff] at hValues
      rcases hValues with ⟨v, hHead, hValues⟩
      rw [bind_eq_ok_iff] at hValues
      rcases hValues with ⟨vs, hTail, hValues⟩
      cases hValues
      have hRest :=
        ih hTail fun other hOther =>
          hEach other (List.mem_cons_of_mem _ hOther)
      rw [List.map_cons, List.mapM_cons, hRest,
        hEach entry List.mem_cons_self v hHead]
      rfl

end Item

end Toml

end Library

import Mathlib.Algebra.Order.Ring.Nat
import RustyIce.Library.Keyed

/-
  The map of connected listeners. Ids come from a counter of
  64 bits that wraps around; an insertion at an id that is
  taken replaces the entry.

  Peer addresses and connection times are left out: only the
  pages of the administration show them.

  Main declarations:
    * `ListenerEntry`, `ListenerMap`
    * `ListenerMap.issue`, `ListenerMap.insert`,
      `ListenerMap.deregister`
    * `ListenerMap.kick`, `ListenerMap.idsForMount`,
      `ListenerMap.totalCount`
-/

------------------------------------------------------------
-- The Map
------------------------------------------------------------

namespace RustyIce

namespace Admin

abbrev ListenerId := Nat

/- `cancel` names the listener whose token the entry holds. -/
structure ListenerEntry where
  id : ListenerId
  mountPath : String
  cancel : Nat
deriving DecidableEq, Repr

/- `issued` counts the ids given out; the counter wraps. -/
structure ListenerMap where
  entries : List ListenerEntry
  issued : Nat
deriving DecidableEq, Repr

namespace ListenerMap

def new : ListenerMap where
  entries := []
  issued := 0

/- What `fetch_add` returns after `number` ids. -/
def idOf (number : Nat) : ListenerId :=
  number % 2 ^ 64

/- The first half of `register`: an id is taken. -/
def issue (map : ListenerMap) : ListenerMap :=
  { map with issued := map.issued + 1 }

def deregister
    (map : ListenerMap)
    (id : ListenerId) : ListenerMap :=
  { map with
    entries := map.entries.filter fun e => e.id ≠ id }

/- The second half of `register`. -/
def insert
    (map : ListenerMap)
    (entry : ListenerEntry) : ListenerMap :=
  { map with
    entries :=
      (map.deregister entry.id).entries ++ [entry] }

def get
    (map : ListenerMap)
    (id : ListenerId) : Option ListenerEntry :=
  map.entries.find? fun e => e.id = id

/- The listener whose token is cancelled, if one is. -/
def kick
    (map : ListenerMap)
    (id : ListenerId) : Option Nat :=
  (map.get id).map (·.cancel)

def idsForMount
    (map : ListenerMap)
    (mountPath : String) : List ListenerId :=
  (map.entries.filter fun e => e.mountPath = mountPath).map
    (·.id)

def totalCount (map : ListenerMap) : Nat :=
  map.entries.length

theorem idOf_lt
    {number : Nat}
    (hFew : number < 2 ^ 64) :
    idOf number = number :=
  Nat.mod_eq_of_lt hFew

@[simp] theorem mem_deregister
    (map : ListenerMap)
    (id : ListenerId)
    (entry : ListenerEntry) :
    entry ∈ (map.deregister id).entries ↔
      entry ∈ map.entries ∧ entry.id ≠ id := by
  simp [deregister]

/- An insertion at a free id only adds. -/
theorem entries_insert
    {map : ListenerMap}
    {entry : ListenerEntry}
    (hFree : ∀ e ∈ map.entries, e.id ≠ entry.id) :
    (map.insert entry).entries = map.entries ++ [entry] := by
  unfold insert deregister
  simp only
  rw [List.filter_eq_self.mpr]
  intro e hMem
  exact decide_eq_true (hFree e hMem)

/- With distinct ids, an entry is removed alone. -/
theorem length_deregister
    {map : ListenerMap}
    {entry : ListenerEntry}
    (hNodup : (map.entries.map (·.id)).Nodup)
    (hMem : entry ∈ map.entries) :
    (map.deregister entry.id).totalCount + 1 =
      map.totalCount := by
  unfold totalCount deregister
  simp only
  rcases List.append_of_mem hMem with ⟨before, later, hSplit⟩
  rw [hSplit] at hNodup ⊢
  rw [List.map_append, List.map_cons, List.nodup_append,
    List.nodup_cons] at hNodup
  rcases hNodup with ⟨-, ⟨hLater, -⟩, hBefore⟩
  have hKeepsBefore :
      (before.filter fun e => e.id ≠ entry.id) = before := by
    rw [List.filter_eq_self]
    intro e hOld
    apply decide_eq_true
    exact
      hBefore _ (List.mem_map_of_mem hOld) _
        List.mem_cons_self
  have hKeepsLater :
      (later.filter fun e => e.id ≠ entry.id) = later := by
    rw [List.filter_eq_self]
    intro e hNew
    apply decide_eq_true
    intro hSame
    apply hLater
    rw [← hSame]
    exact List.mem_map_of_mem hNew
  rw [List.filter_append, List.filter_cons_of_neg (by simp),
    hKeepsBefore, hKeepsLater]
  simp only [List.length_append, List.length_cons]
  omega

theorem get_eq_some
    {map : ListenerMap}
    (hNodup : (map.entries.map (·.id)).Nodup)
    {entry : ListenerEntry}
    (hMem : entry ∈ map.entries) :
    map.get entry.id = some entry :=
  Library.Keyed.find?_key hNodup hMem rfl

theorem mem_of_get
    {map : ListenerMap}
    {id : ListenerId}
    {entry : ListenerEntry}
    (hGet : map.get id = some entry) :
    entry ∈ map.entries ∧ entry.id = id := by
  refine ⟨List.mem_of_find?_eq_some hGet, ?_⟩
  simpa using List.find?_some hGet

end ListenerMap

end Admin

end RustyIce

import RustyIce.Server.Delivery

/-
  The listener map while listeners come and go: it holds the
  listeners that are between their registration and the end
  of their task, each once and no other.

  Ids are distinct as long as the counter has not wrapped.
  Of a handler only its attendance matters here: the mount,
  the number of its id, and whether it is in the map.

  Main declarations:
    * `Attendance`, `ListenerHandler.attendance`
    * `RegistryInv`
    * `Registered`, `registered`
-/

------------------------------------------------------------
-- Attendance
------------------------------------------------------------

namespace RustyIce

open Admin

/- A listener as the map sees it. -/
structure Attendance where
  mount : Nat
  number : Nat
  numbered : Bool
  listed : Bool
deriving DecidableEq, Repr

namespace ListenerTask

/- An id was taken for the listener. -/
def Numbered (task : ListenerTask) : Bool :=
  match task.phase with
  | .subscribed => false
  | _ => true

def attendance (task : ListenerTask) : Attendance where
  mount := task.mount
  number := task.number
  numbered := task.Numbered
  listed := task.Listed

theorem numbered_of_listed
    {task : ListenerTask}
    (hListed : task.Listed = true) :
    task.Numbered = true := by
  unfold Listed at hListed
  unfold Numbered
  cases hPhase : task.phase with
  | subscribed => simp [hPhase] at hListed
  | _ => rfl

end ListenerTask

def ListenerHandler.attendance :
    ListenerHandler → Option Attendance
| .serving task => some task.attendance
| .arrived _ _ => none
| .informed _ _ _ => none
| .primed _ _ _ _ => none

namespace Delivery

def attendances (s : Delivery) : List (Option Attendance) :=
  s.handlers.map ListenerHandler.attendance

def paths (s : Delivery) : List String :=
  s.feeds.map (·.path)

theorem attendances_setHandler
    (s : Delivery)
    (i : Nat)
    (handler : ListenerHandler) :
    (s.setHandler i handler).attendances =
      s.attendances.set i handler.attendance := by
  unfold attendances setHandler
  rw [List.map_set]

theorem getElem?_attendances
    {s : Delivery}
    {i : Nat}
    {handler : ListenerHandler}
    (hHandler : s.handlers[i]? = some handler) :
    s.attendances[i]? = some handler.attendance := by
  unfold attendances
  rw [List.getElem?_map, hHandler, Option.map_some]

/- A handler that attends as before changes nothing. -/
theorem attendances_same
    {s : Delivery}
    {i : Nat}
    {handler next : ListenerHandler}
    (hHandler : s.handlers[i]? = some handler)
    (hSame : next.attendance = handler.attendance) :
    (s.setHandler i next).attendances = s.attendances := by
  rw [attendances_setHandler, hSame]
  have hHere := getElem?_attendances hHandler
  rcases List.getElem?_eq_some_iff.mp hHere with ⟨hIndex, hGet⟩
  rw [← hGet, List.set_getElem_self]

end Delivery

end RustyIce

------------------------------------------------------------
-- The Map And Its Listeners
------------------------------------------------------------

namespace RustyIce

open Admin

/- A listener that counts as registered. -/
def isListed : Option Attendance → Bool
| some a => a.listed
| none => false

/- The entry of the listener at place `i`. -/
def Attendance.entry
    (a : Attendance)
    (path : String)
    (i : Nat) : ListenerEntry where
  id := ListenerMap.idOf a.number
  mountPath := path
  cancel := i

/-
  The map against the listeners and the paths of their
  mounts. No number was given out twice.
-/
structure RegistryInv
    (paths : List String)
    (map : ListenerMap)
    (attending : List (Option Attendance)) : Prop where
  numbers :
    ∀ (i : Nat) (a : Attendance),
      attending[i]? = some (some a) →
        a.numbered = true → a.number < map.issued
  distinct :
    ∀ (i j : Nat) (a b : Attendance),
      attending[i]? = some (some a) →
        attending[j]? = some (some b) →
          a.numbered = true → b.numbered = true →
            a.number = b.number → i = j
  ordered :
    ∀ (i : Nat) (a : Attendance),
      attending[i]? = some (some a) →
        a.listed = true → a.numbered = true
  placed :
    ∀ (i : Nat) (a : Attendance),
      attending[i]? = some (some a) →
        ∃ path, paths[a.mount]? = some path
  entries :
    ∀ e,
      e ∈ map.entries ↔
        ∃ (i : Nat) (a : Attendance) (path : String),
          attending[i]? = some (some a) ∧
            a.listed = true ∧
              paths[a.mount]? = some path ∧ e = a.entry path i
  nodup : (map.entries.map (·.id)).Nodup
  count : map.totalCount = attending.countP isListed

namespace RegistryInv

variable {paths : List String}
variable {map : ListenerMap}
variable {attending : List (Option Attendance)}

theorem nil (paths : List String) :
    RegistryInv paths .new [] where
  numbers := fun i a hSome => nomatch hSome
  distinct := fun i j a b hSome => nomatch hSome
  ordered := fun i a hSome => nomatch hSome
  placed := fun i a hSome => nomatch hSome
  entries := by
    intro e
    constructor
    · intro hMem
      cases hMem
    · rintro ⟨i, a, path, hSome, -⟩
      cases hSome
  nodup := List.nodup_nil
  count := rfl

/- A request arrives. -/
theorem arrive
    (hInv : RegistryInv paths map attending) :
    RegistryInv paths map (attending ++ [none]) := by
  have hOld :
      ∀ (i : Nat) (a : Attendance),
        (attending ++ [none])[i]? = some (some a) ↔
          attending[i]? = some (some a) := by
    intro i a
    rcases Nat.lt_or_ge i attending.length with hLess | hMore
    · rw [List.getElem?_append_left hLess]
    · rw [List.getElem?_append_right hMore,
        List.getElem?_eq_none hMore]
      constructor
      · intro hSome
        have hMem := List.mem_of_getElem? hSome
        cases List.mem_singleton.mp hMem
      · intro hSome
        cases hSome
  refine
    { numbers := ?_
      distinct := ?_
      ordered := ?_
      placed := ?_
      entries := ?_
      nodup := hInv.nodup
      count := ?_ }
  · intro i a hSome
    exact hInv.numbers i a ((hOld i a).mp hSome)
  · intro i j a b hFirst hSecond
    exact
      hInv.distinct i j a b ((hOld i a).mp hFirst)
        ((hOld j b).mp hSecond)
  · intro i a hSome
    exact hInv.ordered i a ((hOld i a).mp hSome)
  · intro i a hSome
    exact hInv.placed i a ((hOld i a).mp hSome)
  · intro e
    rw [hInv.entries e]
    simp only [hOld]
  · rw [hInv.count, List.countP_append]
    rfl

/-
  A listener that is not in the map, before and after, with a
  number that no other listener has.
-/
theorem unlisted
    (hInv : RegistryInv paths map attending)
    {i : Nat}
    {before : Option Attendance}
    {a : Attendance}
    (hBefore : attending[i]? = some before)
    (hOut : isListed before = false)
    (hStays : a.listed = false)
    (hPlace : ∃ path, paths[a.mount]? = some path)
    (issued : Nat)
    (hIssued : map.issued ≤ issued)
    (hNumber : a.numbered = true → a.number < issued)
    (hNew :
      a.numbered = true →
        ∀ (j : Nat) (b : Attendance),
          attending[j]? = some (some b) →
            b.numbered = true → b.number = a.number → j = i) :
    RegistryInv paths
      { map with issued := issued }
      (attending.set i (some a)) := by
  refine
    { numbers := ?_
      distinct := ?_
      ordered := ?_
      placed := ?_
      entries := ?_
      nodup := hInv.nodup
      count := ?_ }
  · intro j b hSome hNumbered
    rcases Library.getElem?_set_cases hSome with
      ⟨-, hHere⟩ | ⟨-, hOld⟩
    · cases hHere
      exact hNumber hNumbered
    · exact
        Nat.lt_of_lt_of_le (hInv.numbers j b hOld hNumbered)
          hIssued
  · intro j k b c hFirst hSecond hB hC hSame
    rcases Library.getElem?_set_cases hFirst with
      ⟨hHere, hB'⟩ | ⟨-, hOldB⟩
    · cases hB'
      rcases Library.getElem?_set_cases hSecond with
        ⟨hThere, -⟩ | ⟨-, hOldC⟩
      · exact hHere.trans hThere.symm
      · rw [hHere]
        exact (hNew hB k c hOldC hC hSame.symm).symm
    · rcases Library.getElem?_set_cases hSecond with
        ⟨hThere, hC'⟩ | ⟨-, hOldC⟩
      · cases hC'
        rw [hThere]
        exact hNew hC j b hOldB hB hSame
      · exact hInv.distinct j k b c hOldB hOldC hB hC hSame
  · intro j b hSome hListed
    rcases Library.getElem?_set_cases hSome with
      ⟨-, hHere⟩ | ⟨-, hOld⟩
    · cases hHere
      rw [hStays] at hListed
      cases hListed
    · exact hInv.ordered j b hOld hListed
  · intro j b hSome
    rcases Library.getElem?_set_cases hSome with
      ⟨-, hHere⟩ | ⟨-, hOld⟩
    · cases hHere
      exact hPlace
    · exact hInv.placed j b hOld
  · intro e
    rw [hInv.entries e]
    constructor
    · rintro ⟨j, b, path, hSome, hListed, hPath, hEntry⟩
      refine ⟨j, b, path, ?_, hListed, hPath, hEntry⟩
      rw [List.getElem?_set_ne]
      · exact hSome
      · intro hSame
        rw [← hSame] at hSome
        cases hBefore.symm.trans hSome
        rw [show isListed (some b) = b.listed from rfl,
          hListed] at hOut
        cases hOut
    · rintro ⟨j, b, path, hSome, hListed, hPath, hEntry⟩
      rcases Library.getElem?_set_cases hSome with
      ⟨-, hHere⟩ | ⟨-, hOld⟩
      · cases hHere
        rw [hStays] at hListed
        cases hListed
      · exact ⟨j, b, path, hOld, hListed, hPath, hEntry⟩
  · have hAlso : isListed (some a) = false := hStays
    change map.totalCount = _
    rw [hInv.count]
    exact
      (Library.countP_set_uncounted hBefore hOut hAlso).symm

end RegistryInv

end RustyIce

------------------------------------------------------------
-- Entering And Leaving The Map
------------------------------------------------------------

namespace RustyIce

open Admin

namespace Attendance

def enter (a : Attendance) : Attendance :=
  { a with listed := true }

def leave (a : Attendance) : Attendance :=
  { a with listed := false }

end Attendance

namespace RegistryInv

variable {paths : List String}
variable {map : ListenerMap}
variable {attending : List (Option Attendance)}
variable {i : Nat}
variable {a : Attendance}

/-
  What does not read whether a listener is in the map stays
  when that changes.
-/
theorem numbers_set
    (hInv : RegistryInv paths map attending)
    (hHere : attending[i]? = some (some a))
    (next : Attendance)
    (hMount : next.mount = a.mount)
    (hNumber : next.number = a.number)
    (hNumbered : next.numbered = a.numbered) :
    (∀ (j : Nat) (b : Attendance),
        (attending.set i (some next))[j]? = some (some b) →
          b.numbered = true → b.number < map.issued) ∧
      (∀ (j k : Nat) (b c : Attendance),
        (attending.set i (some next))[j]? = some (some b) →
          (attending.set i (some next))[k]? = some (some c) →
            b.numbered = true → c.numbered = true →
              b.number = c.number → j = k) ∧
        ∀ (j : Nat) (b : Attendance),
          (attending.set i (some next))[j]? = some (some b) →
            ∃ path, paths[b.mount]? = some path := by
  have hBack :
      ∀ (j : Nat) (b : Attendance),
        (attending.set i (some next))[j]? = some (some b) →
          ∃ b',
            attending[j]? = some (some b') ∧
              b.mount = b'.mount ∧ b.number = b'.number ∧
                b.numbered = b'.numbered := by
    intro j b hSome
    rcases Library.getElem?_set_cases hSome with
      ⟨hPlace, hNext⟩ | ⟨-, hOld⟩
    · cases hNext
      rw [hPlace]
      exact ⟨a, hHere, hMount, hNumber, hNumbered⟩
    · exact ⟨b, hOld, rfl, rfl, rfl⟩
  refine ⟨?_, ?_, ?_⟩
  · intro j b hSome hTrue
    rcases hBack j b hSome with ⟨b', hOld, -, hSame, hAlso⟩
    rw [hSame]
    exact hInv.numbers j b' hOld (hAlso ▸ hTrue)
  · intro j k b c hFirst hSecond hB hC hSame
    rcases hBack j b hFirst with ⟨b', hOldB, -, hNumB, hTrueB⟩
    rcases hBack k c hSecond with ⟨c', hOldC, -, hNumC, hTrueC⟩
    exact
      hInv.distinct j k b' c' hOldB hOldC (hTrueB ▸ hB)
        (hTrueC ▸ hC) (hNumB ▸ hNumC ▸ hSame)
  · intro j b hSome
    rcases hBack j b hSome with ⟨b', hOld, hPlace, -, -⟩
    rw [hPlace]
    exact hInv.placed j b' hOld

/- Before the counter wraps, an id tells the listener. -/
theorem eq_of_id
    (hInv : RegistryInv paths map attending)
    (hFew : map.issued ≤ 2 ^ 64)
    {j : Nat}
    {b : Attendance}
    (hHere : attending[i]? = some (some a))
    (hThere : attending[j]? = some (some b))
    (hA : a.numbered = true)
    (hB : b.numbered = true)
    (hSame :
      ListenerMap.idOf a.number = ListenerMap.idOf b.number) :
    i = j := by
  have hLessA := hInv.numbers i a hHere hA
  have hLessB := hInv.numbers j b hThere hB
  rw [ListenerMap.idOf_lt (by omega),
    ListenerMap.idOf_lt (by omega)] at hSame
  exact hInv.distinct i j a b hHere hThere hA hB hSame

/- A listener enters the map. -/
theorem enter
    (hInv : RegistryInv paths map attending)
    (hFew : map.issued ≤ 2 ^ 64)
    (hHere : attending[i]? = some (some a))
    (hNumbered : a.numbered = true)
    (hOut : a.listed = false)
    {path : String}
    (hPath : paths[a.mount]? = some path) :
    RegistryInv paths (map.insert (a.entry path i))
      (attending.set i (some a.enter)) := by
  have hIndex := (List.getElem?_eq_some_iff.mp hHere).1
  have hFree :
      ∀ e ∈ map.entries, e.id ≠ (a.entry path i).id := by
    intro e hMem hSame
    rcases (hInv.entries e).mp hMem with
      ⟨j, b, other, hThere, hListed, -, rfl⟩
    have hB := hInv.ordered j b hThere hListed
    have hPlace :=
      hInv.eq_of_id hFew hHere hThere hNumbered hB hSame.symm
    rw [← hPlace, hHere] at hThere
    cases hThere
    rw [hOut] at hListed
    cases hListed
  have hEntries := ListenerMap.entries_insert hFree
  rcases hInv.numbers_set hHere a.enter rfl rfl rfl with
    ⟨hNumbers, hDistinct, hPlaced⟩
  refine
    { numbers := hNumbers
      distinct := hDistinct
      ordered := ?_
      placed := hPlaced
      entries := ?_
      nodup := ?_
      count := ?_ }
  · intro j b hSome hListed
    rcases Library.getElem?_set_cases hSome with
      ⟨-, hNext⟩ | ⟨-, hOld⟩
    · cases hNext
      exact hNumbered
    · exact hInv.ordered j b hOld hListed
  · intro e
    rw [hEntries, List.mem_append, List.mem_singleton,
      hInv.entries e]
    constructor
    · rintro (⟨j, b, other, hSome, hListed, hRest⟩ | rfl)
      · refine ⟨j, b, other, ?_, hListed, hRest⟩
        rw [List.getElem?_set_ne]
        · exact hSome
        · intro hSame
          rw [← hSame, hHere] at hSome
          cases hSome
          rw [hOut] at hListed
          cases hListed
      · refine ⟨i, a.enter, path, ?_, rfl, hPath, rfl⟩
        rw [List.getElem?_set_self hIndex]
    · rintro ⟨j, b, other, hSome, hListed, hOther, rfl⟩
      rcases Library.getElem?_set_cases hSome with
        ⟨hPlace, hNext⟩ | ⟨-, hOld⟩
      · cases hNext
        right
        have hSamePath : other = path :=
          Option.some.inj (hOther.symm.trans hPath)
        rw [hPlace, hSamePath]
        rfl
      · left
        exact ⟨j, b, other, hOld, hListed, hOther, rfl⟩
  · rw [hEntries, List.map_append, List.nodup_append]
    refine ⟨hInv.nodup, List.nodup_singleton _, ?_⟩
    intro id hOld id' hNew
    rcases List.mem_map.mp hOld with ⟨e, hMem, rfl⟩
    rw [List.map_singleton, List.mem_singleton] at hNew
    rw [hNew]
    exact hFree e hMem
  · rcases Library.countP_beside isListed hHere with
      ⟨others, hBefore, hAfter⟩
    have hWas : isListed (some a) = false := hOut
    have hNow : isListed (some a.enter) = true := rfl
    have hCount := hInv.count
    unfold ListenerMap.totalCount at hCount ⊢
    rw [hEntries, List.length_append, hCount, hAfter, hBefore,
      hWas, hNow]
    simp only [Bool.toNat_false, Bool.toNat_true,
      List.length_singleton]
    omega

/- A listener leaves the map. -/
theorem leave
    (hInv : RegistryInv paths map attending)
    (hFew : map.issued ≤ 2 ^ 64)
    (hHere : attending[i]? = some (some a))
    (hListed : a.listed = true) :
    RegistryInv paths
      (map.deregister (ListenerMap.idOf a.number))
      (attending.set i (some a.leave)) := by
  have hNumbered := hInv.ordered i a hHere hListed
  rcases hInv.placed i a hHere with ⟨path, hPath⟩
  have hEntry : a.entry path i ∈ map.entries :=
    (hInv.entries _).mpr
      ⟨i, a, path, hHere, hListed, hPath, rfl⟩
  rcases hInv.numbers_set hHere a.leave rfl rfl rfl with
    ⟨hNumbers, hDistinct, hPlaced⟩
  refine
    { numbers := hNumbers
      distinct := hDistinct
      ordered := ?_
      placed := hPlaced
      entries := ?_
      nodup := ?_
      count := ?_ }
  · intro j b hSome hIn
    rcases Library.getElem?_set_cases hSome with
      ⟨-, hNext⟩ | ⟨-, hOld⟩
    · cases hNext
      cases hIn
    · exact hInv.ordered j b hOld hIn
  · intro e
    rw [ListenerMap.mem_deregister, hInv.entries e]
    constructor
    · rintro ⟨⟨j, b, other, hSome, hIn, hOther, rfl⟩, hAway⟩
      refine ⟨j, b, other, ?_, hIn, hOther, rfl⟩
      rw [List.getElem?_set_ne]
      · exact hSome
      · intro hSame
        rw [← hSame, hHere] at hSome
        cases hSome
        exact hAway rfl
    · rintro ⟨j, b, other, hSome, hIn, hOther, rfl⟩
      rcases Library.getElem?_set_cases hSome with
        ⟨-, hNext⟩ | ⟨hAway, hOld⟩
      · cases hNext
        cases hIn
      · refine
          ⟨⟨j, b, other, hOld, hIn, hOther, rfl⟩, ?_⟩
        intro hSame
        have hB := hInv.ordered j b hOld hIn
        exact
          hAway
            (hInv.eq_of_id hFew hOld hHere hB hNumbered hSame)
  · unfold ListenerMap.deregister
    exact
      hInv.nodup.sublist (List.filter_sublist.map _)
  · rcases Library.countP_beside isListed hHere with
      ⟨others, hBefore, hAfter⟩
    have hWas : isListed (some a) = true := hListed
    have hNow : isListed (some a.leave) = false := rfl
    have hLength :=
      ListenerMap.length_deregister hInv.nodup hEntry
    have hCount := hInv.count
    rw [hBefore, hWas] at hCount
    rw [hAfter, hNow]
    change
      (map.deregister
            (ListenerMap.idOf a.number)).totalCount + 1 =
        map.totalCount at hLength
    simp only [Bool.toNat_false, Bool.toNat_true] at hCount ⊢
    omega

end RegistryInv

end RustyIce

------------------------------------------------------------
-- Every Step And Every Run
------------------------------------------------------------

namespace RustyIce

open Admin

namespace Delivery

/- The map is right as long as no id was given out twice. -/
def RegistryOk (s : Delivery) : Prop :=
  s.map.issued ≤ 2 ^ 64 →
    RegistryInv s.paths s.map s.attendances

variable {metaint : Nat}
variable {s t : Delivery}

/- What neither the map nor its listeners notice. -/
theorem RegistryOk.same
    (hOk : s.RegistryOk)
    (hPaths : t.paths = s.paths)
    (hMap : t.map = s.map)
    (hAttending : t.attendances = s.attendances) :
    t.RegistryOk := by
  unfold RegistryOk
  rw [hPaths, hMap, hAttending]
  exact hOk

theorem paths_set
    {s : Delivery}
    {m : Nat}
    {feed next : MountFeed}
    (hFeed : s.feeds[m]? = some feed)
    (hPath : next.path = feed.path) :
    (s.feeds.set m next).map (·.path) = s.paths := by
  rw [List.map_set, hPath]
  unfold paths
  rcases List.getElem?_eq_some_iff.mp hFeed with ⟨hIndex, rfl⟩
  have hMap : m < (s.feeds.map (·.path)).length := by
    rw [List.length_map]
    exact hIndex
  have hGet :
      s.feeds[m].path = (s.feeds.map (·.path))[m] := by
    rw [List.getElem_map]
  rw [hGet, List.set_getElem_self]

theorem getElem?_paths
    {m : Nat}
    {feed : MountFeed}
    (hFeed : s.feeds[m]? = some feed) :
    s.paths[m]? = some feed.path := by
  unfold paths
  rw [List.getElem?_map, hFeed, Option.map_some]

theorem RegistryOk.onFeed
    (hOk : s.RegistryOk)
    {m : Nat}
    {change : MountFeed → MountFeed}
    (hStep : s.onFeed m change = some t)
    (hPath : ∀ feed, (change feed).path = feed.path) :
    t.RegistryOk := by
  unfold Delivery.onFeed at hStep
  cases hFeed : s.feeds[m]? with
  | none => simp [hFeed] at hStep
  | some feed =>
      simp only [hFeed] at hStep
      cases hStep
      exact hOk.same (paths_set hFeed (hPath feed)) rfl rfl

/- A handler that attends as before. -/
theorem RegistryOk.setHandler
    (hOk : s.RegistryOk)
    {i : Nat}
    {handler next : ListenerHandler}
    (hHandler : s.handlers[i]? = some handler)
    (hSame : next.attendance = handler.attendance) :
    (s.setHandler i next).RegistryOk :=
  hOk.same rfl rfl (attendances_same hHandler hSame)

theorem RegistryOk.advanceTask
    (hOk : s.RegistryOk)
    {i : Nat}
    {task : ListenerTask}
    {feed : MountFeed}
    (hTask : s.handlers[i]? = some (.serving task))
    (hFeed : s.feeds[task.mount]? = some feed)
    (hStep : s.advanceTask metaint i task feed = some t) :
    t.RegistryOk := by
  have hHere := getElem?_attendances hTask
  have hPath := getElem?_paths hFeed
  cases advances_of_advanceTask hStep with
  | issue hPhase =>
      intro hFew
      have hInv := hOk (Nat.le_of_succ_le hFew)
      rw [attendances_setHandler]
      have hOut : isListed (some task.attendance) = false := by
        simp [isListed, ListenerTask.attendance,
          ListenerTask.Listed, hPhase]
      apply hInv.unlisted hHere hOut
      · rfl
      · exact ⟨feed.path, hPath⟩
      · exact Nat.le_succ _
      · intro _
        exact Nat.lt_succ_self _
      · intro _ j b hOther hB hSame
        have hLess := hInv.numbers j b hOther hB
        exact absurd hSame (Nat.ne_of_lt hLess)
  | insert hPhase =>
      intro hFew
      have hInv := hOk hFew
      rw [attendances_setHandler]
      have hNumbered : task.attendance.numbered = true := by
        simp [ListenerTask.attendance, ListenerTask.Numbered,
          hPhase]
      have hOut : task.attendance.listed = false := by
        simp [ListenerTask.attendance, ListenerTask.Listed,
          hPhase]
      have hEnter :
          (ListenerHandler.serving
              { task with phase := .spawned }).attendance =
            some task.attendance.enter := by
        simp [ListenerHandler.attendance, Attendance.enter,
          ListenerTask.attendance, ListenerTask.Numbered,
          ListenerTask.Listed, hPhase]
      rw [hEnter]
      exact hInv.enter hFew hHere hNumbered hOut hPath
  | unprimed hPhase =>
      intro hFew
      have hInv := hOk hFew
      rw [attendances_setHandler]
      have hListed : task.attendance.listed = true := by
        simp [ListenerTask.attendance, ListenerTask.Listed,
          hPhase]
      have hLeave :
          (ListenerHandler.serving
              { task with
                pipe := task.pipe.closeWriter
                phase := .ended none }).attendance =
            some task.attendance.leave := by
        simp [ListenerHandler.attendance, Attendance.leave,
          ListenerTask.attendance, ListenerTask.Numbered,
          ListenerTask.Listed, hPhase]
      rw [hLeave]
      exact hInv.leave hFew hHere hListed
  | deregister reason hPhase =>
      intro hFew
      have hInv := hOk hFew
      rw [attendances_setHandler]
      have hListed : task.attendance.listed = true := by
        simp [ListenerTask.attendance, ListenerTask.Listed,
          hPhase]
      have hLeave :
          (ListenerHandler.serving
              { task with
                phase := .ended reason }).attendance =
            some task.attendance.leave := by
        simp [ListenerHandler.attendance, Attendance.leave,
          ListenerTask.attendance, ListenerTask.Numbered,
          ListenerTask.Listed, hPhase]
      rw [hLeave]
      exact hInv.leave hFew hHere hListed
  | move after count hOne =>
      have hMoves := ListenerTask.step_moves hOne
      have hSame : after.attendance = task.attendance := by
        unfold ListenerTask.attendance
        rw [hMoves.mount, hMoves.number, hMoves.listed,
          hMoves.stays,
          ListenerTask.numbered_of_listed hMoves.listed,
          ListenerTask.numbered_of_listed hMoves.stays]
      have hBeside :
          ({ s with
              feeds :=
                s.feeds.set task.mount
                  (feed.count count) } : Delivery).RegistryOk :=
        hOk.same (paths_set hFeed rfl) rfl rfl
      exact
        hBeside.setHandler hTask (congrArg some hSame)

theorem RegistryOk.advance
    (hOk : s.RegistryOk)
    {i : Nat}
    (hStep : s.advance metaint i = some t) :
    t.RegistryOk := by
  unfold Delivery.advance at hStep
  rcases hHandler : s.handlers[i]? with
    _ | ⟨m, icy⟩ | ⟨m, icy, info⟩ | ⟨m, icy, info, headers⟩ |
      task
  · simp [hHandler] at hStep
  · simp only [hHandler] at hStep
    cases hFeed : s.feeds[m]? with
    | none => simp [hFeed] at hStep
    | some feed =>
        simp only [hFeed] at hStep
        cases hStep
        exact hOk.setHandler hHandler rfl
  · simp only [hHandler] at hStep
    cases hFeed : s.feeds[m]? with
    | none => simp [hFeed] at hStep
    | some feed =>
        simp only [hFeed] at hStep
        cases hStep
        exact hOk.setHandler hHandler rfl
  · simp only [hHandler] at hStep
    cases hFeed : s.feeds[m]? with
    | none => simp [hFeed] at hStep
    | some feed =>
        simp only [hFeed] at hStep
        cases hStep
        intro hFew
        have hInv := hOk hFew
        have hHere := getElem?_attendances hHandler
        rw [attendances_setHandler]
        apply hInv.unlisted hHere rfl
        · rfl
        · exact ⟨feed.path, getElem?_paths hFeed⟩
        · exact Nat.le_refl _
        · intro hNever
          cases hNever
        · intro hNever
          cases hNever
  · simp only [hHandler] at hStep
    cases hFeed : s.feeds[task.mount]? with
    | none => simp [hFeed] at hStep
    | some feed =>
        simp only [hFeed] at hStep
        exact hOk.advanceTask hHandler hFeed hStep

@[simp] theorem attendance_cancel
    (handler : ListenerHandler) :
    (handler.onTask ListenerTask.cancel).attendance =
      handler.attendance := by
  cases handler <;> rfl

theorem RegistryOk.step
    (hOk : s.RegistryOk)
    {label : DeliveryLabel}
    (hStep : s.step metaint label = some t) :
    t.RegistryOk := by
  cases label with
  | publish m packet =>
      simp only [Delivery.step] at hStep
      cases hFeed : s.feeds[m]? with
      | none => simp [hFeed] at hStep
      | some feed =>
          simp only [hFeed] at hStep
          split at hStep
          · cases hStep
          · cases hStep
            exact hOk.same (paths_set hFeed rfl) rfl rfl
  | setTitle m title => exact hOk.onFeed hStep fun _ => rfl
  | setOverlay m overlay => exact hOk.onFeed hStep fun _ => rfl
  | setHeaders m headers => exact hOk.onFeed hStep fun _ => rfl
  | setInfo m info => exact hOk.onFeed hStep fun _ => rfl
  | dropBus m =>
      simp only [Delivery.step] at hStep
      split at hStep
      · cases hStep
      · exact hOk.onFeed hStep fun _ => rfl
  | arrive m icy =>
      simp only [Delivery.step] at hStep
      cases hFeed : s.feeds[m]? with
      | none => simp [hFeed] at hStep
      | some feed =>
          simp only [hFeed] at hStep
          split at hStep
          · cases hStep
          · cases hStep
            intro hFew
            have hArrived := (hOk hFew).arrive
            unfold attendances at hArrived ⊢
            rw [List.map_append]
            exact hArrived
  | advance i => exact hOk.advance hStep
  | read i count =>
      simp only [Delivery.step] at hStep
      split at hStep
      · rename_i task hHandler
        split at hStep
        · cases hStep
        · cases hStep
          exact hOk.setHandler hHandler rfl
      · cases hStep
  | disconnect i =>
      simp only [Delivery.step] at hStep
      split at hStep
      · rename_i task hHandler
        cases hStep
        exact hOk.setHandler hHandler rfl
      · cases hStep
  | kick id =>
      simp only [Delivery.step] at hStep
      split at hStep
      · cases hStep
        exact hOk
      · split at hStep
        · cases hStep
          exact hOk
        · rename_i handler hHandler
          cases hStep
          exact hOk.setHandler hHandler (attendance_cancel _)
  | shutdown =>
      cases hStep
      refine hOk.same ?_ ?_ ?_
      · rfl
      · rfl
      · unfold attendances
        rw [List.map_map]
        congr 1
        funext handler
        exact attendance_cancel handler

theorem registryOk_of_reachable
    {output : Output.HttpPassthroughOutput}
    (hReach : (deliveryMachine output).Reachable s) :
    s.RegistryOk := by
  apply hReach.invariant
  · rintro u ⟨-, hMap, -, hNone⟩ _
    unfold attendances
    rw [hMap, hNone]
    exact RegistryInv.nil _
  · intro u label v hBefore _ hStep
    exact hBefore.step hStep

end Delivery

end RustyIce

------------------------------------------------------------
-- The Map Is Exact
------------------------------------------------------------

namespace RustyIce

open Admin

/- A listener between its registration and its end. -/
def ListenerHandler.Listed (handler : ListenerHandler) : Bool :=
  isListed handler.attendance

/-
  A kick finds the listener of the id, the counts count the
  listeners that are there, and a mount's ids are those of
  its listeners, none of them twice.
-/
structure Registered (s : Delivery) : Prop where
  kicked :
    ∀ (id : ListenerId) (i : Nat),
      s.map.kick id = some i ↔
        ∃ task,
          s.handlers[i]? = some (.serving task) ∧
            task.Listed = true ∧
              ListenerMap.idOf task.number = id
  total :
    s.map.totalCount =
      s.handlers.countP ListenerHandler.Listed
  onMount :
    ∀ (path : String) (id : ListenerId),
      id ∈ s.map.idsForMount path ↔
        ∃ (i : Nat) (task : ListenerTask) (feed : MountFeed),
          s.handlers[i]? = some (.serving task) ∧
            task.Listed = true ∧
              s.feeds[task.mount]? = some feed ∧
                feed.path = path ∧
                  ListenerMap.idOf task.number = id
  once : ∀ path, (s.map.idsForMount path).Nodup

/- Who attends at a place. -/
theorem attendances_eq_some
    {s : Delivery}
    {i : Nat}
    {a : Attendance} :
    s.attendances[i]? = some (some a) ↔
      ∃ task,
        s.handlers[i]? = some (.serving task) ∧
          task.attendance = a := by
  unfold Delivery.attendances
  rw [List.getElem?_map, Option.map_eq_some_iff]
  constructor
  · rintro ⟨handler, hHandler, hSame⟩
    cases handler with
    | serving task =>
        exact ⟨task, hHandler, Option.some.inj hSame⟩
    | arrived m icy => cases hSame
    | informed m icy info => cases hSame
    | primed m icy info headers => cases hSame
  · rintro ⟨task, hHandler, hSame⟩
    exact ⟨_, hHandler, congrArg some hSame⟩

theorem registered_of_inv
    {s : Delivery}
    (hInv : RegistryInv s.paths s.map s.attendances) :
    Registered s where
  kicked := by
    intro id i
    unfold ListenerMap.kick
    rw [Option.map_eq_some_iff]
    constructor
    · rintro ⟨e, hGet, hCancel⟩
      rcases ListenerMap.mem_of_get hGet with ⟨hMem, hId⟩
      rcases (hInv.entries e).mp hMem with
        ⟨j, a, path, hSome, hListed, -, rfl⟩
      rcases attendances_eq_some.mp hSome with
        ⟨task, hTask, rfl⟩
      have hPlace : j = i := hCancel
      exact ⟨task, hPlace ▸ hTask, hListed, hId⟩
    · rintro ⟨task, hTask, hListed, rfl⟩
      have hSome := attendances_eq_some.mpr ⟨task, hTask, rfl⟩
      rcases hInv.placed i _ hSome with ⟨path, hPath⟩
      have hMem :=
        (hInv.entries (task.attendance.entry path i)).mpr
          ⟨i, task.attendance, path, hSome, hListed, hPath,
            rfl⟩
      exact
        ⟨_, ListenerMap.get_eq_some hInv.nodup hMem, rfl⟩
  total := by
    rw [hInv.count]
    unfold Delivery.attendances
    rw [List.countP_map]
    rfl
  onMount := by
    intro path id
    unfold ListenerMap.idsForMount
    rw [List.mem_map]
    constructor
    · rintro ⟨e, hMem, rfl⟩
      rw [List.mem_filter] at hMem
      rcases hMem with ⟨hEntry, hPath⟩
      rcases (hInv.entries e).mp hEntry with
        ⟨i, a, other, hSome, hListed, hOther, rfl⟩
      rcases attendances_eq_some.mp hSome with
        ⟨task, hTask, rfl⟩
      have hSame : other = path := of_decide_eq_true hPath
      unfold Delivery.paths at hOther
      rw [List.getElem?_map, Option.map_eq_some_iff] at hOther
      rcases hOther with ⟨feed, hFeed, hFeedPath⟩
      exact
        ⟨i, task, feed, hTask, hListed, hFeed,
          hFeedPath.trans hSame, rfl⟩
    · rintro ⟨i, task, feed, hTask, hListed, hFeed, rfl, rfl⟩
      have hSome := attendances_eq_some.mpr ⟨task, hTask, rfl⟩
      refine ⟨task.attendance.entry feed.path i, ?_, rfl⟩
      rw [List.mem_filter]
      refine ⟨?_, decide_eq_true rfl⟩
      exact
        (hInv.entries _).mpr
          ⟨i, task.attendance, feed.path, hSome, hListed,
            Delivery.getElem?_paths hFeed, rfl⟩
  once := by
    intro path
    unfold ListenerMap.idsForMount
    exact hInv.nodup.sublist (List.filter_sublist.map _)

/-
  In every run that gave out no more ids than the counter
  has, the map is exact.
-/
theorem registered
    {output : Output.HttpPassthroughOutput}
    {s : Delivery}
    (hReach : (deliveryMachine output).Reachable s)
    (hFew : s.map.issued ≤ 2 ^ 64) :
    Registered s :=
  registered_of_inv
    (Delivery.registryOk_of_reachable hReach hFew)

/- Three listeners come, and the second is kicked and goes. -/
def threeListeners : List DeliveryLabel :=
  [.arrive 0 true, .arrive 0 false, .arrive 0 true] ++
    List.replicate 5 (.advance 1) ++
      List.replicate 5 (.advance 0) ++
        [.kick 0] ++ List.replicate 3 (.advance 1) ++
          List.replicate 5 (.advance 2)

theorem registered_threeListeners :
    ∃ s,
      (deliveryMachine everyThird).run .oneMount
            threeListeners =
          some s ∧
        s.map.idsForMount "/live" = [1, 2] ∧
          Registered s := by
  have hRun :
      (deliveryMachine everyThird).run .oneMount
          threeListeners =
        some _ :=
    rfl
  have hReach :=
    Library.Machine.reachable_of_run
      (Delivery.init_oneMount everyThird) hRun
  have hIssued : (3 : Nat) ≤ 2 ^ 64 := by decide
  exact ⟨_, hRun, rfl, registered hReach hIssued⟩

end RustyIce

import RustyIce.Library.Scan
import RustyIce.Server.Broadcast
import RustyIce.Server.ListenerProgress

/-
  The totals of the dashboard: `global_stats` reads the
  counters of the mounts one after the other while their
  listeners are served.

  A total lies between the bytes sent when the scan began and
  those sent when it ended, so that a dashboard that samples
  it twice does not see it go down, as long as the mounts
  stay the same: the counter of a mount that is removed is
  gone from the next total, and no mount is added or removed
  here.

  Main declarations:
    * `GlobalStats`, `StatsSystem`, `statsMachine`
    * `Delivery.carriedOn_grows`
    * `stats_between`
-/

------------------------------------------------------------
-- The Scan Beside The Listeners
------------------------------------------------------------

namespace RustyIce

/-
  What an answer says, and the bytes sent on all mounts when
  its scan began and when it ended.
-/
structure GlobalStats where
  totalMounts : Nat
  totalListeners : Nat
  totalBytesOut : Nat
  began : Nat
  ended : Nat
deriving DecidableEq, Repr

namespace Delivery

/- The counters of the mounts. -/
def counters (s : Delivery) : List Nat :=
  s.feeds.map (·.bytesSent)

/- The bytes ever sent on mount `m`. -/
def sentBytes
    (s : Delivery)
    (m : Nat) : Nat :=
  (s.handlers.map (·.carriedOn m)).sum

/- The bytes ever sent, mount by mount. -/
def allSent (s : Delivery) : List Nat :=
  (List.range s.feeds.length).map s.sentBytes

end Delivery

/- `u64::MAX`, where `saturating_add` stops. -/
def saturation : Nat := 2 ^ 64 - 1

/- A scan with the bytes sent when it began. -/
structure StatsScan where
  began : List Nat
  scan : Library.Scan
deriving DecidableEq, Repr

/- A server, and a dashboard that asks again and again. -/
structure StatsSystem where
  delivery : Delivery
  scan : Option StatsScan
  answers : List GlobalStats

inductive StatsLabel where
| delivery (label : DeliveryLabel)
| ask
| readMount
| answer
deriving DecidableEq, Repr

namespace StatsSystem

def step
    (metaint : Nat)
    (s : StatsSystem) : StatsLabel → Option StatsSystem
| .delivery label =>
    match s.delivery.step metaint label with
    | none => none
    | some delivery => some { s with delivery := delivery }
| .ask =>
    match s.scan with
    | none =>
        some
          { s with
            scan :=
              some
                { began := s.delivery.allSent
                  scan := .start } }
    | some _ => none
| .readMount =>
    match s.scan with
    | none => none
    | some scan =>
        match s.delivery.feeds[scan.scan.read]? with
        | none => none
        | some feed =>
            some
              { s with
                scan :=
                  some
                    { scan with
                      scan :=
                        scan.scan.next saturation
                          feed.bytesSent } }
| .answer =>
    match s.scan with
    | none => none
    | some scan =>
        -- The loop over the mounts is over.
        if s.delivery.feeds[scan.scan.read]? = none then
          some
            { s with
              scan := none
              answers :=
                s.answers ++
                  [{ totalMounts := s.delivery.feeds.length
                     totalListeners :=
                       s.delivery.map.totalCount
                     totalBytesOut := scan.scan.total
                     began := scan.began.sum
                     ended := s.delivery.allSent.sum }] }
        else
          none

end StatsSystem

def statsMachine
    (output : Output.HttpPassthroughOutput) :
    Library.Machine StatsSystem StatsLabel where
  init := fun s =>
    (deliveryMachine output).Reachable s.delivery ∧
      s.scan = none ∧ s.answers = []
  step := StatsSystem.step output.icyMetaint

end RustyIce

------------------------------------------------------------
-- The Counters Only Grow
------------------------------------------------------------

namespace RustyIce

namespace Delivery

variable {output : Output.HttpPassthroughOutput}
variable {metaint : Nat}
variable {s t : Delivery}
variable {label : DeliveryLabel}

/- No mount comes or goes. -/
theorem feeds_length_of_step
    (hStep : s.step metaint label = some t) :
    t.feeds.length = s.feeds.length := by
  have hSome (m : Nat) :
      (t.sentOn m).isSome = (s.sentOn m).isSome := by
    by_cases hHere : ∃ packet, label = .publish m packet
    · rcases hHere with ⟨packet, rfl⟩
      cases hSent : s.sentOn m with
      | none =>
          unfold sentOn at hSent
          unfold Delivery.step at hStep
          dsimp only at hStep
          rw [Option.map_eq_none_iff.mp hSent] at hStep
          cases hStep
      | some sent =>
          rw [sentOn_publish hSent hStep]
          rfl
    · rw [sentOn_of_step ?_ hStep]
      intro packet hLabel
      exact hHere ⟨packet, hLabel⟩
  have hAt (u : Delivery) (m : Nat) :
      (u.sentOn m).isSome = decide (m < u.feeds.length) := by
    by_cases hLess : m < u.feeds.length
    · simp [sentOn, hLess]
    · simp [sentOn, hLess]
  have hLess (m : Nat) :
      m < t.feeds.length ↔ m < s.feeds.length := by
    have hBoth := hSome m
    rw [hAt, hAt] at hBoth
    exact decide_eq_decide.mp hBoth
  have hUp := hLess s.feeds.length
  have hDown := hLess t.feeds.length
  omega

theorem kept_of_step
    {i : Nat}
    (hStep : s.step metaint label = some t)
    (hThere : i < s.handlers.length) :
    i < t.handlers.length := by
  rcases handlers_of_step hStep with
    hSame | ⟨m, icy, hMore⟩ | hAll |
      ⟨j, before, next, -, hSet, -⟩
  · rw [hSame]
    exact hThere
  · rw [hMore, List.length_append]
    omega
  · rw [hAll, List.length_map]
    exact hThere
  · rw [hSet, List.length_set]
    exact hThere

/- What a listener was sent is never less than before. -/
theorem carriedOn_grows
    {i : Nat}
    {handler : ListenerHandler}
    (m : Nat)
    (hStep : s.step metaint label = some t)
    (hHandler : s.handlers[i]? = some handler) :
    ∃ after,
      t.handlers[i]? = some after ∧
        handler.carriedOn m ≤ after.carriedOn m := by
  have hThere := (List.getElem?_eq_some_iff.mp hHandler).1
  have hKept :=
    List.getElem?_eq_getElem (kept_of_step hStep hThere)
  cases handler with
  | arrived k icy => exact ⟨_, hKept, Nat.zero_le _⟩
  | informed k icy info => exact ⟨_, hKept, Nat.zero_le _⟩
  | primed k icy info headers =>
      exact ⟨_, hKept, Nat.zero_le _⟩
  | serving task =>
      rcases touched_of_step hHandler hStep with
        ⟨after, hAfter, hTouched⟩
      refine ⟨.serving after, hAfter, ?_⟩
      have hCarried :
          after.mount = task.mount ∧
            task.pipe.carried.length ≤
              after.pipe.carried.length := by
        cases hTouched with
        | same => exact ⟨rfl, Nat.le_refl _⟩
        | cancel _ => exact ⟨rfl, Nat.le_refl _⟩
        | read count _ =>
            refine ⟨rfl, ?_⟩
            rw [Library.Pipe.carried_read]
        | disconnect _ =>
            refine ⟨rfl, ?_⟩
            rw [Library.Pipe.carried_closeReader]
        | issue _ _ => exact ⟨rfl, Nat.le_refl _⟩
        | insert _ _ => exact ⟨rfl, Nat.le_refl _⟩
        | unprimed _ _ =>
            refine ⟨rfl, ?_⟩
            rw [Library.Pipe.carried_closeWriter]
        | deregister reason _ _ => exact ⟨rfl, Nat.le_refl _⟩
        | move feed after count _ _ hMove =>
            have hMoves := ListenerTask.step_moves hMove
            refine ⟨hMoves.mount, ?_⟩
            rw [hMoves.carried]
            exact Nat.le_add_right _ _
      simp only [ListenerHandler.carriedOn, hCarried.1]
      split_ifs
      · exact hCarried.2
      · exact Nat.le_refl _

theorem allSent_grows
    (hStep : s.step metaint label = some t) :
    Library.Grown s.allSent t.allSent := by
  unfold allSent Library.Grown
  rw [feeds_length_of_step hStep,
    List.forall₂_map_left_iff, List.forall₂_map_right_iff]
  apply List.forall₂_same.mpr
  intro m _
  exact
    Library.sum_map_le (ListenerHandler.carriedOn m)
      fun i handler hHandler =>
        carriedOn_grows m hStep hHandler

/- No counter has wrapped. -/
def Unwrapped (s : Delivery) : Prop :=
  ∀ bytes ∈ s.allSent, bytes < 2 ^ 64

/- Until one wraps, the counters say what was sent. -/
theorem counters_eq
    (hMetaint : 0 < output.icyMetaint)
    (hReach : (deliveryMachine output).Reachable s)
    (hUnwrapped : s.Unwrapped) :
    s.counters = s.allSent := by
  have hInv := DeliveryInv.of_reachable hMetaint hReach
  apply List.ext_getElem?
  intro m
  unfold counters allSent
  rw [List.getElem?_map, List.getElem?_map]
  cases hFeed : s.feeds[m]? with
  | none =>
      have hPast := List.getElem?_eq_none_iff.mp hFeed
      rw [List.getElem?_eq_none (by simpa using hPast)]
      rfl
  | some feed =>
      have hLess := (List.getElem?_eq_some_iff.mp hFeed).1
      rw [List.getElem?_range hLess, Option.map_some,
        Option.map_some]
      have hSmall : s.sentBytes m < 2 ^ 64 := by
        apply hUnwrapped
        exact
          List.mem_map.mpr
            ⟨m, List.mem_range.mpr hLess, rfl⟩
      rw [hInv.counted m feed hFeed]
      exact congrArg some (Nat.mod_eq_of_lt hSmall)

theorem Unwrapped.before
    (hGrown : Library.Grown s.allSent t.allSent)
    (hUnwrapped : t.Unwrapped) :
    s.Unwrapped := by
  intro bytes hMem
  rcases List.mem_iff_getElem.mp hMem with ⟨m, hLess, rfl⟩
  have hAlso : m < t.allSent.length := by
    rw [← hGrown.length_eq]
    exact hLess
  have hMore := List.Forall₂.get hGrown hLess hAlso
  exact
    Nat.lt_of_le_of_lt hMore
      (hUnwrapped _ (List.getElem_mem hAlso))

end Delivery

end RustyIce

------------------------------------------------------------
-- What The Dashboard Is Told
------------------------------------------------------------

namespace RustyIce

open Delivery

variable {output : Output.HttpPassthroughOutput}
variable {s t : StatsSystem}

/- What a total is at least, and at most. -/
def saturate (bytes : Nat) : Nat :=
  min saturation bytes

/-
  Answers, each between its bounds, none below one before it,
  and the scan that goes on behind them.
-/
structure StatsInv (s : StatsSystem) : Prop where
  scan :
    ∀ scan,
      s.scan = some scan →
        scan.scan.Between saturation scan.began
            s.delivery.allSent ∧
          ∀ found ∈ s.answers,
            found.totalBytesOut ≤ saturate scan.began.sum
  answers :
    ∀ found ∈ s.answers,
      saturate found.began ≤ found.totalBytesOut ∧
        found.totalBytesOut ≤ saturate found.ended ∧
          found.ended ≤ s.delivery.allSent.sum
  order :
    (s.answers.map (·.totalBytesOut)).Pairwise (· ≤ ·)

theorem saturate_mono
    {fewer more : Nat}
    (hMore : fewer ≤ more) :
    saturate fewer ≤ saturate more := by
  unfold saturate
  omega

namespace StatsInv

theorem delivery
    {next : Delivery}
    (hInv : StatsInv s)
    (hGrown :
      Library.Grown s.delivery.allSent next.allSent) :
    StatsInv { s with delivery := next } where
  scan := by
    intro scan hScan
    rcases hInv.scan scan hScan with ⟨hBetween, hAbove⟩
    exact ⟨hBetween.grow hGrown, hAbove⟩
  answers := by
    intro found hFound
    rcases hInv.answers found hFound with
      ⟨hLow, hHigh, hEnded⟩
    exact
      ⟨hLow, hHigh, Nat.le_trans hEnded hGrown.sum_le_sum⟩
  order := hInv.order

theorem ask
    (hInv : StatsInv s) :
    StatsInv
      { s with
        scan :=
          some
            { began := s.delivery.allSent
              scan := .start } } where
  scan := by
    intro scan hScan
    cases hScan
    refine ⟨Library.Scan.between_start _, ?_⟩
    intro found hFound
    rcases hInv.answers found hFound with ⟨-, hHigh, hEnded⟩
    exact Nat.le_trans hHigh (saturate_mono hEnded)
  answers := hInv.answers
  order := hInv.order

theorem readMount
    {scan : StatsScan}
    {value : Nat}
    (hInv : StatsInv s)
    (hScan : s.scan = some scan)
    (hValue : s.delivery.allSent[scan.scan.read]? = some value) :
    StatsInv
      { s with
        scan :=
          some
            { scan with
              scan := scan.scan.next saturation value } } where
  scan := by
    intro next hNext
    cases hNext
    rcases hInv.scan scan hScan with ⟨hBetween, hAbove⟩
    exact ⟨hBetween.next hValue, hAbove⟩
  answers := hInv.answers
  order := hInv.order

theorem answer
    {scan : StatsScan}
    {answer : GlobalStats}
    (hInv : StatsInv s)
    (hScan : s.scan = some scan)
    (hAll : s.delivery.allSent.length ≤ scan.scan.read)
    (hTotal : answer.totalBytesOut = scan.scan.total)
    (hBegan : answer.began = scan.began.sum)
    (hEnded : answer.ended = s.delivery.allSent.sum) :
    StatsInv
      { s with
        scan := none
        answers := s.answers ++ [answer] } := by
  rcases hInv.scan scan hScan with ⟨hBetween, hAbove⟩
  rcases hBetween.whole hAll with ⟨hLow, hHigh⟩
  constructor
  · intro next hNever
    cases hNever
  · intro found hFound
    rcases List.mem_append.mp hFound with hOld | hNew
    · exact hInv.answers found hOld
    · rw [List.mem_singleton.mp hNew, hTotal, hBegan, hEnded]
      exact ⟨hLow, hHigh, Nat.le_refl _⟩
  · rw [List.map_append, List.pairwise_append]
    refine ⟨hInv.order, List.pairwise_singleton _ _, ?_⟩
    intro fewer hFewer more hMore
    rcases List.mem_map.mp hFewer with ⟨found, hFound, rfl⟩
    rcases List.mem_map.mp hMore with ⟨last, hLast, rfl⟩
    rw [List.mem_singleton.mp hLast, hTotal]
    exact Nat.le_trans (hAbove found hFound) hLow

end StatsInv

/- As long as nothing wraps, a step keeps the answers right. -/
theorem statsInv_step
    {label : StatsLabel}
    (hMetaint : 0 < output.icyMetaint)
    (hReach : (deliveryMachine output).Reachable s.delivery)
    (hInv : StatsInv s)
    (hUnwrapped : s.delivery.Unwrapped)
    (hStep : s.step output.icyMetaint label = some t) :
    StatsInv t := by
  have hCounters :=
    counters_eq hMetaint hReach hUnwrapped
  have hLength :
      s.delivery.allSent.length = s.delivery.feeds.length := by
    rw [← hCounters]
    exact List.length_map _
  unfold StatsSystem.step at hStep
  cases label with
  | delivery label =>
      dsimp only at hStep
      split at hStep
      · cases hStep
      · rename_i next hMove
        cases hStep
        exact hInv.delivery (allSent_grows hMove)
  | ask =>
      dsimp only at hStep
      split at hStep
      · cases hStep
        exact hInv.ask
      · cases hStep
  | readMount =>
      dsimp only at hStep
      split at hStep
      · cases hStep
      · rename_i scan hScan
        split at hStep
        · cases hStep
        · rename_i feed hFeed
          cases hStep
          apply hInv.readMount hScan
          rw [← hCounters]
          unfold counters
          rw [List.getElem?_map, hFeed]
          rfl
  | answer =>
      dsimp only at hStep
      split at hStep
      · cases hStep
      · rename_i scan hScan
        split_ifs at hStep with hOver
        cases hStep
        have hAll := List.getElem?_eq_none_iff.mp hOver
        rw [← hLength] at hAll
        exact hInv.answer hScan hAll rfl rfl rfl

/- The listeners are served whether somebody asks or not. -/
theorem delivery_step
    {label : StatsLabel}
    (hStep : s.step output.icyMetaint label = some t) :
    t.delivery = s.delivery ∨
      ∃ label,
        (deliveryMachine output).step s.delivery label =
          some t.delivery := by
  unfold StatsSystem.step at hStep
  cases label with
  | delivery label =>
      dsimp only at hStep
      split at hStep
      · cases hStep
      · rename_i next hMove
        cases hStep
        exact .inr ⟨label, hMove⟩
  | ask =>
      dsimp only at hStep
      split at hStep
      · cases hStep
        exact .inl rfl
      · cases hStep
  | readMount =>
      dsimp only at hStep
      split at hStep
      · cases hStep
      · split at hStep
        · cases hStep
        · cases hStep
          exact .inl rfl
  | answer =>
      dsimp only at hStep
      split at hStep
      · cases hStep
      · split_ifs at hStep
        cases hStep
        exact .inl rfl

/- Also of a run that wrapped a counter, until it did. -/
theorem StatsInv.of_reachable
    (hMetaint : 0 < output.icyMetaint)
    (hReach : (statsMachine output).Reachable s) :
    (deliveryMachine output).Reachable s.delivery ∧
      (s.delivery.Unwrapped → StatsInv s) := by
  refine
    Library.Machine.ReachableUnder.invariant
      (I := fun s =>
        (deliveryMachine output).Reachable s.delivery ∧
          (s.delivery.Unwrapped → StatsInv s))
      ?_ ?_ hReach
  · rintro s ⟨hDelivery, hScan, hAnswers⟩
    refine ⟨hDelivery, fun _ => ⟨?_, ?_, ?_⟩⟩
    · intro scan hNever
      rw [hScan] at hNever
      cases hNever
    · rw [hAnswers]
      exact List.forall_mem_nil _
    · rw [hAnswers]
      exact List.Pairwise.nil
  · rintro s label t ⟨hDelivery, hInv⟩ - hStep
    -- The bytes sent only grow, so none wrapped before.
    rcases delivery_step hStep with hSame | ⟨inner, hMove⟩
    · rw [hSame]
      refine ⟨hDelivery, fun hSmall => ?_⟩
      exact
        statsInv_step hMetaint hDelivery (hInv hSmall) hSmall
          hStep
    · refine
        ⟨.step hDelivery trivial hMove, fun hSmall => ?_⟩
      have hBefore := hSmall.before (allSent_grows hMove)
      exact
        statsInv_step hMetaint hDelivery (hInv hBefore)
          hBefore hStep

/-
  Every total lies between what had been sent when its scan
  began and when it ended, and none is below one before it.
-/
structure StatsBetween (s : StatsSystem) : Prop where
  between :
    ∀ found ∈ s.answers,
      saturate found.began ≤ found.totalBytesOut ∧
        found.totalBytesOut ≤ saturate found.ended ∧
          found.ended ≤ s.delivery.allSent.sum
  order :
    (s.answers.map (·.totalBytesOut)).Pairwise (· ≤ ·)

end RustyIce

------------------------------------------------------------
-- Two Answers
------------------------------------------------------------

namespace RustyIce

/- Nobody has asked yet. -/
def StatsSystem.oneMount : StatsSystem where
  delivery := .oneMount
  scan := none
  answers := []

theorem StatsSystem.init_oneMount :
    (statsMachine everyThird).init .oneMount :=
  ⟨.start (Delivery.init_oneMount everyThird), rfl, rfl⟩

/- A listener is sent bytes between two answers. -/
def askedTwice : List StatsLabel :=
  [.ask, .readMount, .answer, .ask] ++
    lateListener.map .delivery ++ [.readMount, .answer]

end RustyIce

import RustyIce.Library.Parties
import RustyIce.Server.MountSystem

/-
  Who owns a slot: in every run at most one party has won
  the exchange and not given the slot back, and a connected
  slot has an owner unless its task died with it.

  Main declarations:
    * `MountSystem.holders`
    * `Owned`, `owned_of_reachable`
-/

------------------------------------------------------------
-- Counting Owners
------------------------------------------------------------

namespace RustyIce

/- What a party counts as an owner. -/
def TaskRole.held : TaskRole → Nat
| .free => 0
| .polling => 0
| .asleep => 0
| .holding => 1
| .leaving => 1
| .ended => 0
| .gone => 0

def SourceRole.held : SourceRole → Nat
| .before => 0
| .waiting => 0
| .arriving => 0
| .holding => 1
| .dropping => 0
| .done => 0

def Source.Holding (h : Source) : Prop :=
  h.role = .holding

instance (h : Source) : Decidable h.Holding := by
  unfold Source.Holding
  infer_instance

theorem Source.held_eq (h : Source) :
    h.role.held = if h.Holding then 1 else 0 := by
  by_cases hHolding : h.Holding
  · rw [if_pos hHolding]
    unfold Holding at hHolding
    rw [hHolding]
    rfl
  · rw [if_neg hHolding]
    unfold Holding at hHolding
    cases hRole : h.role with
    | holding => exact absurd hRole hHolding
    | _ => rfl

theorem TaskRole.held_eq_zero
    {role : TaskRole}
    (hNot : ¬ role.Holds) :
    role.held = 0 := by
  cases role with
  | holding => exact absurd (.inl rfl) hNot
  | leaving => exact absurd (.inr rfl) hNot
  | _ => rfl

theorem TaskRole.held_eq_one
    {role : TaskRole}
    (hHolds : role.Holds) :
    role.held = 1 := by
  rcases hHolds with rfl | rfl
  · rfl
  · rfl

/- The owners among the requests. -/
def holdingSources (sources : List Source) : Nat :=
  sources.countP fun h => h.Holding

/- All owners of the slot. -/
def MountSystem.holders (s : MountSystem) : Nat :=
  s.task.role.held + holdingSources s.sources

/- A request counts at most what all requests do. -/
theorem held_le_holdingSources
    {sources : List Source}
    {i : Nat}
    {h : Source}
    (hSome : sources[i]? = some h) :
    h.role.held ≤ holdingSources sources := by
  rcases List.getElem?_eq_some_iff.mp hSome with
    ⟨hIndex, hGet⟩
  have hCount :=
    List.boole_getElem_le_countP
      (p := fun k : Source => decide k.Holding) hIndex
  rw [hGet] at hCount
  rw [Source.held_eq]
  simp only [decide_eq_true_eq] at hCount
  exact hCount

/- A request that moves counts anew. -/
theorem holdingSources_set
    {sources : List Source}
    {i : Nat}
    {h : Source}
    (hSome : sources[i]? = some h)
    (h' : Source) :
    holdingSources (sources.set i h') + h.role.held =
      holdingSources sources + h'.role.held := by
  obtain ⟨others, hBefore, hAfter⟩ :=
    Library.countP_beside
      (fun k : Source => decide k.Holding) hSome
  have hNext := hAfter h'
  have hHeld :
      ∀ k : Source,
        k.role.held = (decide k.Holding).toNat := by
    intro k
    rw [Source.held_eq]
    by_cases hHolding : k.Holding <;> simp [hHolding]
  rw [hHeld, hHeld]
  unfold holdingSources
  omega

theorem holdingSources_pos
    {sources : List Source}
    {h : Source}
    (hMem : h ∈ sources)
    (hHolding : h.Holding) :
    0 < holdingSources sources := by
  unfold holdingSources
  rw [List.countP_pos_iff]
  exact ⟨h, hMem, by simpa using hHolding⟩

/- A task's step keeps the owners within the flag. -/
theorem held_of_taskMove
    {ends : Bool}
    {g g' : Gate}
    {role role' : TaskRole}
    (hMove : TaskMove ends g role g' role')
    {others : Nat}
    (hHeld : role.held + others ≤ g.connected.toNat) :
    role'.held + others ≤ g'.connected.toNat := by
  have hFlag : g.connected.toNat ≤ 1 := Bool.toNat_le _
  cases hMove with
  | stay => exact hHeld
  | queue hConnected => exact hHeld
  | leave => exact hHeld
  | take hPermit => exact hHeld
  | sleep hPermit => exact hHeld
  | wake hWake => exact hHeld
  | abandon => exact hHeld
  | claim hFree =>
      rw [hFree] at hHeld
      simp only [TaskRole.held, Bool.toNat_false,
        Gate.connect, Bool.toNat_true] at hHeld ⊢
      omega
  | finish hEnds => exact hHeld
  | left =>
      simp only [TaskRole.held, Gate.disconnect,
        Bool.toNat_false] at hHeld ⊢
      omega
  | released =>
      simp only [TaskRole.held, Gate.disconnect,
        Bool.toNat_false] at hHeld ⊢
      omega
  | go hPending => exact hHeld
  | park hPending => exact hHeld
  | quit hNot =>
      rw [TaskRole.held_eq_zero hNot] at hHeld
      exact hHeld
  | quitAsleep => exact hHeld
  | crash =>
      simp only [TaskRole.held] at hHeld ⊢
      omega

/- So does a request's. -/
theorem held_of_sourceMove
    {env : SourceEnv}
    {phase : SourcePhase}
    {g g' : Gate}
    {role role' : SourceRole}
    (hMove : SourceMove env phase g role g' role')
    {others : Nat}
    (hHeld : role.held + others ≤ g.connected.toNat) :
    role'.held + others ≤ g'.connected.toNat := by
  have hFlag : g.connected.toNat ≤ 1 := Bool.toNat_le _
  cases hMove with
  | stay => exact hHeld
  | pass => exact hHeld
  | flag hPhase => exact hHeld
  | freed hFree => exact hHeld
  | timeout hPhase hExpired hConnected => exact hHeld
  | unauthorised hNot => exact hHeld
  | refused hNot => exact hHeld
  | busy hConnected => exact hHeld
  | won hFree =>
      rw [hFree] at hHeld
      simp only [SourceRole.held, Bool.toNat_false,
        Gate.connect, Bool.toNat_true] at hHeld ⊢
      omega
  | disconnected =>
      simp only [SourceRole.held, Gate.disconnect,
        Bool.toNat_false] at hHeld ⊢
      omega
  | notified => exact hHeld

end RustyIce

------------------------------------------------------------
-- The Invariant
------------------------------------------------------------

namespace RustyIce

/- Witnesses among the requests after one of them moved. -/
theorem exists_set_of_exists
    {sources : List Source}
    {P : Source → Prop}
    {i : Nat}
    {h h' : Source}
    (hSome : sources[i]? = some h)
    (hKeeps : P h → P h')
    (hExists : ∃ k ∈ sources, P k) :
    ∃ k ∈ sources.set i h', P k := by
  rcases List.getElem?_eq_some_iff.mp hSome with
    ⟨hIndex, hGet⟩
  rcases hExists with ⟨k, hMem, hK⟩
  rcases List.mem_iff_getElem.mp hMem with ⟨j, hj, hjk⟩
  by_cases hSame : i = j
  · subst hSame
    rw [hGet] at hjk
    exact
      ⟨h', List.mem_set hIndex h', hKeeps (hjk ▸ hK)⟩
  · refine ⟨k, ?_, hK⟩
    rw [List.mem_iff_getElem]
    refine ⟨j, by simpa using hj, ?_⟩
    rw [List.getElem_set_ne hSame]
    exact hjk

/- Who owns the slot. -/
structure Owned (s : MountSystem) : Prop where
  proper : s.Proper
  atMostOne : s.holders ≤ s.slot.gate.connected.toNat
  owner :
    s.slot.gate.connected = true →
      s.task.role.Holds ∨ s.task.role = .gone ∨
        ∃ h ∈ s.sources, h.Holding

theorem owned_init
    {s : MountSystem}
    (hInit : mountMachine.init s) :
    Owned s := by
  have hProper := MountSystem.proper_init hInit
  rcases hInit with ⟨⟨info, bus, hMount⟩, _, hFresh, hNone⟩
  have hFree : s.slot.gate.connected = false := by
    simp [hMount, ActiveMount.new]
  refine ⟨hProper, ?_, ?_⟩
  · unfold MountSystem.holders
    rw [hFresh.role_eq, hNone, hFree]
    decide
  · intro hConnected
    rw [hFree] at hConnected
    cases hConnected

/- The owner after a step of the task. -/
theorem owner_of_taskMove
    {ends : Bool}
    {g g' : Gate}
    {role role' : TaskRole}
    (hMove : TaskMove ends g role g' role')
    {Others : Prop}
    (hOwner :
      g.connected = true →
        role.Holds ∨ role = .gone ∨ Others)
    (hConnected : g'.connected = true) :
    role'.Holds ∨ role' = .gone ∨ Others := by
  have hOthers :
      g.connected = true →
        ¬ role.Holds →
          role ≠ .gone →
            role'.Holds ∨ role' = .gone ∨ Others := by
    intro hThere hNot hHere
    exact
      .inr
        (.inr
          (((hOwner hThere).resolve_left hNot).resolve_left
            hHere))
  cases hMove with
  | stay => exact hOwner hConnected
  | claim hFree => exact .inl (.inl rfl)
  | finish hEnds => exact .inl (.inr rfl)
  | left => cases hConnected
  | released => cases hConnected
  | quit hNot => exact .inr (.inl rfl)
  | quitAsleep => exact .inr (.inl rfl)
  | crash => exact .inr (.inl rfl)
  | queue hThere =>
      exact hOthers hThere (by decide) (by decide)
  | leave => exact hOthers hConnected (by decide) (by decide)
  | take hPermit =>
      exact hOthers hConnected (by decide) (by decide)
  | sleep hPermit =>
      exact hOthers hConnected (by decide) (by decide)
  | wake hWake =>
      exact hOthers hConnected (by decide) (by decide)
  | abandon =>
      exact hOthers hConnected (by decide) (by decide)
  | go hPending =>
      exact hOthers hConnected (by decide) (by decide)
  | park hPending =>
      exact hOthers hConnected (by decide) (by decide)

/- The owner after a step of a request. -/
theorem owner_of_sourceMove
    {s : MountSystem}
    {i : Nat}
    {h h' : Source}
    {env : SourceEnv}
    {g' : Gate}
    (hSome : s.sources[i]? = some h)
    (hMove :
      SourceMove env h.phase s.slot.gate h.role g' h'.role)
    (hOwned : Owned s)
    (hConnected : g'.connected = true) :
    s.task.role.Holds ∨ s.task.role = .gone ∨
      ∃ k ∈ s.sources.set i h', k.Holding := by
  have hIndex := (List.getElem?_eq_some_iff.mp hSome).1
  by_cases hHolding : h'.Holding
  · exact
      .inr (.inr ⟨h', List.mem_set hIndex h', hHolding⟩)
  · have hBefore :
        s.slot.gate.connected = true ∧ ¬ h.Holding := by
      unfold Source.Holding at hHolding ⊢
      generalize h.role = role at hMove
      generalize h'.role = role' at hMove hHolding
      cases hMove with
      | stay => exact ⟨hConnected, hHolding⟩
      | won hFree => exact absurd rfl hHolding
      | disconnected => cases hConnected
      | pass => exact ⟨hConnected, by simp⟩
      | flag hPhase => exact ⟨hConnected, by simp⟩
      | freed hFree => exact ⟨hConnected, by simp⟩
      | timeout hPhase hExpired hThere =>
          exact ⟨hConnected, by simp⟩
      | unauthorised hNot => exact ⟨hConnected, by simp⟩
      | refused hNot => exact ⟨hConnected, by simp⟩
      | busy hThere => exact ⟨hConnected, by simp⟩
      | notified => exact ⟨hConnected, by simp⟩
    rcases hOwned.owner hBefore.1 with hTask | hGone | hThere
    · exact .inl hTask
    · exact .inr (.inl hGone)
    · exact
        .inr
          (.inr
            (exists_set_of_exists hSome
              (fun h => absurd h hBefore.2) hThere))

/- Each event keeps it. -/
theorem owned_move
    {s t : MountSystem}
    {label : MountLabel}
    (hOwned : Owned s)
    (hMove : MountMove s label t) :
    Owned t := by
  have hProper :=
    MountSystem.proper_of_move hOwned.proper hMove
  have hCount := hOwned.atMostOne
  refine ⟨hProper, ?_, ?_⟩
  · unfold MountSystem.holders at hCount ⊢
    cases hMove with
    | task hTask hTaskProper hSources =>
        rw [hSources]
        exact held_of_taskMove hTask hCount
    | arrive hPhase hSources hSlot hTask =>
        rename_i h
        have hNot : ¬ h.Holding := by
          unfold Source.Holding Source.role
          rw [hPhase]
          decide
        rw [hSources, hSlot, hTask]
        unfold holdingSources at hCount ⊢
        rw [List.countP_append]
        simp only [List.countP_cons, List.countP_nil,
          hNot, decide_false, Bool.false_eq_true, if_false,
          Nat.add_zero]
        exact hCount
    | source hSome hSource hAttributes hGate hSources
        hTask =>
        rename_i h h'
        have hSet := holdingSources_set hSome h'
        have hPart := held_le_holdingSources hSome
        rw [hSources, hTask]
        have hHeld :
            h.role.held +
                (s.task.role.held +
                    holdingSources s.sources -
                  h.role.held) ≤
              s.slot.gate.connected.toNat := by
          omega
        have hAfter := held_of_sourceMove hGate hHeld
        omega
    | aside hGate hTask hSources =>
        rw [hGate, hTask, hSources]
        exact hCount
  · intro hConnected
    cases hMove with
    | task hTask hTaskProper hSources =>
        rw [hSources]
        exact
          owner_of_taskMove hTask hOwned.owner hConnected
    | arrive hPhase hSources hSlot hTask =>
        rw [hSlot] at hConnected
        rw [hTask, hSources]
        rcases hOwned.owner hConnected with
          hHolds | hGone | ⟨k, hMem, hHolding⟩
        · exact .inl hHolds
        · exact .inr (.inl hGone)
        · exact
            .inr
              (.inr
                ⟨k, List.mem_append_left _ hMem, hHolding⟩)
    | source hSome hSource hAttributes hGate hSources
        hTask =>
        rw [hTask, hSources]
        exact
          owner_of_sourceMove hSome hGate hOwned hConnected
    | aside hGate hTask hSources =>
        rw [hGate] at hConnected
        rw [hTask, hSources]
        exact hOwned.owner hConnected

theorem owned_of_reachable
    {s : MountSystem}
    (hReach : mountMachine.Reachable s) :
    Owned s := by
  apply hReach.invariant
  · intro t
    exact owned_init
  · intro t label u hOwned _ hStep
    exact
      owned_move hOwned
        (MountSystem.move_of_step hOwned.proper hStep)

end RustyIce

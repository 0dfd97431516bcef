import RustyIce.Server.Slot
import Mathlib.Data.List.Infix

/-
  A background task as the other parties of its mount see
  it: whether it holds the slot, owes an answer to a
  preemption, or waits for a notification.

  Main declarations:
    * `TaskRole`, `TaskMove`
    * `releaseRole`
    * `WaitPhase`
-/

------------------------------------------------------------
-- Roles
------------------------------------------------------------

namespace RustyIce

/-
  What a task is to the others: free of the slot, about to
  wait or waiting for a notification, holding the slot,
  giving it back after a pass that ended by itself, off the
  slot after a cancelled pass with the flag still to be
  read, or gone.
-/
inductive TaskRole where
| free
| polling
| asleep
| holding
| leaving
| ended
| gone
deriving DecidableEq, Repr

namespace TaskRole

/- The task has won the slot and not given it back. -/
def Holds (role : TaskRole) : Prop :=
  role = .holding ∨ role = .leaving

/- The task will read the flag before its next pass. -/
def TakesFlag (role : TaskRole) : Prop :=
  role = .holding ∨ role = .ended

instance (role : TaskRole) : Decidable role.Holds := by
  unfold Holds
  infer_instance

instance (role : TaskRole) : Decidable role.TakesFlag := by
  unfold TakesFlag
  infer_instance

end TaskRole

/-
  What one step of a task does to the gate and to its role;
  `ends` tells that the step ends a pass by itself.
-/
inductive TaskMove (ends : Bool) :
    Gate → TaskRole → Gate → TaskRole → Prop
| stay {g : Gate} {role : TaskRole} :
    TaskMove ends g role g role
| queue {g : Gate} :
    g.connected = true →
      TaskMove ends g .free g .polling
| leave {g : Gate} :
    TaskMove ends g .polling g .free
| take {g : Gate} :
    g.resume.permit = true →
      TaskMove ends g .polling
        (g.storeResume g.resume.pollNotified.2) .free
| sleep {g : Gate} :
    g.resume.permit = false →
      TaskMove ends g .polling
        (g.storeResume g.resume.pollNotified.2) .asleep
| wake {g : Gate} {resume : Library.Notify} :
    g.resume.wake = some resume →
      TaskMove ends g .asleep (g.storeResume resume) .free
| abandon {g : Gate} :
    TaskMove ends g .asleep
      (g.storeResume g.resume.abandon) .free
| claim {g : Gate} :
    g.connected = false →
      TaskMove ends g .free g.connect .holding
| finish {g : Gate} :
    ends = true →
      TaskMove ends g .holding g .leaving
| left {g : Gate} :
    TaskMove ends g .leaving g.disconnect .free
| released {g : Gate} :
    TaskMove ends g .holding g.disconnect .ended
| go {g : Gate} :
    g.pending = false →
      TaskMove ends g .ended (g.storePending false) .free
| park {g : Gate} :
    g.pending = true →
      TaskMove ends g .ended (g.storePending false) .polling
| quit {g : Gate} {role : TaskRole} :
    ¬ role.Holds →
      TaskMove ends g role g .gone
| quitAsleep {g : Gate} :
    TaskMove ends g .asleep
      (g.storeResume g.resume.abandon) .gone
| crash {g : Gate} :
    TaskMove ends g .holding g .gone

end RustyIce

------------------------------------------------------------
-- Claims And Releases
------------------------------------------------------------

namespace RustyIce

/- A store of a claim leaves the gate alone. -/
theorem onGate_of_claimSlot
    {kind : SourceKind}
    {token : Token}
    {op : SlotOp}
    (hMem : op ∈ claimSlot kind token)
    (g : Gate) :
    op.onGate g = g := by
  apply SlotOp.onGate_eq
  · rintro rfl
    simp [claimSlot] at hMem
  · rintro rfl
    simp [claimSlot] at hMem

/- The last store of a release is the one that matters. -/
theorem releaseSlot_suffix
    {op : SlotOp}
    {rest : List SlotOp}
    (hSuffix : op :: rest <:+ releaseSlot) :
    (op = .clearConnected ∧ rest = []) ∨
      (op ≠ .clearConnected ∧ op ≠ .notifyResume ∧
        .clearConnected ∈ rest) := by
  simp only [releaseSlot, List.suffix_cons_iff,
    List.cons.injEq, List.suffix_nil, reduceCtorEq,
    or_false] at hSuffix
  rcases hSuffix with h | h | h | h | h | h <;>
    rcases h with ⟨rfl, rfl⟩ <;>
    simp

/-
  The role of a task in the middle of a release, after a
  pass that was cancelled or ended by itself.
-/
def releaseRole
    (cancelled : Bool)
    (todo : List SlotOp) : TaskRole :=
  if .clearConnected ∈ todo then
    if cancelled then .holding else .leaving
  else
    if cancelled then .ended else .free

/- A store of a release. -/
theorem release_move
    {ends cancelled : Bool}
    {op : SlotOp}
    {rest : List SlotOp}
    (hSuffix : op :: rest <:+ releaseSlot)
    (now : Nat)
    (s : Slot) :
    TaskMove ends s.gate (releaseRole cancelled (op :: rest))
      (op.exec now s).gate (releaseRole cancelled rest) := by
  rw [SlotOp.gate_exec]
  rcases releaseSlot_suffix hSuffix with
    ⟨rfl, rfl⟩ | ⟨hFirst, hSecond, hLater⟩
  · cases cancelled with
    | true => exact .released
    | false => exact .left
  · rw [SlotOp.onGate_eq _ hFirst hSecond]
    simp only [releaseRole, List.mem_cons, hLater, or_true,
      if_true]
    exact .stay

end RustyIce

------------------------------------------------------------
-- Waiting For A Live Source
------------------------------------------------------------

namespace RustyIce

/- Where `wait_for_live_source_to_release` is. -/
inductive WaitPhase where
| load
| poll
| asleep
deriving DecidableEq, Repr

namespace WaitPhase

/-
  The next access of the wait, which both tasks have; no
  phase is left when it is over.
-/
def step
    (shutdown : Bool)
    (s : Slot) : WaitPhase → Option (Option WaitPhase × Slot)
| .load =>
    if s.mount.sourceConnected then some (some .poll, s)
    else some (none, s)
| .poll =>
    if shutdown then
      some (none, s)
    else
      let resume := s.mount.nonLiveResume.pollNotified
      if resume.1 then
        some (some .load, s.storeResume resume.2)
      else
        some (some .asleep, s.storeResume resume.2)
| .asleep =>
    if shutdown then
      some
        (none, s.storeResume s.mount.nonLiveResume.abandon)
    else
      match s.mount.nonLiveResume.wake with
      | none => none
      | some resume =>
          some (some .load, s.storeResume resume)

def role : Option WaitPhase → TaskRole
| none => .free
| some .load => .free
| some .poll => .polling
| some .asleep => .asleep

/- Each step of the wait is a move of a task. -/
theorem move_of_step
    {ends shutdown : Bool}
    {s s' : Slot}
    {phase : WaitPhase}
    {next : Option WaitPhase}
    (hStep : phase.step shutdown s = some (next, s')) :
    TaskMove ends s.gate (role (some phase)) s'.gate
      (role next) := by
  cases phase with
  | load =>
      simp only [step] at hStep
      split at hStep
      · rename_i hConnected
        cases hStep
        exact .queue hConnected
      · cases hStep
        exact .stay
  | poll =>
      simp only [step] at hStep
      split at hStep
      · cases hStep
        exact .leave
      · split at hStep
        · rename_i hPermit
          rw [Library.Notify.pollNotified_fst] at hPermit
          cases hStep
          exact .take hPermit
        · rename_i hPermit
          rw [Library.Notify.pollNotified_fst] at hPermit
          cases hStep
          exact .sleep (eq_false_of_ne_true hPermit)
  | asleep =>
      simp only [step] at hStep
      split at hStep
      · cases hStep
        exact .abandon
      · split at hStep
        · cases hStep
        · rename_i resume hWake
          cases hStep
          exact .wake hWake

end WaitPhase

end RustyIce

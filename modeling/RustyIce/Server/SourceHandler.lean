import RustyIce.Server.Slot
import Mathlib.Data.List.Infix

/-
  A source request at the mount it found or created, access
  by access: preempting a task, the checks, the claim, the
  stream and the guard.

  Main declarations:
    * `SourcePhase`, `SourcePhase.step`
    * `SourcePhase.Proper`
    * `SourceRole`, `SourceMove`
    * `SourcePhase.move_of_step`
-/

------------------------------------------------------------
-- Phases
------------------------------------------------------------

namespace RustyIce

/- Where `handle_source_connection` is at its mount. -/
inductive SourcePhase where
| checkConnected
| checkKind
| setPending
| readCancel
| cancelOwner (token : Token)
| polling
| verify
| checkCodec
| claim
| installing (todo : List SlotOp) (token : Token)
| streaming (token : Token)
| dropping (todo : List SlotOp)
| rejected (status : Nat)
| over
deriving DecidableEq, Repr

/- What a request says about the stream it brings. -/
structure SourceRequest where
  codec : CodecId
  overlay : SourceOverlay
  dynamic : Bool
deriving DecidableEq, Repr

/-
  What a step reads besides the slot: the clock, the
  deadline of the preemption, the password check and the
  codec check.
-/
structure SourceEnv where
  now : Nat
  expired : Bool
  authorised : Bool
  accepted : Bool
deriving DecidableEq, Repr

namespace SourcePhase

/-
  The next access. A stream ends for any reason, at any
  time; while it lasts it leaves the gate alone.
-/
def step
    (req : SourceRequest)
    (env : SourceEnv)
    (s : Slot) : SourcePhase → Option (SourcePhase × Slot)
| .checkConnected =>
    if s.mount.sourceConnected then
      some (.checkKind, s)
    else
      some (.verify, s)
| .checkKind =>
    match s.mount.sourceKind with
    | .none => some (.verify, s)
    | .live => some (.verify, s)
    | .autoDj => some (.setPending, s)
    | .relay => some (.setPending, s)
| .setPending => some (.readCancel, s.storePending true)
| .readCancel =>
    match s.mount.sourceCancel with
    | none => some (.polling, s)
    | some token => some (.cancelOwner token, s)
| .cancelOwner token => some (.polling, s.cancel token)
| .polling =>
    if s.mount.sourceConnected then
      if env.expired then
        some (.rejected 500, s)
      else
        some (.polling, s)
    else
      some (.verify, s)
| .verify =>
    if env.authorised then
      some (.checkCodec, s)
    else
      some (.rejected 401, s)
| .checkCodec =>
    if env.accepted then
      some (.claim, s)
    else
      some (.rejected 415, s)
| .claim =>
    if s.mount.sourceConnected then
      some (.rejected 409, s)
    else
      some
        (.installing
            (installSource s.nextToken req.codec req.overlay)
            s.nextToken,
          s.connect)
| .installing todo token =>
    match todo with
    | [] => some (.streaming token, s)
    | op :: rest =>
        some (.installing rest token, op.exec env.now s)
| .streaming _ => some (.dropping (guardDrop req.dynamic), s)
| .dropping todo =>
    match todo with
    | [] => some (.over, s)
    | op :: rest => some (.dropping rest, op.exec env.now s)
| .rejected _ => none
| .over => none

/- The rest of a list of accesses is a rest of the source's. -/
def Proper (req : SourceRequest) : SourcePhase → Prop
| .installing todo token =>
    todo <:+ installSource token req.codec req.overlay
| .dropping todo => todo <:+ guardDrop req.dynamic
| .checkConnected => True
| .checkKind => True
| .setPending => True
| .readCancel => True
| .cancelOwner _ => True
| .polling => True
| .verify => True
| .checkCodec => True
| .claim => True
| .streaming _ => True
| .rejected _ => True
| .over => True

end SourcePhase

end RustyIce

------------------------------------------------------------
-- Roles
------------------------------------------------------------

namespace RustyIce

/-
  What a request is to the others: not yet preempting,
  waiting for the slot, on its way to the claim, holding the
  slot, off the slot with the notification still to come, or
  of no consequence any more.
-/
inductive SourceRole where
| before
| waiting
| arriving
| holding
| dropping
| done
deriving DecidableEq, Repr

namespace SourcePhase

def role : SourcePhase → SourceRole
| .checkConnected => .before
| .checkKind => .before
| .setPending => .before
| .readCancel => .waiting
| .cancelOwner _ => .waiting
| .polling => .waiting
| .verify => .arriving
| .checkCodec => .arriving
| .claim => .arriving
| .installing _ _ => .holding
| .streaming _ => .holding
| .dropping todo =>
    if .clearConnected ∈ todo then .holding
    else if .notifyResume ∈ todo then .dropping
    else .done
| .rejected _ => .done
| .over => .done

end SourcePhase

/-
  What one step of a request in `phase` does to the gate and
  to its role.
-/
inductive SourceMove
    (env : SourceEnv)
    (phase : SourcePhase) :
    Gate → SourceRole → Gate → SourceRole → Prop
| stay {g : Gate} {role : SourceRole} :
    SourceMove env phase g role g role
| pass {g : Gate} :
    SourceMove env phase g .before g .arriving
| flag {g : Gate} :
    phase = .setPending →
      SourceMove env phase g .before
        (g.storePending true) .waiting
| freed {g : Gate} :
    g.connected = false →
      SourceMove env phase g .waiting g .arriving
| timeout {g : Gate} :
    phase = .polling →
      env.expired = true →
        g.connected = true →
          SourceMove env phase g .waiting g .done
| unauthorised {g : Gate} :
    env.authorised = false →
      SourceMove env phase g .arriving g .done
| refused {g : Gate} :
    env.accepted = false →
      SourceMove env phase g .arriving g .done
| busy {g : Gate} :
    g.connected = true →
      SourceMove env phase g .arriving g .done
| won {g : Gate} :
    g.connected = false →
      SourceMove env phase g .arriving g.connect .holding
| disconnected {g : Gate} :
    SourceMove env phase g .holding g.disconnect .dropping
| notified {g : Gate} :
    SourceMove env phase g .dropping
      (g.storeResume g.resume.notifyOne) .done

/- A store of an installation leaves the gate alone. -/
theorem onGate_of_installSource
    {token : Token}
    {codec : CodecId}
    {overlay : SourceOverlay}
    {op : SlotOp}
    (hMem : op ∈ installSource token codec overlay)
    (g : Gate) :
    op.onGate g = g := by
  apply SlotOp.onGate_eq
  · rintro rfl
    simp [installSource] at hMem
  · rintro rfl
    simp [installSource] at hMem

/-
  The turns of a guard, in this order; the others come in
  between.
-/
theorem guardDrop_suffix
    {dynamic : Bool}
    {op : SlotOp}
    {rest : List SlotOp}
    (hSuffix : op :: rest <:+ guardDrop dynamic) :
    (op = .kickListeners ∧ .clearConnected ∈ rest) ∨
      (op = .clearConnected ∧ .clearConnected ∉ rest ∧
        .notifyResume ∈ rest) ∨
      (op = .notifyResume ∧ .clearConnected ∉ rest ∧
        .notifyResume ∉ rest) ∨
      (op ∈
          [.clearCancel, .clearConnectedAt, .clearOverlay,
            .clearHeader, .removeMount] ∧
        .clearConnected ∉ rest) := by
  cases dynamic with
  | false =>
      simp only [guardDrop, Bool.false_eq_true, if_false,
        List.append_nil, List.suffix_cons_iff,
        List.cons.injEq, List.suffix_nil, reduceCtorEq,
        or_false] at hSuffix
      rcases hSuffix with
        h | h | h | h | h | h | h <;>
        rcases h with ⟨rfl, rfl⟩ <;>
        simp
  | true =>
      simp only [guardDrop, if_true, List.cons_append,
        List.nil_append, List.suffix_cons_iff,
        List.cons.injEq, List.suffix_nil, reduceCtorEq,
        or_false] at hSuffix
      rcases hSuffix with
        h | h | h | h | h | h | h | h <;>
        rcases h with ⟨rfl, rfl⟩ <;>
        simp

namespace SourcePhase

variable {req : SourceRequest}
variable {env : SourceEnv}
variable {s s' : Slot}

/- A store of an installation. -/
theorem installing_move
    {op : SlotOp}
    {rest : List SlotOp}
    {token : Token}
    (hProper : (installing (op :: rest) token).Proper req) :
    SourceMove env (.installing (op :: rest) token) s.gate
      .holding (op.exec env.now s).gate .holding := by
  have hMem :
      op ∈ installSource token req.codec req.overlay :=
    hProper.subset List.mem_cons_self
  rw [SlotOp.gate_exec, onGate_of_installSource hMem]
  exact .stay

/- A turn of the guard. -/
theorem dropping_move
    {op : SlotOp}
    {rest : List SlotOp}
    (hProper : (dropping (op :: rest)).Proper req) :
    SourceMove env (.dropping (op :: rest)) s.gate
      (dropping (op :: rest)).role (op.exec env.now s).gate
      (dropping rest).role := by
  rw [SlotOp.gate_exec]
  -- Only two of the turns are about the gate.
  have hAside :
      op ≠ .clearConnected →
        op ≠ .notifyResume →
          SourceMove env (.dropping (op :: rest)) s.gate
            (dropping (op :: rest)).role (op.onGate s.gate)
            (dropping rest).role := by
    intro hFirst hSecond
    rw [SlotOp.onGate_eq _ hFirst hSecond]
    simp only [role, List.mem_cons, Ne.symm hFirst,
      Ne.symm hSecond, false_or]
    exact .stay
  rcases guardDrop_suffix hProper with
    ⟨hOp, _⟩ | ⟨hOp, hNot, hLater⟩ |
      ⟨hOp, hNot, hNever⟩ | ⟨hOp, _⟩
  · subst hOp
    exact hAside (by simp) (by simp)
  · subst hOp
    simp only [role, List.mem_cons, true_or, if_true, hNot,
      if_false, hLater]
    exact .disconnected
  · subst hOp
    simp only [role, List.mem_cons, reduceCtorEq, hNot,
      or_false, if_true, if_false, hNever]
    exact .notified
  · apply hAside
    · rintro rfl
      simp at hOp
    · rintro rfl
      simp at hOp

/- Each step of a request is one of its moves. -/
theorem move_of_step
    {phase phase' : SourcePhase}
    (hProper : phase.Proper req)
    (hStep : phase.step req env s = some (phase', s')) :
    SourceMove env phase s.gate phase.role s'.gate
      phase'.role := by
  cases phase with
  | checkConnected =>
      simp only [step] at hStep
      split at hStep
      · cases hStep
        exact .stay
      · cases hStep
        exact .pass
  | checkKind =>
      simp only [step] at hStep
      split at hStep
      · cases hStep
        exact .pass
      · cases hStep
        exact .pass
      · cases hStep
        exact .stay
      · cases hStep
        exact .stay
  | setPending =>
      cases hStep
      exact .flag rfl
  | readCancel =>
      simp only [step] at hStep
      split at hStep
      · cases hStep
        exact .stay
      · cases hStep
        exact .stay
  | cancelOwner token =>
      cases hStep
      exact .stay
  | polling =>
      simp only [step] at hStep
      split at hStep
      · rename_i hConnected
        split at hStep
        · rename_i hExpired
          cases hStep
          exact .timeout rfl hExpired hConnected
        · cases hStep
          exact .stay
      · rename_i hFree
        cases hStep
        exact .freed (eq_false_of_ne_true hFree)
  | verify =>
      simp only [step] at hStep
      split at hStep
      · cases hStep
        exact .stay
      · rename_i hNot
        cases hStep
        exact .unauthorised (eq_false_of_ne_true hNot)
  | checkCodec =>
      simp only [step] at hStep
      split at hStep
      · cases hStep
        exact .stay
      · rename_i hNot
        cases hStep
        exact .refused (eq_false_of_ne_true hNot)
  | claim =>
      simp only [step] at hStep
      split at hStep
      · rename_i hConnected
        cases hStep
        exact .busy hConnected
      · rename_i hFree
        cases hStep
        exact .won (eq_false_of_ne_true hFree)
  | installing todo token =>
      cases todo with
      | nil =>
          cases hStep
          exact .stay
      | cons op rest =>
          cases hStep
          exact installing_move hProper
  | streaming token =>
      cases hStep
      have hRole :
          (dropping (guardDrop req.dynamic)).role =
            .holding := by
        cases req.dynamic <;> rfl
      rw [hRole]
      exact .stay
  | dropping todo =>
      cases todo with
      | nil =>
          cases hStep
          exact .stay
      | cons op rest =>
          cases hStep
          exact dropping_move hProper
  | rejected status => cases hStep
  | «over» => cases hStep

/- A step leaves a rest of the same list. -/
theorem proper_of_step
    {phase phase' : SourcePhase}
    (hProper : phase.Proper req)
    (hStep : phase.step req env s = some (phase', s')) :
    phase'.Proper req := by
  cases phase with
  | installing todo token =>
      cases todo with
      | nil =>
          cases hStep
          trivial
      | cons op rest =>
          cases hStep
          exact (List.suffix_cons op rest).trans hProper
  | dropping todo =>
      cases todo with
      | nil =>
          cases hStep
          trivial
      | cons op rest =>
          cases hStep
          exact (List.suffix_cons op rest).trans hProper
  | streaming token =>
      cases hStep
      exact List.suffix_refl _
  | claim =>
      simp only [step] at hStep
      split at hStep
      · cases hStep
        trivial
      · cases hStep
        exact List.suffix_refl _
  | checkConnected =>
      simp only [step] at hStep
      split at hStep <;> cases hStep <;> trivial
  | checkKind =>
      simp only [step] at hStep
      split at hStep <;> cases hStep <;> trivial
  | readCancel =>
      simp only [step] at hStep
      split at hStep <;> cases hStep <;> trivial
  | polling =>
      simp only [step] at hStep
      split at hStep
      · split at hStep <;> cases hStep <;> trivial
      · cases hStep
        trivial
  | verify =>
      simp only [step] at hStep
      split at hStep <;> cases hStep <;> trivial
  | checkCodec =>
      simp only [step] at hStep
      split at hStep <;> cases hStep <;> trivial
  | setPending =>
      cases hStep
      trivial
  | cancelOwner token =>
      cases hStep
      trivial
  | rejected status => cases hStep
  | «over» => cases hStep

end SourcePhase

end RustyIce

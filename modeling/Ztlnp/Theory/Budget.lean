import Ztlnp.Lib.Lineage
import Ztlnp.Theory.Registry

/-!
# The Rotation Budget

How many rotations one root identity can cause.

The manager stores a count with each identity and copies it, one higher, to
the successor. The count is the length of one line of descent, and it is the
rank of the lineage that the accepted transitions form, as long as they do
form one. A second transition from a retired identity opens a second line with
a count of its own, and a transition onto an identity that has a count or a
successor overwrites what was counted there. Neither is refused, so the budget
bounds a line and not a family. It bounds the family in every run where no
accepted transition does either.

## Main definitions

* `Ledger.rotations`: The accepted transitions of a run, as edges.
* `Registry.ExtendsLine`: A transition from an identity that is not retired to
  one that took no part in a transition.
* `Ledger.Lineal`: The accepted transitions form a lineage ranked by the
  manager's counts.

## Theorems

* `Ledger.lineal_step`: A transition that extends a line keeps the lineage.
* `Ledger.rotation_budget`: In runs of such transitions the budget bounds the
  rotations of every root.
-/

namespace Ztlnp

variable {C : Primitives}

/-- The accepted transitions of a run, as edges from the old identity to the
    new one. -/
def Ledger.rotations (l : Ledger C) : List (Bytes × Bytes) :=
  l.log.filterMap (fun a => match a with
    | .applyTransition _ t => some (t.oldDeviceId, t.newDeviceId)
    | _ => none)

/-- A transition extends a line: its old identity is not retired, and its new
    one neither is retired nor was reached by a rotation. -/
def Registry.ExtendsLine (g : Registry C) : RegistryAct → Prop
  | .applyTransition _ t =>
    g.manager.isRetired t.oldDeviceId = false ∧ g.manager.isRetired t.newDeviceId = false ∧
      g.manager.rotationCount t.newDeviceId = 0
  | _ => True

instance (g : Registry C) : ∀ a : RegistryAct, Decidable (g.ExtendsLine a)
  | .applyTransition _ _ => inferInstanceAs (Decidable (_ ∧ _ ∧ _))
  | .add _ _ => .isTrue trivial
  | .processHello _ _ => .isTrue trivial
  | .verifyFingerprint _ _ => .isTrue trivial
  | .addEndorsement _ _ => .isTrue trivial
  | .distrust _ => .isTrue trivial
  | .removeBlacklist _ => .isTrue trivial

namespace Ledger

/-- The accepted transitions form a lineage whose ranks are the manager's
    counts, within the budget. The manager knows every identity that took
    part. -/
structure Lineal (l : Ledger C) : Prop where
  lineage : Lineage l.rotations l.registry.manager.rotationCount
  bounded : ∀ a b, (a, b) ∈ l.rotations → a ≠ b →
    (l.registry.manager.rotationCount a : Int) < l.registry.manager.maxRotations
  retired : ∀ a b, (a, b) ∈ l.rotations → l.registry.manager.isRetired a = true
  counted : ∀ a b, (a, b) ∈ l.rotations → 0 < l.registry.manager.rotationCount b

/-- The edges are those of the accepted transitions. -/
theorem rotations_eq (l : Ledger C) :
    l.rotations = l.transitions.map (fun t => (t.oldDeviceId, t.newDeviceId)) := by
  rw [rotations, transitions, List.map_filterMap]
  congr 1
  funext a
  cases a with
  | applyTransition nowMs t => rfl
  | _ => rfl

/-- A step that is no accepted transition leaves the edges and the manager
    alone. -/
theorem rotations_step (l : Ledger C) (a : RegistryAct) :
    ((l.step a).rotations = l.rotations ∧
        (l.step a).registry.manager = l.registry.manager) ∨
      ∃ nowMs t old, a = .applyTransition nowMs t ∧ l.registry.accepts a = true ∧
        l.registry.Transits nowMs t old ∧
        (l.step a).rotations = l.rotations ++ [(t.oldDeviceId, t.newDeviceId)] ∧
        (l.step a).registry.manager = Registry.recorded l.registry.manager t := by
  simp only [rotations_eq]
  rcases l.transitions_step a with ⟨hsame, hman, _⟩ | ⟨nowMs, t, old, ha, hok, ht, hnew, hman⟩
  · exact Or.inl ⟨by rw [hsame], hman⟩
  · exact Or.inr ⟨nowMs, t, old, ha, hok, ht, by rw [hnew, List.map_append, List.map_singleton],
      hman⟩

/-- A transition that extends a line keeps the lineage. Its source is new
    because sources are retired, its target because targets are counted, and
    the one count it writes is of an identity no earlier edge touches. -/
theorem lineal_step (l : Ledger C) (a : RegistryAct) (h : l.Lineal)
    (hext : l.registry.accepts a = true → l.registry.ExtendsLine a) : (l.step a).Lineal := by
  rcases l.rotations_step a with ⟨hedges, hman⟩ | ⟨nowMs, t, old, ha, hok, ht, hedges, hman⟩
  · -- No edge is added and the manager is not moved, so the invariant is the old one.
    refine ⟨?_, ?_, ?_, ?_⟩
    · rw [hedges, hman]
      exact h.lineage
    · rw [hedges, hman]
      exact h.bounded
    · rw [hedges, hman]
      exact h.retired
    · rw [hedges, hman]
      exact h.counted
  · have hline := hext hok
    rw [ha] at hline
    rcases hline with ⟨hold, hnew, hcount⟩
    -- The old device is not retired and the new one is fresh, so no older edge starts at either.
    have hsource : ∀ x y, (x, y) ∈ l.rotations → x ≠ t.oldDeviceId ∧ x ≠ t.newDeviceId := by
      intro x y hxy
      have hx := h.retired x y hxy
      constructor
      · intro heq
        rw [heq, hold] at hx
        exact Bool.false_ne_true hx
      · intro heq
        rw [heq, hnew] at hx
        exact Bool.false_ne_true hx
    -- A device that was reached has a rotation on its count, so no older edge ends at the new one.
    have htarget : ∀ x y, (x, y) ∈ l.rotations → y ≠ t.newDeviceId := by
      intro x y hxy heq
      have hy := h.counted x y hxy
      rw [heq, hcount] at hy
      omega
    have hmem : ∀ x y, (x, y) ∈ (l.step a).rotations →
        (x, y) ∈ l.rotations ∨ (x = t.oldDeviceId ∧ y = t.newDeviceId) := by
      intro x y hxy
      rw [hedges] at hxy
      rcases List.mem_append.mp hxy with hxy | hxy
      · exact Or.inl hxy
      · rw [List.mem_singleton, Prod.mk.injEq] at hxy
        exact Or.inr hxy
    refine ⟨?_, ?_, ?_, ?_⟩
    · -- The new edge prolongs a line: neither end was a source and the new end was no target.
      rw [hedges, hman, funext (Registry.recorded_rotationCount l.registry.manager t)]
      exact h.lineage.extend _ _ (fun c hc => (hsource _ c hc).1 rfl)
        (fun c hc => (hsource _ c hc).2 rfl) (fun c hc => htarget c _ hc rfl)
    · -- Its count is one more than that of its source, which the manager found below the limit.
      intro x y hxy hne
      rw [hman, Registry.recorded_rotationCount]
      rcases hmem x y hxy with hxy | ⟨hx, hy⟩
      · rw [if_neg (hsource x y hxy).2]
        exact h.bounded x y hxy hne
      · rw [if_neg (fun hc => hne (hc.trans hy.symm)), hx]
        exact ht.2.2.2.2.2.2
    · -- Exactly the source joins the retired devices.
      intro x y hxy
      rw [hman, Registry.recorded_isRetired]
      rcases hmem x y hxy with hxy | ⟨hx, _⟩
      · rw [if_neg (hsource x y hxy).1]
        exact h.retired x y hxy
      · rw [if_pos hx]
    · -- The new end starts with a positive count.
      intro x y hxy
      rw [hman, Registry.recorded_rotationCount]
      rcases hmem x y hxy with hxy | ⟨_, hy⟩
      · rw [if_neg (htarget x y hxy)]
        exact h.counted x y hxy
      · rw [if_pos hy]
        omega

/-- In every run whose accepted transitions all extend a line, the accepted
    transitions of a root identity and of everything that descends from it are
    within the budget. A negative budget permits none. -/
theorem rotation_budget (C : Primitives) (allowTofu : Bool) (minTrust : TrustLevel)
    (maxEndorsementDepth maxRotations : Int) (acts : List RegistryAct)
    (hrun : Along step (fun l a => l.registry.accepts a = true → l.registry.ExtendsLine a)
      ⟨Registry.create C allowTofu minTrust maxEndorsementDepth maxRotations, []⟩ acts) (r : Bytes)
    (hroot : ∀ c, (c, r) ∉ (acts.foldl step
      ⟨Registry.create C allowTofu minTrust maxEndorsementDepth maxRotations, []⟩).rotations) :
    (lineLength (acts.foldl step
      ⟨Registry.create C allowTofu minTrust maxEndorsementDepth maxRotations, []⟩).rotations
        r : Int) ≤ max 0 maxRotations := by
  set start : Ledger C :=
    ⟨Registry.create C allowTofu minTrust maxEndorsementDepth maxRotations, []⟩ with hstart
  -- With no rotations every clause is empty.
  have h0 : start.Lineal := by
    have hnone : ∀ a b, (a, b) ∉ start.rotations := fun a b h => absurd h List.not_mem_nil
    exact ⟨⟨List.nodup_nil, List.nodup_nil, fun a b h => absurd h (hnone a b)⟩,
      fun a b h => absurd h (hnone a b), fun a b h => absurd h (hnone a b),
      fun a b h => absurd h (hnone a b)⟩
  have hlineal := along_invariant Lineal lineal_step start acts h0 hrun
  have hmax : (acts.foldl step start).registry.manager.maxRotations = maxRotations := by
    rw [run_registry]
    exact (start.registry.run_settings acts).2.2
  -- Whoever was rotated from stood below the limit, which bounds every line to the root.
  have hle := hlineal.lineage.lineLength_le maxRotations.toNat (by
    intro a b hab hne
    have hbound := hlineal.bounded a b hab hne
    rw [hmax] at hbound
    omega) r hroot
  omega

/-- Two rotations in a row, which use up a budget of two. -/
def rotatedTwice : List RegistryAct := [.add (Registry.toyIdentity 1) .tofu,
  .applyTransition 9 (Registry.toyTransition 1 2 9),
  .applyTransition 10 (Registry.toyTransition 2 3 10)]

theorem rotation_budget_rotatedTwice :
    (rotatedTwice.foldl step ⟨Registry.create toyPrimitives true .tofu 3 2, []⟩).rotations.length
        = 2 ∧
      (lineLength (rotatedTwice.foldl step
        ⟨Registry.create toyPrimitives true .tofu 3 2, []⟩).rotations
          (Registry.toyIdentity 1) : Int) ≤ max 0 2 := by
  refine ⟨by decide +kernel, rotation_budget toyPrimitives true .tofu 3 2 rotatedTwice
    (by decide +kernel) (Registry.toyIdentity 1) ?_⟩
  -- Both edges lead to other identities.
  intro c hc
  rw [show (rotatedTwice.foldl step ⟨Registry.create toyPrimitives true .tofu 3 2, []⟩).rotations
    = [(Registry.toyIdentity 1, Registry.toyIdentity 2),
      (Registry.toyIdentity 2, Registry.toyIdentity 3)] by decide +kernel] at hc
  simp only [List.mem_cons, Prod.mk.injEq, List.not_mem_nil, or_false] at hc
  rcases hc with ⟨_, hc⟩ | ⟨_, hc⟩
  · exact absurd hc (by decide +kernel)
  · exact absurd hc (by decide +kernel)

/-- Two rotations from one identity, under a budget of one. -/
def rotatedApart : List RegistryAct := [.add (Registry.toyIdentity 1) .tofu,
  .applyTransition 9 (Registry.toyTransition 1 2 9),
  .applyTransition 10 (Registry.toyTransition 1 3 10)]

/-- A fork is not counted: the root has two rotations where one is allowed. -/
theorem fork_exceeds_budget :
    let l := rotatedApart.foldl step ⟨Registry.create toyPrimitives true .tofu 3 1, []⟩
    (∀ c, (c, Registry.toyIdentity 1) ∉ l.rotations) ∧
      lineLength l.rotations (Registry.toyIdentity 1) = 2 := by
  intro l
  have hedges : l.rotations = [(Registry.toyIdentity 1, Registry.toyIdentity 2),
      (Registry.toyIdentity 1, Registry.toyIdentity 3)] := by decide +kernel
  rw [hedges]
  constructor
  · intro c hc
    simp only [List.mem_cons, Prod.mk.injEq, List.not_mem_nil, or_false] at hc
    rcases hc with ⟨_, hc⟩ | ⟨_, hc⟩
    · exact absurd hc (by decide +kernel)
    · exact absurd hc (by decide +kernel)
  · rw [lineLength_eq_length]
    · rfl
    · intro e he
      simp only [List.mem_cons, List.not_mem_nil, or_false] at he
      rcases he with rfl | rfl
      · exact Relation.ReflTransGen.refl
      · exact Relation.ReflTransGen.refl

end Ledger

end Ztlnp

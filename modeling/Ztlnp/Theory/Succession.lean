import Ztlnp.Theory.Chronicle

/-!
# Who a Device Is Now

Two questions that are asked of the rotation manager after the fact: which
identity a device has now, and by which rotations it came to it.

The first is answered by following the retirements. They form a table of
successors, and nothing keeps a transition from leading back to an identity
that was retired, or from naming its own. Whoever is on a circle is retired and
has no current identity. The loop that follows the table notices the circle and
returns some identity on it. Apart from that the answer is right: it is right
in every state of a run exactly when no accepted transition leads back to its
old identity.

The second is answered from a list that is kept for each identity. A transition
is entered into the list of its new identity, and the list of the old one is
not carried over, although the count is. The list is the last rotation, and is
the whole chain if there was no more than one.

## Main definitions

* `Ledger.Resolves`: Every identity resolves to a current one.
* `Registry.Onward`: A transition does not lead back.
* `Linked`: Records that lead from one identity to another.
* `Ledger.Complete`, `Ledger.Recounts`: A history is the whole chain.
* `Ledger.Fresh`: A transition to an identity that took no part in another,
  from one that was not rotated.
* `Registry.FromRoot`: A transition from an identity that no rotation led to.

## Theorems

* `resolves_iff`: Identities resolve if retirements come to an end.
* `resolve_finds_current_iff`: When they do throughout a run.
* `recounts_step_iff`: When a step keeps the histories complete.
* `history_complete_iff`: When a run does.
-/

namespace Ztlnp

variable {C : Primitives}

namespace Ledger

/-- Every identity resolves to one that is not retired and resolves to itself,
    and the two identities of a transition that was not superseded resolve to
    the same. -/
structure Resolves (l : Ledger C) : Prop where
  current : ∀ id, ∃ r, l.registry.manager.resolve id = some r ∧
    l.registry.manager.isRetired r = false ∧ l.registry.manager.resolve r = some r
  succession : ∀ earlier t later, l.transitions = earlier ++ t :: later →
    (∀ u ∈ later, u.oldDeviceId ≠ t.oldDeviceId) →
    l.registry.manager.resolve t.oldDeviceId = l.registry.manager.resolve t.newDeviceId

theorem isRetired_eq_false (m : RotationManager) (id : Bytes) :
    m.isRetired id = false ↔ m.retired.get? id = none := by
  rw [RotationManager.isRetired, Option.isSome_eq_false_iff, Option.isNone_iff_eq_none]

/-- A transition that was not superseded is the one in the table. -/
theorem retired_of_last (l : Ledger C) (h : l.Chronicled) (earlier later : List KeyTransition)
    (t : KeyTransition) (hsplit : l.transitions = earlier ++ t :: later)
    (hlast : ∀ u ∈ later, u.oldDeviceId ≠ t.oldDeviceId) :
    l.registry.manager.retired.get? t.oldDeviceId = some t.newDeviceId := by
  have hnone : later.filter (fun u => u.oldDeviceId = t.oldDeviceId) = [] := by
    rw [List.filter_eq_nil_iff]
    intro u hu
    simp only [decide_eq_true_eq]
    exact hlast u hu
  have hself : (t :: later).filter (fun u => u.oldDeviceId = t.oldDeviceId) = [t] := by
    rw [List.filter_cons, hnone, if_pos (decide_eq_true rfl)]
  have hfrom : l.lastFrom t.oldDeviceId = some t := by
    rw [lastFrom, hsplit, List.filter_append, hself, List.getLast?_concat]
  rw [h.retired, hfrom]
  rfl

/-- Identities resolve exactly when the retirements come to an end. -/
theorem resolves_iff (l : Ledger C) (h : l.Chronicled) :
    l.Resolves ↔ Terminates l.registry.manager.retired := by
  constructor
  · intro hres
    refine terminates_iff_pursue.mpr (fun id r hr => ?_)
    rcases hres.current id with ⟨r', hr', hcurrent, _⟩
    rw [RotationManager.resolve, hr, Option.some.injEq] at hr'
    rw [hr']
    exact (isRetired_eq_false _ _).mp hcurrent
  · intro hend
    refine ⟨fun id => ?_, fun earlier t later hsplit hlast => ?_⟩
    · rcases hend id with ⟨e, he⟩
      exact ⟨e, pursue_of_endsAt he, (isRetired_eq_false _ _).mpr he.2,
        pursue_of_endsAt ⟨Relation.ReflTransGen.refl, he.2⟩⟩
    · have hstep := l.retired_of_last h earlier later t hsplit hlast
      rcases hend t.oldDeviceId with ⟨e, he⟩
      rw [RotationManager.resolve, RotationManager.resolve, pursue_of_endsAt he,
        pursue_of_endsAt (he.of_step hstep)]

end Ledger

/-- Apart from its own retirement, the new identity of a transition does not
    resolve to the old one. -/
def Registry.Onward (g : Registry C) (t : KeyTransition) : Prop :=
  RotationManager.resolve
    { g.manager with retired := g.manager.retired.pop t.oldDeviceId } t.newDeviceId
    ≠ some t.oldDeviceId

instance (g : Registry C) (t : KeyTransition) : Decidable (g.Onward t) :=
  inferInstanceAs (Decidable (_ ≠ _))

/-- When a step keeps the retirements from leading in a circle. -/
theorem Ledger.terminates_step_iff (l : Ledger C) (a : RegistryAct)
    (hend : Terminates l.registry.manager.retired) :
    Terminates (l.step a).registry.manager.retired ↔
      (l.registry.accepts a = true → a.OnTransition l.registry.Onward) := by
  rcases l.transitions_step a with ⟨_, hman, hnot⟩ | ⟨nowMs, t, old, rfl, hok, _, _, hman⟩
  · rw [hman]
    exact iff_of_true hend (hnot _)
  · rw [hman, Registry.recorded]
    simp only [hok, forall_const, RegistryAct.OnTransition]
    exact terminates_set_iff hend t.oldDeviceId t.newDeviceId

/-- Every identity resolves to a current one, in every state of a run, and the
    identities of a transition to the same one, exactly when no accepted
    transition leads back to its old identity. -/
theorem resolve_finds_current_iff (C : Primitives) (allowTofu : Bool) (minTrust : TrustLevel)
    (maxEndorsementDepth maxRotations : Int) (acts : List RegistryAct) :
    Along Ledger.step (fun l a => l.registry.accepts a = true → a.OnTransition l.registry.Onward)
        (Ledger.start C allowTofu minTrust maxEndorsementDepth maxRotations) acts ↔
      ∀ k, ((acts.take k).foldl Ledger.step
        (Ledger.start C allowTofu minTrust maxEndorsementDepth maxRotations)).Resolves := by
  have hempty : Terminates (Ledger.start C allowTofu minTrust maxEndorsementDepth
      maxRotations).registry.manager.retired :=
    fun id => ⟨id, Relation.ReflTransGen.refl, rfl⟩
  refine along_iff_forall_take Ledger.Chronicled Ledger.Resolves Ledger.chronicled_step
    (fun l a h hres => ?_) _ acts (Ledger.start_chronicled _ _ _ _)
    ((Ledger.resolves_iff _ (Ledger.start_chronicled _ _ _ _)).mpr hempty)
  rw [Ledger.resolves_iff _ (l.chronicled_step a h)]
  exact l.terminates_step_iff a ((l.resolves_iff h).mp hres)

/-- A device rotates to another identity and back. -/
def rotatedBack : List RegistryAct := [.add (Registry.toyIdentity 1) .tofu,
  .applyTransition 9 (Registry.toyTransition 1 2 9),
  .applyTransition 10 (Registry.toyTransition 2 1 10)]

/-- Both identities resolve to themselves, and both are retired. -/
theorem rotated_back_unresolved :
    let l := rotatedBack.foldl Ledger.step (Ledger.start toyPrimitives true .tofu 3 10)
    (l.registry.manager.resolve (Registry.toyIdentity 1) = some (Registry.toyIdentity 1) ∧
        l.registry.manager.isRetired (Registry.toyIdentity 1) = true) ∧
      (l.registry.manager.resolve (Registry.toyIdentity 2) = some (Registry.toyIdentity 2) ∧
        l.registry.manager.isRetired (Registry.toyIdentity 2) = true) ∧ ¬ l.Resolves := by
  intro l
  have hrun : (l.registry.manager.resolve (Registry.toyIdentity 1)
        = some (Registry.toyIdentity 1) ∧
        l.registry.manager.isRetired (Registry.toyIdentity 1) = true) ∧
      l.registry.manager.resolve (Registry.toyIdentity 2) = some (Registry.toyIdentity 2) ∧
        l.registry.manager.isRetired (Registry.toyIdentity 2) = true := by
    decide +kernel
  refine ⟨hrun.1, hrun.2, fun hres => ?_⟩
  rcases hres.current (Registry.toyIdentity 1) with ⟨r, hr, hcurrent, _⟩
  rw [hrun.1.1, Option.some.injEq] at hr
  rw [← hr, hrun.1.2] at hcurrent
  exact Bool.false_ne_true hcurrent.symm

/-- Records that lead from one identity to another, each from where the one
    before it has led. -/
def Linked : Bytes → List RotationRecord → Bytes → Prop
  | root, [], id => root = id
  | root, r :: rs, id => r.oldDeviceId = root ∧ Linked r.newDeviceId rs id

namespace Ledger

/-- The history of an identity is as long as its count, and leads to it from an
    identity that no rotation has led to, by transitions that were accepted. -/
structure Complete (l : Ledger C) (id : Bytes) : Prop where
  length : (l.registry.manager.rotationHistory id).length = l.registry.manager.rotationCount id
  linked : ∃ root, (∀ t ∈ l.transitions, t.newDeviceId ≠ root) ∧
    Linked root (l.registry.manager.rotationHistory id) id
  accepted : ∀ r ∈ l.registry.manager.rotationHistory id, ∃ t ∈ l.transitions, r = t.record

/-- The history of every current identity is complete. -/
def Recounts (l : Ledger C) : Prop :=
  ∀ id, l.registry.manager.isRetired id = false → l.Complete id

/-- A transition from an identity that was not rotated, to one that took no part
    in a transition. -/
def Fresh (l : Ledger C) (t : KeyTransition) : Prop :=
  t.newDeviceId ≠ t.oldDeviceId ∧ ∀ u ∈ l.transitions, u.oldDeviceId ≠ t.oldDeviceId ∧
    u.oldDeviceId ≠ t.newDeviceId ∧ u.newDeviceId ≠ t.newDeviceId

instance (l : Ledger C) (t : KeyTransition) : Decidable (l.Fresh t) :=
  inferInstanceAs (Decidable (_ ∧ ∀ u ∈ _, _))

end Ledger

/-- A transition from an identity that no rotation has led to. -/
def Registry.FromRoot (g : Registry C) (t : KeyTransition) : Prop :=
  g.manager.rotationCount t.oldDeviceId = 0

instance (g : Registry C) (t : KeyTransition) : Decidable (g.FromRoot t) :=
  inferInstanceAs (Decidable (_ = _))

namespace Ledger

/-- An accepted transition completes the history of its new identity if nothing
    has led to the old one. The other histories stay as they are. -/
theorem recounts_recorded_iff (l l' : Ledger C) (t : KeyTransition) (h : l.Chronicled)
    (hfresh : l.Fresh t) (hrec : l.Recounts) (hnew : l'.transitions = l.transitions ++ [t])
    (hman : l'.registry.manager = Registry.recorded l.registry.manager t) :
    l'.Recounts ↔ l.registry.FromRoot t := by
  rcases hfresh with ⟨hne, hfresh⟩
  have hhistory : l'.registry.manager.rotationHistory t.newDeviceId = [t.record] := by
    have hnone : l.transitions.filter (fun u => u.newDeviceId = t.newDeviceId) = [] := by
      rw [List.filter_eq_nil_iff]
      intro u hu
      simp only [decide_eq_true_eq]
      exact (hfresh u hu).2.2
    rw [hman, Registry.recorded_rotationHistory, if_pos rfl, h.history, hnone]
    rfl
  have hcount : l'.registry.manager.rotationCount t.newDeviceId
      = l.registry.manager.rotationCount t.oldDeviceId + 1 := by
    rw [hman, Registry.recorded_rotationCount, if_pos rfl]
  have hmem : ∀ u, u ∈ l'.transitions ↔ u ∈ l.transitions ∨ u = t := by
    intro u
    rw [hnew, List.mem_append, List.mem_singleton]
  constructor
  · intro hrec'
    have hcurrent : l'.registry.manager.isRetired t.newDeviceId = false := by
      have hnone : l.lastFrom t.newDeviceId = none := by
        rw [lastFrom, List.getLast?_eq_none_iff, List.filter_eq_nil_iff]
        intro u hu
        simp only [decide_eq_true_eq]
        exact (hfresh u hu).2.1
      rw [hman, Registry.recorded_isRetired, if_neg hne, isRetired_eq_false, h.retired, hnone]
      rfl
    have hlength := (hrec' t.newDeviceId hcurrent).length
    rw [hhistory, hcount, List.length_singleton] at hlength
    rw [Registry.FromRoot]
    omega
  · intro hroot id hcurrent
    rw [hman, Registry.recorded_isRetired] at hcurrent
    by_cases hid : id = t.newDeviceId
    · -- One rotation, from an identity that none has led to.
      rw [hid]
      refine ⟨?_, ⟨t.oldDeviceId, fun u hu => ?_, ?_⟩, fun r hr => ?_⟩
      · rw [hhistory, hcount, show l.registry.manager.rotationCount t.oldDeviceId = 0 from hroot]
        rfl
      · rcases (hmem u).mp hu with hu | rfl
        · exact (h.counted _).mp hroot u hu
        · exact hne
      · rw [hhistory]
        exact ⟨rfl, rfl⟩
      · rw [hhistory, List.mem_singleton] at hr
        exact ⟨t, (hmem t).mpr (Or.inr rfl), hr⟩
    · have hold : id ≠ t.oldDeviceId := by
        intro heq
        rw [if_pos heq] at hcurrent
        exact Bool.false_ne_true hcurrent.symm
      rw [if_neg hold] at hcurrent
      have hsame : l'.registry.manager.rotationHistory id
          = l.registry.manager.rotationHistory id := by
        rw [hman, Registry.recorded_rotationHistory, if_neg hid]
      have hcomplete := hrec id hcurrent
      rcases hcomplete.linked with ⟨root, hnone, hlinked⟩
      refine ⟨?_, ⟨root, fun u hu => ?_, ?_⟩, fun r hr => ?_⟩
      · rw [hsame, hman, Registry.recorded_rotationCount, if_neg hid]
        exact hcomplete.length
      · rcases (hmem u).mp hu with hu | rfl
        · exact hnone u hu
        · -- The root is the identity itself, or was rotated, and so it is not new.
          cases hhist : l.registry.manager.rotationHistory id with
          | nil =>
              rw [hhist] at hlinked
              exact fun heq => hid (heq.trans hlinked).symm
          | cons r rs =>
              rw [hhist] at hlinked
              rcases hcomplete.accepted r (by rw [hhist]; exact List.mem_cons_self) with
                ⟨v, hv, rfl⟩
              exact fun heq => (hfresh v hv).2.1 (hlinked.1.trans heq.symm)
      · rw [hsame]
        exact hlinked
      · rw [hsame] at hr
        rcases hcomplete.accepted r hr with ⟨u, hu, heq⟩
        exact ⟨u, (hmem u).mpr (Or.inl hu), heq⟩

/-- When a step keeps the histories complete. -/
theorem recounts_step_iff (l : Ledger C) (a : RegistryAct) (h : l.Chronicled)
    (hfresh : l.registry.accepts a = true → a.OnTransition l.Fresh) (hrec : l.Recounts) :
    (l.step a).Recounts ↔ (l.registry.accepts a = true → a.OnTransition l.registry.FromRoot) := by
  rcases l.transitions_step a with ⟨hsame, hman, hnot⟩ | ⟨nowMs, t, old, rfl, hok, _, hnew, hman⟩
  · refine iff_of_true (fun id hcurrent => ?_) (hnot _)
    rw [hman] at hcurrent
    have hcomplete := hrec id hcurrent
    refine ⟨?_, ?_, ?_⟩
    · rw [hman]
      exact hcomplete.length
    · rw [hman, hsame]
      exact hcomplete.linked
    · rw [hman, hsame]
      exact hcomplete.accepted
  · simp only [hok, forall_const, RegistryAct.OnTransition] at hfresh ⊢
    exact l.recounts_recorded_iff _ t h hfresh hrec hnew hman

/-- Before any rotation every history is empty, and every identity a root. -/
theorem start_recounts (allowTofu : Bool) (minTrust : TrustLevel)
    (maxEndorsementDepth maxRotations : Int) :
    (start C allowTofu minTrust maxEndorsementDepth maxRotations).Recounts := by
  refine fun id _ => ⟨rfl, ⟨id, fun t ht => ?_, rfl⟩, fun r hr => ?_⟩
  · exact absurd ht List.not_mem_nil
  · exact absurd hr List.not_mem_nil

end Ledger

/-- In runs where no identity is rotated twice and every new identity is fresh,
    the history of every current identity is the whole chain, in every state of
    the run, exactly when no accepted transition is from an identity that a
    rotation has led to. -/
theorem history_complete_iff (C : Primitives) (allowTofu : Bool) (minTrust : TrustLevel)
    (maxEndorsementDepth maxRotations : Int) (acts : List RegistryAct)
    (hfresh : Along Ledger.step (fun l a => l.registry.accepts a = true → a.OnTransition l.Fresh)
      (Ledger.start C allowTofu minTrust maxEndorsementDepth maxRotations) acts) :
    Along Ledger.step (fun l a => l.registry.accepts a = true → a.OnTransition l.registry.FromRoot)
        (Ledger.start C allowTofu minTrust maxEndorsementDepth maxRotations) acts ↔
      ∀ k, ((acts.take k).foldl Ledger.step
        (Ledger.start C allowTofu minTrust maxEndorsementDepth maxRotations)).Recounts :=
  along_iff_forall_take_of Ledger.Chronicled Ledger.Recounts
    (fun l a h _ => l.chronicled_step a h) (fun l a h hf hrec => l.recounts_step_iff a h hf hrec)
    _ acts hfresh (Ledger.start_chronicled _ _ _ _) (Ledger.start_recounts _ _ _ _)

/-- Two devices rotate once each. -/
def rotatedOnceEach : List RegistryAct := [.add (Registry.toyIdentity 1) .tofu,
  .add (Registry.toyIdentity 2) .tofu, .applyTransition 9 (Registry.toyTransition 1 3 9),
  .applyTransition 9 (Registry.toyTransition 2 4 9)]

/-- Their histories have one record each. -/
theorem rotatedOnceEach_recounted :
    let l := (rotatedOnceEach.take 4).foldl Ledger.step (Ledger.start toyPrimitives true .tofu 3 10)
    (l.registry.manager.rotationHistory (Registry.toyIdentity 3)).length = 1 ∧
      (l.registry.manager.rotationHistory (Registry.toyIdentity 4)).length = 1 ∧ l.Recounts := by
  intro l
  have hrun : (l.registry.manager.rotationHistory (Registry.toyIdentity 3)).length = 1 ∧
      (l.registry.manager.rotationHistory (Registry.toyIdentity 4)).length = 1 := by
    decide +kernel
  exact ⟨hrun.1, hrun.2, (history_complete_iff toyPrimitives true .tofu 3 10 rotatedOnceEach
    (by decide +kernel)).mp (by decide +kernel) 4⟩

/-- One device rotates twice. -/
def rotatedOnAndOn : List RegistryAct := [.add (Registry.toyIdentity 1) .tofu,
  .applyTransition 9 (Registry.toyTransition 1 2 9),
  .applyTransition 10 (Registry.toyTransition 2 3 10)]

/-- Its count is two, and its history has one record, which does not start at
    the first identity. -/
theorem second_rotation_forgets :
    let l := rotatedOnAndOn.foldl Ledger.step (Ledger.start toyPrimitives true .tofu 3 10)
    Along Ledger.step (fun l a => l.registry.accepts a = true → a.OnTransition l.Fresh)
        (Ledger.start toyPrimitives true .tofu 3 10) rotatedOnAndOn ∧
      l.registry.manager.isRetired (Registry.toyIdentity 3) = false ∧
      l.registry.manager.rotationCount (Registry.toyIdentity 3) = 2 ∧
      l.registry.manager.rotationHistory (Registry.toyIdentity 3)
        = [⟨Registry.toyIdentity 2, Registry.toyIdentity 3, 10⟩] ∧ ¬ l.Recounts := by
  intro l
  have hrun : Along Ledger.step (fun l a => l.registry.accepts a = true → a.OnTransition l.Fresh)
        (Ledger.start toyPrimitives true .tofu 3 10) rotatedOnAndOn ∧
      l.registry.manager.isRetired (Registry.toyIdentity 3) = false ∧
      l.registry.manager.rotationCount (Registry.toyIdentity 3) = 2 ∧
      l.registry.manager.rotationHistory (Registry.toyIdentity 3)
        = [⟨Registry.toyIdentity 2, Registry.toyIdentity 3, 10⟩] := by
    decide +kernel
  rcases hrun with ⟨hfresh, hcurrent, hcount, hhistory⟩
  refine ⟨hfresh, hcurrent, hcount, hhistory, fun hrec => ?_⟩
  have hlength := (hrec _ hcurrent).length
  rw [hcount, hhistory, List.length_singleton] at hlength
  omega

end Ztlnp

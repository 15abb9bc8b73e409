import Ztlnp.Theory.Registry

/-!
# The Record of Rotations

What the tables of the rotation manager say about the transitions that were
accepted.

Every table is a reading of the list of accepted transitions. The successor of
an identity and its last time are those of the latest transition from it, its
history is what led to it, and its count is zero if nothing did. `Chronicled`
is that correspondence, and it holds in every run, whatever is refused in
between.

The time of a transition is compared with the last one from the same identity,
so the times from one identity ascend and no body is accepted twice. The table
of times is keyed by the old identity and is not carried over to the new one,
as the count is. A device that has rotated has no last time under its new
identity, and its next transition may bear any time that is not in the future.
The times along a chain ascend exactly when the transitions themselves see to
it.

## Main definitions

* `Ledger.lastFrom`: The latest transition from an identity.
* `KeyTransition.record`: What the history keeps of a transition.
* `Ledger.Chronicled`: The tables are a reading of the accepted transitions.
* `Ledger.Ascends`: The times along every chain ascend.
* `Registry.Newer`: A transition is newer than what led to its old identity.

## Theorems

* `chronicled_step`: Every step keeps the tables.
* `run_chronicled`: So does a run.
* `transition_accepted_once`: The times from one identity ascend, and no body
  is accepted twice.
* `chain_times_ascend_iff`: When the times along chains do.
-/

namespace Ztlnp

variable {C : Primitives}

/-- What the history keeps of a transition. -/
def KeyTransition.record (t : KeyTransition) : RotationRecord :=
  ⟨t.oldDeviceId, t.newDeviceId, t.timestampMs⟩

namespace Registry

theorem recorded_lastTimestamp (m : RotationManager) (t : KeyTransition) (id : Bytes) :
    (recorded m t).lastTimestamp id =
      if id = t.oldDeviceId then t.timestampMs else m.lastTimestamp id := by
  simp only [recorded, RotationManager.lastTimestamp, Dict.get?_set]
  by_cases hid : id = t.oldDeviceId
  · rw [if_pos hid, if_pos hid]
    rfl
  · rw [if_neg hid, if_neg hid]

theorem recorded_rotationHistory (m : RotationManager) (t : KeyTransition) (id : Bytes) :
    (recorded m t).rotationHistory id =
      if id = t.newDeviceId then m.rotationHistory id ++ [t.record]
      else m.rotationHistory id := by
  simp only [recorded, RotationManager.rotationHistory, Dict.get?_set]
  by_cases hid : id = t.newDeviceId
  · rw [if_pos hid, if_pos hid, hid]
    rfl
  · rw [if_neg hid, if_neg hid]

end Registry

namespace Ledger

/-- The latest accepted transition from an identity. -/
def lastFrom (l : Ledger C) (id : Bytes) : Option KeyTransition :=
  (l.transitions.filter (fun t => t.oldDeviceId = id)).getLast?

/-- The tables of the manager are a reading of the accepted transitions. -/
structure Chronicled (l : Ledger C) : Prop where
  retired : ∀ id, l.registry.manager.retired.get? id
    = (l.lastFrom id).map KeyTransition.newDeviceId
  lastTs : ∀ id, l.registry.manager.lastTs.get? id
    = (l.lastFrom id).map KeyTransition.timestampMs
  history : ∀ id, l.registry.manager.rotationHistory id
    = (l.transitions.filter (fun t => t.newDeviceId = id)).map KeyTransition.record
  counted : ∀ id, l.registry.manager.rotationCount id = 0 ↔
    ∀ t ∈ l.transitions, t.newDeviceId ≠ id
  /-- No transition is later than the last one from its identity. -/
  past : ∀ t ∈ l.transitions, t.timestampMs ≤ l.registry.manager.lastTimestamp t.oldDeviceId
  /-- The time of a transition fits its field. -/
  packed : ∀ t ∈ l.transitions, 0 ≤ t.timestampMs ∧ t.timestampMs.toNat < 256 ^ 8

theorem lastFrom_concat (l l' : Ledger C) (t : KeyTransition)
    (h : l'.transitions = l.transitions ++ [t]) (id : Bytes) :
    l'.lastFrom id = if id = t.oldDeviceId then some t else l.lastFrom id := by
  rw [lastFrom, lastFrom, h, List.filter_append]
  by_cases hid : id = t.oldDeviceId
  · rw [if_pos hid, List.filter_singleton, decide_eq_true hid.symm, Bool.cond_true,
      List.getLast?_concat]
  · rw [if_neg hid, List.filter_singleton, decide_eq_false (Ne.symm hid), Bool.cond_false,
      List.append_nil]

/-- An accepted transition is entered into every table where it belongs. -/
theorem chronicled_step (l : Ledger C) (a : RegistryAct) (h : l.Chronicled) :
    (l.step a).Chronicled := by
  rcases l.transitions_step a with ⟨hsame, hman, _⟩ | ⟨nowMs, t, old, _, _, ht, hnew, hman⟩
  · -- Nothing was recorded, so each last transition is the one before.
    have hlast : ∀ id, (l.step a).lastFrom id = l.lastFrom id := by
      intro id
      rw [lastFrom, lastFrom, hsame]
    refine ⟨?_, ?_, ?_, ?_, ?_, ?_⟩
    · simp only [hman, hlast]
      exact h.retired
    · simp only [hman, hlast]
      exact h.lastTs
    · simp only [hman, hsame]
      exact h.history
    · simp only [hman, hsame]
      exact h.counted
    · simp only [hman, hsame]
      exact h.past
    · simp only [hsame]
      exact h.packed
  · have hlast := l.lastFrom_concat (l.step a) t hnew
    have hmem : ∀ u, u ∈ (l.step a).transitions ↔ u ∈ l.transitions ∨ u = t := by
      intro u
      rw [hnew, List.mem_append, List.mem_singleton]
    -- One transition is recorded, and each clause is the manager's own update at its two ids.
    refine ⟨fun id => ?_, fun id => ?_, fun id => ?_, fun id => ?_, fun u hu => ?_, fun u hu => ?_⟩
    · rw [hlast, hman, Registry.recorded]
      simp only [Dict.get?_set, h.retired]
      split <;> rfl
    · rw [hlast, hman, Registry.recorded]
      simp only [Dict.get?_set, h.lastTs]
      split <;> rfl
    · -- The history of an id takes the transition that leads to it.
      rw [hman, Registry.recorded_rotationHistory, h.history, hnew, List.filter_append,
        List.filter_singleton]
      by_cases hid : id = t.newDeviceId
      · rw [if_pos hid, decide_eq_true hid.symm, Bool.cond_true, List.map_append]
        rfl
      · rw [if_neg hid, decide_eq_false (Ne.symm hid), Bool.cond_false, List.append_nil]
    · -- A count is nonzero as soon as one transition led there.
      simp only [hman, Registry.recorded_rotationCount, hmem]
      by_cases hid : id = t.newDeviceId
      · rw [if_pos hid]
        exact iff_of_false (Nat.succ_ne_zero _) (fun hnone => hnone t (Or.inr rfl) hid.symm)
      · rw [if_neg hid, h.counted]
        refine ⟨fun hnone u hu => ?_, fun hnone u hu => hnone u (Or.inl hu)⟩
        rcases hu with hu | rfl
        · exact hnone u hu
        · exact Ne.symm hid
    · rw [hman, Registry.recorded_lastTimestamp]
      rcases (hmem u).mp hu with hu | rfl
      · -- Its time is above the last one of the same old id, as the manager checked.
        have hle := h.past u hu
        by_cases hid : u.oldDeviceId = t.oldDeviceId
        · rw [if_pos hid]
          rw [hid] at hle
          exact hle.trans ht.2.2.2.1.le
        · rw [if_neg hid]
          exact hle
      · rw [if_pos rfl]
    · rcases (hmem u).mp hu with hu | rfl
      · exact h.packed u hu
      · exact ht.2.2.2.2.1

/-- A registry before any call, with nothing in its log. -/
def start (C : Primitives) (allowTofu : Bool) (minTrust : TrustLevel)
    (maxEndorsementDepth maxRotations : Int) : Ledger C :=
  ⟨Registry.create C allowTofu minTrust maxEndorsementDepth maxRotations, []⟩

section Running

variable (allowTofu : Bool) (minTrust : TrustLevel) (maxEndorsementDepth maxRotations : Int)

theorem start_chronicled :
    (start C allowTofu minTrust maxEndorsementDepth maxRotations).Chronicled := by
  refine ⟨fun _ => rfl, fun _ => rfl, fun _ => rfl, fun _ => ?_, fun t ht => ?_, fun t ht => ?_⟩
  · exact iff_of_true rfl (fun t ht => absurd ht List.not_mem_nil)
  · exact absurd ht List.not_mem_nil
  · exact absurd ht List.not_mem_nil

/-- The tables are a reading of the accepted transitions in every run. -/
theorem run_chronicled (acts : List RegistryAct) :
    (acts.foldl step (start C allowTofu minTrust maxEndorsementDepth maxRotations)).Chronicled :=
  along_invariant Chronicled (fun l a h _ => chronicled_step l a h) _ acts
    (start_chronicled allowTofu minTrust maxEndorsementDepth maxRotations) (along_true _ acts)

end Running

/-- The times of the transitions from one identity ascend. -/
def Rising (l : Ledger C) : Prop :=
  l.transitions.Pairwise (fun t u => t.oldDeviceId = u.oldDeviceId → t.timestampMs < u.timestampMs)

/-- A transition is newer than all earlier ones from its identity. -/
theorem rising_step (l : Ledger C) (a : RegistryAct) (h : l.Chronicled) (hr : l.Rising) :
    (l.step a).Rising := by
  rcases l.transitions_step a with ⟨hsame, _, _⟩ | ⟨nowMs, t, old, _, _, ht, hnew, _⟩
  · rw [Rising, hsame]
    exact hr
  · rw [Rising, hnew]
    refine List.pairwise_append.mpr ⟨hr, List.pairwise_singleton _ _, fun u hu v hv hid => ?_⟩
    rw [List.mem_singleton] at hv
    rw [hv] at hid ⊢
    have hle := h.past u hu
    rw [hid] at hle
    exact hle.trans_lt ht.2.2.2.1

/-- A body determines whose transition it is and of when. -/
theorem eq_of_bodyBytes (t u : KeyTransition) (b : Bytes) (ht : t.bodyBytes = .ok b)
    (hu : u.bodyBytes = .ok b) :
    t.oldDeviceId = u.oldDeviceId ∧ t.timestampMs = u.timestampMs := by
  rcases (Registry.bodyBytes_eq_ok t b).mp ht with ⟨htnn, htlt, htb⟩
  rcases (Registry.bodyBytes_eq_ok u b).mp hu with ⟨hunn, hult, hub⟩
  rw [htb] at hub
  rcases Registry.signedBody_fields t with ⟨htold, _, _, httim⟩
  rcases Registry.signedBody_fields u with ⟨huold, _, _, hutim⟩
  rw [hub] at htold httim
  refine ⟨htold.symm.trans huold, ?_⟩
  have hnat : t.timestampMs.toNat = u.timestampMs.toNat := by
    rw [← beDecode_beEncode 8 _ htlt, ← beDecode_beEncode 8 _ hult, ← httim, hutim]
  omega

end Ledger

/-- In every run, with any clock readings and whatever else is called or
    refused, the times of the accepted transitions from one identity ascend, and
    no body is accepted twice. -/
theorem transition_accepted_once (C : Primitives) (allowTofu : Bool) (minTrust : TrustLevel)
    (maxEndorsementDepth maxRotations : Int) (acts : List RegistryAct) :
    let l := acts.foldl Ledger.step
      (Ledger.start C allowTofu minTrust maxEndorsementDepth maxRotations)
    l.transitions.Pairwise (fun t u =>
      t.oldDeviceId = u.oldDeviceId → t.timestampMs < u.timestampMs) ∧
    (l.transitions.map KeyTransition.bodyBytes).Nodup := by
  intro l
  have h : l.Chronicled ∧ l.Rising := by
    exact along_invariant (fun l : Ledger C => l.Chronicled ∧ l.Rising)
      (fun l a h _ => ⟨l.chronicled_step a h.1, l.rising_step a h.1 h.2⟩) _ acts
      ⟨Ledger.start_chronicled _ _ _ _, List.Pairwise.nil⟩ (along_true _ acts)
  refine ⟨h.2, ?_⟩
  -- Equal bodies would be of the same identity and of the same time.
  refine List.pairwise_map.mpr (h.2.imp_of_mem (fun {t u} ht hu hlt heq => ?_))
  have hbody := (Registry.bodyBytes_eq_ok t _).mpr
    ⟨(h.1.packed t ht).1, (h.1.packed t ht).2, rfl⟩
  rcases Ledger.eq_of_bodyBytes t u _ hbody (heq ▸ hbody) with ⟨hid, htime⟩
  have hlt' := hlt hid
  omega

/-- The times along every chain of accepted transitions ascend. -/
def Ledger.Ascends (l : Ledger C) : Prop :=
  l.transitions.Pairwise (fun t u => t.newDeviceId = u.oldDeviceId → t.timestampMs < u.timestampMs)

instance (l : Ledger C) : Decidable l.Ascends := inferInstanceAs (Decidable (List.Pairwise _ _))

/-- A transition is newer than every rotation to its old identity that the
    history has. -/
def Registry.Newer (g : Registry C) (t : KeyTransition) : Prop :=
  ∀ r ∈ g.manager.rotationHistory t.oldDeviceId, r.timestampMs < t.timestampMs

instance (g : Registry C) (t : KeyTransition) : Decidable (g.Newer t) :=
  inferInstanceAs (Decidable (∀ r ∈ _, _))

/-- When a step keeps the times along chains in order. -/
theorem Ledger.ascends_step_iff (l : Ledger C) (a : RegistryAct) (h : l.Chronicled)
    (hasc : l.Ascends) :
    (l.step a).Ascends ↔ (l.registry.accepts a = true → a.OnTransition l.registry.Newer) := by
  rcases l.transitions_step a with ⟨hsame, _, hnot⟩ | ⟨nowMs, t, old, rfl, hok, _, hnew, _⟩
  · rw [Ascends, hsame]
    exact iff_of_true hasc (hnot _)
  · have hnewer : l.registry.Newer t ↔
        ∀ u ∈ l.transitions, u.newDeviceId = t.oldDeviceId → u.timestampMs < t.timestampMs := by
      simp only [Registry.Newer, h.history, List.forall_mem_map, List.mem_filter,
        decide_eq_true_eq, and_imp]
      rfl
    rw [Ascends, hnew, List.pairwise_append]
    simp only [List.pairwise_singleton, List.forall_mem_singleton, true_and, hok, forall_const,
      RegistryAct.OnTransition]
    rw [hnewer]
    exact ⟨fun hboth => hboth.2, fun hlt => ⟨hasc, hlt⟩⟩

/-- The times along every chain of rotations ascend, in every state of a run,
    exactly when every accepted transition is newer than what the history has of
    its old identity. -/
theorem chain_times_ascend_iff (C : Primitives) (allowTofu : Bool) (minTrust : TrustLevel)
    (maxEndorsementDepth maxRotations : Int) (acts : List RegistryAct) :
    Along Ledger.step (fun l a => l.registry.accepts a = true → a.OnTransition l.registry.Newer)
        (Ledger.start C allowTofu minTrust maxEndorsementDepth maxRotations) acts ↔
      ∀ k, ((acts.take k).foldl Ledger.step
        (Ledger.start C allowTofu minTrust maxEndorsementDepth maxRotations)).Ascends :=
  along_iff_forall_take Ledger.Chronicled Ledger.Ascends Ledger.chronicled_step
    Ledger.ascends_step_iff _ acts (Ledger.start_chronicled _ _ _ _) List.Pairwise.nil

/-- A device rotates twice, and dates the second rotation before the first. -/
def rotatedBackdated : List RegistryAct := [.add (Registry.toyIdentity 1) .tofu,
  .applyTransition 10 (Registry.toyTransition 1 2 10),
  .applyTransition 10 (Registry.toyTransition 2 3 5)]

/-- Both are accepted. -/
theorem backdated_rotation_accepted :
    let l := rotatedBackdated.foldl Ledger.step (Ledger.start toyPrimitives true .tofu 3 10)
    l.transitions = [Registry.toyTransition 1 2 10, Registry.toyTransition 2 3 5] ∧
      ¬ l.Ascends := by
  decide +kernel

end Ztlnp

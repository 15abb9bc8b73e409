import Ztlnp.Theory.Chronicle
import Ztlnp.Theory.Provenance

/-!
# Migration

What a key transition does to the trust store and to the rotation manager.

A transition passes five checks, each against another table, and is then
written to all of them. It is all or nothing: a transition that fails a check
leaves no trace, and one that passes moves the standing of the old record to
the new identity. The new identity may be unknown, known already, retired
before, or the old one itself. The record it ends with is the same in all
cases: the new key, the higher of the two levels, and the endorsers of both.

An endorser is appended to a record only if it is not there, by an endorsement
and by a transition alike, so no record ever names one twice. That is what
keeps the list of endorsers a set after two of them are joined.

## Main definitions

* `TrustStore.NamesOnce`: No record names an endorser twice.
* `RotationManager.AgreesAt`: The tables say the same about an identity.
* `Registry.Migrated`: What an accepted transition leaves behind.

## Theorems

* `mem_carryOver`, `nodup_carryOver`: The joined endorsers.
* `Registry.Change.namesOnce`: Every step keeps endorsers distinct.
* `applyTransition_all_or_nothing`: When a transition is accepted, and what
  either outcome leaves.
-/

namespace Ztlnp

variable {C : Primitives}

/-- An endorser that is appended unless it is there. -/
theorem mem_concat_unless (es : List Bytes) (e x : Bytes) :
    x ∈ (if e ∈ es then es else es ++ [e]) ↔ x = e ∨ x ∈ es := by
  by_cases h : e ∈ es
  · rw [if_pos h]
    refine ⟨Or.inr, fun hx => ?_⟩
    rcases hx with rfl | hx
    · exact h
    · exact hx
  · rw [if_neg h, List.mem_append, List.mem_singleton, or_comm]

theorem nodup_concat_unless (es : List Bytes) (e : Bytes) (hes : es.Nodup) :
    (if e ∈ es then es else es ++ [e]).Nodup := by
  by_cases h : e ∈ es
  · rw [if_pos h]
    exact hes
  · rw [if_neg h]
    rw [← List.concat_eq_append]
    exact hes.concat h

/-- The endorsers that were carried over and those that were there. -/
theorem mem_carryOver (old new : List Bytes) (x : Bytes) :
    x ∈ carryOver old new ↔ x ∈ old ∨ x ∈ new := by
  unfold carryOver
  induction old generalizing new with
  | nil => simp only [List.foldl_nil, List.not_mem_nil, false_or]
  | cons e es ih =>
      rw [List.foldl_cons, ih, mem_concat_unless, List.mem_cons]
      tauto

/-- Carrying over repeats no endorser, whatever is carried. -/
theorem nodup_carryOver (old new : List Bytes) (hnew : new.Nodup) : (carryOver old new).Nodup := by
  unfold carryOver
  induction old generalizing new with
  | nil => exact hnew
  | cons e es ih => exact ih _ (nodup_concat_unless new e hnew)

namespace TrustStore

/-- No record names an endorser twice. -/
def NamesOnce (s : TrustStore C) : Prop :=
  ∀ id r, s.get id = some r → r.endorsers.Nodup

theorem namesOnce_put (s : TrustStore C) (r : TrustRecord C) (h : s.NamesOnce)
    (hr : r.endorsers.Nodup) : (s.put r).NamesOnce := by
  intro id r' hget
  rw [get_put] at hget
  by_cases hid : id = r.deviceId
  · rw [if_pos hid, Option.some.injEq] at hget
    rw [← hget]
    exact hr
  · rw [if_neg hid] at hget
    exact h id r' hget

/-- The record of an added key has the endorsers it had. -/
theorem endorsers_upsert (s : TrustStore C) (pub : Bytes) (level : TrustLevel)
    (r : TrustRecord C) (hr : s.upsert pub level = some r) :
    r.endorsers = ((s.get (C.sha256 pub)).map TrustRecord.endorsers).getD [] := by
  rcases (s.upsert_cases pub level r hr).2 with ⟨old, hold, heq⟩ | ⟨hnone, _, _, heq, _⟩
  · rw [hold, heq]
    rfl
  · rw [hnone, heq]
    rfl

/-- The record of an added key has that key, if no other stored key has its
    digest. -/
theorem key_upsert (s : TrustStore C) (pub : Bytes) (level : TrustLevel) (r : TrustRecord C)
    (hr : s.upsert pub level = some r)
    (hkey : ∀ old, s.get (C.sha256 pub) = some old → old.ed25519Public = pub) :
    r.ed25519Public = pub := by
  rcases (s.upsert_cases pub level r hr).2 with ⟨old, hold, heq⟩ | ⟨_, heq, _⟩
  · rw [heq]
    exact hkey old hold
  · exact heq

theorem nodup_upsert (s : TrustStore C) (pub : Bytes) (level : TrustLevel) (r : TrustRecord C)
    (h : s.NamesOnce) (hr : s.upsert pub level = some r) : r.endorsers.Nodup := by
  rw [s.endorsers_upsert pub level r hr]
  cases hget : s.get (C.sha256 pub) with
  | none => exact List.nodup_nil
  | some old => exact h _ old hget

end TrustStore

/-- Every step keeps the endorsers of a record distinct. -/
theorem Registry.Change.namesOnce {g g' : Registry C} {a : RegistryAct} {ok : Bool}
    (h : Change g a ok g') (hone : g.store.NamesOnce) : g'.store.NamesOnce := by
  cases h with
  | refused => exact hone
  | added pub level r hr =>
      exact g.store.namesOnce_put r hone (g.store.nodup_upsert pub level r hone hr)
  | recognised => exact hone
  | greeted sender pub r _ hr =>
      exact g.store.namesOnce_put r hone (g.store.nodup_upsert pub .tofu r hone hr)
  | confirmed id fingerprint old hold _ => exact g.store.namesOnce_put _ hone (hone id old hold)
  | endorsed blob id e r _ hr =>
      exact g.store.namesOnce_put _ hone
        (nodup_concat_unless r.endorsers id (g.store.nodup_upsert _ _ r hone hr))
  | distrusted => exact hone
  | pardoned => exact hone
  | rotated nowMs t old new _ hnew =>
      exact g.store.namesOnce_put _ hone
        (nodup_carryOver old.endorsers new.endorsers (g.store.nodup_upsert _ _ new hone hnew))

/-- No record names an endorser twice, in every run. -/
theorem Ledger.run_namesOnce (C : Primitives) (allowTofu : Bool) (minTrust : TrustLevel)
    (maxEndorsementDepth maxRotations : Int) (acts : List RegistryAct) :
    (acts.foldl Ledger.step (Ledger.start C allowTofu minTrust maxEndorsementDepth
      maxRotations)).registry.store.NamesOnce := by
  refine along_invariant (fun l : Ledger C => l.registry.store.NamesOnce)
    (fun l a h _ => (l.registry.step_change a).namesOnce h) _ acts ?_ (along_true _ acts)
  intro id r hr
  simp only [Ledger.start, Registry.create, TrustStore.get, Dict.get?_empty, reduceCtorEq] at hr

/-- The tables of two managers say the same about an identity. -/
structure RotationManager.AgreesAt (m m' : RotationManager) (id : Bytes) : Prop where
  retired : m'.retired.get? id = m.retired.get? id
  lastTs : m'.lastTs.get? id = m.lastTs.get? id
  rotationCounts : m'.rotationCounts.get? id = m.rotationCounts.get? id
  history : m'.history.get? id = m.history.get? id

namespace Registry

/-- What an accepted transition leaves behind, given the record of its old
    identity. -/
structure Migrated (g g' : Registry C) (t : KeyTransition) (old : TrustRecord C) : Prop where
  record : ∃ new, g'.store.get t.newDeviceId = some new ∧
    new.ed25519Public = t.newEd25519Public ∧
    new.trustLevel = ((g.store.get t.newDeviceId).map
      (fun prev => max prev.trustLevel old.trustLevel)).getD old.trustLevel ∧
    new.endorsers.Nodup ∧ ∀ e, e ∈ new.endorsers ↔ e ∈ old.endorsers ∨
      ∃ prev, g.store.get t.newDeviceId = some prev ∧ e ∈ prev.endorsers
  records : ∀ id, id ≠ t.newDeviceId → g'.store.get id = g.store.get id
  blacklist : g'.store.blacklist = g.store.blacklist
  tables : ∀ id, id ≠ t.oldDeviceId → id ≠ t.newDeviceId → g.manager.AgreesAt g'.manager id

/-- A transition is recorded under its two identities only. -/
theorem recorded_agreesAt (m : RotationManager) (t : KeyTransition) (id : Bytes)
    (hold : id ≠ t.oldDeviceId) (hnew : id ≠ t.newDeviceId) : m.AgreesAt (recorded m t) id := by
  refine ⟨?_, ?_, ?_, ?_⟩
  · rw [recorded, Dict.get?_set, if_neg hold]
  · rw [recorded, Dict.get?_set, if_neg hold]
  · rw [recorded, Dict.get?_set, if_neg hnew]
  · rw [recorded, Dict.get?_set, if_neg hnew]

/-- The registry an accepted transition leaves is a migrated one. -/
theorem migrated_of_transits (g : Registry C) (nowMs : Nat) (t : KeyTransition)
    (old new : TrustRecord C) (hone : g.store.NamesOnce) (ht : g.Transits nowMs t old)
    (hnew : g.store.upsert t.newEd25519Public old.trustLevel = some new)
    (hkey : ∀ prev, g.store.get t.newDeviceId = some prev →
      prev.ed25519Public = t.newEd25519Public) :
    Migrated g (g.migrated t old new) t old := by
  -- The new identity is filed under the hash of its key, which the transition names.
  have hfiled : new.deviceId = t.newDeviceId := by
    rw [ht.2.1]
    exact (g.store.upsert_cases _ _ new hnew).1
  have hendorsers := g.store.endorsers_upsert _ _ new hnew
  rw [← ht.2.1] at hendorsers
  refine ⟨⟨{ new with endorsers := carryOver old.endorsers new.endorsers }, ?_, ?_, ?_, ?_, ?_⟩,
    fun id hid => ?_, rfl, fun id => recorded_agreesAt g.manager t id⟩
  · rw [migrated, TrustStore.get_put, if_pos hfiled.symm]
  · rw [ht.2.1] at hkey
    exact g.store.key_upsert _ _ new hnew hkey
  · rw [ht.2.1]
    -- The level is the higher of the two, or the old one's where nothing was stored.
    rcases (g.store.upsert_cases _ _ new hnew).2 with ⟨prev, hprev, heq⟩ | ⟨hnone, _, heq, _⟩
    · rw [hprev, heq]
      rfl
    · rw [hnone]
      exact heq
  · exact nodup_carryOver _ _ (g.store.nodup_upsert _ _ new hone hnew)
  · intro e
    rw [mem_carryOver, hendorsers]
    cases g.store.get t.newDeviceId with
    | none => simp only [Option.map_none, Option.getD_none, List.not_mem_nil, reduceCtorEq,
        false_and, exists_false]
    | some prev => simp only [Option.map_some, Option.getD_some, Option.some.injEq,
        exists_eq_left']
  · rw [migrated, TrustStore.get_put, if_neg (fun heq => hid (heq.trans hfiled))]

end Registry

namespace Ledger

/-- A transition that passes every check: its old identity is known, its new one
    is the digest of its new key, it is newer than the last accepted one from
    its identity and not in the future, the old key signed its body, and its
    chain is within the budget. -/
def Eligible (l : Ledger C) (nowMs : Nat) (t : KeyTransition) (old : TrustRecord C) : Prop :=
  l.registry.store.get t.oldDeviceId = some old ∧
    t.newDeviceId = C.sha256 t.newEd25519Public ∧
    ((l.lastFrom t.oldDeviceId).map KeyTransition.timestampMs).getD 0 < t.timestampMs ∧
    t.timestampMs ≤ nowMs + 30000 ∧
    (∃ body, t.bodyBytes = .ok body ∧
      C.ed25519Verify old.ed25519Public body t.signature = true) ∧
    (l.registry.manager.rotationCount t.oldDeviceId : Int) < l.registry.manager.maxRotations

/-- The checks of the manager are these, once its table of times is read as the
    last accepted transitions. -/
theorem transits_iff_eligible (l : Ledger C) (h : l.Chronicled) (nowMs : Nat) (t : KeyTransition)
    (old : TrustRecord C) : l.registry.Transits nowMs t old ↔ l.Eligible nowMs t old := by
  have hlast : l.registry.manager.lastTimestamp t.oldDeviceId
      = ((l.lastFrom t.oldDeviceId).map KeyTransition.timestampMs).getD 0 := by
    rw [RotationManager.lastTimestamp, h.lastTs]
  rw [Registry.Transits, Eligible, hlast]
  simp only [Registry.bodyBytes_eq_ok]
  constructor
  · intro ht
    rcases ht with ⟨hget, hid, hfuture, hnewer, hfits, hsig, hcount⟩
    exact ⟨hget, hid, hnewer, hfuture, ⟨_, ⟨hfits.1, hfits.2, rfl⟩, hsig⟩, hcount⟩
  · intro ht
    rcases ht with ⟨hget, hid, hnewer, hfuture, ⟨body, ⟨hnn, hlt, rfl⟩, hsig⟩, hcount⟩
    exact ⟨hget, hid, hfuture, hnewer, ⟨hnn, hlt⟩, hsig, hcount⟩

end Ledger

/-- In every state of every run, a transition is accepted exactly when it passes
    every check. A refused one leaves everything as it was, and an accepted one
    migrates the record and does nothing else. -/
theorem applyTransition_all_or_nothing (C : Primitives) (allowTofu : Bool) (minTrust : TrustLevel)
    (maxEndorsementDepth maxRotations : Int) (acts : List RegistryAct) (nowMs : Nat)
    (t : KeyTransition) (hfree : Ledger.CollisionFree C
      (t.newEd25519Public :: acts.filterMap RegistryAct.key)) :
    let l := acts.foldl Ledger.step
      (Ledger.start C allowTofu minTrust maxEndorsementDepth maxRotations)
    let result := (Registry.applyTransition nowMs t).run l.registry
    (result.returned = some () ↔ ∃ old, l.Eligible nowMs t old) ∧
    (result.returned = none → result.final = l.registry) ∧
    (result.returned = some () → ∃ old, l.registry.store.get t.oldDeviceId = some old ∧
      Registry.Migrated l.registry result.final t old) := by
  intro l result
  have helig := l.transits_iff_eligible (Ledger.run_chronicled _ _ _ _ acts) nowMs t
  rcases l.registry.applyTransition_cases nowMs t with ⟨hno, exn, hrun⟩ | ⟨old, new, ht, hnew, hrun⟩
  · have hresult : result = .error exn l.registry := hrun
    rw [hresult]
    refine ⟨iff_of_false (fun hret => ?_) (fun hall => ?_), fun _ => rfl, fun hret => ?_⟩
    · simp only [EStateM.Result.returned, reduceCtorEq] at hret
    · rcases hall with ⟨old, hold⟩
      exact hno old ((helig old).mpr hold)
    · simp only [EStateM.Result.returned, reduceCtorEq] at hret
  · have hresult : result = .ok () (l.registry.migrated t old new) := hrun
    rw [hresult]
    refine ⟨iff_of_true rfl ⟨old, (helig old).mp ht⟩, fun hret => ?_, fun _ => ⟨old, ht.1, ?_⟩⟩
    · simp only [EStateM.Result.returned, reduceCtorEq] at hret
    · refine l.registry.migrated_of_transits nowMs t old new (Ledger.run_namesOnce _ _ _ _ _ acts)
        ht hnew (fun prev hprev => ?_)
      -- A record that was under the new identity has the new key.
      rw [ht.2.1, show l.registry = _ from Ledger.run_registry _ acts] at hprev
      exact hfree.stored_eq _ _ _ _ prev hprev

/-- Two devices that are endorsed by different ones. -/
def endorsedApart : List RegistryAct := [.add (Registry.toyIdentity 1) .verified,
  .add (Registry.toyIdentity 3) .verified,
  .addEndorsement (Registry.toyEndorsement 1 2) (Registry.toyIdentity 1),
  .addEndorsement (Registry.toyEndorsement 3 4) (Registry.toyIdentity 3)]

/-- The one rotates to the other, and both endorsers stay. -/
theorem endorsedApart_joined :
    let l := endorsedApart.foldl Ledger.step (Ledger.start toyPrimitives true .tofu 3 10)
    let result := (Registry.applyTransition 9 (Registry.toyTransition 2 4 9)).run l.registry
    (result.final.store.get (Registry.toyIdentity 4)).map TrustRecord.endorsers
        = some [Registry.toyIdentity 3, Registry.toyIdentity 1] ∧
      ∃ old, l.registry.store.get (Registry.toyIdentity 2) = some old ∧
        Registry.Migrated l.registry result.final (Registry.toyTransition 2 4 9) old := by
  intro l result
  have hrun : (result.final.store.get (Registry.toyIdentity 4)).map TrustRecord.endorsers
        = some [Registry.toyIdentity 3, Registry.toyIdentity 1] ∧ result.returned = some () := by
    decide +kernel
  exact ⟨hrun.1, (applyTransition_all_or_nothing toyPrimitives true .tofu 3 10 endorsedApart 9
    (Registry.toyTransition 2 4 9) (by decide +kernel)).2.2 hrun.2⟩

end Ztlnp

import Ztlnp.Lib.Lineage
import Ztlnp.Theory.Registry

/-!
# The Provenance of Trust

Where a record's standing comes from.

`Standing` says once how a record can be at `VERIFIED` or above after a step:
it was before, or an operator put it there, or an endorsement or a transition
was accepted for it whose signer was there itself. Both results about whole
runs are read off this one list.

Every record of that standing is the end of a chain of signed statements that
starts at an operator's decision (`trust_provenance`). The chain itself is
always there; its length is not bounded. An endorsement counts one more than
its endorser, but a rotation hands the standing to a record that keeps a depth
of its own, and a new record starts at zero. So the depth limit bounds the
endorsements of a chain in runs where no rotation moves an endorsed standing
to a record that did not have it (`endorsement_depth_bounded`).

## Main definitions

* `RegistryAct.verifies`: An operator's call that verifies an identity.
* `RegistryAct.key`: The key a call brings in.
* `Standing`: How a record comes to be verified.
* `Ledger.OperatorVerified`: A record that an operator verified.
* `Ledger.Signed`: A stored key that signed for another stored key.
* `Ledger.Endorsement`, `Ledger.Rotation`: The accepted vouchers as edges.
* `Registry.KeepsDepth`: A transition that loses no endorsement depth.

## Theorems

* `Registry.Change.standing`: Every verified record has one of the listed origins.
* `Registry.Change.written`: Where the key and the depth of a record come from.
* `Registry.Change.key_mem`, `Registry.Change.depth_le`: What this means for each of them.
* `Registry.run_keys`: Every stored key was brought in by a call.
* `Ledger.trust_provenance`: Every verified record has a signed chain.
* `Ledger.endorsement_depth_bounded`: When the chain is within the limit.
-/

namespace Ztlnp

/-- A call by which an operator verifies an identity. -/
def RegistryAct.verifies (C : Primitives) (id : Bytes) : RegistryAct → Prop
  | .add pub level => C.sha256 pub = id ∧ .verified ≤ level
  | .verifyFingerprint deviceId _ => deviceId = id
  | _ => False

/-- The key a call brings in. -/
def RegistryAct.key : RegistryAct → Option Bytes
  | .add pub _ => some pub
  | .processHello _ pub => some pub
  | .addEndorsement blob _ => some (TrustStore.endorsedKey blob)
  | .applyTransition _ t => some t.newEd25519Public
  | _ => none

variable {C : Primitives}

/-- Whether an identity has a record at `VERIFIED` or above. -/
def TrustStore.isVerified (s : TrustStore C) (id : Bytes) : Bool :=
  (s.get id).any (fun r => .verified ≤ r.trustLevel)

theorem TrustStore.isVerified_iff (s : TrustStore C) (id : Bytes) :
    s.isVerified id = true ↔ ∃ r, s.get id = some r ∧ .verified ≤ r.trustLevel := by
  rw [isVerified, Option.any_eq_true]
  simp only [decide_eq_true_eq]

open TrustStore in
/-- How a record can be at `VERIFIED` or above after a step. -/
inductive Standing (g : Registry C) (a : RegistryAct) (id : Bytes) (r' : TrustRecord C) : Prop
  /-- It was there before, and kept its depth. -/
  | kept (r : TrustRecord C) (hr : g.store.get id = some r) (hlevel : .verified ≤ r.trustLevel)
      (hdepth : r'.endorsementDepth = r.endorsementDepth)
  | operator (ha : a.verifies C id)
  | endorsed (blob i : Bytes) (e : TrustRecord C) (ha : a = .addEndorsement blob i)
      (hv : g.store.Vouches blob i e) (hid : C.sha256 (endorsedKey blob) = id)
      (hdepth : r'.endorsementDepth = e.endorsementDepth + 1)
  /-- It was below, and an identity that was not rotated to it. -/
  | rotated (nowMs : Nat) (t : KeyTransition) (old : TrustRecord C)
      (ha : a = .applyTransition nowMs t) (ht : g.Transits nowMs t old) (hid : t.newDeviceId = id)
      (hlevel : .verified ≤ old.trustLevel)
      (hbelow : ∀ r, g.store.get id = some r → r.trustLevel < .verified)

namespace Registry.Change

variable {g g' : Registry C} {a : RegistryAct} {ok : Bool}

/-- A record that was not written keeps its standing. -/
theorem standing_unwritten (id : Bytes) (r r' : TrustRecord C) (hr : r.deviceId ≠ id)
    (h : (g.store.put r).get id = some r') (hlevel : .verified ≤ r'.trustLevel) :
    Standing g a id r' := by
  rw [TrustStore.get_put, if_neg (fun hc => hr hc.symm)] at h
  exact Standing.kept r' h hlevel rfl

/-- A key that was added at a level below `VERIFIED` is at `VERIFIED` only if
    it was before. -/
theorem standing_of_upsert (pub : Bytes) (level : TrustLevel) (r : TrustRecord C)
    (hr : g.store.upsert pub level = some r) (hlow : level < .verified)
    (hlevel : .verified ≤ r.trustLevel) : Standing g a (C.sha256 pub) r := by
  rcases (g.store.upsert_cases pub level r hr).2 with ⟨old, hold, heq⟩ | ⟨_, _, heq, _⟩
  · rw [heq] at hlevel
    rcases le_max_iff.mp hlevel with h | h
    · exact Standing.kept old hold h (by rw [heq])
    · exact absurd h (not_le.mpr hlow)
  · rw [heq] at hlevel
    exact absurd hlevel (not_le.mpr hlow)

/-- Every record at `VERIFIED` or above after a step has one of the listed
    origins. -/
theorem standing (h : Change g a ok g') (id : Bytes) (r' : TrustRecord C)
    (hr' : g'.store.get id = some r') (hlevel : .verified ≤ r'.trustLevel) :
    Standing g a id r' := by
  cases h with
  | refused => exact Standing.kept r' hr' hlevel rfl
  -- Below VERIFIED the filed record keeps the standing it had; from there on it is the operator's
  -- word.
  | added pub level r hr =>
      by_cases hid : r.deviceId = id
      · have hfiled := (g.store.upsert_cases pub level r hr).1
        rw [hid] at hfiled
        by_cases hlow : level < .verified
        · simp only [Registry.put, TrustStore.get_put, if_pos hid.symm, Option.some.injEq] at hr'
          rw [hfiled, ← hr']
          exact standing_of_upsert pub level r hr hlow (hr' ▸ hlevel)
        · exact Standing.operator ⟨hfiled.symm, not_lt.mp hlow⟩
      · exact standing_unwritten id r r' hid hr' hlevel
  | recognised => exact Standing.kept r' hr' hlevel rfl
  | greeted sender pub r _ hr =>
      by_cases hid : r.deviceId = id
      · have hfiled := (g.store.upsert_cases pub .tofu r hr).1
        rw [hid] at hfiled
        simp only [Registry.put, TrustStore.get_put, if_pos hid.symm, Option.some.injEq] at hr'
        rw [hfiled, ← hr']
        exact standing_of_upsert pub .tofu r hr (by decide) (hr' ▸ hlevel)
      · exact standing_unwritten id r r' hid hr' hlevel
  -- A confirmed fingerprint is the operator's word for the id.
  | confirmed d fingerprint old hold _ =>
      by_cases hid : old.deviceId = id
      · have hd : d = id := (g.store.filed d old hold).symm.trans hid
        exact Standing.operator hd
      · exact standing_unwritten id { old with trustLevel := max old.trustLevel .verified } r' hid
          hr' hlevel
  | endorsed blob i e r hv hr =>
      by_cases hid : r.deviceId = id
      · have hfiled := (g.store.upsert_cases _ _ r hr).1
        simp only [Registry.put, TrustStore.get_put, TrustStore.endorsedBy, if_pos hid.symm,
          -- The level comes from the endorser that was checked.
          Option.some.injEq] at hr'
        refine Standing.endorsed blob i e rfl hv (hfiled.symm.trans hid) ?_
        rw [← hr']
      · exact standing_unwritten id (TrustStore.endorsedBy r i (e.endorsementDepth + 1)) r' hid hr'
          hlevel
  | distrusted => exact Standing.kept r' hr' hlevel rfl
  | pardoned => exact Standing.kept r' hr' hlevel rfl
  | rotated nowMs t old new ht hnew =>
      by_cases hid : new.deviceId = id
      · rcases g.store.upsert_cases _ _ new hnew with ⟨hfiled, hcases⟩
        simp only [Registry.migrated, TrustStore.get_put, if_pos hid.symm,
          Option.some.injEq] at hr'
        rw [← hr'] at hlevel
        rw [← hfiled, hid] at hcases
        -- Either the new identity had the standing already, or the old one had it.
        by_cases hown : ∃ o, g.store.get id = some o ∧ .verified ≤ o.trustLevel
        · rcases hown with ⟨o, ho, holevel⟩
          refine Standing.kept o ho holevel ?_
          rcases hcases with ⟨o', ho', heq⟩ | ⟨hnone, _⟩
          · rw [ho, Option.some.injEq] at ho'
            rw [← hr', heq, ho']
          · rw [ho] at hnone
            simp only [reduceCtorEq] at hnone
        · have hbelow : ∀ o, g.store.get id = some o → o.trustLevel < .verified := by
            intro o ho
            by_contra hc
            exact hown ⟨o, ho, not_lt.mp hc⟩
          refine Standing.rotated nowMs t old rfl ht ?_ ?_ hbelow
          · rw [ht.2.1, ← hfiled, hid]
          · rcases hcases with ⟨o, ho, heq⟩ | ⟨_, _, heq, _⟩
            · rw [heq] at hlevel
              rcases le_max_iff.mp hlevel with hle | hle
              · exact absurd hle (not_le.mpr (hbelow o ho))
              · exact hle
            · rw [← heq]
              exact hlevel
      · exact standing_unwritten id { new with
          endorsers := carryOver old.endorsers new.endorsers } r' hid hr' hlevel

/-- Where a record after a step comes from: it was there with its key and
    depth, or a key was added, and only an endorsement within the limit set
    another depth. -/
theorem written (h : Change g a ok g') (id : Bytes) (r' : TrustRecord C)
    (hr' : g'.store.get id = some r') :
    (∃ r, g.store.get id = some r ∧ r'.ed25519Public = r.ed25519Public ∧
        r'.endorsementDepth = r.endorsementDepth) ∨
      ∃ pub level r, a.key = some pub ∧ g.store.upsert pub level = some r ∧
        r'.ed25519Public = r.ed25519Public ∧
        (r'.endorsementDepth = r.endorsementDepth ∨
          (r'.endorsementDepth : Int) ≤ g.store.maxEndorsementDepth) := by
  -- A write puts one record, and every other id is as it was.
  have hput : ∀ w : TrustRecord C, (g.store.put w).get id = some r' →
      g.store.get id = some r' ∨ w = r' := by
    intro w hget
    rw [TrustStore.get_put] at hget
    by_cases heq : id = w.deviceId
    · rw [if_pos heq, Option.some.injEq] at hget
      exact Or.inr hget
    · rw [if_neg heq] at hget
      exact Or.inl hget
  cases h with
  | refused => exact Or.inl ⟨r', hr', rfl, rfl⟩
  | added pub level r hr =>
      rcases hput r hr' with hsame | rfl
      · exact Or.inl ⟨r', hsame, rfl, rfl⟩
      · exact Or.inr ⟨pub, level, r, rfl, hr, rfl, Or.inl rfl⟩
  | recognised => exact Or.inl ⟨r', hr', rfl, rfl⟩
  | greeted sender pub r _ hr =>
      rcases hput r hr' with hsame | rfl
      · exact Or.inl ⟨r', hsame, rfl, rfl⟩
      · exact Or.inr ⟨pub, .tofu, r, rfl, hr, rfl, Or.inl rfl⟩
  | confirmed d fingerprint old hold _ =>
      left
      simp only [Registry.put, TrustStore.get_put] at hr'
      by_cases heq : id = old.deviceId
      · rw [if_pos heq, Option.some.injEq] at hr'
        rw [heq, g.store.filed d old hold, ← hr']
        exact ⟨old, hold, rfl, rfl⟩
      · rw [if_neg heq] at hr'
        exact ⟨r', hr', rfl, rfl⟩
  | endorsed blob i e r hv hr =>
      rcases hput (TrustStore.endorsedBy r i (e.endorsementDepth + 1)) hr' with hsame | rfl
      · -- An endorsement writes the one depth that does not come from `upsert`, and it is within
        -- the bound.
        exact Or.inl ⟨r', hsame, rfl, rfl⟩
      · exact Or.inr ⟨_, _, r, rfl, hr, rfl, Or.inr hv.2.2.2.1⟩
  | distrusted => exact Or.inl ⟨r', hr', rfl, rfl⟩
  | pardoned => exact Or.inl ⟨r', hr', rfl, rfl⟩
  | rotated nowMs t old new _ hnew =>
      rcases hput { new with endorsers := carryOver old.endorsers new.endorsers } hr'
        with hsame | rfl
      · exact Or.inl ⟨r', hsame, rfl, rfl⟩
      · exact Or.inr ⟨_, _, new, rfl, hnew, rfl, Or.inl rfl⟩

/-- A stored key was stored before or came in with the call. -/
theorem key_mem (h : Change g a ok g') (id : Bytes) (r' : TrustRecord C)
    (hr' : g'.store.get id = some r') :
    (∃ i r, g.store.get i = some r ∧ r.ed25519Public = r'.ed25519Public) ∨
      a.key = some r'.ed25519Public := by
  rcases h.written id r' hr' with ⟨r, hr, hkey, _⟩ | ⟨pub, level, r, hpub, hr, hkey, _⟩
  · exact Or.inl ⟨id, r, hr, hkey.symm⟩
  · rcases (g.store.upsert_cases pub level r hr).2 with ⟨old, hold, heq⟩ | ⟨_, heq, _⟩
    · left
      exact ⟨_, old, hold, by rw [hkey, heq]⟩
    · right
      rw [hpub, hkey, heq]

/-- Stored keys stay among given ones if the call brings in one of them. -/
theorem keys_mem (h : Change g a ok g') (keys : List Bytes)
    (hkeys : ∀ i r, g.store.get i = some r → r.ed25519Public ∈ keys)
    (hkey : ∀ k, a.key = some k → k ∈ keys) (id : Bytes) (r' : TrustRecord C)
    (hr' : g'.store.get id = some r') : r'.ed25519Public ∈ keys := by
  rcases h.key_mem id r' hr' with ⟨i, r, hr, heq⟩ | heq
  · rw [← heq]
    exact hkeys i r hr
  · exact hkey _ heq

/-- A stored depth was stored before, or is within the limit. -/
theorem depth_le (h : Change g a ok g') (n : Int) (hn : max 0 g.store.maxEndorsementDepth ≤ n)
    (hall : ∀ i r, g.store.get i = some r → (r.endorsementDepth : Int) ≤ n) (id : Bytes)
    (r' : TrustRecord C) (hr' : g'.store.get id = some r') : (r'.endorsementDepth : Int) ≤ n := by
  rcases h.written id r' hr' with ⟨r, hr, _, hdepth⟩ | ⟨pub, level, r, _, hr, _, hdepth | hle⟩
  · rw [hdepth]
    exact hall id r hr
  · rw [hdepth]
    rcases (g.store.upsert_cases pub level r hr).2 with ⟨old, hold, heq⟩ | ⟨_, _, _, _, heq⟩
    · rw [heq]
      exact hall _ old hold
    · rw [heq]
      omega
  · omega

/-- A refused call changes nothing. -/
theorem eq_of_refused (h : Change g a false g') : g' = g := by
  cases h
  rfl

end Registry.Change

/-- Every key that is stored after a run was brought in by a call of it. -/
theorem Registry.run_keys (C : Primitives) (allowTofu : Bool) (minTrust : TrustLevel)
    (maxEndorsementDepth maxRotations : Int) (acts : List RegistryAct) (id : Bytes)
    (r : TrustRecord C) (hr : (acts.foldl Registry.step
      (create C allowTofu minTrust maxEndorsementDepth maxRotations)).store.get id = some r) :
    r.ed25519Public ∈ acts.filterMap RegistryAct.key := by
  refine along_invariant (fun g : Registry C => ∀ i r, g.store.get i = some r →
      r.ed25519Public ∈ acts.filterMap RegistryAct.key)
    (fun g a hkeys hkey => (g.step_change a).keys_mem _ hkeys hkey) _ acts ?_
    (along_of_forall _ acts (fun a ha k hk => List.mem_filterMap.mpr ⟨a, ha, hk⟩)) id r hr
  intro i r hr
  simp only [create, TrustStore.get, Dict.get?_empty, reduceCtorEq] at hr

namespace Ledger

/-- A record at `VERIFIED` or above that an operator verified. -/
def OperatorVerified (l : Ledger C) (id : Bytes) : Prop :=
  (∃ r, l.registry.store.get id = some r ∧ .verified ≤ r.trustLevel) ∧
    ∃ a ∈ l.log, a.verifies C id

/-- An accepted endorsement or transition that verified under the key stored
    for one identity and names the key stored for another. -/
def Signed (l : Ledger C) (i j : Bytes) : Prop :=
  ∃ ri rj, l.registry.store.get i = some ri ∧ l.registry.store.get j = some rj ∧
    ((∃ blob, .addEndorsement blob i ∈ l.log ∧
        C.ed25519Verify ri.ed25519Public (blob.take endorsementBodySize)
          (blob.drop endorsementBodySize) = true ∧
        TrustStore.endorsedKey blob = rj.ed25519Public) ∨
      ∃ nowMs t, .applyTransition nowMs t ∈ l.log ∧ t.oldDeviceId = i ∧
        C.ed25519Verify ri.ed25519Public (Registry.signedBody t) t.signature = true ∧
        t.newEd25519Public = rj.ed25519Public)

/-- An accepted endorsement, from the endorser to the identity of the endorsed
    key. -/
def Endorsement (l : Ledger C) (i j : Bytes) : Prop :=
  ∃ blob, .addEndorsement blob i ∈ l.log ∧ C.sha256 (TrustStore.endorsedKey blob) = j

/-- An accepted transition, from the old identity to the new one. -/
def Rotation (l : Ledger C) (i j : Bytes) : Prop :=
  ∃ nowMs t, .applyTransition nowMs t ∈ l.log ∧ t.oldDeviceId = i ∧ t.newDeviceId = j

section Step

variable (l : Ledger C) (a : RegistryAct)

theorem log_step (b : RegistryAct) (h : b ∈ l.log) : b ∈ (l.step a).log := by
  rcases l.step_cases a with ⟨_, hlog⟩ | ⟨_, _, hlog⟩
  · rw [hlog]
    exact h
  · rw [hlog]
    exact List.mem_append_left _ h

/-- What an operator verified stays verified. -/
theorem operatorVerified_step (id : Bytes) (h : l.OperatorVerified id) :
    (l.step a).OperatorVerified id := by
  rcases h with ⟨⟨r, hr, hlevel⟩, b, hb, hver⟩
  rcases (l.registry.step_change a).grows id r hr with ⟨r', hr', _, hle⟩
  exact ⟨⟨r', hr', le_trans hlevel hle⟩, b, l.log_step a b hb, hver⟩

/-- What was signed stays signed: stored keys do not change. -/
theorem signed_step (i j : Bytes) (h : l.Signed i j) : (l.step a).Signed i j := by
  rcases h with ⟨ri, rj, hri, hrj, hcases⟩
  rcases (l.registry.step_change a).grows i ri hri with ⟨ri', hri', hki, _⟩
  rcases (l.registry.step_change a).grows j rj hrj with ⟨rj', hrj', hkj, _⟩
  refine ⟨ri', rj', hri', hrj', ?_⟩
  rw [hki, hkj]
  rcases hcases with ⟨blob, hlog, hsig, hkey⟩ | ⟨nowMs, t, hlog, hold, hsig, hkey⟩
  · exact Or.inl ⟨blob, l.log_step a _ hlog, hsig, hkey⟩
  · exact Or.inr ⟨nowMs, t, l.log_step a _ hlog, hold, hsig, hkey⟩

theorem endorsement_step (i j : Bytes) (h : l.Endorsement i j) : (l.step a).Endorsement i j := by
  rcases h with ⟨blob, hlog, hid⟩
  exact ⟨blob, l.log_step a _ hlog, hid⟩

theorem rotation_step (i j : Bytes) (h : l.Rotation i j) : (l.step a).Rotation i j := by
  rcases h with ⟨nowMs, t, hlog, hids⟩
  exact ⟨nowMs, t, l.log_step a _ hlog, hids⟩

end Step

/-- Distinct keys of a list have distinct digests. -/
def CollisionFree (C : Primitives) (keys : List Bytes) : Prop :=
  ∀ k ∈ keys, ∀ k' ∈ keys, C.sha256 k = C.sha256 k' → k = k'

instance (C : Primitives) (keys : List Bytes) : Decidable (CollisionFree C keys) :=
  inferInstanceAs (Decidable (∀ k ∈ keys, ∀ k' ∈ keys, C.sha256 k = C.sha256 k' → k = k'))

/-- A record under the digest of a key has that key. -/
theorem CollisionFree.stored_eq {C : Primitives} {pub : Bytes} {acts : List RegistryAct}
    (hfree : CollisionFree C (pub :: acts.filterMap RegistryAct.key)) (allowTofu : Bool)
    (minTrust : TrustLevel) (maxEndorsementDepth maxRotations : Int) (r : TrustRecord C)
    (hr : (acts.foldl Registry.step (Registry.create C allowTofu minTrust maxEndorsementDepth
      maxRotations)).store.get (C.sha256 pub) = some r) : r.ed25519Public = pub := by
  have hstored := Registry.run_keys C allowTofu minTrust maxEndorsementDepth maxRotations acts _
    r hr
  exact hfree _ (List.mem_cons_of_mem _ hstored) _ List.mem_cons_self
    (TrustStore.sha256_of_get _ _ r hr)

/-- Every stored key is one of the given ones, and every record at `VERIFIED`
    or above is the end of a signed chain from an operator's decision. -/
def Traced (keys : List Bytes) (l : Ledger C) : Prop :=
  (∀ id r, l.registry.store.get id = some r → r.ed25519Public ∈ keys) ∧
    ∀ id r, l.registry.store.get id = some r → .verified ≤ r.trustLevel →
      ∃ i, l.OperatorVerified i ∧ Relation.ReflTransGen l.Signed i id

/-- A step keeps the chains and ends each new one in the call that made it. -/
theorem traced_step (keys : List Bytes) (hfree : CollisionFree C keys) (l : Ledger C)
    (a : RegistryAct) (h : Traced keys l) (hkey : ∀ k, a.key = some k → k ∈ keys) :
    Traced keys (l.step a) := by
  rcases h with ⟨hkeys, hchains⟩
  have hchange := l.registry.step_change a
  have hkeys' := hchange.keys_mem keys hkeys hkey
  -- The chains of the state before are chains after the step.
  have hkeep : ∀ id r, l.registry.store.get id = some r → .verified ≤ r.trustLevel →
      ∃ i, (l.step a).OperatorVerified i ∧ Relation.ReflTransGen (l.step a).Signed i id := by
    intro id r hr hlevel
    rcases hchains id r hr hlevel with ⟨i, hop, hchain⟩
    exact ⟨i, l.operatorVerified_step a i hop,
      Relation.ReflTransGen.mono (l.signed_step a) _ _ hchain⟩
  refine ⟨hkeys', ?_⟩
  intro id r' hr' hlevel
  -- Two stored or named keys with one identity are the same key.
  have hsame : ∀ k ∈ keys, C.sha256 k = id → k = r'.ed25519Public := by
    intro k hk hid
    refine hfree k hk _ (hkeys' id r' hr') ?_
    rw [hid]
    exact ((l.step a).registry.store.sha256_of_get id r' hr').symm
  rcases l.step_cases a with ⟨hrefused, _⟩ | ⟨_, haccepted, hlog⟩
  · rw [hrefused.eq_of_refused] at hr'
    exact hkeep id r' hr' hlevel
  · have hlast : a ∈ (l.step a).log := by
      rw [hlog]
      exact List.mem_append_right _ (List.mem_singleton.mpr rfl)
    cases haccepted.standing id r' hr' hlevel with
    | kept r hr hrlevel _ => exact hkeep id r hr hrlevel
    | operator ha => exact ⟨id, ⟨⟨r', hr', hlevel⟩, a, hlast, ha⟩, Relation.ReflTransGen.refl⟩
    | endorsed blob e er ha hv hid _ =>
        rcases hv with ⟨_, hget, helevel, _, hsig, _⟩
        rcases hkeep e er hget helevel with ⟨i, hop, hchain⟩
        rcases hchange.grows e er hget with ⟨er', her', hpub, _⟩
        refine ⟨i, hop, hchain.tail ⟨er', r', her', hr', Or.inl ⟨blob, ?_, ?_, ?_⟩⟩⟩
        · rw [← ha]
          exact hlast
        · rw [hpub]
          exact hsig
        · exact hsame _ (hkey _ (by rw [ha]; rfl)) hid
    | rotated nowMs t old ha ht hid hold _ =>
        rcases hkeep t.oldDeviceId old ht.1 hold with ⟨i, hop, hchain⟩
        rcases hchange.grows t.oldDeviceId old ht.1 with ⟨old', hold', hpub, _⟩
        refine ⟨i, hop, hchain.tail ⟨old', r', hold', hr', Or.inr ⟨nowMs, t, ?_, rfl, ?_, ?_⟩⟩⟩
        · rw [← ha]
          exact hlast
        · rw [hpub]
          exact ht.2.2.2.2.2.1
        · exact hsame _ (hkey _ (by rw [ha]; rfl)) (ht.2.1.symm.trans hid)

/-- Processing a hello introduces records at `TOFU` only. -/
theorem hello_introduces_tofu (g : Registry C) (sender pub id : Bytes) (r : TrustRecord C)
    (hnone : g.store.get id = none)
    (hr : (g.step (.processHello sender pub)).store.get id = some r) : r.trustLevel = .tofu := by
  have hchange := g.step_change (.processHello sender pub)
  generalize g.step (.processHello sender pub) = g' at hchange hr
  generalize g.accepts (.processHello sender pub) = ok at hchange
  cases hchange with
  | refused =>
      rw [hnone] at hr
      simp only [reduceCtorEq] at hr
  | recognised =>
      rw [hnone] at hr
      simp only [reduceCtorEq] at hr
  -- A greeting that is taken for a new device upserts at TOFU, and nothing was there to be kept.
  | greeted _ _ new _ hnew =>
      simp only [Registry.put, TrustStore.get_put] at hr
      by_cases hid : id = new.deviceId
      · rw [if_pos hid, Option.some.injEq] at hr
        rcases g.store.upsert_cases pub .tofu new hnew with ⟨hfiled, ⟨o, ho, _⟩ | ⟨_, _, hl, _⟩⟩
        · rw [← hfiled, ← hid, hnone] at ho
          simp only [reduceCtorEq] at ho
        · rw [← hr]
          exact hl
      · rw [if_neg hid, hnone] at hr
        simp only [reduceCtorEq] at hr

/-- In every run from an empty store whose keys have distinct digests, every
    record at `VERIFIED` or above is the end of a chain of accepted vouchers,
    each verified under a stored key and naming a stored key, that starts at
    an operator's decision; and a hello introduces nothing above `TOFU`. -/
theorem trust_provenance (C : Primitives) (allowTofu : Bool) (minTrust : TrustLevel)
    (maxEndorsementDepth maxRotations : Int) (acts : List RegistryAct)
    (hfree : CollisionFree C (acts.filterMap RegistryAct.key)) :
    let l := acts.foldl step
      ⟨Registry.create C allowTofu minTrust maxEndorsementDepth maxRotations, []⟩
    (∀ id r, l.registry.store.get id = some r → .verified ≤ r.trustLevel →
      ∃ i, l.OperatorVerified i ∧ Relation.ReflTransGen l.Signed i id) ∧
    (∀ sender pub id r, l.registry.store.get id = none →
      (l.registry.step (.processHello sender pub)).store.get id = some r →
      r.trustLevel = .tofu) := by
  intro l
  refine ⟨?_, fun sender pub id r => hello_introduces_tofu l.registry sender pub id r⟩
  -- Every key that a call brings is among the keys assumed to be free of collisions.
  have hbring : ∀ a ∈ acts, ∀ k, a.key = some k → k ∈ acts.filterMap RegistryAct.key := by
    intro a ha k hk
    exact List.mem_filterMap.mpr ⟨a, ha, hk⟩
  refine (along_invariant (Traced (acts.filterMap RegistryAct.key)) (traced_step _ hfree)
    ⟨Registry.create C allowTofu minTrust maxEndorsementDepth maxRotations, []⟩ acts ?_
    (along_of_forall _ acts hbring)).2
  constructor
  · intro id r hr
    simp only [Registry.create, TrustStore.get, Dict.get?_empty, reduceCtorEq] at hr
  · intro id r hr
    simp only [Registry.create, TrustStore.get, Dict.get?_empty, reduceCtorEq] at hr

/-- An operator verifies a device, which endorses another, which rotates. -/
def vouchedRun : List RegistryAct := [.add (Registry.toyIdentity 1) .verified,
  .addEndorsement (Registry.toyEndorsement 1 2) (Registry.toyIdentity 1),
  .applyTransition 9 (Registry.toyTransition 2 3 9)]

theorem trust_provenance_vouchedRun :
    let l := vouchedRun.foldl step ⟨Registry.create toyPrimitives true .tofu 3 10, []⟩
    l.registry.store.isVerified (Registry.toyIdentity 3) = true ∧
      ∃ i, l.OperatorVerified i ∧ Relation.ReflTransGen l.Signed i (Registry.toyIdentity 3) := by
  intro l
  have hver : l.registry.store.isVerified (Registry.toyIdentity 3) = true := by decide +kernel
  rcases (l.registry.store.isVerified_iff _).mp hver with ⟨r, hr, hlevel⟩
  exact ⟨hver, (trust_provenance toyPrimitives true .tofu 3 10 vouchedRun (by decide +kernel)).1
    _ r hr hlevel⟩

/-- A transition loses no endorsement depth: its old identity has none, or its
    new one has the standing already. -/
def KeepsDepth (g : Registry C) : RegistryAct → Prop
  | .applyTransition _ t => ∀ old ∈ g.store.get t.oldDeviceId, 0 < old.endorsementDepth →
      g.store.isVerified t.newDeviceId = true
  | _ => True

instance (g : Registry C) : ∀ a : RegistryAct, Decidable (KeepsDepth g a)
  | .applyTransition _ t => inferInstanceAs (Decidable (∀ old ∈ g.store.get t.oldDeviceId, _))
  | .add _ _ => .isTrue trivial
  | .processHello _ _ => .isTrue trivial
  | .verifyFingerprint _ _ => .isTrue trivial
  | .addEndorsement _ _ => .isTrue trivial
  | .distrust _ => .isTrue trivial
  | .removeBlacklist _ => .isTrue trivial

/-- Every record at `VERIFIED` or above is the end of a chain that counts no
    more endorsements than its depth, and no depth is above the limit. -/
def DepthTraced (l : Ledger C) : Prop :=
  (∀ id r, l.registry.store.get id = some r →
    (r.endorsementDepth : Int) ≤ max 0 l.registry.store.maxEndorsementDepth) ∧
  ∀ id r, l.registry.store.get id = some r → .verified ≤ r.trustLevel →
    ∃ i n, l.OperatorVerified i ∧ Chain l.Rotation l.Endorsement i n id ∧ n ≤ r.endorsementDepth

/-- A step that loses no depth keeps the count of every chain below the depth
    of its end. -/
theorem depthTraced_step (l : Ledger C) (a : RegistryAct) (h : l.DepthTraced)
    (hdepth : l.registry.accepts a = true → KeepsDepth l.registry a) :
    (l.step a).DepthTraced := by
  rcases h with ⟨hbound, hchains⟩
  have hchange := l.registry.step_change a
  have hlimit : (l.step a).registry.store.maxEndorsementDepth
      = l.registry.store.maxEndorsementDepth := hchange.settings.2.1
  have hkeep : ∀ id r, l.registry.store.get id = some r → .verified ≤ r.trustLevel →
      ∃ i n, (l.step a).OperatorVerified i ∧
        Chain (l.step a).Rotation (l.step a).Endorsement i n id ∧ n ≤ r.endorsementDepth := by
    intro id r hr hlevel
    rcases hchains id r hr hlevel with ⟨i, n, hop, hchain, hn⟩
    exact ⟨i, n, l.operatorVerified_step a i hop,
      hchain.mono (l.rotation_step a) (l.endorsement_step a) i id n, hn⟩
  constructor
  · rw [hlimit]
    exact hchange.depth_le _ (le_refl _) hbound
  · intro id r' hr' hlevel
    rcases l.step_cases a with ⟨hrefused, _⟩ | ⟨hok, haccepted, hlog⟩
    · rw [hrefused.eq_of_refused] at hr'
      exact hkeep id r' hr' hlevel
    · have hlast : a ∈ (l.step a).log := by
        rw [hlog]
        exact List.mem_append_right _ (List.mem_singleton.mpr rfl)
      cases haccepted.standing id r' hr' hlevel with
      | kept r hr hrlevel heq =>
          rw [heq]
          exact hkeep id r hr hrlevel
      | operator ha =>
          exact ⟨id, 0, ⟨⟨r', hr', hlevel⟩, a, hlast, ha⟩, Chain.refl, Nat.zero_le _⟩
      | endorsed blob e er ha hv hid heq =>
          rcases hkeep e er hv.2.1 hv.2.2.1 with ⟨i, n, hop, hchain, hn⟩
          refine ⟨i, n + 1, hop, Chain.paid n e id hchain ⟨blob, ?_, hid⟩, by omega⟩
          rw [← ha]
          exact hlast
      | rotated nowMs t old ha ht hid hold hbelow =>
          rcases hkeep t.oldDeviceId old ht.1 hold with ⟨i, n, hop, hchain, hn⟩
          -- The new identity was below, so the old one had no depth to lose.
          have hzero : old.endorsementDepth = 0 := by
            by_contra hne
            have hkept := hdepth hok
            rw [ha] at hkept
            have hver := hkept old ht.1 (Nat.pos_of_ne_zero hne)
            rcases (l.registry.store.isVerified_iff _).mp hver with ⟨r, hr, hle⟩
            exact absurd hle (not_le.mpr (hbelow r (hid ▸ hr)))
          refine ⟨i, n, hop, Chain.free n t.oldDeviceId id hchain ⟨nowMs, t, ?_, rfl, hid⟩,
            by omega⟩
          rw [← ha]
          exact hlast

/-- In every run whose accepted transitions lose no endorsement depth, every
    record at `VERIFIED` or above is reached from an operator-verified one by
    accepted transitions and no more accepted endorsements than the limit. A
    negative limit permits none. -/
theorem endorsement_depth_bounded (C : Primitives) (allowTofu : Bool) (minTrust : TrustLevel)
    (maxEndorsementDepth maxRotations : Int) (acts : List RegistryAct)
    (hrun : Along step (fun l a => l.registry.accepts a = true → KeepsDepth l.registry a)
      ⟨Registry.create C allowTofu minTrust maxEndorsementDepth maxRotations, []⟩ acts) :
    let l := acts.foldl step
      ⟨Registry.create C allowTofu minTrust maxEndorsementDepth maxRotations, []⟩
    ∀ id r, l.registry.store.get id = some r → .verified ≤ r.trustLevel →
      ∃ i n, l.OperatorVerified i ∧ Chain l.Rotation l.Endorsement i n id ∧
        (n : Int) ≤ max 0 maxEndorsementDepth := by
  intro l id r hr hlevel
  set start : Ledger C :=
    ⟨Registry.create C allowTofu minTrust maxEndorsementDepth maxRotations, []⟩
  have h0 : start.DepthTraced := by
    constructor
    · intro id r hr
      exact absurd hr (by simp only [start, Registry.create, TrustStore.get, Dict.get?_empty,
        reduceCtorEq, not_false_eq_true])
    · intro id r hr
      exact absurd hr (by simp only [start, Registry.create, TrustStore.get, Dict.get?_empty,
        reduceCtorEq, not_false_eq_true])
  rcases along_invariant DepthTraced depthTraced_step start acts h0 hrun with ⟨hbound, hchains⟩
  rcases hchains id r hr hlevel with ⟨i, n, hop, hchain, hn⟩
  -- The stored depth bounds the length of the chain and is bounded by the setting.
  have hle := hbound id r hr
  rw [run_registry, (start.registry.run_settings acts).2.1] at hle
  refine ⟨i, n, hop, hchain, ?_⟩
  have hcast : (n : Int) ≤ r.endorsementDepth := Int.ofNat_le.mpr hn
  exact le_trans hcast hle

/-- A verified device rotates, and its new identity endorses a third device,
    which then moves to a key that the operator has verified as well. -/
def boundedRun : List RegistryAct := [.add (Registry.toyIdentity 1) .verified,
  .add (Registry.toyIdentity 4) .verified,
  .applyTransition 9 (Registry.toyTransition 1 2 9),
  .addEndorsement (Registry.toyEndorsement 2 3) (Registry.toyIdentity 2),
  .applyTransition 9 (Registry.toyTransition 3 4 9)]

theorem endorsement_depth_bounded_one :
    let l := boundedRun.foldl step ⟨Registry.create toyPrimitives true .tofu 1 10, []⟩
    l.log = boundedRun ∧ l.registry.store.isVerified (Registry.toyIdentity 3) = true ∧
      ∃ i n, l.OperatorVerified i ∧
        Chain l.Rotation l.Endorsement i n (Registry.toyIdentity 3) ∧ (n : Int) ≤ max 0 1 := by
  intro l
  have hver : l.registry.store.isVerified (Registry.toyIdentity 3) = true := by decide +kernel
  rcases (l.registry.store.isVerified_iff _).mp hver with ⟨r, hr, hlevel⟩
  exact ⟨by decide +kernel, hver, endorsement_depth_bounded toyPrimitives true .tofu 1 10
    boundedRun (by decide +kernel) _ r hr hlevel⟩

/-- An endorsed device rotates, and its new identity endorses once more. -/
def launderedRun : List RegistryAct := [.add (Registry.toyIdentity 1) .verified,
  .addEndorsement (Registry.toyEndorsement 1 2) (Registry.toyIdentity 1),
  .applyTransition 9 (Registry.toyTransition 2 3 9),
  .addEndorsement (Registry.toyEndorsement 3 4) (Registry.toyIdentity 3)]

/-- How many endorsements each device of that run is away from the operator. -/
def launderedDepth (id : Bytes) : Nat :=
  if id = Registry.toyIdentity 4 then 2
  else if id = Registry.toyIdentity 2 ∨ id = Registry.toyIdentity 3 then 1 else 0

/-- Under a limit of one, the rotation forgets the first endorsement: the last
    device is verified, and every chain to it has two. -/
theorem rotation_forgets_depth :
    let l := launderedRun.foldl step ⟨Registry.create toyPrimitives true .tofu 1 10, []⟩
    l.registry.store.isVerified (Registry.toyIdentity 4) = true ∧
      ¬ ∃ i n, l.OperatorVerified i ∧
        Chain l.Rotation l.Endorsement i n (Registry.toyIdentity 4) ∧ (n : Int) ≤ max 0 1 := by
  intro l
  refine ⟨by decide +kernel, ?_⟩
  intro h
  rcases h with ⟨i, n, ⟨_, b, hb, hver⟩, hchain, hn⟩
  have hlog : l.log = launderedRun := by decide +kernel
  -- Only the first device was verified by an operator.
  have hi : launderedDepth i = 0 := by
    rw [hlog] at hb
    simp only [launderedRun, List.mem_cons, List.not_mem_nil, or_false] at hb
    rcases hb with rfl | rfl | rfl | rfl
    · rw [← hver.1]
      decide +kernel
    · exact absurd hver not_false
    · exact absurd hver not_false
    · exact absurd hver not_false
  have hfree : ∀ a b, l.Rotation a b → launderedDepth b ≤ launderedDepth a := by
    intro a b hab
    rcases hab with ⟨nowMs, t, ht, rfl, rfl⟩
    rw [hlog] at ht
    simp only [launderedRun, List.mem_cons, reduceCtorEq, RegistryAct.applyTransition.injEq,
      List.not_mem_nil, or_false, false_or] at ht
    rw [ht.2]
    decide +kernel
  have hpaid : ∀ a b, l.Endorsement a b → launderedDepth b ≤ launderedDepth a + 1 := by
    intro a b hab
    rcases hab with ⟨blob, hblob, rfl⟩
    rw [hlog] at hblob
    simp only [launderedRun, List.mem_cons, reduceCtorEq, RegistryAct.addEndorsement.injEq,
      List.not_mem_nil, or_false, false_or] at hblob
    rcases hblob with ⟨rfl, rfl⟩ | ⟨rfl, rfl⟩
    · decide +kernel
    · decide +kernel
  have hpot := hchain.potential_le launderedDepth hfree hpaid
  have hfour : launderedDepth (Registry.toyIdentity 4) = 2 := by decide +kernel
  omega

end Ledger

end Ztlnp

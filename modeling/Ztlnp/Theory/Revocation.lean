import Ztlnp.Theory.Registry

/-!
# Revocation

What a blacklisted and what a retired identity can still do.

The blacklist is read in one place, by `is_trusted`, and the table of retired
identities by none of the checks. An identity that was distrusted or retired
can therefore still vouch: it signs endorsements and transitions as before,
and they are judged by its record alone.

Two results say how far this goes. A voucher from a blacklisted identity
creates no trust exactly when it is refused for another reason, or has nothing
to give: its target is trusted already, or blacklisted itself, or the old
identity was below the minimum level. A retired identity is without authority
exactly when its record and its key leave it none.

## Main definitions

* `RegistryAct.vouchedBy`: The identity whose signature a call rests on.
* `Registry.CreatesNoTrust`: A call makes nobody trusted.
* `Registry.Idle`: A voucher that is refused or has nothing to give.
* `Registry.Stripped`: An identity that is not trusted and cannot vouch.
* `Registry.Powerless`: A record that leaves its identity no authority.

## Theorems

* `Registry.createsNoTrust_endorsement`, `Registry.createsNoTrust_transition`:
  When a voucher creates no trust.
* `Registry.blacklisted_vouches_idle`: The same for the vouchers of
  blacklisted identities, along every run.
* `Registry.retired_known_step`: A retired identity has a record.
* `Registry.stripped_iff_powerless`: When an identity is without authority.
* `Registry.rotatedOnce_step`: Powerless identities are not rotated again.
* `Registry.retired_stripped`: The same for the retired identities of every
  run, and what it means for their successors.
-/

namespace Ztlnp

/-- The identity whose signature a call rests on. -/
def RegistryAct.vouchedBy : RegistryAct → Option Bytes
  | .addEndorsement _ endorser => some endorser
  | .applyTransition _ t => some t.oldDeviceId
  | _ => none

variable {C : Primitives}

namespace TrustStore

/-- An identity is trusted when it is not blacklisted and has a record at the
    minimum level. -/
theorem isTrusted_iff (s : TrustStore C) (id : Bytes) :
    s.isTrusted id = true ↔
      id ∉ s.blacklist ∧ ∃ r, s.get id = some r ∧ s.minTrust ≤ r.trustLevel := by
  unfold isTrusted get
  by_cases hb : id ∈ s.blacklist
  · rw [if_pos hb]
    simp only [Bool.false_eq_true, hb, not_true_eq_false, false_and]
  · rw [if_neg hb]
    cases s.records.get? id with
    | none => simp only [Bool.false_eq_true, reduceCtorEq, false_and, exists_false, and_false]
    | some r =>
        simp only [ge_iff_le, decide_eq_true_eq, hb, not_false_eq_true, Option.some.injEq,
          true_and, exists_eq_left']

/-- Writing a record changes the trust in its identity only. -/
theorem isTrusted_put (s : TrustStore C) (r : TrustRecord C) (id : Bytes) :
    (s.put r).isTrusted id = true ↔
      if id = r.deviceId then id ∉ s.blacklist ∧ s.minTrust ≤ r.trustLevel
      else s.isTrusted id = true := by
  rw [isTrusted_iff, get_put, put_blacklist, put_minTrust]
  by_cases hid : id = r.deviceId
  · rw [if_pos hid, if_pos hid]
    simp only [Option.some.injEq, exists_eq_left']
  · rw [if_neg hid, if_neg hid, isTrusted_iff]

/-- Writing a record creates no trust exactly when its identity is
    blacklisted, trusted already, or the record is below the minimum. -/
theorem put_creates_no_trust (s : TrustStore C) (r : TrustRecord C) :
    (∀ x, (s.put r).isTrusted x = true → s.isTrusted x = true) ↔
      s.isBlacklisted r.deviceId = true ∨ s.isTrusted r.deviceId = true ∨
        r.trustLevel < s.minTrust := by
  have hblack : s.isBlacklisted r.deviceId = true ↔ r.deviceId ∈ s.blacklist := by
    rw [isBlacklisted, decide_eq_true_eq]
  constructor
  · intro h
    by_cases hb : r.deviceId ∈ s.blacklist
    · exact Or.inl (hblack.mpr hb)
    · by_cases hl : s.minTrust ≤ r.trustLevel
      · right
        left
        apply h
        rw [isTrusted_put, if_pos rfl]
        exact ⟨hb, hl⟩
      · exact Or.inr (Or.inr (not_le.mp hl))
  · intro h x hx
    rw [isTrusted_put] at hx
    by_cases hid : x = r.deviceId
    · -- The written record is the only one that could have gained trust.
      rw [if_pos hid] at hx
      rcases h with hb | ht | hl
      · exact absurd (hid ▸ hblack.mp hb) hx.1
      · rw [hid]
        exact ht
      · exact absurd hx.2 (not_le.mpr hl)
    · rw [if_neg hid] at hx
      exact hx

end TrustStore

namespace Registry

open TrustStore

/-- A call makes nobody trusted who was not. -/
def CreatesNoTrust (g : Registry C) (a : RegistryAct) : Prop :=
  ∀ x, (g.step a).store.isTrusted x = true → g.store.isTrusted x = true

/-- A voucher that the other checks refuse, or that has nothing to give: its
    target is blacklisted or trusted already, or the identity that is rotated
    was itself below the minimum level. -/
def Idle (g : Registry C) : RegistryAct → Prop
  | .addEndorsement blob endorser => ∀ e, g.store.Vouches blob endorser e →
      g.store.isBlacklisted (C.sha256 (endorsedKey blob)) = true ∨
        g.store.isTrusted (C.sha256 (endorsedKey blob)) = true
  | .applyTransition nowMs t => ∀ old, g.Transits nowMs t old →
      g.store.isBlacklisted t.newDeviceId = true ∨ g.store.isTrusted t.newDeviceId = true ∨
        old.trustLevel < g.store.minTrust
  | _ => True

/-- An accepted endorsement gives its target the highest level, so only a
    blacklisted or an already trusted target gains nothing. -/
theorem createsNoTrust_endorsement (g : Registry C) (blob id : Bytes) :
    g.CreatesNoTrust (.addEndorsement blob id) ↔ g.Idle (.addEndorsement blob id) := by
  rcases g.step_addEndorsement blob id with ⟨hno, _, hstep⟩ | ⟨e, r, hv, hr, _, hstep⟩
  · -- A refused endorsement changes nothing, and there is no valid one to speak of.
    rw [CreatesNoTrust, hstep]
    exact ⟨fun _ e hv => absurd hv (hno e), fun _ x hx => hx⟩
  · have hfiled := (g.store.upsert_cases _ _ r hr).1
    have htop := g.store.level_le_upsert _ _ r hr
    rw [CreatesNoTrust, hstep, put, put_creates_no_trust]
    simp only [endorsedBy, hfiled]
    constructor
    · intro h e' _
      rcases h with hb | ht | hl
      · exact Or.inl hb
      · exact Or.inr ht
      · exact absurd (le_trans (TrustLevel.le_endorsed _) htop) (not_le.mpr hl)
    · intro h
      rcases h e hv with hb | ht
      · exact Or.inl hb
      · exact Or.inr (Or.inl ht)

/-- An accepted transition raises its target to the level of the old
    identity, so it also gains nothing where that is below the minimum. -/
theorem createsNoTrust_transition (g : Registry C) (nowMs : Nat) (t : KeyTransition) :
    g.CreatesNoTrust (.applyTransition nowMs t) ↔ g.Idle (.applyTransition nowMs t) := by
  rcases g.step_applyTransition nowMs t with ⟨hno, _, hstep⟩ | ⟨old, new, ht, hnew, _, hstep⟩
  · rw [CreatesNoTrust, hstep]
    exact ⟨fun _ old ht => absurd ht (hno old), fun _ x hx => hx⟩
  · rcases g.store.upsert_cases _ _ new hnew with ⟨hfiled, hcases⟩
    rw [← ht.2.1] at hfiled hcases
    rw [CreatesNoTrust, hstep, migrated, put_creates_no_trust]
    simp only [hfiled]
    have hold : ∀ old', g.Transits nowMs t old' → old' = old := by
      intro old' ht'
      have hsame := ht'.1.symm.trans ht.1
      rw [Option.some.injEq] at hsame
      exact hsame
    constructor
    · intro h old' ht'
      rw [hold old' ht']
      rcases h with hb | htr | hl
      · exact Or.inl hb
      · exact Or.inr (Or.inl htr)
      · exact Or.inr (Or.inr (lt_of_le_of_lt (g.store.level_le_upsert _ _ new hnew) hl))
    · intro h
      rcases h old ht with hb | htr | hl
      · exact Or.inl hb
      · exact Or.inr (Or.inl htr)
      · by_cases hnewLevel : new.trustLevel < g.store.minTrust
        · exact Or.inr (Or.inr hnewLevel)
        · -- The new record kept a level of its own, at which it was judged before.
          rcases hcases with ⟨o, hget, hr⟩ | ⟨_, _, hr, _⟩
          · have hown : g.store.minTrust ≤ o.trustLevel := by
              have hmax := not_lt.mp hnewLevel
              rw [hr] at hmax
              rcases le_max_iff.mp hmax with h1 | h1
              · exact h1
              · exact absurd h1 (not_le.mpr hl)
            by_cases hb : t.newDeviceId ∈ g.store.blacklist
            · left
              rw [isBlacklisted, decide_eq_true_eq]
              exact hb
            · right
              left
              rw [isTrusted_iff]
              exact ⟨hb, o, hget, hown⟩
          · rw [hr] at hnewLevel
            exact absurd hl hnewLevel

/-- In every run, the vouchers of blacklisted identities create no trust
    exactly when each of them was idle when it came. Nothing in the store
    looks at the blacklist while a voucher is judged. -/
theorem blacklisted_vouches_idle (C : Primitives) (allowTofu : Bool) (minTrust : TrustLevel)
    (maxEndorsementDepth maxRotations : Int) (acts : List RegistryAct) :
    Along step (fun g a => ∀ d, a.vouchedBy = some d → g.store.isBlacklisted d = true →
        g.CreatesNoTrust a)
      (create C allowTofu minTrust maxEndorsementDepth maxRotations) acts ↔
    Along step (fun g a => ∀ d, a.vouchedBy = some d → g.store.isBlacklisted d = true →
        g.Idle a)
      (create C allowTofu minTrust maxEndorsementDepth maxRotations) acts := by
  refine along_congr ?_ _ acts
  intro g a
  -- Only two kinds of calls are vouched for.
  cases a with
  | addEndorsement blob id => rw [createsNoTrust_endorsement]
  | applyTransition nowMs t => rw [createsNoTrust_transition]
  | _ => simp only [RegistryAct.vouchedBy, reduceCtorEq, false_implies, implies_true]

/-- A device that was verified and then blacklisted. -/
def blacklistedVoucher : List RegistryAct := [.add (toyIdentity 1) .verified,
  .distrust (toyIdentity 1)]

/-- An endorsement and a transition signed by a blacklisted device are both
    accepted, and make a stranger trusted. -/
theorem blacklisted_creates_trust :
    let g := blacklistedVoucher.foldl step (create toyPrimitives true .tofu 3 10)
    g.store.isBlacklisted (toyIdentity 1) = true ∧
      g.store.isTrusted (toyIdentity 2) = false ∧
      (g.step (.addEndorsement (toyEndorsement 1 2) (toyIdentity 1))).store.isTrusted
        (toyIdentity 2) = true ∧
      (g.step (.applyTransition 9 (toyTransition 1 2 9))).store.isTrusted
        (toyIdentity 2) = true := by
  decide +kernel

/-- An identity that is not trusted and in whose name nothing is accepted. -/
def Stripped (g : Registry C) (id : Bytes) : Prop :=
  g.store.isTrusted id = false ∧
    (∀ blob, ∃ exn s, (addEndorsement blob id).run g.store = .error exn s) ∧
    (∀ nowMs t, t.oldDeviceId = id → ∃ exn g', (applyTransition nowMs t).run g = .error exn g')

/-- No endorsement blob in the name of an identity verifies under a key. -/
def SignsNoEndorsement (C : Primitives) (id pub : Bytes) : Prop :=
  ∀ blob : Bytes, blob.length = endorsementTotalSize →
    field (blob.take endorsementBodySize) 0 32 = id →
    C.ed25519Verify pub (blob.take endorsementBodySize) (blob.drop endorsementBodySize) = false

/-- No transition of an identity that is newer than the last one verifies
    under a key. -/
def SignsNoTransition (C : Primitives) (m : RotationManager) (id pub : Bytes) : Prop :=
  ∀ t : KeyTransition, t.oldDeviceId = id → t.newDeviceId = C.sha256 t.newEd25519Public →
    m.lastTimestamp id < t.timestampMs → 0 ≤ t.timestampMs → t.timestampMs.toNat < 256 ^ 8 →
    C.ed25519Verify pub (signedBody t) t.signature = false

/-- The record of an identity leaves it no authority: it is blacklisted or
    below the minimum level, it is below `VERIFIED` or at the depth limit or
    signs no endorsement, and its rotations are used up or it signs no further
    one. -/
def Powerless (g : Registry C) (id : Bytes) : Prop :=
  ∃ r, g.store.get id = some r ∧
    (g.store.isBlacklisted id = true ∨ r.trustLevel < g.store.minTrust) ∧
    (r.trustLevel < .verified ∨ g.store.maxEndorsementDepth ≤ (r.endorsementDepth : Int) ∨
      SignsNoEndorsement C id r.ed25519Public) ∧
    (g.manager.maxRotations ≤ (g.manager.rotationCount id : Int) ∨
      SignsNoTransition C g.manager id r.ed25519Public)

section Retired

variable (g : Registry C) (id : Bytes) (r : TrustRecord C)

theorem untrusted_iff (hr : g.store.get id = some r) :
    g.store.isTrusted id = false ↔
      g.store.isBlacklisted id = true ∨ r.trustLevel < g.store.minTrust := by
  rw [← Bool.not_eq_true, isTrusted_iff, isBlacklisted, decide_eq_true_eq, not_and_or, not_not]
  simp only [hr, Option.some.injEq, exists_eq_left', not_le]

/-- Every endorsement of a known identity is refused exactly when its record
    or its key allows none. -/
theorem endorsements_refused_iff (hr : g.store.get id = some r) :
    (∀ blob, ∃ exn s, (addEndorsement blob id).run g.store = .error exn s) ↔
      r.trustLevel < .verified ∨ g.store.maxEndorsementDepth ≤ (r.endorsementDepth : Int) ∨
        SignsNoEndorsement C id r.ed25519Public := by
  constructor
  · intro h
    by_contra hcon
    simp only [not_or, not_lt, not_le, SignsNoEndorsement, not_forall, Bool.not_eq_false] at hcon
    rcases hcon with ⟨hlevel, hdepth, blob, hlen, hid, hsig⟩
    -- A blob that verifies would be accepted.
    have hv : g.store.Vouches blob id r := ⟨hlen, hr, hlevel, by omega, hsig, hid⟩
    rcases g.store.upsert_of_length _ .endorsed (endorsedKey_length blob hlen) with ⟨new, hnew⟩
    rcases h blob with ⟨exn, s, hrun⟩
    rw [g.store.addEndorsement_run blob id r new hv hnew] at hrun
    simp only [reduceCtorEq] at hrun
  · intro h blob
    rcases g.store.addEndorsement_cases blob id with ⟨_, exn, hrun⟩ | ⟨e, _, hv, _, _⟩
    · exact ⟨exn, _, hrun⟩
    · exfalso
      rcases hv with ⟨hlen, hget, hlevel, hdepth, hsig, hid⟩
      rw [hr, Option.some.injEq] at hget
      rw [← hget] at hlevel hdepth hsig
      rcases h with hl | hd | hs
      · exact absurd hl (not_lt.mpr hlevel)
      · omega
      · rw [hs blob hlen hid] at hsig
        exact Bool.false_ne_true hsig

/-- Every transition of a known identity is refused exactly when its budget or
    its key allows none. -/
theorem transitions_refused_iff (hr : g.store.get id = some r) :
    (∀ nowMs t, t.oldDeviceId = id → ∃ exn g', (applyTransition nowMs t).run g = .error exn g') ↔
      g.manager.maxRotations ≤ (g.manager.rotationCount id : Int) ∨
        SignsNoTransition C g.manager id r.ed25519Public := by
  constructor
  · intro h
    by_contra hcon
    simp only [not_or, not_le, SignsNoTransition, not_forall, Bool.not_eq_false] at hcon
    rcases hcon with ⟨hcount, t, hold, hid, hnewer, hnn, hlt, hsig⟩
    -- On a clock that has reached its timestamp, a newer transition would be accepted.
    have ht : g.Transits t.timestampMs.toNat t r := by
      refine ⟨hold ▸ hr, hid, ?_, hold ▸ hnewer, ⟨hnn, hlt⟩, hsig, hold ▸ hcount⟩
      rw [Int.toNat_of_nonneg hnn, maxRotationSkewMs]
      omega
    rcases g.store.upsert_of_length _ r.trustLevel t.newEd25519Public_length with ⟨new, hnew⟩
    rcases h t.timestampMs.toNat t hold with ⟨exn, g', hrun⟩
    rw [g.applyTransition_accepts _ t r new ht hnew] at hrun
    simp only [reduceCtorEq] at hrun
  · intro h nowMs t hold
    rcases g.applyTransition_cases nowMs t with ⟨_, exn, hrun⟩ | ⟨old, _, ht, _, _⟩
    · exact ⟨exn, _, hrun⟩
    · exfalso
      rcases ht with ⟨hget, hid, _, hnewer, ⟨hnn, hlt⟩, hsig, hcount⟩
      rw [hold, hr, Option.some.injEq] at hget
      rw [hold] at hnewer hcount
      rw [← hget] at hsig
      rcases h with hc | hs
      · omega
      · rw [hs t hold hid hnewer hnn hlt] at hsig
        exact Bool.false_ne_true hsig

/-- A known identity is without authority exactly when its record leaves it
    none. -/
theorem stripped_iff_powerless (hr : g.store.get id = some r) :
    g.Stripped id ↔ g.Powerless id := by
  unfold Stripped Powerless
  rw [g.untrusted_iff id r hr, g.endorsements_refused_iff id r hr,
    g.transitions_refused_iff id r hr]
  simp only [hr, Option.some.injEq, exists_eq_left']

end Retired

/-- Every retired identity has a record. -/
def RetiredKnown (g : Registry C) : Prop :=
  ∀ id, g.manager.isRetired id = true → ∃ r, g.store.get id = some r

/-- Retirement is entered only for identities the store knows, and the store
    forgets none. -/
theorem retired_known_step (g g' : Registry C) (a : RegistryAct) (ok : Bool)
    (hchange : Registry.Change g a ok g') (h : g.RetiredKnown) : g'.RetiredKnown := by
  intro id hid
  have hknown : ∃ r, g.store.get id = some r := by
    cases hchange with
    | rotated nowMs t old new ht _ =>
        rw [migrated, recorded_isRetired] at hid
        by_cases heq : id = t.oldDeviceId
        · exact ⟨old, heq ▸ ht.1⟩
        · rw [if_neg heq] at hid
          exact h id hid
    | _ => exact h id hid
  rcases hknown with ⟨r, hr⟩
  rcases hchange.grows id r hr with ⟨r', hr', _⟩
  exact ⟨r', hr'⟩

end Registry

/-- The identities that accepted transitions started from. -/
def Ledger.rotatedFrom (l : Ledger C) : List Bytes :=
  l.log.filterMap (fun a => match a with
    | .applyTransition _ t => some t.oldDeviceId
    | _ => none)

namespace Registry

/-- Every retired identity is without authority. -/
def RetiredPowerless (g : Registry C) : Prop :=
  ∀ id, g.manager.isRetired id = true → g.Powerless id

/-- What the ledger of a run says about retired identities: each has a record,
    an identity was retired by every transition that started from it, and none
    was rotated twice. -/
def RotatedOnce (l : Ledger C) : Prop :=
  l.registry.RetiredKnown ∧ (∀ id ∈ l.rotatedFrom, l.registry.manager.isRetired id = true) ∧
    l.rotatedFrom.Nodup

/-- Retired identities stay retired. -/
theorem isRetired_step (g g' : Registry C) (a : RegistryAct) (ok : Bool)
    (hchange : Registry.Change g a ok g') (id : Bytes) (h : g.manager.isRetired id = true) :
    g'.manager.isRetired id = true := by
  cases hchange with
  | rotated nowMs t old new _ _ =>
      rw [migrated, recorded_isRetired]
      by_cases heq : id = t.oldDeviceId
      · rw [if_pos heq]
      · rw [if_neg heq]
        exact h
  | _ => exact h

/-- While retired identities are powerless, no identity is rotated twice. -/
theorem rotatedOnce_step (l : Ledger C) (a : RegistryAct) (h : RotatedOnce l)
    (hpow : l.registry.RetiredPowerless) : RotatedOnce (l.step a) := by
  rcases h with ⟨hknown, hret, hnodup⟩
  rcases l.step_cases a with ⟨hchange, hlog⟩ | ⟨_, hchange, hlog⟩
  · refine ⟨retired_known_step _ _ a _ hchange hknown, ?_, ?_⟩
    · intro id hid
      rw [Ledger.rotatedFrom, hlog] at hid
      exact isRetired_step _ _ a _ hchange id (hret id hid)
    · rw [Ledger.rotatedFrom, hlog]
      exact hnodup
  · refine ⟨retired_known_step _ _ a _ hchange hknown, ?_⟩
    have hkeep := isRetired_step _ _ a _ hchange
    generalize (l.step a).registry = g' at hchange hkeep
    rw [Ledger.rotatedFrom, hlog, List.filterMap_append]
    cases hchange with
    | rotated nowMs t old new ht hnew =>
        simp only [List.filterMap_cons, List.filterMap_nil]
        -- A second transition from a retired identity would have been refused.
        have hfresh : t.oldDeviceId ∉ l.rotatedFrom := by
          intro hmem
          have hpower := hpow _ (hret _ hmem)
          have hstrip := (l.registry.stripped_iff_powerless _ old ht.1).mpr hpower
          rcases hstrip.2.2 nowMs t rfl with ⟨exn, g', hrun⟩
          rw [l.registry.applyTransition_accepts nowMs t old new ht hnew] at hrun
          simp only [reduceCtorEq] at hrun
        constructor
        · intro id hid
          rcases List.mem_append.mp hid with hmem | hmem
          · exact hkeep id (hret id hmem)
          · rw [List.mem_singleton] at hmem
            rw [migrated, recorded_isRetired, if_pos hmem]
        · refine List.nodup_append.mpr ⟨hnodup, List.nodup_singleton _, ?_⟩
          intro x hx y hy
          rw [List.mem_singleton] at hy
          intro hxy
          exact hfresh (hy ▸ hxy ▸ hx)
    | _ =>
        simp only [List.filterMap_cons, List.filterMap_nil, List.append_nil]
        exact ⟨fun id hid => hkeep id (hret id hid), hnodup⟩

/-- In every state of every run, the retired identities are without authority
    exactly when their records leave them none: nothing takes it from them.
    While that holds along a run, each identity has at most one successor. -/
theorem retired_stripped (C : Primitives) (allowTofu : Bool) (minTrust : TrustLevel)
    (maxEndorsementDepth maxRotations : Int) (acts : List RegistryAct) :
    let start : Ledger C := ⟨create C allowTofu minTrust maxEndorsementDepth maxRotations, []⟩
    let g := (acts.foldl Ledger.step start).registry
    ((∀ id, g.manager.isRetired id = true → g.Stripped id) ↔ g.RetiredPowerless) ∧
      (Along Ledger.step (fun l _ => l.registry.RetiredPowerless) start acts →
        (acts.foldl Ledger.step start).rotatedFrom.Nodup) := by
  intro start g
  have hstart : start.registry.RetiredKnown := by
    intro id hid
    exact absurd hid Bool.false_ne_true
  have hknown : g.RetiredKnown := by
    refine along_invariant (fun l : Ledger C => l.registry.RetiredKnown) ?_ start acts hstart
      (along_true start acts)
    intro l a hl _
    exact retired_known_step _ _ a _ (l.registry.step_change a) hl
  constructor
  · constructor
    · -- A retired device has a record, so what is stored of it can be compared.
      intro h id hid
      rcases hknown id hid with ⟨r, hr⟩
      exact (g.stripped_iff_powerless id r hr).mp (h id hid)
    · intro h id hid
      rcases hknown id hid with ⟨r, hr⟩
      exact (g.stripped_iff_powerless id r hr).mpr (h id hid)
  · -- Only a powerless device is never rotated from again.
    intro halong
    exact (along_invariant RotatedOnce rotatedOnce_step start acts
      ⟨hstart, fun _ hid => absurd hid List.not_mem_nil, List.nodup_nil⟩ halong).2.2

/-- Every retired identity is below both levels and has no rotation left: a
    case of `RetiredPowerless` that can be evaluated. -/
def RetiredSpent (g : Registry C) : Prop :=
  ∀ id ∈ g.manager.retired.keys, ∃ r ∈ g.store.get id,
    r.trustLevel < g.store.minTrust ∧ r.trustLevel < .verified ∧
      g.manager.maxRotations ≤ (g.manager.rotationCount id : Int)

instance (g : Registry C) : Decidable g.RetiredSpent :=
  inferInstanceAs (Decidable (∀ id ∈ g.manager.retired.keys, _))

theorem retiredSpent_powerless (g : Registry C) (h : g.RetiredSpent) : g.RetiredPowerless := by
  intro id hid
  rw [RotationManager.isRetired, Option.isSome_iff_exists] at hid
  rcases h id ((Dict.mem_keys _ _).mpr hid) with ⟨r, hr, hmin, hverified, hspent⟩
  exact ⟨r, hr, Or.inr hmin, Or.inl hverified, Or.inl hspent⟩

/-- Two devices below the minimum level that rotate to their own keys, under a
    budget of one. The first one tries again. -/
def selfRotations : List RegistryAct := [.add (toyIdentity 1) .tofu, .add (toyIdentity 2) .tofu,
  .applyTransition 9 (toyTransition 1 1 9), .applyTransition 9 (toyTransition 2 2 9),
  .applyTransition 10 (toyTransition 1 1 10)]

/-- Each of them moves once. -/
theorem retired_stripped_selfRotations :
    let l := selfRotations.foldl Ledger.step ⟨create toyPrimitives true .verified 3 1, []⟩
    l.rotatedFrom = [toyIdentity 1, toyIdentity 2] ∧ l.rotatedFrom.Nodup := by
  have hspent : Along Ledger.step (fun l _ => l.registry.RetiredSpent)
      ⟨create toyPrimitives true .verified 3 1, []⟩ selfRotations := by
    decide +kernel
  refine ⟨by decide +kernel, (retired_stripped toyPrimitives true .verified 3 1 selfRotations).2
    (along_mono (fun l _ => l.registry.retiredSpent_powerless) _ _ hspent)⟩

/-- A device that was verified and then moved to a new key. -/
def retiredVoucher : List RegistryAct := [.add (toyIdentity 1) .verified,
  .applyTransition 9 (toyTransition 1 2 9)]

/-- After the rotation the old identity is still trusted, still endorses, and
    still rotates to another successor. -/
theorem retired_keeps_authority :
    let g := retiredVoucher.foldl step (create toyPrimitives true .tofu 3 10)
    g.manager.isRetired (toyIdentity 1) = true ∧
      g.store.isTrusted (toyIdentity 1) = true ∧
      g.accepts (.addEndorsement (toyEndorsement 1 3) (toyIdentity 1)) = true ∧
      g.accepts (.applyTransition 10 (toyTransition 1 4 10)) = true := by
  decide +kernel

end Registry

end Ztlnp

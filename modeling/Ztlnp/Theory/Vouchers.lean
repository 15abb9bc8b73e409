import Ztlnp.Theory.Migration

/-!
# Vouchers

Which endorsements a store accepts, and what it takes from them.

The body of a voucher names the endorser, the identity of the target and the
key of the target. The first is compared with the identity the voucher was
submitted for. The second is parsed and then forgotten: the record is filed
under the digest of the key, whatever identity the voucher names. So a store
accepts exactly the consistent vouchers among those whose named identity is
the digest of their key, and what a peer creates with the right one is
accepted.

## Main definitions

* `TrustStore.VouchesFor`: A consistent voucher.
* `TrustStore.Judges`: The store accepts a voucher exactly if it is
  consistent, and for what it says.

## Theorems

* `TrustStore.vouches_iff`, `TrustStore.vouchesFor_iff`: What is checked, and
  what is missing.
* `TrustStore.judges_iff`: When a store judges a voucher rightly.
* `TrustStore.vouchesFor_created`: A created voucher is consistent.
* `addEndorsement_judges_iff`: The same in every run.
-/

namespace Ztlnp

variable {C : Primitives}

namespace TrustStore

/-- A consistent voucher: it has its size, its endorser is known, verified and
    not at the depth limit and signed it, it names the endorser, and the
    identity it names for the target is the digest of the key it names. -/
def VouchesFor (s : TrustStore C) (b e : Bytes) : Prop :=
  b.length = 160 ∧
    (∃ r, s.get e = some r ∧ .verified ≤ r.trustLevel ∧
      (r.endorsementDepth : Int) < s.maxEndorsementDepth ∧
      C.ed25519Verify r.ed25519Public (b.take 96) (b.drop 96) = true) ∧
    b.take 32 = e ∧ field b 32 32 = C.sha256 (field b 64 32)

/-- The store accepts a voucher exactly if it is consistent. It then holds the
    record it returns under the named identity, with the named key and the
    endorser, and otherwise it is left alone. -/
structure Judges (s : TrustStore C) (b e : Bytes) : Prop where
  accepted : ((addEndorsement b e).run s).returned.isSome = true ↔ s.VouchesFor b e
  stored : ∀ r, ((addEndorsement b e).run s).returned = some r →
    ((addEndorsement b e).run s).final.get (field b 32 32) = some r ∧
      r.ed25519Public = field b 64 32 ∧ e ∈ r.endorsers
  refused : ((addEndorsement b e).run s).returned = none →
    ((addEndorsement b e).run s).final = s

theorem endorsedKey_eq (b : Bytes) : endorsedKey b = field b 64 32 :=
  field_take b _ 64 32 (by decide)

/-- What the store checks, read off the voucher as a whole. -/
theorem vouches_iff (s : TrustStore C) (b e : Bytes) (r : TrustRecord C) :
    s.Vouches b e r ↔ b.length = 160 ∧ (s.get e = some r ∧ .verified ≤ r.trustLevel ∧
      (r.endorsementDepth : Int) < s.maxEndorsementDepth ∧
      C.ed25519Verify r.ed25519Public (b.take 96) (b.drop 96) = true) ∧ b.take 32 = e := by
  have hname : field (b.take endorsementBodySize) 0 32 = b.take 32 := by
    rw [field_take b _ 0 32 (by decide), field, List.drop_zero]
  have hdepth : ((r.endorsementDepth + 1 : Nat) : Int) ≤ s.maxEndorsementDepth ↔
      (r.endorsementDepth : Int) < s.maxEndorsementDepth := by
    push_cast
    omega
  rw [Vouches, hname, hdepth]
  simp only [and_assoc]
  rfl

/-- A consistent voucher passes these checks and names the digest of its key. -/
theorem vouchesFor_iff (s : TrustStore C) (b e : Bytes) :
    s.VouchesFor b e ↔
      (∃ r, s.Vouches b e r) ∧ field b 32 32 = C.sha256 (field b 64 32) := by
  simp only [VouchesFor, vouches_iff, exists_and_left, exists_and_right]
  rw [and_assoc, and_assoc]

/-- A voucher that passes the checks is accepted. -/
theorem returned_of_vouches (s : TrustStore C) (b e : Bytes) (h : ∃ r, s.Vouches b e r) :
    ((addEndorsement b e).run s).returned.isSome = true := by
  rcases s.addEndorsement_cases b e with ⟨hno, _⟩ | ⟨_, _, _, _, hrun⟩
  · rcases h with ⟨r, hv⟩
    exact absurd hv (hno r)
  · rw [hrun]
    rfl

/-- A store judges a voucher rightly exactly if it is refused for another reason
    or names the identity of its key. -/
theorem judges_iff (s : TrustStore C) (b e : Bytes)
    (hkey : ∀ old, s.get (C.sha256 (endorsedKey b)) = some old →
      old.ed25519Public = endorsedKey b) :
    -- The hypothesis keeps `upsert` from meeting a record with another key under the id.
    s.Judges b e ↔ ((∃ r, s.Vouches b e r) → field b 32 32 = C.sha256 (field b 64 32)) := by
  constructor
  · intro h hv
    exact ((s.vouchesFor_iff b e).mp (h.accepted.mp (s.returned_of_vouches b e hv))).2
  · intro hnamed
    rcases s.addEndorsement_cases b e with ⟨hno, exn, hrun⟩ | ⟨endorser, r, hv, hr, hrun⟩
    · refine ⟨?_, fun r hret => ?_, fun _ => ?_⟩
      · rw [hrun, vouchesFor_iff]
        refine iff_of_false Bool.false_ne_true (fun hall => ?_)
        rcases hall.1 with ⟨endorser, hv⟩
        exact hno endorser hv
      · rw [hrun] at hret
        simp only [EStateM.Result.returned, reduceCtorEq] at hret
      · rw [hrun]
        rfl
    · have hid : field b 32 32 = (endorsedBy r e (endorser.endorsementDepth + 1)).deviceId := by
        rw [hnamed ⟨endorser, hv⟩, ← endorsedKey_eq]
        exact (s.upsert_cases _ _ r hr).1.symm
      refine ⟨?_, fun r' hret => ?_, fun hret => ?_⟩
      · rw [hrun, vouchesFor_iff]
        exact iff_of_true rfl ⟨⟨endorser, hv⟩, hnamed ⟨endorser, hv⟩⟩
      · rw [hrun] at hret ⊢
        simp only [EStateM.Result.returned, Option.some.injEq] at hret
        -- The record that is returned is the one now stored, under the key that was endorsed.
        rw [← hret, EStateM.Result.final, get_put, if_pos hid]
        refine ⟨rfl, ?_, ?_⟩
        · rw [← endorsedKey_eq]
          exact s.key_upsert _ _ r hr hkey
        · exact (mem_concat_unless r.endorsers e e).mpr (Or.inl rfl)
      · rw [hrun] at hret
        simp only [EStateM.Result.returned, reduceCtorEq] at hret

/-- A voucher that was created for an identity and its key is consistent. -/
theorem vouchesFor_created (s : TrustStore C) (endorserPrivate e targetPublic : Bytes)
    (r : TrustRecord C) (hget : s.get e = some r)
    (hkey : r.ed25519Public = C.ed25519Public endorserPrivate) (hlevel : .verified ≤ r.trustLevel)
    (hdepth : (r.endorsementDepth : Int) < s.maxEndorsementDepth)
    (hlen : targetPublic.length = 32) :
    s.VouchesFor
      (createEndorsement C endorserPrivate e (C.sha256 targetPublic) targetPublic) e := by
  have he : e.length = 32 := by
    rw [← s.sha256_of_get e r hget]
    exact C.sha256_length _
  have hbody : (e ++ C.sha256 targetPublic ++ targetPublic).length = 96 := by
    rw [List.length_append, List.length_append, he, C.sha256_length, hlen]
  have htarget : (e ++ C.sha256 targetPublic).length = 64 := by
    rw [List.length_append, he, C.sha256_length]
  simp only [VouchesFor, createEndorsement]
  refine ⟨?_, ⟨r, hget, hlevel, hdepth, ?_⟩, ?_, ?_⟩
  · -- Body and signature are cut out again at the offsets the reader uses.
    rw [List.length_append, hbody, C.ed25519Sign_length]
  · rw [← hbody, List.take_left, List.drop_left, hkey]
    exact C.ed25519Verify_sign _ _
  · rw [List.append_assoc, List.append_assoc, ← he, List.take_left]
  · rw [field_append_within _ _ 32 32 (by omega), field_append_within _ _ 32 32 (by omega),
      field_append_right _ _ 32 32 (by omega), field_append_within _ _ 64 32 (by omega),
      field_append_right _ _ 64 32 (by omega), he, htarget, Nat.sub_self,
      (field_eq_self _ 32 (C.sha256_length _).ge).mpr (C.sha256_length _),
      (field_eq_self _ 32 hlen.ge).mpr hlen]

end TrustStore

/-- In every state of every run, the store accepts exactly the consistent
    vouchers, and takes from them what they say, if and only if the voucher it
    is given fails one of its checks or names the digest of its key. A voucher
    that a verified device within the limit creates for a key and its digest is
    accepted. -/
theorem addEndorsement_judges_iff (C : Primitives) (allowTofu : Bool) (minTrust : TrustLevel)
    (maxEndorsementDepth maxRotations : Int) (acts : List RegistryAct) (b e : Bytes)
    (hfree : Ledger.CollisionFree C (TrustStore.endorsedKey b :: acts.filterMap RegistryAct.key)) :
    let s := (acts.foldl Registry.step
      (Registry.create C allowTofu minTrust maxEndorsementDepth maxRotations)).store
    (s.Judges b e ↔ ((∃ r, s.Vouches b e r) → field b 32 32 = C.sha256 (field b 64 32))) ∧
    ∀ endorserPrivate targetPublic r, s.get e = some r →
      r.ed25519Public = C.ed25519Public endorserPrivate → .verified ≤ r.trustLevel →
      (r.endorsementDepth : Int) < s.maxEndorsementDepth → targetPublic.length = 32 →
      ((TrustStore.addEndorsement (createEndorsement C endorserPrivate e (C.sha256 targetPublic)
        targetPublic) e).run s).returned.isSome = true := by
  intro s
  refine ⟨s.judges_iff b e (fun old hold => hfree.stored_eq _ _ _ _ old hold), ?_⟩
  intro endorserPrivate targetPublic r hget hkey hlevel hdepth hlen
  have hv := s.vouchesFor_created endorserPrivate e targetPublic r hget hkey hlevel hdepth hlen
  exact s.returned_of_vouches _ e ((s.vouchesFor_iff _ e).mp hv).1

/-- An operator verifies a device. -/
def anchored : List RegistryAct := [.add (Registry.toyIdentity 1) .verified]

/-- A voucher of that device that names one device and the key of another. -/
def misnamed : Bytes := createEndorsement toyPrimitives [1] (Registry.toyIdentity 1)
  (Registry.toyIdentity 9) (Registry.toyIdentity 2)

/-- Its voucher for a device and the key of that device is judged rightly. -/
theorem anchored_judges :
    let s := (anchored.foldl Registry.step (Registry.create toyPrimitives true .tofu 3 10)).store
    ((TrustStore.addEndorsement (Registry.toyEndorsement 1 2)
        (Registry.toyIdentity 1)).run s).returned.isSome = true ∧
      s.Judges (Registry.toyEndorsement 1 2) (Registry.toyIdentity 1) := by
  intro s
  exact ⟨by decide +kernel, (addEndorsement_judges_iff toyPrimitives true .tofu 3 10 anchored
    (Registry.toyEndorsement 1 2) (Registry.toyIdentity 1) (by decide +kernel)).1.mpr
    (fun _ => by decide +kernel)⟩

/-- The other one is accepted as well, and files a record that it does not
    name. -/
theorem misnamed_accepted :
    let s := (anchored.foldl Registry.step (Registry.create toyPrimitives true .tofu 3 10)).store
    let result := (TrustStore.addEndorsement misnamed (Registry.toyIdentity 1)).run s
    result.returned.isSome = true ∧
      field misnamed 32 32 ≠ toyPrimitives.sha256 (field misnamed 64 32) ∧
      (result.final.get (Registry.toyIdentity 9)).isSome = false ∧
      (result.final.get (Registry.toyIdentity 2)).isSome = true ∧
      ¬ s.Judges misnamed (Registry.toyIdentity 1) := by
  intro s result
  have hrun : result.returned.isSome = true ∧
      field misnamed 32 32 ≠ toyPrimitives.sha256 (field misnamed 64 32) ∧
      (result.final.get (Registry.toyIdentity 9)).isSome = false ∧
      (result.final.get (Registry.toyIdentity 2)).isSome = true := by
    decide +kernel
  rcases hrun with ⟨hret, hnamed, hother, hstored⟩
  exact ⟨hret, hnamed, hother, hstored, fun h => hnamed (h.accepted.mp hret).2.2.2⟩

end Ztlnp

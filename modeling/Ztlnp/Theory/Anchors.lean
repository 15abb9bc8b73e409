import Ztlnp.Theory.Vouchers

/-!
# Anchors

What endorsements do to records that are verified already.

The depth of a record is the length of the chain of vouchers that stands behind
it, and zero for a device that an operator verified. Only an accepted
endorsement writes it, and it writes it whatever was there: the depth of the
target becomes one more than that of its latest endorser. An anchor that is
endorsed by one of its own descendants is no anchor any more. Its depth is now
that of the loop, and each further round raises it, until the limit refuses
what it signs.

The level of a record never falls. Its depth does not rise exactly when the
endorser stands closer to an operator than the target does.

## Main definitions

* `RegistryAct.OnEndorsement`: A condition on vouchers.
* `Registry.Undemoted`: A record keeps its level and its depth.
* `Registry.Shallower`: The endorser is closer to an operator than the target.
* `TrustStore.Anchor`: A verified record of depth zero.

## Theorems

* `Registry.Change.depth`: Only an accepted endorsement writes a depth.
* `Registry.undemoted_iff`: When an accepted endorsement does not demote.
* `endorsement_undemoting_iff`: When none does in a run, and its anchors stay.
-/

namespace Ztlnp

/-- A condition on the voucher and the endorser of a call, if it endorses. -/
def RegistryAct.OnEndorsement (P : Bytes → Bytes → Prop) : RegistryAct → Prop
  | .addEndorsement blob id => P blob id
  | _ => True

variable {C : Primitives}

/-- Adding a key that is stored keeps its depth. -/
theorem TrustStore.depth_upsert (s : TrustStore C) (pub : Bytes) (level : TrustLevel)
    (r old : TrustRecord C) (hr : s.upsert pub level = some r)
    (hold : s.get r.deviceId = some old) : r.endorsementDepth = old.endorsementDepth := by
  rcases s.upsert_cases pub level r hr with ⟨hfiled, ⟨o, ho, heq⟩ | ⟨hnone, _⟩⟩
  · rw [hfiled, ho, Option.some.injEq] at hold
    rw [heq, hold]
  · rw [hfiled, hnone] at hold
    simp only [reduceCtorEq] at hold

/-- A record that is written with the depth of the one that was there changes no
    depth. -/
theorem TrustStore.depth_put (s : TrustStore C) (w : TrustRecord C)
    (hw : ∀ old, s.get w.deviceId = some old → w.endorsementDepth = old.endorsementDepth)
    (id : Bytes) (r r' : TrustRecord C) (hr : s.get id = some r)
    (hr' : (s.put w).get id = some r') : r'.endorsementDepth = r.endorsementDepth := by
  rw [get_put] at hr'
  by_cases hid : id = w.deviceId
  · rw [if_pos hid, Option.some.injEq] at hr'
    rw [← hr']
    exact hw r (hid ▸ hr)
  · rw [if_neg hid, hr, Option.some.injEq] at hr'
    rw [hr']

namespace Registry

/-- A record keeps its depth in every step but an accepted endorsement of its
    key, which sets it to one more than that of the endorser. -/
theorem Change.depth {g g' : Registry C} {a : RegistryAct} {ok : Bool} (h : Change g a ok g')
    (id : Bytes) (r r' : TrustRecord C) (hr : g.store.get id = some r)
    (hr' : g'.store.get id = some r') :
    r'.endorsementDepth = r.endorsementDepth ∨
      ∃ blob i e, a = .addEndorsement blob i ∧ ok = true ∧ g.store.get i = some e ∧
        C.sha256 (TrustStore.endorsedKey blob) = id ∧
        r'.endorsementDepth = e.endorsementDepth + 1 := by
  have hsame : g.store.get id = some r' → r'.endorsementDepth = r.endorsementDepth := by
    intro hget
    rw [hr, Option.some.injEq] at hget
    rw [hget]
  cases h with
  | refused => exact Or.inl (hsame hr')
  | added pub level w hw =>
      exact Or.inl (g.store.depth_put w
        (fun old hold => g.store.depth_upsert pub level w old hw hold) id r r' hr hr')
  | recognised => exact Or.inl (hsame hr')
  | greeted sender pub w _ hw =>
      exact Or.inl (g.store.depth_put w
        (fun old hold => g.store.depth_upsert pub .tofu w old hw hold) id r r' hr hr')
  | confirmed d fingerprint old hold _ =>
      refine Or.inl (g.store.depth_put { old with trustLevel := max old.trustLevel .verified }
        (fun o ho => ?_) id r r' hr hr')
      rw [g.store.filed d old hold, hold, Option.some.injEq] at ho
      rw [ho]
  -- The one write that sets a depth: it is one more than the endorser's.
  | endorsed blob i e w hv hw =>
      have hfiled := (g.store.upsert_cases _ _ w hw).1
      by_cases hid : id = w.deviceId
      · right
        simp only [put, TrustStore.get_put, TrustStore.endorsedBy, if_pos hid,
          Option.some.injEq] at hr'
        refine ⟨blob, i, e, rfl, rfl, hv.2.1, (hid.trans hfiled).symm, ?_⟩
        rw [← hr']
      · simp only [put, TrustStore.get_put, TrustStore.endorsedBy, if_neg hid] at hr'
        exact Or.inl (hsame hr')
  | distrusted => exact Or.inl (hsame hr')
  | pardoned => exact Or.inl (hsame hr')
  -- `upsert` starts a new record at depth 0 and keeps the depth of an old one.
  | rotated nowMs t old new _ hnew =>
      exact Or.inl (g.store.depth_put { new with
          endorsers := carryOver old.endorsers new.endorsers }
        (fun o ho => g.store.depth_upsert _ _ new o hnew ho) id r r' hr hr')

/-- The record of an identity, if it has one, does not fall in level, nor rise in
    depth if it was verified. -/
def Undemoted (g g' : Registry C) (id : Bytes) : Prop :=
  ∀ r, g.store.get id = some r → ∃ r', g'.store.get id = some r' ∧ r.trustLevel ≤ r'.trustLevel ∧
    (.verified ≤ r.trustLevel → r'.endorsementDepth ≤ r.endorsementDepth)

/-- The endorser is closer to an operator than the target is, if that is
    verified already. -/
def Shallower (g : Registry C) (blob id : Bytes) : Prop :=
  ∀ e r, g.store.get id = some e →
    g.store.get (C.sha256 (TrustStore.endorsedKey blob)) = some r → .verified ≤ r.trustLevel →
    e.endorsementDepth < r.endorsementDepth

/-- A voucher goes through exactly if it passes the checks. -/
theorem accepts_addEndorsement_iff (g : Registry C) (blob id : Bytes) :
    g.accepts (.addEndorsement blob id) = true ↔ ∃ e, g.store.Vouches blob id e := by
  rcases g.step_addEndorsement blob id with ⟨hno, hok, _⟩ | ⟨e, _, hv, _, hok, _⟩
  · rw [hok]
    exact iff_of_false Bool.false_ne_true (not_exists.mpr hno)
  · exact iff_of_true hok ⟨e, hv⟩

/-- An accepted endorsement writes one more than the depth of its endorser. -/
theorem depth_endorsed (g : Registry C) (blob id : Bytes) (e r : TrustRecord C)
    (hv : g.store.Vouches blob id e)
    (hr : (g.step (.addEndorsement blob id)).store.get
      (C.sha256 (TrustStore.endorsedKey blob)) = some r) :
    r.endorsementDepth = e.endorsementDepth + 1 := by
  rcases g.step_addEndorsement blob id with ⟨hno, _⟩ | ⟨e', w, hv', hw, _, hstep⟩
  · exact absurd hv (hno e)
  · have hsame := hv.2.1.symm.trans hv'.2.1
    rw [Option.some.injEq] at hsame
    have hfiled := (g.store.upsert_cases _ _ w hw).1
    simp only [hstep, put, TrustStore.get_put, TrustStore.endorsedBy, if_pos hfiled.symm,
      Option.some.injEq] at hr
    rw [← hr, hsame]

/-- An accepted endorsement does not demote its target exactly when the endorser
    stands closer to an operator. -/
theorem undemoted_iff (g : Registry C) (blob id : Bytes)
    (hok : g.accepts (.addEndorsement blob id) = true) :
    Undemoted g (g.step (.addEndorsement blob id)) (C.sha256 (TrustStore.endorsedKey blob)) ↔
      g.Shallower blob id := by
  rcases (g.accepts_addEndorsement_iff blob id).mp hok with ⟨e, hv⟩
  constructor
  · intro h e' r he' hr hlevel
    rw [hv.2.1, Option.some.injEq] at he'
    rcases h r hr with ⟨r', hr', _, hdepth⟩
    have hwritten := g.depth_endorsed blob id e r' hv hr'
    have hle := hdepth hlevel
    rw [← he']
    omega
  · intro h r hr
    rcases (g.step_change (.addEndorsement blob id)).grows _ r hr with ⟨r', hr', _, hgrows⟩
    refine ⟨r', hr', hgrows, fun hlevel => ?_⟩
    have hwritten := g.depth_endorsed blob id e r' hv hr'
    have hlt := h e r hv.2.1 hr hlevel
    omega

end Registry

/-- A verified record of depth zero. -/
def TrustStore.Anchor (s : TrustStore C) (id : Bytes) : Prop :=
  ∃ r, s.get id = some r ∧ .verified ≤ r.trustLevel ∧ r.endorsementDepth = 0

/-- An anchor stays one in every step that is no endorsement by a deeper
    device. -/
theorem Registry.anchor_step (g : Registry C) (a : RegistryAct)
    (ha : g.accepts a = true → a.OnEndorsement g.Shallower) (id : Bytes)
    (h : g.store.Anchor id) : (g.step a).store.Anchor id := by
  rcases h with ⟨r, hr, hlevel, hdepth⟩
  rcases (g.step_change a).grows id r hr with ⟨r', hr', _, hgrows⟩
  refine ⟨r', hr', hlevel.trans hgrows, ?_⟩
  rcases (g.step_change a).depth id r r' hr hr' with hsame | ⟨blob, i, e, heq, hok, he, hid, _⟩
  · rw [hsame, hdepth]
  · rw [heq] at ha hok
    -- No depth is below zero.
    have hlt := ha hok e r he (hid ▸ hr) hlevel
    omega

/-- What an anchor signs is accepted, unless no endorsement is. -/
theorem Registry.anchor_endorses (g : Registry C) (b id : Bytes) (r : TrustRecord C)
    (h : g.store.Anchor id) (hget : g.store.get id = some r)
    (hmax : 1 ≤ g.store.maxEndorsementDepth) (hlen : b.length = 160)
    (hsig : C.ed25519Verify r.ed25519Public (b.take 96) (b.drop 96) = true)
    (hid : b.take 32 = id) : g.accepts (.addEndorsement b id) = true := by
  rcases h with ⟨r', hr', hlevel, hdepth⟩
  rw [hget, Option.some.injEq] at hr'
  rw [← hr'] at hlevel hdepth
  refine (g.accepts_addEndorsement_iff b id).mpr ⟨r, (g.store.vouches_iff b id r).mpr
    ⟨hlen, ⟨hget, hlevel, ?_, hsig⟩, hid⟩⟩
  rw [hdepth]
  exact hmax

/-- No accepted endorsement of a run demotes its target exactly when each comes
    from a device that is closer to an operator than its target, if that is
    verified already. In such a run an anchor stays one, and its vouchers are
    accepted in every later state. -/
theorem endorsement_undemoting_iff (C : Primitives) (allowTofu : Bool) (minTrust : TrustLevel)
    (maxEndorsementDepth maxRotations : Int) (acts : List RegistryAct) :
    let start := Registry.create C allowTofu minTrust maxEndorsementDepth maxRotations
    let run := fun k => (acts.take k).foldl Registry.step start
    Along Registry.step (fun g a => g.accepts a = true → a.OnEndorsement g.Shallower) start acts ↔
      Along Registry.step (fun g a => g.accepts a = true → a.OnEndorsement (fun blob _ =>
        Registry.Undemoted g (g.step a) (C.sha256 (TrustStore.endorsedKey blob)))) start acts ∧
      ∀ j k id, j ≤ k → (run j).store.Anchor id → (run k).store.Anchor id ∧
        ∀ b r, (run k).store.get id = some r → 1 ≤ maxEndorsementDepth → b.length = 160 →
          C.ed25519Verify r.ed25519Public (b.take 96) (b.drop 96) = true → b.take 32 = id →
          (run k).accepts (.addEndorsement b id) = true := by
  intro start run
  -- At each step the condition and its effect say the same of the endorsed record.
  have hstep : ∀ (g : Registry C) a, (g.accepts a = true → a.OnEndorsement g.Shallower) ↔
      (g.accepts a = true → a.OnEndorsement (fun blob _ =>
        Registry.Undemoted g (g.step a) (C.sha256 (TrustStore.endorsedKey blob)))) := by
    intro g a
    refine forall_congr' (fun hok => ?_)
    cases a with
    | addEndorsement blob id => exact (g.undemoted_iff blob id hok).symm
    | _ => exact Iff.rfl
  have hmax : ∀ k, (run k).store.maxEndorsementDepth = maxEndorsementDepth :=
    fun k => (start.run_settings (acts.take k)).2.1
  constructor
  · intro hrun
    refine ⟨(along_congr hstep _ acts).mp hrun, fun j k id hjk hanchor => ?_⟩
    -- An anchor stays one at every step of the run, so between any two of its states.
    have hkept : (run k).store.Anchor id :=
      along_take_related (fun _ => True)
        (fun g g' : Registry C => ∀ i, g.store.Anchor i → g'.store.Anchor i)
        (fun _ _ h => h) (fun _ _ _ h h' i hi => h' i (h i hi))
        (fun g a _ ha => ⟨trivial, g.anchor_step a ha⟩) start acts trivial hrun j k hjk id hanchor
    refine ⟨hkept, fun b r hget hone => ?_⟩
    exact (run k).anchor_endorses b id r hkept hget (by rw [hmax]; exact hone)
  · intro h
    exact (along_congr hstep _ acts).mpr h.1

/-- An operator verifies a device, which endorses another, which endorses it
    back. -/
def endorsedBack : List RegistryAct := [.add (Registry.toyIdentity 1) .verified,
  .addEndorsement (Registry.toyEndorsement 1 2) (Registry.toyIdentity 1),
  .addEndorsement (Registry.toyEndorsement 2 1) (Registry.toyIdentity 2)]

/-- The device is no anchor any more, and with a limit of two what it signs is
    refused. -/
theorem endorsed_back_demotes :
    let g := (endorsedBack.take 2).foldl Registry.step
      (Registry.create toyPrimitives true .tofu 2 10)
    let a := RegistryAct.addEndorsement (Registry.toyEndorsement 2 1) (Registry.toyIdentity 2)
    g.accepts a = true ∧
      (g.store.get (Registry.toyIdentity 1)).map (fun r => (r.trustLevel, r.endorsementDepth))
        = some (.verified, 0) ∧
      ((g.step a).store.get (Registry.toyIdentity 1)).map TrustRecord.endorsementDepth = some 2 ∧
      (g.step a).accepts (.addEndorsement (Registry.toyEndorsement 1 3) (Registry.toyIdentity 1))
        = false ∧
      ¬ Registry.Undemoted g (g.step a) (Registry.toyIdentity 1) := by
  intro g a
  have hrun : g.accepts a = true ∧
      (g.store.get (Registry.toyIdentity 1)).map (fun r => (r.trustLevel, r.endorsementDepth))
        = some (.verified, 0) ∧
      ((g.step a).store.get (Registry.toyIdentity 1)).map TrustRecord.endorsementDepth = some 2 ∧
      (g.step a).accepts (.addEndorsement (Registry.toyEndorsement 1 3) (Registry.toyIdentity 1))
        = false := by
    decide +kernel
  rcases hrun with ⟨hok, hbefore, hafter, hrefused⟩
  refine ⟨hok, hbefore, hafter, hrefused, fun h => ?_⟩
  rcases Option.map_eq_some_iff.mp hbefore with ⟨r, hr, heq⟩
  rw [Prod.mk.injEq] at heq
  rcases h r hr with ⟨r', hr', _, hdepth⟩
  rw [hr', Option.map_some, Option.some.injEq] at hafter
  have hle := hdepth heq.1.ge
  omega

end Ztlnp

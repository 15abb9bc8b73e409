import Ztlnp.Theory.Migration
import Ztlnp.Theory.Transitions

/-!
# Following a Rotating Device

A device that rotates its identity key again and again, and a registry that is
told of it.

The transitions of the device reach the registry in the order in which they were
made, late or repeatedly, while anything else goes on with the registry. It then
follows the device: each transition is accepted once, every identity the device
ever had resolves to the one that the registry has got to, and the trust in that
one is no less than it was in those before. Once it has caught up, the key it
holds under the resolved identity is the key of the device.

How far it follows is a matter of the budget alone. A transition that comes late
is accepted as well, since a timestamp is only compared with the last one from the
same identity, and each identity makes one transition.

What the code leaves to its environment is said of the run. Nobody else names an
identity of the device in a transition: the manager would write the count and the
history of the device over with that of somebody else (whoever rotates into an
identity needs no key of it). And no two keys have one digest.

## Main definitions

* `Rollover`, `RolloverAct`, `Rollover.step`: The machine.
* `Rollover.lineage`: The identities of the device, the first one first.
* `RegistryAct.Apart`: A call that is about other identities.
* `Rollover.Kept`: The invariant of a run.

## Theorems

* `rotateKey_ok`: What a device says when it rotates its key.
* `Rollover.Kept.transits_iff`: Which transitions are accepted.
* `Rollover.Kept.resolve`: Where the identities of the device lead.
* `kept_rotateKey`, `kept_call`, `kept_deliver`: Every act keeps the invariant.
* `rotations_followed`: The registry follows the device.
-/

namespace Ztlnp

variable {C : Primitives}

/-- A device that rotates its key, and a registry that is told of it. -/
structure Rollover (C : Primitives) where
  device : Device C
  registry : Registry C
  /-- The transitions that the device has made. -/
  made : List KeyTransition
  /-- How many of them the registry has accepted. -/
  applied : Nat

/-- What can happen. A delivery names the place of a transition among those made. -/
inductive RolloverAct
  | rotateKey (nowMs : Nat) (identityPrivate : Bytes)
  | deliver (j nowMs : Nat)
  | call (a : RegistryAct)

/-- A call that applies no transition from or to an identity of a list. -/
def RegistryAct.Apart (ids : List Bytes) (a : RegistryAct) : Prop :=
  a.OnTransition (fun t => t.oldDeviceId ∉ ids ∧ t.newDeviceId ∉ ids)

namespace Rollover

/-- A device and an empty registry. -/
def opened (d : Device C) (g : Registry C) : Rollover C where
  device := d
  registry := g
  made := []
  applied := 0

/-- One act. The next transition is delivered, or one that was accepted before. -/
def step (x : Rollover C) : RolloverAct → Rollover C
  | .rotateKey nowMs k =>
    match (Device.rotateKey nowMs k).run x.device with
    | .ok t d => { x with device := d, made := x.made ++ [t] }
    | .error _ d => { x with device := d }
  | .deliver j nowMs =>
    if j ≤ x.applied then
      match x.made[j]? with
      | none => x
      | some t =>
        match (Registry.applyTransition nowMs t).run x.registry with
        | .ok _ g => { x with registry := g, applied := x.applied + 1 }
        | .error _ g => { x with registry := g }
    else x
  | .call a => { x with registry := x.registry.step a }

/-- The identities of a device that makes some transitions. -/
def lineage (d : Device C) (made : List KeyTransition) : List Bytes :=
  d.deviceId :: made.map KeyTransition.newDeviceId

/-- The keys of a device that makes some transitions. -/
def publicKeys (d : Device C) (made : List KeyTransition) : List Bytes :=
  d.identityPublicBytes :: made.map KeyTransition.newEd25519Public

/-- The keys that calls bring in. -/
def calledKeys (acts : List RolloverAct) : List Bytes :=
  acts.filterMap (fun a => match a with
    | .call a => a.key
    | _ => none)

end Rollover

/-- A transition that its device makes is from the old identity to the new one, and
    the old key verifies it. A rotation that fails leaves the device alone. -/
theorem rotateKey_ok (nowMs : Nat) (k : Bytes) (d d' : Device C) (t : KeyTransition)
    (h : (Device.rotateKey nowMs k).run d = .ok t d') :
    t.oldDeviceId = d.deviceId ∧ t.newDeviceId = d'.deviceId ∧
      t.newEd25519Public = d'.identityPublicBytes ∧ t.timestampMs = nowMs ∧
      (0 ≤ t.timestampMs ∧ t.timestampMs.toNat < 256 ^ 8) ∧
      C.ed25519Verify d.identityPublicBytes (Registry.signedBody t) t.signature = true := by
  simp only [Device.rotateKey, EStateM.run_bind, EStateM.run_get] at h
  -- The one failure is the transition's own check of its fields.
  cases hmade : createKeyTransition C nowMs d.identityPrivate d.deviceId (C.ed25519Public k) with
  | error x =>
      rw [hmade] at h
      simp only [run_ofExcept_error, reduceCtorEq] at h
  | ok u =>
      rw [hmade] at h
      simp only [run_ofExcept_ok, EStateM.run_set, EStateM.run_pure, EStateM.Result.ok.injEq] at h
      rcases h with ⟨rfl, rfl⟩
      rcases createKeyTransition_eq_ok nowMs _ _ _ u hmade with ⟨hbody, hsig⟩
      have hfits := (Registry.bodyBytes_eq_ok u _).mp hbody
      have hfields := hmade
      simp only [createKeyTransition, except_bind_eq_ok, KeyTransition.postInit_eq_ok] at hfields
      rcases hfields with ⟨_, _, hold, hnew, hpub, htim, _⟩
      -- The old device signs the body, and its public key is the one the transition verifies
      -- under.
      refine ⟨hold, hnew, hpub, htim, ⟨hfits.1, hfits.2.1⟩, ?_⟩
      rw [hsig, d.public_eq]
      exact C.ed25519Verify_sign _ _

namespace Rollover

section Invariant

variable {d : Device C} {all : List KeyTransition} {keys : List Bytes} {maxRotations : Int}
  {x : Rollover C}

/-- The invariant of a run that makes the given transitions in the end, with all keys
    that ever occur in it. -/
structure Kept (d : Device C) (all : List KeyTransition) (keys : List Bytes) (maxRotations : Int)
    (x : Rollover C) : Prop where
  prior : x.made <+: all
  device : (lineage d all)[x.made.length]? = some x.device.deviceId
  publicKey : x.device.identityPublicBytes ∈ keys
  /-- Each transition is from the identity before it, and was signed with its key. -/
  signed : ∀ (j : Nat) (t : KeyTransition), x.made[j]? = some t →
    (lineage d all)[j]? = some t.oldDeviceId ∧
    t.newDeviceId = C.sha256 t.newEd25519Public ∧ t.newEd25519Public ∈ keys ∧
    (0 ≤ t.timestampMs ∧ t.timestampMs.toNat < 256 ^ 8) ∧
    ∃ pub ∈ keys, C.sha256 pub = t.oldDeviceId ∧
      C.ed25519Verify pub (Registry.signedBody t) t.signature = true
  applied_le : x.applied ≤ x.made.length
  behind : ∀ (j : Nat) (t : KeyTransition), j < x.applied → x.made[j]? = some t →
    x.registry.manager.retired.get? t.oldDeviceId = some t.newDeviceId ∧
      x.registry.manager.lastTimestamp t.oldDeviceId = t.timestampMs
  ahead : ∀ j id, x.applied ≤ j → (lineage d all)[j]? = some id →
    x.registry.manager.retired.get? id = none ∧ x.registry.manager.lastTimestamp id = 0
  count : ∀ id, (lineage d all)[x.applied]? = some id →
    x.registry.manager.rotationCount id = x.applied
  known : 0 < x.applied → ∀ id, (lineage d all)[x.applied]? = some id →
    (x.registry.store.get id).isSome
  stored : ∀ id r, x.registry.store.get id = some r → r.ed25519Public ∈ keys
  budget : x.registry.manager.maxRotations = maxRotations

/-- The identity after a transition is the one it leads to. -/
theorem lineage_succ (d : Device C) (all : List KeyTransition) (j : Nat) :
    (lineage d all)[j + 1]? = all[j]?.map KeyTransition.newDeviceId := by
  rw [lineage, List.getElem?_cons_succ, List.getElem?_map]

theorem Kept.made_eq (h : x.Kept d all keys maxRotations) {j : Nat} {t : KeyTransition}
    (ht : x.made[j]? = some t) : all[j]? = some t := by
  rcases h.prior with ⟨rest, hrest⟩
  rw [← hrest, List.getElem?_append_left (List.getElem?_eq_some_iff.mp ht).1]
  exact ht

/-- There is an identity at every place up to the last transition. -/
theorem Kept.lineage_some (h : x.Kept d all keys maxRotations) {j : Nat}
    (hj : j ≤ x.made.length) : ∃ id, (lineage d all)[j]? = some id := by
  have hlength := h.prior.length_le
  have hlt : j < (lineage d all).length := by
    rw [lineage, List.length_cons, List.length_map]
    omega
  exact ⟨_, List.getElem?_eq_getElem hlt⟩

/-- Two places of one identity are the same place. -/
theorem lineage_inj (hnodup : (lineage d all).Nodup) {i j : Nat} {id : Bytes}
    (hi : (lineage d all)[i]? = some id) (hj : (lineage d all)[j]? = some id) : i = j :=
  (List.getElem?_inj (List.getElem?_eq_some_iff.mp hi).1 hnodup).mp (hi.trans hj.symm)

/-- A transition that was made is accepted if it is the next one, the device is known,
    the time is neither zero nor too far ahead, and the budget is not used up. One that
    was accepted before is not. -/
theorem Kept.transits_iff (h : x.Kept d all keys maxRotations) (hfree : Ledger.CollisionFree C keys)
    {j : Nat} {t : KeyTransition} (hj : j ≤ x.applied) (ht : x.made[j]? = some t) (nowMs : Nat) :
    (∃ old, x.registry.Transits nowMs t old) ↔ j = x.applied ∧
      (x.registry.store.get t.oldDeviceId).isSome ∧ 0 < t.timestampMs ∧
      t.timestampMs ≤ nowMs + maxRotationSkewMs ∧ (x.applied : Int) < maxRotations := by
  rcases h.signed j t ht with ⟨hold, hnew, _, hfits, pub, hpub, hdigest, hverify⟩
  constructor
  · rintro ⟨old, hget, _, hfuture, hreplay, _, _, hcount⟩
    have hnext : j = x.applied := by
      by_contra hne
      rw [(h.behind j t (by omega) ht).2] at hreplay
      exact lt_irrefl _ hreplay
    rw [hnext] at hold
    rw [(h.ahead _ _ le_rfl hold).2] at hreplay
    rw [h.count _ hold, h.budget] at hcount
    exact ⟨hnext, Option.isSome_of_eq_some hget, hreplay, hfuture, hcount⟩
  · rintro ⟨rfl, hknown, hpos, hfuture, hcount⟩
    rcases Option.isSome_iff_exists.mp hknown with ⟨old, hget⟩
    -- The stored key is the one that signed, since no other has its digest.
    have hkey : old.ed25519Public = pub := by
      refine hfree _ (h.stored _ old hget) _ hpub ?_
      rw [x.registry.store.sha256_of_get _ old hget, hdigest]
    refine ⟨old, hget, hnew, hfuture, ?_, hfits, ?_, ?_⟩
    · rw [(h.ahead _ _ le_rfl hold).2]
      exact hpos
    · rw [hkey]
      exact hverify
    · rw [h.count _ hold, h.budget]
      exact hcount

/-- Every identity up to the last accepted transition leads to where that one leads. -/
theorem Kept.resolve (h : x.Kept d all keys maxRotations) {j : Nat} {id last : Bytes}
    (hj : j ≤ x.applied) (hid : (lineage d all)[j]? = some id)
    (hlast : (lineage d all)[x.applied]? = some last) :
    x.registry.manager.resolve id = some last := by
  have hpath : ∀ n i a, i + n = x.applied → (lineage d all)[i]? = some a →
      Relation.ReflTransGen (Steps x.registry.manager.retired) a last := by
    intro n
    induction n with
    | zero =>
        intro i a hi ha
        rw [Nat.add_zero] at hi
        rw [hi, hlast, Option.some.injEq] at ha
        rw [ha]
    | succ n ih =>
        intro i a hi ha
        -- The transition from here was accepted, so there is a step along the table.
        have hlt : i < x.made.length := by
          have hle := h.applied_le
          omega
        have ht := List.getElem?_eq_getElem hlt
        rcases h.signed i _ ht with ⟨hold, _⟩
        rw [ha, Option.some.injEq] at hold
        have hnext : (lineage d all)[i + 1]? = some x.made[i].newDeviceId := by
          rw [lineage_succ, h.made_eq ht, Option.map_some]
        refine .head (b := x.made[i].newDeviceId) ?_ (ih (i + 1) _ (by omega) hnext)
        rw [hold]
        exact (h.behind i _ (by omega) ht).1
  exact pursue_of_endsAt ⟨hpath (x.applied - j) j id (by omega) hid, (h.ahead _ _ le_rfl hlast).1⟩

/-- A rotation of the device. -/
theorem kept_rotateKey (h : x.Kept d all keys maxRotations) (nowMs : Nat) (k : Bytes)
    (hprior : (x.step (.rotateKey nowMs k)).made <+: all)
    (hkeys : ∀ t ∈ all, t.newEd25519Public ∈ keys) :
    (x.step (.rotateKey nowMs k)).Kept d all keys maxRotations := by
  rw [step] at hprior ⊢
  cases hrun : (Device.rotateKey nowMs k).run x.device with
  | error e d' =>
      rw [hrun] at hprior
      -- A rotation that raises leaves the device as it was, so every clause stands.
      have hsame : d' = x.device := by
        simp only [Device.rotateKey, EStateM.run_bind, EStateM.run_get] at hrun
        cases hmade : createKeyTransition C nowMs x.device.identityPrivate x.device.deviceId
            (C.ed25519Public k) with
        | error e' =>
            rw [hmade] at hrun
            simp only [run_ofExcept_error, EStateM.Result.error.injEq] at hrun
            exact hrun.2.symm
        | ok u =>
            rw [hmade] at hrun
            simp only [run_ofExcept_ok, EStateM.run_set, EStateM.run_pure, reduceCtorEq] at hrun
      rw [hsame]
      exact ⟨h.prior, h.device, h.publicKey, h.signed, h.applied_le, h.behind, h.ahead, h.count,
        h.known, h.stored, h.budget⟩
  | ok t d' =>
      rw [hrun] at hprior
      simp only at hprior ⊢
      rcases rotateKey_ok nowMs k x.device d' t hrun with
        ⟨hold, hnew, hpub, _, hfits, hverify⟩
      -- The new transition is the next of `all`, as what was made stays a prefix of it.
      have hall : all[x.made.length]? = some t := by
        rcases hprior with ⟨rest, hrest⟩
        rw [← hrest, List.append_assoc, List.getElem?_append_right le_rfl, Nat.sub_self]
        rfl
      have hmem : t.newEd25519Public ∈ keys := hkeys t (List.mem_of_getElem? hall)
      -- Old transitions keep their place and the new one is the last.
      have hsigned : ∀ j u, (x.made ++ [t])[j]? = some u → x.made[j]? = some u ∨
          (j = x.made.length ∧ u = t) := by
        intro j u hu
        rcases Nat.lt_trichotomy j x.made.length with hlt | heq | hgt
        · rw [List.getElem?_append_left hlt] at hu
          exact Or.inl hu
        · rw [heq, List.getElem?_append_right le_rfl, Nat.sub_self, List.getElem?_cons_zero,
            Option.some.injEq] at hu
          exact Or.inr ⟨heq, hu.symm⟩
        · rw [List.getElem?_eq_none (by
            rw [List.length_append, List.length_singleton]
            omega)] at hu
          simp only [reduceCtorEq] at hu
      -- The registry is not touched: what is about it carries over, and the lineage grows by one
      -- device.
      refine ⟨hprior, ?_, hpub ▸ hmem, ?_, ?_, ?_, h.ahead, h.count, h.known, h.stored, h.budget⟩
      · rw [List.length_append, List.length_singleton, lineage_succ, hall, Option.map_some, hnew]
      · intro j u hu
        rcases hsigned j u hu with hprev | ⟨rfl, rfl⟩
        · exact h.signed j u hprev
        · -- The new transition leads from the present device to the one it makes.
          refine ⟨?_, ?_, hmem, hfits, x.device.identityPublicBytes, h.publicKey, ?_, hverify⟩
          · rw [h.device, hold]
          · rw [hnew, hpub]
            exact d'.deviceId_eq
          · rw [hold]
            exact x.device.deviceId_eq.symm
      · rw [List.length_append]
        exact h.applied_le.trans (Nat.le_add_right _ _)
      · intro j u hj hu
        -- The new transition is not behind the registry, which has not seen it yet.
        rcases hsigned j u hu with hprev | ⟨rfl, _⟩
        · exact h.behind j u hj hprev
        · exact absurd hj (not_lt.mpr h.applied_le)

/-- A call that is about other identities. -/
theorem kept_call (h : x.Kept d all keys maxRotations) (a : RegistryAct)
    (hapart : a.Apart (lineage d all)) (hkey : ∀ k, a.key = some k → k ∈ keys) :
    (x.step (.call a)).Kept d all keys maxRotations := by
  have hchange := x.registry.step_change a
  -- The tables say the same about the identities of the device.
  have htables : ∀ id ∈ lineage d all,
      x.registry.manager.AgreesAt (x.registry.step a).manager id := by
    intro id hid
    rcases (Ledger.transitions_step ⟨x.registry, []⟩ a) with ⟨_, hsame, _⟩ |
      ⟨nowMs, t, old, rfl, _, _, _, hrecorded⟩
    · rw [show (x.registry.step a).manager = x.registry.manager from hsame]
      exact ⟨rfl, rfl, rfl, rfl⟩
    · rw [show (x.registry.step _).manager = Registry.recorded x.registry.manager t
        from hrecorded]
      rcases (hapart : t.oldDeviceId ∉ lineage d all ∧ t.newDeviceId ∉ lineage d all) with
        ⟨hold, hnew⟩
      refine Registry.recorded_agreesAt _ t id ?_ ?_
      · rintro rfl
        exact hold hid
      · rintro rfl
        exact hnew hid
  have hmem : ∀ {j : Nat} {id : Bytes}, (lineage d all)[j]? = some id → id ∈ lineage d all :=
    fun hj => List.mem_of_getElem? hj
  refine ⟨h.prior, h.device, h.publicKey, h.signed, h.applied_le, ?_, ?_, ?_, ?_, ?_,
    hchange.settings.2.2.trans h.budget⟩
  · intro j t hj ht
    have hagree := htables _ (hmem (h.signed j t ht).1)
    rcases h.behind j t hj ht with ⟨hretired, hlast⟩
    refine ⟨hagree.retired.trans hretired, ?_⟩
    rw [← hlast]
    exact congrArg (fun o : Option Int => o.getD 0) hagree.lastTs
  · intro j id hj hid
    have hagree := htables _ (hmem hid)
    rcases h.ahead j id hj hid with ⟨hretired, hlast⟩
    refine ⟨hagree.retired.trans hretired, ?_⟩
    rw [← hlast]
    exact congrArg (fun o : Option Int => o.getD 0) hagree.lastTs
  · intro id hid
    have hcount : (x.registry.step a).manager.rotationCount id
        = x.registry.manager.rotationCount id :=
      congrArg (fun o : Option Nat => o.getD 0) (htables _ (hmem hid)).rotationCounts
    exact hcount.trans (h.count id hid)
  · intro hpos id hid
    rcases Option.isSome_iff_exists.mp (h.known hpos id hid) with ⟨r, hr⟩
    rcases hchange.grows id r hr with ⟨r', hr', _⟩
    exact Option.isSome_of_eq_some hr'
  · exact hchange.keys_mem keys h.stored hkey

/-- The registry after the next transition was accepted. -/
theorem kept_accepted (h : x.Kept d all keys maxRotations) (hnodup : (lineage d all).Nodup)
    {t : KeyTransition} {nowMs : Nat} {old new : TrustRecord C} (ht : x.made[x.applied]? = some t)
    (htransits : x.registry.Transits nowMs t old)
    (hnew : x.registry.store.upsert t.newEd25519Public old.trustLevel = some new) :
    ({ x with registry := x.registry.migrated t old new, applied := x.applied + 1 } :
      Rollover C).Kept d all keys maxRotations := by
  have hold := (h.signed _ t ht).1
  have hnext : (lineage d all)[x.applied + 1]? = some t.newDeviceId := by
    rw [lineage_succ, h.made_eq ht, Option.map_some]
  have hlt := (List.getElem?_eq_some_iff.mp ht).1
  -- Other places of the line hold other identities.
  have hapart : ∀ {j : Nat} {id : Bytes}, (lineage d all)[j]? = some id → j ≠ x.applied →
      id ≠ t.oldDeviceId := by
    rintro j id hj hne rfl
    exact hne (lineage_inj hnodup hj hold)
  refine ⟨h.prior, h.device, h.publicKey, h.signed, hlt, ?_, ?_, ?_, ?_, ?_, h.budget⟩
  · intro j u hj hu
    by_cases hje : j = x.applied
    · rw [hje, ht, Option.some.injEq] at hu
      rw [← hu]
      exact ⟨Dict.get?_set_self _ _ _, by
        rw [Registry.migrated, Registry.recorded_lastTimestamp, if_pos rfl]⟩
    · have hne := hapart (h.signed j u hu).1 hje
      rcases h.behind j u (by simp only at hj; omega) hu with ⟨hretired, hlast⟩
      refine ⟨(Dict.get?_set_ne _ _ hne).trans hretired, ?_⟩
      rw [Registry.migrated, Registry.recorded_lastTimestamp, if_neg hne]
      exact hlast
  · intro j id hj hid
    simp only at hj
    have hne := hapart hid (by omega)
    rcases h.ahead j id (by omega) hid with ⟨hretired, hlast⟩
    refine ⟨(Dict.get?_set_ne _ _ hne).trans hretired, ?_⟩
    rw [Registry.migrated, Registry.recorded_lastTimestamp, if_neg hne]
    exact hlast
  · intro id hid
    simp only [hnext, Option.some.injEq] at hid
    rw [Registry.migrated, Registry.recorded_rotationCount, if_pos hid.symm, h.count _ hold]
  · intro _ id hid
    simp only [hnext, Option.some.injEq] at hid
    have hfiled : new.deviceId = t.newDeviceId :=
      (x.registry.store.upsert_cases _ _ new hnew).1.trans htransits.2.1.symm
    rw [Registry.migrated, TrustStore.get_put, if_pos (hid.symm.trans hfiled.symm)]
    rfl
  · have hchange : Registry.Change x.registry (.applyTransition nowMs t) true
        (x.registry.migrated t old new) := .rotated nowMs t old new htransits hnew
    refine hchange.keys_mem keys h.stored ?_
    intro k hk
    rw [RegistryAct.key, Option.some.injEq] at hk
    rw [← hk]
    exact (h.signed _ t ht).2.2.1

/-- A delivery is refused and leaves everything as it is, or it is that of the next
    transition and the device is followed. -/
theorem deliver_cases (h : x.Kept d all keys maxRotations) (hfree : Ledger.CollisionFree C keys)
    (j nowMs : Nat) :
    x.step (.deliver j nowMs) = x ∨
      ∃ t old new, x.made[x.applied]? = some t ∧ x.registry.Transits nowMs t old ∧
        x.registry.store.upsert t.newEd25519Public old.trustLevel = some new ∧
        x.step (.deliver j nowMs)
          = { x with registry := x.registry.migrated t old new, applied := x.applied + 1 } := by
  rw [step]
  by_cases hj : j ≤ x.applied
  · rw [if_pos hj]
    cases ht : x.made[j]? with
    | none => exact Or.inl rfl
    | some t =>
        rcases x.registry.applyTransition_cases nowMs t with
          ⟨_, e, herr⟩ | ⟨old, new, htransits, hnew, hok⟩
        · left
          simp only [herr]
        · -- Accepted means it is the next one, so `applied` is its place.
          simp only [hok]
          have hnext := ((h.transits_iff hfree hj ht nowMs).mp ⟨old, htransits⟩).1
          exact Or.inr ⟨t, old, new, hnext ▸ ht, htransits, hnew, rfl⟩
  · rw [if_neg hj]
    exact Or.inl rfl

/-- The trust in where the registry has got to does not fall. -/
def Upheld (d : Device C) (all : List KeyTransition) (x y : Rollover C) : Prop :=
  ∀ id r, (lineage d all)[x.applied]? = some id → x.registry.store.get id = some r →
    ∃ id' r', (lineage d all)[y.applied]? = some id' ∧ y.registry.store.get id' = some r' ∧
      r.trustLevel ≤ r'.trustLevel

theorem Upheld.trans {x y z : Rollover C} (hxy : x.Upheld d all y) (hyz : y.Upheld d all z) :
    x.Upheld d all z := by
  intro id r hid hr
  rcases hxy id r hid hr with ⟨id', r', hid', hr', hle⟩
  rcases hyz id' r' hid' hr' with ⟨id'', r'', hid'', hr'', hle'⟩
  exact ⟨id'', r'', hid'', hr'', hle.trans hle'⟩

/-- What an act may be, for the invariant to be kept. -/
def Permitted (d : Device C) (all : List KeyTransition) (keys : List Bytes) (x : Rollover C)
    (a : RolloverAct) : Prop :=
  (x.step a).made <+: all ∧
    ∀ b, a = .call b → b.Apart (lineage d all) ∧ ∀ k, b.key = some k → k ∈ keys

/-- Every permitted act keeps the invariant and the trust. -/
theorem kept_step (hnodup : (lineage d all).Nodup) (hfree : Ledger.CollisionFree C keys)
    (hkeys : ∀ t ∈ all, t.newEd25519Public ∈ keys) (a : RolloverAct)
    (h : x.Kept d all keys maxRotations) (ha : Permitted d all keys x a) :
    (x.step a).Kept d all keys maxRotations ∧ x.Upheld d all (x.step a) := by
  cases a with
  | rotateKey nowMs k =>
      refine ⟨kept_rotateKey h nowMs k ha.1 hkeys, fun id r hid hr => ⟨id, r, ?_⟩⟩
      rw [step]
      cases (Device.rotateKey nowMs k).run x.device with
      | ok t d' => exact ⟨hid, hr, le_rfl⟩
      | error e d' => exact ⟨hid, hr, le_rfl⟩
  | call b =>
      rcases ha.2 b rfl with ⟨hapart, hkey⟩
      refine ⟨kept_call h b hapart hkey, fun id r hid hr => ?_⟩
      rcases (x.registry.step_change b).grows id r hr with ⟨r', hr', _, hle⟩
      exact ⟨id, r', hid, hr', hle⟩
  | deliver j nowMs =>
      rcases deliver_cases h hfree j nowMs with hsame | ⟨t, old, new, ht, htransits, hnew, hnow⟩
      · rw [hsame]
        exact ⟨h, fun id r hid hr => ⟨id, r, hid, hr, le_rfl⟩⟩
      · rw [hnow]
        refine ⟨kept_accepted h hnodup ht htransits hnew, fun id r hid hr => ?_⟩
        -- The new record has the level of the old one, or a higher one it had before.
        rw [(h.signed _ t ht).1, Option.some.injEq] at hid
        rw [← hid, htransits.1, Option.some.injEq] at hr
        have hnext : (lineage d all)[x.applied + 1]? = some t.newDeviceId := by
          rw [lineage_succ, h.made_eq ht, Option.map_some]
        rcases x.registry.store.upsert_cases _ _ new hnew with ⟨hfiled, hlevel⟩
        refine ⟨_, { new with endorsers := carryOver old.endorsers new.endorsers }, hnext, ?_, ?_⟩
        · rw [Registry.migrated, TrustStore.get_put, if_pos (htransits.2.1.trans hfiled.symm)]
        · rw [← hr]
          rcases hlevel with ⟨prev, _, heq⟩ | ⟨_, _, heq, _⟩
          · rw [heq]
            exact le_max_right _ _
          · exact heq.ge

/-- Making transitions only adds to those made. -/
theorem made_step (x : Rollover C) (a : RolloverAct) : x.made <+: (x.step a).made := by
  cases a with
  | rotateKey nowMs k =>
      rw [step]
      cases (Device.rotateKey nowMs k).run x.device with
      | ok t d' => exact List.prefix_append _ _
      | error e d' => exact List.prefix_refl _
  | call b => exact List.prefix_refl _
  | deliver j nowMs =>
      rw [step]
      by_cases hj : j ≤ x.applied
      · rw [if_pos hj]
        cases x.made[j]? with
        | none => exact List.prefix_refl _
        | some t =>
            simp only
            cases (Registry.applyTransition nowMs t).run x.registry with
            | ok u g => exact List.prefix_refl _
            | error e g => exact List.prefix_refl _
      · rw [if_neg hj]

theorem made_run (x : Rollover C) (acts : List RolloverAct) :
    x.made <+: (acts.foldl step x).made := by
  induction acts generalizing x with
  | nil => exact List.prefix_refl _
  | cons a acts ih => exact (made_step x a).trans (ih _)

/-- A run is permitted from the view of where it ends. -/
theorem permitted_run (d : Device C) (keys : List Bytes) (all : List KeyTransition)
    (acts : List RolloverAct) (x : Rollover C) (hall : (acts.foldl step x).made <+: all)
    (hcalls : ∀ b, RolloverAct.call b ∈ acts →
      b.Apart (lineage d all) ∧ ∀ k, b.key = some k → k ∈ keys) :
    Along step (Permitted d all keys) x acts := by
  induction acts generalizing x with
  | nil => trivial
  | cons a acts ih =>
      refine ⟨⟨(made_run _ acts).trans hall, fun b hb => hcalls b ?_⟩,
        ih _ hall (fun b hb => hcalls b (List.mem_cons_of_mem a hb))⟩
      rw [← hb]
      exact List.mem_cons_self

/-- A device that has made no transition yet, and an empty registry. -/
theorem opened_inStep (d : Device C) (allowTofu : Bool) (minTrust : TrustLevel)
    (maxEndorsementDepth maxRotations : Int) (all : List KeyTransition) (keys : List Bytes)
    (hkey : d.identityPublicBytes ∈ keys) :
    (opened d (Registry.create C allowTofu minTrust maxEndorsementDepth maxRotations)).Kept d all
      keys maxRotations where
  prior := List.nil_prefix
  device := rfl
  publicKey := hkey
  signed := fun _ _ h => absurd h (by simp only [opened, List.getElem?_nil, reduceCtorEq,
    not_false_eq_true])
  applied_le := le_rfl
  behind := fun _ _ h => absurd h (Nat.not_lt_zero _)
  ahead := fun _ _ _ _ => ⟨rfl, rfl⟩
  count := fun _ _ => rfl
  known := fun h => absurd h (Nat.not_lt_zero _)
  stored := fun _ _ h => absurd h (by simp only [opened, Registry.create, TrustStore.get,
    Dict.get?_empty, reduceCtorEq, not_false_eq_true])
  budget := rfl

end Invariant

end Rollover

open Rollover

/-- A registry follows a device that rotates its key, where its transitions arrive in
    order, perhaps late or repeatedly, and no others name its identities. These are
    distinct, and no two keys of the run have one digest. Every identity it had up to the
    last accepted transition resolves to where that one leads, and the count is the
    number of transitions accepted. The next transition is accepted exactly
    if the device is known, the time is positive and not too far ahead, and the budget
    is not used up; an earlier one never is. A registry that has caught up resolves the
    first identity to the present one, and has its key. And the trust in where the
    registry has got to never falls. -/
theorem rotations_followed (d : Device C) (allowTofu : Bool) (minTrust : TrustLevel)
    (maxEndorsementDepth maxRotations : Int) (acts : List RolloverAct) (x : Rollover C)
    (hx : x = acts.foldl step (opened d (Registry.create C allowTofu minTrust
      maxEndorsementDepth maxRotations)))
    (hnodup : (lineage d x.made).Nodup)
    (hfree : Ledger.CollisionFree C (publicKeys d x.made ++ calledKeys acts))
    (hapart : ∀ a, RolloverAct.call a ∈ acts → a.Apart (lineage d x.made)) :
    (∃ current, (lineage d x.made)[x.applied]? = some current ∧
      x.registry.manager.rotationCount current = x.applied ∧
      ∀ j ≤ x.applied, ∀ id, (lineage d x.made)[j]? = some id →
        x.registry.manager.resolve id = some current) ∧
    (∀ j ≤ x.applied, ∀ t, x.made[j]? = some t → ∀ nowMs,
      (∃ g, (Registry.applyTransition nowMs t).run x.registry = .ok () g) ↔
        j = x.applied ∧ (x.registry.store.get t.oldDeviceId).isSome ∧ 0 < t.timestampMs ∧
          t.timestampMs ≤ nowMs + maxRotationSkewMs ∧ (x.applied : Int) < maxRotations) ∧
    (x.applied = x.made.length →
      x.registry.manager.resolve d.deviceId = some x.device.deviceId ∧
      (0 < x.applied → (x.registry.store.get x.device.deviceId).isSome) ∧
      ∀ r, x.registry.store.get x.device.deviceId = some r →
        r.ed25519Public = x.device.identityPublicBytes) ∧
    ∀ n, ((acts.take n).foldl step (opened d (Registry.create C allowTofu minTrust
      maxEndorsementDepth maxRotations))).Upheld d x.made x := by
  -- The keys of the run are the device's own and the ones the calls bring.
  have hkeys : ∀ t ∈ x.made, t.newEd25519Public ∈ publicKeys d x.made ++ calledKeys acts :=
    fun t ht => List.mem_append_left _ (List.mem_cons_of_mem _ (List.mem_map_of_mem ht))
  have hfirst : d.identityPublicBytes ∈ publicKeys d x.made ++ calledKeys acts :=
    List.mem_append_left _ List.mem_cons_self
  have hrun := permitted_run d (publicKeys d x.made ++ calledKeys acts) x.made acts
    (opened d (Registry.create C allowTofu minTrust maxEndorsementDepth maxRotations))
    (by rw [← hx]) (fun b hb => ⟨hapart b hb, fun k hk =>
      List.mem_append_right _ (List.mem_filterMap.mpr ⟨.call b, hb, hk⟩)⟩)
  have hstart := opened_inStep d allowTofu minTrust maxEndorsementDepth maxRotations x.made _ hfirst
  have hstep := fun y a (hy : Kept d x.made (publicKeys d x.made ++ calledKeys acts) maxRotations y)
    ha => kept_step hnodup hfree hkeys a hy ha
  -- The invariant and the relation of what was upheld come from one step lemma.
  have hkept := along_invariant _ (fun y a hy ha => (hstep y a hy ha).1) _ acts hstart hrun
  rw [← hx] at hkept
  rcases hkept.lineage_some hkept.applied_le with ⟨current, hcurrent⟩
  refine ⟨⟨current, hcurrent, hkept.count _ hcurrent,
    fun j hj id hid => hkept.resolve hj hid hcurrent⟩, fun j hj t ht nowMs => ?_,
    fun hcaught => ?_, fun n => ?_⟩
  · rw [← hkept.transits_iff hfree hj ht nowMs]
    rcases x.registry.applyTransition_cases nowMs t with
      ⟨hno, e, herr⟩ | ⟨old, new, htransits, _, hok⟩
    · rw [herr]
      simp only [reduceCtorEq, exists_false, false_iff, not_exists]
      exact hno
    · exact ⟨fun _ => ⟨old, htransits⟩, fun _ => ⟨_, hok⟩⟩
  · have hdevice := hkept.device
    rw [← hcaught] at hdevice
    refine ⟨hkept.resolve (Nat.zero_le _) rfl hdevice, fun hpos => hkept.known hpos _ hdevice,
      fun r hr => ?_⟩
    -- The stored key hashes to the id of the device, so it is the device's key.
    refine hfree _ (hkept.stored _ r hr) _ hkept.publicKey ?_
    rw [x.registry.store.sha256_of_get _ r hr, x.device.deviceId_eq]
  · have hupheld := along_take_related
      (Kept d x.made (publicKeys d x.made ++ calledKeys acts) maxRotations)
      (fun y z => y.Upheld d x.made z) (fun y id r hid hr => ⟨id, r, hid, hr, le_rfl⟩)
      (fun _ _ _ => Upheld.trans) hstep _ acts hstart hrun n (max n acts.length) (le_max_left _ _)
    -- A prefix of the run is related to its end.
    rw [List.take_of_length_le (le_max_right _ _), ← hx] at hupheld
    exact hupheld

/-- A device rotates twice. The first transition is delivered twice. -/
def twiceRotated : List RolloverAct := [.call (.add (Registry.toyIdentity 1) .verified),
  .rotateKey 1000 [2], .rotateKey 2000 [3], .deliver 0 5000, .deliver 0 6000, .deliver 1 7000]

/-- The registry has caught up. -/
theorem twiceRotated_followed :
    ∃ x : Rollover toyPrimitives,
      x.registry.manager.resolve (Registry.toyIdentity 1) = some (Registry.toyIdentity 3) ∧
      (x.registry.store.get (Registry.toyIdentity 3)).isSome := by
  have hend : (twiceRotated.foldl step (opened (Device.create toyPrimitives [1])
      (Registry.create toyPrimitives true .tofu 3 10))).made
      = [Registry.toyTransition 1 2 1000, Registry.toyTransition 2 3 2000] := by decide +kernel
  have hfollowed := (rotations_followed (Device.create toyPrimitives [1]) true .tofu 3 10
    twiceRotated _ rfl (by rw [hend]; decide +kernel) (by rw [hend]; decide +kernel) (by
      intro a ha
      simp only [twiceRotated, List.mem_cons, RolloverAct.call.injEq, reduceCtorEq,
        List.not_mem_nil, or_false] at ha
      rw [ha]
      trivial)).2.2.1 (by decide +kernel)
  have hdevice : (twiceRotated.foldl step (opened (Device.create toyPrimitives [1])
      (Registry.create toyPrimitives true .tofu 3 10))).device.deviceId
      = Registry.toyIdentity 3 := by decide +kernel
  rw [hdevice] at hfollowed
  exact ⟨_, hfollowed.1, hfollowed.2.1 (by decide +kernel)⟩

end Ztlnp

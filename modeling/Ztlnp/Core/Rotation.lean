import Ztlnp.Core.Device
import Ztlnp.Core.Trust
import Ztlnp.Lib.Pursuit

/-!
# Identity Key Rotation

The transitions and the rotation manager of `identity.py`.

A transition is a statement, signed with the old identity key, that a new key
takes its place; a device makes one when it swaps its key. The manager checks
it against the trust store and migrates the standing of the old identity to
the new one. Its own tables record which identities were retired, how long
each chain is, and the time of the last transition from each identity.

The manager keeps a reference to the store it writes to, so the two are one
state here, a `Registry`. `Transits` says exactly which transitions are
accepted, and `Registry.migrated` is what an accepted one leaves.

## Main definitions

* `KeyTransition`: A signed transition.
* `KeyTransition.bodyBytes`: The bytes its signature covers.
* `KeyTransition.toBytes`, `KeyTransition.fromBytes`: Its wire format.
* `createKeyTransition`, `Device.rotateKey`: Making one.
* `RotationManager`: The manager's tables.
* `RotationManager.resolve`, `RotationManager.rotationHistory`: Queries.
* `Registry`: A trust store with its rotation manager.
* `Registry.applyTransition`: Validating and applying a transition.
* `Registry.Transits`: A transition that is accepted.
* `Registry.migrated`: The registry after an accepted transition.

## Theorems

* `Registry.recorded_isRetired`, `Registry.recorded_rotationCount`: The tables
  after a transition.
* `Registry.signedBody_fields`: What the body of a transition says.
* `Registry.applyTransition_accepts`: What an accepted transition does.
* `Registry.applyTransition_refuses`: Any other transition raises and changes
  nothing.
* `Registry.applyTransition_cases`: The two outcomes together.
-/

namespace Ztlnp

/-- `_BODY_SIZE`: two identities, a key and a timestamp. -/
def transitionBodySize : Nat := 104

/-- `TRANSITION_SIZE`: the body and its signature. -/
def transitionSize : Nat := 168

/-- `_MAX_CLOCK_SKEW_MS` of the rotation manager. -/
def maxRotationSkewMs : Nat := 30000

/-- A signed announcement that an identity key is being replaced. -/
@[ext]
structure KeyTransition where
  oldDeviceId : Bytes
  newDeviceId : Bytes
  newEd25519Public : Bytes
  timestampMs : Int
  signature : Bytes
  oldDeviceId_length : oldDeviceId.length = 32
  newDeviceId_length : newDeviceId.length = 32
  newEd25519Public_length : newEd25519Public.length = 32
  signature_length : signature.length = 64

instance : DecidableEq KeyTransition := fun _ _ => decidable_of_iff' _ KeyTransition.ext_iff

/-- `KeyTransition.__post_init__`: the constructor and its checks. -/
def KeyTransition.postInit (oldDeviceId newDeviceId newEd25519Public : Bytes) (timestampMs : Int)
    (signature : Bytes) : Except Exn KeyTransition :=
  if ho : oldDeviceId.length = 32 then
    if hn : newDeviceId.length = 32 then
      if hp : newEd25519Public.length = 32 then
        if hs : signature.length = 64 then
          .ok
            { oldDeviceId, newDeviceId, newEd25519Public, timestampMs, signature
              oldDeviceId_length := ho
              newDeviceId_length := hn
              newEd25519Public_length := hp
              signature_length := hs }
        else .error ⟨.valueError, "signature must be 64 bytes"⟩
      else .error ⟨.valueError, "new_ed25519_public must be 32 bytes"⟩
    else .error ⟨.valueError, "new_device_id must be 32 bytes"⟩
  else .error ⟨.valueError, "old_device_id must be 32 bytes"⟩

/-- `_body_bytes`: the signed part. A timestamp outside its eight octets
    raises while it is packed. -/
def KeyTransition.bodyBytes (t : KeyTransition) : Except Exn Bytes := do
  let tim ←
    if 0 ≤ t.timestampMs then packUInt 8 t.timestampMs.toNat "int too large to convert"
    else .error ⟨.structError, "int too large to convert"⟩
  return t.oldDeviceId ++ t.newDeviceId ++ t.newEd25519Public ++ tim

/-- `to_bytes`. -/
def KeyTransition.toBytes (t : KeyTransition) : Except Exn Bytes := do
  return (← t.bodyBytes) ++ t.signature

/-- `from_bytes`. Everything behind the body is the signature. -/
def KeyTransition.fromBytes (data : Bytes) : Except Exn KeyTransition :=
  if data.length ≠ transitionSize then
    .error ⟨.keyRotationError, "KeyTransition blob must be " ++ toString transitionSize ++
      " bytes, got " ++ toString data.length⟩
  else
    KeyTransition.postInit (field data 0 32) (field data 32 32) (field data 64 32)
      (beDecode (field data 96 8)) (data.drop transitionBodySize)

/-- `create_key_transition`, with the clock reading it makes. -/
def createKeyTransition (C : Primitives) (nowMs : Nat)
    (oldPrivate oldDeviceId newEd25519Public : Bytes) : Except Exn KeyTransition := do
  let newDeviceId := C.sha256 newEd25519Public
  let tim ← packUInt 8 nowMs "int too large to convert"
  let body := oldDeviceId ++ newDeviceId ++ newEd25519Public ++ tim
  KeyTransition.postInit oldDeviceId newDeviceId newEd25519Public nowMs
    (C.ed25519Sign oldPrivate body)

/-- The device under a new identity key. Its tables stay. -/
def Device.withIdentity {C : Primitives} (d : Device C) (identityPrivate : Bytes) : Device C :=
  { d with
    identityPrivate
    identityPublicBytes := C.ed25519Public identityPrivate
    deviceId := C.sha256 (C.ed25519Public identityPrivate)
    public_eq := (Device.create C identityPrivate).public_eq
    deviceId_eq := (Device.create C identityPrivate).deviceId_eq }

/-- `rotate_key`, with the private key that was generated. The key is swapped
    once the transition is signed. -/
def Device.rotateKey {C : Primitives} (nowMs : Nat) (identityPrivate : Bytes) :
    EStateM Exn (Device C) KeyTransition := do
  let d ← get
  let transition ← ofExcept (createKeyTransition C nowMs d.identityPrivate d.deviceId
    (C.ed25519Public identityPrivate))
  set (d.withIdentity identityPrivate)
  return transition

/-- A rotation swaps the key, or raises and changes nothing. -/
theorem Device.rotateKey_final {C : Primitives} (nowMs : Nat) (identityPrivate : Bytes)
    (d : Device C) :
    ((Device.rotateKey nowMs identityPrivate).run d).final = d ∨
      ((Device.rotateKey nowMs identityPrivate).run d).final
        = d.withIdentity identityPrivate := by
  simp only [Device.rotateKey, EStateM.run_bind, EStateM.run_get]
  cases createKeyTransition C nowMs d.identityPrivate d.deviceId
      (C.ed25519Public identityPrivate) with
  | error x => exact Or.inl rfl
  | ok t => exact Or.inr rfl

/-- A completed rotation. -/
structure RotationRecord where
  oldDeviceId : Bytes
  newDeviceId : Bytes
  timestampMs : Int
deriving DecidableEq

/-- The tables of the rotation manager. -/
structure RotationManager where
  maxRotations : Int := 10
  /-- The successor of each retired identity. -/
  retired : Dict Bytes Bytes := Dict.empty
  history : Dict Bytes (List RotationRecord) := Dict.empty
  /-- The length of the chain that ends in an identity. -/
  rotationCounts : Dict Bytes Nat := Dict.empty
  /-- The time of the last transition from an identity. -/
  lastTs : Dict Bytes Int := Dict.empty
deriving DecidableEq

/-- `is_retired`. -/
def RotationManager.isRetired (m : RotationManager) (deviceId : Bytes) : Bool :=
  (m.retired.get? deviceId).isSome

/-- `rotation_count`. -/
def RotationManager.rotationCount (m : RotationManager) (deviceId : Bytes) : Nat :=
  (m.rotationCounts.get? deviceId).getD 0

/-- The last timestamp seen from an identity, zero if there is none. -/
def RotationManager.lastTimestamp (m : RotationManager) (deviceId : Bytes) : Int :=
  (m.lastTs.get? deviceId).getD 0

/-- `resolve`: follow the retirements from an identity. Nothing is returned by a
    loop that has not come to an end. -/
def RotationManager.resolve (m : RotationManager) (deviceId : Bytes) : Option Bytes :=
  pursue m.retired deviceId

/-- `rotation_history`. -/
def RotationManager.rotationHistory (m : RotationManager) (deviceId : Bytes) :
    List RotationRecord :=
  (m.history.get? deviceId).getD []

/-- A trust store together with the manager that rotates its keys. -/
structure Registry (C : Primitives) where
  store : TrustStore C := {}
  manager : RotationManager := {}
deriving DecidableEq

variable {C : Primitives}

/-- The endorsers of a record after those of another were carried over. -/
def carryOver (old new : List Bytes) : List Bytes :=
  old.foldl (fun acc e => if e ∈ acc then acc else acc ++ [e]) new

namespace Registry

/-- The manager's tables after a transition was recorded. -/
def recorded (m : RotationManager) (t : KeyTransition) : RotationManager :=
  { m with
    retired := m.retired.set t.oldDeviceId t.newDeviceId
    lastTs := m.lastTs.set t.oldDeviceId t.timestampMs
    rotationCounts := m.rotationCounts.set t.newDeviceId (m.rotationCount t.oldDeviceId + 1)
    history := m.history.set t.newDeviceId ((m.history.get? t.newDeviceId).getD [] ++
      [⟨t.oldDeviceId, t.newDeviceId, t.timestampMs⟩]) }

/-- Recording a transition retires its old identity. -/
theorem recorded_isRetired (m : RotationManager) (t : KeyTransition) (id : Bytes) :
    (recorded m t).isRetired id = if id = t.oldDeviceId then true else m.isRetired id := by
  simp only [recorded, RotationManager.isRetired, Dict.get?_set]
  by_cases hid : id = t.oldDeviceId
  · rw [if_pos hid, if_pos hid]
    rfl
  · rw [if_neg hid, if_neg hid]

/-- Recording a transition writes the count of its new identity. -/
theorem recorded_rotationCount (m : RotationManager) (t : KeyTransition) (id : Bytes) :
    (recorded m t).rotationCount id =
      if id = t.newDeviceId then m.rotationCount t.oldDeviceId + 1 else m.rotationCount id := by
  simp only [recorded, RotationManager.rotationCount, Dict.get?_set]
  by_cases hid : id = t.newDeviceId
  · rw [if_pos hid, if_pos hid]
    rfl
  · rw [if_neg hid, if_neg hid]

/-- `apply_transition`: validate a transition and migrate the trust record. -/
def applyTransition (nowMs : Nat) (t : KeyTransition) : EStateM Exn (Registry C) Unit := do
  let g ← get
  match g.store.get t.oldDeviceId with
  | none =>
    throw ⟨.keyRotationError, "Unknown old device " ++ hex t.oldDeviceId ++
      " — cannot apply transition"⟩
  | some old =>
    let lastTs := g.manager.lastTimestamp t.oldDeviceId
    let count := g.manager.rotationCount t.oldDeviceId
    if t.newDeviceId ≠ C.sha256 t.newEd25519Public then
      throw ⟨.keyRotationError, "new_device_id does not match SHA-256(new_ed25519_public)"⟩
    else if t.timestampMs > nowMs + maxRotationSkewMs then
      throw ⟨.keyRotationError, "KeyTransition timestamp " ++ toString t.timestampMs ++
        " ms is in the future"⟩
    else if t.timestampMs ≤ lastTs then
      throw ⟨.keyRotationError, "KeyTransition timestamp " ++ toString t.timestampMs ++
        " ms is not newer than last seen (" ++ toString lastTs ++ " ms) — possible replay"⟩
    else
      let body ← ofExcept t.bodyBytes
      let valid ← ofExcept (CryptoEngine.verify C old.ed25519Public body t.signature)
      if !valid then
        throw ⟨.keyRotationError, "KeyTransition signature verification failed"⟩
      else if (count : Int) ≥ g.manager.maxRotations then
        throw ⟨.keyRotationError, "Device " ++ hex t.oldDeviceId ++
          " has exhausted its rotation budget (max_rotations=" ++
          toString g.manager.maxRotations ++ ")"⟩
      else
        let _ ← zoom Registry.store (fun s g => { g with store := s })
          (TrustStore.add t.newEd25519Public old.trustLevel)
        match (← get).store.get t.newDeviceId with
        | none =>
          throw ⟨.attributeError, "'NoneType' object has no attribute 'endorsers'"⟩
        | some new =>
          modify (fun g =>
            { store := g.store.put { new with endorsers := carryOver old.endorsers new.endorsers }
              manager := recorded g.manager t })

/-- The bytes a transition's signature covers, once its timestamp fits. -/
def signedBody (t : KeyTransition) : Bytes :=
  t.oldDeviceId ++ t.newDeviceId ++ t.newEd25519Public ++ beEncode 8 t.timestampMs.toNat

theorem bodyBytes_eq_ok (t : KeyTransition) (b : Bytes) :
    t.bodyBytes = .ok b ↔
      0 ≤ t.timestampMs ∧ t.timestampMs.toNat < 256 ^ 8 ∧ b = signedBody t := by
  unfold KeyTransition.bodyBytes signedBody
  by_cases h : 0 ≤ t.timestampMs
  · rw [if_pos h, except_bind_eq_ok]
    simp only [packUInt_eq_ok, pure, Except.pure, Except.ok.injEq]
    constructor
    · intro hb
      rcases hb with ⟨tim, ⟨hlt, htim⟩, hb⟩
      exact ⟨h, hlt, by rw [← hb, htim]⟩
    · intro hb
      exact ⟨_, ⟨hb.2.1, rfl⟩, hb.2.2.symm⟩
  · rw [if_neg h]
    simp only [bind, Except.bind, reduceCtorEq, h, false_and]

theorem signedBody_length (t : KeyTransition) : (signedBody t).length = transitionBodySize := by
  simp only [signedBody, List.length_append, t.oldDeviceId_length, t.newDeviceId_length,
    t.newEd25519Public_length, beEncode_length, transitionBodySize]

/-- The fields of a transition are found in its body at their offsets. -/
theorem signedBody_fields (t : KeyTransition) :
    field (signedBody t) 0 32 = t.oldDeviceId ∧ field (signedBody t) 32 32 = t.newDeviceId ∧
      field (signedBody t) 64 32 = t.newEd25519Public ∧
        field (signedBody t) 96 8 = beEncode 8 t.timestampMs.toNat := by
  have hold := t.oldDeviceId_length
  have hnew := t.newDeviceId_length
  have hpub := t.newEd25519Public_length
  have htim := beEncode_length 8 t.timestampMs.toNat
  have hsplit : signedBody t = t.oldDeviceId ++ (t.newDeviceId ++
      (t.newEd25519Public ++ beEncode 8 t.timestampMs.toNat)) := by
    simp only [signedBody, List.append_assoc]
  rw [hsplit]
  refine ⟨field_append_left _ _ _ hold, ?_, ?_, ?_⟩
  · rw [field_append_right _ _ _ _ (by omega), hold]
    exact field_append_left _ _ _ hnew
  · rw [field_append_right _ _ _ _ (by omega), hold, field_append_right _ _ _ _ (by omega), hnew]
    exact field_append_left _ _ _ hpub
  · rw [field_append_right _ _ _ _ (by omega), hold, field_append_right _ _ _ _ (by omega), hnew,
      field_append_right _ _ _ _ (by omega), hpub]
    exact (field_eq_self _ _ htim.ge).mpr htim

section Applying

variable (g : Registry C)

/-- A transition the manager accepts: the old identity is known, the new one is
    the digest of the new key, the timestamp is not in the future, newer than
    the last one and fits its field, the old key signed it, and the chain is
    within its budget. -/
def Transits (nowMs : Nat) (t : KeyTransition) (old : TrustRecord C) : Prop :=
  g.store.get t.oldDeviceId = some old ∧ t.newDeviceId = C.sha256 t.newEd25519Public ∧
    t.timestampMs ≤ nowMs + maxRotationSkewMs ∧
    g.manager.lastTimestamp t.oldDeviceId < t.timestampMs ∧
    (0 ≤ t.timestampMs ∧ t.timestampMs.toNat < 256 ^ 8) ∧
    C.ed25519Verify old.ed25519Public (signedBody t) t.signature = true ∧
    (g.manager.rotationCount t.oldDeviceId : Int) < g.manager.maxRotations

/-- The registry after an accepted transition, given the record that adding
    the new key leaves. -/
def migrated (t : KeyTransition) (old new : TrustRecord C) : Registry C where
  store := g.store.put { new with endorsers := carryOver old.endorsers new.endorsers }
  manager := recorded g.manager t

/-- An accepted transition adds the new key at the old level, carries the
    endorsers over and records the retirement. -/
theorem applyTransition_accepts (nowMs : Nat) (t : KeyTransition) (old new : TrustRecord C)
    (ht : g.Transits nowMs t old)
    (hnew : g.store.upsert t.newEd25519Public old.trustLevel = some new) :
    (applyTransition nowMs t).run g = .ok () (g.migrated t old new) := by
  rcases ht with ⟨hget, hid, hfuture, hreplay, hfits, hsig, hcount⟩
  have hbody := (bodyBytes_eq_ok t _).mpr ⟨hfits.1, hfits.2, rfl⟩
  have hverify := CryptoEngine.verify_eq C old.ed25519Public (signedBody t) t.signature
    old.ed25519Public_length
  rw [hsig] at hverify
  have hadd := g.store.add_run t.newEd25519Public old.trustLevel
  rw [hnew] at hadd
  -- What was just added is found under the new identity.
  have hfiled : new.deviceId = t.newDeviceId := by
    rw [hid]
    exact (g.store.upsert_cases _ _ new hnew).1
  have hfound : (g.store.put new).get t.newDeviceId = some new := by
    rw [TrustStore.get_put, if_pos hfiled.symm]
  simp only [applyTransition, EStateM.run_bind, EStateM.run_get, hget, if_neg (not_not.mpr hid),
    if_neg (not_lt.mpr hfuture), if_neg (not_le.mpr hreplay), hbody, hverify, run_ofExcept_ok,
    Bool.not_true, Bool.false_eq_true, if_false, if_neg (not_le.mpr hcount), run_zoom, hadd,
    hfound, EStateM.run_modify, migrated]
  rw [TrustStore.put_put g.store new { new with
    endorsers := carryOver old.endorsers new.endorsers } rfl]

/-- Any other transition raises, and changes nothing. -/
theorem applyTransition_refuses (nowMs : Nat) (t : KeyTransition)
    (h : ∀ old, ¬ g.Transits nowMs t old) :
    ∃ exn, (applyTransition nowMs t).run g = .error exn g := by
  simp only [applyTransition, EStateM.run_bind, EStateM.run_get]
  cases hget : g.store.get t.oldDeviceId with
  | none => exact ⟨_, rfl⟩
  | some old =>
      simp only
      by_cases hid : t.newDeviceId = C.sha256 t.newEd25519Public
      · by_cases hfuture : t.timestampMs > nowMs + maxRotationSkewMs
        · rw [if_neg (not_not.mpr hid), if_pos hfuture]
          exact ⟨_, rfl⟩
        · by_cases hreplay : t.timestampMs ≤ g.manager.lastTimestamp t.oldDeviceId
          · rw [if_neg (not_not.mpr hid), if_neg hfuture, if_pos hreplay]
            exact ⟨_, rfl⟩
          · rw [if_neg (not_not.mpr hid), if_neg hfuture, if_neg hreplay]
            simp only [EStateM.run_bind]
            -- Packing the body is a check of its own.
            cases hbody : t.bodyBytes with
            | error exn => exact ⟨exn, rfl⟩
            | ok body =>
                rcases (bodyBytes_eq_ok t body).mp hbody with ⟨hnn, hlt, rfl⟩
                simp only [run_ofExcept_ok,
                  CryptoEngine.verify_eq C _ _ _ old.ed25519Public_length]
                cases hsig : C.ed25519Verify old.ed25519Public (signedBody t) t.signature with
                | false => exact ⟨_, rfl⟩
                | true =>
                    by_cases hcount : (g.manager.rotationCount t.oldDeviceId : Int)
                        ≥ g.manager.maxRotations
                    · simp only [Bool.not_true, Bool.false_eq_true, if_false, if_pos hcount]
                      exact ⟨_, rfl⟩
                    · exact absurd ⟨hget, hid, not_lt.mp hfuture, not_le.mp hreplay,
                        ⟨hnn, hlt⟩, hsig, not_le.mp hcount⟩ (h old)
      · rw [if_pos hid]
        exact ⟨_, rfl⟩

/-- A transition is refused without a trace, or applied for what it says. -/
theorem applyTransition_cases (nowMs : Nat) (t : KeyTransition) :
    ((∀ old, ¬ g.Transits nowMs t old) ∧ ∃ exn, (applyTransition nowMs t).run g = .error exn g) ∨
      ∃ old new, g.Transits nowMs t old ∧
        g.store.upsert t.newEd25519Public old.trustLevel = some new ∧
        (applyTransition nowMs t).run g = .ok () (g.migrated t old new) := by
  by_cases h : ∃ old, g.Transits nowMs t old
  · right
    rcases h with ⟨old, ht⟩
    rcases g.store.upsert_of_length t.newEd25519Public old.trustLevel t.newEd25519Public_length
      with ⟨new, hnew⟩
    exact ⟨old, new, ht, hnew, g.applyTransition_accepts nowMs t old new ht hnew⟩
  · left
    have hno := not_exists.mp h
    exact ⟨hno, g.applyTransition_refuses nowMs t hno⟩

end Applying

end Registry

end Ztlnp

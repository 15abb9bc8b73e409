import Mathlib.Data.Finset.Basic
import Mathlib.Order.Lattice
import Ztlnp.Core.Crypto
import Ztlnp.Lib.Dict

/-!
# The Trust Store

The store of `trust.py`: one record for each known identity key, with how far
the key is trusted and who vouched for it, and a blacklist beside the records.

The checks of the record's constructor are fields of `TrustRecord`, so an
identity that is not the digest of its key cannot be stored. The store files
every record under its own identity, which is a field as well. A method that
changes a record writes it through `put`, because in the source the record is
one object that the dictionary and the caller share.

Adding a key either upgrades the record that is there or creates one.
`upsert` is the record it ends with, and `add_run` says that this is all it
does. An endorsement is accepted exactly when `Vouches` holds, and
`addEndorsement_run` gives the store it then leaves; a refused one leaves the
store alone.

## Main definitions

* `TrustLevel`: How a key was verified.
* `TrustRecord`: A key, its identity and its standing.
* `TrustStore`: The records and the blacklist.
* `TrustStore.add`, `TrustStore.processHello`, `TrustStore.verifyFingerprint`,
  `TrustStore.addEndorsement`, `TrustStore.distrust`,
  `TrustStore.removeBlacklist`: The methods that write.
* `TrustStore.get`, `TrustStore.isTrusted`, `TrustStore.isBlacklisted`,
  `TrustStore.getPublicKey`: The methods that read.
* `createEndorsement`: A signed voucher.
* `TrustStore.upsert`: The record a key has once it was added.
* `TrustStore.Vouches`: An endorsement that is accepted.

## Theorems

* `TrustStore.get_put`: Reading after a record was written.
* `TrustStore.upsert_cases`: An added key has an upgraded or a new record.
* `TrustStore.add_run`, `TrustStore.processHello_cases`,
  `TrustStore.verifyFingerprint_run`, `TrustStore.verifyFingerprint_cases`,
  `TrustStore.addEndorsement_run`: What each writing method does.
* `TrustStore.addEndorsement_refuses`: Anything but a valid endorsement is
  refused and changes nothing.
* `TrustStore.addEndorsement_cases`: The two outcomes together.
-/

namespace Ztlnp

/-- `_ENDORSEMENT_BODY_SIZE`. -/
def endorsementBodySize : Nat := 96

/-- `_ENDORSEMENT_TOTAL_SIZE`. -/
def endorsementTotalSize : Nat := 160

/-- How a key was verified. -/
inductive TrustLevel
  | unknown
  | tofu
  | verified
  | endorsed
deriving DecidableEq, Repr

namespace TrustLevel

/-- The value of the enumeration, by which levels are compared. -/
def value : TrustLevel → Nat
  | unknown => 0
  | tofu => 1
  | verified => 2
  | endorsed => 3

/-- The name `Enum.name` reports. -/
def name : TrustLevel → String
  | unknown => "UNKNOWN"
  | tofu => "TOFU"
  | verified => "VERIFIED"
  | endorsed => "ENDORSED"

theorem value_injective : Function.Injective value := by
  intro a b h
  cases a <;> cases b <;> first | rfl | cases h

instance : LinearOrder TrustLevel := LinearOrder.lift' value value_injective

theorem le_endorsed (l : TrustLevel) : l ≤ endorsed := by
  cases l <;> decide

end TrustLevel

/-- One entry of the trust store. The time it was created is not read by
    anything and is left out. -/
structure TrustRecord (C : Primitives) where
  deviceId : Bytes
  ed25519Public : Bytes
  trustLevel : TrustLevel := .tofu
  endorsers : List Bytes := []
  endorsementDepth : Nat := 0
  ed25519Public_length : ed25519Public.length = 32
  deviceId_eq : deviceId = C.sha256 ed25519Public
deriving DecidableEq

variable {C : Primitives}

/-- `TrustRecord.__post_init__`: the constructor and its checks. -/
def TrustRecord.postInit (C : Primitives) (deviceId ed25519Public : Bytes)
    (trustLevel : TrustLevel) : Except Exn (TrustRecord C) :=
  if deviceId.length ≠ 32 then .error ⟨.valueError, "device_id must be 32 bytes"⟩
  else if hp : ed25519Public.length = 32 then
    if hd : deviceId = C.sha256 ed25519Public then
      .ok { deviceId, ed25519Public, trustLevel, ed25519Public_length := hp, deviceId_eq := hd }
    else .error ⟨.trustError, "device_id does not match SHA-256(ed25519_public)"⟩
  else .error ⟨.valueError, "ed25519_public must be 32 bytes"⟩

/-- The records by identity, and the identities that are distrusted whatever
    their record says. -/
structure TrustStore (C : Primitives) where
  allowTofu : Bool := true
  minTrust : TrustLevel := .tofu
  maxEndorsementDepth : Int := 3
  records : Dict Bytes (TrustRecord C) := Dict.empty
  blacklist : Finset Bytes := ∅
  /-- Every record is filed under its own identity. -/
  filed : ∀ id r, records.get? id = some r → r.deviceId = id := by
    intro id r h
    simp only [Dict.get?_empty, reduceCtorEq] at h
deriving DecidableEq

/-- The digits of a digest in upper case, as a fingerprint shows them. -/
def upperHexDigits (b : Bytes) : List Char :=
  (b.flatMap (fun x => hexByte x.toNat)).map Char.toUpper

/-- `fingerprint_of`: sixteen groups of four digits, separated by colons. -/
def fingerprintOf (C : Primitives) (ed25519Public : Bytes) : String :=
  let digest := upperHexDigits (C.sha256 ed25519Public)
  String.ofList ([':'].intercalate ((List.range 16).map (fun i => (digest.drop (4 * i)).take 4)))

/-- `create_endorsement`. -/
def createEndorsement (C : Primitives) (endorserPrivate endorserDeviceId targetDeviceId
    targetEd25519Public : Bytes) : Bytes :=
  let body := endorserDeviceId ++ targetDeviceId ++ targetEd25519Public
  body ++ C.ed25519Sign endorserPrivate body

namespace TrustStore

/-- Write a record back under its identity. -/
def put (s : TrustStore C) (r : TrustRecord C) : TrustStore C :=
  { s with
    records := s.records.set r.deviceId r
    filed := by
      intro id r' h
      rw [Dict.get?_set] at h
      by_cases hid : id = r.deviceId
      · rw [if_pos hid, Option.some.injEq] at h
        rw [hid, h]
      · rw [if_neg hid] at h
        exact s.filed id r' h }

/-- `add`: upgrade the record of a key, or create one. -/
def add (ed25519Public : Bytes) (trustLevel : TrustLevel) :
    EStateM Exn (TrustStore C) (TrustRecord C) := do
  let s ← get
  let deviceId := C.sha256 ed25519Public
  match s.records.get? deviceId with
  | some existing =>
    if trustLevel > existing.trustLevel then
      let upgraded := { existing with trustLevel }
      set (s.put upgraded)
      return upgraded
    else
      return existing
  | none =>
    let record ← ofExcept (TrustRecord.postInit C deviceId ed25519Public trustLevel)
    set (s.put record)
    return record

/-- `get`. -/
def get (s : TrustStore C) (deviceId : Bytes) : Option (TrustRecord C) := s.records.get? deviceId

/-- `is_trusted`: known, at the minimum level, and not blacklisted. -/
def isTrusted (s : TrustStore C) (deviceId : Bytes) : Bool :=
  if deviceId ∈ s.blacklist then false
  else
    match s.records.get? deviceId with
    | none => false
    | some record => record.trustLevel ≥ s.minTrust

/-- `distrust`. -/
def distrust (deviceId : Bytes) : EStateM Exn (TrustStore C) Unit :=
  modify (fun s => { s with blacklist := insert deviceId s.blacklist })

/-- `is_blacklisted`. -/
def isBlacklisted (s : TrustStore C) (deviceId : Bytes) : Bool := deviceId ∈ s.blacklist

/-- `remove_blacklist`. -/
def removeBlacklist (deviceId : Bytes) : EStateM Exn (TrustStore C) Unit :=
  modify (fun s => { s with blacklist := s.blacklist.erase deviceId })

/-- `get_public_key`. -/
def getPublicKey (s : TrustStore C) (deviceId : Bytes) : Except Exn Bytes :=
  match s.records.get? deviceId with
  | none => .error ⟨.trustError, "Unknown device: " ++ hex deviceId⟩
  | some record => .ok record.ed25519Public

/-- `process_hello`: compare with the stored key, or trust on first use. -/
def processHello (senderDeviceId senderEd25519Pub : Bytes) :
    EStateM Exn (TrustStore C) (TrustRecord C) := do
  let s ← MonadState.get
  match s.records.get? senderDeviceId with
  | some record =>
    if record.ed25519Public ≠ senderEd25519Pub then
      throw ⟨.trustError, "Public key mismatch for device " ++ hex senderDeviceId ++
        ": stored key does not match received key (possible MITM)"⟩
    return record
  | none =>
    if !s.allowTofu then
      throw ⟨.trustError, "Unknown device " ++ hex senderDeviceId ++ " and TOFU is disabled"⟩
    -- The record is filed under the digest of the key, whatever identity was announced.
    add senderEd25519Pub .tofu

/-- `verify_fingerprint`: upgrade a record whose fingerprint was confirmed. -/
def verifyFingerprint (deviceId : Bytes) (fingerprint : String) :
    EStateM Exn (TrustStore C) Bool := do
  let s ← MonadState.get
  match s.records.get? deviceId with
  | none => return false
  | some record =>
    if fingerprintOf C record.ed25519Public = fingerprint then
      set (s.put { record with trustLevel := max record.trustLevel .verified })
      return true
    else
      return false

/-- The standing of a record once an endorser was added to it. -/
def endorsedBy (record : TrustRecord C) (endorserDeviceId : Bytes) (depth : Nat) : TrustRecord C :=
  { record with
    endorsers :=
      if endorserDeviceId ∈ record.endorsers then record.endorsers
      else record.endorsers ++ [endorserDeviceId]
    endorsementDepth := depth }

/-- `add_endorsement`: verify a signed voucher and upgrade its target. -/
def addEndorsement (endorsementBytes endorserDeviceId : Bytes) :
    EStateM Exn (TrustStore C) (TrustRecord C) := do
  let s ← MonadState.get
  if endorsementBytes.length ≠ endorsementTotalSize then
    throw ⟨.trustError, "Endorsement must be " ++ toString endorsementTotalSize ++
      " bytes, got " ++ toString endorsementBytes.length⟩
  else
    match s.records.get? endorserDeviceId with
    | none => throw ⟨.trustError, "Endorser " ++ hex endorserDeviceId ++ " is unknown"⟩
    | some endorser =>
      let newDepth := endorser.endorsementDepth + 1
      let body := endorsementBytes.take endorsementBodySize
      let sig := endorsementBytes.drop endorsementBodySize
      if endorser.trustLevel < .verified then
        throw ⟨.trustError, "Endorser " ++ hex endorserDeviceId ++ " is not VERIFIED (level: " ++
          endorser.trustLevel.name ++ ")"⟩
      else if (newDepth : Int) > s.maxEndorsementDepth then
        throw ⟨.trustPoisoningError, "Endorsement chain depth " ++ toString newDepth ++
          " exceeds max_endorsement_depth=" ++ toString s.maxEndorsementDepth ++
          ". Possible trust-chain amplification attack."⟩
      else
        let valid ← ofExcept (CryptoEngine.verify C endorser.ed25519Public body sig)
        if !valid then
          throw ⟨.trustError, "Endorsement signature verification failed"⟩
        else if field body 0 32 ≠ endorserDeviceId then
          throw ⟨.trustError, "Endorser ID in blob does not match provided endorser_device_id"⟩
        else
          -- The target identity named in the blob is parsed and never looked at.
          let record ← add (field body 64 32) .endorsed
          let endorsed := endorsedBy record endorserDeviceId newDepth
          modify (fun s => s.put endorsed)
          return endorsed

section Writing

variable (s : TrustStore C)

@[simp]
theorem put_blacklist (r : TrustRecord C) : (s.put r).blacklist = s.blacklist := rfl

@[simp]
theorem put_minTrust (r : TrustRecord C) : (s.put r).minTrust = s.minTrust := rfl

@[simp]
theorem put_maxEndorsementDepth (r : TrustRecord C) :
    (s.put r).maxEndorsementDepth = s.maxEndorsementDepth := rfl

/-- Reading after a record was written. -/
theorem get_put (r : TrustRecord C) (id : Bytes) :
    (s.put r).get id = if id = r.deviceId then some r else s.get id :=
  Dict.get?_set s.records r.deviceId id r

/-- Writing back the record that is there changes nothing. -/
theorem put_self (id : Bytes) (r : TrustRecord C) (h : s.get id = some r) : s.put r = s := by
  have hfiled := s.filed id r h
  have hset := Dict.set_get?_self s.records id r h
  rcases s with ⟨tofu, least, depth, records, blacklist, filed⟩
  simp only [put, TrustStore.mk.injEq, true_and, and_true]
  rw [hfiled]
  exact hset

/-- Of two writes to one record the last counts. -/
theorem put_put (r r' : TrustRecord C) (h : r'.deviceId = r.deviceId) :
    (s.put r).put r' = s.put r' := by
  simp only [put, TrustStore.mk.injEq, true_and, and_true]
  rw [h, Dict.set_set]

/-- A stored record is filed under the digest of its key. -/
theorem sha256_of_get (id : Bytes) (r : TrustRecord C) (h : s.get id = some r) :
    C.sha256 r.ed25519Public = id := by
  rw [← r.deviceId_eq]
  exact s.filed id r h

/-- The record a key has once it was added, if it can be. -/
def upsert (ed25519Public : Bytes) (trustLevel : TrustLevel) : Option (TrustRecord C) :=
  match s.get (C.sha256 ed25519Public) with
  | some existing => some { existing with trustLevel := max existing.trustLevel trustLevel }
  | none =>
    if h : ed25519Public.length = 32 then
      some
        { deviceId := C.sha256 ed25519Public
          ed25519Public
          trustLevel
          ed25519Public_length := h
          deviceId_eq := rfl }
    else none

/-- An added key has the record it had, upgraded, or a new one. -/
theorem upsert_cases (pub : Bytes) (level : TrustLevel) (r : TrustRecord C)
    (h : s.upsert pub level = some r) :
    r.deviceId = C.sha256 pub ∧
      ((∃ old, s.get (C.sha256 pub) = some old ∧
          r = { old with trustLevel := max old.trustLevel level }) ∨
        (s.get (C.sha256 pub) = none ∧ r.ed25519Public = pub ∧ r.trustLevel = level ∧
          r.endorsers = [] ∧ r.endorsementDepth = 0)) := by
  unfold upsert at h
  cases hget : s.get (C.sha256 pub) with
  | some old =>
      rw [hget] at h
      simp only [Option.some.injEq] at h
      rw [← h]
      exact ⟨s.filed _ old hget, Or.inl ⟨old, rfl, rfl⟩⟩
  | none =>
      rw [hget] at h
      simp only at h
      by_cases hlen : pub.length = 32
      · rw [dif_pos hlen, Option.some.injEq] at h
        rw [← h]
        exact ⟨rfl, Or.inr ⟨rfl, rfl, rfl, rfl, rfl⟩⟩
      · rw [dif_neg hlen] at h
        simp only [reduceCtorEq] at h

/-- A key of the right length can always be added. -/
theorem upsert_of_length (pub : Bytes) (level : TrustLevel) (h : pub.length = 32) :
    ∃ r, s.upsert pub level = some r := by
  unfold upsert
  cases s.get (C.sha256 pub) with
  | some old => exact ⟨_, rfl⟩
  | none => exact ⟨_, dif_pos h⟩

/-- The record of an added key is at least at the level it was added with. -/
theorem level_le_upsert (pub : Bytes) (level : TrustLevel) (r : TrustRecord C)
    (h : s.upsert pub level = some r) : level ≤ r.trustLevel := by
  rcases (s.upsert_cases pub level r h).2 with ⟨old, _, hr⟩ | ⟨_, _, hr, _⟩
  · rw [hr]
    exact le_max_right _ _
  · rw [hr]

/-- Adding a key writes its record, or raises on a key of the wrong length and
    changes nothing. -/
theorem add_run (pub : Bytes) (level : TrustLevel) :
    (add pub level).run s = match s.upsert pub level with
      | some r => .ok r (s.put r)
      | none => .error ⟨.valueError, "ed25519_public must be 32 bytes"⟩ s := by
  unfold upsert get
  simp only [add, EStateM.run_bind, EStateM.run_get]
  cases hget : s.records.get? (C.sha256 pub) with
  | some old =>
      simp only
      by_cases hup : level > old.trustLevel
      · rw [if_pos hup, max_eq_right hup.le]
        rfl
      · -- The existing record is returned, and writing it back would change nothing.
        rw [if_neg hup, max_eq_left (not_lt.mp hup), put_self s _ old hget]
        rfl
  | none =>
      simp only [TrustRecord.postInit, C.sha256_length, ne_eq, not_true_eq_false, if_false]
      by_cases hlen : pub.length = 32
      · simp only [dif_pos hlen, dite_true]
        rfl
      · simp only [dif_neg hlen]
        rfl

/-- Processing a hello raises and changes nothing, or returns the stored
    record, or adds an unknown sender's key at the lowest level. -/
theorem processHello_cases (sender pub : Bytes) :
    (∃ exn, (processHello sender pub).run s = .error exn s) ∨
      (∃ r, s.get sender = some r ∧ r.ed25519Public = pub ∧
        (processHello sender pub).run s = .ok r s) ∨
      ∃ r, s.get sender = none ∧ s.upsert pub .tofu = some r ∧
        (processHello sender pub).run s = .ok r (s.put r) := by
  simp only [processHello, EStateM.run_bind, EStateM.run_get]
  cases hget : s.records.get? sender with
  -- A known sender is held to the key on record.
  | some record =>
      simp only
      by_cases hkey : record.ed25519Public = pub
      · right
        left
        rw [if_neg (not_not.mpr hkey)]
        exact ⟨record, hget, hkey, rfl⟩
      · left
        rw [if_pos hkey]
        exact ⟨_, rfl⟩
  -- A new one needs TOFU to be allowed, and a key of the right length.
  | none =>
      simp only
      cases s.allowTofu with
      | false => exact Or.inl ⟨_, rfl⟩
      | true =>
          have hrun := s.add_run pub .tofu
          cases hup : s.upsert pub .tofu with
          | none =>
              left
              rw [hup] at hrun
              exact ⟨_, hrun⟩
          | some r =>
              right
              right
              rw [hup] at hrun
              exact ⟨r, hget, rfl, hrun⟩

/-- A fingerprint is compared with the one of the stored key, if there is one. -/
theorem verifyFingerprint_run (id : Bytes) (fingerprint : String) :
    (verifyFingerprint id fingerprint).run s = match s.get id with
      | none => .ok false s
      | some old =>
        if fingerprintOf C old.ed25519Public = fingerprint then
          .ok true (s.put { old with trustLevel := max old.trustLevel .verified })
        else .ok false s := by
  simp only [verifyFingerprint, get, EStateM.run_bind, EStateM.run_get]
  cases s.records.get? id with
  | none => rfl
  | some old =>
      simp only
      by_cases hfp : fingerprintOf C old.ed25519Public = fingerprint
      · rw [if_pos hfp, if_pos hfp]
        rfl
      · rw [if_neg hfp, if_neg hfp]
        rfl

/-- A confirmed fingerprint upgrades the record; any other changes nothing. -/
theorem verifyFingerprint_cases (id : Bytes) (fingerprint : String) :
    (verifyFingerprint id fingerprint).run s = .ok false s ∨
      ∃ old, s.get id = some old ∧ fingerprintOf C old.ed25519Public = fingerprint ∧
        (verifyFingerprint id fingerprint).run s =
          .ok true (s.put { old with trustLevel := max old.trustLevel .verified }) := by
  rw [verifyFingerprint_run]
  cases hget : s.get id with
  | none =>
      left
      rfl
  | some old =>
      simp only
      by_cases hfp : fingerprintOf C old.ed25519Public = fingerprint
      · right
        rw [if_pos hfp]
        exact ⟨old, rfl, hfp, rfl⟩
      · left
        rw [if_neg hfp]

/-- The key an endorsement blob vouches for. -/
def endorsedKey (blob : Bytes) : Bytes := field (blob.take endorsementBodySize) 64 32

/-- An endorsement the store accepts: the blob has its size, the endorser is
    known, verified and not at the depth limit, its key signed the body, and
    the body names it. -/
def Vouches (blob endorserId : Bytes) (endorser : TrustRecord C) : Prop :=
  blob.length = endorsementTotalSize ∧ s.get endorserId = some endorser ∧
    .verified ≤ endorser.trustLevel ∧
    ((endorser.endorsementDepth + 1 : Nat) : Int) ≤ s.maxEndorsementDepth ∧
    C.ed25519Verify endorser.ed25519Public (blob.take endorsementBodySize)
      (blob.drop endorsementBodySize) = true ∧
    field (blob.take endorsementBodySize) 0 32 = endorserId

theorem endorsedKey_length (blob : Bytes) (h : blob.length = endorsementTotalSize) :
    (endorsedKey blob).length = 32 := by
  refine field_length _ _ _ ?_
  rw [List.length_take, h]
  decide

/-- An accepted endorsement adds the endorsed key, records the endorser and
    sets the depth. -/
theorem addEndorsement_run (blob id : Bytes) (e r : TrustRecord C) (hv : s.Vouches blob id e)
    (hr : s.upsert (endorsedKey blob) .endorsed = some r) :
    (addEndorsement blob id).run s =
      .ok (endorsedBy r id (e.endorsementDepth + 1))
        (s.put (endorsedBy r id (e.endorsementDepth + 1))) := by
  rcases hv with ⟨hlen, hget, hlevel, hdepth, hsig, hid⟩
  have hadd := s.add_run (endorsedKey blob) .endorsed
  rw [hr] at hadd
  simp only [get] at hget
  have hverify := CryptoEngine.verify_eq C e.ed25519Public (blob.take endorsementBodySize)
    (blob.drop endorsementBodySize) e.ed25519Public_length
  rw [hsig] at hverify
  -- No check fires, and the two writes to the target's record are one.
  simp only [addEndorsement, EStateM.run_bind, EStateM.run_get, hlen, ne_eq, not_true_eq_false,
    if_false, hget, if_neg (not_lt.mpr hlevel), if_neg (not_lt.mpr hdepth), hverify,
    run_ofExcept_ok, Bool.not_true, Bool.false_eq_true, hid]
  rw [endorsedKey] at hadd
  simp only [hadd, EStateM.run_modify, EStateM.run_pure]
  rw [put_put s r (endorsedBy r id (e.endorsementDepth + 1)) rfl]

/-- Anything but a valid endorsement is refused, and changes nothing. -/
theorem addEndorsement_refuses (blob id : Bytes) (h : ∀ e, ¬ s.Vouches blob id e) :
    ∃ exn, (addEndorsement blob id).run s = .error exn s := by
  simp only [addEndorsement, EStateM.run_bind, EStateM.run_get]
  by_cases hlen : blob.length = endorsementTotalSize
  · rw [if_neg (not_not.mpr hlen)]
    cases hget : s.records.get? id with
    | none => exact ⟨_, rfl⟩
    | some e =>
        simp only
        by_cases hlevel : e.trustLevel < .verified
        · rw [if_pos hlevel]
          exact ⟨_, rfl⟩
        · by_cases hdepth : ((e.endorsementDepth + 1 : Nat) : Int) > s.maxEndorsementDepth
          · rw [if_neg hlevel, if_pos hdepth]
            exact ⟨_, rfl⟩
          · rw [if_neg hlevel, if_neg hdepth, CryptoEngine.verify_eq C _ _ _ e.ed25519Public_length]
            simp only [EStateM.run_bind, run_ofExcept_ok]
            -- The last two checks are on the signature and on the identity it covers.
            cases hsig : C.ed25519Verify e.ed25519Public (blob.take endorsementBodySize)
                (blob.drop endorsementBodySize) with
            | false => exact ⟨_, rfl⟩
            | true =>
                by_cases hid : field (blob.take endorsementBodySize) 0 32 = id
                · exact absurd ⟨hlen, hget, not_lt.mp hlevel, not_lt.mp hdepth, hsig, hid⟩ (h e)
                · simp only [Bool.not_true, Bool.false_eq_true, if_false, ne_eq, hid,
                    not_false_eq_true, if_true]
                  exact ⟨_, rfl⟩
  · rw [if_pos hlen]
    exact ⟨_, rfl⟩

/-- An endorsement is refused without a trace, or accepted for what it says. -/
theorem addEndorsement_cases (blob id : Bytes) :
    ((∀ e, ¬ s.Vouches blob id e) ∧ ∃ exn, (addEndorsement blob id).run s = .error exn s) ∨
      ∃ e r, s.Vouches blob id e ∧ s.upsert (endorsedKey blob) .endorsed = some r ∧
        (addEndorsement blob id).run s =
          .ok (endorsedBy r id (e.endorsementDepth + 1))
            (s.put (endorsedBy r id (e.endorsementDepth + 1))) := by
  by_cases h : ∃ e, s.Vouches blob id e
  · right
    rcases h with ⟨e, hv⟩
    rcases s.upsert_of_length (endorsedKey blob) .endorsed (endorsedKey_length blob hv.1) with
      ⟨r, hr⟩
    exact ⟨e, r, hv, hr, s.addEndorsement_run blob id e r hv hr⟩
  · left
    have hno := not_exists.mp h
    exact ⟨hno, s.addEndorsement_refuses blob id hno⟩

end Writing

end TrustStore

end Ztlnp

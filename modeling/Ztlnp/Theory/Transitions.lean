import Ztlnp.Lib.Formats
import Ztlnp.Theory.Codec
import Ztlnp.Theory.Registry

/-!
# Transitions on the Wire

A transition that was received is checked by packing its fields once more.

Its layout is written down three times: where it is signed, where it is sent,
and where the receiver packs the body to verify the signature. All three are
`Registry.signedBody`, and a reader that takes every string of the right length
and no other leaves no room for a difference. What the signature is checked
against is what was received, byte for byte.

## Main definitions

* `KeyTransition.format`: The writer and the reader.

## Theorems

* `KeyTransition.toBytes_eq_ok`: A transition on the wire.
* `KeyTransition.fromBytes_eq_ok`: What is read off a string.
* `KeyTransition.fromBytes_signedBody`: The body of what was read is the
  beginning of the string.
* `KeyTransition.format_roundTrips`: Reading gives back what was written.
* `KeyTransition.format_exact`: Writing gives back what was read, and anything
  else is refused.
* `createKeyTransition_eq_ok`: What a signer makes.
* `Registry.applied_verified`: What was applied was verified as it came in.
* `KeyTransition.format_bijective`: The format is a bijection, and signatures
  survive it.
-/

namespace Ztlnp

namespace KeyTransition

/-- The writer and the reader. -/
def format : Format KeyTransition Bytes Exn := ⟨toBytes, fromBytes⟩

/-- The constructor keeps what it is given. -/
theorem postInit_eq_ok (old new pub : Bytes) (ts : Int) (sig : Bytes) (t : KeyTransition) :
    postInit old new pub ts sig = .ok t ↔
      t.oldDeviceId = old ∧ t.newDeviceId = new ∧ t.newEd25519Public = pub ∧
        t.timestampMs = ts ∧ t.signature = sig := by
  constructor
  · intro h
    unfold postInit at h
    split_ifs at h with ho hn hp hs
    rw [Except.ok.injEq] at h
    rw [← h]
    exact ⟨rfl, rfl, rfl, rfl, rfl⟩
  · rintro ⟨rfl, rfl, rfl, rfl, rfl⟩
    rw [postInit, dif_pos t.oldDeviceId_length, dif_pos t.newDeviceId_length,
      dif_pos t.newEd25519Public_length, dif_pos t.signature_length]

/-- A transition on the wire. -/
theorem toBytes_eq_ok (t : KeyTransition) (b : Bytes) :
    t.toBytes = .ok b ↔ 0 ≤ t.timestampMs ∧ t.timestampMs.toNat < 256 ^ 8 ∧
      b = Registry.signedBody t ++ t.signature := by
  simp only [toBytes, except_bind_eq_ok, Registry.bodyBytes_eq_ok, pure, Except.pure,
    Except.ok.injEq]
  constructor
  · rintro ⟨_, ⟨hnn, hlt, rfl⟩, rfl⟩
    exact ⟨hnn, hlt, rfl⟩
  · rintro ⟨hnn, hlt, rfl⟩
    exact ⟨_, ⟨hnn, hlt, rfl⟩, rfl⟩

/-- What is read off a string of the right length. -/
theorem fromBytes_eq_ok (b : Bytes) (t : KeyTransition) :
    fromBytes b = .ok t ↔ b.length = transitionSize ∧
      t.oldDeviceId = field b 0 32 ∧ t.newDeviceId = field b 32 32 ∧
        t.newEd25519Public = field b 64 32 ∧ t.timestampMs = beDecode (field b 96 8) ∧
          t.signature = b.drop transitionBodySize := by
  unfold fromBytes
  by_cases hlen : b.length = transitionSize
  · rw [if_neg (not_not.mpr hlen), postInit_eq_ok]
    simp only [hlen, true_and]
  · rw [if_pos hlen]
    simp only [reduceCtorEq, hlen, false_and]

/-- A string is read exactly when it has the right length. -/
theorem fromBytes_isOk_iff (b : Bytes) :
    (∃ t, fromBytes b = .ok t) ↔ b.length = transitionSize := by
  constructor
  · rintro ⟨t, ht⟩
    exact ((fromBytes_eq_ok b t).mp ht).1
  · intro hlen
    simp only [transitionSize] at hlen
    refine ⟨⟨field b 0 32, field b 32 32, field b 64 32, beDecode (field b 96 8),
      b.drop transitionBodySize, field_length _ _ _ (by omega), field_length _ _ _ (by omega),
      field_length _ _ _ (by omega), ?_⟩, ?_⟩
    · rw [List.length_drop, transitionBodySize, hlen]
    · rw [fromBytes_eq_ok]
      exact ⟨hlen, rfl, rfl, rfl, rfl, rfl⟩

/-- The body of what was read is the beginning of the string, and the timestamp
    fits. -/
theorem fromBytes_signedBody (b : Bytes) (t : KeyTransition) (h : fromBytes b = .ok t) :
    Registry.signedBody t = b.take transitionBodySize ∧ 0 ≤ t.timestampMs ∧
      t.timestampMs.toNat < 256 ^ 8 := by
  rcases (fromBytes_eq_ok b t).mp h with ⟨hlen, hold, hnew, hpub, htim, _⟩
  simp only [transitionSize] at hlen
  have hfit := beDecode_field_lt b 96 8
  refine ⟨?_, by omega, by omega⟩
  -- Packed again, every field is the one it was read from, and they adjoin.
  rw [Registry.signedBody, hold, hnew, hpub, htim, Int.toNat_natCast,
    Packet.beEncode_beDecode_field b 96 8 (by omega), field_append_field b 0 32 32,
    field_append_field b 0 64 32, field_append_field b 0 96 8]
  rfl

/-- Writing what was read gives back the string. -/
theorem toBytes_of_fromBytes (b : Bytes) (t : KeyTransition) (h : fromBytes b = .ok t) :
    t.toBytes = .ok b := by
  rcases fromBytes_signedBody b t h with ⟨hbody, hnn, hlt⟩
  -- The signature is what follows the body, so nothing is missing.
  have hsig := ((fromBytes_eq_ok b t).mp h).2.2.2.2.2
  rw [toBytes_eq_ok, hbody, hsig, List.take_append_drop]
  exact ⟨hnn, hlt, rfl⟩

/-- Reading gives back what was written. -/
theorem format_roundTrips : format.RoundTrips := by
  intro t b hb
  rcases (toBytes_eq_ok t b).mp hb with ⟨hnn, hlt, rfl⟩
  have hbody := Registry.signedBody_length t
  rcases Registry.signedBody_fields t with ⟨hold, hnew, hpub, htim⟩
  have hdrop : (Registry.signedBody t ++ t.signature).drop transitionBodySize = t.signature := by
    rw [← hbody, List.drop_left]
  simp only [transitionBodySize] at hbody
  -- Every field lies within the body, and only the signature behind it.
  refine (fromBytes_eq_ok _ t).mpr ⟨?_, ?_, ?_, ?_, ?_, hdrop.symm⟩
  · rw [List.length_append, hbody, t.signature_length, transitionSize]
  · rw [field_append_within _ _ _ _ (by omega), hold]
  · rw [field_append_within _ _ _ _ (by omega), hnew]
  · rw [field_append_within _ _ _ _ (by omega), hpub]
  · rw [field_append_within _ _ _ _ (by omega), htim, beDecode_beEncode _ _ hlt]
    omega

/-- Where a string is read, writing gives it back, and any other is refused. -/
theorem format_exact (b : Bytes) : format.Exact (fun e => e.kind = .keyRotationError) b := by
  by_cases hlen : b.length = transitionSize
  · rcases (fromBytes_isOk_iff b).mpr hlen with ⟨t, ht⟩
    exact (Format.exact_of_ok ht).mpr (toBytes_of_fromBytes b t ht)
  · exact Or.inl ⟨_, if_pos hlen, rfl⟩

end KeyTransition

variable {C : Primitives}

/-- A signer makes a transition whose signature is over its body. -/
theorem createKeyTransition_eq_ok (nowMs : Nat) (oldPrivate oldDeviceId newEd25519Public : Bytes)
    (t : KeyTransition)
    (h : createKeyTransition C nowMs oldPrivate oldDeviceId newEd25519Public = .ok t) :
    t.bodyBytes = .ok (Registry.signedBody t) ∧
      t.signature = C.ed25519Sign oldPrivate (Registry.signedBody t) := by
  simp only [createKeyTransition, except_bind_eq_ok, packUInt_eq_ok,
    KeyTransition.postInit_eq_ok] at h
  rcases h with ⟨_, ⟨hlt, rfl⟩, hold, hnew, hpub, htim, hsig⟩
  have hbody : Registry.signedBody t = oldDeviceId ++ C.sha256 newEd25519Public ++
      newEd25519Public ++ beEncode 8 nowMs := by
    rw [Registry.signedBody, hold, hnew, hpub, htim, Int.toNat_natCast]
  refine ⟨(Registry.bodyBytes_eq_ok t _).mpr ⟨by omega, ?_, rfl⟩, ?_⟩
  · rw [htim, Int.toNat_natCast]
    exact hlt
  · rw [hsig, hbody]

/-- A transition that was applied was verified over the bytes it came in. -/
theorem Registry.applied_verified (g g' : Registry C) (nowMs : Nat) (b : Bytes)
    (t : KeyTransition) (h : KeyTransition.fromBytes b = .ok t)
    (hrun : (applyTransition nowMs t).run g = .ok () g') :
    ∃ old, g.store.get t.oldDeviceId = some old ∧
      C.ed25519Verify old.ed25519Public (b.take 104) (b.drop 104) = true := by
  rcases g.applyTransition_cases nowMs t with ⟨_, exn, herr⟩ | ⟨old, _, ht, _, _⟩
  · rw [hrun] at herr
    simp only [reduceCtorEq] at herr
  · have hbody := (KeyTransition.fromBytes_signedBody b t h).1
    have hsig := ((KeyTransition.fromBytes_eq_ok b t).mp h).2.2.2.2.2
    have hverify := ht.2.2.2.2.2.1
    rw [hbody, hsig] at hverify
    exact ⟨old, ht.1, hverify⟩

/-- A string is read exactly when it has 168 bytes, and written back as it was.
    A transition whose timestamp fits is written and read back as it was. The
    body that is packed to verify a signature is the first 104 of the bytes that
    were received, and a transition that is applied was verified over them. One
    that was made by its signer stays what it is, and verifies, however often it
    is written and read. -/
theorem KeyTransition.format_bijective :
    (∀ b, ((∃ t, fromBytes b = .ok t) ↔ b.length = 168) ∧
      (b.length ≠ 168 → ∃ message, fromBytes b = .error ⟨.keyRotationError, message⟩) ∧
      ∀ t, fromBytes b = .ok t → t.toBytes = .ok b) ∧
    (∀ t : KeyTransition, 0 ≤ t.timestampMs → t.timestampMs < 2 ^ 64 →
      ∃ b, t.toBytes = .ok b ∧ fromBytes b = .ok t) ∧
    (∀ b t, fromBytes b = .ok t → t.bodyBytes = .ok (b.take 104) ∧
      ∀ (g g' : Registry C) (nowMs : Nat),
        (Registry.applyTransition nowMs t).run g = .ok () g' →
          ∃ old, g.store.get t.oldDeviceId = some old ∧
            C.ed25519Verify old.ed25519Public (b.take 104) (b.drop 104) = true) ∧
    ∀ nowMs oldPrivate oldDeviceId newEd25519Public t,
      createKeyTransition C nowMs oldPrivate oldDeviceId newEd25519Public = .ok t →
        ∀ n, ∃ t' body, format.trips n t = .ok t' ∧ t' = t ∧ t'.bodyBytes = .ok body ∧
          CryptoEngine.verify C (C.ed25519Public oldPrivate) body t'.signature = .ok true := by
  refine ⟨fun b => ⟨fromBytes_isOk_iff b, fun hlen => ⟨_, if_pos hlen⟩,
    fun t ht => (Format.exact_of_ok ht).mp (format_exact b)⟩, fun t hnn hlt => ?_,
    fun b t ht => ⟨?_, ?_⟩, ?_⟩
  · -- What is written is read back, as the format has the two directions.
    have hwrite := (toBytes_eq_ok t _).mpr ⟨hnn, by omega, rfl⟩
    exact ⟨_, hwrite, format_roundTrips t _ hwrite⟩
  · rcases fromBytes_signedBody b t ht with ⟨hbody, hnn, hlt⟩
    exact (Registry.bodyBytes_eq_ok t _).mpr ⟨hnn, hlt, hbody.symm⟩
  · exact fun g g' nowMs hrun => g.applied_verified g' nowMs b t ht hrun
  · -- Any number of trips gives the transition itself, so its signature still verifies.
    intro nowMs oldPrivate oldDeviceId newEd25519Public t ht n
    rcases createKeyTransition_eq_ok nowMs oldPrivate oldDeviceId newEd25519Public t ht with
      ⟨hbody, hsig⟩
    rcases (Registry.bodyBytes_eq_ok t _).mp hbody with ⟨hnn, hlt, _⟩
    have hwrite := (toBytes_eq_ok t _).mpr ⟨hnn, hlt, rfl⟩
    refine ⟨t, _, Format.trips_eq format_roundTrips t _ hwrite n, rfl, hbody, ?_⟩
    rw [CryptoEngine.verify_eq C _ _ _ (C.ed25519Public_length oldPrivate), hsig,
      C.ed25519Verify_sign]

/-- A signed transition between two toy devices, after three trips. -/
theorem KeyTransition.toyTransition_survives :
    createKeyTransition toyPrimitives 1000 [1] (Registry.toyIdentity 1) (Registry.toyIdentity 2)
        = .ok (Registry.toyTransition 1 2 1000) ∧
      format.trips 3 (Registry.toyTransition 1 2 1000)
        = .ok (Registry.toyTransition 1 2 1000) := by
  have hmade : createKeyTransition toyPrimitives 1000 [1] (Registry.toyIdentity 1)
      (Registry.toyIdentity 2) = .ok (Registry.toyTransition 1 2 1000) := by decide +kernel
  rcases format_bijective.2.2.2 _ _ _ _ _ hmade 3 with ⟨t, _, htrips, ht, _⟩
  rw [ht] at htrips
  exact ⟨hmade, htrips⟩

end Ztlnp

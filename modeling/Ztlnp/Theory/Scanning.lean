import Ztlnp.Core.QrPayload

/-!
# Scanning a Code

What a scanned code can bring into the trust store.

A code carries an identity, a key and a fingerprint, and the last two are
redundant: both are the digest of the key, once as bytes and once in print. The
parser recomputes the digest and compares it with either. The bytes go through
a lenient reader, so a field may be written in many ways, but the fingerprint is
compared letter by letter and has one form only. Whoever controls the text of a
code can thus choose the key. The identity it is filed under is not theirs to
choose.

## Theorems

* `qr_payload_self_consistent`: A proper code is read back, and every string
  that is read names a key and its own digest.
* `scanned_filed`: A scanned key is verified under the identity it came with.
-/

namespace Ztlnp

variable {C : Primitives}

/-- A code that was made for a key and its digest is read back. A string that is
    read, however it was made, names a key of the right length and the digest of
    that key, which its last field spells out; any other string raises. So does
    every code that was made with an identity which is not the digest of the
    key. -/
theorem qr_payload_self_consistent (printable : Nat → Bool) :
    (∀ k : Bytes, k.length = 32 →
      parseQrPayload C printable (codes (encodeQrPayload C (C.sha256 k) k))
        = .ok (C.sha256 k, k)) ∧
    (∀ s : CodePoints,
      (∃ message, parseQrPayload C printable s = .error ⟨.trustError, message⟩) ∨
        ∃ d k, parseQrPayload C printable s = .ok (d, k) ∧ d.length = 32 ∧ k.length = 32 ∧
          d = C.sha256 k ∧ (s.splitOn 58).getLast? = some (codes (hex (C.sha256 k)))) ∧
    (∀ d k : Bytes, d ≠ C.sha256 k → ∃ message,
      parseQrPayload C printable (codes (encodeQrPayload C d k))
        = .error ⟨.trustError, message⟩) := by
  refine ⟨fun k hk => ?_, fun s => ?_, fun d k hne => ?_⟩
  · exact (parseQrPayload_eq_ok C printable _ _ _).mpr ⟨_, _, splitOn_encodeQrPayload C _ k,
      fromHex_codes_hex _, fromHex_codes_hex _, C.sha256_length k, hk, rfl⟩
  · rcases parseQrPayload_cases C printable s with herr | ⟨d, k, hok⟩
    · exact Or.inl herr
    · rcases (parseQrPayload_eq_ok C printable s d k).mp hok with
        ⟨deviceField, keyField, hsplit, _, _, hd, hk, hdk⟩
      refine Or.inr ⟨d, k, hok, hd, hk, hdk, ?_⟩
      rw [hsplit]
      rfl
  · rcases parseQrPayload_cases C printable (codes (encodeQrPayload C d k)) with
      herr | ⟨d', k', hok⟩
    · exact herr
    · rcases (parseQrPayload_eq_ok C printable _ d' k').mp hok with
        ⟨deviceField, keyField, hsplit, hd, hk, _, _, hdk⟩
      -- The fields that were read are the ones that were written.
      rw [splitOn_encodeQrPayload] at hsplit
      simp only [List.cons.injEq, true_and, and_true] at hsplit
      rw [← hsplit.1, fromHex_codes_hex, Except.ok.injEq] at hd
      rw [← hsplit.2.1, fromHex_codes_hex, Except.ok.injEq] at hk
      rw [hd, hk] at hne
      exact absurd hdk hne

/-- Adding a scanned key as a verified one gives it a record that is filed under
    the identity the code named, and no other record changes. -/
theorem scanned_filed (printable : Nat → Bool) (payload : CodePoints) (d k : Bytes)
    (h : parseQrPayload C printable payload = .ok (d, k)) (s : TrustStore C) :
    ∃ r, (TrustStore.add k .verified).run s = .ok r (s.put r) ∧ r.deviceId = d ∧
      .verified ≤ r.trustLevel ∧ ∀ id, id ≠ d → (s.put r).get id = s.get id := by
  rcases (parseQrPayload_eq_ok C printable payload d k).mp h with
    ⟨_, _, _, _, _, _, hk, hdk⟩
  rcases s.upsert_of_length k .verified hk with ⟨r, hr⟩
  have hfiled := (s.upsert_cases k .verified r hr).1
  rw [← hdk] at hfiled
  refine ⟨r, ?_, hfiled, s.level_le_upsert k .verified r hr, fun id hid => ?_⟩
  · rw [s.add_run, hr]
  · rw [TrustStore.get_put, hfiled, if_neg hid]

end Ztlnp

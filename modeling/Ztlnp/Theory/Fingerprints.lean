import Ztlnp.Core.QrPayload
import Ztlnp.Theory.Registry

/-!
# Confirming a Fingerprint

What it says about a key that its fingerprint was confirmed.

A fingerprint is the digest of a key in print: its digits in upper case, cut
into groups of four. Printing loses nothing. The groups come back by splitting
at the colons, because no digit is one, put together they are the digits again,
because sixteen groups cover all of them, and reading the digits gives the
digest. So two keys have one fingerprint exactly if they have one digest, and
since the store files every record under the digest of its key, a confirmed
fingerprint is one of a key with that very identity.

## Theorems

* `flatten_slices`: Slices of the same length, put together.
* `upperHexDigits_injective`: Digits in upper case determine the bytes.
* `fingerprintOf_eq_iff`: Keys with the same fingerprint.
* `fingerprint_confirms`: What a confirmation proves, and what it changes.
-/

namespace Ztlnp

variable {C : Primitives}

/-- Slices of the same length, put together, are what they were cut from. -/
theorem flatten_slices {α : Type} (l : List α) (w n : Nat) :
    ((List.range n).map (fun i => (l.drop (w * i)).take w)).flatten = l.take (w * n) := by
  induction n with
  | zero => rw [Nat.mul_zero, List.take_zero]; rfl
  | succ n ih =>
      rw [List.range_succ, List.map_append, List.flatten_append, ih, List.map_singleton,
        List.flatten_singleton, Nat.mul_succ, List.take_add]

/-- The digits in upper case have their values too. -/
theorem digitValue_toUpper : ∀ n < 16, digitValue (hexDigit n).toUpper.toNat = some n := by
  decide

/-- The digits of a fingerprint, as code points. -/
theorem map_upperHexDigits (b : Bytes) : (upperHexDigits b).map Char.toNat
    = digitPairs (fun n => (hexDigit n).toUpper.toNat) b := by
  rw [upperHexDigits, List.map_map, List.map_flatMap]
  rfl

/-- Digits in upper case determine the bytes. -/
theorem upperHexDigits_injective : Function.Injective upperHexDigits := by
  intro b b' h
  have hread (b : Bytes) : fromHex ((upperHexDigits b).map Char.toNat) = .ok b := by
    rw [map_upperHexDigits, fromHex_digitPairs _ digitValue_toUpper]
  have hb := hread b
  rw [h, hread b', Except.ok.injEq] at hb
  exact hb.symm

theorem upperHexDigits_length (b : Bytes) : (upperHexDigits b).length = 2 * b.length := by
  rw [upperHexDigits, List.length_map]
  induction b with
  | nil => rfl
  | cons x b ih =>
      rw [List.flatMap_cons, List.length_append, ih, List.length_cons]
      simp only [hexByte, List.length_cons, List.length_nil]
      omega

/-- There is no colon among the digits of a fingerprint. -/
theorem colon_notMem_upperHexDigits (b : Bytes) : ':' ∉ upperHexDigits b := by
  intro hc
  have hmem := List.mem_map_of_mem (f := Char.toNat) hc
  rw [map_upperHexDigits] at hmem
  exact colon_notMem_digitPairs _ digitValue_toUpper b hmem

/-- The groups of a fingerprint. -/
def fingerprintGroups (digest : List Char) : List (List Char) :=
  (List.range 16).map (fun i => (digest.drop (4 * i)).take 4)

/-- Splitting at the colons and putting the groups together gives back the
    digits. -/
theorem flatten_splitOn_fingerprint (b : Bytes) (h : b.length = 32) :
    (([':'].intercalate (fingerprintGroups (upperHexDigits b))).splitOn ':').flatten
      = upperHexDigits b := by
  have hcolon : ∀ g ∈ fingerprintGroups (upperHexDigits b), ':' ∉ g := by
    intro g hg
    rcases List.mem_map.mp hg with ⟨i, _, rfl⟩
    exact fun hc => colon_notMem_upperHexDigits b (List.mem_of_mem_drop (List.mem_of_mem_take hc))
  rw [List.splitOn_intercalate ':' hcolon (List.cons_ne_nil _ _), fingerprintGroups,
    flatten_slices, List.take_of_length_le (by rw [upperHexDigits_length, h])]

/-- Two keys have the same fingerprint exactly if they have the same digest. -/
theorem fingerprintOf_eq_iff (k k' : Bytes) :
    fingerprintOf C k = fingerprintOf C k' ↔ C.sha256 k = C.sha256 k' := by
  constructor
  · intro h
    -- The way back: the colons, the groups, the digits.
    have hgroups := String.ofList_injective h
    have hdigits := congrArg (fun text => (List.splitOn ':' text).flatten) hgroups
    refine upperHexDigits_injective ?_
    rw [← flatten_splitOn_fingerprint _ (C.sha256_length k),
      ← flatten_splitOn_fingerprint _ (C.sha256_length k')]
    exact hdigits
  · intro h
    rw [fingerprintOf, fingerprintOf, h]

namespace TrustStore

/-- The fingerprint of a key is confirmed for an identity exactly if the identity
    is known and is the digest of the key. -/
theorem verifyFingerprint_iff (s : TrustStore C) (d k : Bytes) :
    (∃ s', (verifyFingerprint d (fingerprintOf C k)).run s = .ok true s') ↔
      (∃ r, s.get d = some r) ∧ C.sha256 k = d := by
  rw [verifyFingerprint_run]
  cases hget : s.get d with
  | none => simp only [EStateM.Result.ok.injEq, Bool.false_eq_true, false_and, exists_false,
      reduceCtorEq]
  | some r =>
      -- The stored key has the identity for its digest, so only digests are compared.
      have hown := s.sha256_of_get d r hget
      simp only [fingerprintOf_eq_iff, hown, Option.some.injEq, exists_eq', true_and]
      by_cases hd : C.sha256 k = d
      · rw [if_pos hd.symm]
        exact ⟨fun _ => hd, fun _ => ⟨_, rfl⟩⟩
      · rw [if_neg (Ne.symm hd)]
        simp only [EStateM.Result.ok.injEq, Bool.false_eq_true, false_and, exists_false, hd]

end TrustStore

/-- In every state of a run, the fingerprint of a key is confirmed for an
    identity exactly if there is a record for it and it is the digest of the
    key. Two keys have one fingerprint exactly if they have one digest. Whatever
    is given for a fingerprint, the call returns. If it returns true, it has
    raised the record to the level of a verified one or left it above that, and
    otherwise it has changed nothing. -/
theorem fingerprint_confirms (C : Primitives) (allowTofu : Bool) (minTrust : TrustLevel)
    (maxEndorsementDepth maxRotations : Int) (acts : List RegistryAct) (d : Bytes) :
    let s := (acts.foldl Registry.step
      (Registry.create C allowTofu minTrust maxEndorsementDepth maxRotations)).store
    (∀ k : Bytes, (∃ s', (TrustStore.verifyFingerprint d (fingerprintOf C k)).run s = .ok true s') ↔
      (∃ r, s.get d = some r) ∧ C.sha256 k = d) ∧
    (∀ k k' : Bytes, fingerprintOf C k = fingerprintOf C k' ↔ C.sha256 k = C.sha256 k') ∧
    ∀ fingerprint : String, ∃ verdict s',
      (TrustStore.verifyFingerprint d fingerprint).run s = .ok verdict s' ∧
      (verdict = false → s' = s) ∧
      (verdict = true → ∃ old r, s.get d = some old ∧
        r = { old with trustLevel := max old.trustLevel .verified } ∧ s' = s.put r ∧
        s'.get d = some r ∧ .verified ≤ r.trustLevel) := by
  intro s
  refine ⟨s.verifyFingerprint_iff d, fingerprintOf_eq_iff, fun fingerprint => ?_⟩
  rcases s.verifyFingerprint_cases d fingerprint with hrun | ⟨old, hold, _, hrun⟩
  · exact ⟨false, s, hrun, fun _ => rfl, fun h => absurd h Bool.false_ne_true⟩
  · refine ⟨true, _, hrun, fun h => absurd h.symm Bool.false_ne_true, fun _ =>
      ⟨old, _, hold, rfl, rfl, ?_, le_max_right _ _⟩⟩
    rw [TrustStore.get_put, if_pos (s.filed d old hold).symm]

end Ztlnp

import Ztlnp.Core.Python

/-!
# Padding

The padding of `privacy.py`: bytes appended to a plaintext before it is
encrypted, so that its length says less about it.

What is appended is a number of random bytes and one last byte that holds
that number, which is all `stripPadding` reads. The four strategies differ
only in how they arrive at the number, or at leaving the plaintext alone.
`padLength` is that choice, and `padToSize` the rest of the function.

The sizes are Python integers and may be negative; nothing checks them. A
negative block size therefore asks the random source for a negative number of
bytes, and a block size of zero divides by zero. Both are branches here.

## Main definitions

* `PaddingStrategy`: How aggressively to pad.
* `Entropy`: What one call reads from the random source.
* `padLength`: How many bytes to append, if any.
* `padToSize`, `stripPadding`: Appending padding and removing it.

## Theorems

* `padToSize_eq_ok`: What a call returns.
* `stripPadding_append`: The last byte takes off what it counts.
-/

namespace Ztlnp

/-- How aggressively to pad payloads. -/
inductive PaddingStrategy
  | none
  | fixed
  | random
  | block
deriving DecidableEq, Repr

/-- What one call reads from `os.urandom`: a single byte, and then as many
    bytes as it asks for. -/
structure Entropy where
  drawn : UInt8
  padding : Nat → Bytes
  padding_length : ∀ n, (padding n).length = n

/-- `_MAX_PAD`. -/
def maxPadBytes : Int := 255

/-- `os.urandom`, which refuses a negative number. -/
def Entropy.urandom (r : Entropy) (n : Int) : Except Exn Bytes :=
  if n < 0 then .error ⟨.valueError, "negative argument not allowed"⟩
  else .ok (r.padding n.toNat)

/-- `bytes([n])`: the one byte of a number. -/
def singleByte (n : Int) : Except Exn Bytes :=
  if 0 ≤ n ∧ n < 256 then .ok [UInt8.ofNat n.toNat]
  else .error ⟨.valueError, "bytes must be in range(0, 256)"⟩

/-- The number of padding bytes for a plaintext of a given length. Nothing is
    returned where `pad_to_size` returns the plaintext as it is. -/
def padLength (strategy : PaddingStrategy) (targetSize blockSize maxPad : Int) (drawn : UInt8)
    (length : Nat) : Except Exn (Option Int) :=
  match strategy with
  | .none => .ok none
  | .fixed =>
    let needed := targetSize - length - 1
    if needed ≤ 0 ∨ needed > maxPadBytes then .ok none else .ok (some needed)
  | .random =>
    let effectiveMax := min maxPad maxPadBytes
    if effectiveMax ≤ 0 then .ok none
    else
      let padLen := (drawn.toNat : Int).fmod (effectiveMax + 1)
      if padLen = 0 then .ok none else .ok (some padLen)
  | .block =>
    if blockSize = 0 then .error ⟨.zeroDivisionError, "integer modulo by zero"⟩
    else
      -- The remainder counts the length byte. It has the sign of the divisor.
      let remainder := ((length : Int) + 1).fmod blockSize
      if remainder = 0 then .ok none
      else
        let padLen := blockSize - remainder
        if padLen > maxPadBytes then .ok none else .ok (some padLen)

/-- `pad_to_size`: the padded plaintext, and whether it was padded. -/
def padToSize (r : Entropy) (plaintext : Bytes) (strategy : PaddingStrategy := .fixed)
    (targetSize : Int := 256) (blockSize : Int := 64) (maxPad : Int := maxPadBytes) :
    Except Exn (Bytes × Bool) := do
  match ← padLength strategy targetSize blockSize maxPad r.drawn plaintext.length with
  | none => return (plaintext, false)
  | some padLen =>
    let padding ← r.urandom padLen
    let trailer ← singleByte padLen
    return (plaintext ++ padding ++ trailer, true)

/-- `strip_padding`. -/
def stripPadding (paddedPlaintext : Bytes) : Except Exn Bytes :=
  match paddedPlaintext.getLast? with
  | none => .error ⟨.valueError, "Cannot strip padding from empty data"⟩
  | some last =>
    let padLen := last.toNat
    let totalRemove := padLen + 1
    if totalRemove > paddedPlaintext.length then
      .error ⟨.valueError, "Padding length byte (" ++ toString padLen ++
        ") exceeds available data length (" ++ toString (paddedPlaintext.length - 1) ++ ")"⟩
    else .ok (paddedPlaintext.take (paddedPlaintext.length - totalRemove))

section Lengths

variable (targetSize blockSize maxPad : Int) (drawn : UInt8) (length : Nat)

theorem padLength_fixed :
    padLength .fixed targetSize blockSize maxPad drawn length
      = .ok (if 1 ≤ targetSize - length - 1 ∧ targetSize - length - 1 ≤ maxPadBytes
          then some (targetSize - length - 1) else none) := by
  by_cases h : 1 ≤ targetSize - length - 1 ∧ targetSize - length - 1 ≤ maxPadBytes
  · rw [if_pos h]
    exact if_neg (by omega)
  · rw [if_neg h]
    exact if_pos (by omega)

theorem padLength_random :
    padLength .random targetSize blockSize maxPad drawn length
      = .ok (if 0 < min maxPad maxPadBytes ∧ drawn.toNat % (min maxPad maxPadBytes + 1) ≠ 0
          then some (drawn.toNat % (min maxPad maxPadBytes + 1)) else none) := by
  simp only [padLength]
  by_cases hmax : min maxPad maxPadBytes ≤ 0
  · rw [if_pos hmax, if_neg (fun h => by omega)]
  · rw [if_neg hmax, Int.fmod_eq_emod_of_nonneg _ (by omega)]
    by_cases hzero : (drawn.toNat : Int) % (min maxPad maxPadBytes + 1) = 0
    · rw [if_pos hzero, if_neg (fun h => h.2 hzero)]
    · rw [if_neg hzero, if_pos ⟨by omega, hzero⟩]

/-- A positive block size divides, and the remainder is not negative. -/
theorem padLength_block (hblock : 1 ≤ blockSize) :
    padLength .block targetSize blockSize maxPad drawn length
      = .ok (if ((length : Int) + 1) % blockSize ≠ 0
            ∧ blockSize - ((length : Int) + 1) % blockSize ≤ maxPadBytes
          then some (blockSize - ((length : Int) + 1) % blockSize) else none) := by
  simp only [padLength]
  rw [if_neg (by omega), Int.fmod_eq_emod_of_nonneg _ (by omega)]
  by_cases hzero : ((length : Int) + 1) % blockSize = 0
  · rw [if_pos hzero, if_neg (fun h => h.1 hzero)]
  · rw [if_neg hzero]
    by_cases hbig : blockSize - ((length : Int) + 1) % blockSize > maxPadBytes
    · rw [if_pos hbig, if_neg (fun h => by omega)]
    · rw [if_neg hbig, if_pos ⟨hzero, by omega⟩]

variable (strategy : PaddingStrategy)

/-- Whichever strategy chooses, a positive block size is enough for a choice,
    and what is chosen fits the length byte. -/
theorem padLength_spec (hblock : 1 ≤ blockSize) :
    ∃ choice, padLength strategy targetSize blockSize maxPad drawn length = .ok choice ∧
      ∀ n, choice = some n → 1 ≤ n ∧ n ≤ maxPadBytes := by
  cases strategy with
  | none => exact ⟨none, rfl, fun n h => by cases h⟩
  | fixed =>
      refine ⟨_, padLength_fixed targetSize blockSize maxPad drawn length, fun n h => ?_⟩
      rw [Option.ite_none_right_eq_some, Option.some.injEq] at h
      rw [← h.2]
      exact h.1
  | random =>
      refine ⟨_, padLength_random targetSize blockSize maxPad drawn length, fun n h => ?_⟩
      rw [Option.ite_none_right_eq_some, Option.some.injEq] at h
      rcases h with ⟨⟨hpos, hne⟩, rfl⟩
      -- The draw is reduced modulo one more than the most that may be added.
      have hlow := Int.emod_nonneg (drawn.toNat : Int)
        (show min maxPad maxPadBytes + 1 ≠ 0 by omega)
      have hhigh := Int.emod_lt_of_pos (drawn.toNat : Int)
        (show 0 < min maxPad maxPadBytes + 1 by omega)
      omega
  | block =>
      refine ⟨_, padLength_block targetSize blockSize maxPad drawn length hblock, fun n h => ?_⟩
      rw [Option.ite_none_right_eq_some, Option.some.injEq] at h
      rcases h with ⟨⟨_, hmax⟩, rfl⟩
      have hhigh := Int.emod_lt_of_pos ((length : Int) + 1) (show 0 < blockSize by omega)
      exact ⟨by omega, hmax⟩

end Lengths

section Calls

variable {r : Entropy} {plaintext : Bytes} {strategy : PaddingStrategy}
  {targetSize blockSize maxPad : Int}

/-- Without a choice the plaintext comes back as it is. -/
theorem padToSize_of_none
    (h : padLength strategy targetSize blockSize maxPad r.drawn plaintext.length = .ok none) :
    padToSize r plaintext strategy targetSize blockSize maxPad = .ok (plaintext, false) := by
  simp only [padToSize, h]
  rfl

/-- With one that fits a byte, so many random bytes and the byte itself are
    appended. -/
theorem padToSize_of_some {n : Nat} (hn : n < 256)
    (h : padLength strategy targetSize blockSize maxPad r.drawn plaintext.length
      = .ok (some (n : Int))) :
    padToSize r plaintext strategy targetSize blockSize maxPad
      = .ok (plaintext ++ r.padding n ++ [UInt8.ofNat n], true) := by
  have hdraw : r.urandom n = .ok (r.padding n) := if_neg (by omega)
  have hbyte : singleByte n = .ok [UInt8.ofNat n] := if_pos ⟨by omega, by omega⟩
  simp only [padToSize, h, bind, Except.bind, hdraw, hbyte]
  rfl

end Calls

/-- The last byte takes off itself and as many bytes as it counts. -/
theorem stripPadding_append (plaintext padding : Bytes) (last : UInt8)
    (h : last.toNat = padding.length) :
    stripPadding (plaintext ++ padding ++ [last]) = .ok plaintext := by
  have hlen : (plaintext ++ padding ++ [last]).length
      = plaintext.length + (padding.length + 1) := by
    rw [List.length_append, List.length_append, List.length_singleton, Nat.add_assoc]
  have hlast : (plaintext ++ padding ++ [last]).getLast? = some last := List.getLast?_concat
  simp only [stripPadding, hlast]
  rw [if_neg (by rw [hlen]; omega), hlen, h, Nat.add_sub_cancel, List.append_assoc,
    List.take_left]

end Ztlnp

import Mathlib.Data.List.TakeDrop
import Mathlib.Data.Nat.Notation
import Mathlib.Tactic.Ring

/-!
# Byte Strings

Byte strings as lists of octets, fixed-width big-endian integers over them,
and the slicing a wire format is read with.

A wire format is a concatenation of fields, some of fixed width and some
whose width an earlier field announces. `field` reads `len` bytes at an
offset, and two lemmas are all a codec proof needs: reading past a leading
part (`field_append_right`) and reading a leading part (`field_append_left`).
A parser built on `field` is therefore inverted field by field, with the
offsets settled by arithmetic.

The integer codec is total in both directions. Encoding keeps the low `w`
octets of its argument and decoding accepts any length, so the two are
inverse exactly where the width is respected: `beDecode_beEncode` asks for
the bound and `beEncode_beDecode` for the length.

## Main definitions

* `Bytes`: A string of octets.
* `beDecode`: The number a big-endian string denotes.
* `beEncode`: The low octets of a number, most significant first.
* `field`: The bytes of a given length at a given offset.

## Theorems

* `beEncode_length`: An encoding has the requested width.
* `beDecode_cons`: The leading octet carries the highest weight.
* `beDecode_lt`: A string of `w` octets denotes a number below `256 ^ w`.
* `beDecode_beEncode_mod`: Decoding an encoding keeps the low octets.
* `beDecode_beEncode`: Decoding inverts encoding below the bound.
* `beEncode_beDecode`: Encoding inverts decoding at the right width.
* `field_length`: A field inside the string has its full length.
* `field_append_left`: A leading part is read back whole.
* `beDecode_field_lt`: An integer fits the width it is read with.
* `field_append_right`: A read past a leading part skips it.
* `field_append_within`: A read inside a leading part.
* `field_take`: A read inside what was kept.
* `field_flatMap`: A read inside one of many records of the same length.
* `field_append_field`: Two adjacent fields are one field.
* `field_eq_self`: The field that spans a string is the string.
-/

namespace Ztlnp

/-- A string of octets. -/
abbrev Bytes := List UInt8

/-- Comparing octet by octet decides equality of strings. -/
instance : LawfulBEq Bytes := inferInstance

/-- The number denoted by a string, most significant octet first. -/
def beDecode (b : Bytes) : Nat :=
  b.foldl (fun acc x => acc * 256 + x.toNat) 0

/-- The low `w` octets of `n`, most significant first. -/
def beEncode : Nat → Nat → Bytes
  | 0, _ => []
  | w + 1, n => UInt8.ofNat (n / 256 ^ w) :: beEncode w n

@[simp]
theorem beEncode_length (w n : Nat) : (beEncode w n).length = w := by
  induction w with
  | zero => rfl
  | succ k ih => simp only [beEncode, List.length_cons, ih]

/-- The accumulator of the decoding fold is a leading part shifted past the
    rest of the string. -/
theorem foldl_decode_acc (b : Bytes) (acc : Nat) :
    b.foldl (fun acc x => acc * 256 + x.toNat) acc
      = acc * 256 ^ b.length + beDecode b := by
  induction b generalizing acc with
  | nil => simp only [List.foldl_nil, List.length_nil, pow_zero, mul_one, beDecode, add_zero]
  | cons x xs ih =>
      simp only [beDecode, List.foldl_cons, List.length_cons]
      -- Both sides are the same fold, started from two different accumulators.
      rw [ih, ih (0 * 256 + x.toNat), pow_succ]
      ring

theorem beDecode_cons (x : UInt8) (b : Bytes) :
    beDecode (x :: b) = x.toNat * 256 ^ b.length + beDecode b := by
  rw [beDecode, List.foldl_cons, foldl_decode_acc, zero_mul, zero_add]

theorem beDecode_lt (b : Bytes) : beDecode b < 256 ^ b.length := by
  induction b with
  | nil => simp only [beDecode, List.foldl_nil, List.length_nil, pow_zero, zero_lt_one]
  | cons x xs ih =>
      rw [beDecode_cons, List.length_cons, pow_succ]
      have hx : x.toNat + 1 ≤ 256 := x.toNat_lt
      -- The leading octet contributes at most 255 copies of the weight below it.
      have hmul := Nat.mul_le_mul_right (256 ^ xs.length) hx
      rw [add_mul, one_mul] at hmul
      omega

/-- Decoding an encoding keeps exactly the octets the width allows. -/
theorem beDecode_beEncode_mod (w n : Nat) : beDecode (beEncode w n) = n % 256 ^ w := by
  induction w with
  | zero => simp only [beEncode, beDecode, List.foldl_nil, pow_zero, Nat.mod_one]
  | succ k ih =>
      -- Split off the octet that the next one of the width keeps.
      have hmod : n % (256 ^ k * 256) = n % 256 ^ k + 256 ^ k * (n / 256 ^ k % 256) :=
        Nat.mod_mul
      have hbyte : (UInt8.ofNat (n / 256 ^ k)).toNat = n / 256 ^ k % 256 := UInt8.toNat_ofNat'
      rw [beEncode, beDecode_cons, beEncode_length, ih, hbyte, pow_succ, hmod, Nat.add_comm,
        Nat.mul_comm (256 ^ k)]

theorem beDecode_beEncode (w n : Nat) (h : n < 256 ^ w) : beDecode (beEncode w n) = n := by
  rw [beDecode_beEncode_mod, Nat.mod_eq_of_lt h]

/-- Encoding reads only the low octets, so a multiple of the modulus can be
    added freely. -/
theorem beEncode_add_mul (w n m : Nat) : beEncode w (m * 256 ^ w + n) = beEncode w n := by
  induction w generalizing m with
  | zero => rfl
  | succ k ih =>
      -- The multiple reaches past the leading octet as well.
      have hsplit : m * 256 ^ (k + 1) + n = (m * 256) * 256 ^ k + n := by
        rw [pow_succ]
        ring
      rw [beEncode, beEncode, hsplit, ih, Nat.mul_comm (m * 256),
        Nat.mul_add_div (Nat.pow_pos (by omega))]
      congr 1
      -- What is left is one octet, compared modulo 256.
      apply UInt8.toNat_inj.mp
      rw [UInt8.toNat_ofNat', UInt8.toNat_ofNat']
      omega

theorem beEncode_beDecode (b : Bytes) : beEncode b.length (beDecode b) = b := by
  induction b with
  | nil => rfl
  | cons x xs ih =>
      rw [List.length_cons, beEncode, beDecode_cons, beEncode_add_mul, ih, Nat.mul_comm,
        Nat.mul_add_div (Nat.pow_pos (by omega)), Nat.div_eq_of_lt (beDecode_lt xs),
        Nat.add_zero, UInt8.ofNat_toNat]

/-- The `len` bytes of `b` that start at offset `off`. -/
def field (b : Bytes) (off len : Nat) : Bytes :=
  (b.drop off).take len

@[simp]
theorem field_length (b : Bytes) (off len : Nat) (h : off + len ≤ b.length) :
    (field b off len).length = len := by
  rw [field, List.length_take, List.length_drop]
  omega

/-- An integer fits the width it is read with. -/
theorem beDecode_field_lt (b : Bytes) (off len : Nat) : beDecode (field b off len) < 256 ^ len := by
  have hlen : (field b off len).length ≤ len := by
    rw [field, List.length_take]
    exact Nat.min_le_left _ _
  exact (beDecode_lt _).trans_le (Nat.pow_le_pow_right (by omega) hlen)

/-- A leading part is read back whole. -/
theorem field_append_left (a b : Bytes) (len : Nat) (h : a.length = len) :
    field (a ++ b) 0 len = a := by
  rw [field, List.drop_zero, ← h, List.take_left]

/-- Reading past a leading part skips it. -/
theorem field_append_right (a b : Bytes) (off len : Nat) (h : a.length ≤ off) :
    field (a ++ b) off len = field b (off - a.length) len := by
  rw [field, field, List.drop_append, List.drop_eq_nil_of_le h, List.nil_append]

/-- A read inside a leading part does not see what follows. -/
theorem field_append_within (a b : Bytes) (off len : Nat) (h : off + len ≤ a.length) :
    field (a ++ b) off len = field a off len := by
  rw [field, field, List.drop_append_of_le_length (by omega),
    List.take_append_of_le_length (by rw [List.length_drop]; omega)]

/-- A read inside what was kept does not see what was cut off. -/
theorem field_take (b : Bytes) (n off len : Nat) (h : off + len ≤ n) :
    field (b.take n) off len = field b off len := by
  rw [field, field, List.drop_take, List.take_take, Nat.min_eq_left (by omega)]

/-- Records of the same length are found by their position. -/
theorem field_flatMap {α : Type} (encode : α → Bytes) (width : Nat) (l : List α)
    (hwidth : ∀ x ∈ l, (encode x).length = width) (i off len : Nat) (hi : i < l.length)
    (hoff : off + len ≤ width) :
    field (l.flatMap encode) (i * width + off) len = field (encode l[i]) off len := by
  induction l generalizing i with
  | nil => exact absurd hi (Nat.not_lt_zero i)
  | cons x l ih =>
      have hx := hwidth x List.mem_cons_self
      rw [List.flatMap_cons]
      cases i with
      | zero =>
          rw [Nat.zero_mul, Nat.zero_add, field_append_within _ _ _ _ (by omega)]
          rfl
      | succ i =>
          have hmul : (i + 1) * width = i * width + width := Nat.succ_mul i width
          have hshift : (i + 1) * width + off - width = i * width + off := by omega
          rw [field_append_right _ _ _ _ (by omega), hx, hshift,
            ih (fun y hy => hwidth y (List.mem_cons_of_mem x hy)) i (by simpa using hi)]
          rfl

/-- Two adjacent fields are one field. -/
theorem field_append_field (b : Bytes) (off m n : Nat) :
    field b off m ++ field b (off + m) n = field b off (m + n) := by
  rw [field, field, field, List.take_add, List.drop_drop]

/-- A field from the start is the whole string exactly when it is as long. -/
theorem field_eq_self (b : Bytes) (len : Nat) (h : len ≤ b.length) :
    field b 0 len = b ↔ b.length = len := by
  rw [field, List.drop_zero, List.take_eq_self_iff]
  omega

end Ztlnp

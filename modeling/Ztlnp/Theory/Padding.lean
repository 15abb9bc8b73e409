import Ztlnp.Core.Crypto
import Ztlnp.Core.Padding

/-!
# What Padding Gives Back and What It Hides

Padding is undone by its last byte alone, so all that has to be true of a
padded plaintext is that this byte counts the bytes in front of it. That is
`Padded`, and `stripPadding_eq_ok` says that removing padding accepts exactly
the strings of this form. Each strategy chooses a number between 1 and 255, or
leaves the plaintext alone, and with that padding can always be taken off
again.

What padding hides is another matter. The length byte counts too: a plaintext
that is one byte short of the size wanted has room for the length byte and for
no padding, and the code then leaves out both. Such a plaintext goes out one
byte short, and so the size it was to be given is missed at exactly this one
residue. It is also the only one where a block, or a target within reach, is
missed.

## Main definitions

* `Padded`: A plaintext, padding, and a byte that counts the padding.
* `FixedAlike`: Two plaintexts are sent with the length of the target.

## Theorems

* `stripPadding_eq_ok`: What can be stripped.
* `padToSize_spec`: A call pads, or returns the plaintext.
* `padToSize_removable`: Padding is removed without loss.
* `padToSize_fixed_length`, `padToSize_block_length`: The lengths that go out.
* `padToSize_block_emod_iff`: When a block is filled.
* `fixedAlike_iff`: When two plaintexts are sent alike.
* `padToSize_hides_length_iff`: When padding hides the length.
-/

namespace Ztlnp

/-- A plaintext in its padded form: bytes after it, and a last one that counts
    them. -/
def Padded (plaintext out : Bytes) : Prop :=
  ∃ padding last, out = plaintext ++ padding ++ [last] ∧ last.toNat = padding.length

/-- A length byte counts at most 255 bytes and itself. -/
theorem Padded.length_le {plaintext out : Bytes} (h : Padded plaintext out) :
    out.length ≤ plaintext.length + 256 := by
  rcases h with ⟨padding, last, rfl, hlast⟩
  have hbyte := last.toNat_lt
  rw [List.length_append, List.length_append, List.length_singleton]
  omega

/-- Padding is removed from the strings that carry it, and from no others. -/
theorem stripPadding_eq_ok (out plaintext : Bytes) :
    stripPadding out = .ok plaintext ↔ Padded plaintext out := by
  refine ⟨fun h => ?_, fun h => ?_⟩
  · simp only [stripPadding] at h
    rcases hlast : out.getLast? with _ | last
    · simp only [hlast, reduceCtorEq] at h
    · simp only [hlast] at h
      by_cases hlong : last.toNat + 1 > out.length
      · simp only [if_pos hlong, reduceCtorEq] at h
      · rw [if_neg hlong, Except.ok.injEq] at h
        have hout : out.dropLast ++ [last] = out := by
          rcases List.getLast?_eq_some_iff.mp hlast with ⟨front, rfl⟩
          rw [List.dropLast_concat]
        -- What is taken off is the end of everything but the last byte.
        have hfront : plaintext = out.dropLast.take (out.length - (last.toNat + 1)) := by
          rw [← h, List.dropLast_eq_take, List.take_take]
          congr 1
          omega
        refine ⟨out.dropLast.drop (out.length - (last.toNat + 1)), last, ?_, ?_⟩
        · rw [hfront, List.take_append_drop, hout]
        · rw [List.length_drop, List.length_dropLast]
          omega
  · rcases h with ⟨padding, last, rfl, hlast⟩
    exact stripPadding_append plaintext padding last hlast

section Calls

variable (r : Entropy) (plaintext : Bytes) (targetSize blockSize maxPad : Int)

/-- A call returns the plaintext, or the plaintext padded. -/
theorem padToSize_spec (strategy : PaddingStrategy) (hblock : 1 ≤ blockSize) :
    padToSize r plaintext strategy targetSize blockSize maxPad = .ok (plaintext, false) ∨
      ∃ out, padToSize r plaintext strategy targetSize blockSize maxPad = .ok (out, true) ∧
        Padded plaintext out := by
  rcases padLength_spec targetSize blockSize maxPad r.drawn plaintext.length strategy hblock
    with ⟨choice, hchoice, hbounds⟩
  rcases choice with _ | n
  · exact Or.inl (padToSize_of_none hchoice)
  · rcases hbounds n rfl with ⟨hlow, hhigh⟩
    have hmax : maxPadBytes = 255 := rfl
    rcases Int.eq_ofNat_of_zero_le (show 0 ≤ n by omega) with ⟨m, rfl⟩
    refine Or.inr ⟨_, padToSize_of_some (by omega) hchoice, r.padding m, UInt8.ofNat m, rfl, ?_⟩
    rw [r.padding_length, UInt8.toNat_ofNat_of_lt' (by simp only [UInt8.size]; omega)]

/-- Padding never fails, and what was padded can be stripped. -/
theorem padToSize_removable (strategy : PaddingStrategy) (hblock : 1 ≤ blockSize) :
    ∃ out padded, padToSize r plaintext strategy targetSize blockSize maxPad
        = .ok (out, padded) ∧
      (padded = true → stripPadding out = .ok plaintext ∧
        out.length ≤ plaintext.length + 256 ∧
        ∃ padding last, out = plaintext ++ padding ++ [last] ∧ last.toNat = padding.length) ∧
      (padded = false → out = plaintext) := by
  rcases padToSize_spec r plaintext targetSize blockSize maxPad strategy hblock with
    hsame | ⟨out, hpad, hform⟩
  · exact ⟨plaintext, false, hsame, fun h => Bool.noConfusion h, fun _ => rfl⟩
  · exact ⟨out, true, hpad, fun _ => ⟨(stripPadding_eq_ok out plaintext).mpr hform,
      hform.length_le, hform⟩, fun h => Bool.noConfusion h⟩

/-- A source of random bytes that draws nothing but zeros. -/
def zeros : Entropy where
  drawn := 0
  padding n := List.replicate n 0
  padding_length _ := List.length_replicate

theorem padToSize_removable_block :
    1 ≤ (8 : Int) ∧ ∃ out padded, padToSize zeros [1, 2, 3] .block 256 8 = .ok (out, padded) ∧
      (padded = true → stripPadding out = .ok [1, 2, 3] ∧ out.length ≤ 3 + 256 ∧
        ∃ padding last, out = [1, 2, 3] ++ padding ++ [last] ∧ last.toNat = padding.length) ∧
      (padded = false → out = [1, 2, 3]) :=
  ⟨by decide, padToSize_removable zeros [1, 2, 3] 256 8 maxPadBytes .block (by decide)⟩

/-- Within reach of the target the length is the target, but for a plaintext
    that is one byte short of it. -/
theorem padToSize_fixed_length (hreach : targetSize - 256 ≤ plaintext.length)
    (hshort : (plaintext.length : Int) < targetSize) :
    ∃ out padded, padToSize r plaintext .fixed targetSize blockSize maxPad
        = .ok (out, padded) ∧
      (out.length : Int) = if (plaintext.length : Int) = targetSize - 1 then targetSize - 1
        else targetSize := by
  have hmax : maxPadBytes = 255 := rfl
  have hchoice := padLength_fixed targetSize blockSize maxPad r.drawn plaintext.length
  by_cases hlast : (plaintext.length : Int) = targetSize - 1
  · rw [if_neg (by omega)] at hchoice
    rw [if_pos hlast]
    exact ⟨plaintext, false, padToSize_of_none hchoice, hlast⟩
  · rw [if_pos (by omega)] at hchoice
    rw [if_neg hlast]
    rcases Int.eq_ofNat_of_zero_le (show 0 ≤ targetSize - plaintext.length - 1 by omega) with
      ⟨m, hm⟩
    rw [hm] at hchoice
    refine ⟨_, true, padToSize_of_some (by omega) hchoice, ?_⟩
    rw [List.length_append, List.length_append, r.padding_length, List.length_singleton]
    omega

/-- The length is rounded up to a block, the length byte included, but for a
    plaintext that fills a block with its length byte and no padding. -/
theorem padToSize_block_length (hlow : 1 ≤ blockSize) (hhigh : blockSize ≤ 256) :
    ∃ out padded, padToSize r plaintext .block targetSize blockSize maxPad
        = .ok (out, padded) ∧
      (out.length : Int) = if ((plaintext.length : Int) + 1) % blockSize = 0
        then (plaintext.length : Int)
        else plaintext.length + 1 + (blockSize - ((plaintext.length : Int) + 1) % blockSize) := by
  have hmax : maxPadBytes = 255 := rfl
  have hchoice := padLength_block targetSize blockSize maxPad r.drawn plaintext.length hlow
  have hpos := Int.emod_nonneg ((plaintext.length : Int) + 1) (show blockSize ≠ 0 by omega)
  have hlt := Int.emod_lt_of_pos ((plaintext.length : Int) + 1) (show 0 < blockSize by omega)
  -- A length byte that ends a block leaves nothing to add, and then nothing is added at all.
  by_cases hfull : ((plaintext.length : Int) + 1) % blockSize = 0
  · rw [if_neg (fun h => h.1 hfull)] at hchoice
    rw [if_pos hfull]
    exact ⟨plaintext, false, padToSize_of_none hchoice, rfl⟩
  · rw [if_pos ⟨hfull, by omega⟩] at hchoice
    rw [if_neg hfull]
    rcases Int.eq_ofNat_of_zero_le
      (show 0 ≤ blockSize - ((plaintext.length : Int) + 1) % blockSize by omega) with ⟨m, hm⟩
    rw [hm] at hchoice
    refine ⟨_, true, padToSize_of_some (by omega) hchoice, ?_⟩
    rw [List.length_append, List.length_append, r.padding_length, List.length_singleton]
    omega

end Calls

/-- A length that its length byte takes to a multiple of the block is not one
    itself, unless every length is. -/
theorem emod_eq_zero_of_succ {n b : Int} (hb : 1 ≤ b) (h : (n + 1) % b = 0) :
    n % b = 0 ↔ b = 1 := by
  refine ⟨fun hn => ?_, fun h1 => by rw [h1, Int.emod_one]⟩
  have hone : b ∣ 1 := by
    have hdvd := Int.dvd_sub (Int.dvd_of_emod_eq_zero h) (Int.dvd_of_emod_eq_zero hn)
    rwa [Int.add_comm n 1, Int.add_sub_cancel] at hdvd
  exact Int.eq_one_of_dvd_one (by omega) hone

/-- Rounding up reaches a multiple of the block. -/
theorem roundUp_emod (n b : Int) : (n + (b - n % b)) % b = 0 := by
  have hsplit : n + (b - n % b) = b * (n / b) + b := by
    have hdiv := Int.mul_ediv_add_emod n b
    omega
  rw [hsplit, Int.add_emod_right, Int.mul_emod_right]

/-- A padded block is a multiple of its size, except where nothing but the
    length byte was missing. -/
theorem padToSize_block_emod_iff (r : Entropy) (plaintext : Bytes)
    (targetSize blockSize maxPad : Int) (hlow : 1 ≤ blockSize) (hhigh : blockSize ≤ 256) :
    (∃ out padded, padToSize r plaintext .block targetSize blockSize maxPad
        = .ok (out, padded) ∧ (out.length : Int) % blockSize = 0) ↔
      blockSize = 1 ∨ ((plaintext.length : Int) + 1) % blockSize ≠ 0 := by
  rcases padToSize_block_length r plaintext targetSize blockSize maxPad hlow hhigh with
    ⟨out, padded, hrun, hlen⟩
  have hresult : (∃ out padded, padToSize r plaintext .block targetSize blockSize maxPad
      = .ok (out, padded) ∧ (out.length : Int) % blockSize = 0)
        ↔ (out.length : Int) % blockSize = 0 := by
    refine ⟨fun h => ?_, fun h => ⟨out, padded, hrun, h⟩⟩
    rcases h with ⟨out', padded', hrun', hmod⟩
    rw [hrun, Except.ok.injEq, Prod.mk.injEq] at hrun'
    rw [hrun'.1]
    exact hmod
  rw [hresult, hlen]
  by_cases hfull : ((plaintext.length : Int) + 1) % blockSize = 0
  · rw [if_pos hfull, emod_eq_zero_of_succ hlow hfull]
    exact ⟨Or.inl, fun h => h.resolve_right (fun hne => hne hfull)⟩
  · rw [if_neg hfull]
    exact iff_of_true (roundUp_emod _ _) (Or.inr hfull)

/-- Both of two plaintexts are given the target size, and their ciphertexts one
    length. -/
def FixedAlike (r r' : Entropy) (p q : Bytes) (targetSize blockSize maxPad : Int) : Prop :=
  ∃ out padded out' padded',
    padToSize r p .fixed targetSize blockSize maxPad = .ok (out, padded) ∧
    padToSize r' q .fixed targetSize blockSize maxPad = .ok (out', padded') ∧
    (out.length : Int) = targetSize ∧ (out'.length : Int) = targetSize ∧
    ∀ (C : Primitives) key nonce nonce',
      (C.aesGcmEncrypt key nonce out).length = (C.aesGcmEncrypt key nonce' out').length

/-- Two plaintexts within reach of the target are sent alike, unless one of
    them misses the target by nothing but the length byte. -/
theorem fixedAlike_iff (r r' : Entropy) (p q : Bytes) (targetSize blockSize maxPad : Int)
    (hp : targetSize - 256 ≤ p.length) (hp' : (p.length : Int) < targetSize)
    (hq : targetSize - 256 ≤ q.length) (hq' : (q.length : Int) < targetSize) :
    FixedAlike r r' p q targetSize blockSize maxPad ↔
      (p.length : Int) ≠ targetSize - 1 ∧ (q.length : Int) ≠ targetSize - 1 := by
  rcases padToSize_fixed_length r p targetSize blockSize maxPad hp hp' with
    ⟨out, padded, hrun, hlen⟩
  rcases padToSize_fixed_length r' q targetSize blockSize maxPad hq hq' with
    ⟨out', padded', hrun', hlen'⟩
  refine ⟨fun h => ?_, fun h => ?_⟩
  · rcases h with ⟨a, b, a', b', ha, ha', hsize, hsize', _⟩
    rw [hrun, Except.ok.injEq, Prod.mk.injEq] at ha
    rw [hrun', Except.ok.injEq, Prod.mk.injEq] at ha'
    rw [← ha.1, hlen] at hsize
    rw [← ha'.1, hlen'] at hsize'
    -- A length that was kept is not the target.
    refine ⟨fun hc => ?_, fun hc => ?_⟩
    · rw [if_pos hc] at hsize
      omega
    · rw [if_pos hc] at hsize'
      omega
  · rw [if_neg h.1] at hlen
    rw [if_neg h.2] at hlen'
    refine ⟨out, padded, out', padded', hrun, hrun', hlen, hlen', fun C key nonce nonce' => ?_⟩
    rw [C.aesGcmEncrypt_length, C.aesGcmEncrypt_length]
    omega

/-- When padding gives the sizes it is asked for: always, but for a plaintext
    that only the length byte would fill up, which is left as it is. -/
theorem padToSize_hides_length_iff (r r' : Entropy) (p q : Bytes)
    (targetSize blockSize maxPad : Int) :
    (1 ≤ blockSize → blockSize ≤ 256 →
      ((∃ out padded, padToSize r p .block targetSize blockSize maxPad = .ok (out, padded) ∧
          (out.length : Int) % blockSize = 0) ↔
        blockSize = 1 ∨ ((p.length : Int) + 1) % blockSize ≠ 0)) ∧
    (targetSize - 256 ≤ p.length → (p.length : Int) < targetSize →
      targetSize - 256 ≤ q.length → (q.length : Int) < targetSize →
      (FixedAlike r r' p q targetSize blockSize maxPad ↔
        (p.length : Int) ≠ targetSize - 1 ∧ (q.length : Int) ≠ targetSize - 1)) :=
  ⟨padToSize_block_emod_iff r p targetSize blockSize maxPad,
    fixedAlike_iff r r' p q targetSize blockSize maxPad⟩

/-- Ten bytes fill blocks of eight, and are sent like twenty for a target of
    64. -/
theorem padToSize_hides_length_ten :
    (∃ out padded, padToSize zeros (List.replicate 10 1) .block 256 8 maxPadBytes
        = .ok (out, padded) ∧ (out.length : Int) % 8 = 0) ∧
      FixedAlike zeros zeros (List.replicate 10 1) (List.replicate 20 1) 64 64 maxPadBytes :=
  ⟨((padToSize_hides_length_iff zeros zeros (List.replicate 10 1) [] 256 8 maxPadBytes).1
      (by decide) (by decide)).mpr (by decide),
    ((padToSize_hides_length_iff zeros zeros (List.replicate 10 1) (List.replicate 20 1) 64 64
      maxPadBytes).2 (by decide) (by decide) (by decide) (by decide)).mpr (by decide)⟩

/-- Seven bytes stay seven in blocks of eight, and 63 bytes stay 63 for a
    target of 64. -/
theorem padToSize_shows_length :
    (¬ ∃ out padded, padToSize zeros (List.replicate 7 1) .block 256 8 maxPadBytes
        = .ok (out, padded) ∧ (out.length : Int) % 8 = 0) ∧
      ¬ FixedAlike zeros zeros (List.replicate 63 1) (List.replicate 20 1) 64 64 maxPadBytes := by
  refine ⟨fun h => ?_, fun h => ?_⟩
  · have hne := (padToSize_block_emod_iff zeros (List.replicate 7 1) 256 8 maxPadBytes
      (by decide) (by decide)).mp h
    exact absurd hne (by decide)
  · have hne := (fixedAlike_iff zeros zeros (List.replicate 63 1) (List.replicate 20 1) 64 64
      maxPadBytes (by decide) (by decide) (by decide) (by decide)).mp h
    exact hne.1 (by decide)

end Ztlnp

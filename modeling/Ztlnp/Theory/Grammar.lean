import Ztlnp.Lib.Formats
import Ztlnp.Theory.Codec
import Ztlnp.Theory.Frames

/-!
# The Grammar of a Frame

Which strings the decoder of acknowledgements takes for a frame, and which of
them are one.

The encoder writes every length and every kind into the header, so a frame says
twice whether it has blocks: in its type and in their count. The decoder reads
the count and nothing else. It refuses a string that is shorter than the count
asks for, whatever the type says, and does not look behind the last block. The
strings on which it agrees with the encoder are therefore the ones it refuses
and the ones that were encoded, and these have the right length and the right
type.

## Main definitions

* `SackFrame.announced`: The count of blocks in the header.
* `SackFrame.format`: The encoder and the decoder.
* `SackFrame.taken`: What is read off a string that is long enough.

## Theorems

* `SackFrame.format_roundTrips`: Decoding gives back what was encoded.
* `SackFrame.taken_layout`: What was read, written back.
* `SackFrame.decode_cases`: What decoding makes of any string.
* `SackFrame.refused_iff`: The strings that are refused.
* `SackFrame.written_iff`: The strings that were encoded.
* `SackFrame.exact_iff_grammatical`: Where the decoder keeps to the grammar.
-/

namespace Ztlnp

namespace SackFrame

/-- The count of blocks in the header. -/
def announced (data : Bytes) : Nat := beDecode (field data 5 2)

/-- The encoder and the decoder. -/
def format : Format SackFrame Bytes Exn := ⟨encode, decode⟩

theorem format_roundTrips : format.RoundTrips := by
  intro f w hw
  rcases (encode_eq_ok f w).mp hw with ⟨hfits, rfl⟩
  exact decode_layout f hfits

/-- Blocks that were read at their offsets are written back as one stretch. -/
theorem flatMap_blocks (data : Bytes) (n : Nat) (h : 7 + n * 8 ≤ data.length) :
    ((List.range n).map (fun i => (beDecode (field data (7 + i * 8) 4),
      beDecode (field data (11 + i * 8) 4)))).flatMap blockLayout = field data 7 (n * 8) := by
  induction n with
  | zero => rfl
  | succ n ih =>
      have hblock : blockLayout (beDecode (field data (7 + n * 8) 4),
          beDecode (field data (11 + n * 8) 4)) = field data (7 + n * 8) 8 := by
        rw [blockLayout, Packet.beEncode_beDecode_field _ _ _ (by omega),
          Packet.beEncode_beDecode_field _ _ _ (by omega), show 11 + n * 8 = 7 + n * 8 + 4 by omega]
        exact field_append_field data (7 + n * 8) 4 4
      rw [List.range_succ, List.map_append, List.flatMap_append, ih (by omega), List.map_singleton,
        List.flatMap_singleton, hblock, field_append_field, Nat.succ_mul]

/-- What is read off a string that is long enough. -/
def taken (data : Bytes) : SackFrame where
  cumAck := beDecode (field data 1 4)
  blocks := (List.range (announced data)).map (fun i =>
    (beDecode (field data (7 + i * 8) 4), beDecode (field data (11 + i * 8) 4)))

theorem taken_fits (data : Bytes) : (taken data).Fits where
  cumAck := beDecode_field_lt data 1 4
  count := by
    rw [taken, List.length_map, List.length_range]
    exact beDecode_field_lt data 5 2
  ends b hb := by
    rcases List.mem_map.mp hb with ⟨i, _, rfl⟩
    exact ⟨beDecode_field_lt _ _ 4, beDecode_field_lt _ _ 4⟩

/-- Written back, what was read has the type that the count asks for, the same
    bytes behind it, and nothing that followed the last block. -/
theorem taken_layout (data : Bytes) (h : 7 + announced data * 8 ≤ data.length) :
    (taken data).layout = (if announced data = 0 then 0x01 else 0x02) ::
      field data 1 (6 + announced data * 8) := by
  have hcount : (taken data).blocks.length = announced data := by
    rw [taken, List.length_map, List.length_range]
  have htype : beEncode 1 (if (taken data).blocks = [] then 0x01 else 0x02)
      = [if announced data = 0 then 0x01 else 0x02] := by
    have hempty : (taken data).blocks = [] ↔ announced data = 0 := by
      rw [← List.length_eq_zero_iff, hcount]
    by_cases hzero : announced data = 0
    · rw [if_pos hzero, if_pos (hempty.mpr hzero)]
      rfl
    · rw [if_neg hzero, if_neg (mt hempty.mp hzero)]
      rfl
  have hcum : beEncode 4 (taken data).cumAck = field data 1 4 :=
    Packet.beEncode_beDecode_field data 1 4 (by omega)
  have hnum : beEncode 2 (announced data) = field data 5 2 :=
    Packet.beEncode_beDecode_field data 5 2 (by omega)
  have hblocks : (taken data).blocks.flatMap blockLayout = field data 7 (announced data * 8) :=
    flatMap_blocks data (announced data) h
  -- The header behind the type and the blocks are one stretch.
  rw [layout, htype, hcum, hcount, hnum, hblocks, List.append_assoc, List.append_assoc,
    field_append_field data 5 2, field_append_field data 1 4, List.singleton_append,
    show 4 + (2 + announced data * 8) = 6 + announced data * 8 by omega]

/-- A string that is too short for the blocks it announces is refused, and every
    other is taken for a frame. -/
theorem decode_cases (data : Bytes) :
    (data.length < 7 + announced data * 8 ∧
      ∃ message, decode data = .error ⟨.valueError, message⟩) ∨
    (7 + announced data * 8 ≤ data.length ∧ decode data = .ok (taken data)) := by
  unfold decode
  by_cases hheader : data.length < 7
  · exact Or.inl ⟨by omega, _, if_pos hheader⟩
  · rw [if_neg hheader]
    by_cases hshort : data.length < 7 + announced data * 8
    · exact Or.inl ⟨hshort, _, if_pos hshort⟩
    · exact Or.inr ⟨by omega, if_neg hshort⟩

/-- The strings that are refused. -/
theorem refused_iff (data : Bytes) :
    (∃ e, format.decode data = .error e ∧ e.kind = .valueError) ↔
      data.length < 7 + announced data * 8 := by
  rcases decode_cases data with ⟨hshort, message, herr⟩ | ⟨hlong, hok⟩
  · exact ⟨fun _ => hshort, fun _ => ⟨_, herr, rfl⟩⟩
  · constructor
    · rintro ⟨e, herr, _⟩
      simp only [format, hok, reduceCtorEq] at herr
    · intro hshort
      omega

/-- The strings that were encoded. -/
theorem written_iff (data : Bytes) :
    (∃ f, format.encode f = .ok data) ↔
      data.length = 7 + announced data * 8 ∧
        data.head? = some (if announced data = 0 then 0x01 else 0x02) := by
  constructor
  · rintro ⟨f, hf⟩
    have hread : decode data = .ok f := format_roundTrips f data hf
    rcases decode_cases data with ⟨_, message, herr⟩ | ⟨hlong, hok⟩
    · rw [herr] at hread
      simp only [reduceCtorEq] at hread
    · -- What was written is what is written back, so nothing of it was cut off.
      rw [hok, Except.ok.injEq] at hread
      have hwhole : data = _ := ((encode_eq_ok f data).mp hf).2
      rw [← hread, taken_layout data hlong] at hwhole
      have hlen := congrArg List.length hwhole
      rw [List.length_cons, field_length _ _ _ (by omega)] at hlen
      exact ⟨by omega, (congrArg List.head? hwhole).trans List.head?_cons⟩
  · rintro ⟨hlen, hhead⟩
    refine ⟨taken data, (encode_eq_ok _ _).mpr ⟨taken_fits data, ?_⟩⟩
    rw [taken_layout data (by omega)]
    cases data with
    | nil => simp only [List.head?_nil, reduceCtorEq] at hhead
    | cons b rest =>
        rw [List.head?_cons, Option.some.injEq] at hhead
        rw [List.length_cons] at hlen
        rw [← hhead, field, List.drop_succ_cons, List.drop_zero,
          List.take_of_length_le (by omega)]

/-- The decoder keeps to the grammar on the strings that are too short for the
    blocks they announce, which it refuses, and on those that are as long as
    that and have the right type. It does not on any other. -/
theorem exact_iff_grammatical (data : Bytes) :
    format.Exact (fun e => e.kind = .valueError) data ↔
      data.length < 7 + announced data * 8 ∨
        (data.length = 7 + announced data * 8 ∧
          data.head? = some (if announced data = 0 then 0x01 else 0x02)) := by
  rw [Format.exact_iff format_roundTrips, refused_iff, written_iff]

/-- A type that does not exist, one that does not go with the count, and a byte
    behind the last block: all three are decoded, and to frames that are encoded
    differently. -/
theorem decode_accepts_ungrammatical :
    (decode [0x09, 0, 0, 0, 5, 0, 0] = .ok ⟨5, []⟩ ∧
      ¬ format.Exact (fun e => e.kind = .valueError) [0x09, 0, 0, 0, 5, 0, 0]) ∧
    (decode [0x02, 0, 0, 0, 5, 0, 0] = .ok ⟨5, []⟩ ∧
      ¬ format.Exact (fun e => e.kind = .valueError) [0x02, 0, 0, 0, 5, 0, 0]) ∧
    (decode [0x01, 0, 0, 0, 5, 0, 0, 0xff] = .ok ⟨5, []⟩ ∧
      ¬ format.Exact (fun e => e.kind = .valueError) [0x01, 0, 0, 0, 5, 0, 0, 0xff]) := by
  have hexact (data w : Bytes) (hdecode : decode data = .ok ⟨5, []⟩)
      (hencode : encode ⟨5, []⟩ = .ok w) (hne : w ≠ data) : decode data = .ok ⟨5, []⟩ ∧
        ¬ format.Exact (fun e => e.kind = .valueError) data := by
    refine ⟨hdecode, fun hc => hne ?_⟩
    have hw := (Format.exact_of_ok hdecode).mp hc
    exact Except.ok.inj (hencode.symm.trans hw)
  exact ⟨hexact _ [0x01, 0, 0, 0, 5, 0, 0] (by decide +kernel)
    (by decide +kernel) (by decide),
    hexact _ [0x01, 0, 0, 0, 5, 0, 0] (by decide +kernel)
    (by decide +kernel) (by decide),
    hexact _ [0x01, 0, 0, 0, 5, 0, 0] (by decide +kernel)
    (by decide +kernel) (by decide)⟩

end SackFrame

end Ztlnp

import Ztlnp.Theory.Arrival
import Ztlnp.Theory.Retries

/-!
# What a Frame Says

A frame is built from the state of the receiver, sent as bytes, and acted on by
the sender.

Nothing is lost on the way. The blocks are the maximal stretches of what is
buffered, in order, and all of them lie behind the number that is missing, so a
frame says where the count stands and which numbers are held, and no more. If
there are few enough blocks for the count of them, everything fits its field,
because a number that was received came out of four octets, and decoding gives
the frame back. The sender then removes what was received, and only that.

## Main definitions

* `SackFrame.Fits`: The numbers of a frame fit their fields.
* `SackFrame.layout`: A frame on the wire.
* `ChannelEnd.Served`: Where the methods of a channel can lead once a packet
  was received.
* `Channel.Framed`: What holds of a receiver from then on.

## Theorems

* `encode_eq_ok`: A frame can be encoded exactly when it fits.
* `decode_layout`: Decoding inverts encoding.
* `buildSack_blocks`: The blocks of a frame.
* `buildSack_fits_iff`: When the frame of a receiver fits.
* `served_framed`: Every receiver is framed.
* `sack_describes_receiver`: A frame says what was received, and the sender
  understands it.
-/

namespace Ztlnp

variable {C : Primitives}

namespace SackFrame

/-- The numbers of a frame fit their fields. -/
structure Fits (f : SackFrame) : Prop where
  cumAck : f.cumAck < 256 ^ 4
  count : f.blocks.length < 256 ^ 2
  ends : ∀ b ∈ f.blocks, b.1 < 256 ^ 4 ∧ b.2 < 256 ^ 4

/-- One block on the wire. -/
def blockLayout (b : Nat × Nat) : Bytes := beEncode 4 b.1 ++ beEncode 4 b.2

/-- A frame on the wire. -/
def layout (f : SackFrame) : Bytes :=
  beEncode 1 (if f.blocks = [] then 0x01 else 0x02) ++ beEncode 4 f.cumAck ++
    beEncode 2 f.blocks.length ++ f.blocks.flatMap blockLayout

theorem blockLayout_length (b : Nat × Nat) : (blockLayout b).length = 8 := by
  simp only [blockLayout, List.length_append, beEncode_length]

theorem encodeBlock_eq_ok (b : Nat × Nat) (w : Bytes) :
    encodeBlock b = .ok w ↔ (b.1 < 256 ^ 4 ∧ b.2 < 256 ^ 4) ∧ w = blockLayout b := by
  simp only [encodeBlock, except_bind_eq_ok, packUInt_eq_ok, pure, Except.pure, Except.ok.injEq,
    blockLayout]
  constructor
  · rintro ⟨_, ⟨h1, rfl⟩, _, ⟨h2, rfl⟩, rfl⟩
    exact ⟨⟨h1, h2⟩, rfl⟩
  · rintro ⟨⟨h1, h2⟩, rfl⟩
    exact ⟨_, ⟨h1, rfl⟩, _, ⟨h2, rfl⟩, rfl⟩

/-- The blocks are written one after the other, if all of them fit. -/
theorem encodeBlocks_eq_ok (bs : List (Nat × Nat)) (ws : List Bytes) :
    bs.mapM encodeBlock = .ok ws ↔
      (∀ b ∈ bs, b.1 < 256 ^ 4 ∧ b.2 < 256 ^ 4) ∧ ws = bs.map blockLayout := by
  induction bs generalizing ws with
  | nil =>
      simp only [List.mapM_nil, pure, Except.pure, Except.ok.injEq, List.not_mem_nil,
        false_implies, implies_true, true_and, List.map_nil]
      exact eq_comm
  | cons b bs ih =>
      rw [List.mapM_cons]
      simp only [except_bind_eq_ok, encodeBlock_eq_ok, ih, pure, Except.pure, Except.ok.injEq,
        List.forall_mem_cons, List.map_cons]
      constructor
      · rintro ⟨_, ⟨hb, rfl⟩, _, ⟨hbs, rfl⟩, rfl⟩
        exact ⟨⟨hb, hbs⟩, rfl⟩
      · rintro ⟨⟨hb, hbs⟩, rfl⟩
        exact ⟨_, ⟨hb, rfl⟩, _, ⟨hbs, rfl⟩, rfl⟩

/-- A frame can be encoded exactly when its numbers fit their fields. -/
theorem encode_eq_ok (f : SackFrame) (w : Bytes) : f.encode = .ok w ↔ f.Fits ∧ w = f.layout := by
  have htype : (if f.blocks = [] then 0x01 else 0x02 : Nat) < 256 ^ 1 := by
    split <;> omega
  simp only [encode, except_bind_eq_ok, packUInt_eq_ok, encodeBlocks_eq_ok, pure, Except.pure,
    Except.ok.injEq, layout]
  constructor
  · rintro ⟨_, ⟨_, rfl⟩, _, ⟨hcum, rfl⟩, _, ⟨hcount, rfl⟩, _, ⟨hends, rfl⟩, rfl⟩
    exact ⟨⟨hcum, hcount, hends⟩, by rw [List.flatMap_def]⟩
  · rintro ⟨hfits, rfl⟩
    exact ⟨_, ⟨htype, rfl⟩, _, ⟨hfits.cumAck, rfl⟩, _, ⟨hfits.count, rfl⟩, _, ⟨hfits.ends, rfl⟩,
      by rw [List.flatMap_def]⟩

/-- Decoding gives back a frame that was encoded. -/
theorem decode_layout (f : SackFrame) (hfits : f.Fits) : decode f.layout = .ok f := by
  set typ := beEncode 1 (if f.blocks = [] then 0x01 else 0x02) with htyp
  set cum := beEncode 4 f.cumAck with hcum
  set num := beEncode 2 f.blocks.length with hnum
  have hlayout : f.layout = typ ++ (cum ++ (num ++ f.blocks.flatMap blockLayout)) := by
    simp only [layout, List.append_assoc, htyp, hcum, hnum]
  have htyplen : typ.length = 1 := beEncode_length _ _
  have hcumlen : cum.length = 4 := beEncode_length _ _
  have hnumlen : num.length = 2 := beEncode_length _ _
  have hbody : (f.blocks.flatMap blockLayout).length = f.blocks.length * 8 := by
    rw [List.length_flatMap, List.map_congr_left (fun b _ => blockLayout_length b),
      List.map_const', List.sum_replicate_nat]
  have hlen : f.layout.length = 7 + f.blocks.length * 8 := by
    simp only [hlayout, List.length_append, htyplen, hcumlen, hnumlen, hbody]
    omega
  have hcumAt : field f.layout 1 4 = cum := by
    rw [hlayout, field_append_right _ _ _ _ (by omega), htyplen]
    exact field_append_left _ _ _ hcumlen
  have hnumAt : field f.layout 5 2 = num := by
    rw [hlayout, field_append_right _ _ _ _ (by omega), htyplen,
      field_append_right _ _ _ _ (by omega), hcumlen]
    exact field_append_left _ _ _ hnumlen
  -- Behind the header, a block is found by its position.
  have hblockAt : ∀ i off len (hi : i < f.blocks.length), off + len ≤ 8 →
      field f.layout (7 + (i * 8 + off)) len = field (blockLayout f.blocks[i]) off len := by
    intro i off len hi hoff
    have hskip : 7 + (i * 8 + off) - 1 - 4 - 2 = i * 8 + off := by omega
    rw [hlayout, field_append_right _ _ _ _ (by omega), htyplen,
      field_append_right _ _ _ _ (by omega), hcumlen, field_append_right _ _ _ _ (by omega),
      hnumlen, hskip]
    exact field_flatMap _ _ _ (fun b _ => blockLayout_length b) i off len hi hoff
  have hblocks : (List.range f.blocks.length).map (fun i =>
      (beDecode (field f.layout (7 + i * 8) 4), beDecode (field f.layout (11 + i * 8) 4)))
      = f.blocks := by
    refine List.ext_getElem (by rw [List.length_map, List.length_range]) (fun i hi hi' => ?_)
    have hfit := hfits.ends _ (List.getElem_mem hi')
    have hleft : field f.layout (7 + i * 8) 4 = beEncode 4 f.blocks[i].1 := by
      refine (hblockAt i 0 4 hi' (by omega)).trans ?_
      exact field_append_left _ _ _ (beEncode_length _ _)
    have hright : field f.layout (11 + i * 8) 4 = beEncode 4 f.blocks[i].2 := by
      rw [show 11 + i * 8 = 7 + (i * 8 + 4) by omega, hblockAt i 4 4 hi' (by omega), blockLayout,
        field_append_right _ _ _ _ (by rw [beEncode_length]), beEncode_length]
      exact (field_eq_self _ _ (by rw [beEncode_length])).mpr (beEncode_length _ _)
    rw [List.getElem_map, List.getElem_range, hleft, hright, beDecode_beEncode _ _ hfit.1,
      beDecode_beEncode _ _ hfit.2]
  unfold decode
  simp only [hlen, hnumAt, hcumAt, hnum, hcum, beDecode_beEncode _ _ hfits.count,
    beDecode_beEncode _ _ hfits.cumAck, hblocks]
  rw [if_neg (by omega), if_neg (by omega)]

end SackFrame

namespace Channel

/-- The numbers of a receiver fit a frame. -/
structure Framed (c : Channel) : Prop where
  settled : c.Settled
  count : c.recvNext < 256 ^ 4
  held : ∀ k ∈ c.recvBuffer.keys, k < 256 ^ 4

/-- Where a drain stops is where it started, or was in the buffer. -/
theorem drain_mem (fuel last : Nat) (buffer : Dict Nat Bytes) (out : Bytes) :
    (drain fuel last buffer out).1 = last ∨ (drain fuel last buffer out).1 ∈ buffer.keys := by
  have hle := drain_le fuel last buffer out
  by_cases heq : (drain fuel last buffer out).1 = last
  · exact Or.inl heq
  · right
    have hthere := ((drain_get? fuel last buffer out _ (by omega)).1 (Nat.le_refl _)).1
    rw [Dict.mem_keys]
    exact Option.ne_none_iff_exists'.mp hthere

/-- What is left after a drain was there before. -/
theorem drain_keys (fuel last : Nat) (buffer : Dict Nat Bytes) (out : Bytes) (k : Nat)
    (hk : k ∈ (drain fuel last buffer out).2.1.keys) : k ∈ buffer.keys := by
  rcases (Dict.mem_keys _ _).mp hk with ⟨x, hx⟩
  rw [Dict.mem_keys, ← Option.ne_none_iff_exists']
  intro hnone
  rw [drain_get?_of_none fuel last buffer out k hnone] at hx
  simp only [reduceCtorEq] at hx

/-- A number of four octets keeps it that way. -/
theorem accept_framed (c : Channel) (n : Nat) (x : Bytes) (h : c.Framed) (hn : n < 256 ^ 4) :
    (c.accept n x).2.Framed := by
  refine ⟨accept_settled c n x h.settled, ?_, ?_⟩
  · -- In turn, early or late: what a number may do to the front.
    rcases accept_cases c n x with ⟨_, hacc⟩ | ⟨hearly, hacc⟩ | ⟨hlate, hacc⟩
    · rw [hacc]
      simp only
      rcases drain_mem c.recvBuffer.size n c.recvBuffer x with heq | hmem
      · omega
      · have hlt := h.held _ hmem
        omega
    · rw [hacc]
      simp only
      omega
    · rw [hacc]
      simp only [(counted_of_ne c n (by omega)).2]
      exact h.count
  · -- A key is in the buffer already or is the early number itself.
    intro k hk
    rcases accept_cases c n x with ⟨_, hacc⟩ | ⟨_, hacc⟩ | ⟨_, hacc⟩
    · rw [hacc] at hk
      exact h.held k (drain_keys _ _ _ _ k hk)
    · rw [hacc] at hk
      simp only [Dict.mem_keys, Dict.get?_set] at hk
      by_cases heq : k = n
      · omega
      · simp only [if_neg heq] at hk
        exact h.held k ((Dict.mem_keys _ _).mpr hk)
    · rw [hacc] at hk
      exact h.held k hk

/-- What is buffered, in ascending order. -/
theorem sorted_keys (c : Channel) :
    (c.recvBuffer.keys.insertionSort (· ≤ ·)).Pairwise (· < ·) := by
  have hle := List.pairwise_insertionSort (· ≤ ·) c.recvBuffer.keys
  have hne : (c.recvBuffer.keys.insertionSort (· ≤ ·)).Pairwise (· ≠ ·) :=
    (List.perm_insertionSort _ _).nodup_iff.mpr c.recvBuffer.nodup
  exact hle.imp₂ (fun _ _ hab hn => Nat.lt_of_le_of_ne hab hn) hne

/-- The blocks of a frame are the stretches of what is buffered. -/
theorem buildSack_blocks (c : Channel) (h : c.Settled) :
    c.buildSack.blocks.Pairwise (fun a b => a.2 + 1 < b.1) ∧
      ∀ b ∈ c.buildSack.blocks, b.1 ≤ b.2 ∧ c.recvNext + 1 < b.1 ∧
        b.1 ∈ c.recvBuffer.keys ∧ b.2 ∈ c.recvBuffer.keys := by
  rcases blocks_spaced _ c.sorted_keys with ⟨hspaced, hle⟩
  refine ⟨hspaced, fun b hb => ?_⟩
  have hends := mem_of_mem_blocks _ b hb (hle b hb)
  simp only [List.mem_insertionSort] at hends
  rcases (Dict.mem_keys _ _).mp hends.1 with ⟨x, hx⟩
  exact ⟨hle b hb, h.buffered _ x hx, hends⟩

/-- Everything in the frame of a receiver fits, if the count of blocks does. -/
theorem buildSack_fits_iff (c : Channel) (h : c.Framed) :
    c.buildSack.Fits ↔ c.buildSack.blocks.length < 256 ^ 2 := by
  refine ⟨fun hfits => hfits.count, fun hcount => ⟨?_, hcount, fun b hb => ?_⟩⟩
  · have hlt := h.count
    simp only [buildSack]
    omega
  · have hends := (c.buildSack_blocks h.settled).2 b hb
    exact ⟨h.held _ hends.2.2.1, h.held _ hends.2.2.2⟩

end Channel

/-- A number on the wire has four octets. -/
theorem wireSequence_lt (raw : Bytes) : wireSequence raw < 256 ^ 4 := beDecode_field_lt raw 80 4

namespace ChannelEnd

theorem step_framed (s : ChannelEnd C) (a : ChannelAct) (h : s.channel.Framed) :
    (s.step a).channel.Framed := by
  rcases step_receives s a with ⟨hrecv, hbuf, _, _⟩ | ⟨env, raw, x, _, _, _, hacc⟩
  · refine ⟨h.settled.congr hrecv hbuf, ?_, ?_⟩
    · rw [hrecv]
      exact h.count
    · rw [hbuf]
      exact h.held
  · rw [hacc]
    exact Channel.accept_framed _ _ x h (wireSequence_lt raw)

theorem fresh_framed (c : Channel) (h : c.Fresh) : c.Framed := by
  refine ⟨Channel.fresh_settled c h, ?_, fun k hk => ?_⟩
  · rw [h.recvNext]
    omega
  · rw [h.recvBuffer] at hk
    exact absurd hk List.not_mem_nil

theorem reachable_framed (s : ChannelEnd C) (h : s.Reachable) : s.channel.Framed := by
  induction h with
  | opened s h => exact fresh_framed s.channel h
  | acted s a _ ih => exact step_framed s a ih
  | elsewhere s e _ ih => exact ih

/-- Where the methods of a channel lead once a call of `receive` has returned. -/
inductive Served : ChannelEnd C → Prop
  | received (s s' : ChannelEnd C) (env : Env) (raw : Bytes) (out : Option Bytes × SackFrame)
      (h : s.Reachable) (hrun : (receive env raw).run s = .ok out s') : Served s'
  | acted (s : ChannelEnd C) (a : ChannelAct) (h : Served s) : Served (s.step a)
  | elsewhere (s : ChannelEnd C) (e : Endpoint C) (h : Served s) :
      Served { s with endpoint := e }

/-- The count has started, and does not stop. -/
theorem step_started (s : ChannelEnd C) (a : ChannelAct) (h : 0 ≤ s.channel.recvNext) :
    0 ≤ (s.step a).channel.recvNext := by
  rcases step_receives s a with ⟨hrecv, _, _, _⟩ | ⟨env, raw, x, _, _, _, hacc⟩
  · rw [hrecv]
    exact h
  · rw [hacc]
    exact Channel.accept_started _ _ x (by omega)

theorem served_framed (s : ChannelEnd C) (h : s.Served) :
    s.channel.Framed ∧ 0 ≤ s.channel.recvNext := by
  induction h with
  | received s s' env raw out h hrun =>
      have hframed := reachable_framed s h
      have hstep : s.step (.receive env raw) = s' := by
        rw [step, hrun]
        rfl
      refine ⟨hstep ▸ step_framed s (.receive env raw) hframed, ?_⟩
      have hout := receive_outcome env raw s
      rw [hrun] at hout
      cases hout with
      | accepted p d plaintext _ _ =>
          exact Channel.accept_started _ _ plaintext hframed.settled.lower
  | acted s a _ ih => exact ⟨step_framed s a ih.1, step_started s a ih.2⟩
  | elsewhere s e _ ih => exact ih

end ChannelEnd

/-- Once a packet was received, everything that is buffered lies behind the
    number that is missing. A frame acknowledges the numbers up to the last one
    delivered and those that are buffered. Its blocks ascend, do not touch, and
    lie behind the missing number. If their count fits two octets, the frame can
    be encoded, decoding gives it back, and a sender that processes it keeps
    what was not acknowledged and returns how many it has removed. -/
theorem sack_describes_receiver (s : ChannelEnd C) (hs : s.Served) :
    (∀ k ∈ s.channel.recvBuffer.keys, s.channel.recvNext + 1 < k) ∧
    (∀ n, n ∈ s.channel.buildSack.allAcked ↔
      (n : Int) ≤ s.channel.recvNext ∨ n ∈ s.channel.recvBuffer.keys) ∧
    s.channel.buildSack.blocks.Pairwise (fun a b => a.2 + 1 < b.1) ∧
    (∀ b ∈ s.channel.buildSack.blocks, b.1 ≤ b.2 ∧ s.channel.recvNext + 1 < b.1) ∧
    (s.channel.buildSack.blocks.length < 2 ^ 16 →
      ∃ wire, s.channel.buildSack.encode = .ok wire ∧
        ∃ frame, SackFrame.decode wire = .ok frame ∧ frame = s.channel.buildSack ∧
          ∀ c : Channel,
            (∀ n, (c.processSack frame).1.sendWindow.get? n =
              if (n : Int) ≤ s.channel.recvNext ∨ n ∈ s.channel.recvBuffer.keys then none
              else c.sendWindow.get? n) ∧
            (c.processSack frame).2 = c.sendWindow.keys.countP (fun n : Nat =>
              (n : Int) ≤ s.channel.recvNext ∨ n ∈ s.channel.recvBuffer.keys)) := by
  -- A state reached by receiving is framed, so its blocks and its front fit the fields.
  rcases ChannelEnd.served_framed s hs with ⟨hframed, hstarted⟩
  rcases s.channel.buildSack_blocks hframed.settled with ⟨hspaced, hblocks⟩
  have hacked : ∀ n, n ∈ s.channel.buildSack.allAcked ↔
      (n : Int) ≤ s.channel.recvNext ∨ n ∈ s.channel.recvBuffer.keys := by
    intro n
    rw [Channel.mem_buildSack, max_eq_left hstarted, Dict.mem_keys, Option.ne_none_iff_exists']
  refine ⟨fun k hk => ?_, hacked, hspaced, fun b hb => ⟨(hblocks b hb).1, (hblocks b hb).2.1⟩,
    fun hcount => ?_⟩
  · rcases (Dict.mem_keys _ _).mp hk with ⟨x, hx⟩
    exact hframed.settled.buffered k x hx
  · have hfits := (s.channel.buildSack_fits_iff hframed).mpr hcount
    refine ⟨_, (SackFrame.encode_eq_ok _ _).mpr ⟨hfits, rfl⟩, _, SackFrame.decode_layout _ hfits,
      rfl, fun c => ⟨fun n => ?_, ?_⟩⟩
    · rw [Channel.processSack_get?]
      simp only [hacked]
    · rw [Bench.processSack_count, ← List.countP_eq_length_filter]
      simp only [hacked]

/-- The receiver once the first and the third of three messages have arrived. -/
@[irreducible]
def afterThird : ChannelEnd toyPrimitives :=
  ((ChannelEnd.receive toyEnv (threeMessages.getD 2 [])).run afterFirst).final

/-- Its frame says that the second is missing, and arrives as it was sent. -/
theorem afterThird_described :
    afterThird.channel.buildSack = ⟨1, [(3, 3)]⟩ ∧
      ∃ wire, afterThird.channel.buildSack.encode = .ok wire ∧
        ∃ frame, SackFrame.decode wire = .ok frame ∧ frame = afterThird.channel.buildSack := by
  have hserved : afterThird.Served := by
    unfold afterThird
    exact .received afterFirst _ toyEnv _ (none, ⟨1, [(3, 3)]⟩) afterFirst_reachable
      (EStateM.Result.ok_of_returned (by decide +kernel))
  have hframe : afterThird.channel.buildSack = ⟨1, [(3, 3)]⟩ := by decide +kernel
  rcases (sack_describes_receiver afterThird hserved).2.2.2.2 (by rw [hframe]; decide) with
    ⟨wire, hwire, frame, hdecode, heq, _⟩
  exact ⟨hframe, wire, hwire, frame, hdecode, heq⟩

end Ztlnp

import Ztlnp.Theory.Ordered

/-!
# The Order of Arrival

Whether the order in which packets arrive makes a difference to a channel.

The first packet does: the count starts from it. After that a packet is
delivered, buffered or dropped by its number alone, and the numbers that were
buffered come out with the one that was missing. What was returned and what is
held is then decided by the packets that came in, and not by when they did. A
receiver that has taken in a set of packets stands before the first number that
is neither in the set nor was in its buffer.

A packet is taken in when it decrypts. One that is authentic and does not
decrypt raises out of the channel before its number is looked at, and the same
packet does so in every order. Its number stays missing.

## Main definitions

* `ChannelEnd.Reachable`: Where the methods of a channel can lead.
* `Channel.Settled`: Everything that could be delivered was.
* `Device.opens`: What a device makes of the payload of a packet.
* `Intake`, `Intake.step`: A receiver with what it has returned.
* `Intake.Passes`: The device lets a packet through.

## Theorems

* `reachable_settled`: Every receiver is settled.
* `accept_gathers`: A packet is taken in, whatever its number.
* `intake_gathers`: So are all of them.
* `receive_order_irrelevant`: The order makes no difference.
-/

namespace Ztlnp

variable {C : Primitives}

namespace Channel

/-- The next number is not in the buffer, and nothing from before it is. -/
structure Settled (c : Channel) : Prop where
  lower : -1 ≤ c.recvNext
  buffered : ∀ k x, c.recvBuffer.get? k = some x → c.recvNext + 1 < k
  unstarted : c.recvNext = -1 → ∀ k, c.recvBuffer.get? k = none

/-- Only two fields matter. -/
theorem Settled.congr {c c' : Channel} (h : c.Settled) (hrecv : c'.recvNext = c.recvNext)
    (hbuf : c'.recvBuffer = c.recvBuffer) : c'.Settled := by
  refine ⟨?_, fun k x hx => ?_, fun hneg k => ?_⟩
  · rw [hrecv]
    exact h.lower
  · rw [hbuf] at hx
    rw [hrecv]
    exact h.buffered k x hx
  · rw [hrecv] at hneg
    rw [hbuf]
    exact h.unstarted hneg k

theorem fresh_settled (c : Channel) (h : c.Fresh) : c.Settled := by
  refine ⟨h.recvNext.ge, fun k x hx => ?_, fun _ k => ?_⟩
  · rw [h.recvBuffer, Dict.get?_empty] at hx
    simp only [reduceCtorEq] at hx
  · rw [h.recvBuffer, Dict.get?_empty]

/-- Whatever is accepted, everything that can be delivered is. -/
theorem accept_settled (c : Channel) (n : Nat) (x : Bytes) (h : c.Settled) :
    (c.accept n x).2.Settled := by
  have hstarted := accept_started c n x h.lower
  have hbuffered : ∀ k y, (c.accept n x).2.recvBuffer.get? k = some y →
      (c.accept n x).2.recvNext + 1 < k := by
    intro k y hy
    rcases accept_cases c n x with ⟨hturn, hacc⟩ | ⟨hearly, hacc⟩ | ⟨hlate, hacc⟩
    · -- The drain has taken what was in turn, and stopped before what is missing.
      rw [hacc] at hy ⊢
      simp only at hy ⊢
      have hstops := drain_stops c.recvBuffer.size n c.recvBuffer x (Nat.le_refl _)
      have hle := drain_le c.recvBuffer.size n c.recvBuffer x
      have hold : n < k := by
        by_contra hnot
        have hnone : c.recvBuffer.get? k = none := by
          rw [Option.eq_none_iff_forall_ne_some]
          intro z hz
          have hlt := h.buffered k z hz
          by_cases hneg : c.recvNext = -1
          · rw [h.unstarted hneg k] at hz
            simp only [reduceCtorEq] at hz
          · rw [counted, if_neg hneg] at hturn
            omega
        rw [drain_get?_of_none _ _ _ _ k hnone] at hy
        simp only [reduceCtorEq] at hy
      have hbeyond : (drain c.recvBuffer.size n c.recvBuffer x).1 < k := by
        by_contra hnot
        rw [((drain_get? c.recvBuffer.size n c.recvBuffer x k hold).1 (by omega)).2] at hy
        simp only [reduceCtorEq] at hy
      have hne : k ≠ (drain c.recvBuffer.size n c.recvBuffer x).1 + 1 := by
        rintro rfl
        rw [hstops] at hy
        simp only [reduceCtorEq] at hy
      omega
    · rcases counted_of_ne c n (by omega) with ⟨_, hcount⟩
      rw [hacc] at hy ⊢
      simp only [hcount, Dict.get?_set] at hy hearly ⊢
      by_cases hk : k = n
      · omega
      · rw [if_neg hk] at hy
        exact h.buffered k y hy
    · rcases counted_of_ne c n (by omega) with ⟨_, hcount⟩
      rw [hacc] at hy ⊢
      simp only [hcount] at hy ⊢
      exact h.buffered k y hy
  exact ⟨by omega, hbuffered, fun hneg => by omega⟩

/-- A frame says where the count stands and which numbers are held, in no matter
    which order they came. -/
theorem buildSack_congr (c c' : Channel) (hrecv : c.recvNext = c'.recvNext)
    (hbuf : ∀ k, c.recvBuffer.get? k = c'.recvBuffer.get? k) : c.buildSack = c'.buildSack := by
  have hkeys : c.recvBuffer.keys.Perm c'.recvBuffer.keys := by
    refine (List.perm_ext_iff_of_nodup c.recvBuffer.nodup c'.recvBuffer.nodup).mpr (fun k => ?_)
    show k ∈ c.recvBuffer.keys ↔ k ∈ c'.recvBuffer.keys
    rw [Dict.mem_keys, Dict.mem_keys, hbuf]
  have hsorted : c.recvBuffer.keys.insertionSort (· ≤ ·)
      = c'.recvBuffer.keys.insertionSort (· ≤ ·) := by
    refine List.Perm.eq_of_pairwise' (List.pairwise_insertionSort _ _)
      (List.pairwise_insertionSort _ _) ?_
    exact (List.perm_insertionSort _ _).trans (hkeys.trans (List.perm_insertionSort _ _).symm)
  rw [buildSack, buildSack, hrecv, hsorted]

/-- The channel has taken in a source. -/
def Gathers (c : Channel) (source : Nat → Option Bytes) (start : Nat) (returned : Bytes) : Prop :=
  ∃ next : Nat, c.recvNext = next ∧ Gathered source start next c.recvBuffer returned

/-- A packet under a new number is taken in, in turn or not. -/
theorem accept_gathers (c : Channel) (source : Nat → Option Bytes) (start n : Nat)
    (returned x : Bytes) (h : c.Gathers source start returned) (hnew : source n = none) :
    (c.accept n x).2.Gathers (Function.update source n (some x)) start
      (returned ++ (c.accept n x).1.getD []) := by
  rcases h with ⟨next, hnext, hg⟩
  have hcount : c.counted n = next := by
    rw [counted, if_neg (by omega), hnext]
  rcases accept_cases c n x with ⟨hturn, hacc⟩ | ⟨hearly, hacc⟩ | ⟨hlate, hacc⟩
  · rw [hcount] at hturn
    have hn : n = next + 1 := by omega
    subst hn
    rw [hacc]
    exact ⟨_, rfl, hg.inTurn x⟩
  · rw [hcount] at hearly
    rw [hacc]
    refine ⟨next, hcount, ?_⟩
    rw [Option.getD_none, List.append_nil]
    exact hg.early n x (by omega)
  · -- Of the numbers that were passed, only those from before the start are new.
    rw [hcount] at hlate
    have hstart : n ≤ start := by
      by_contra hnot
      exact hg.filled n (by omega) (by omega) hnew
    rw [hacc]
    refine ⟨next, hcount, ?_⟩
    rw [Option.getD_none, List.append_nil]
    exact hg.late n x hstart

end Channel

namespace Device

/-- What a device makes of the payload of a packet, by the fields on the wire. -/
def opens (d : Device C) (raw : Bytes) : Option Bytes :=
  (d.sessions.get? (wireSender raw)).bind (fun s => C.aesGcmDecrypt s.sessionKey (field raw 84 12)
    (field raw headerSize (beDecode (field raw 96 4))))

/-- Receiving something does not change what opens. -/
theorem received_opens (d d' : Device C) (env : Env) (raw : Bytes) (p : Packet)
    (h : Received d env raw p d') : d'.opens = d.opens := by
  cases h with
  | hello => rfl
  | pending => rfl
  | session s hparse htype hget =>
      funext raw'
      unfold opens
      rw [Dict.get?_set]
      by_cases heq : wireSender raw' = p.senderId
      · rw [if_pos heq, heq, hget]
        rfl
      · rw [if_neg heq]

/-- A packet decrypts to what its bytes open to. -/
theorem decrypts_iff_opens (d : Device C) (nowMs : Nat) (raw plaintext : Bytes) (p : Packet)
    (h : Packet.fromBytes nowMs raw = .ok p) :
    d.Decrypts p plaintext ↔ d.opens raw = some plaintext := by
  have hf := (Packet.fromBytes_eq_ok nowMs raw p h).2.2.2.2
  have hsender : p.senderId = wireSender raw := by
    rw [hf, Packet.wireFields, wireSender]
  have hnonce : p.nonce = field raw 84 12 := by
    rw [hf, Packet.wireFields]
  have hpayload : p.payload = field raw headerSize (beDecode (field raw 96 4)) := by
    rw [hf, Packet.wireFields]
  simp only [Decrypts, opens, hsender, hnonce, hpayload, Option.bind_eq_some_iff]

end Device

namespace ChannelEnd

/-- Where the methods of a channel lead from a new one, while its protocol and
    device are used by others as well. -/
inductive Reachable : ChannelEnd C → Prop
  | opened (s : ChannelEnd C) (h : s.channel.Fresh) : Reachable s
  | acted (s : ChannelEnd C) (a : ChannelAct) (h : Reachable s) : Reachable (s.step a)
  | elsewhere (s : ChannelEnd C) (e : Endpoint C) (h : Reachable s) :
      Reachable { s with endpoint := e }

/-- The device lets a packet through, and it decrypts. -/
def Takes (s : ChannelEnd C) (env : Env) (raw : Bytes) : Prop :=
  ((Device.receivePacket env raw).run s.endpoint.device).returned ≠ none ∧
    s.endpoint.device.opens raw ≠ none

instance (s : ChannelEnd C) (env : Env) (raw : Bytes) : Decidable (s.Takes env raw) :=
  inferInstanceAs (Decidable (_ ∧ _))

/-- A packet that the device lets through is accepted if it opens, and raises if
    it does not. -/
theorem receive_passed (s : ChannelEnd C) (env : Env) (raw : Bytes)
    (h : ((Device.receivePacket env raw).run s.endpoint.device).returned ≠ none) :
    ∃ (e : Endpoint C) (y : Exn), e.device.opens = s.endpoint.device.opens ∧
      (receive env raw).run s = match s.endpoint.device.opens raw with
        | some x =>
          .ok ((s.channel.accept (wireSequence raw) x).1,
              (s.channel.accept (wireSequence raw) x).2.buildSack)
            ⟨(s.channel.accept (wireSequence raw) x).2, e⟩
        | none => .error y ⟨s.channel, e⟩ := by
  -- The packet passed, so `receivePacket` returned it.
  rcases Device.receivePacket_cases env raw s.endpoint.device with ⟨p, d, hrec⟩ | ⟨x, hx⟩
  · have hopens := Device.received_opens _ d env raw p hrec
    have hparse := Device.received_parse env raw _ d p hrec
    have hseq : p.sequence = wireSequence raw := (Packet.fromBytes_wire _ _ _ hparse).2.1
    have hiff := fun x => d.decrypts_iff_opens _ raw x p hparse
    rw [hopens] at hiff
    simp only [receive, EStateM.run_bind, run_onDevice,
      Device.receivePacket_of_received env raw _ d p hrec]
    -- Decrypting after the checks opens what the device opened before them.
    rcases Device.decryptPacket_cases p d with ⟨x, hplain, hdec⟩ | ⟨hno, y, hdec⟩
    · refine ⟨{ s.endpoint with device := d }, ⟨.valueError, ""⟩, hopens, ?_⟩
      rw [hdec, (hiff x).mp hplain, ← hseq]
      rfl
    · have hnone : s.endpoint.device.opens raw = none := by
        rw [Option.eq_none_iff_forall_ne_some]
        exact fun x hx => hno x ((hiff x).mpr hx)
      refine ⟨{ s.endpoint with device := d }, y, hopens, ?_⟩
      rw [hdec, hnone]
  · exact absurd (by rw [hx]; rfl) h

/-- An act receives a packet, or leaves the receive side of the channel alone. -/
theorem step_receives (s : ChannelEnd C) (a : ChannelAct) :
    ((s.step a).channel.recvNext = s.channel.recvNext ∧
        (s.step a).channel.recvBuffer = s.channel.recvBuffer ∧
        (s.step a).channel.windowSize = s.channel.windowSize ∧
        ∀ env raw, a = .receive env raw → ¬ s.Takes env raw) ∨
      ∃ env raw x, a = .receive env raw ∧ s.Takes env raw ∧
        s.endpoint.device.opens raw = some x ∧
        (s.step a).channel = (s.channel.accept (wireSequence raw) x).2 := by
  cases a with
  | send env now plaintext =>
      left
      have hout := send_outcome env now plaintext s
      simp only [step, reduceCtorEq, false_implies, implies_true, and_true]
      generalize (send env now plaintext).run s = r at hout
      cases hout with
      | full => exact ⟨rfl, rfl, rfl⟩
      | refused => exact ⟨rfl, rfl, rfl⟩
      | spoilt => exact ⟨rfl, rfl, rfl⟩
      | sent => exact ⟨rfl, rfl, rfl⟩
  | receive env raw =>
      -- What does not pass the device never reaches the window.
      by_cases hpass : ((Device.receivePacket env raw).run s.endpoint.device).returned = none
      · left
        have hkept : (s.step (.receive env raw)).channel = s.channel := by
          simp only [step, receive, EStateM.run_bind, run_onDevice]
          cases hres : (Device.receivePacket env raw).run s.endpoint.device with
          | ok p d =>
              rw [hres] at hpass
              exact absurd hpass (Option.some_ne_none p)
          | error x d => rfl
        rw [hkept]
        refine ⟨rfl, rfl, rfl, ?_⟩
        rintro _ _ ⟨rfl, rfl⟩ htakes
        exact htakes.1 hpass
      · rcases receive_passed s env raw hpass with ⟨e, y, _, hrun⟩
        cases hopen : s.endpoint.device.opens raw with
        -- Passing and not opening raises after the replay check: the number is spent there, the
        -- window stays.
        | none =>
            left
            simp only [hopen] at hrun
            have hkept : (s.step (.receive env raw)).channel = s.channel := by
              simp only [step, hrun]
              rfl
            rw [hkept]
            refine ⟨rfl, rfl, rfl, ?_⟩
            rintro _ _ ⟨rfl, rfl⟩ htakes
            exact htakes.2 hopen
        -- This is the one branch that accepts into the window.
        | some x =>
            right
            simp only [hopen] at hrun
            refine ⟨env, raw, x, rfl, ⟨hpass, ?_⟩, hopen, ?_⟩
            · rw [hopen]
              exact Option.some_ne_none x
            · simp only [step, hrun]
              rfl
  -- The other acts leave the receive half as it was.
  | receiveAck env raw =>
      left
      simp only [step, reduceCtorEq, false_implies, implies_true, and_true]
      rcases receiveAck_final env raw s with hs | ⟨_, _, _, hs | ⟨sack, hs⟩⟩
      · rw [hs]
        exact ⟨rfl, rfl, rfl⟩
      · rw [hs]
        exact ⟨rfl, rfl, rfl⟩
      · rw [hs]
        exact ⟨rfl, rfl, rfl⟩
  | processSack sack =>
      left
      simp only [reduceCtorEq, false_implies, implies_true, and_true]
      exact ⟨rfl, rfl, rfl⟩
  | getRetransmissions due sent =>
      left
      simp only [step, Channel.getRetransmissions_final, reduceCtorEq, false_implies,
        implies_true, and_true]
  | buildSackAck env sack =>
      left
      simp only [step, reduceCtorEq, false_implies, implies_true, and_true]
      rcases buildSackAck_final env sack s with hs | ⟨_, _, _, _, hs⟩
      · rw [hs]
        exact ⟨rfl, rfl, rfl⟩
      · rw [hs]
        exact ⟨rfl, rfl, rfl⟩

/-- Every act accepts a packet or leaves the receive side alone. -/
theorem step_settled (s : ChannelEnd C) (a : ChannelAct) (h : s.channel.Settled) :
    (s.step a).channel.Settled := by
  rcases step_receives s a with ⟨hrecv, hbuf, _, _⟩ | ⟨env, raw, x, _, _, _, hacc⟩
  · exact h.congr hrecv hbuf
  · rw [hacc]
    exact Channel.accept_settled _ _ _ h

theorem reachable_settled (s : ChannelEnd C) (h : s.Reachable) : s.channel.Settled := by
  induction h with
  | opened s h => exact Channel.fresh_settled s.channel h
  | acted s a _ ih => exact step_settled s a ih
  | elsewhere s e _ ih => exact ih

end ChannelEnd

/-- A receiver with everything it has returned. -/
structure Intake (C : Primitives) where
  receiver : ChannelEnd C
  returned : Bytes := []

namespace Intake

/-- A packet arrives. -/
def step (i : Intake C) (a : Env × Bytes) : Intake C :=
  match (ChannelEnd.receive a.1 a.2).run i.receiver with
  | .ok (out, _) s => ⟨s, i.returned ++ out.getD []⟩
  | .error _ s => { i with receiver := s }

/-- The device lets the packet through. -/
def Passes (i : Intake C) (a : Env × Bytes) : Prop :=
  ((Device.receivePacket a.1 a.2).run i.receiver.endpoint.device).returned ≠ none

instance (i : Intake C) (a : Env × Bytes) : Decidable (i.Passes a) :=
  inferInstanceAs (Decidable (_ ≠ _))

/-- A packet that passes is accepted if it opens, and raises if it does not. -/
theorem step_passed (i : Intake C) (a : Env × Bytes) (h : i.Passes a) :
    ∃ e : Endpoint C, e.device.opens = i.receiver.endpoint.device.opens ∧
      i.step a = match i.receiver.endpoint.device.opens a.2 with
        | some x =>
          ⟨⟨(i.receiver.channel.accept (wireSequence a.2) x).2, e⟩,
            i.returned ++ (i.receiver.channel.accept (wireSequence a.2) x).1.getD []⟩
        | none => { i with receiver := ⟨i.receiver.channel, e⟩ } := by
  rcases ChannelEnd.receive_passed i.receiver a.1 a.2 h with ⟨e, y, hopens, hrun⟩
  refine ⟨e, hopens, ?_⟩
  rw [step, hrun]
  cases i.receiver.endpoint.device.opens a.2 with
  | some x => rfl
  | none => rfl

/-- What arrives is taken in. The source it adds to is what was there before,
    and the packets that open. -/
theorem intake_gathers (start : Nat) (arrivals : List (Env × Bytes)) :
    ∀ (i : Intake C) (source : Nat → Option Bytes),
      i.receiver.channel.Gathers source start i.returned →
      (arrivals.map (fun a => wireSequence a.2)).Nodup →
      (∀ a ∈ arrivals, source (wireSequence a.2) = none) →
      Along step Passes i arrivals →
      ∃ source' : Nat → Option Bytes,
        (arrivals.foldl step i).receiver.channel.Gathers source' start
          (arrivals.foldl step i).returned ∧
        ∀ k x, source' k = some x ↔ source k = some x ∨ ∃ a ∈ arrivals,
          wireSequence a.2 = k ∧ i.receiver.endpoint.device.opens a.2 = some x := by
  induction arrivals with
  | nil =>
      intro i source h _ _ _
      refine ⟨source, h, fun k x => ?_⟩
      simp only [List.not_mem_nil, false_and, exists_false, or_false]
  | cons a rest ih =>
      intro i source h hdistinct hnew hpasses
      rw [List.map_cons, List.nodup_cons] at hdistinct
      rcases step_passed i a hpasses.1 with ⟨e, hopens, hstep⟩
      have hother : ∀ b ∈ rest, wireSequence b.2 ≠ wireSequence a.2 :=
        fun b hb heq => hdistinct.1 (List.mem_map.mpr ⟨b, hb, heq⟩)
      have hrest := fun b hb => hnew b (List.mem_cons_of_mem a hb)
      have hlater := hpasses.2
      rw [List.foldl_cons]
      simp only [List.mem_cons, exists_eq_or_imp]
      cases hopen : i.receiver.endpoint.device.opens a.2 with
      | none =>
          simp only [hopen] at hstep
          rw [hstep] at hlater ⊢
          rcases ih ⟨⟨i.receiver.channel, e⟩, i.returned⟩ source h hdistinct.2 hrest hlater
            with ⟨source', hg, hmem⟩
          refine ⟨source', hg, fun k x => ?_⟩
          rw [hmem, hopens]
          simp only [reduceCtorEq, and_false, false_or]
      | some y =>
          simp only [hopen] at hstep
          rw [hstep] at hlater ⊢
          have hnone := hnew a List.mem_cons_self
          -- The packet is in the source now, and the numbers of the others still are not.
          have hfresh : ∀ b ∈ rest,
              Function.update source (wireSequence a.2) (some y) (wireSequence b.2) = none := by
            intro b hb
            rw [Function.update_of_ne (hother b hb)]
            exact hrest b hb
          rcases ih _ (Function.update source (wireSequence a.2) (some y))
            (Channel.accept_gathers _ source start _ _ y h hnone) hdistinct.2 hfresh hlater with
            ⟨source', hg, hmem⟩
          refine ⟨source', hg, fun k x => ?_⟩
          rw [hmem, hopens, ← or_assoc]
          refine or_congr ?_ Iff.rfl
          by_cases hk : k = wireSequence a.2
          · rw [hk, Function.update_self, hnone]
            simp only [reduceCtorEq, false_or, true_and]
          · rw [Function.update_of_ne hk]
            simp only [Ne.symm hk, false_and, or_false]

end Intake

/-- A settled receiver has taken in its buffer. -/
theorem settled_gathers (c : Channel) (h : c.Settled) (hstarted : 0 ≤ c.recvNext) :
    c.Gathers c.recvBuffer.get? c.recvNext.toNat [] := by
  refine ⟨c.recvNext.toNat, (Int.toNat_of_nonneg hstarted).symm, Gathered.init _ _ ?_⟩
  intro k x hx
  have hlt := h.buffered k x hx
  omega

/-- Arrivals of the same packets are the same as far as packets go. -/
theorem exists_arrival_iff (first second : List (Env × Bytes))
    (h : (first.map Prod.snd).Perm (second.map Prod.snd)) (P : Bytes → Prop) :
    (∃ a ∈ first, P a.2) ↔ ∃ a ∈ second, P a.2 := by
  have hmap : ∀ l : List (Env × Bytes), (∃ a ∈ l, P a.2) ↔ ∃ raw ∈ l.map Prod.snd, P raw := by
    intro l
    simp only [List.mem_map, exists_exists_and_eq_and]
  rw [hmap, hmap]
  exact exists_congr (fun raw => and_congr_left' h.mem_iff)

/-- From any state in which the count has started, packets under new numbers
    that the device lets through are received to the same effect in any two
    orders: the same bytes are returned, the count and the buffer are the same,
    and so is the frame. The count stands at the last number up to which each
    one is that of a packet that decrypts, or was buffered. -/
theorem receive_order_irrelevant (s : ChannelEnd C) (hs : s.Reachable)
    (hstarted : 0 ≤ s.channel.recvNext) (first second : List (Env × Bytes))
    (hsame : (first.map Prod.snd).Perm (second.map Prod.snd))
    (hdistinct : (first.map (fun a => wireSequence a.2)).Nodup)
    (hnew : ∀ a ∈ first, s.channel.recvBuffer.get? (wireSequence a.2) = none)
    (hfirst : Along Intake.step Intake.Passes ⟨s, []⟩ first)
    (hsecond : Along Intake.step Intake.Passes ⟨s, []⟩ second) :
    let i := first.foldl Intake.step ⟨s, []⟩
    let j := second.foldl Intake.step ⟨s, []⟩
    i.returned = j.returned ∧
      i.receiver.channel.recvNext = j.receiver.channel.recvNext ∧
      (∀ k, i.receiver.channel.recvBuffer.get? k = j.receiver.channel.recvBuffer.get? k) ∧
      i.receiver.channel.buildSack = j.receiver.channel.buildSack ∧
      IsGreatest {n : Int | ∀ k : Nat, s.channel.recvNext < k → (k : Int) ≤ n →
          (∃ a ∈ first, wireSequence a.2 = k ∧ s.endpoint.device.opens a.2 ≠ none) ∨
            s.channel.recvBuffer.get? k ≠ none}
        i.receiver.channel.recvNext := by
  intro i j
  have hgathers := settled_gathers s.channel (ChannelEnd.reachable_settled s hs) hstarted
  have hdistinct' : (second.map (fun a => wireSequence a.2)).Nodup := by
    have hperm := hsame.map wireSequence
    rw [List.map_map, List.map_map] at hperm
    exact hperm.nodup_iff.mp hdistinct
  have hnew' : ∀ a ∈ second, s.channel.recvBuffer.get? (wireSequence a.2) = none := by
    intro a ha
    rcases (exists_arrival_iff first second hsame (fun raw => raw = a.2)).mpr ⟨a, ha, rfl⟩ with
      ⟨b, hb, heq⟩
    rw [← heq]
    exact hnew b hb
  rcases Intake.intake_gathers _ first ⟨s, []⟩ _ hgathers hdistinct hnew hfirst with
    ⟨source, ⟨n, hn, hg⟩, hmem⟩
  rcases Intake.intake_gathers _ second ⟨s, []⟩ _ hgathers hdistinct' hnew' hsecond with
    ⟨source', ⟨n', hn', hg'⟩, hmem'⟩
  -- Both have taken in the same source, which leaves one state only.
  have hsource : source' = source := by
    funext k
    refine Option.ext (fun x => ?_)
    rw [hmem, hmem', exists_arrival_iff first second hsame
      (fun raw => wireSequence raw = k ∧ s.endpoint.device.opens raw = some x)]
  rw [hsource] at hg'
  rcases hg.unique hg' with ⟨hnext, hbuf, hout⟩
  have hrecv : i.receiver.channel.recvNext = j.receiver.channel.recvNext := by
    rw [hn, hn', hnext]
  have hthere : ∀ k, source k ≠ none ↔
      (∃ a ∈ first, wireSequence a.2 = k ∧ s.endpoint.device.opens a.2 ≠ none) ∨
        s.channel.recvBuffer.get? k ≠ none := by
    intro k
    simp only [Option.ne_none_iff_exists', hmem, exists_or]
    rw [or_comm]
    refine or_congr ?_ Iff.rfl
    constructor
    · rintro ⟨x, a, ha, hk, hx⟩
      exact ⟨a, ha, hk, x, hx⟩
    · rintro ⟨a, ha, hk, x, hx⟩
      exact ⟨x, a, ha, hk, hx⟩
  refine ⟨hout, hrecv, hbuf, Channel.buildSack_congr _ _ hrecv hbuf, ?_⟩
  simp only [← hthere]
  rw [hn]
  refine ⟨fun k hlt hle => hg.filled k (by omega) (by omega), fun m hm => ?_⟩
  by_contra hlt
  have hle := hg.le
  exact hm (n + 1) (by omega) (by omega) hg.stuck

/-- Three messages, as they are sent. -/
@[irreducible]
def threeMessages : List Bytes :=
  ([.send toyEnv 0 [1], .send toyEnv 0 [2], .send toyEnv 0 [3]].foldl Link.step
    (Link.opened (toyEnds {}).1 (toyEnds {}).2)).wires

/-- The receiver once the first of them has arrived. -/
@[irreducible]
def afterFirst : ChannelEnd toyPrimitives :=
  (toyEnds {}).2.step (.receive toyEnv (threeMessages.getD 0 []))

theorem afterFirst_reachable : afterFirst.Reachable := by
  unfold afterFirst
  exact .acted _ _ (.opened _ default_fresh)

/-- The other two are returned together, in one order or the other. -/
theorem other_two_in_any_order :
    let second := (toyEnv, threeMessages.getD 1 [])
    let third := (toyEnv, threeMessages.getD 2 [])
    ([third, second].foldl Intake.step ⟨afterFirst, []⟩).returned = [2, 3] ∧
      ([third, second].foldl Intake.step ⟨afterFirst, []⟩).returned
        = ([second, third].foldl Intake.step ⟨afterFirst, []⟩).returned := by
  intro second third
  have hrun : ([third, second].foldl Intake.step ⟨afterFirst, []⟩).returned = [2, 3] ∧
      0 ≤ afterFirst.channel.recvNext ∧
      ([third, second].map (fun a => wireSequence a.2)).Nodup ∧
      (∀ a ∈ [third, second], afterFirst.channel.recvBuffer.get? (wireSequence a.2) = none) ∧
      Along Intake.step Intake.Passes ⟨afterFirst, []⟩ [third, second] ∧
      Along Intake.step Intake.Passes ⟨afterFirst, []⟩ [second, third] := by
    decide +kernel
  rcases hrun with ⟨hreturned, hstarted, hdistinct, hnew, hfirst, hsecond⟩
  exact ⟨hreturned, (receive_order_irrelevant afterFirst afterFirst_reachable hstarted
    [third, second] [second, third] (List.Perm.swap _ _ _) hdistinct hnew hfirst hsecond).1⟩

/-- A HELLO of a stranger, under the number of the second message. -/
@[irreducible]
def strangerHello : Bytes :=
  let hello : Except Exn Bytes := do
    let packet ← PacketFields.postInit toyEnv.buildMs
      { ptype := .hello
        senderId := toyPrimitives.sha256 (toyPrimitives.ed25519Public [9])
        payload := toyPrimitives.ed25519Public [9] ++ toyPrimitives.x25519Public [3]
        recipientId := broadcastId
        sequence := 2 }
    let signature ← CryptoEngine.signPacket toyPrimitives [9] packet
    Packet.toBytes { packet with signature := signature }
  hello.toOption.getD []

/-- The device lets it through, and the channel cannot decrypt it. Its number is
    the next one, and the count stays where it was. -/
theorem stranger_hello_stays_missing :
    let arrivals := [(toyEnv, strangerHello)]
    let i := arrivals.foldl Intake.step ⟨afterFirst, []⟩
    afterFirst.Reachable ∧ 0 ≤ afterFirst.channel.recvNext ∧
      (∀ a ∈ arrivals, afterFirst.channel.recvBuffer.get? (wireSequence a.2) = none) ∧
      Along Intake.step Intake.Passes ⟨afterFirst, []⟩ arrivals ∧
      ¬ IsGreatest {n : Int | ∀ k : Nat, afterFirst.channel.recvNext < k → (k : Int) ≤ n →
          (∃ a ∈ arrivals, wireSequence a.2 = k) ∨ afterFirst.channel.recvBuffer.get? k ≠ none}
        i.receiver.channel.recvNext := by
  intro arrivals i
  have hrun : (afterFirst.channel.recvNext = 1 ∧ i.receiver.channel.recvNext = 1 ∧
        wireSequence strangerHello = 2) ∧
      (∀ a ∈ arrivals, afterFirst.channel.recvBuffer.get? (wireSequence a.2) = none) ∧
      Along Intake.step Intake.Passes ⟨afterFirst, []⟩ arrivals := by
    decide +kernel
  rcases hrun with ⟨hcounts, hnew, hpasses⟩
  -- Number 2 came with the stranger's HELLO, so a greatest one would be at least 2.
  refine ⟨afterFirst_reachable, by omega, hnew, hpasses, ?_⟩
  intro hgreatest
  have htwo : (2 : Int) ≤ i.receiver.channel.recvNext := by
    refine hgreatest.2 (fun k hlt hle => Or.inl ⟨_, List.mem_singleton_self _, ?_⟩)
    rw [hcounts.1] at hlt
    simp only [hcounts.2.2]
    omega
  rw [hcounts.2.1] at htwo
  omega

end Ztlnp

import Ztlnp.Theory.Link
import Ztlnp.Theory.Reacknowledge

/-!
# Ordered Delivery

What a channel returns over a network that loses, reorders and duplicates.

The receiver has no number to count from. It counts from whatever it accepts
first. If that is the first packet that was sent, everything else follows: it
has returned exactly what was sent up to the number it has reached, it buffers
only what was sent beyond the next number, and so a frame never acknowledges
anything that is neither returned nor buffered. If it is any other packet, the
ones before it are taken for duplicates when they come, and they are
acknowledged without ever having been seen.

## Main definitions

* `Channel.InStep`: The receive side agrees with what was sent and returned.
* `Channel.Holds`: A number was passed or is buffered.
* `Link.Prompt`: Nothing is accepted before the first packet sent.
* `Link.Safe`: A plaintext was returned, or is buffered.

## Theorems

* `accept_inStep`: Accepting a packet keeps the receive side in step.
* `accept_holds`: What is held stays held.
* `step_ordered`: Every prompt step keeps a link ordered.
* `sliding_window_loses_nothing`: In every prompt run, what is returned is a
  prefix of what was sent, and only what is safe is acknowledged.
-/

namespace Ztlnp

variable {C : Primitives}

namespace Channel

/-- The receive side agrees with what was sent and what was returned. -/
structure InStep (c : Channel) (sent : List (Nat × Bytes)) (returned : Bytes) : Prop where
  lower : -1 ≤ c.recvNext
  returned : returned = upTo sent c.recvNext
  reached : c.recvNext = -1 ∨ ∃ i ∈ sent, (i.1 : Int) = c.recvNext
  /-- No number was skipped between the first and the one reached. -/
  gapless : ∀ k : Nat, (k : Int) ≤ c.recvNext → (∃ i ∈ sent, i.1 ≤ k) → ∃ x, (k, x) ∈ sent
  /-- The next number is never in the buffer. -/
  buffered : ∀ k x, c.recvBuffer.get? k = some x → c.recvNext + 1 < k ∧ (k, x) ∈ sent
  unstarted : c.recvNext = -1 → ∀ k, c.recvBuffer.get? k = none

/-- A number was passed or is buffered. -/
def Holds (c : Channel) (k : Nat) : Prop := (k : Int) ≤ c.recvNext ∨ c.recvBuffer.get? k ≠ none

/-- Packets sent later do not disturb the receive side. -/
theorem inStep_append (c : Channel) (sent later : List (Nat × Bytes)) (returned : Bytes)
    (h : c.InStep sent returned) (hlater : ∀ i ∈ later, c.recvNext < i.1) :
    c.InStep (sent ++ later) returned := by
  refine ⟨h.lower, ?_, ?_, ?_, ?_, h.unstarted⟩
  · -- What lies beyond the count is not part of what was returned.
    rw [upTo_append sent later _ hlater]
    exact h.returned
  · rcases h.reached with hr | ⟨i, hi, hr⟩
    · exact Or.inl hr
    · exact Or.inr ⟨i, List.mem_append_left _ hi, hr⟩
  · rintro k hk ⟨i, hi, hle⟩
    rcases List.mem_append.mp hi with hi | hi
    · rcases h.gapless k hk ⟨i, hi, hle⟩ with ⟨x, hx⟩
      exact ⟨x, List.mem_append_left _ hx⟩
    · have := hlater i hi
      omega
  · intro k x hx
    exact ⟨(h.buffered k x hx).1, List.mem_append_left _ (h.buffered k x hx).2⟩

/-- One more packet, under a number above all others, lies beyond the count. -/
theorem inStep_concat (c : Channel) (sent : List (Nat × Bytes)) (returned x : Bytes) (n : Nat)
    (h : c.InStep sent returned) (hlast : ∀ i ∈ sent, i.1 < n) :
    c.InStep (sent ++ [(n, x)]) returned := by
  -- The receiver has only reached numbers that were sent before.
  have hbelow : c.recvNext < n := by
    rcases h.reached with hneg | ⟨j, hj, heq⟩
    · omega
    · have := hlast j hj
      omega
  refine inStep_append c sent _ returned h (fun i hi => ?_)
  rw [List.mem_singleton] at hi
  rw [hi]
  exact hbelow

/-- Before the first packet the count starts right below it; afterwards it is
    where it was. Either way everything up to the count was returned. -/
theorem inStep_counted (c : Channel) (sent : List (Nat × Bytes)) (returned : Bytes) (n : Nat)
    (h : c.InStep sent returned) (hfirst : c.recvNext = -1 → ∀ i ∈ sent, n ≤ i.1) :
    returned = upTo sent (c.counted n) ∧ c.recvNext ≤ c.counted n ∧
      (∀ k : Nat, (k : Int) ≤ c.counted n → (∃ i ∈ sent, i.1 ≤ k) → ∃ x, (k, x) ∈ sent) ∧
      ∀ k x, c.recvBuffer.get? k = some x → c.counted n + 1 < k := by
  unfold counted
  by_cases hnone : c.recvNext = -1
  · -- Nothing was accepted yet, and nothing was sent below the packet.
    rw [if_pos hnone]
    refine ⟨?_, by omega, ?_, ?_⟩
    · rw [h.returned, hnone, upTo_eq_nil, upTo_eq_nil]
      · intro i hi
        have := hfirst hnone i hi
        omega
      · intro i hi
        omega
    · rintro k hk ⟨i, hi, hle⟩
      have := hfirst hnone i hi
      omega
    · intro k x hx
      rw [h.unstarted hnone k] at hx
      simp only [reduceCtorEq] at hx
  · rw [if_neg hnone]
    exact ⟨h.returned, le_refl _, h.gapless, fun k x hx => (h.buffered k x hx).1⟩

/-- Outside the first branch the count has started. -/
theorem counted_of_ne (c : Channel) (n : Nat) (h : (n : Int) ≠ c.counted n + 1) :
    c.recvNext ≠ -1 ∧ c.counted n = c.recvNext := by
  unfold counted at h ⊢
  by_cases hnone : c.recvNext = -1
  · rw [if_pos hnone] at h
    omega
  · exact ⟨hnone, if_neg hnone⟩

/-- The number in turn is delivered with what follows it in the buffer. -/
theorem drained_inStep (c : Channel) (sent : List (Nat × Bytes)) (returned x : Bytes) (n : Nat)
    (h : c.InStep sent returned) (hasc : Ascending sent) (hmem : (n, x) ∈ sent)
    (hfirst : c.recvNext = -1 → ∀ i ∈ sent, n ≤ i.1) (hturn : (n : Int) = c.counted n + 1) :
    InStep { c with
        recvNext := (drain c.recvBuffer.size n c.recvBuffer x).1
        recvBuffer := (drain c.recvBuffer.size n c.recvBuffer x).2.1 } sent
      (returned ++ (drain c.recvBuffer.size n c.recvBuffer x).2.2) := by
  rcases inStep_counted c sent returned n h hfirst with ⟨hret, _, hgap, hbeyond⟩
  have hcount : c.counted n = (n : Int) - 1 := by omega
  have hle := drain_le c.recvBuffer.size n c.recvBuffer x
  have hget := drain_get? c.recvBuffer.size n c.recvBuffer x
  have hstop := drain_stops c.recvBuffer.size n c.recvBuffer x (Nat.le_refl _)
  have hnone := drain_get?_of_none c.recvBuffer.size n c.recvBuffer x
  have hout := drain_upTo sent c.recvBuffer.size n c.recvBuffer x hasc hmem
    (fun k y hy => (h.buffered k y hy).2)
  -- Five facts about the loop are enough from here on.
  generalize drain c.recvBuffer.size n c.recvBuffer x = r at hle hget hstop hnone hout
  -- Whatever was passed on the way was the packet itself or buffered.
  have hpassed : ∀ k, n ≤ k → k ≤ r.1 → ∃ y, (k, y) ∈ sent := by
    intro k hnk hkr
    by_cases heq : k = n
    · subst heq
      exact ⟨x, hmem⟩
    · have hsome := ((hget k (by omega)).1 hkr).1
      rcases Option.ne_none_iff_exists'.mp hsome with ⟨y, hy⟩
      exact ⟨y, (h.buffered k y hy).2⟩
  refine ⟨by simp only; omega, ?_, Or.inr ?_, ?_, ?_, fun hneg => ?_⟩
  · rw [hret, hcount]
    exact hout
  · rcases hpassed r.1 hle (Nat.le_refl _) with ⟨y, hy⟩
    exact ⟨_, hy, rfl⟩
  · intro k hk hex
    have hk' : (k : Int) ≤ r.1 := hk
    by_cases hlt : k < n
    · exact hgap k (by omega) hex
    · exact hpassed k (by omega) (by omega)
  · intro k y hy
    -- What is left in the buffer was there, and lies beyond the stop.
    have hold : c.recvBuffer.get? k ≠ none := fun hc => by
      rw [show r.2.1.get? k = none from hnone k hc] at hy
      simp only [reduceCtorEq] at hy
    rcases Option.ne_none_iff_exists'.mp hold with ⟨z, hz⟩
    have hnk : n < k := by
      have := hbeyond k z hz
      omega
    have hgt : r.1 < k := by
      by_contra hcon
      rw [show r.2.1.get? k = none from ((hget k hnk).1 (by omega)).2] at hy
      simp only [reduceCtorEq] at hy
    have hne : k ≠ r.1 + 1 := by
      rintro rfl
      rw [show r.2.1.get? (r.1 + 1) = none from hstop] at hy
      simp only [reduceCtorEq] at hy
    have hsame : r.2.1.get? k = c.recvBuffer.get? k := (hget k hnk).2 hgt
    rw [show r.2.1.get? k = some y from hy] at hsame
    refine ⟨?_, (h.buffered k y hsame.symm).2⟩
    simp only
    omega
  · have hneg' : ((r.1 : Nat) : Int) = -1 := hneg
    omega

/-- Accepting a packet that was sent keeps the receive side in step, provided
    that the first one accepted is the first one sent. -/
theorem accept_inStep (c : Channel) (sent : List (Nat × Bytes)) (returned x : Bytes) (n : Nat)
    (h : c.InStep sent returned) (hasc : Ascending sent) (hmem : (n, x) ∈ sent)
    (hfirst : c.recvNext = -1 → ∀ i ∈ sent, n ≤ i.1) :
    (c.accept n x).2.InStep sent (returned ++ (c.accept n x).1.getD []) := by
  rcases accept_cases c n x with ⟨hturn, hacc⟩ | ⟨hlate, hacc⟩ | ⟨hold, hacc⟩
  · rw [hacc]
    exact drained_inStep c sent returned x n h hasc hmem hfirst hturn
  · -- A packet ahead of its turn is buffered under its own number.
    rcases counted_of_ne c n (by omega) with ⟨hstarted, hcount⟩
    rw [hacc, hcount]
    simp only [Option.getD_none, List.append_nil]
    refine ⟨h.lower, h.returned, h.reached, h.gapless, fun k y hy => ?_,
      fun hneg => absurd hneg hstarted⟩
    simp only [Dict.get?_set] at hy
    by_cases heq : k = n
    · rw [if_pos heq, Option.some.injEq] at hy
      subst heq
      subst hy
      refine ⟨?_, hmem⟩
      simp only
      omega
    · rw [if_neg heq] at hy
      exact h.buffered k y hy
  · -- A packet behind the count is dropped.
    rcases counted_of_ne c n (by omega) with ⟨_, hcount⟩
    rw [hacc, hcount]
    simp only [Option.getD_none, List.append_nil]
    exact h

/-- After accepting anything the count has started. -/
theorem accept_started (c : Channel) (n : Nat) (x : Bytes) (hlower : -1 ≤ c.recvNext) :
    0 ≤ (c.accept n x).2.recvNext := by
  rcases accept_cases c n x with ⟨_, hacc⟩ | ⟨hlate, hacc⟩ | ⟨hold, hacc⟩
  · rw [hacc]
    exact Int.natCast_nonneg _
  · rcases counted_of_ne c n (by omega) with ⟨hstarted, hcount⟩
    rw [hacc, hcount]
    simp only
    omega
  · rcases counted_of_ne c n (by omega) with ⟨hstarted, hcount⟩
    rw [hacc, hcount]
    simp only
    omega

/-- What is held stays held. -/
theorem accept_holds (c : Channel) (n : Nat) (x : Bytes) (k : Nat) (h : c.Holds k) :
    (c.accept n x).2.Holds k := by
  rcases accept_cases c n x with ⟨hturn, hacc⟩ | ⟨hlate, hacc⟩ | ⟨hold, hacc⟩
  · rw [hacc]
    have hle := drain_le c.recvBuffer.size n c.recvBuffer x
    have hget := drain_get? c.recvBuffer.size n c.recvBuffer x
    unfold Holds at h ⊢
    simp only
    by_cases hk : k ≤ (drain c.recvBuffer.size n c.recvBuffer x).1
    · exact Or.inl (by omega)
    · rcases h with h | h
      · -- The count only moves forward.
        have hmono : c.recvNext ≤ c.counted n := by
          unfold counted
          by_cases hnone : c.recvNext = -1
          · rw [if_pos hnone]
            omega
          · rw [if_neg hnone]
        exact absurd (show (k : Int) ≤ _ by omega) (by omega)
      · right
        rw [(hget k (by omega)).2 (by omega)]
        exact h
  · rcases counted_of_ne c n (by omega) with ⟨_, hcount⟩
    rw [hacc, hcount]
    rcases h with h | h
    · exact Or.inl h
    · right
      simp only [Dict.get?_set]
      by_cases heq : k = n
      · rw [if_pos heq]
        simp only [ne_eq, reduceCtorEq, not_false_eq_true]
      · rw [if_neg heq]
        exact h
  · rcases counted_of_ne c n (by omega) with ⟨_, hcount⟩
    rw [hacc, hcount]
    exact h

/-- The packet that was accepted is held. -/
theorem accept_holds_self (c : Channel) (n : Nat) (x : Bytes) : (c.accept n x).2.Holds n := by
  rcases accept_cases c n x with ⟨_, hacc⟩ | ⟨_, hacc⟩ | ⟨hold, hacc⟩
  · rw [hacc]
    exact Or.inl (Int.ofNat_le.mpr (drain_le _ _ _ _))
  · rw [hacc]
    right
    simp only [Dict.get?_set_self, ne_eq, reduceCtorEq, not_false_eq_true]
  · rw [hacc]
    left
    simp only
    omega

/-- A channel as it is opened. -/
structure Fresh (c : Channel) : Prop where
  sendWindow : c.sendWindow = .empty
  recvNext : c.recvNext = -1
  recvBuffer : c.recvBuffer = .empty

/-- An open channel is in step with nothing sent. -/
theorem fresh_inStep (c : Channel) (h : c.Fresh) : c.InStep [] [] := by
  refine ⟨h.recvNext.ge, rfl, Or.inl h.recvNext, ?_, ?_, ?_⟩
  · rintro k _ ⟨i, hi, _⟩
    simp only [List.not_mem_nil] at hi
  · intro k x hx
    rw [h.recvBuffer, Dict.get?_empty] at hx
    simp only [reduceCtorEq] at hx
  · intro _ k
    rw [h.recvBuffer, Dict.get?_empty]

end Channel

/-- Freshly paired ends make a sound link. -/
theorem fresh_sound (a b : ChannelEnd C) (s t : Session) (h : Paired a.endpoint b.endpoint s t)
    (ha : a.channel.Fresh) : (Link.opened a b).Sound s.localSequence s t := by
  refine ⟨h, List.Pairwise.nil, ?_, ?_, ?_, Nat.le_refl _⟩
  · intro i hi
    simp only [Link.opened, List.not_mem_nil] at hi
  · intro raw hraw
    simp only [Link.opened, List.not_mem_nil] at hraw
  · intro n w hw
    simp only [Link.opened] at hw
    rw [ha.sendWindow, Dict.get?_empty] at hw
    simp only [reduceCtorEq] at hw

namespace Link

/-- A packet that arrives in time before any other was accepted is the first
    one that was sent. -/
def Prompt (l : Link C) : LinkAct → Prop
  | .deliver env i => ∀ raw ∈ l.wires[i]?, ∀ first ∈ l.sent.head?,
      l.receiver.channel.recvNext = -1 → Session.Timely env.receiveMs (wireTimestamp raw) →
        wireSequence raw = first.1
  | _ => True

instance (l : Link C) (a : LinkAct) : Decidable (l.Prompt a) :=
  match a with
  | .deliver _ _ => inferInstanceAs (Decidable (∀ raw ∈ _, ∀ first ∈ _, _ → _ → _))
  | .send _ _ _ => .isTrue trivial
  | .retransmit _ _ => .isTrue trivial
  | .acknowledge _ => .isTrue trivial

/-- The plaintext of a number was returned, or the receiver holds it. What was
    returned is everything sent up to the number the receiver has reached. -/
def Safe (l : Link C) (n : Nat) : Prop :=
  ((n : Int) ≤ l.receiver.channel.recvNext ∧
    l.returned = upTo l.sent l.receiver.channel.recvNext) ∨
  ∃ x, (n, x) ∈ l.sent ∧ l.receiver.channel.recvBuffer.get? n = some x

/-- The receive side is in step, and frames acknowledge only what it holds. -/
structure Ordered (l : Link C) : Prop where
  inStep : l.receiver.channel.InStep l.sent l.returned
  frames : ∀ f ∈ l.frames, ∀ n ∈ f.allAcked, l.receiver.channel.Holds n

end Link

/-- A number that was acknowledged is safe. -/
theorem ordered_safe (l : Link C) (h : l.Ordered) (sack : SackFrame) (hsack : sack ∈ l.frames)
    (n : Nat) (hacked : n ∈ sack.allAcked) : l.Safe n := by
  rcases h.frames sack hsack n hacked with hle | hbuf
  · exact Or.inl ⟨hle, h.inStep.returned⟩
  · rcases Option.ne_none_iff_exists'.mp hbuf with ⟨x, hx⟩
    exact Or.inr ⟨x, (h.inStep.buffered n x hx).2, hx⟩

/-- Every prompt step keeps a link ordered. -/
theorem moved_ordered (l l' : Link C) (first : Nat) (s t s' t' : Session) (a : LinkAct)
    (hl : l.Sound first s t) (h : l.Ordered) (hmove : l.Moved s t a l' s' t')
    (hprompt : l.Prompt a) : l'.Ordered := by
  cases hmove with
  | idle => exact h
  | spoilt => exact ⟨h.inStep, h.frames⟩
  | again => exact ⟨h.inStep, h.frames⟩
  | acknowledged => exact ⟨h.inStep, h.frames⟩
  | sent env now plaintext wire p hroom hw =>
      exact ⟨Channel.inStep_concat _ _ _ _ _ h.inStep (fun i hi => (hl.drawn i hi).2), h.frames⟩
  | received env i raw plaintext n p hraw hmem hw hadmits =>
      -- If nothing was accepted yet, this packet is the first that was sent.
      have hleast : l.receiver.channel.recvNext = -1 → ∀ j ∈ l.sent, n ≤ j.1 := by
        intro hneg j hj
        cases hsent : l.sent with
        | nil =>
            rw [hsent] at hj
            simp only [List.not_mem_nil] at hj
        | cons m rest =>
            have hn : wireSequence raw = m.1 :=
              hprompt raw hraw m (by rw [hsent]; rfl) hneg hadmits.1
            rw [hw.wireSequence_eq] at hn
            have hasc := hl.ascending
            rw [hsent] at hj hasc
            rcases List.mem_cons.mp hj with rfl | hj
            · exact hn.le
            · have := (List.pairwise_cons.mp hasc).1 j hj
              omega
      refine ⟨Channel.accept_inStep _ _ _ _ _ h.inStep hl.ascending hmem hleast,
        fun f hf k hk => ?_⟩
      rcases List.mem_append.mp hf with hf | hf
      · exact Channel.accept_holds _ n plaintext k (h.frames f hf k hk)
      · -- The new frame acknowledges what is passed and what is buffered.
        rw [List.mem_singleton] at hf
        rw [hf, Channel.mem_buildSack] at hk
        have hstarted := Channel.accept_started l.receiver.channel n plaintext h.inStep.lower
        rcases hk with hk | hk
        · rw [max_eq_left hstarted] at hk
          exact Or.inl hk
        · exact Or.inr hk

/-- One step, prompt or not, keeps a link sound; a prompt one keeps it
    ordered. -/
theorem step_ordered (l : Link C) (first : Nat) (a : LinkAct)
    (h : (∃ s t, l.Sound first s t) ∧ l.Ordered) (hprompt : l.Prompt a) :
    (∃ s t, (l.step a).Sound first s t) ∧ (l.step a).Ordered := by
  rcases h with ⟨⟨s, t, hl⟩, hord⟩
  rcases link_moved l first s t hl a with ⟨s', t', hmove⟩
  exact ⟨⟨s', t', moved_sound _ _ _ _ _ _ _ _ hl hmove⟩,
    moved_ordered _ _ _ _ _ _ _ _ hl hord hmove hprompt⟩

/-- Between two ends of a session, whatever is lost, reordered, duplicated or
    sent again, as long as nothing is accepted before the first packet that was
    sent: what has been returned is a prefix of what was sent, and whatever
    processing a frame of the receiver removes from the window has been
    returned or is buffered. -/
theorem sliding_window_loses_nothing (a b : ChannelEnd C) (s t : Session)
    (hpaired : Paired a.endpoint b.endpoint s t) (ha : a.channel.Fresh) (hb : b.channel.Fresh)
    (acts : List LinkAct)
    (hprompt : Along Link.step Link.Prompt (Link.opened a b) acts) :
    let l := acts.foldl Link.step (Link.opened a b)
    l.returned <+: l.sent.flatMap Prod.snd ∧
      ∀ sack ∈ l.frames, ∀ n w, l.sender.channel.sendWindow.get? n = some w →
        (l.sender.channel.processSack sack).1.sendWindow.get? n = none → l.Safe n := by
  intro l
  have hstart : (Link.opened a b).Ordered := by
    refine ⟨Channel.fresh_inStep _ hb, fun f hf => ?_⟩
    simp only [Link.opened, List.not_mem_nil] at hf
  -- Soundness needs no condition; the order of what is returned needs a prompt run.
  have hrun := along_invariant
    (fun l => (∃ s t, Link.Sound (C := C) l _ s t) ∧ l.Ordered)
    (fun l a h ha => step_ordered l _ a h ha) _ acts
    ⟨⟨s, t, fresh_sound a b s t hpaired ha⟩, hstart⟩ hprompt
  rcases hrun with ⟨⟨s', t', hsound⟩, hord⟩
  refine ⟨?_, fun sack hsack n w hw hgone => ?_⟩
  · rw [hord.inStep.returned]
    exact upTo_prefix _ _ hsound.ascending
  · refine ordered_safe l hord sack hsack n ?_
    -- Only what the frame acknowledges leaves the window.
    by_contra hacked
    rw [Channel.processSack_get?, if_neg hacked, hw] at hgone
    simp only [reduceCtorEq] at hgone

/-- The toy ends are paired. -/
theorem toyEnds_paired (channel : Channel) :
    ∃ s t, Paired (toyEnds channel).1.endpoint (toyEnds channel).2.endpoint s t := by
  have hends : ∃ s ∈ (toyEnds {}).1.endpoint.device.sessions.get?
        (toyEnds {}).2.endpoint.device.deviceId,
      ∃ t ∈ (toyEnds {}).2.endpoint.device.sessions.get? (toyEnds {}).1.endpoint.device.deviceId,
        (toyEnds {}).1.endpoint.proto.peerId = some (toyEnds {}).2.endpoint.device.deviceId ∧
        s.sessionKey = t.sessionKey ∧ s.macKey = t.macKey ∧
        t.peerEd25519Public = (toyEnds {}).1.endpoint.device.identityPublicBytes ∧
        t.peerMaxSeq ≤ s.localSequence ∧ ∀ n ∈ t.peerSeqWindow, n < s.localSequence := by
    decide +kernel
  rcases hends with ⟨s, hs, t, ht, hpeer, hkey, hmac, hpub, hmax, hrecent⟩
  exact ⟨s, t, hpeer, hs, ht, hkey, hmac, hpub, hmax, hrecent⟩

/-- A channel that was just made is fresh. -/
theorem default_fresh : Channel.Fresh {} := ⟨rfl, rfl, rfl⟩

/-- Three messages, of which the second arrives last and the first twice, and
    every frame is processed. -/
def reordered : List LinkAct :=
  [.send toyEnv 0 [1], .send toyEnv 0 [2], .send toyEnv 0 [3], .deliver toyEnv 0,
    .deliver toyEnv 2, .deliver toyEnv 0, .acknowledge 1, .deliver toyEnv 1]

/-- They arrive in order all the same, and the last frame removes the second
    message, the only one that was left in the window. -/
theorem reordered_loses_nothing :
    let l := reordered.foldl Link.step (Link.opened (toyEnds {}).1 (toyEnds {}).2)
    l.returned = [1, 2, 3] ∧ l.returned <+: l.sent.flatMap Prod.snd ∧
      l.sender.channel.sendWindow.keys = [2] ∧
      ∃ sack ∈ l.frames.getLast?,
        (l.sender.channel.processSack sack).1.sendWindow.get? 2 = none ∧ l.Safe 2 := by
  rcases toyEnds_paired {} with ⟨s, t, hpaired⟩
  have hrun : Along Link.step Link.Prompt (Link.opened (toyEnds {}).1 (toyEnds {}).2) reordered ∧
      let l := reordered.foldl Link.step (Link.opened (toyEnds {}).1 (toyEnds {}).2)
      l.returned = [1, 2, 3] ∧ l.sender.channel.sendWindow.keys = [2] ∧
        ∃ sack ∈ l.frames.getLast?,
          (l.sender.channel.processSack sack).1.sendWindow.get? 2 = none := by
    decide +kernel
  rcases hrun with ⟨hprompt, hrun⟩
  have hloses := sliding_window_loses_nothing (toyEnds {}).1 (toyEnds {}).2 s t hpaired
    default_fresh default_fresh reordered hprompt
  generalize reordered.foldl Link.step (Link.opened (toyEnds {}).1 (toyEnds {}).2) = l
    at hloses hrun ⊢
  rcases hrun with ⟨hreturned, hkeys, sack, hlast, hgone⟩
  rcases (Dict.mem_keys _ 2).mp (hkeys ▸ List.mem_singleton_self 2) with ⟨w, hw⟩
  exact ⟨hreturned, hloses.1, hkeys, sack, hlast, hgone,
    hloses.2 sack (List.mem_of_getLast? hlast) 2 w hw hgone⟩

/-- Two messages, of which only the second arrives. -/
def firstLost : List LinkAct :=
  [.send toyEnv 0 [1], .send toyEnv 0 [2], .deliver toyEnv 1]

/-- The second message is returned as if it were the first, and its frame
    removes the first one, which was never received. -/
theorem first_lost_is_acknowledged :
    let l := firstLost.foldl Link.step (Link.opened (toyEnds {}).1 (toyEnds {}).2)
    ¬ l.returned <+: l.sent.flatMap Prod.snd ∧
      ∃ sack ∈ l.frames, ∃ n, l.sender.channel.sendWindow.get? n ≠ none ∧
        (l.sender.channel.processSack sack).1.sendWindow.get? n = none ∧ ¬ l.Safe n := by
  have hrun : let l := firstLost.foldl Link.step (Link.opened (toyEnds {}).1 (toyEnds {}).2)
      ¬ l.returned <+: l.sent.flatMap Prod.snd ∧
        ∃ sack ∈ l.frames, ∃ i ∈ l.sent, l.sender.channel.sendWindow.get? i.1 ≠ none ∧
          (l.sender.channel.processSack sack).1.sendWindow.get? i.1 = none ∧
          l.returned ≠ upTo l.sent l.receiver.channel.recvNext ∧
          l.receiver.channel.recvBuffer.get? i.1 = none := by
    decide +kernel
  generalize firstLost.foldl Link.step (Link.opened (toyEnds {}).1 (toyEnds {}).2) = l at hrun ⊢
  rcases hrun with ⟨hnot, sack, hsack, i, _, hwindow, hgone, hreturned, hbuffer⟩
  refine ⟨hnot, sack, hsack, i.1, hwindow, hgone, ?_⟩
  rintro (⟨_, hupTo⟩ | ⟨x, _, hx⟩)
  · exact hreturned hupTo
  · rw [hbuffer] at hx
    simp only [reduceCtorEq] at hx

end Ztlnp

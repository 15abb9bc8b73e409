import Ztlnp.Theory.Ordered

/-!
# The Span of the Send Window

How far apart the numbers in flight may lie.

A channel bounds how many packets are in flight, and the replay check bounds
how far below the largest number a packet may lie. The two are the same
quantity only while packets leave the window in order. With selective
acknowledgement they leave in any order, room is made above a packet that is
still missing, and after enough of it the missing packet lies too far below
the largest number to be let through when it is sent again.

As long as a packet is sent only when its number lies less than the width of
the replay window above every packet that is still missing, this cannot
happen: the largest number the receiver has seen was sent, so no missing
packet lies that far below it.

## Main definitions

* `Link.Narrow`: A packet is sent only within reach of what is missing.
* `Link.Spanned`: What is missing is within reach of everything sent.

## Theorems

* `moved_spanned`: Every narrow step keeps a link spanned.
* `send_window_fits_replay_window`: In every narrow run, whatever is in the
  window and was never accepted passes the replay check in time.
-/

namespace Ztlnp

variable {C : Primitives}

namespace Link

/-- A packet is sent only when its number lies within reach of every packet in
    the window that the receiver has not accepted. -/
def Narrow (l : Link C) : LinkAct → Prop
  | .send _ _ _ => l.sender.channel.canSend = true →
      ∀ s ∈ l.sender.endpoint.device.sessions.get? l.receiver.endpoint.device.deviceId,
        ∀ n ∈ l.sender.channel.sendWindow.keys, n ∉ l.accepted →
          s.localSequence < n + replayWindow
  | _ => True

instance (l : Link C) (a : LinkAct) : Decidable (l.Narrow a) :=
  match a with
  | .send _ _ _ => inferInstanceAs (Decidable (_ → ∀ s ∈ _, ∀ n ∈ _, _ → _))
  | .retransmit _ _ => .isTrue trivial
  | .deliver _ _ => .isTrue trivial
  | .acknowledge _ => .isTrue trivial

/-- The receiver has recorded only what it accepted and what came before the
    first packet, and everything sent is within reach of what is missing. -/
structure Spanned (l : Link C) (first : Nat) (t : Session) : Prop where
  recent : ∀ k ∈ t.peerSeqWindow, k ∈ l.accepted ∨ k < first
  largest : t.peerMaxSeq ≤ first ∨ ∃ i ∈ l.sent, t.peerMaxSeq ≤ i.1
  narrow : ∀ n w, l.sender.channel.sendWindow.get? n = some w → n ∉ l.accepted →
    ∀ i ∈ l.sent, i.1 < n + replayWindow

end Link

/-- A missing packet is admitted. -/
theorem spanned_admits (l : Link C) (first : Nat) (s t : Session) (hl : l.Sound first s t)
    (h : l.Spanned first t) (n : Nat) (w : WindowedPacket)
    (hw : l.sender.channel.sendWindow.get? n = some w) (hmissing : n ∉ l.accepted) :
    t.window.Admits replayWindow n := by
  rcases hl.sent_of_window hw with ⟨x, hsent⟩
  have hlow : first ≤ n := (hl.drawn _ hsent).1
  -- The number is neither in the window nor below its edge.
  refine ⟨fun hmem => ?_, fun hle => ?_⟩
  · rcases h.recent n hmem with hacc | hlt
    · exact hmissing hacc
    · omega
  · -- The largest number seen was sent, or is older than the link.
    simp only [SeqWindow.edge, Session.window, replayWindow] at hle
    rcases h.largest with hmax | ⟨i, hi, hmax⟩
    · omega
    · have hreach := h.narrow n w hw hmissing i hi
      simp only [replayWindow] at hreach
      omega

/-- Every narrow step keeps a link spanned. -/
theorem moved_spanned (l l' : Link C) (first : Nat) (s t s' t' : Session) (a : LinkAct)
    (hl : l.Sound first s t) (h : l.Spanned first t) (hmove : l.Moved s t a l' s' t')
    (hnarrow : l.Narrow a) : l'.Spanned first t' := by
  cases hmove with
  | idle => exact h
  | spoilt => exact ⟨h.recent, h.largest, h.narrow⟩
  | sent env now plaintext wire p hroom hw =>
      refine ⟨h.recent, ?_, fun n w hn hmissing i hi => ?_⟩
      · rcases h.largest with hmax | ⟨i, hi, hmax⟩
        · exact Or.inl hmax
        · exact Or.inr ⟨i, List.mem_append_left _ hi, hmax⟩
      · -- A packet in the window is the new one or an older one, and so is one sent.
        simp only [Channel.enqueued, Dict.get?_set] at hn
        by_cases heq : n = s.localSequence
        · rcases List.mem_append.mp hi with hi | hi
          · have := (hl.drawn i hi).2
            omega
          · rw [List.mem_singleton] at hi
            rw [hi, heq, replayWindow]
            simp only
            omega
        · rw [if_neg heq] at hn
          rcases List.mem_append.mp hi with hi | hi
          · exact h.narrow n w hn hmissing i hi
          · rw [List.mem_singleton] at hi
            rw [hi]
            exact hnarrow hroom s hl.paired.sending n
              ((Dict.mem_keys _ _).mpr ⟨w, hn⟩) hmissing
  -- The window only shrinks, and nothing new is sent.
  | again due sent c more hkept hmore =>
      refine ⟨h.recent, h.largest, fun n w hn hmissing i hi => ?_⟩
      rcases hkept n w hn with ⟨w', hw', _⟩
      exact h.narrow n w' hw' hmissing i hi
  -- The window of the session takes in the number that was accepted, which was sent.
  | received env i raw plaintext n p hraw hmem hw hadmits =>
      refine ⟨fun k hk => ?_, ?_, fun k w hk hmissing j hj => ?_⟩
      · rcases SeqWindow.mem_recent_record replayWindow t.window n k hk with rfl | hk
        · exact Or.inl List.mem_cons_self
        · rcases h.recent k hk with hacc | hlt
          · exact Or.inl (List.mem_cons_of_mem _ hacc)
          · exact Or.inr hlt
      · rw [Session.recorded_peerMaxSeq]
        rcases Nat.le_total t.peerMaxSeq n with hle | hle
        · rw [max_eq_left hle]
          exact Or.inr ⟨_, hmem, Nat.le_refl _⟩
        · rw [max_eq_right hle]
          exact h.largest
      · exact h.narrow k w hk (fun hacc => hmissing (List.mem_cons_of_mem _ hacc)) j hj
  -- What leaves the window is no longer waited for.
  | acknowledged i sack hsack =>
      refine ⟨h.recent, h.largest, fun n w hn hmissing j hj => ?_⟩
      exact h.narrow n w (Channel.processSack_kept _ sack n w hn) hmissing j hj

/-- One narrow step keeps a link sound and spanned. -/
theorem step_spanned (l : Link C) (first : Nat) (a : LinkAct)
    (h : ∃ s t, l.Sound first s t ∧ l.Spanned first t) (hnarrow : l.Narrow a) :
    ∃ s t, (l.step a).Sound first s t ∧ (l.step a).Spanned first t := by
  rcases h with ⟨s, t, hl, hspan⟩
  rcases link_moved l first s t hl a with ⟨s', t', hmove⟩
  exact ⟨s', t', moved_sound _ _ _ _ _ _ _ _ hl hmove,
    moved_spanned _ _ _ _ _ _ _ _ hl hspan hmove hnarrow⟩

/-- Freshly paired ends are spanned: nothing is in flight. -/
theorem fresh_spanned (a b : ChannelEnd C) (s t : Session)
    (h : Paired a.endpoint b.endpoint s t) (ha : a.channel.Fresh) :
    (Link.opened a b).Spanned s.localSequence t := by
  refine ⟨fun k hk => Or.inr (h.recent k hk), Or.inl h.largest, fun n w hw => ?_⟩
  simp only [Link.opened] at hw
  rw [ha.sendWindow, Dict.get?_empty] at hw
  simp only [reduceCtorEq] at hw

/-- Between two ends of a session, whatever is lost, reordered, duplicated,
    acknowledged or sent again, as long as packets are sent only within reach
    of what is missing: every packet in the window that the receiver has never
    accepted passes the replay check whenever it arrives in time. -/
theorem send_window_fits_replay_window (a b : ChannelEnd C) (s t : Session)
    (hpaired : Paired a.endpoint b.endpoint s t) (ha : a.channel.Fresh) (acts : List LinkAct)
    (hnarrow : Along Link.step Link.Narrow (Link.opened a b) acts) :
    let l := acts.foldl Link.step (Link.opened a b)
    ∃ t', l.receiver.endpoint.device.sessions.get? l.sender.endpoint.device.deviceId = some t' ∧
      ∀ n w, l.sender.channel.sendWindow.get? n = some w → n ∉ l.accepted →
        ∀ nowMs timestampMs, Session.Timely nowMs timestampMs →
          (Session.checkReplay nowMs n timestampMs).run t' = .ok () (t'.recorded n) := by
  intro l
  -- The invariant has the two sessions as they are at each point of the run.
  have hrun := along_invariant
    (fun l => ∃ s' t', Link.Sound (C := C) l s.localSequence s' t' ∧ l.Spanned s.localSequence t')
    (fun l a h ha => step_spanned l _ a h ha) _ acts
    ⟨s, t, fresh_sound a b s t hpaired ha, fresh_spanned a b s t hpaired ha⟩ hnarrow
  rcases hrun with ⟨s', t', hsound, hspan⟩
  refine ⟨t', hsound.paired.receiving, fun n w hw hmissing nowMs timestampMs htime => ?_⟩
  exact Session.checkReplay_admits t' nowMs n timestampMs
    ⟨htime, spanned_admits l _ s' t' hsound hspan n w hw hmissing⟩

/-- Three messages, of which the second is lost. -/
def oneMissing : List LinkAct :=
  [.send toyEnv 0 [1], .deliver toyEnv 0, .acknowledge 0, .send toyEnv 0 [2],
    .send toyEnv 0 [3], .deliver toyEnv 2, .acknowledge 1]

/-- The lost one still passes. -/
theorem missing_packet_fits :
    let l := oneMissing.foldl Link.step (Link.opened (toyEnds {}).1 (toyEnds {}).2)
    ∃ t', l.receiver.endpoint.device.sessions.get? l.sender.endpoint.device.deviceId = some t' ∧
      ∀ n w, l.sender.channel.sendWindow.get? n = some w → n ∉ l.accepted →
        ∀ nowMs timestampMs, Session.Timely nowMs timestampMs →
          (Session.checkReplay nowMs n timestampMs).run t' = .ok () (t'.recorded n) := by
  rcases toyEnds_paired {} with ⟨s, t, hpaired⟩
  exact send_window_fits_replay_window (toyEnds {}).1 (toyEnds {}).2 s t hpaired default_fresh
    oneMissing (by decide +kernel)

/-- One message arrives. Of the next sixty-four, which fill the window, only
    the second arrives; its frame makes room for one more, which arrives too. -/
def wideSpan : List LinkAct :=
  [.send toyEnv 0 [1], .deliver toyEnv 0, .acknowledge 0] ++
    List.replicate 64 (.send toyEnv 0 [2]) ++
    [.deliver toyEnv 2, .acknowledge 1, .send toyEnv 0 [3], .deliver toyEnv 65]

/-- The message after the first is in the window and was never accepted, and
    the replay check refuses it at once. -/
theorem missing_packet_too_far_below :
    let l := wideSpan.foldl Link.step (Link.opened (toyEnds {}).1 (toyEnds {}).2)
    l.sender.channel.windowSize ≤ 64 ∧
      ∃ t, l.receiver.endpoint.device.sessions.get? l.sender.endpoint.device.deviceId = some t ∧
        ∃ n, l.sender.channel.sendWindow.get? n ≠ none ∧ n ∉ l.accepted ∧
          Session.Timely toyEnv.receiveMs toyEnv.buildMs ∧
          ((Session.checkReplay toyEnv.receiveMs n toyEnv.buildMs).run t).returned = none := by
  have hrun : let l := wideSpan.foldl Link.step (Link.opened (toyEnds {}).1 (toyEnds {}).2)
      l.sender.channel.windowSize ≤ 64 ∧
        ∃ t ∈ l.receiver.endpoint.device.sessions.get? l.sender.endpoint.device.deviceId,
          ∃ n ∈ l.sender.channel.sendWindow.keys, l.sender.channel.sendWindow.get? n ≠ none ∧
            n ∉ l.accepted ∧ Session.Timely toyEnv.receiveMs toyEnv.buildMs ∧
            ((Session.checkReplay toyEnv.receiveMs n toyEnv.buildMs).run t).returned = none := by
    decide +kernel
  generalize wideSpan.foldl Link.step (Link.opened (toyEnds {}).1 (toyEnds {}).2) = l at hrun ⊢
  rcases hrun with ⟨hsize, t, ht, n, _, hn⟩
  exact ⟨hsize, t, ht, n, hn⟩

end Ztlnp

import Ztlnp.Theory.Isolation
import Ztlnp.Theory.Reception
import Ztlnp.Theory.Rehandshake

/-!
# Refusals

What is left of a packet that the machine refuses.

Reception and handling are two steps, and only the first one cleans up after
itself. By the time a handler looks at the state of the machine, the number of
the packet is in the replay window of its session. A handler that then raises
leaves it there, and the packet cannot come again. This is what happens to
DATA that overtakes the KEY_EXCHANGE before it.

The responder's KEY_EXCHANGE handler goes further. It installs the session and
drops the ephemeral keys before it has checked anything, so a packet that
fails a check takes the handshake with it.

Both results are exact. `Unmarked` lists, by packet type and state, when a
refusal leaves the replay windows alone; it reads the endpoint before the call
only. What it needs to know of a handler is whether it raises and which windows
it writes, and for the responder's handler `responder_cases` says that once
for both.

## Main definitions

* `Device.seen`: The replay window of a session, empty if there is none.
* `Endpoint.Concludes`: A KEY_EXCHANGE passes every check of the responder.
* `Endpoint.Unmarked`: When a received packet leaves no mark if it is refused.
* `Endpoint.Sound`: When a KEY_EXCHANGE leaves the tables alone if it is
  refused.

## Theorems

* `Device.received_seen`: Reception marks a packet exactly if its sender has a
  session.
* `Endpoint.responder_cases`: The responder's path of a KEY_EXCHANGE.
* `refusal_unmarked_iff`: When a refused packet is not marked as seen.
* `handshake_survives_iff`: When a bad KEY_EXCHANGE does no harm.
-/

namespace Ztlnp

variable {C : Primitives}

namespace Device

/-- The replay state kept for a peer; without a session nothing was seen. -/
def seen (d : Device C) (id : Bytes) : SeqWindow :=
  match d.sessions.get? id with
  | some s => s.window
  | none => ⟨0, ∅⟩

theorem seen_of_get? (d : Device C) (id : Bytes) (s : Session) (h : d.sessions.get? id = some s) :
    d.seen id = s.window := by
  rw [seen, h]

theorem seen_of_sessions (d d' : Device C) (id : Bytes)
    (h : d'.sessions.get? id = d.sessions.get? id) : d'.seen id = d.seen id := by
  rw [seen, seen, h]

theorem seen_installed (d : Device C) (peerId id : Bytes) (s : Session) :
    (d.installed peerId s).seen id = if id = peerId then s.window else d.seen id := by
  by_cases h : id = peerId
  · rw [if_pos h, h]
    exact seen_of_get? _ _ s (Dict.get?_set_self _ _ _)
  · rw [if_neg h]
    exact seen_of_sessions _ _ _ (Dict.get?_set_ne _ _ h)

/-- Drawing a number does not touch what was seen. -/
theorem seen_advanced (d : Device C) (peerId id : Bytes) (s : Session)
    (h : d.sessions.get? peerId = some s) : (d.advanced peerId s).seen id = d.seen id := by
  by_cases hid : id = peerId
  · rw [hid, seen_of_get? d peerId s h]
    exact seen_of_get? _ _ { s with localSequence := s.localSequence + 1 }
      (Dict.get?_set_self _ _ _)
  · exact seen_of_sessions _ _ _ (Dict.get?_set_ne _ _ hid)

/-- A number that was just recorded was not in the window before. -/
theorem recorded_window_ne (s : Session) (nowMs n timestampMs : Nat)
    (h : s.Admits nowMs n timestampMs) : (s.recorded n).window ≠ s.window := by
  intro heq
  have hseen := SeqWindow.seen_record_self replayWindow s.window n
  rw [Session.recorded_window] at heq
  rw [heq] at hseen
  exact SeqWindow.not_admits_of_seen replayWindow hseen h.2

/-- Among some of the peers, reception marks a packet exactly if its sender is
    one of them and has a session. -/
theorem received_seen_among (d d' : Device C) (env : Env) (raw : Bytes) (p : Packet)
    (hrec : Received d env raw p d') (htype : p.ptype ≠ .hello) (P : Bytes → Prop) :
    (∀ id, P id → d'.seen id = d.seen id) ↔
      d.sessions.get? p.senderId = none ∨ ¬ P p.senderId := by
  cases hrec with
  | hello _ ht => exact absurd ht htype
  | pending key _ _ hget => exact ⟨fun _ => Or.inl hget, fun _ _ _ => rfl⟩
  | session s _ _ hget _ hadmits =>
      simp only [hget, reduceCtorEq, false_or]
      constructor
      · intro h hP
        have hsame := h p.senderId hP
        rw [seen_of_get? d _ s hget, seen_of_get? _ _ _ (Dict.get?_set_self _ _ _)] at hsame
        exact recorded_window_ne s _ _ _ hadmits hsame
      · intro hP id hid
        refine seen_of_sessions _ _ _ (Dict.get?_set_ne _ _ ?_)
        intro heq
        exact hP (heq ▸ hid)

/-- Reception marks a packet exactly if its sender has a session. -/
theorem received_seen (d d' : Device C) (env : Env) (raw : Bytes) (p : Packet)
    (hrec : Received d env raw p d') (htype : p.ptype ≠ .hello) :
    (∀ id, d'.seen id = d.seen id) ↔ d.sessions.get? p.senderId = none := by
  have h := received_seen_among d d' env raw p hrec htype (fun _ => True)
  simp only [true_imp_iff, not_true_eq_false, or_false] at h
  exact h

theorem received_hello (d d' : Device C) (env : Env) (raw : Bytes) (p : Packet)
    (hrec : Received d env raw p d') (htype : p.ptype = .hello) : d' = d := by
  cases hrec with
  | hello => rfl
  | session s _ ht => exact absurd htype ht
  | pending key _ ht => exact absurd htype ht

end Device

/-- A session in which nothing was received refuses nothing but a bad time. -/
theorem Session.fresh_admits_iff (s : Session) (nowMs n timestampMs : Nat)
    (hmax : s.peerMaxSeq = 0) (hwin : s.peerSeqWindow = ∅) :
    s.Admits nowMs n timestampMs ↔ Session.Timely nowMs timestampMs := by
  refine ⟨fun h => h.1, fun h => ⟨h, ?_, ?_⟩⟩
  · simp only [Session.window, hwin, Finset.notMem_empty, not_false_eq_true]
  · simp only [Session.window, SeqWindow.edge, hmax, replayWindow]
    omega

namespace Endpoint

/-- A KEY_EXCHANGE passes every check of the responder that would install this
    session, and the responder can build its answer. -/
def Concludes (e : Endpoint C) (env : Env) (p : Packet) (id : Bytes) (s : Session) : Prop :=
  Session.Timely env.confirmMs p.timestampMs ∧
    (e.device.installed id s).Decrypts p keyExchangeOk ∧ env.Fits id

/-- The replay window of a session that was installed and then shown a
    packet. -/
def firstSeen (env : Env) (p : Packet) : SeqWindow :=
  if Session.Timely env.confirmMs p.timestampMs then
    SeqWindow.record replayWindow ⟨0, ∅⟩ p.sequence
  else ⟨0, ∅⟩

/-- A new session has recorded a packet or not; for decrypting that makes no
    difference. -/
theorem decrypts_installed_recorded (d : Device C) (p : Packet) (id : Bytes) (s : Session)
    (n : Nat) (plaintext : Bytes) :
    (d.installed id (s.recorded n)).Decrypts p plaintext ↔
      (d.installed id s).Decrypts p plaintext := by
  unfold Device.Decrypts
  by_cases h : p.senderId = id
  · simp only [h, installed_get?_self, Option.some.injEq, exists_eq_left']
    rfl
  · have hget : ∀ t : Session,
        (d.installed id t).sessions.get? p.senderId = d.sessions.get? p.senderId :=
      fun t => Dict.get?_set_ne _ _ h
    rw [hget, hget]

/-- The responder's path of a KEY_EXCHANGE, if there is an exchange to
    complete: the packet concludes the handshake, or the handler raises with
    the new session in place and the ephemeral key gone. -/
theorem responder_cases (env : Env) (p : Packet) (e : Endpoint C) (id : Bytes) (s : Session)
    (h : e.device.Aligned) (hstate : e.proto.state = .helloReceived) (hcomp : e.Completes id s) :
    (e.Concludes env p id s ∧ ∃ b e', (handleKeyExchange env p).run e = .ok b e') ∨
    (¬ e.Concludes env p id s ∧ ∃ x e', (handleKeyExchange env p).run e = .error x e' ∧
      e'.device.ephemeralPrivate.get? id = none ∧
      ∀ id', e'.device.seen id' = if id' = id then firstSeen env p else e.device.seen id') := by
  have hfresh : s.peerMaxSeq = 0 ∧ s.peerSeqWindow = ∅ := by
    rcases hcomp with ⟨ed, x, _, _, _, hex⟩
    exact (Device.exchangedSession_eq_ok _ _ _ _ _ _ hex).2.2.2
  have hwin : s.window = ⟨0, ∅⟩ := by
    rw [Session.window, hfresh.1, hfresh.2]
  have hiff := s.fresh_admits_iff env.confirmMs p.sequence p.timestampMs hfresh.1 hfresh.2
  have hout := handleKeyExchange_outcome env p e
  generalize hrun : (handleKeyExchange env p).run e = r at hout ⊢
  cases hout with
  | refused x _ hno => exact absurd ⟨id, s, hcomp⟩ hno
  | unanswered x hs => simp only [hstate, reduceCtorEq] at hs
  | answered hs => simp only [hstate, reduceCtorEq] at hs
  | unexpected x hs => exact absurd hstate hs
  | halfway id' s' x _ hcomp' hpub =>
      rcases hcomp' with ⟨ed, y, _, _, _, hex⟩
      exact absurd hpub (h.public_ne_none _ _ _ _ _ s' hex)
  | stale id' s' x _ hcomp' _ hadmits =>
      rcases e.completes_eq id id' s s' hcomp hcomp' with ⟨rfl, rfl⟩
      have htime := mt hiff.mpr hadmits
      refine Or.inr ⟨fun hc => htime hc.1, x, _, rfl, Dict.get?_pop_self _ _, fun id' => ?_⟩
      rw [Device.seen_installed, hwin, firstSeen, if_neg htime]
  | unconfirmed id' s' x _ hcomp' _ hadmits hplain =>
      rcases e.completes_eq id id' s s' hcomp hcomp' with ⟨rfl, rfl⟩
      rw [decrypts_installed_recorded] at hplain
      refine Or.inr ⟨fun hc => hplain hc.2.1, x, _, rfl, Dict.get?_pop_self _ _, fun id' => ?_⟩
      rw [Device.seen_installed, Session.recorded_window, hwin, firstSeen, if_pos (hiff.mp hadmits)]
  | established id' s' r _ hcomp' _ hadmits hplain =>
      rcases e.completes_eq id id' s s' hcomp hcomp' with ⟨rfl, rfl⟩
      have hdec := (decrypts_installed_recorded _ _ _ _ _ _).mp hplain
      -- Only the answer can still fail.
      rcases handleKeyExchange_confirms env p e _ _ h hstate hcomp hadmits hplain with
        ⟨hfits, q, raw, _, hok⟩ | ⟨hfits, x, herr⟩
      · rw [← hrun]
        exact Or.inl ⟨⟨hiff.mp hadmits, hdec, hfits⟩, some raw, _, hok⟩
      · rw [← hrun]
        refine Or.inr ⟨fun hc => hfits hc.2.2, x, _, herr, Dict.get?_pop_self _ _, fun id' => ?_⟩
        rw [Device.seen_advanced _ _ _ _ (installed_get?_self _ _ _), Device.seen_installed,
          Session.recorded_window, hwin, firstSeen, if_pos (hiff.mp hadmits)]

/-- A responder with nothing to complete refuses a KEY_EXCHANGE. -/
theorem responder_refuses (env : Env) (p : Packet) (e : Endpoint C)
    (hstate : e.proto.state = .helloReceived) (hno : ¬ ∃ id s, e.Completes id s) :
    ∃ x, (handleKeyExchange env p).run e = .error x e := by
  have hout := handleKeyExchange_outcome env p e
  generalize (handleKeyExchange env p).run e = r at hout ⊢
  cases hout with
  | refused x => exact ⟨x, rfl⟩
  | halfway id s _ _ hcomp => exact absurd ⟨id, s, hcomp⟩ hno
  | stale id s _ _ hcomp => exact absurd ⟨id, s, hcomp⟩ hno
  | unconfirmed id s _ _ hcomp => exact absurd ⟨id, s, hcomp⟩ hno
  | established id s _ _ hcomp => exact absurd ⟨id, s, hcomp⟩ hno
  | unanswered x hs => simp only [hstate, reduceCtorEq] at hs
  | answered hs => simp only [hstate, reduceCtorEq] at hs
  | unexpected x hs => exact absurd hstate hs

/-- If the call raised, no replay window has changed. -/
def Traceless {α : Type} (d : Device C) (r : EStateM.Result Exn (Endpoint C) α) : Prop :=
  ∀ x e', r = .error x e' → ∀ id, e'.device.seen id = d.seen id

theorem traceless_ok {α : Type} (d : Device C) (a : α) (e : Endpoint C) :
    Traceless d (.ok a e) := by
  intro x e' h
  simp only [reduceCtorEq] at h

theorem traceless_error {α : Type} (d : Device C) (x : Exn) (e : Endpoint C) :
    Traceless d (.error x e : EStateM.Result Exn (Endpoint C) α) ↔
      ∀ id, e.device.seen id = d.seen id := by
  refine ⟨fun h => h x e rfl, fun h x' e' heq => ?_⟩
  rw [EStateM.Result.error.injEq] at heq
  rw [← heq.2]
  exact h

/-- A responder's KEY_EXCHANGE concludes the handshake, or leaves the windows
    as they were: the session it installs is in the state of the one it
    replaces, and the packet was recorded nowhere else. -/
def UnmarkedResponder (e : Endpoint C) (env : Env) (p : Packet) : Prop :=
  ((¬ ∃ id s, e.Completes id s) → e.device.sessions.get? p.senderId = none) ∧
  ∀ id s, e.Completes id s → e.Concludes env p id s ∨
    (e.device.seen id = firstSeen env p ∧
      (e.device.sessions.get? p.senderId = none ∨ p.senderId = id))

/-- When a packet that has been received leaves no mark if its handler
    refuses it. -/
def Unmarked (e : Endpoint C) (env : Env) (p : Packet) : Prop :=
  match p.ptype with
  -- The initiator's session is new, and starts again with an empty window.
  | .hello => e.proto.state = .helloSent → 64 ≤ p.payload.length →
      (∃ s, e.device.exchangedSession p.senderId (p.payload.take 32) (field p.payload 32 32) true
        = .ok s) → env.Fits p.senderId ∨ e.device.seen p.senderId = ⟨0, ∅⟩
  | .keyExchange =>
    match e.proto.state with
    | .helloReceived => e.UnmarkedResponder env p
    | .keyExchangeSent => e.Confirmed p ∨ e.device.sessions.get? p.senderId = none
    | _ => e.device.sessions.get? p.senderId = none
  | .data | .ack => e.proto.state = .established ∨ e.device.sessions.get? p.senderId = none
  -- These are never refused.
  | .bye | .error => True
  | _ => e.device.sessions.get? p.senderId = none

/-- A HELLO is not recorded by reception, so only a session that was installed
    before the handler failed can differ. -/
theorem hello_traceless (env : Env) (p : Packet) (e : Endpoint C) (h : e.device.Aligned)
    (htype : p.ptype = .hello) :
    Traceless e.device ((handleHello env p).run e) ↔ e.Unmarked env p := by
  simp only [Unmarked, htype]
  by_cases hinit : e.proto.state = .helloSent ∧ 64 ≤ p.payload.length
  · rcases handleHello_helloSent_cases env p e h hinit.2 hinit.1 with ⟨x, hex, hrun⟩ |
      ⟨s, hex, ⟨hfits, q, raw, _, hrun⟩ | ⟨hfits, x, hrun⟩⟩
    · rw [hrun, traceless_error]
      refine ⟨fun _ _ _ hs => ?_, fun _ _ => rfl⟩
      rcases hs with ⟨s, hs⟩
      rw [hex] at hs
      simp only [reduceCtorEq] at hs
    · rw [hrun]
      exact ⟨fun _ _ _ _ => Or.inl hfits, fun _ => traceless_ok _ _ _⟩
    · rw [hrun, traceless_error]
      have hfresh := (Device.exchangedSession_eq_ok _ _ _ _ _ _ hex).2.2.2
      have hseen : ∀ id, ((e.device.installed p.senderId s).advanced p.senderId s).seen id
          = if id = p.senderId then ⟨0, ∅⟩ else e.device.seen id := by
        intro id
        rw [Device.seen_advanced _ _ _ _ (installed_get?_self _ _ _), Device.seen_installed,
          Session.window, hfresh.1, hfresh.2]
      constructor
      · intro hsame _ _ _
        have := hsame p.senderId
        rw [hseen, if_pos rfl] at this
        exact Or.inr this.symm
      · intro hno id
        rw [hseen]
        rcases hno hinit.1 hinit.2 ⟨s, hex⟩ with hyes | hempty
        · exact absurd hyes hfits
        · by_cases hid : id = p.senderId
          · rw [if_pos hid, hid, hempty]
          · rw [if_neg hid]
  · -- Nothing else that a HELLO does touches the table of sessions.
    refine ⟨fun _ hs hl => absurd ⟨hs, hl⟩ hinit, fun _ => ?_⟩
    have hout := handleHello_outcome env p e
    generalize (handleHello env p).run e = r at hout ⊢
    cases hout with
    | short x hlen => exact (traceless_error _ _ _).mpr (fun _ => rfl)
    | answered => exact traceless_ok _ _ _
    | unanswered x d _ _ hdev =>
        refine (traceless_error _ _ _).mpr (fun id => Device.seen_of_sessions _ _ id ?_)
        rcases hdev with rfl | rfl
        · rw [Device.withEphemeral_sessions]
        · rw [Device.withPending, Device.withEphemeral_sessions]
    | refused x hlen hs => exact absurd ⟨hs, hlen⟩ hinit
    | halfway s x hlen hs => exact absurd ⟨hs, hlen⟩ hinit
    | exchanged s b hlen hs => exact absurd ⟨hs, hlen⟩ hinit
    | unconfirmed s x hlen hs => exact absurd ⟨hs, hlen⟩ hinit
    | unexpected => exact (traceless_error _ _ _).mpr (fun _ => rfl)

/-- The exchange that is remembered reads the same before and after
    reception. -/
theorem completes_received (env : Env) (raw : Bytes) (e : Endpoint C) (p : Packet)
    (d : Device C) (hrec : Device.Received e.device env raw p d) (id : Bytes) (s : Session) :
    Completes { e with device := d } id s ↔ e.Completes id s := by
  unfold Completes
  simp only [(received_frame e.device d env raw p hrec).2.2.1]

/-- The checks of a responder read the same before and after reception. -/
theorem concludes_received (env : Env) (raw : Bytes) (e : Endpoint C) (p : Packet)
    (d : Device C) (hrec : Device.Received e.device env raw p d) (id : Bytes) (s : Session) :
    Concludes { e with device := d } env p id s ↔ e.Concludes env p id s := by
  have hdec : (d.installed id s).Decrypts p keyExchangeOk ↔
      (e.device.installed id s).Decrypts p keyExchangeOk := by
    by_cases h : p.senderId = id
    · unfold Device.Decrypts
      simp only [h, installed_get?_self]
    · have hget : ∀ d' : Device C, (d'.installed id s).Decrypts p keyExchangeOk ↔
          d'.Decrypts p keyExchangeOk := by
        intro d'
        have hne : (d'.installed id s).sessions.get? p.senderId = d'.sessions.get? p.senderId :=
          Dict.get?_set_ne _ _ h
        unfold Device.Decrypts
        rw [hne]
      rw [hget, hget]
      exact (received_frame e.device d env raw p hrec).2.2.2 _
  unfold Concludes
  rw [hdec]

/-- Whether the initiator sees its confirmation does not depend on
    reception. -/
theorem confirmed_received (env : Env) (raw : Bytes) (e : Endpoint C) (p : Packet)
    (d : Device C) (hrec : Device.Received e.device env raw p d) :
    Confirmed { e with device := d } p ↔ e.Confirmed p := by
  have hdec := (received_frame e.device d env raw p hrec).2.2.2 keyExchangeOk
  have hsess : ∀ id, (∃ s, d.sessions.get? id = some s) ↔
      ∃ s, e.device.sessions.get? id = some s := by
    intro id
    by_cases hid : p.senderId = id
    · -- The sender's session is there after reception exactly if it was before.
      cases hrec with
      | hello => exact Iff.rfl
      | pending key => exact Iff.rfl
      | session s _ _ hget =>
          rw [← hid, hget]
          exact ⟨fun _ => ⟨s, rfl⟩, fun _ => ⟨_, Dict.get?_set_self _ _ _⟩⟩
    · rw [(received_frame e.device d env raw p hrec).1 id hid]
  unfold Confirmed
  simp only [exists_and_left, hsess, hdec]

/-- A KEY_EXCHANGE is recorded by reception, and by the responder once more. -/
theorem keyExchange_traceless (env : Env) (raw : Bytes) (p : Packet) (e : Endpoint C)
    (d : Device C) (h : e.device.Aligned) (hrec : Device.Received e.device env raw p d)
    (htype : p.ptype = .keyExchange) :
    Traceless e.device ((handleKeyExchange env p).run { e with device := d }) ↔
      e.Unmarked env p := by
  have hhello : p.ptype ≠ .hello := by
    rw [htype]
    decide
  have halign := Device.received_aligned e.device d env raw p hrec h
  have hseen := Device.received_seen e.device d env raw p hrec hhello
  -- Only a responder that waits for the confirmation can complete anything here.
  by_cases hresp : e.proto.state = .helloReceived
  · simp only [Unmarked, htype, hresp, UnmarkedResponder]
    by_cases hex : ∃ id s, e.Completes id s
    · rcases hex with ⟨id, s, hcomp⟩
      have hoff := Device.received_seen_among e.device d env raw p hrec hhello (fun q => q ≠ id)
      rw [not_ne_iff] at hoff
      have hconc := concludes_received env raw e p d hrec id s
      rcases responder_cases env p { e with device := d } id s halign hresp
        ((completes_received env raw e p d hrec id s).mpr hcomp) with
        ⟨hyes, b, e', hrun⟩ | ⟨hno, x, e', hrun, _, hafter⟩
      · -- The confirmation is accepted, so the step returns and leaves no trace to speak of.
        rw [hrun]
        refine ⟨fun _ => ⟨fun hnone => absurd ⟨id, s, hcomp⟩ hnone, fun id' s' hcomp' => ?_⟩,
          fun _ => traceless_ok _ _ _⟩
        rcases e.completes_eq id id' s s' hcomp hcomp' with ⟨rfl, rfl⟩
        exact Or.inl (hconc.mp hyes)
      · -- It raises once the new session is stored with the packet's number in it, so that must be
        -- what was seen there before.
        rw [hrun, traceless_error]
        constructor
        · intro hsame
          refine ⟨fun hnone => absurd ⟨id, s, hcomp⟩ hnone, fun id' s' hcomp' => Or.inr ?_⟩
          rcases e.completes_eq id id' s s' hcomp hcomp' with ⟨rfl, rfl⟩
          refine ⟨?_, hoff.mp (fun q hq => ?_)⟩
          · -- At the stored peer the new session shows this number alone.
            rw [← hsame id', hafter, if_pos rfl]
          · -- Elsewhere the only mark is the one reception made.
            rw [← hsame q, hafter, if_neg hq]
        · intro hun q
          rw [hafter]
          rcases hun.2 id s hcomp with hyes | ⟨hfirst, hsender⟩
          · exact absurd (hconc.mpr hyes) hno
          · by_cases hq : q = id
            · rw [if_pos hq, hq, hfirst]
            · rw [if_neg hq]
              exact hoff.mpr hsender q hq
    · -- With nothing to complete, the only mark is the one reception made.
      have hno : ¬ ∃ id s, Completes { e with device := d } id s := by
        simp only [completes_received env raw e p d hrec]
        exact hex
      rcases responder_refuses env p { e with device := d } hresp hno with ⟨x, hrun⟩
      rw [hrun, traceless_error, hseen]
      exact ⟨fun h => ⟨fun _ => h, fun id s hcomp => absurd ⟨id, s, hcomp⟩ hex⟩,
        fun h => h.1 hex⟩
  · -- An initiator: reception is the mark, and the answer to it decides whether the step raises.
    have hout := handleKeyExchange_outcome env p { e with device := d }
    generalize (handleKeyExchange env p).run { e with device := d } = r at hout ⊢
    cases hout with
    | refused x hs => exact absurd hs hresp
    | halfway id s _ hs => exact absurd hs hresp
    | stale id s _ hs => exact absurd hs hresp
    | unconfirmed id s _ hs => exact absurd hs hresp
    | established id s _ hs => exact absurd hs hresp
    | unanswered x hs hplain =>
        have hstate : e.proto.state = .keyExchangeSent := hs
        rw [confirmed_received env raw e p d hrec] at hplain
        simp only [Unmarked, htype, hstate, traceless_error, hseen, hplain, false_or]
    | answered hs hplain =>
        have hstate : e.proto.state = .keyExchangeSent := hs
        rw [confirmed_received env raw e p d hrec] at hplain
        simp only [Unmarked, htype, hstate, hplain, true_or, iff_true]
        exact traceless_ok _ _ _
    -- No state but the two waits for this packet.
    | unexpected x _ hs =>
        have hsent : e.proto.state ≠ .keyExchangeSent := hs
        simp only [Unmarked, htype, traceless_error, hseen]

/-- A received packet leaves no mark if its handler refuses it, exactly when
    `Unmarked` says so. -/
theorem dispatch_traceless (env : Env) (raw : Bytes) (p : Packet) (e : Endpoint C)
    (d : Device C) (h : e.device.Aligned) (hrec : Device.Received e.device env raw p d) :
    Traceless e.device ((dispatch env p).run { e with device := d }) ↔ e.Unmarked env p := by
  by_cases hhello : p.ptype = .hello
  · rw [Device.received_hello _ _ _ _ _ hrec hhello]
    simp only [dispatch, hhello]
    exact hello_traceless env p e h hhello
  · -- After these two types, a dispatch that raises has only the mark of reception.
    by_cases hkex : p.ptype = .keyExchange
    · simp only [dispatch, hkex]
      exact keyExchange_traceless env raw p e d h hrec hkex
    · have hseen := Device.received_seen e.device d env raw p hrec hhello
      have hout := dispatch_outcome env p { e with device := d }
      generalize (dispatch env p).run { e with device := d } = r at hout ⊢
      cases hout with
      | hello _ ht => exact absurd ht hhello
      | keyExchange _ ht => exact absurd ht hkex
      | accepted ht hs =>
          have hstate : e.proto.state = .established := hs
          refine ⟨fun _ => ?_, fun _ => traceless_ok _ _ _⟩
          -- `data` and `ack` are the packets an established session takes.
          rcases ht with ht | ht <;> simp only [Unmarked, ht, hstate, true_or]
      | rejected x ht hs =>
          rw [traceless_error, hseen]
          unfold Unmarked
          cases htype : p.ptype with
          | hello => exact absurd htype hhello
          | keyExchange => exact absurd htype hkex
          | bye => exact absurd htype ht.2.2.1
          | error => exact absurd htype ht.2.2.2
          | data => simp only [show e.proto.state ≠ .established from hs (Or.inl htype), false_or]
          | ack => simp only [show e.proto.state ≠ .established from hs (Or.inr htype), false_or]
          | routeAnnounce => exact Iff.rfl
          | trustEndorse => exact Iff.rfl
          | keyRotate => exact Iff.rfl
      | bye ht =>
          simp only [Unmarked, ht, iff_true]
          exact traceless_ok _ _ _
      | error ht =>
          simp only [Unmarked, ht, iff_true]
          exact traceless_ok _ _ _

/-- Every packet that an established protocol records for its sender can be
    handed up. -/
def UnmarkedData (e : Endpoint C) (env : Env) (raw : Bytes) : Prop :=
  e.proto.state = .established → ∀ p s, Packet.fromBytes env.parseMs raw = .ok p →
    p.ptype ≠ .hello → e.device.sessions.get? p.senderId = some s → Device.Verifies C s p →
    s.Admits env.receiveMs p.sequence p.timestampMs →
    p.ptype = .data ∧ ∃ plaintext, e.device.Decrypts p plaintext

/-- The entry point that hands data up records what it receives; it leaves no
    mark if there is nothing to record or if the packet is handed up. -/
theorem receiveData_traceless_received (env : Env) (raw : Bytes) (p : Packet) (e : Endpoint C)
    (d : Device C) (hest : e.proto.state = .established)
    (hrec : Device.Received e.device env raw p d) :
    Traceless e.device ((receiveData env raw).run e) ↔
      (p.ptype = .data ∧ ∃ plaintext, e.device.Decrypts p plaintext) ∨
        ∀ id, d.seen id = e.device.seen id := by
  have hreturns := receiveData_returns env raw e p d hrec
  have hfinal := receiveData_received env raw e p d hest hrec
  cases hrun : (receiveData env raw).run e with
  | ok plaintext e' =>
      exact ⟨fun _ => Or.inl (hreturns.mp ⟨plaintext, e', hrun⟩).2, fun _ => traceless_ok _ _ _⟩
  | error x e' =>
      rw [hrun] at hfinal hreturns
      have hdev : e'.device = d := congrArg Endpoint.device hfinal
      rw [traceless_error, hdev]
      refine ⟨Or.inr, fun h => ?_⟩
      rcases h with hgood | hsame
      · rcases hreturns.mpr ⟨hest, hgood⟩ with ⟨_, _, hok⟩
        simp only [reduceCtorEq] at hok
      · exact hsame

theorem receiveData_traceless (env : Env) (raw : Bytes) (e : Endpoint C) :
    Traceless e.device ((receiveData env raw).run e) ↔ e.UnmarkedData env raw := by
  constructor
  · intro htl hest p s hparse htype hget hverify hadmits
    have hrec := Device.Received.session p s hparse htype hget hverify hadmits
    rw [receiveData_traceless_received env raw p e _ hest hrec,
      Device.received_seen _ _ _ _ _ hrec htype, hget] at htl
    simp only [reduceCtorEq, or_false] at htl
    exact htl
  · intro hun
    rcases receiveData_cases env raw e with ⟨x, hrun⟩ | ⟨hest, p, d, hrec, _⟩
    · rw [hrun, traceless_error]
      exact fun _ => rfl
    · rw [receiveData_traceless_received env raw p e d hest hrec]
      cases hrec with
      | hello => exact Or.inr (fun _ => rfl)
      | pending key => exact Or.inr (fun _ => rfl)
      | session s hparse htype hget hverify hadmits =>
          exact Or.inl (hun hest p s hparse htype hget hverify hadmits)

end Endpoint

/-- A host as a life under its methods has left it. -/
def Host.after (C : Primitives) (identityPrivate : Bytes) (life : List LifeAct) : Host C :=
  life.foldl Host.live (Host.create C identityPrivate)

/-- On every reachable host, for every bytes: a call of `process_incoming` that
    raises leaves all replay windows alone exactly when the packet, if it is
    received, is unmarked; a call of `receive_data` exactly when what it records
    can be handed up. -/
theorem refusal_unmarked_iff (C : Primitives) (identityPrivate : Bytes) (acts : List LifeAct)
    (i : Nat) (env : Env) (raw : Bytes) :
    let h := Host.after C identityPrivate acts
    ((∀ x e', (Endpoint.processIncoming env raw).run (h.endpoint i) = .error x e' →
        ∀ id, e'.device.seen id = h.device.seen id) ↔
      ((h.protocols i).state ≠ .closed → (h.protocols i).state ≠ .error →
        ∀ p d, Device.Received h.device env raw p d → (h.endpoint i).Unmarked env p)) ∧
    ((∀ x e', (Endpoint.receiveData env raw).run (h.endpoint i) = .error x e' →
        ∀ id, e'.device.seen id = h.device.seen id) ↔
      (h.endpoint i).UnmarkedData env raw) := by
  intro h
  have halign : (h.endpoint i).device.Aligned :=
    Device.aligned_of_reachable C identityPrivate acts
  refine ⟨?_, Endpoint.receiveData_traceless env raw (h.endpoint i)⟩
  constructor
  · intro htl hclosed herror p d hrec
    rw [Endpoint.processIncoming_of_received env raw (h.endpoint i) p d ⟨hclosed, herror⟩ hrec]
      at htl
    exact (Endpoint.dispatch_traceless env raw p (h.endpoint i) d halign hrec).mp htl
  · -- What stops before the dispatch raises with the tables as they were.
    intro hun
    rcases Endpoint.processIncoming_cases env raw (h.endpoint i) with ⟨x, hrun⟩ |
      ⟨hopen, p, d, hrec, hrun⟩
    · rw [hrun]
      exact (Endpoint.traceless_error _ _ _).mpr (fun _ => rfl)
    · rw [hrun]
      exact (Endpoint.dispatch_traceless env raw p (h.endpoint i) d halign hrec).mpr
        (hun hopen.1 hopen.2 p d hrec)

/-- What makes the owner of the key `[7]` wait for the answer to its
    KEY_EXCHANGE, that answer, and the DATA packet behind it. -/
def toyOvertaking : List LifeAct × Bytes × Bytes :=
  let alice := Host.create toyPrimitives [7]
  let bob := Host.create toyPrimitives [1]
  let hello := toyHello alice bob.device.deviceId
  let greeted := alice.step (.initiate 0 toyEnv bob.device.deviceId)
  let (bob, helloBack) := bob.answer 0 toyEnv hello
  let (alice, keyExchange) := greeted.answer 0 toyEnv helloBack
  let (bob, keyExchangeBack) := bob.answer 0 toyEnv keyExchange
  ([.act (.initiate 0 toyEnv bob.device.deviceId), .act (.processIncoming 0 toyEnv helloBack)],
    keyExchangeBack, builtBytes bob toyEnv alice.device.deviceId (.data [42]))

/-- DATA that overtakes the KEY_EXCHANGE before it is refused and marked. Once
    the protocol is established it is taken for a replay; in the other order it
    is handed up. -/
theorem overtaking_data_marked :
    let alice := Host.after toyPrimitives [7] toyOvertaking.1
    let later := (alice.step (.processIncoming 0 toyEnv toyOvertaking.2.2)).step
      (.processIncoming 0 toyEnv toyOvertaking.2.1)
    let inOrder := alice.step (.processIncoming 0 toyEnv toyOvertaking.2.1)
    (¬ ∀ x e', (Endpoint.processIncoming toyEnv toyOvertaking.2.2).run (alice.endpoint 0)
        = .error x e' → ∀ id, e'.device.seen id = alice.device.seen id) ∧
    (later.protocols 0).state = .established ∧
    ((Endpoint.receiveData toyEnv toyOvertaking.2.2).run (later.endpoint 0)).returned = none ∧
    ((Endpoint.receiveData toyEnv toyOvertaking.2.2).run (inOrder.endpoint 0)).returned
      = some [42] := by
  intro alice later inOrder
  have hrun : ((alice.incoming 0 toyEnv toyOvertaking.2.2).returned = none ∧
        ∃ id ∈ alice.device.sessions.keys,
          (alice.incoming 0 toyEnv toyOvertaking.2.2).final.device.seen id
            ≠ alice.device.seen id) ∧
      (later.protocols 0).state = .established ∧
      ((Endpoint.receiveData toyEnv toyOvertaking.2.2).run (later.endpoint 0)).returned = none ∧
      ((Endpoint.receiveData toyEnv toyOvertaking.2.2).run (inOrder.endpoint 0)).returned
        = some [42] := by
    decide +kernel
  rcases hrun with ⟨⟨hraised, id, _, hne⟩, hrest⟩
  refine ⟨fun hsame => ?_, hrest⟩
  rcases EStateM.Result.error_of_returned hraised with ⟨x, hx⟩
  -- The number of the early packet is recorded although the packet was refused.
  exact hne (hsame x _ hx id)

/-- The four tables of a handshake are the same. -/
def Device.SameTables (d d' : Device C) : Prop :=
  d'.sessions = d.sessions ∧ d'.ephemeralPrivate = d.ephemeralPrivate ∧
    d'.ephemeralPublic = d.ephemeralPublic ∧ d'.pendingPeerKeys = d.pendingPeerKeys

namespace Endpoint

/-- A KEY_EXCHANGE of the responder's peer cannot do harm: an old session with
    the peer refuses it, or it concludes the handshake, or there is neither an
    old session nor a handshake to conclude. -/
def Sound (e : Endpoint C) (env : Env) (p : Packet) : Prop :=
  match e.device.sessions.get? p.senderId with
  | some s => ¬ s.Admits env.receiveMs p.sequence p.timestampMs ∨
      ∃ t, e.Completes p.senderId t ∧ e.Concludes env p p.senderId t
  | none => ∀ t, e.Completes p.senderId t → e.Concludes env p p.senderId t

/-- An exchange can only be completed while its ephemeral key is there. -/
theorem completes_private (e : Endpoint C) (id : Bytes) (s : Session) (h : e.Completes id s) :
    e.device.ephemeralPrivate.get? id ≠ none := by
  rcases h with ⟨ed, x, _, _, _, hex⟩
  intro hnone
  simp only [Device.exchangedSession, hnone, reduceCtorEq] at hex

/-- A KEY_EXCHANGE that a responder has received leaves the tables alone if it
    is refused, exactly when it concludes the handshake or there is nothing to
    conclude and reception has recorded nothing. -/
theorem responder_sameTables (env : Env) (raw : Bytes) (p : Packet) (e : Endpoint C)
    (d : Device C) (h : e.device.Aligned) (hstate : e.proto.state = .helloReceived)
    (hpeer : e.proto.peerId = some p.senderId) (htype : p.ptype = .keyExchange)
    (hrec : Device.Received e.device env raw p d) :
    (∀ x e', (processIncoming env raw).run e = .error x e' → e.device.SameTables e'.device) ↔
      ((∃ t, e.Completes p.senderId t ∧ e.Concludes env p p.senderId t) ∨
        ((¬ ∃ t, e.Completes p.senderId t) ∧ e.device.sessions.get? p.senderId = none)) := by
  have hopen : e.proto.state ≠ .closed ∧ e.proto.state ≠ .error := by
    rw [hstate]
    decide
  have hhello : p.ptype ≠ .hello := by
    rw [htype]
    decide
  have halign := Device.received_aligned e.device d env raw p hrec h
  rw [processIncoming_of_received env raw e p d hopen hrec]
  simp only [dispatch, htype]
  by_cases hex : ∃ t, e.Completes p.senderId t
  · rcases hex with ⟨t, hcomp⟩
    have hconc := concludes_received env raw e p d hrec p.senderId t
    rcases responder_cases env p { e with device := d } p.senderId t halign hstate
      ((completes_received env raw e p d hrec p.senderId t).mpr hcomp) with
      ⟨hyes, b, e', hrun⟩ | ⟨hno, x, e', hrun, hgone, _⟩
    · rw [hrun]
      refine ⟨fun _ => Or.inl ⟨t, hcomp, hconc.mp hyes⟩, fun _ x e'' heq => ?_⟩
      simp only [reduceCtorEq] at heq
    · -- The ephemeral key was there and is gone.
      have hkey := completes_private e p.senderId t hcomp
      constructor
      · intro hsame
        rw [(hsame x e' hrun).2.1] at hgone
        exact absurd hgone hkey
      · intro hor
        rcases hor with ⟨t', hcomp', hc⟩ | ⟨hnone, _⟩
        · rw [(e.completes_eq _ _ t' t hcomp' hcomp).2] at hconc hno
          exact absurd (hconc.mpr hc) hno
        · exact absurd ⟨t, hcomp⟩ hnone
  · have hno : ¬ ∃ id s, Completes { e with device := d } id s := by
      rintro ⟨id, s, hcomp⟩
      rw [completes_received env raw e p d hrec] at hcomp
      obtain rfl := completes_peer e _ id s hpeer hcomp
      exact hex ⟨s, hcomp⟩
    rcases responder_refuses env p { e with device := d } hstate hno with ⟨x, hrun⟩
    have hseen := Device.received_seen e.device d env raw p hrec hhello
    rw [hrun]
    constructor
    · intro hsame
      refine Or.inr ⟨hex, hseen.mp (fun id => Device.seen_of_sessions _ _ id ?_)⟩
      rw [(hsame x _ rfl).1]
    · intro hor x' e' heq
      rcases hor with ⟨t, hcomp, _⟩ | ⟨_, hnone⟩
      · exact absurd ⟨t, hcomp⟩ hex
      · rw [EStateM.Result.error.injEq] at heq
        rw [← heq.2]
        -- Without a session the packet came in under a pending key.
        cases hrec with
        | hello _ ht => exact absurd ht hhello
        | session s _ _ hget =>
            rw [hnone] at hget
            simp only [reduceCtorEq] at hget
        | pending key => exact ⟨rfl, rfl, rfl, rfl⟩

/-- An authenticated KEY_EXCHANGE of the responder's peer leaves the tables
    alone if it is refused, exactly when it is sound. -/
theorem sameTables_iff_sound (env : Env) (raw : Bytes) (p : Packet) (e : Endpoint C)
    (h : e.device.Aligned) (hstate : e.proto.state = .helloReceived)
    (hparse : Packet.fromBytes env.parseMs raw = .ok p) (htype : p.ptype = .keyExchange)
    (hpeer : e.proto.peerId = some p.senderId) (hauth : e.device.Authentic p) :
    (∀ x e', (processIncoming env raw).run e = .error x e' → e.device.SameTables e'.device) ↔
      e.Sound env p := by
  have hhello : p.ptype ≠ .hello := by
    rw [htype]
    decide
  unfold Device.Authentic at hauth
  unfold Sound
  cases hget : e.device.sessions.get? p.senderId with
  | none =>
      rw [hget] at hauth
      rcases hauth with ⟨key, hkey, hverify⟩
      rw [responder_sameTables env raw p e e.device h hstate hpeer htype
        (.pending p key hparse hhello hget hkey hverify), hget]
      simp only [and_true]
      constructor
      · intro hor t hcomp
        rcases hor with ⟨t', hcomp', hc⟩ | hnone
        · rw [(e.completes_eq _ _ t' t hcomp' hcomp).2]
          exact hc
        · exact absurd ⟨t, hcomp⟩ hnone
      · intro hall
        by_cases hex : ∃ t, e.Completes p.senderId t
        · rcases hex with ⟨t, hcomp⟩
          exact Or.inl ⟨t, hcomp, hall t hcomp⟩
        · exact Or.inr hex
  | some s =>
      rw [hget] at hauth
      by_cases hadmits : s.Admits env.receiveMs p.sequence p.timestampMs
      · rw [responder_sameTables env raw p e _ h hstate hpeer htype
          (.session p s hparse hhello hget hauth hadmits), hget]
        simp only [hadmits, not_true_eq_false, false_or, reduceCtorEq, and_false, or_false]
      · -- The old session refuses it, and nothing has happened.
        simp only [hadmits, not_false_eq_true, true_or, iff_true]
        intro x e' hrun
        rcases processIncoming_cases env raw e with ⟨y, hsame⟩ | ⟨_, q, d, hrec, _⟩
        · rw [hsame, EStateM.Result.error.injEq] at hrun
          rw [← hrun.2]
          exact ⟨rfl, rfl, rfl, rfl⟩
        · have hq := Device.received_parse _ _ _ _ _ hrec
          rw [hparse, Except.ok.injEq] at hq
          subst hq
          cases hrec with
          | hello _ ht => exact absurd ht hhello
          | session t _ _ hget' _ hyes =>
              rw [hget, Option.some.injEq] at hget'
              rw [← hget'] at hyes
              exact absurd hyes hadmits
          | pending key _ _ hnone =>
              rw [hget] at hnone
              simp only [reduceCtorEq] at hnone

end Endpoint

/-- On every reachable host, a KEY_EXCHANGE that is authenticated for the peer
    of a waiting responder leaves the tables of the handshake alone if it is
    refused, exactly when it is sound. -/
theorem handshake_survives_iff (C : Primitives) (identityPrivate : Bytes) (acts : List LifeAct)
    (i : Nat) (env : Env) (raw : Bytes) (p : Packet)
    (hstate : ((Host.after C identityPrivate acts).protocols i).state = .helloReceived)
    (hparse : Packet.fromBytes env.parseMs raw = .ok p) (htype : p.ptype = .keyExchange)
    (hpeer : ((Host.after C identityPrivate acts).protocols i).peerId = some p.senderId)
    (hauth : (Host.after C identityPrivate acts).device.Authentic p) :
    (∀ x e', (Host.after C identityPrivate acts).incoming i env raw = .error x e' →
      (Host.after C identityPrivate acts).device.SameTables e'.device) ↔
    ((Host.after C identityPrivate acts).endpoint i).Sound env p :=
  Endpoint.sameTables_iff_sound env raw p ((Host.after C identityPrivate acts).endpoint i)
    (Device.aligned_of_reachable C identityPrivate acts) hstate hparse htype hpeer hauth

/-- What makes the owner of the key `[1]` wait for a KEY_EXCHANGE of the owner
    of the key `[7]`, and that KEY_EXCHANGE. -/
@[irreducible]
def toyGreeting : List LifeAct × Bytes :=
  let alice := Host.create toyPrimitives [7]
  let bob := Host.create toyPrimitives [1]
  let hello := toyHello alice bob.device.deviceId
  let greeted := alice.step (.initiate 0 toyEnv bob.device.deviceId)
  ([.act (.processIncoming 0 toyEnv hello)],
    (greeted.answer 0 toyEnv (bob.answer 0 toyEnv hello).2).2)

/-- The KEY_EXCHANGE is one that the responder waits for. -/
theorem toyGreeting_expected :
    let bob := Host.after toyPrimitives [1] toyGreeting.1
    ∃ p, Packet.fromBytes toyEnv.parseMs toyGreeting.2 = .ok p ∧ p.ptype = .keyExchange ∧
      (bob.protocols 0).state = .helloReceived ∧ (bob.protocols 0).peerId = some p.senderId ∧
      bob.device.Authentic p := by
  intro bob
  have hfacts : (bob.protocols 0).state = .helloReceived ∧
      ∃ p ∈ (Packet.fromBytes toyEnv.parseMs toyGreeting.2).toOption,
      p.ptype = .keyExchange ∧ (bob.protocols 0).peerId = some p.senderId ∧
      bob.device.sessions.get? p.senderId = none ∧
      ∃ key ∈ bob.device.pendingPeerKeys.get? p.senderId,
        CryptoEngine.verifyPacket toyPrimitives key p = .ok true := by
    decide +kernel
  rcases hfacts with ⟨hwaits, p, hp, htype, hpeer, hnone, key, hkey, hverify⟩
  refine ⟨p, ?_, htype, hwaits, hpeer, ?_⟩
  · cases hparse : Packet.fromBytes toyEnv.parseMs toyGreeting.2 with
    | error x =>
        rw [hparse] at hp
        simp only [Except.toOption, Option.mem_def, reduceCtorEq] at hp
    | ok q =>
        rw [hparse] at hp
        simp only [Except.toOption, Option.mem_def, Option.some.injEq] at hp
        rw [hp]
  · unfold Device.Authentic
    rw [hnone]
    exact ⟨key, hkey, hverify⟩

/-- A KEY_EXCHANGE in time is sound. -/
theorem handshake_survives_toyGreeting :
    ∃ p, Packet.fromBytes toyEnv.parseMs toyGreeting.2 = .ok p ∧
      ((Host.after toyPrimitives [1] toyGreeting.1).endpoint 0).Sound toyEnv p := by
  rcases toyGreeting_expected with ⟨p, hparse, htype, hstate, hpeer, hauth⟩
  have hiff := handshake_survives_iff toyPrimitives [1] toyGreeting.1 0 toyEnv toyGreeting.2 p
    hstate hparse htype hpeer hauth
  refine ⟨p, hparse, hiff.mp ?_⟩
  intro x e' hrun
  have hreturns : ((Host.after toyPrimitives [1] toyGreeting.1).incoming 0 toyEnv
      toyGreeting.2).returned ≠ none := by
    decide +kernel
  rw [hrun] at hreturns
  exact absurd rfl hreturns

/-- The clock forty seconds later. -/
def lateEnv : Env :=
  { toyEnv with
    receiveMs := 41000
    confirmMs := 41000
    buildMs := 41000
    buildMs_ne := by decide }

/-- A KEY_EXCHANGE that comes too late is refused, takes the ephemeral keys with
    it, and then one that is in time is refused as well. -/
theorem late_keyExchange_ends_handshake :
    let bob := Host.after toyPrimitives [1] toyGreeting.1
    (∃ p, Packet.fromBytes lateEnv.parseMs toyGreeting.2 = .ok p ∧ p.ptype = .keyExchange ∧
      (bob.protocols 0).state = .helloReceived ∧ (bob.protocols 0).peerId = some p.senderId ∧
      bob.device.Authentic p) ∧
    (¬ ∀ x e', bob.incoming 0 lateEnv toyGreeting.2 = .error x e' →
      bob.device.SameTables e'.device) ∧
    ((bob.step (.processIncoming 0 lateEnv toyGreeting.2)).incoming 0 toyEnv
      toyGreeting.2).returned = none := by
  intro bob
  have hrun : (bob.incoming 0 lateEnv toyGreeting.2).returned = none ∧
      (bob.incoming 0 lateEnv toyGreeting.2).final.device.ephemeralPrivate
        ≠ bob.device.ephemeralPrivate ∧
      ((bob.step (.processIncoming 0 lateEnv toyGreeting.2)).incoming 0 toyEnv
        toyGreeting.2).returned = none := by
    decide +kernel
  rcases hrun with ⟨hraised, hne, hrefused⟩
  refine ⟨toyGreeting_expected, fun hsame => ?_, hrefused⟩
  rcases EStateM.Result.error_of_returned hraised with ⟨x, hx⟩
  exact hne (hsame x _ hx).2.1

end Ztlnp

import Ztlnp.Theory.Handshake

/-!
# Starting Over

What a new handshake between two devices depends on, when both may still hold
whatever earlier ones have left behind.

A protocol in a terminal state tells its user to make a new one. The new one
starts from fresh fields, but the device under it does not. Leftover
ephemeral keys do no harm, because both sides reuse what they have and the
HELLOs say which (`handshake_opens`). A leftover session does. The responder
registers the key of the HELLO as pending, so that the KEY_EXCHANGE can be
verified before there is a session; but reception looks for a session first,
finds the old one, and runs its replay check on a number that starts again at
zero.

`rehandshake_iff` says exactly when the new handshake goes through: the
responder holds no session for the initiator, or one that has the
initiator's key and would still admit the number zero. A session that has
completed a handshake as responder has seen the number zero, so the second
handshake in a row already fails.

## Main definitions

* `Readings`: What the five calls of a handshake read from outside.
* `handshake`: The five calls, with every message delivered in order.
* `Restarts`: No call raises and both ends are established under one pair of
  keys.
* `Receptive`: The responder's old session, if any, is no obstacle.
* `Device.after`: A device that has had a life.

## Theorems

* `handshake_opens`: The first three calls always succeed.
* `confirmation_received_iff`: When the responder receives the confirmation.
* `confirmation_establishes`, `confirmationBack_establishes`: Once it does, the
  last two calls succeed.
* `rehandshake_iff`: When a new handshake completes.
-/

namespace Ztlnp

variable {C : Primitives}

/-- What the five calls of a handshake read from outside, in their order. -/
structure Readings where
  initiate : Env
  hello : Env
  helloBack : Env
  keyExchange : Env
  keyExchangeBack : Env

/-- The clocks of the two devices are within the permitted skew wherever one
    of them checks a time of the other, and none has left the header's range. -/
structure Readings.Close (env : Readings) : Prop where
  initiate : env.initiate.buildMs < 256 ^ 8
  hello : env.hello.buildMs < 256 ^ 8
  helloBack : env.helloBack.buildMs < 256 ^ 8
  keyExchange : env.keyExchange.buildMs < 256 ^ 8
  received : Session.Timely env.keyExchange.receiveMs env.helloBack.buildMs
  confirmed : Session.Timely env.keyExchange.confirmMs env.helloBack.buildMs
  receivedBack : Session.Timely env.keyExchangeBack.receiveMs env.keyExchange.buildMs

/-- The value and the endpoint of a call that returned, or its exception. -/
def called {α : Type} : EStateM.Result Exn (Endpoint C) α → Except Exn (α × Endpoint C)
  | .ok a e => .ok (a, e)
  | .error x _ => .error x

/-- A message is delivered, if there is one. -/
def delivered (env : Env) (raw : Option Bytes) (e : Endpoint C) :
    Except Exn (Option Bytes × Endpoint C) :=
  match raw with
  | none => .ok (none, e)
  | some raw => called ((Endpoint.processIncoming env raw).run e)

/-- The five calls of a handshake: the first device initiates, and every
    message is handed to the other side. The first exception ends it. -/
def handshake (env : Readings) (a b : Endpoint C) : Except Exn (Endpoint C × Endpoint C) := do
  let (hello, a) ← called ((Endpoint.initiate env.initiate b.device.deviceId).run a)
  let (helloBack, b) ← delivered env.hello (some hello) b
  let (keyExchange, a) ← delivered env.helloBack helloBack a
  let (keyExchangeBack, b) ← delivered env.keyExchange keyExchange b
  let (_, a) ← delivered env.keyExchangeBack keyExchangeBack a
  return (a, b)

/-- A handshake of fresh protocols on the two devices goes through: no call
    raises, and both ends are established under one pair of keys. -/
def Restarts (env : Readings) (a b : Device C) : Prop :=
  ∃ a' b' s t, handshake env ⟨{}, a⟩ ⟨{}, b⟩ = .ok (a', b') ∧
    a'.proto.state = .established ∧ b'.proto.state = .established ∧
    a'.device.sessions.get? b.deviceId = some s ∧ b'.device.sessions.get? a.deviceId = some t ∧
    s.sessionKey = t.sessionKey ∧ s.macKey = t.macKey

/-- Any session that the responder still holds for the initiator has the
    initiator's key and has room for the number zero. -/
def Receptive (a b : Device C) : Prop :=
  ∀ s, b.sessions.get? a.deviceId = some s →
    s.peerEd25519Public = a.identityPublicBytes ∧ 0 ∉ s.peerSeqWindow ∧
      s.peerMaxSeq < replayWindow

/-- A session admits the number zero exactly when it has not seen it and has
    not moved on. -/
theorem Session.admits_zero (s : Session) (nowMs timestampMs : Nat)
    (htime : Session.Timely nowMs timestampMs) :
    s.Admits nowMs 0 timestampMs ↔ 0 ∉ s.peerSeqWindow ∧ s.peerMaxSeq < replayWindow := by
  have hedge : ¬ ((0 : Nat) : Int) ≤ (s.peerMaxSeq : Int) - replayWindow ↔
      s.peerMaxSeq < replayWindow := by
    omega
  unfold Session.Admits
  constructor
  · intro h
    exact ⟨h.2.1, hedge.mp h.2.2⟩
  · intro h
    exact ⟨htime, h.1, hedge.mpr h.2⟩

/-- A session that was just made admits the number zero. -/
theorem Session.fresh_admits (s : Session) (nowMs timestampMs : Nat)
    (htime : Session.Timely nowMs timestampMs)
    (hmax : s.peerMaxSeq = 0) (hwin : s.peerSeqWindow = ∅) : s.Admits nowMs 0 timestampMs := by
  rw [s.admits_zero nowMs timestampMs htime, hmax, hwin]
  exact ⟨Finset.notMem_empty 0, by decide⟩

/-- The initiator after its HELLO. -/
structure Greeting (a b : Device C) (k : Bytes) (e : Endpoint C) : Prop where
  state : e.proto.state = .helloSent
  aligned : e.device.Aligned
  identityPrivate : e.device.identityPrivate = a.identityPrivate
  ephemeral : e.device.ephemeralPrivate.get? b.deviceId = some k

/-- The responder after the two HELLOs. -/
structure Answered (a b : Device C) (k k' : Bytes) (e : Endpoint C) : Prop where
  state : e.proto.state = .helloReceived
  met : e.proto.Met a k
  aligned : e.device.Aligned
  identityPrivate : e.device.identityPrivate = b.identityPrivate
  sessions : e.device.sessions = b.sessions
  ephemeral : e.device.ephemeralPrivate.get? a.deviceId = some k'
  pending : e.device.pendingPeerKeys.get? a.deviceId = some a.identityPublicBytes

/-- The initiator once it has sent its confirmation. -/
structure Keyed (b : Device C) (s : Session) (e : Endpoint C) : Prop where
  state : e.proto.state = .keyExchangeSent
  peerId : e.proto.peerId = some b.deviceId
  session : e.device.sessions.get? b.deviceId
    = some { s with localSequence := s.localSequence + 1 }

/-- A fresh protocol greets the peer. -/
theorem initiate_greets (env : Env) (a b : Device C) (ha : a.Aligned)
    (hms : env.buildMs < 256 ^ 8) :
    ∃ k raw p e, HelloFor a k raw p ∧ Greeting a b k e ∧
      (Endpoint.initiate env b.deviceId).run ⟨{}, a⟩ = .ok raw e := by
  rcases Endpoint.initiate_cases env b.deviceId ⟨{}, a⟩ ha rfl with
    ⟨_, p, raw, hp, hrun⟩ | ⟨hfit, _⟩
  · exact ⟨_, raw, p, _, hp, ⟨rfl, a.aligned_withEphemeral env b.deviceId ha,
      a.withEphemeral_identityPrivate env b.deviceId,
      a.withEphemeral_private env b.deviceId⟩, hrun⟩
  · exact absurd ⟨b.deviceId_length, hms⟩ hfit

/-- A fresh protocol answers the greeting. -/
theorem hello_answered (env : Env) (a b : Device C) (k raw : Bytes) (p : Packet)
    (hb : b.Aligned) (hms : env.buildMs < 256 ^ 8) (hp : HelloFor a k raw p) :
    ∃ k' raw' q e, HelloFor b k' raw' q ∧ Answered a b k k' e ∧
      (Endpoint.processIncoming env raw).run ⟨{}, b⟩ = .ok (some raw') e := by
  rw [hp.processIncoming_run env ⟨{}, b⟩ .idle rfl (by decide)]
  rcases Endpoint.handleHello_idle_cases env p ⟨{}, b⟩ hb hp.payload_length rfl with
    ⟨_, q, raw', hq, hrun⟩ | ⟨hfit, _⟩
  · refine ⟨_, raw', q, _, hq, ⟨rfl, ?_, ?_, ?_, ?_, ?_, ?_⟩, hrun⟩
    · exact ⟨(hp.met {}).peerId, (hp.met {}).peerEd25519Pub, (hp.met {}).peerX25519Pub⟩
    · exact b.aligned_withEphemeral env p.senderId hb
    · exact b.withEphemeral_identityPrivate env p.senderId
    · exact b.withEphemeral_sessions env p.senderId
    · rw [← hp.senderId]
      exact b.withEphemeral_private env p.senderId
    · simp only [Device.withPending, hp.senderId, hp.take_payload, Dict.get?_set_self]
  · rw [hp.senderId] at hfit
    exact absurd ⟨a.deviceId_length, hms⟩ hfit

/-- The initiator answers the responder's HELLO with a confirmation. -/
theorem helloBack_keyed (env : Env) (a b : Device C) (k k' raw : Bytes) (q : Packet)
    (e : Endpoint C) (hms : env.buildMs < 256 ^ 8) (he : Greeting a b k e)
    (hq : HelloFor b k' raw q) :
    ∃ s raw' p e', s.Shares C k k' a.deviceId b.deviceId ∧ s.FreshFor b ∧
      ConfirmationFor a env s.sessionKey raw' p ∧ Keyed b s e' ∧
      (Endpoint.processIncoming env raw).run e = .ok (some raw') e' := by
  rw [hq.processIncoming_run env e .helloSent he.state (by decide)]
  rcases e.device.exchangedSession_shares b.deviceId b.identityPublicBytes k k' true he.ephemeral
    b.deviceId_length b.publicBytes_length with ⟨s, hex, hshares⟩
  rw [if_pos rfl, if_pos rfl, (a.identity_eq e.device he.identityPrivate).2] at hshares
  -- The exchange of the handler is this one.
  have hcases := Endpoint.handleHello_helloSent_cases env q e he.aligned hq.payload_length he.state
  simp only [hq.senderId, hq.take_payload, hq.field_payload, hex, reduceCtorEq, false_and,
    exists_false, false_or, Except.ok.injEq, exists_eq_left'] at hcases
  rcases hcases with ⟨_, p, raw', hp, hrun⟩ | ⟨hfit, _⟩
  · refine ⟨s, raw', p, _, hshares, e.device.exchangedSession_fresh b _ _ s hex,
      hp.of_identity he.identityPrivate, ⟨rfl, (hq.met e.proto).peerId, ?_⟩, hrun⟩
    exact Dict.get?_set_self _ _ _
  · exact absurd ⟨b.deviceId_length, hms⟩ hfit

/-- The first three calls of a handshake always succeed, whatever the two
    devices hold. -/
theorem handshake_opens (env : Readings) (a b : Device C) (ha : a.Aligned) (hb : b.Aligned)
    (hclose : env.Close) :
    ∃ k k' s raw p e e', Answered a b k k' e ∧ Keyed b s e' ∧
      s.Shares C k k' a.deviceId b.deviceId ∧ s.FreshFor b ∧
      ConfirmationFor a env.helloBack s.sessionKey raw p ∧
      handshake env ⟨{}, a⟩ ⟨{}, b⟩ = (do
        let (keyExchangeBack, b) ← delivered env.keyExchange (some raw) e
        let (_, a) ← delivered env.keyExchangeBack keyExchangeBack e'
        return (a, b)) := by
  rcases initiate_greets env.initiate a b ha hclose.initiate with ⟨k, hello, p, e₁, hp, he₁, h₁⟩
  rcases hello_answered env.hello a b k hello p hb hclose.hello hp with
    ⟨k', helloBack, q, e₂, hq, he₂, h₂⟩
  rcases helloBack_keyed env.helloBack a b k k' helloBack q e₁ hclose.helloBack he₁ hq with
    ⟨s, raw, c, e₃, hshares, hfresh, hc, he₃, h₃⟩
  refine ⟨k, k', s, raw, c, e₂, e₃, he₂, he₃, hshares, hfresh, hc, ?_⟩
  simp only [handshake, delivered, h₁, h₂, h₃, called, bind, Except.bind]

/-- The responder receives the confirmation exactly when its old session is no
    obstacle. -/
theorem confirmation_received_iff (env env' : Env) (a b : Device C)
    (k k' sessionKey raw : Bytes) (p : Packet) (e : Endpoint C) (he : Answered a b k k' e)
    (hp : ConfirmationFor a env' sessionKey raw p)
    (htime : Session.Timely env.receiveMs env'.buildMs)
    (hsig : ∀ key m, C.ed25519Verify key m (C.ed25519Sign a.identityPrivate m) = true →
      key = a.identityPublicBytes) :
    (∃ r, Device.Received e.device env raw p r) ↔ Receptive a b := by
  have htype : p.ptype ≠ .hello := by
    rw [hp.ptype]
    decide
  have hadmits : ∀ s : Session, s.Admits env.receiveMs p.sequence p.timestampMs ↔
      0 ∉ s.peerSeqWindow ∧ s.peerMaxSeq < replayWindow := by
    intro s
    rw [hp.sequence, hp.timestampMs]
    exact s.admits_zero _ _ htime
  constructor
  · rintro ⟨r, hrec⟩ s hs
    rw [← he.sessions, ← hp.senderId] at hs
    cases hrec with
    | hello _ hello => exact absurd hello htype
    | session t _ _ hget hverify hadm =>
        rw [hs, Option.some.injEq] at hget
        subst hget
        rw [hp.verifies_iff] at hverify
        exact ⟨hp.verifies_only hsig _ s.peerEd25519Public_length hverify, (hadmits s).mp hadm⟩
    | pending _ _ _ hget =>
        rw [hs] at hget
        simp only [reduceCtorEq] at hget
  · intro h
    cases hget : b.sessions.get? a.deviceId with
    | none =>
        -- No session: the pending key of the HELLO is the right one.
        rw [← he.sessions, ← hp.senderId] at hget
        have hkey := he.pending
        rw [← hp.senderId] at hkey
        exact ⟨_, .pending p _ (hp.parses _) htype hget hkey hp.verifies⟩
    | some s =>
        rcases h s hget with ⟨hed, hzero⟩
        rw [← he.sessions, ← hp.senderId] at hget
        refine ⟨_, .session p s (hp.parses _) htype hget ?_ ((hadmits s).mpr hzero)⟩
        rw [hp.verifies_iff, hed]
        exact hp.verifies

/-- The responder is established by the confirmation it received, and sends
    its own. -/
theorem confirmation_establishes (env env' : Env) (a b r : Device C) (k k' raw : Bytes)
    (p : Packet) (s : Session) (e : Endpoint C) (he : Answered a b k k' e)
    (hshares : s.Shares C k k' a.deviceId b.deviceId)
    (hp : ConfirmationFor a env' s.sessionKey raw p) (hms : env.buildMs < 256 ^ 8)
    (htime : Session.Timely env.confirmMs env'.buildMs)
    (hrec : Device.Received e.device env raw p r) :
    ∃ t raw' q e', t.sessionKey = s.sessionKey ∧ t.macKey = s.macKey ∧
      ConfirmationFor b env s.sessionKey raw' q ∧ e'.proto.state = .established ∧
      e'.device.sessions.get? a.deviceId = some t ∧
      (Endpoint.processIncoming env raw).run e = .ok (some raw') e' := by
  rw [hp.processIncoming_run env e .helloReceived he.state (by decide) hrec]
  rcases Device.received_tables _ r _ _ _ hrec with ⟨hpriv, hephem, _⟩
  have hid : r.identityPrivate = b.identityPrivate := hpriv.trans he.identityPrivate
  have hkey : r.ephemeralPrivate.get? a.deviceId = some k' := by
    rw [hephem]
    exact he.ephemeral
  -- The exchange that the responder completes has the initiator's keys.
  rcases Endpoint.completes_of_met { e with device := r } a k k' he.met hkey with
    ⟨t, hcomp, htshares, htfresh⟩
  have hrb : ({ e with device := r } : Endpoint C).device.deviceId = b.deviceId :=
    (b.identity_eq r hid).2
  rw [hrb] at htshares
  rcases htshares.keys_eq hshares with ⟨hsk, hmk⟩
  have hadmits : t.Admits env.confirmMs p.sequence p.timestampMs := by
    rw [hp.sequence, hp.timestampMs]
    exact t.fresh_admits _ _ htime htfresh.peerMaxSeq htfresh.peerSeqWindow
  have hplain : (r.installed a.deviceId (t.recorded p.sequence)).Decrypts p keyExchangeOk := by
    refine ⟨t.recorded p.sequence, ?_, ?_⟩
    · rw [hp.senderId]
      exact Endpoint.installed_get?_self r a.deviceId _
    · rw [(t.recorded_fixed p.sequence).2.2.1, hsk]
      exact hp.decrypts s.sessionKey_length
  rcases Endpoint.handleKeyExchange_confirms env p { e with device := r } a.deviceId t
    (Device.received_aligned _ r _ _ _ hrec he.aligned) he.state hcomp hadmits hplain with
    ⟨_, q, raw', hq, hrun⟩ | ⟨hfit, _⟩
  · rw [hsk] at hq
    refine ⟨_, raw', q, _, ?_, ?_, hq.of_identity hid, rfl, Dict.get?_set_self _ _ _, hrun⟩
    · exact hsk
    · exact hmk
  · exact absurd ⟨a.deviceId_length, hms⟩ hfit

/-- The initiator is established by the responder's confirmation. -/
theorem confirmationBack_establishes (env env' : Env) (b : Device C) (raw : Bytes) (q : Packet)
    (s : Session) (e : Endpoint C) (he : Keyed b s e) (hfresh : s.FreshFor b)
    (hq : ConfirmationFor b env' s.sessionKey raw q)
    (htime : Session.Timely env.receiveMs env'.buildMs) :
    ∃ t e', t.sessionKey = s.sessionKey ∧ t.macKey = s.macKey ∧
      e'.proto.state = .established ∧ e'.device.sessions.get? b.deviceId = some t ∧
      (Endpoint.processIncoming env raw).run e = .ok none e' := by
  have htype : q.ptype ≠ .hello := by
    rw [hq.ptype]
    decide
  have hget := he.session
  rw [← hq.senderId] at hget
  -- The session of the exchange is in place, and has received nothing yet.
  have hrec := Device.Received.session q _ (hq.parses env.parseMs) htype hget
    ((hq.verifies_iff _).mpr (by rw [hfresh.peerEd25519Public]; exact hq.verifies))
    (by
      rw [hq.sequence, hq.timestampMs]
      exact Session.fresh_admits _ _ _ htime hfresh.peerMaxSeq hfresh.peerSeqWindow)
  rw [hq.processIncoming_run env e .keyExchangeSent he.state (by decide) hrec]
  have hanswered := fun r : Device C =>
    Endpoint.handleKeyExchange_answered env q { e with device := r } he.state
  rw [hanswered]
  · refine ⟨({ s with localSequence := s.localSequence + 1 } : Session).recorded q.sequence, _,
      rfl, rfl, rfl, ?_, rfl⟩
    rw [hq.senderId]
    exact Dict.get?_set_self _ _ _
  · refine ⟨⟨q.senderId, _, ?_, Dict.get?_set_self _ _ _⟩, _, Dict.get?_set_self _ _ _,
      hq.decrypts s.sessionKey_length⟩
    rw [hq.senderId]
    exact he.peerId

/-- A device as a life under its methods has left it. -/
def Device.after (C : Primitives) (identityPrivate : Bytes) (life : List LifeAct) : Device C :=
  (life.foldl Host.live (Host.create C identityPrivate)).device

/-- A new handshake between two devices goes through exactly when the responder
    holds no session for the initiator, or one under the initiator's key with
    room for the number zero. The signatures of the initiator are assumed to
    verify under its own key only. -/
theorem rehandshake_iff (C : Primitives) (privA privB : Bytes) (lifeA lifeB : List LifeAct)
    (env : Readings) (hclose : env.Close)
    (hsig : ∀ key m, C.ed25519Verify key m
        (C.ed25519Sign (Device.after C privA lifeA).identityPrivate m) = true →
      key = (Device.after C privA lifeA).identityPublicBytes) :
    Restarts env (Device.after C privA lifeA) (Device.after C privB lifeB) ↔
      Receptive (Device.after C privA lifeA) (Device.after C privB lifeB) := by
  have ha : (Device.after C privA lifeA).Aligned := Device.aligned_of_reachable C privA lifeA
  have hb : (Device.after C privB lifeB).Aligned := Device.aligned_of_reachable C privB lifeB
  generalize Device.after C privA lifeA = a at ha hsig
  generalize Device.after C privB lifeB = b at hb
  rcases handshake_opens env a b ha hb hclose with
    ⟨k, k', s, raw, p, e, e', he, he', hshares, hfresh, hp, hrun⟩
  have hreceived := confirmation_received_iff env.keyExchange env.helloBack a b k k' _ raw p e he
    hp hclose.received hsig
  constructor
  · rintro ⟨a', b', _, _, hdone, _⟩
    rw [hrun] at hdone
    -- A call that did not raise has received its packet.
    rcases Endpoint.processIncoming_cases env.keyExchange raw e with ⟨x, hx⟩ |
      ⟨_, q, r, hrec, _⟩
    · simp only [delivered, hx, called, bind, Except.bind, reduceCtorEq] at hdone
    · rw [hp.received_eq hrec] at hrec
      exact hreceived.mp ⟨r, hrec⟩
  · intro h
    rcases hreceived.mpr h with ⟨r, hrec⟩
    rcases confirmation_establishes env.keyExchange env.helloBack a b r k k' raw p s e he hshares
      hp hclose.keyExchange hclose.confirmed hrec with
      ⟨t, raw', q, e₄, hsk, hmk, hq, hest, hget, h₄⟩
    rcases confirmationBack_establishes env.keyExchangeBack env.keyExchange b raw' q s e' he'
      hfresh hq hclose.receivedBack with ⟨u, e₅, husk, humk, hest', hget', h₅⟩
    refine ⟨e₅, e₄, u, t, ?_, hest', hest, hget', hget, ?_, ?_⟩
    · rw [hrun]
      simp only [delivered, h₄, h₅, called, bind, Except.bind, pure, Except.pure]
    · rw [husk, hsk]
    · rw [humk, hmk]

/-- The same fixed readings for all five calls. -/
def toyReadings : Readings := ⟨toyEnv, toyEnv, toyEnv, toyEnv, toyEnv⟩

theorem toyReadings_close : toyReadings.Close := by
  constructor <;> decide

/-- A responder that exchanged keys with an owner of the key `[7]` and has
    received nothing since. -/
def unusedSession : List LifeAct :=
  let peer := Device.create toyPrimitives [7]
  [.generateEphemeralKeypair toyEnv peer.deviceId,
    .completeKeyExchange peer.deviceId peer.identityPublicBytes (toyPrimitives.x25519Public [3])
      false]

/-- A session that has received nothing is no obstacle. -/
theorem rehandshake_over_unusedSession :
    ((Device.after toyPrimitives [1] unusedSession).sessions.get?
      (Device.after toyPrimitives [7] []).deviceId).isSome ∧
    Restarts toyReadings (Device.after toyPrimitives [7] [])
      (Device.after toyPrimitives [1] unusedSession) := by
  refine ⟨by decide +kernel, (rehandshake_iff toyPrimitives [7] [1] [] unusedSession toyReadings
    toyReadings_close ?_).mpr ?_⟩
  · -- A toy signature starts with the key it verifies under.
    intro key m hv
    exact (List.append_cancel_right (of_decide_eq_true hv)).symm
  · intro s hs
    have hold : ∀ t ∈ (Device.after toyPrimitives [1] unusedSession).sessions.get?
        (Device.after toyPrimitives [7] []).deviceId,
        t.peerEd25519Public = (Device.after toyPrimitives [7] []).identityPublicBytes ∧
          0 ∉ t.peerSeqWindow ∧ t.peerMaxSeq < replayWindow := by
      decide +kernel
    exact hold s hs

/-- What the responder hears in a handshake under the toy primitives. -/
def toyResponse (initiator responder : Host toyPrimitives) : List LifeAct :=
  let hello := toyHello initiator responder.device.deviceId
  let greeted := initiator.step (.initiate 0 toyEnv responder.device.deviceId)
  let keyExchange := (greeted.answer 0 toyEnv (responder.answer 0 toyEnv hello).2).2
  [.act (.processIncoming 0 toyEnv hello), .act (.processIncoming 0 toyEnv keyExchange)]

/-- The kind of the exception, if there was one. -/
def raisedKind {α : Type} : Except Exn α → Option ErrorKind
  | .ok _ => none
  | .error x => some x.kind

/-- The second handshake in a row is taken for a replay of the first. -/
theorem second_handshake_raises :
    let alice := Host.create toyPrimitives [7]
    let bob := Host.create toyPrimitives [1]
    let a := Device.after toyPrimitives [7] ((toyInitiation alice bob 0 0).map .act)
    let b := Device.after toyPrimitives [1] (toyResponse alice bob)
    toyReadings.Close ∧
      raisedKind (handshake toyReadings ⟨{}, a⟩ ⟨{}, b⟩) = some .replayAttackError ∧
      ¬ Restarts toyReadings a b := by
  intro alice bob a b
  have hraised : raisedKind (handshake toyReadings ⟨{}, a⟩ ⟨{}, b⟩) = some .replayAttackError := by
    decide +kernel
  refine ⟨toyReadings_close, hraised, ?_⟩
  rintro ⟨_, _, _, _, hdone, _⟩
  rw [hdone] at hraised
  simp only [raisedKind, reduceCtorEq] at hraised

end Ztlnp

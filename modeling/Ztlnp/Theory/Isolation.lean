import Ztlnp.Theory.Peer

/-!
# Packets of Other Peers

What a packet of one peer does to a protocol that talks to another.

The device authenticates and decrypts by the sender field of the packet, and
the protocol decides by its own state. Nothing compares the sender with the
protocol's peer, so a packet that another peer of the same device may send is
taken for one of the protocol's own. `Isolates` lists, type by type and state
by state, when that does no harm, and `cross_peer_isolation` says the list is
exact.

An ERROR ends any machine that is not done, and a BYE an established one. A
DATA packet is handed up if it decrypts under the sender's own session. A
KEY_EXCHANGE confirms an initiator if it decrypts to the confirmation under
the sender's session; in a responder it completes the exchange with the
protocol's peer whoever sent it, and overwrites that peer's session even when
the confirmation then fails.

## Main definitions

* `Endpoint.Isolated`: The packet changes neither the state nor the peer's
  session, and yields no plaintext.
* `Endpoint.Spared`: Completing the exchange stores the session that is
  already there, and the confirmation fails.
* `Endpoint.Isolates`: When the packet does no harm.

## Theorems

* `received_frame`: What reception leaves alone.
* `receiveData_returns`: When a packet yields a plaintext.
* `outcome_undisturbed`: When a handler leaves the state and the peer's
  session alone.
* `cross_peer_isolation`: A packet of another peer does no harm exactly when
  `Isolates` says so; and a packet of the peer establishes the protocol only
  if it decrypts under the peer's session.
* `foreign_bye_closes`: A BYE of another peer closes an established protocol.
-/

namespace Ztlnp

variable {C : Primitives}

/-- Reception writes at most the session of the sender, and there only the
    replay window. -/
theorem received_frame (d d' : Device C) (env : Env) (raw : Bytes) (p : Packet)
    (hrec : Device.Received d env raw p d') :
    (∀ id, p.senderId ≠ id → d'.sessions.get? id = d.sessions.get? id) ∧
    d'.ephemeralPublic = d.ephemeralPublic ∧
    (∀ id ed x b, d'.exchangedSession id ed x b = d.exchangedSession id ed x b) ∧
    (∀ plaintext, d'.Decrypts p plaintext ↔ d.Decrypts p plaintext) := by
  cases hrec with
  | hello => exact ⟨fun _ _ => rfl, rfl, fun _ _ _ _ => rfl, fun _ => Iff.rfl⟩
  | pending => exact ⟨fun _ _ => rfl, rfl, fun _ _ _ _ => rfl, fun _ => Iff.rfl⟩
  -- Only the window of the stored session changes, and no key that decrypts is in it.
  | session s _ _ hget =>
      refine ⟨fun id hne => Dict.get?_set_ne _ _ hne.symm, rfl, fun _ _ _ _ => rfl,
        fun plaintext => ?_⟩
      simp only [Device.Decrypts, Dict.get?_set_self, hget, Option.some.injEq, exists_eq_left',
        Session.recorded]

namespace Endpoint

/-- The packet changes neither the state of the protocol nor the session of
    its peer, does not establish it, and is not handed up as data. -/
def Isolated (e : Endpoint C) (env : Env) (raw X : Bytes) : Prop :=
  ((processIncoming env raw).run e).final.proto.state = e.proto.state ∧
  ((processIncoming env raw).run e).final.device.sessions.get? X = e.device.sessions.get? X ∧
  (((processIncoming env raw).run e).final.proto.state = .established →
    e.proto.state = .established) ∧
  ∀ plaintext e', (receiveData env raw).run e ≠ .ok plaintext e'

/-- Completing the exchange with the protocol's peer would store the session
    that is already stored, and the packet does not confirm it. -/
def Spared (e : Endpoint C) (env : Env) (X : Bytes) (p : Packet) : Prop :=
  ∀ s, e.Completes X s →
    ((e.device.ephemeralPublic.get? X = none ∨
      ¬ s.Admits env.confirmMs p.sequence p.timestampMs) ∧
        e.device.sessions.get? X = some s) ∨
    (¬ e.device.Decrypts p keyExchangeOk ∧ e.device.ephemeralPublic.get? X ≠ none ∧
      s.Admits env.confirmMs p.sequence p.timestampMs ∧
        e.device.sessions.get? X = some (s.recorded p.sequence))

/-- When the handler of a packet leaves the state and the peer's session
    alone. -/
structure Undisturbed (e : Endpoint C) (env : Env) (X : Bytes) (p : Packet) : Prop where
  error : p.ptype ≠ .error
  bye : p.ptype = .bye → e.proto.state ≠ .established
  initiator : p.ptype = .keyExchange → e.proto.state = .keyExchangeSent →
    ¬ (e.device.sessions.get? X ≠ none ∧ e.device.Decrypts p keyExchangeOk)
  responder : p.ptype = .keyExchange → e.proto.state = .helloReceived → e.Spared env X p

/-- When a packet of another peer does no harm. -/
def Isolates (e : Endpoint C) (env : Env) (X : Bytes) (p : Packet) : Prop :=
  e.proto.Terminal ∨
    (e.Undisturbed env X p ∧
      (p.ptype = .data → e.proto.state = .established →
        ∀ plaintext, ¬ e.device.Decrypts p plaintext))

/-- A received packet is handed up exactly when the protocol is established,
    the packet is DATA and it decrypts. -/
theorem receiveData_returns (env : Env) (raw : Bytes) (e : Endpoint C) (p : Packet)
    (d : Device C) (hrec : Device.Received e.device env raw p d) :
    (∃ plaintext e', (receiveData env raw).run e = .ok plaintext e') ↔
      e.proto.state = .established ∧ p.ptype = .data ∧
        ∃ plaintext, e.device.Decrypts p plaintext := by
  have hdec := (received_frame e.device d env raw p hrec).2.2.2
  simp only [receiveData, EStateM.run_bind]
  rcases requireEstablished_cases e with ⟨hest, hreq⟩ | ⟨hest, x, hreq⟩
  · rw [hreq]
    simp only [run_onDevice, Device.receivePacket_of_received env raw e.device d p hrec]
    by_cases hdata : p.ptype = .data
    · -- A DATA packet is handed up or refused by decryption alone.
      simp only [hdata, ne_eq, not_true_eq_false, if_false, run_onDevice]
      constructor
      · rintro ⟨plaintext, e', hrun⟩
        cases hd : (Device.decryptPacket p).run d with
        | error x d' =>
            rw [hd] at hrun
            simp only [reduceCtorEq] at hrun
        | ok q d' =>
            have hq := ((Device.decryptPacket_eq_ok p d d' q).mp hd).1
            exact ⟨hest, trivial, q, (hdec q).mp hq⟩
      · rintro ⟨_, _, plaintext, hp⟩
        have hd := (Device.decryptPacket_eq_ok p d d plaintext).mpr ⟨(hdec plaintext).mpr hp, rfl⟩
        exact ⟨plaintext, _, by rw [hd]⟩
    · -- Any other type is refused after reception.
      simp only [ne_eq, hdata, not_false_eq_true, if_true, false_and, and_false, iff_false,
        not_exists]
      intro plaintext e' hrun
      cases hrun
  · rw [hreq]
    simp only [hest, false_and, iff_false, not_exists, reduceCtorEq, not_false_eq_true,
      implies_true]

/-- The remembered exchange is with the protocol's peer. -/
theorem completes_peer (e : Endpoint C) (X id : Bytes) (s : Session)
    (hpeer : e.proto.peerId = some X) (hcomp : e.Completes id s) : X = id := by
  rcases hcomp with ⟨_, _, h, _⟩
  exact Option.some.inj (hpeer.symm.trans h)

/-- A packet that is none of the types the conditions speak of disturbs
    nothing. -/
theorem undisturbed_of_type (e : Endpoint C) (env : Env) (X : Bytes) (p : Packet)
    (herror : p.ptype ≠ .error) (hbye : p.ptype ≠ .bye) (hkex : p.ptype ≠ .keyExchange) :
    e.Undisturbed env X p :=
  ⟨herror, fun h => absurd h hbye, fun h => absurd h hkex, fun h => absurd h hkex⟩

/-- A KEY_EXCHANGE of another peer. -/
theorem keyExchange_undisturbed (env : Env) (p : Packet) (e : Endpoint C)
    (r : EStateM.Result Exn (Endpoint C) (Option Bytes)) (X : Bytes)
    (hpeer : e.proto.peerId = some X) (hne : p.senderId ≠ X) (htype : p.ptype = .keyExchange)
    (hout : KeyExchangeOutcome env p e r) :
    (r.final.proto.state = e.proto.state ∧
      r.final.device.sessions.get? X = e.device.sessions.get? X) ↔ e.Undisturbed env X p := by
  have herror : p.ptype ≠ .error := by simp only [htype, ne_eq, reduceCtorEq, not_false_eq_true]
  have hbye : p.ptype ≠ .bye := by simp only [htype, ne_eq, reduceCtorEq, not_false_eq_true]
  -- In one state only one of the two clauses about a KEY_EXCHANGE speaks.
  have hresponder : e.proto.state = .helloReceived →
      (e.Undisturbed env X p ↔ e.Spared env X p) := fun hstate =>
    ⟨fun h => h.responder htype hstate, fun h => ⟨herror, fun hb => absurd hb hbye,
      fun _ hk => by simp only [hstate, reduceCtorEq] at hk, fun _ _ => h⟩⟩
  have hinitiator : e.proto.state = .keyExchangeSent → (e.Undisturbed env X p ↔
      ¬ (e.device.sessions.get? X ≠ none ∧ e.device.Decrypts p keyExchangeOk)) := fun hstate =>
    ⟨fun h => h.initiator htype hstate, fun h => ⟨herror, fun hb => absurd hb hbye,
      fun _ _ => h, fun _ hr => by simp only [hstate, reduceCtorEq] at hr⟩⟩
  -- The initiator asks for a session with its own peer, but decrypts with the session of the
  -- sender.
  have hconfirmed : e.Confirmed p ↔
      (e.device.sessions.get? X ≠ none ∧ e.device.Decrypts p keyExchangeOk) := by
    simp only [Confirmed, hpeer, Option.some.injEq, ne_eq, Option.ne_none_iff_exists']
    exact ⟨fun ⟨⟨_, s, hid, hs⟩, hd⟩ => ⟨⟨s, hid ▸ hs⟩, hd⟩,
      fun ⟨⟨s, hs⟩, hd⟩ => ⟨⟨X, s, rfl, hs⟩, hd⟩⟩
  -- The session that the responder installs is the one of its peer, so what the sender can
  -- decrypt to is as before.
  have hinstalled : ∀ s, (e.device.installed X s).Decrypts p keyExchangeOk ↔
      e.device.Decrypts p keyExchangeOk := fun s => by
    simp only [Device.Decrypts, Device.installed, Dict.get?_set_ne _ _ hne]
  -- The outcomes that fail before the exchange is completed change nothing; from `halfway` on
  -- the session of the peer has been overwritten.
  cases hout with
  | unexpected x hreceived hsent =>
      refine ⟨fun _ => ⟨herror, fun hb => absurd hb hbye, fun _ h => absurd h hsent,
        fun _ h => absurd h hreceived⟩, fun _ => ⟨rfl, rfl⟩⟩
  | unanswered x hstate hplain =>
      rw [hinitiator hstate, ← hconfirmed]
      exact ⟨fun _ => hplain, fun _ => ⟨rfl, rfl⟩⟩
  | answered hstate hplain =>
      rw [hinitiator hstate, ← hconfirmed]
      refine ⟨fun h => ?_, fun h => absurd hplain h⟩
      simp only [EStateM.Result.final, hstate, reduceCtorEq, false_and] at h
  | refused x hstate hno =>
      rw [hresponder hstate]
      exact ⟨fun _ s hs => absurd ⟨X, s, hs⟩ hno, fun _ => ⟨rfl, rfl⟩⟩
  | halfway id s x hstate hcomp hpub =>
      obtain rfl := completes_peer e X id s hpeer hcomp
      rw [hresponder hstate]
      simp only [EStateM.Result.final, Dict.get?_set_self, true_and]
      constructor
      · intro h t ht
        rw [(e.completes_eq X X s t hcomp ht).2]
        exact Or.inl ⟨Or.inl hpub, h.symm⟩
      · intro h
        rcases h s hcomp with ⟨_, hs⟩ | ⟨_, hpub', _⟩
        · exact hs.symm
        · exact absurd hpub hpub'
  | stale id s x hstate hcomp hpub hadmits =>
      obtain rfl := completes_peer e X id s hpeer hcomp
      rw [hresponder hstate]
      simp only [EStateM.Result.final, installed_get?_self, true_and]
      constructor
      · intro h t ht
        rw [(e.completes_eq X X s t hcomp ht).2]
        exact Or.inl ⟨Or.inr hadmits, h.symm⟩
      · intro h
        rcases h s hcomp with ⟨_, hs⟩ | ⟨_, _, hadmits', _⟩
        · exact hs.symm
        · exact absurd hadmits' hadmits
  | unconfirmed id s x hstate hcomp hpub hadmits hplain =>
      obtain rfl := completes_peer e X id s hpeer hcomp
      rw [hinstalled] at hplain
      rw [hresponder hstate]
      simp only [EStateM.Result.final, installed_get?_self, true_and]
      constructor
      · intro h t ht
        rw [(e.completes_eq X X s t hcomp ht).2]
        exact Or.inr ⟨hplain, hpub, hadmits, h.symm⟩
      · intro h
        rcases h s hcomp with ⟨hor, _⟩ | ⟨_, _, _, hs⟩
        · rcases hor with h' | h'
          · exact absurd h' hpub
          · exact absurd hadmits h'
        · exact hs.symm
  | established id s r hstate hcomp hpub hadmits hplain hfinal =>
      obtain rfl := completes_peer e X id s hpeer hcomp
      rw [hinstalled] at hplain
      rw [hresponder hstate, hfinal]
      simp only [hstate, reduceCtorEq, false_and, false_iff]
      intro h
      rcases h s hcomp with ⟨hor, _⟩ | ⟨hno, _⟩
      · rcases hor with h' | h'
        · exact hpub h'
        · exact h' hadmits
      · exact hno hplain

/-- The handler of a packet of another peer leaves the state and the session
    of the protocol's peer alone exactly when the packet is undisturbing. -/
theorem outcome_undisturbed (env : Env) (p : Packet) (e : Endpoint C)
    (r : EStateM.Result Exn (Endpoint C) (Option Bytes)) (X : Bytes)
    (hpeer : e.proto.peerId = some X) (hne : p.senderId ≠ X) (htype : p.ptype ≠ .hello)
    (hopen : ¬ e.proto.Terminal) (hout : Outcome env p e r) :
    (r.final.proto.state = e.proto.state ∧
      r.final.device.sessions.get? X = e.device.sessions.get? X) ↔ e.Undisturbed env X p := by
  cases hout with
  | hello _ h => exact absurd h htype
  | keyExchange _ htype hout => exact keyExchange_undisturbed env p e r X hpeer hne htype hout
  | accepted h =>
      refine ⟨fun _ => ?_, fun _ => ⟨rfl, rfl⟩⟩
      refine undisturbed_of_type e env X p ?_ ?_ ?_ <;>
        rcases h with h | h <;> simp only [h, ne_eq, reduceCtorEq, not_false_eq_true]
  | rejected x h =>
      exact ⟨fun _ => undisturbed_of_type e env X p h.2.2.2 h.2.2.1 h.2.1, fun _ => ⟨rfl, rfl⟩⟩
  -- The error state is terminal, so arriving there is a change.
  | error h =>
      refine ⟨fun hsame => ?_, fun hu => absurd h hu.error⟩
      exact absurd (Or.inr hsame.1.symm) hopen
  | bye h =>
      simp only [EStateM.Result.final, afterBye]
      by_cases hest : e.proto.state = .established
      · rw [if_pos hest]
        refine ⟨fun hsame => ?_, fun hu => absurd hest (hu.bye h)⟩
        simp only [hest, reduceCtorEq, false_and] at hsame
      · rw [if_neg hest]
        refine ⟨fun _ => ⟨?_, fun _ => hest, ?_, ?_⟩, fun _ => ⟨rfl, rfl⟩⟩ <;>
          simp only [h, ne_eq, reduceCtorEq, not_false_eq_true, false_implies]

/-- The conditions read the same before and after reception. -/
theorem undisturbed_received (env : Env) (raw : Bytes) (e : Endpoint C) (p : Packet)
    (d : Device C) (X : Bytes) (hne : p.senderId ≠ X)
    (hrec : Device.Received e.device env raw p d) :
    Undisturbed { e with device := d } env X p ↔ e.Undisturbed env X p := by
  rcases received_frame e.device d env raw p hrec with ⟨hsess, hpub, hex, hdec⟩
  have hcomp : ∀ s, Completes { e with device := d } X s ↔ e.Completes X s := fun s => by
    simp only [Completes, hex]
  have hspared : Spared { e with device := d } env X p ↔ e.Spared env X p := by
    simp only [Spared, hcomp, hsess X hne, hpub, hdec]
  exact ⟨fun h => ⟨h.error, h.bye, by simpa only [hsess X hne, hdec] using h.initiator,
      fun ht hs => hspared.mp (h.responder ht hs)⟩,
    fun h => ⟨h.error, h.bye, by simpa only [hsess X hne, hdec] using h.initiator,
      fun ht hs => hspared.mpr (h.responder ht hs)⟩⟩

/-- A packet of the protocol's own peer that establishes it decrypts to the
    confirmation under the session stored for the peer. -/
theorem established_under_own_session (env : Env) (raw : Bytes) (e : Endpoint C) (p : Packet)
    (d : Device C) (X : Bytes) (hrec : Device.Received e.device env raw p d)
    (hpeer : e.proto.peerId = some X) (hsame : p.senderId = X) (htype : p.ptype ≠ .hello)
    (hbefore : e.proto.state ≠ .established)
    (hafter : ((processIncoming env raw).run e).final.proto.state = .established) :
    ∃ s, ((processIncoming env raw).run e).final.device.sessions.get? X = some s ∧
      C.aesGcmDecrypt s.sessionKey p.nonce p.payload = some keyExchangeOk := by
  by_cases hterm : e.proto.Terminal
  · -- A machine that is done refuses the packet and stays as it is.
    rcases processIncoming_terminal env raw e hterm with ⟨x, hx⟩
    rw [hx] at hafter
    exact absurd hafter hbefore
  · rw [processIncoming_of_received env raw e p d (not_or.mp hterm) hrec] at hafter ⊢
    have hout := dispatch_outcome env p { e with device := d }
    generalize (dispatch env p).run { e with device := d } = r at hout hafter ⊢
    -- Two outcomes establish a machine; the others keep the state or end it.
    cases hout with
    | hello _ h => exact absurd h htype
    | accepted => exact absurd hafter hbefore
    | rejected => exact absurd hafter hbefore
    | error => simp only [EStateM.Result.final, reduceCtorEq] at hafter
    | bye =>
        simp only [EStateM.Result.final, afterBye, if_neg hbefore] at hafter
        exact absurd hafter hbefore
    | keyExchange _ _ hout =>
        cases hout with
        | refused => exact absurd hafter hbefore
        | halfway => exact absurd hafter hbefore
        | stale => exact absurd hafter hbefore
        | unconfirmed => exact absurd hafter hbefore
        | unanswered => exact absurd hafter hbefore
        | unexpected => exact absurd hafter hbefore
        | answered _ hconf =>
            rcases hconf.2 with ⟨s, hs, hplain⟩
            rw [hsame] at hs
            exact ⟨s, hs, hplain⟩
        | established id s _ _ hcomp _ _ hplain hfinal =>
            -- The responder decrypts after it has installed the session, so the key is the new
            -- one.
            obtain rfl := completes_peer { e with device := d } X id s hpeer hcomp
            rcases hplain with ⟨t, ht, hplain⟩
            rw [hsame, installed_get?_self, Option.some.injEq] at ht
            subst ht
            rw [hfinal]
            exact ⟨_, Dict.get?_set_self _ _ _, hplain⟩

end Endpoint

/-- A received packet of another peer does no harm exactly when `Isolates`
    says so, and a packet of the protocol's own peer establishes it only if
    it decrypts under the session stored for that peer. -/
theorem cross_peer_isolation (e : Endpoint C) (env : Env) (raw X : Bytes) (p : Packet)
    (d : Device C) (hpeer : e.proto.peerId = some X)
    (hrec : (Device.receivePacket env raw).run e.device = .ok p d) (htype : p.ptype ≠ .hello) :
    (p.senderId ≠ X → (e.Isolated env raw X ↔ e.Isolates env X p)) ∧
    (p.senderId = X → e.proto.state ≠ .established →
      ((Endpoint.processIncoming env raw).run e).final.proto.state = .established →
      ∃ s, ((Endpoint.processIncoming env raw).run e).final.device.sessions.get? X = some s ∧
        C.aesGcmDecrypt s.sessionKey p.nonce p.payload = some keyExchangeOk) := by
  rw [Device.receivePacket_eq_ok] at hrec
  refine ⟨fun hne => ?_, fun hsame =>
    Endpoint.established_under_own_session env raw e p d X hrec hpeer hsame htype⟩
  have hreturns := Endpoint.receiveData_returns env raw e p d hrec
  have hsess := (received_frame e.device d env raw p hrec).1 X hne
  by_cases hterm : e.proto.Terminal
  · -- A machine that is done refuses the packet, and hands nothing up.
    rcases Endpoint.processIncoming_terminal env raw e hterm with ⟨x, hx⟩
    refine ⟨fun _ => Or.inl hterm, fun _ => ?_⟩
    unfold Endpoint.Isolated
    rw [hx]
    refine ⟨rfl, rfl, fun h => h, fun plaintext e' h => ?_⟩
    have hest := (hreturns.mp ⟨plaintext, e', h⟩).1
    rcases hterm with ht | ht <;> simp only [ht, reduceCtorEq] at hest
  · -- Otherwise the handler decides, on a device that only reception has touched.
    have hout := Endpoint.dispatch_outcome env p { e with device := d }
    have hund := Endpoint.outcome_undisturbed env p { e with device := d } _ X hpeer hne htype
      hterm hout
    rw [Endpoint.undisturbed_received env raw e p d X hne hrec] at hund
    simp only [hsess] at hund
    unfold Endpoint.Isolated Endpoint.Isolates
    rw [Endpoint.processIncoming_of_received env raw e p d (not_or.mp hterm) hrec]
    constructor
    · rintro ⟨hstate, hX, _, hno⟩
      refine Or.inr ⟨hund.mp ⟨hstate, hX⟩, fun hdata hest plaintext hdec => ?_⟩
      rcases hreturns.mpr ⟨hest, hdata, plaintext, hdec⟩ with ⟨q, e', hq⟩
      exact hno q e' hq
    · intro h
      rcases h with ht | ⟨hu, hdata⟩
      · exact absurd ht hterm
      · rcases hund.mpr hu with ⟨hstate, hX⟩
        refine ⟨hstate, hX, fun h => hstate ▸ h, fun plaintext e' hq => ?_⟩
        rcases hreturns.mp ⟨plaintext, e', hq⟩ with ⟨hest, hd, q, hdec⟩
        exact hdata hd hest q hdec

/-- The bytes of a packet a device builds. -/
def builtBytes (h : Host C) (env : Env) (peerId : Bytes) (b : Builder) : Bytes :=
  match (b.run env peerId).run h.device with
  | .ok p _ => (p.toBytes.toOption).getD []
  | .error _ _ => []

/-- A host with two peers, one protocol for each, and a packet of the second
    peer. -/
def twoPeers (b : Builder) : Host toyPrimitives × Bytes × Bytes :=
  let bob := Host.create toyPrimitives [7]
  let alice := Host.create toyPrimitives [1]
  let mallory := Host.create toyPrimitives [2]
  let bob := (toyInitiation bob alice 0 0).foldl Host.step bob
  let raw := builtBytes (toyHandshake bob mallory 1 0).2.1 toyEnv bob.device.deviceId b
  ((toyInitiation bob mallory 1 0).foldl Host.step bob, alice.device.deviceId, raw)

/-- An ACK of the second peer does the first protocol no harm. -/
theorem foreign_ack_isolated :
    ((twoPeers (.ack 3)).1.endpoint 0).Isolated toyEnv (twoPeers (.ack 3)).2.2
      (twoPeers (.ack 3)).2.1 := by
  have hrun : ((Device.receivePacket toyEnv (twoPeers (.ack 3)).2.2).run
        ((twoPeers (.ack 3)).1.endpoint 0).device).returned ≠ none ∧
      (∀ p ∈ ((Device.receivePacket toyEnv (twoPeers (.ack 3)).2.2).run
          ((twoPeers (.ack 3)).1.endpoint 0).device).returned,
        p.ptype = .ack ∧ p.senderId ≠ (twoPeers (.ack 3)).2.1) ∧
      ((twoPeers (.ack 3)).1.endpoint 0).proto.peerId = some (twoPeers (.ack 3)).2.1 := by
    decide +kernel
  rcases hrun with ⟨hsome, hack, hpeer⟩
  cases hrec : (Device.receivePacket toyEnv (twoPeers (.ack 3)).2.2).run
      ((twoPeers (.ack 3)).1.endpoint 0).device with
  | error x d =>
      rw [hrec] at hsome
      exact absurd rfl hsome
  | ok p d =>
      rw [hrec] at hack
      rcases hack p rfl with ⟨htype, hne⟩
      have hhello : p.ptype ≠ .hello := by
        simp only [htype, ne_eq, reduceCtorEq, not_false_eq_true]
      refine ((cross_peer_isolation ((twoPeers (.ack 3)).1.endpoint 0) toyEnv
        (twoPeers (.ack 3)).2.2 (twoPeers (.ack 3)).2.1 p d hpeer hrec hhello).1 hne).mpr ?_
      refine Or.inr ⟨Endpoint.undisturbed_of_type _ _ _ p ?_ ?_ ?_, fun hdata => ?_⟩
      · simp only [htype, ne_eq, reduceCtorEq, not_false_eq_true]
      · simp only [htype, ne_eq, reduceCtorEq, not_false_eq_true]
      · simp only [htype, ne_eq, reduceCtorEq, not_false_eq_true]
      · simp only [htype, reduceCtorEq] at hdata

/-- A BYE of the second peer is received as its own, and closes the first
    protocol. -/
theorem foreign_bye_closes :
    ((∀ p ∈ ((Device.receivePacket toyEnv (twoPeers .bye).2.2).run
        (twoPeers .bye).1.device).returned,
        p.ptype ≠ .hello ∧ p.senderId ≠ (twoPeers .bye).2.1) ∧
      ((twoPeers .bye).1.protocols 0).peerId = some (twoPeers .bye).2.1 ∧
      ((twoPeers .bye).1.protocols 0).state = .established) ∧
    ¬ ((twoPeers .bye).1.endpoint 0).Isolated toyEnv (twoPeers .bye).2.2
      (twoPeers .bye).2.1 := by
  have hrun : ((∀ p ∈ ((Device.receivePacket toyEnv (twoPeers .bye).2.2).run
        (twoPeers .bye).1.device).returned,
        p.ptype ≠ .hello ∧ p.senderId ≠ (twoPeers .bye).2.1) ∧
      ((twoPeers .bye).1.protocols 0).peerId = some (twoPeers .bye).2.1 ∧
      ((twoPeers .bye).1.protocols 0).state = .established) ∧
      ((Endpoint.processIncoming toyEnv (twoPeers .bye).2.2).run
        ((twoPeers .bye).1.endpoint 0)).final.proto.state = .closed := by
    decide +kernel
  generalize twoPeers .bye = run at hrun ⊢
  rcases hrun with ⟨hfacts, hclosed⟩
  refine ⟨hfacts, fun h => ?_⟩
  -- The protocol does not keep its state.
  have hstate := hclosed.symm.trans (h.1.trans hfacts.2.2)
  simp only [reduceCtorEq] at hstate

end Ztlnp

import Ztlnp.Lib.Tokens
import Ztlnp.Theory.Handshake

/-!
# Ephemeral Keys

What becomes of the ephemeral keys of a device over its whole life.

A pair is drawn for a peer when one is first asked for, is handed out again
until an exchange with that peer completes, and is dropped by the exchange
that it was spent on. Which exchange an act would complete is read off the
state before the act (`Host.exchange`), and with the table of private keys
that says which key the act spends, and on what session (`Host.spends`).

`KeyMove` lists what an act can do to the table of private keys: nothing, a
new key for a peer that had none, or one key less and its session stored. A
ledger beside the host keeps every key that was ever drawn and every key that
was ever spent. With the table these are a purse of tokens, one for each peer,
and every act is a move of it (`KeyLedger.purse_step`).

## Main definitions

* `Session.SameKeys`: Sessions under the same keys.
* `KeyExchange`, `Protocol.exchangeFor`, `Host.exchange`: The exchange that an act
  would complete.
* `Spent`, `Device.spend`, `Host.spends`: The key that it uses up.
* `Host.drawn`: The keys that an act has drawn.
* `KeyMove`: Everything an act can do to the private keys.
* `KeyLedger`, `KeyLedger.step`, `KeyLedger.Fresh`: A host with a record of its keys.
* `KeyLedger.purse`: Its keys as tokens.
* `KeyLedger.Kept`: The record agrees with the tables.
* `KeyLedger.SingleUse`: What single use comes to.

## Theorems

* `Host.live_keyMove`: The inventory is complete.
* `KeyLedger.purse_step`: An act moves the tokens.
* `KeyLedger.kept_step`: An act that draws fresh keys keeps the record.
* `ephemerals_spent_once`: No key makes two sessions, and none outlives its own.
-/

namespace Ztlnp

variable {C : Primitives}

/-- The two keys of a session are those of another. -/
def Session.SameKeys (s t : Session) : Prop :=
  s.sessionKey = t.sessionKey ∧ s.macKey = t.macKey

/-- The arguments of `complete_key_exchange`. -/
structure KeyExchange where
  peerId : Bytes
  peerEd25519Public : Bytes
  peerX25519Public : Bytes
  iAmInitiator : Bool

/-- A private key, with the peer and the session it was spent on. -/
structure Spent where
  key : Bytes
  peerId : Bytes
  session : Session

/-- The exchange that a machine attempts when it is handed a packet. -/
def Protocol.exchangeFor (pr : Protocol) (p : Packet) : Option KeyExchange :=
  match p.ptype, pr.state with
  | .hello, .helloSent =>
    if p.payload.length < 64 then none
    else some ⟨p.senderId, p.payload.take 32, field p.payload 32 32, true⟩
  | .keyExchange, .helloReceived => do
    let peerId ← pr.peerId
    let peerEd25519Public ← pr.peerEd25519Pub
    let peerX25519Public ← pr.peerX25519Pub
    return ⟨peerId, peerEd25519Public, peerX25519Public, false⟩
  | _, _ => none

/-- The key that an exchange uses up, if it succeeds. -/
def Device.spend (d : Device C) (x : KeyExchange) : Option Spent :=
  match d.ephemeralPrivate.get? x.peerId,
    d.exchangedSession x.peerId x.peerEd25519Public x.peerX25519Public x.iAmInitiator with
  | some key, .ok s => some ⟨key, x.peerId, s⟩
  | _, _ => none

namespace Host

/-- The exchange that an act attempts: its own, or the one of the handler that
    the received packet goes to. -/
def exchange (h : Host C) : LifeAct → Option KeyExchange
  | .completeKeyExchange peerId ed x b => some ⟨peerId, ed, x, b⟩
  | .act (.processIncoming i env raw) =>
    ((Device.receivePacket env raw).run h.device).returned.bind (h.protocols i).exchangeFor
  | _ => none

/-- The key that an act uses up. -/
def spends (h : Host C) (a : LifeAct) : Option Spent := (h.exchange a).bind h.device.spend

/-- The private keys that an act has put into the table. -/
def drawn (h : Host C) (a : LifeAct) : List Bytes :=
  ((h.live a).device.ephemeralPrivate.entries.filter
    (fun e => h.device.ephemeralPrivate.get? e.1 ≠ some e.2)).map Prod.snd

theorem mem_drawn (h : Host C) (a : LifeAct) (k : Bytes) :
    k ∈ h.drawn a ↔ ∃ id, (h.live a).device.ephemeralPrivate.get? id = some k ∧
      h.device.ephemeralPrivate.get? id ≠ some k := by
  simp only [drawn, List.mem_map, List.mem_filter, decide_eq_true_eq, Prod.exists,
    ← Dict.get?_eq_some, exists_eq_right]

end Host

/-- The session of an identifier, if there is one, is an earlier one as far as
    its keys go. -/
def Device.KeysFrom (d d' : Device C) (id : Bytes) : Prop :=
  ∀ s', d'.sessions.get? id = some s' → ∃ s, d.sessions.get? id = some s ∧ s'.SameKeys s

/-- What an act does to the private keys, given the one that it uses up. -/
inductive KeyMove (d : Device C) : Option Spent → Device C → Prop
  | kept (d' : Device C) (hpriv : d'.ephemeralPrivate = d.ephemeralPrivate)
      (hfrom : ∀ id, d.KeysFrom d' id) : KeyMove d none d'
  /-- A key for a peer that had none. -/
  | drew (d' : Device C) (peerId k : Bytes) (hnone : d.ephemeralPrivate.get? peerId = none)
      (hpriv : d'.ephemeralPrivate = d.ephemeralPrivate.set peerId k)
      (hfrom : ∀ id, d.KeysFrom d' id) : KeyMove d none d'
  /-- One key less, and the session it was spent on. -/
  | spent (d' : Device C) (x : Spent) (hget : d.ephemeralPrivate.get? x.peerId = some x.key)
      (hpriv : d'.ephemeralPrivate = d.ephemeralPrivate.pop x.peerId)
      (hself : ∃ s, d'.sessions.get? x.peerId = some s ∧ s.SameKeys x.session)
      (hother : ∀ id, id ≠ x.peerId → d.KeysFrom d' id) : KeyMove d (some x) d'

namespace Device

theorem keysFrom_of_sessions (d d' : Device C) (h : d'.sessions = d.sessions) (id : Bytes) :
    d.KeysFrom d' id := by
  intro s hget
  rw [h] at hget
  exact ⟨s, hget, rfl, rfl⟩

/-- Storing a session of another key under one identifier. -/
theorem keysFrom_set (d d' : Device C) (peerId : Bytes) (s t : Session)
    (h : d'.sessions = d.sessions.set peerId t) (hget : d.sessions.get? peerId = some s)
    (hkeys : t.SameKeys s) (id : Bytes) : d.KeysFrom d' id := by
  intro s' hget'
  rw [h, Dict.get?_set] at hget'
  by_cases hid : id = peerId
  · rw [if_pos hid, Option.some.injEq] at hget'
    exact ⟨s, hid ▸ hget, hget' ▸ hkeys⟩
  · rw [if_neg hid] at hget'
    exact ⟨s', hget', rfl, rfl⟩

theorem keysFrom_pop (d d' : Device C) (peerId : Bytes)
    (h : d'.sessions = d.sessions.pop peerId) (id : Bytes) : d.KeysFrom d' id := by
  intro s hget
  rw [h, Dict.get?_pop] at hget
  by_cases hid : id = peerId
  · rw [if_pos hid] at hget
    simp only [reduceCtorEq] at hget
  · rw [if_neg hid] at hget
    exact ⟨s, hget, rfl, rfl⟩

/-- Reception only records in sessions. -/
theorem Received.keysFrom {d d' : Device C} {env : Env} {raw : Bytes} {p : Packet}
    (h : Received d env raw p d') (id : Bytes) : d.KeysFrom d' id := by
  cases h with
  | hello => exact keysFrom_of_sessions d d rfl id
  | session s _ _ hget =>
      exact keysFrom_set d _ p.senderId s (s.recorded p.sequence) rfl hget ⟨rfl, rfl⟩ id
  | pending => exact keysFrom_of_sessions d d rfl id

/-- What an exchange uses up depends on the private keys and on the identity. -/
theorem spend_congr (d d' : Device C) (hpriv : d'.ephemeralPrivate = d.ephemeralPrivate)
    (hid : d'.deviceId = d.deviceId) (x : KeyExchange) : d'.spend x = d.spend x := by
  simp only [spend, exchangedSession, hpriv, hid]

/-- An exchange uses up a key exactly when it succeeds. -/
theorem spend_eq_some (d : Device C) (x : KeyExchange) (s : Session)
    (h : d.exchangedSession x.peerId x.peerEd25519Public x.peerX25519Public x.iAmInitiator
      = .ok s) :
    ∃ key, d.ephemeralPrivate.get? x.peerId = some key ∧ d.spend x = some ⟨key, x.peerId, s⟩ := by
  cases hget : d.ephemeralPrivate.get? x.peerId with
  | none => simp only [exchangedSession, hget, reduceCtorEq] at h
  | some key => exact ⟨key, rfl, by simp only [spend, hget, h]⟩

theorem spend_eq_none (d : Device C) (x : KeyExchange) (e : Exn)
    (h : d.exchangedSession x.peerId x.peerEd25519Public x.peerX25519Public x.iAmInitiator
      = .error e) : d.spend x = none := by
  cases hget : d.ephemeralPrivate.get? x.peerId with
  | none => simp only [spend, hget]
  | some key => simp only [spend, hget, h]

end Device

namespace KeyMove

variable {d : Device C}

/-- Nothing was spent, and no table was touched. -/
theorem of_tables (d' : Device C) (hpriv : d'.ephemeralPrivate = d.ephemeralPrivate)
    (hsess : d'.sessions = d.sessions) : KeyMove d none d' :=
  .kept d' hpriv (d.keysFrom_of_sessions d' hsess)

/-- The session of a peer has handed out a number. -/
theorem of_advanced (peerId : Bytes) (s : Session) (hget : d.sessions.get? peerId = some s) :
    KeyMove d none (d.advanced peerId s) :=
  .kept _ rfl (d.keysFrom_set _ peerId s _ rfl hget ⟨rfl, rfl⟩)

theorem of_withEphemeral (d' : Device C) (env : Env) (peerId : Bytes)
    (hpriv : d'.ephemeralPrivate = (d.withEphemeral env peerId).ephemeralPrivate)
    (hsess : d'.sessions = d.sessions) : KeyMove d none d' := by
  by_cases hnone : d.ephemeralPrivate.get? peerId = none
  · refine .drew d' peerId env.x25519Private hnone ?_ (d.keysFrom_of_sessions d' hsess)
    rw [hpriv, Device.withEphemeral, if_pos hnone]
  · refine .of_tables d' ?_ hsess
    rw [hpriv, Device.withEphemeral, if_neg hnone]

/-- A session was installed, and has been used since. -/
theorem of_installed (d' : Device C) (x : KeyExchange) (s t : Session)
    (hex : d.exchangedSession x.peerId x.peerEd25519Public x.peerX25519Public x.iAmInitiator
      = .ok s) (hpriv : d'.ephemeralPrivate = d.ephemeralPrivate.pop x.peerId)
    (hsess : d'.sessions = d.sessions.set x.peerId t) (hkeys : t.SameKeys s) :
    KeyMove d (d.spend x) d' := by
  rcases d.spend_eq_some x s hex with ⟨key, hget, hspend⟩
  rw [hspend]
  refine .spent d' _ hget hpriv ⟨t, ?_, hkeys⟩ (fun id hid s' hget' => ?_)
  · rw [hsess, Dict.get?_set_self]
  · rw [hsess, Dict.get?_set_ne _ _ hid] at hget'
    exact ⟨s', hget', rfl, rfl⟩

/-- Reception comes before the handler, and moves no key. -/
theorem of_received {d₁ d' : Device C} {env : Env} {raw : Bytes} {p : Packet} {o : Option Spent}
    (hrec : Device.Received d env raw p d₁) (hmove : KeyMove d₁ o d') : KeyMove d o d' := by
  have htables := (Device.received_tables d d₁ env raw p hrec).2.1
  have htrans : ∀ id, d₁.KeysFrom d' id → d.KeysFrom d' id := by
    intro id hfrom s' hget'
    rcases hfrom s' hget' with ⟨s₁, hget₁, hkeys₁⟩
    rcases hrec.keysFrom id s₁ hget₁ with ⟨s, hget, hkeys⟩
    exact ⟨s, hget, hkeys₁.1.trans hkeys.1, hkeys₁.2.trans hkeys.2⟩
  cases hmove with
  | kept _ hpriv hfrom => exact .kept d' (hpriv.trans htables) (fun id => htrans id (hfrom id))
  | drew _ peerId k hnone hpriv hfrom =>
      rw [htables] at hnone hpriv
      exact .drew d' peerId k hnone hpriv (fun id => htrans id (hfrom id))
  | spent _ x hget hpriv hself hother =>
      rw [htables] at hget hpriv
      exact .spent d' x hget hpriv hself (fun id hid => htrans id (hother id hid))

end KeyMove

namespace Protocol

/-- A HELLO completes nothing outside of the initiator's state, or if it is too
    short to be read. -/
theorem exchangeFor_hello_none (pr : Protocol) (p : Packet) (htype : p.ptype = .hello)
    (h : pr.state = .helloSent → p.payload.length < 64) : pr.exchangeFor p = none := by
  unfold exchangeFor
  split
  · rw [if_pos (h ‹pr.state = .helloSent›)]
  · exact absurd (htype.symm.trans ‹p.ptype = .keyExchange›) PacketType.noConfusion
  · rfl

theorem exchangeFor_hello_some (pr : Protocol) (p : Packet) (htype : p.ptype = .hello)
    (hstate : pr.state = .helloSent) (hlen : 64 ≤ p.payload.length) :
    pr.exchangeFor p
      = some ⟨p.senderId, p.payload.take 32, field p.payload 32 32, true⟩ := by
  simp only [exchangeFor, htype, hstate, if_neg (not_lt.mpr hlen)]

/-- Nothing else completes an exchange outside of the responder's state. -/
theorem exchangeFor_none (pr : Protocol) (p : Packet) (htype : p.ptype ≠ .hello)
    (h : p.ptype = .keyExchange → pr.state ≠ .helloReceived) : pr.exchangeFor p = none := by
  unfold exchangeFor
  split
  · exact absurd ‹p.ptype = .hello› htype
  · exact absurd ‹pr.state = .helloReceived› (h ‹p.ptype = .keyExchange›)
  · rfl

/-- A machine in a terminal state attempts no exchange. -/
theorem exchangeFor_terminal (pr : Protocol) (p : Packet)
    (hterm : pr.state = .closed ∨ pr.state = .error) : pr.exchangeFor p = none := by
  have hsent : pr.state ≠ .helloSent ∧ pr.state ≠ .helloReceived := by
    rcases hterm with h | h
    · simp only [h, ne_eq, reduceCtorEq, not_false_eq_true, and_self]
    · simp only [h, ne_eq, reduceCtorEq, not_false_eq_true, and_self]
  by_cases hhello : p.ptype = .hello
  · exact pr.exchangeFor_hello_none p hhello (fun h => absurd h hsent.1)
  · exact pr.exchangeFor_none p hhello (fun _ => hsent.2)

end Protocol

namespace Endpoint

/-- A responder attempts the exchange that it remembers. -/
theorem exchangeFor_completes (e : Endpoint C) (p : Packet) (htype : p.ptype = .keyExchange)
    (hstate : e.proto.state = .helloReceived) (peerId : Bytes) (s : Session)
    (hcomp : e.Completes peerId s) :
    ∃ ed x, e.proto.exchangeFor p = some ⟨peerId, ed, x, false⟩ ∧
      e.device.exchangedSession peerId ed x false = .ok s := by
  rcases hcomp with ⟨ed, x, hid, hed, hx, hex⟩
  refine ⟨ed, x, ?_, hex⟩
  simp only [Protocol.exchangeFor, htype, hstate, hid, hed, hx, Option.bind_eq_bind,
    Option.bind_some, Option.pure_def]

/-- If that one fails, it uses nothing up. -/
theorem spend_eq_none_of_not_completes (e : Endpoint C) (p : Packet)
    (htype : p.ptype = .keyExchange) (hstate : e.proto.state = .helloReceived)
    (hno : ¬ ∃ peerId s, e.Completes peerId s) :
    (e.proto.exchangeFor p).bind e.device.spend = none := by
  simp only [Protocol.exchangeFor, htype, hstate]
  cases hid : e.proto.peerId with
  | none => rfl
  | some peerId =>
      cases hed : e.proto.peerEd25519Pub with
      | none => rfl
      | some ed =>
          cases hx : e.proto.peerX25519Pub with
          | none => rfl
          | some x =>
              cases hex : e.device.exchangedSession peerId ed x false with
              | error y => exact e.device.spend_eq_none ⟨peerId, ed, x, false⟩ y hex
              | ok s => exact absurd ⟨peerId, s, ed, x, hid, hed, hx, hex⟩ hno

theorem helloOutcome_keyMove (env : Env) (p : Packet) (e : Endpoint C)
    (r : EStateM.Result Exn (Endpoint C) (Option Bytes)) (htype : p.ptype = .hello)
    (hout : HelloOutcome env p e r) (h : e.device.Aligned) :
    KeyMove e.device ((e.proto.exchangeFor p).bind e.device.spend) r.final.device := by
  have hnone := e.proto.exchangeFor_hello_none p htype
  -- An exchange takes place in HELLO_SENT with a payload that is long enough, and only then a key
  -- is spent.
  cases hout with
  | short _ hlen =>
      rw [hnone (fun _ => hlen)]
      exact .of_tables _ rfl rfl
  | answered _ _ hstate =>
      rw [hnone (fun hsent => by simp only [hstate, reduceCtorEq] at hsent)]
      exact .of_withEphemeral _ env p.senderId rfl (e.device.withEphemeral_sessions env _)
  | unanswered _ d _ hstate hdev =>
      rw [hnone (fun hsent => by simp only [hstate, reduceCtorEq] at hsent)]
      rcases hdev with rfl | rfl
      · exact .of_withEphemeral _ env p.senderId rfl (e.device.withEphemeral_sessions env _)
      · exact .of_withEphemeral _ env p.senderId rfl (e.device.withEphemeral_sessions env _)
  | refused x hlen hstate hex =>
      rw [e.proto.exchangeFor_hello_some p htype hstate hlen, Option.bind_some,
        e.device.spend_eq_none _ x hex]
      exact .of_tables _ rfl rfl
  -- An aligned device never stops halfway.
  | halfway s _ _ _ hex hpub => exact absurd hpub (h.public_ne_none _ _ _ _ _ s hex)
  | exchanged s _ hlen hstate hex =>
      rw [e.proto.exchangeFor_hello_some p htype hstate hlen, Option.bind_some]
      exact .of_installed _ _ s _ hex rfl (Dict.set_set _ _ _ _) ⟨rfl, rfl⟩
  | unconfirmed s _ hlen hstate hex =>
      rw [e.proto.exchangeFor_hello_some p htype hstate hlen, Option.bind_some]
      exact .of_installed _ _ s _ hex rfl (Dict.set_set _ _ _ _) ⟨rfl, rfl⟩
  | unexpected _ _ _ hsent =>
      rw [hnone (fun hstate => absurd hstate hsent)]
      exact .of_tables _ rfl rfl

theorem keyExchangeOutcome_keyMove (env : Env) (p : Packet) (e : Endpoint C)
    (r : EStateM.Result Exn (Endpoint C) (Option Bytes)) (htype : p.ptype = .keyExchange)
    (hout : KeyExchangeOutcome env p e r) (h : e.device.Aligned) :
    KeyMove e.device ((e.proto.exchangeFor p).bind e.device.spend) r.final.device := by
  have hhello : p.ptype ≠ .hello := by simp only [htype, ne_eq, reduceCtorEq, not_false_eq_true]
  have hnone := e.proto.exchangeFor_none p hhello
  -- A responder that can complete the exchange spends its key, whatever becomes of the packet.
  cases hout with
  | refused _ hstate hno =>
      rw [e.spend_eq_none_of_not_completes p htype hstate hno]
      exact .of_tables _ rfl rfl
  | halfway peerId s _ hstate hcomp hpub =>
      rcases hcomp with ⟨_, _, _, _, _, hex⟩
      exact absurd hpub (h.public_ne_none _ _ _ _ _ s hex)
  | stale peerId s _ hstate hcomp =>
      rcases e.exchangeFor_completes p htype hstate peerId s hcomp with ⟨ed, x, hfor, hex⟩
      rw [hfor, Option.bind_some]
      exact .of_installed _ _ s s hex rfl rfl ⟨rfl, rfl⟩
  | unconfirmed peerId s _ hstate hcomp =>
      rcases e.exchangeFor_completes p htype hstate peerId s hcomp with ⟨ed, x, hfor, hex⟩
      rw [hfor, Option.bind_some]
      exact .of_installed _ _ s (s.recorded p.sequence) hex rfl rfl ⟨rfl, rfl⟩
  | established peerId s _ hstate hcomp _ _ _ hfinal =>
      rcases e.exchangeFor_completes p htype hstate peerId s hcomp with ⟨ed, x, hfor, hex⟩
      rw [hfor, Option.bind_some, hfinal]
      exact .of_installed _ _ s _ hex rfl (Dict.set_set _ _ _ _) ⟨rfl, rfl⟩
  | unanswered _ hstate =>
      rw [hnone (fun _ => by simp only [hstate, ne_eq, reduceCtorEq, not_false_eq_true])]
      exact .of_tables _ rfl rfl
  | answered hstate =>
      rw [hnone (fun _ => by simp only [hstate, ne_eq, reduceCtorEq, not_false_eq_true])]
      exact .of_tables _ rfl rfl
  | unexpected _ hreceived =>
      rw [hnone (fun _ => hreceived)]
      exact .of_tables _ rfl rfl

theorem afterBye_keyMove (e : Endpoint C) : KeyMove e.device none e.afterBye.device := by
  unfold afterBye
  by_cases hest : e.proto.state = .established
  · rw [if_pos hest]
    cases e.proto.peerId with
    | none => exact .of_tables _ rfl rfl
    | some peerId => exact .kept _ rfl (e.device.keysFrom_pop _ peerId rfl)
  · rw [if_neg hest]
    exact .of_tables _ rfl rfl

theorem outcome_keyMove (env : Env) (p : Packet) (e : Endpoint C)
    (r : EStateM.Result Exn (Endpoint C) (Option Bytes)) (hout : Outcome env p e r)
    (h : e.device.Aligned) :
    KeyMove e.device ((e.proto.exchangeFor p).bind e.device.spend) r.final.device := by
  -- A packet of any other type spends nothing.
  have hother (ptype : PacketType) (htype : p.ptype = ptype)
      (hne : ptype ≠ .hello ∧ ptype ≠ .keyExchange) :
      (e.proto.exchangeFor p).bind e.device.spend = none := by
    subst htype
    rw [e.proto.exchangeFor_none p hne.1 (fun hp => absurd hp hne.2), Option.bind_none]
  cases hout with
  | hello _ htype hhello => exact helloOutcome_keyMove env p e r htype hhello h
  | keyExchange _ htype hke => exact keyExchangeOutcome_keyMove env p e r htype hke h
  | accepted htype =>
      rcases htype with htype | htype
      · rw [hother .data htype (by decide)]
        exact .of_tables _ rfl rfl
      · rw [hother .ack htype (by decide)]
        exact .of_tables _ rfl rfl
  | rejected _ htype =>
      rw [hother p.ptype rfl ⟨htype.1, htype.2.1⟩]
      exact .of_tables _ rfl rfl
  | bye htype =>
      rw [hother .bye htype (by decide)]
      exact e.afterBye_keyMove
  | error htype =>
      rw [hother .error htype (by decide)]
      exact .of_tables _ rfl rfl

end Endpoint

namespace Host

theorem processIncoming_keyMove (h : Host C) (i : Nat) (env : Env) (raw : Bytes)
    (halign : h.device.Aligned) :
    KeyMove h.device (h.spends (.act (.processIncoming i env raw)))
      (h.incoming i env raw).final.device := by
  simp only [spends, exchange]
  by_cases hterm : (h.protocols i).state = .closed ∨ (h.protocols i).state = .error
  · -- Whatever the packet is, the machine does not take it.
    rcases Endpoint.processIncoming_terminal env raw (h.endpoint i) hterm with ⟨x, hx⟩
    have hnone : (((Device.receivePacket env raw).run h.device).returned.bind
        (h.protocols i).exchangeFor) = none := by
      rw [Option.bind_eq_none_iff]
      exact fun p _ => (h.protocols i).exchangeFor_terminal p hterm
    rw [hnone, incoming, hx]
    exact .of_tables _ rfl rfl
  · have hopen := not_or.mp hterm
    rcases Device.receivePacket_cases env raw h.device with ⟨p, d, hrec⟩ | ⟨x, hx⟩
    · rw [incoming, Endpoint.processIncoming_of_received env raw (h.endpoint i) p d hopen hrec,
        Device.receivePacket_of_received env raw h.device d p hrec]
      rcases Device.received_tables h.device d env raw p hrec with ⟨hkey, hpriv, _⟩
      -- The handler finds the tables as they were before reception.
      have hspend : d.spend = h.device.spend :=
        funext (h.device.spend_congr d hpriv (h.device.identity_eq d hkey).2)
      rw [← hspend]
      exact .of_received hrec (Endpoint.outcome_keyMove env p ⟨h.protocols i, d⟩ _
        (Endpoint.dispatch_outcome env p _)
        (Device.received_aligned h.device d env raw p hrec halign))
    · rw [incoming, Endpoint.processIncoming_of_refused env raw (h.endpoint i) x hopen hx, hx]
      exact .of_tables _ rfl rfl

/-- No other method of a protocol or a device completes an exchange. -/
theorem spends_act_none (h : Host C) (a : Act) (hne : ∀ i env raw, a ≠ .processIncoming i env raw) :
    h.spends (.act a) = none := by
  cases a with
  | processIncoming i env raw => exact absurd rfl (hne i env raw)
  | initiate => rfl
  | sendData => rfl
  | receiveData => rfl
  | receivePacket => rfl
  | build => rfl
  | removeSession => rfl

theorem step_keyMove (h : Host C) (a : Act) (halign : h.device.Aligned) :
    KeyMove h.device (h.spends (.act a)) (h.step a).device := by
  by_cases hin : ∃ i env raw, a = .processIncoming i env raw
  · rcases hin with ⟨i, env, raw, rfl⟩
    exact h.processIncoming_keyMove i env raw halign
  · have hne : ∀ i env raw, a ≠ .processIncoming i env raw := fun i env raw ha =>
      hin ⟨i, env, raw, ha⟩
    rw [h.spends_act_none a hne]
    have hmoved := step_moved h a
    generalize h.step a = h' at hmoved
    cases hmoved with
    | stayed => exact .of_tables _ rfl rfl
    | drew _ peerId s hget => exact .of_advanced peerId s hget
    | keyed _ env peerId =>
        exact .of_withEphemeral _ env peerId rfl (h.device.withEphemeral_sessions env peerId)
    | initiated i env peerId =>
        exact .of_withEphemeral _ env peerId rfl (h.device.withEphemeral_sessions env peerId)
    | observed _ env raw p d hrec => exact .of_received hrec (.of_tables _ rfl rfl)
    | removed peerId => exact .kept _ rfl (h.device.keysFrom_pop _ peerId rfl)
    | handled i env raw => exact absurd rfl (hne i env raw)

/-- The inventory of moves is complete. -/
theorem live_keyMove (h : Host C) (a : LifeAct) (halign : h.device.Aligned) :
    KeyMove h.device (h.spends a) (h.live a).device := by
  cases a with
  | act a => exact h.step_keyMove a halign
  | rotateKey nowMs k =>
      simp only [live]
      rcases Device.rotateKey_final nowMs k h.device with hf | hf
      · rw [hf]
        exact .of_tables _ rfl rfl
      · rw [hf]
        exact .of_tables _ rfl rfl
  | generateEphemeralKeypair env peerId =>
      simp only [live, Device.generateEphemeralKeypair_final]
      exact .of_withEphemeral _ env peerId rfl (h.device.withEphemeral_sessions env peerId)
  | registerPendingPeer => exact .of_tables _ rfl rfl
  | completeKeyExchange peerId ed x b =>
      simp only [live, spends, exchange, Option.bind_some]
      rcases Device.completeKeyExchange_cases peerId ed x b h.device with ⟨e, hex, hrun⟩ |
        ⟨s, e, hex, hpub, _⟩ | ⟨s, hex, _, hrun⟩
      · rw [hrun, h.device.spend_eq_none ⟨peerId, ed, x, b⟩ e hex]
        exact .of_tables _ rfl rfl
      · exact absurd hpub (halign.public_ne_none _ _ _ _ _ s hex)
      · rw [hrun]
        exact .of_installed _ ⟨peerId, ed, x, b⟩ s s hex rfl rfl ⟨rfl, rfl⟩

end Host

/-- A host, the private keys that were ever drawn on it, and those that were
    ever spent. -/
structure KeyLedger (C : Primitives) where
  host : Host C
  generated : List Bytes := []
  spent : List Spent := []

namespace KeyLedger

/-- A new device has drawn and spent nothing. -/
def start (C : Primitives) (identityPrivate : Bytes) : KeyLedger C where
  host := Host.create C identityPrivate

/-- One act, and what it draws and spends. -/
def step (l : KeyLedger C) (a : LifeAct) : KeyLedger C where
  host := l.host.live a
  generated := l.generated ++ l.host.drawn a
  spent := l.spent ++ (l.host.spends a).toList

/-- Key generation returns a key that it has not returned before. -/
def Fresh (l : KeyLedger C) (a : LifeAct) : Prop := ∀ k ∈ l.host.drawn a, k ∉ l.generated

instance : DecidableRel (Fresh (C := C)) := fun l a =>
  inferInstanceAs (Decidable (∀ k ∈ l.host.drawn a, k ∉ l.generated))

/-- The private keys as tokens: held for a peer, drawn by key generation, spent
    on a session. -/
def purse (l : KeyLedger C) : Purse Bytes Bytes where
  held := l.host.device.ephemeralPrivate.get?
  drawn := l.generated
  spent := l.spent.map Spent.key

/-- An act moves a token as it moves a key. -/
theorem purse_step (l : KeyLedger C) (a : LifeAct) (halign : l.host.device.Aligned)
    (hfresh : l.Fresh a) : l.purse.Move (l.step a).purse := by
  have hmove : KeyMove l.host.device (l.host.spends a) (l.step a).host.device :=
    l.host.live_keyMove a halign
  have hspent : (l.step a).purse.spent
      = l.purse.spent ++ (l.host.spends a).toList.map Spent.key := List.map_append
  generalize l.host.spends a = o at hmove hspent
  cases hmove with
  | kept _ hpriv =>
      refine .idle ?_ ?_
      · rw [purse, hpriv, purse]
      · rw [hspent, Option.toList_none, List.map_nil, List.append_nil]
  -- A key is drawn only where none was held, and it is a new one.
  | drew _ peerId k hnone hpriv =>
      have hheld : (l.step a).purse.held = Function.update l.purse.held peerId (some k) := by
        rw [purse, hpriv, Dict.get?_set_eq_update, purse]
      have hdrawn : k ∈ l.host.drawn a := by
        rw [Host.mem_drawn]
        refine ⟨peerId, (congrFun hheld peerId).trans (Function.update_self _ _ _), ?_⟩
        rw [hnone]
        exact (Option.some_ne_none k).symm
      refine .draw peerId k (hfresh k hdrawn) (List.mem_append_right _ hdrawn) hheld ?_
      rw [hspent, Option.toList_none, List.map_nil, List.append_nil]
  | spent _ x hget hpriv =>
      refine .spend x.peerId x.key hget ?_ hspent
      rw [purse, hpriv, Dict.get?_pop_eq_update, purse]

/-- The ledger is right: the tables agree, no key is spent twice, and every
    session has one that was spent on it. -/
structure Kept (l : KeyLedger C) : Prop where
  aligned : l.host.device.Aligned
  sound : l.purse.Sound
  recorded : ∀ id s, l.host.device.sessions.get? id = some s →
    ∃ x ∈ l.spent, x.peerId = id ∧ s.SameKeys x.session

theorem kept_start (C : Primitives) (identityPrivate : Bytes) : (start C identityPrivate).Kept where
  aligned := fun _ => rfl
  sound := Purse.sound_empty
  recorded := fun _ _ hget => absurd hget (Option.some_ne_none _).symm

/-- A session under keys that were there before is still in the ledger. -/
theorem Kept.recorded_from {l : KeyLedger C} (h : l.Kept) (a : LifeAct) (id : Bytes)
    (hfrom : l.host.device.KeysFrom (l.host.live a).device id) (s' : Session)
    (hget : (l.host.live a).device.sessions.get? id = some s') :
    ∃ x ∈ (l.step a).spent, x.peerId = id ∧ s'.SameKeys x.session := by
  rcases hfrom s' hget with ⟨s, hs, hkeys⟩
  rcases h.recorded id s hs with ⟨x, hx, hid, hkeys'⟩
  exact ⟨x, List.mem_append_left _ hx, hid, hkeys.1.trans hkeys'.1, hkeys.2.trans hkeys'.2⟩

/-- An act that makes a session spends a key on it. -/
theorem Kept.recorded_step {l : KeyLedger C} (h : l.Kept) (a : LifeAct) (id : Bytes) (s : Session)
    (hget : (l.host.live a).device.sessions.get? id = some s) :
    ∃ x ∈ (l.step a).spent, x.peerId = id ∧ s.SameKeys x.session := by
  have hmove := l.host.live_keyMove a h.aligned
  have hspent : ∀ x ∈ l.host.spends a, x ∈ (l.step a).spent := fun x hx =>
    List.mem_append_right _ (Option.mem_toList.mpr hx)
  generalize l.host.spends a = o at hmove hspent
  cases hmove with
  | kept _ _ hfrom => exact h.recorded_from a id (hfrom id) s hget
  | drew _ _ _ _ _ hfrom => exact h.recorded_from a id (hfrom id) s hget
  | spent _ x _ _ hself hother =>
      by_cases hid : id = x.peerId
      · rcases hself with ⟨t, ht, hkeys⟩
        rw [hid, ht, Option.some.injEq] at hget
        exact ⟨x, hspent x rfl, hid.symm, hget ▸ hkeys⟩
      · exact h.recorded_from a id (hother id hid) s hget

/-- An act that draws fresh keys keeps the ledger right. -/
theorem kept_step (l : KeyLedger C) (a : LifeAct) (h : l.Kept) (hfresh : l.Fresh a) :
    (l.step a).Kept where
  aligned := l.host.aligned_live a h.aligned
  sound := Purse.move_sound h.sound (fun _ hk => List.mem_append_left _ hk)
    (l.purse_step a h.aligned hfresh)
  recorded := h.recorded_step a

/-- What the ledger says of a device whose ephemeral keys are used once. -/
structure SingleUse (l : KeyLedger C) : Prop where
  /-- The two tables have the same keys, and each public key is that of the
      private key beside it. -/
  aligned : l.host.device.Aligned
  /-- Only keys that were drawn are spent, and none is spent twice. -/
  known : ∀ x ∈ l.spent, x.key ∈ l.generated
  once : (l.spent.map Spent.key).Nodup
  /-- There is no session that no key was spent on. -/
  recorded : ∀ id s, l.host.device.sessions.get? id = some s →
    ∃ x ∈ l.spent, x.peerId = id ∧ s.SameKeys x.session
  /-- The act that spends a key leaves its session behind, and no pair for the
      peer. -/
  spends : ∀ a x, l.host.spends a = some x →
    (l.host.live a).device.ephemeralPrivate.get? x.peerId = none ∧
      (l.host.live a).device.ephemeralPublic.get? x.peerId = none ∧
      ∃ s, (l.host.live a).device.sessions.get? x.peerId = some s ∧ s.SameKeys x.session
  /-- An exchange that returns has done so as well. -/
  completes : ∀ peerId ed x b s d,
    (Device.completeKeyExchange peerId ed x b).run l.host.device = .ok s d →
      d.ephemeralPrivate.get? peerId = none ∧ d.ephemeralPublic.get? peerId = none ∧
        d.sessions.get? peerId = some s

/-- A key that is spent is gone. -/
theorem Kept.spends {l : KeyLedger C} (h : l.Kept) (a : LifeAct) (x : Spent)
    (hspends : l.host.spends a = some x) :
    (l.host.live a).device.ephemeralPrivate.get? x.peerId = none ∧
      (l.host.live a).device.ephemeralPublic.get? x.peerId = none ∧
      ∃ s, (l.host.live a).device.sessions.get? x.peerId = some s ∧ s.SameKeys x.session := by
  have hmove := l.host.live_keyMove a h.aligned
  rw [hspends] at hmove
  cases hmove with
  | spent _ _ _ hpriv hself =>
      have hnone : (l.host.live a).device.ephemeralPrivate.get? x.peerId = none := by
        rw [hpriv, Dict.get?_pop_self]
      refine ⟨hnone, ?_, hself⟩
      rw [l.host.aligned_live a h.aligned x.peerId, hnone, Option.map_none]

end KeyLedger

/-- An exchange that returns has dropped both halves of the pair. -/
theorem Device.completeKeyExchange_drops (d d' : Device C) (peerId ed x : Bytes) (b : Bool)
    (s : Session) (h : (Device.completeKeyExchange peerId ed x b).run d = .ok s d') :
    d'.ephemeralPrivate.get? peerId = none ∧ d'.ephemeralPublic.get? peerId = none ∧
      d'.sessions.get? peerId = some s := by
  rcases Device.completeKeyExchange_cases peerId ed x b d with ⟨e, _, hrun⟩ |
    ⟨t, e, _, _, hrun⟩ | ⟨t, _, _, hrun⟩
  · rw [hrun] at h
    simp only [reduceCtorEq] at h
  · rw [hrun] at h
    simp only [reduceCtorEq] at h
  · rw [hrun, EStateM.Result.ok.injEq] at h
    rcases h with ⟨rfl, rfl⟩
    exact ⟨Dict.get?_pop_self _ _, Dict.get?_pop_self _ _, Dict.get?_set_self _ _ _⟩

/-- If key generation never repeats itself, the ephemeral keys of a device are
    used once, whatever is done to it and in whatever order. -/
theorem ephemerals_spent_once (C : Primitives) (identityPrivate : Bytes) (acts : List LifeAct)
    (hfresh : Along KeyLedger.step KeyLedger.Fresh (.start C identityPrivate) acts) :
    (acts.foldl KeyLedger.step (.start C identityPrivate)).SingleUse := by
  have hkept : (acts.foldl KeyLedger.step (.start C identityPrivate)).Kept :=
    along_invariant KeyLedger.Kept KeyLedger.kept_step _ acts
      (KeyLedger.kept_start C identityPrivate) hfresh
  exact ⟨hkept.aligned, fun x hx => hkept.sound.paid x.key (List.mem_map_of_mem hx),
    hkept.sound.once, hkept.recorded, hkept.spends,
    fun peerId ed x b s d h => Device.completeKeyExchange_drops _ d peerId ed x b s h⟩

/-- A handshake that is abandoned and one that completes. -/
def toyAffairs : List LifeAct :=
  .generateEphemeralKeypair { toyEnv with x25519Private := [6] } broadcastId ::
    (toyInitiation (Host.create toyPrimitives [7]) (Host.create toyPrimitives [1]) 0 0).map .act

/-- Both have drawn a key, and one of the two is spent. -/
theorem ephemerals_spent_once_affairs :
    let l := toyAffairs.foldl KeyLedger.step (.start toyPrimitives [7])
    Along KeyLedger.step KeyLedger.Fresh (.start toyPrimitives [7]) toyAffairs ∧
      l.generated = [[6], [5]] ∧ l.spent.map Spent.key = [[5]] ∧ l.SingleUse := by
  have hrun : let l := toyAffairs.foldl KeyLedger.step (.start toyPrimitives [7])
      Along KeyLedger.step KeyLedger.Fresh (.start toyPrimitives [7]) toyAffairs ∧
        l.generated = [[6], [5]] ∧ l.spent.map Spent.key = [[5]] := by
    decide +kernel
  exact ⟨hrun.1, hrun.2.1, hrun.2.2, ephemerals_spent_once toyPrimitives [7] toyAffairs hrun.1⟩

end Ztlnp

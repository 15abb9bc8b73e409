import Ztlnp.Theory.Rehandshake

/-!
# Agreement

Two fresh protocols on two devices, and a network that delivers what they
sent in any order, any number of times, or never.

Either side may initiate, both may, and either may fail at any point. What
makes the two agree is that each uses one ephemeral key at most: the pair is
reused until an exchange is completed, and a side that has completed one never
opens another. A HELLO on the wire therefore stands for the one key its
sender has, and a session is derived from the two keys and the role its
owner took.

The roles are the danger. When both sides initiate, each derives keys for
itself as the initiator, and the two sessions differ. Each then waits for a
confirmation, and the other's is sealed under the wrong order of roles, so it
does not decrypt. A confirmation that does decrypt is from a partner of the
opposite role, and that is what being established means
(`handshake_agreement`).

The cryptographic assumptions are about the values of one run: its ephemeral
keys, the keys derived from them for the two orders of roles, and its nonces.

## Main definitions

* `Exchange`, `ExchangeAct`, `Exchange.step`: Two ends and everything sent.
* `Separates`: What is assumed of HKDF and AES-GCM in a run.
* `Stage`: What one side knows in each state.
* `Message`: What one side has put on the wire.
* `Partner`: The other side of an established one.
* `Agrees`: The invariant of a run.
* `Advances`: What one step does to the side that moves.

## Theorems

* `agrees_put`: A side that advances keeps the invariant.
* `initiate_advances`, `hello_advances`, `confirmation_advances`: Every step is
  an advance.
* `agrees_step`: The invariant is kept by every step.
* `handshake_agreement`: An established side has a partner with its keys.
-/

namespace Ztlnp

variable {C : Primitives}

/-- The two ends of a handshake and everything that each has sent. -/
structure Exchange (C : Primitives) where
  ends : Bool → Endpoint C
  sent : Bool → List Bytes

/-- A side initiates, or the network hands it something the other has sent. -/
inductive ExchangeAct
  | initiate (side : Bool) (env : Env)
  | deliver (side : Bool) (env : Env) (i : Nat)
deriving DecidableEq

/-- The readings and draws of an act. -/
def ExchangeAct.env : ExchangeAct → Env
  | initiate _ env => env
  | deliver _ env _ => env

namespace Exchange

/-- Fresh protocols on two devices. -/
def opened (dev : Bool → Device C) : Exchange C where
  ends := fun side => ⟨{}, dev side⟩
  sent := fun _ => []

/-- One side has moved, and may have sent something. -/
def put (x : Exchange C) (side : Bool) (e : Endpoint C) (raw : Option Bytes) : Exchange C where
  ends := Function.update x.ends side e
  sent := Function.update x.sent side (x.sent side ++ raw.toList)

@[simp]
theorem put_ends_self (x : Exchange C) (side : Bool) (e : Endpoint C) (raw : Option Bytes) :
    (x.put side e raw).ends side = e := Function.update_self _ _ _

@[simp]
theorem put_ends_other (x : Exchange C) (side : Bool) (e : Endpoint C) (raw : Option Bytes) :
    (x.put side e raw).ends (!side) = x.ends !side :=
  Function.update_of_ne (Bool.not_ne_self side) _ _

@[simp]
theorem put_sent_self (x : Exchange C) (side : Bool) (e : Endpoint C) (raw : Option Bytes) :
    (x.put side e raw).sent side = x.sent side ++ raw.toList := Function.update_self _ _ _

@[simp]
theorem put_sent_other (x : Exchange C) (side : Bool) (e : Endpoint C) (raw : Option Bytes) :
    (x.put side e raw).sent (!side) = x.sent !side :=
  Function.update_of_ne (Bool.not_ne_self side) _ _

/-- One act. What was sent stays on the wire, so it can arrive late, again or
    never. -/
def step (x : Exchange C) : ExchangeAct → Exchange C
  | .initiate side env =>
    let r := (Endpoint.initiate env (x.ends !side).device.deviceId).run (x.ends side)
    x.put side r.final r.returned
  | .deliver side env i =>
    match (x.sent !side)[i]? with
    | none => x
    | some raw =>
      let r := (Endpoint.processIncoming env raw).run (x.ends side)
      x.put side r.final r.returned.join

end Exchange

/-- The ephemeral keys of a run: what the devices have left over for each
    other, and what the acts draw. -/
def ephemeralsOf (dev : Bool → Device C) (acts : List ExchangeAct) : List Bytes :=
  ((dev false).ephemeralPrivate.get? (dev true).deviceId).toList ++
    (((dev true).ephemeralPrivate.get? (dev false).deviceId).toList ++
      acts.map (fun a => a.env.x25519Private))

/-- The nonces of a run. -/
def noncesOf (acts : List ExchangeAct) : List Bytes := acts.map (fun a => a.env.nonce)

/-- The info string under which a side derives its session key as the
    initiator. -/
def roleInfo (dev : Bool → Device C) (side : Bool) : Bytes :=
  sessionKeyInfo ++ (dev side).deviceId ++ (dev !side).deviceId

/-- What is assumed of HKDF and AES-GCM, about the values of one run. -/
structure Separates (dev : Bool → Device C) (keys nonces : List Bytes) : Prop where
  /-- HKDF is injective in its info string. -/
  hkdf_injective : ∀ k ∈ keys, ∀ k' ∈ keys, ∀ secret ∈ C.x25519 k (C.x25519Public k'),
    ∀ side, C.hkdf 32 (roleInfo dev side) secret = C.hkdf 32 (roleInfo dev !side) secret →
      roleInfo dev side = roleInfo dev !side
  /-- A ciphertext decrypts only under the key that made it. -/
  aead_binds : ∀ k ∈ keys, ∀ k' ∈ keys, ∀ secret ∈ C.x25519 k (C.x25519Public k'),
    ∀ nonce ∈ nonces, ∀ side,
      (C.aesGcmDecrypt (C.hkdf 32 (roleInfo dev side) secret) nonce
        (C.aesGcmEncrypt (C.hkdf 32 (roleInfo dev !side) secret) nonce keyExchangeOk)).isSome →
      C.hkdf 32 (roleInfo dev side) secret = C.hkdf 32 (roleInfo dev !side) secret

section Invariant

variable (dev : Bool → Device C) (keys nonces : List Bytes)

/-- A side that holds keys: it has a session for the other and is past its own
    exchange. -/
structure Endpoint.Holds (e : Endpoint C) (you : Device C) (s : Session) : Prop where
  state : e.proto.state = .keyExchangeSent ∨ e.proto.state = .established
  session : e.device.sessions.get? you.deviceId = some s

/-- What a side knows in each state, given the ephemeral keys that the two
    sides use. -/
inductive Stage (me you : Device C) (own other : Option Bytes) (e : Endpoint C) : Prop
  | idle (hstate : e.proto.state = .idle)
      (hkey : e.device.ephemeralPrivate.get? you.deviceId = own)
  | helloSent (k : Bytes) (hstate : e.proto.state = .helloSent)
      (hinitiator : e.proto.iAmInitiator = true) (hown : own = some k)
      (hkey : ∀ l, e.device.ephemeralPrivate.get? you.deviceId = some l → l = k)
  | helloReceived (k k' : Bytes) (hstate : e.proto.state = .helloReceived)
      (hinitiator : e.proto.iAmInitiator = false) (hown : own = some k) (hother : other = some k')
      (hmet : e.proto.Met you k')
      (hkey : ∀ l, e.device.ephemeralPrivate.get? you.deviceId = some l → l = k)
  | keyed (k k' : Bytes) (s : Session) (hholds : e.Holds you s)
      (hinitiator : e.proto.state = .keyExchangeSent → e.proto.iAmInitiator = true)
      (hown : own = some k) (hother : other = some k') (hpeer : e.proto.peerId = some you.deviceId)
      (hshares : s.Shares C k k' (if e.proto.iAmInitiator then me.deviceId else you.deviceId)
        (if e.proto.iAmInitiator then you.deviceId else me.deviceId))

/-- What a side has put on the wire: its HELLO, or a confirmation under the
    session it holds. -/
inductive Message (me you : Device C) (own : Option Bytes) (e : Endpoint C) (raw : Bytes) : Prop
  | hello (k : Bytes) (p : Packet) (hown : own = some k) (hp : HelloFor me k raw p)
  | confirmation (s : Session) (env : Env) (p : Packet) (hholds : e.Holds you s)
      (hnonce : env.nonce ∈ nonces) (hp : ConfirmationFor me env s.sessionKey raw p)

/-- The other side of an established one: it holds keys in the opposite role,
    and is established as well if it is the responder. -/
structure Partner (e o : Endpoint C) : Prop where
  state : o.proto.state = .keyExchangeSent ∨ o.proto.state = .established
  role : o.proto.iAmInitiator = !e.proto.iAmInitiator
  responder : e.proto.iAmInitiator = true → o.proto.state = .established

/-- The invariant of a run, with the ephemeral keys in use. -/
structure Agrees (x : Exchange C) (g : Bool → Option Bytes) : Prop where
  identity : ∀ side, (x.ends side).device.identityPrivate = (dev side).identityPrivate
  aligned : ∀ side, (x.ends side).device.Aligned
  drawn : ∀ side k, g side = some k → k ∈ keys
  stage : ∀ side, Stage (dev side) (dev !side) (g side) (g !side) (x.ends side)
  messages : ∀ side, ∀ raw ∈ x.sent side,
    Message nonces (dev side) (dev !side) (g side) (x.ends side) raw
  partner : ∀ side, (x.ends side).proto.state = .established →
    Partner (x.ends side) (x.ends !side)

/-- What one step does to the side that moves. -/
structure Advances (me you : Device C) (own own' other : Option Bytes) (o e e' : Endpoint C)
    (raw : Option Bytes) : Prop where
  identity : e'.device.identityPrivate = e.device.identityPrivate
  aligned : e'.device.Aligned
  drawn : ∀ k, own' = some k → k ∈ keys
  grows : ∀ k, own = some k → own' = some k
  stage : Stage me you own' other e'
  /-- Keys that are held stay, in the same role. -/
  keeps : ∀ s, e.Holds you s → ∃ s', e'.Holds you s' ∧ s'.sessionKey = s.sessionKey ∧
    e'.proto.iAmInitiator = e.proto.iAmInitiator
  stays : e.proto.state = .established → e'.proto.state = .established
  sends : ∀ b ∈ raw, Message nonces me you own' e' b
  enters : e.proto.state ≠ .established → e'.proto.state = .established → Partner e' o

/-- A side that is past its exchange is at the last stage. -/
theorem Stage.keyed_of_state {me you : Device C} {own other : Option Bytes} {e : Endpoint C}
    (h : Stage me you own other e)
    (hstate : e.proto.state = .keyExchangeSent ∨ e.proto.state = .established) :
    ∃ k k' s, own = some k ∧ other = some k' ∧ e.Holds you s ∧
      (e.proto.state = .keyExchangeSent → e.proto.iAmInitiator = true) ∧
      s.Shares C k k' (if e.proto.iAmInitiator then me.deviceId else you.deviceId)
        (if e.proto.iAmInitiator then you.deviceId else me.deviceId) := by
  cases h with
  | idle hidle =>
      rw [hidle] at hstate
      simp only [reduceCtorEq, or_self] at hstate
  | helloSent _ hsent =>
      rw [hsent] at hstate
      simp only [reduceCtorEq, or_self] at hstate
  | helloReceived _ _ hreceived =>
      rw [hreceived] at hstate
      simp only [reduceCtorEq, or_self] at hstate
  | keyed k k' s hholds hini hown hother _ hshares =>
      exact ⟨k, k', s, hown, hother, hholds, hini, hshares⟩

/-- What a side knows of the other stays true when the other draws its key. -/
theorem Stage.mono {me you : Device C} {own other other' : Option Bytes} {e : Endpoint C}
    (h : Stage me you own other e) (hgrows : ∀ k, other = some k → other' = some k) :
    Stage me you own other' e := by
  cases h with
  | idle hstate hkey => exact .idle hstate hkey
  | helloSent k hstate hini hown hkey => exact .helloSent k hstate hini hown hkey
  | helloReceived k k' hstate hini hown hother hmet hkey =>
      exact .helloReceived k k' hstate hini hown (hgrows k' hother) hmet hkey
  | keyed k k' s hholds hini hown hother hpeer hshares =>
      exact .keyed k k' s hholds hini hown (hgrows k' hother) hpeer hshares

section Put

variable {dev keys nonces}
variable {x : Exchange C} {g : Bool → Option Bytes} {side : Bool} {own' : Option Bytes}
variable {e' : Endpoint C} {raw : Option Bytes}

/-- What was sent before the step can still be read as sent. -/
theorem Message.advance {me you : Device C} {own other : Option Bytes} {o e : Endpoint C}
    {b : Bytes} (h : Message nonces me you own e b)
    (hadv : Advances keys nonces me you own own' other o e e' raw) :
    Message nonces me you own' e' b := by
  cases h with
  | hello k p hown hp => exact .hello k p (hadv.grows k hown) hp
  | confirmation s env p hholds hnonce hp =>
      rcases hadv.keeps s hholds with ⟨s', hholds', hkey, _⟩
      rw [← hkey] at hp
      exact .confirmation s' env p hholds' hnonce hp

/-- An established side keeps its partner, when either of the two moves. -/
theorem Partner.advance_self {me you : Device C} {own other : Option Bytes} {o e : Endpoint C}
    (h : Partner e o) (hstage : Stage me you own other e) (hest : e.proto.state = .established)
    (hadv : Advances keys nonces me you own own' other o e e' raw) : Partner e' o := by
  rcases hstage.keyed_of_state (Or.inr hest) with ⟨_, _, s, _, _, hs, _⟩
  rcases hadv.keeps s hs with ⟨_, _, _, hrole⟩
  refine ⟨h.state, ?_, ?_⟩
  · rw [hrole]
    exact h.role
  · rw [hrole]
    exact h.responder

theorem Partner.advance_other {me you : Device C} {own other : Option Bytes} {o e : Endpoint C}
    (h : Partner o e) (hstage : Stage me you own other e)
    (hadv : Advances keys nonces me you own own' other o e e' raw) : Partner o e' := by
  rcases hstage.keyed_of_state h.state with ⟨_, _, s, _, _, hs, _⟩
  rcases hadv.keeps s hs with ⟨s', hs', _, hrole⟩
  refine ⟨hs'.state, ?_, fun hini => hadv.stays (h.responder hini)⟩
  rw [hrole]
  exact h.role

/-- What holds of a side and of the other holds of both. -/
theorem both_sides (side : Bool) {P : Bool → Prop} (h : P side) (h' : P !side) : ∀ t, P t := by
  intro t
  by_cases ht : t = side
  · rw [ht]
    exact h
  · rw [Bool.eq_not_of_ne ht]
    exact h'

/-- A side that advances keeps the invariant. -/
theorem agrees_put (h : Agrees dev keys nonces x g)
    (hadv : Advances keys nonces (dev side) (dev !side) (g side) own' (g !side) (x.ends !side)
      (x.ends side) e' raw) :
    Agrees dev keys nonces (x.put side e' raw) (Function.update g side own') := by
  have hself : Function.update g side own' side = own' := Function.update_self _ _ _
  have hother : Function.update g side own' (!side) = g !side :=
    Function.update_of_ne (Bool.not_ne_self side) _ _
  constructor
  · refine both_sides side ?_ ?_
    · rw [Exchange.put_ends_self, hadv.identity]
      exact h.identity side
    · rw [Exchange.put_ends_other]
      exact h.identity !side
  · refine both_sides side ?_ ?_
    · rw [Exchange.put_ends_self]
      exact hadv.aligned
    · rw [Exchange.put_ends_other]
      exact h.aligned !side
  · refine both_sides side ?_ ?_
    · rw [hself]
      exact hadv.drawn
    · rw [hother]
      exact h.drawn !side
  · refine both_sides side ?_ ?_
    · rw [Exchange.put_ends_self, hself, hother]
      exact hadv.stage
    · -- What the other side knows of this one grows with it.
      have hstage := h.stage !side
      rw [Exchange.put_ends_other, hother]
      rw [Bool.not_not] at hstage ⊢
      rw [hself]
      exact hstage.mono hadv.grows
  · refine both_sides side ?_ ?_
    · rw [Exchange.put_ends_self, Exchange.put_sent_self, hself]
      intro b hb
      rcases List.mem_append.mp hb with hold | hnew
      · exact (h.messages side b hold).advance hadv
      · exact hadv.sends b (Option.mem_toList.mp hnew)
    · rw [Exchange.put_ends_other, Exchange.put_sent_other, hother]
      exact h.messages !side
  · refine both_sides side ?_ ?_
    · rw [Exchange.put_ends_self, Exchange.put_ends_other]
      intro hest
      by_cases hwas : (x.ends side).proto.state = .established
      · exact (h.partner side hwas).advance_self (h.stage side) hwas hadv
      · exact hadv.enters hwas hest
    · rw [Exchange.put_ends_other, Bool.not_not, Exchange.put_ends_self]
      intro hest
      have hpartner := h.partner (!side) hest
      rw [Bool.not_not] at hpartner
      exact hpartner.advance_other (h.stage side) hadv

end Put

section Steps

variable {keys nonces}
variable {me you : Device C} {own other : Option Bytes} {o e : Endpoint C} {env : Env}

/-- A step that changes nothing. -/
theorem Advances.refl (halign : e.device.Aligned) (hdrawn : ∀ k, own = some k → k ∈ keys)
    (hstage : Stage me you own other e) :
    Advances keys nonces me you own own other o e e none where
  identity := rfl
  aligned := halign
  drawn := hdrawn
  grows := fun _ h => h
  stage := hstage
  keeps := fun s h => ⟨s, h, rfl, rfl⟩
  stays := id
  sends := fun _ h => absurd h (Option.not_mem_none _)
  enters := fun hno h => absurd h hno

/-- A side that is not past its exchange holds no keys. -/
theorem Endpoint.Holds.not_early {s : Session} {st : ProtocolState} (h : e.Holds you s)
    (hstate : e.proto.state = st) (hst : st ≠ .keyExchangeSent ∧ st ≠ .established) : False := by
  rcases h.state with hs | hs
  · exact hst.1 (hstate.symm.trans hs)
  · exact hst.2 (hstate.symm.trans hs)

/-- A side that holds no keys yet, and is not established by the step. -/
theorem early_advances {own' : Option Bytes} (st : ProtocolState) (hst : e.proto.state = st)
    (hearly : st ≠ .keyExchangeSent ∧ st ≠ .established) (e' : Endpoint C) (raw : Option Bytes)
    (hid : e'.device.identityPrivate = e.device.identityPrivate) (halign : e'.device.Aligned)
    (hdrawn : ∀ k, own' = some k → k ∈ keys) (hgrows : ∀ k, own = some k → own' = some k)
    (hstate : e'.proto.state ≠ .established) (hstage : Stage me you own' other e')
    (hsends : ∀ b ∈ raw, Message nonces me you own' e' b) :
    Advances keys nonces me you own own' other o e e' raw where
  identity := hid
  aligned := halign
  drawn := hdrawn
  grows := hgrows
  stage := hstage
  keeps := fun _ h => (h.not_early hst hearly).elim
  stays := fun h => absurd (hst.symm.trans h) hearly.2
  sends := hsends
  enters := fun _ h => absurd h hstate

/-- An idle side that has made sure of its ephemeral key, in whichever state
    that leaves it. -/
theorem idle_advances (hidle : e.proto.state = .idle)
    (hkey : e.device.ephemeralPrivate.get? you.deviceId = own)
    (hdrawn : ∀ k, own = some k → k ∈ keys) (henv : env.x25519Private ∈ keys) (e' : Endpoint C)
    (raw : Option Bytes) (hid : e'.device.identityPrivate = e.device.identityPrivate)
    (halign : e'.device.Aligned) (hstate : e'.proto.state ≠ .established)
    (hstage : Stage me you (some (e.device.ephemeralFor env you.deviceId)) other e')
    (hsends : ∀ b ∈ raw,
      Message nonces me you (some (e.device.ephemeralFor env you.deviceId)) e' b) :
    Advances keys nonces me you own (some (e.device.ephemeralFor env you.deviceId)) other o e e'
      raw := by
  refine early_advances .idle hidle (by decide) e' raw hid halign ?_ ?_ hstate hstage hsends
  · intro k hk
    rw [Option.some.injEq, Device.ephemeralFor, hkey] at hk
    cases hown : own with
    | none =>
        rw [hown] at hk
        rw [← hk]
        exact henv
    | some l =>
        rw [hown] at hk
        rw [← hk]
        exact hdrawn l hown
  · intro k hk
    rw [Device.ephemeralFor, hkey, hk, Option.getD_some]

/-- Initiating is an advance. -/
theorem initiate_advances (hme : e.device.identityPrivate = me.identityPrivate)
    (halign : e.device.Aligned) (hdrawn : ∀ k, own = some k → k ∈ keys)
    (henv : env.x25519Private ∈ keys) (hstage : Stage me you own other e) :
    ∃ own', Advances keys nonces me you own own' other o e
      ((Endpoint.initiate env you.deviceId).run e).final
      ((Endpoint.initiate env you.deviceId).run e).returned := by
  by_cases hidle : e.proto.state = .idle
  · have hkey : e.device.ephemeralPrivate.get? you.deviceId = own := by
      cases hstage with
      | idle _ hkey => exact hkey
      | helloSent _ hs => simp only [hidle, reduceCtorEq] at hs
      | helloReceived _ _ hs => simp only [hidle, reduceCtorEq] at hs
      | keyed _ _ _ hholds => exact (hholds.not_early hidle (by decide)).elim
    have hprivate := e.device.withEphemeral_private env you.deviceId
    rcases Endpoint.initiate_cases env you.deviceId e halign hidle with
      ⟨_, p, raw, hp, hrun⟩ | ⟨_, x, hrun⟩
    · rw [hrun]
      refine ⟨_, idle_advances hidle hkey hdrawn henv _ _
        (e.device.withEphemeral_identityPrivate env you.deviceId)
        (e.device.aligned_withEphemeral env you.deviceId halign)
        (by simp only [EStateM.Result.final, ne_eq, reduceCtorEq, not_false_eq_true]) ?_ ?_⟩
      · refine .helloSent _ rfl rfl rfl (fun l hl => ?_)
        rw [EStateM.Result.final, hprivate, Option.some.injEq] at hl
        exact hl.symm
      · intro b hb
        rw [EStateM.Result.returned, Option.mem_some_iff] at hb
        rw [← hb]
        exact .hello _ p rfl (hp.of_identity hme)
    · -- The HELLO did not fit: the key is kept for the next attempt.
      rw [hrun]
      refine ⟨_, idle_advances hidle hkey hdrawn henv _ _
        (e.device.withEphemeral_identityPrivate env you.deviceId)
        (e.device.aligned_withEphemeral env you.deviceId halign)
        (by simp only [EStateM.Result.final, hidle, ne_eq, reduceCtorEq, not_false_eq_true])
        (.idle hidle hprivate) (fun b hb => absurd hb (Option.not_mem_none _))⟩
  · rcases Endpoint.initiate_busy env you.deviceId e hidle with ⟨x, hrun⟩
    rw [hrun]
    exact ⟨own, .refl halign hdrawn hstage⟩

/-- A HELLO that meets an idle side. -/
theorem hello_idle_advances {k' raw : Bytes} {p : Packet}
    (hme : e.device.identityPrivate = me.identityPrivate) (halign : e.device.Aligned)
    (hdrawn : ∀ k, own = some k → k ∈ keys) (henv : env.x25519Private ∈ keys)
    (hp : HelloFor you k' raw p) (hother : other = some k') (hidle : e.proto.state = .idle)
    (hkey : e.device.ephemeralPrivate.get? you.deviceId = own) :
    ∃ own', Advances keys nonces me you own own' other o e
      ((Endpoint.handleHello env p).run e).final
      ((Endpoint.handleHello env p).run e).returned.join := by
  have hprivate := e.device.withEphemeral_private env you.deviceId
  have hcases := Endpoint.handleHello_idle_cases env p e halign hp.payload_length hidle
  simp only [hp.senderId] at hcases
  -- The HELLO is answered, or building the answer raises after the ephemeral key is drawn.
  rcases hcases with ⟨_, q, b, hq, hrun⟩ | ⟨_, x, hrun⟩
  · rw [hrun]
    refine ⟨_, idle_advances hidle hkey hdrawn henv _ _
      (e.device.withEphemeral_identityPrivate env you.deviceId)
      (e.device.aligned_withEphemeral env you.deviceId halign)
      (by simp only [EStateM.Result.final, ne_eq, reduceCtorEq, not_false_eq_true]) ?_ ?_⟩
    · refine .helloReceived _ k' rfl rfl rfl hother ?_ (fun l hl => ?_)
      · exact ⟨(hp.met e.proto).peerId, (hp.met e.proto).peerEd25519Pub,
          (hp.met e.proto).peerX25519Pub⟩
      · simp only [EStateM.Result.final, Device.withPending, hprivate, Option.some.injEq] at hl
        exact hl.symm
    · -- The answer is our own HELLO.
      intro c hc
      simp only [EStateM.Result.returned, Option.join_some, Option.mem_some_iff] at hc
      rw [← hc]
      exact .hello _ q rfl (hq.of_identity hme)
  · rw [hrun]
    exact ⟨_, idle_advances hidle hkey hdrawn henv _ _
      (e.device.withEphemeral_identityPrivate env you.deviceId)
      (e.device.aligned_withEphemeral env you.deviceId halign)
      (by simp only [EStateM.Result.final, Protocol.metHello, hidle, ne_eq, reduceCtorEq,
        not_false_eq_true])
      (.idle hidle hprivate) (fun b hb => absurd hb (Option.not_mem_none _))⟩

/-- A HELLO that meets an initiator. -/
theorem hello_helloSent_advances {k k' raw : Bytes} {p : Packet}
    (hme : e.device.identityPrivate = me.identityPrivate) (halign : e.device.Aligned)
    (hdrawn : ∀ k, own = some k → k ∈ keys) (hnonce : env.nonce ∈ nonces)
    (hp : HelloFor you k' raw p) (hother : other = some k')
    (hstate : e.proto.state = .helloSent) (hini : e.proto.iAmInitiator = true)
    (hown : own = some k)
    (hkey : ∀ l, e.device.ephemeralPrivate.get? you.deviceId = some l → l = k) :
    Advances keys nonces me you own own other o e ((Endpoint.handleHello env p).run e).final
      ((Endpoint.handleHello env p).run e).returned.join := by
  have hcases := Endpoint.handleHello_helloSent_cases env p e halign hp.payload_length hstate
  simp only [hp.senderId, hp.take_payload, hp.field_payload] at hcases
  rcases hcases with ⟨x, _, hrun⟩ | ⟨s, hex, hsent⟩
  · rw [hrun]
    exact early_advances .helloSent hstate (by decide) _ _ rfl halign hdrawn (fun _ h => h)
      (by simp only [EStateM.Result.final, Protocol.metHello, hstate, ne_eq, reduceCtorEq,
        not_false_eq_true])
      (.helloSent k hstate hini hown hkey) (fun b hb => absurd hb (Option.not_mem_none _))
  · -- The exchange was made with the one key of this side.
    rcases e.device.exchangedSession_inv you k' true s hex with ⟨l, hl, hshares⟩
    rw [hkey l hl, if_pos rfl, if_pos rfl, (me.identity_eq e.device hme).2] at hshares
    have halign' := e.device.aligned_installed you.deviceId s halign
    rcases hsent with ⟨_, q, b, hq, hrun⟩ | ⟨_, x, hrun⟩
    · have hholds : Endpoint.Holds (C := C)
          ⟨{ e.proto.metHello p with state := .keyExchangeSent },
            (e.device.installed you.deviceId s).advanced you.deviceId s⟩ you
          { s with localSequence := s.localSequence + 1 } :=
        ⟨Or.inl rfl, Dict.get?_set_self _ _ _⟩
      rw [hrun]
      refine early_advances .helloSent hstate (by decide) _ _ rfl halign' hdrawn (fun _ h => h)
        (by simp only [EStateM.Result.final, ne_eq, reduceCtorEq, not_false_eq_true]) ?_ ?_
      · refine .keyed k k' _ hholds (fun _ => hini) hown hother (hp.met e.proto).peerId ?_
        simp only [EStateM.Result.final, Protocol.metHello, hini, if_true]
        exact hshares
      · intro c hc
        simp only [EStateM.Result.returned, Option.join_some, Option.mem_some_iff] at hc
        rw [← hc]
        exact .confirmation _ env q hholds hnonce (hq.of_identity hme)
    · -- The confirmation did not fit: the key is spent and the side is stuck.
      rw [hrun]
      refine early_advances .helloSent hstate (by decide) _ _ rfl halign' hdrawn (fun _ h => h)
        (by simp only [EStateM.Result.final, Protocol.metHello, hstate, ne_eq, reduceCtorEq,
          not_false_eq_true])
        (.helloSent k hstate hini hown (fun l hl => ?_))
        (fun b hb => absurd hb (Option.not_mem_none _))
      simp only [EStateM.Result.final, Device.advanced, Device.installed, Dict.get?_pop_self,
        reduceCtorEq] at hl

/-- A HELLO that meets a side which has already met it. -/
theorem hello_again_advances {k' raw : Bytes} {p : Packet} (halign : e.device.Aligned)
    (hdrawn : ∀ k, own = some k → k ∈ keys) (hp : HelloFor you k' raw p)
    (hother : other = some k') (hidle : e.proto.state ≠ .idle)
    (hsent : e.proto.state ≠ .helloSent) (hstage : Stage me you own other e) :
    Advances keys nonces me you own own other o e ((Endpoint.handleHello env p).run e).final
      ((Endpoint.handleHello env p).run e).returned.join := by
  rcases Endpoint.handleHello_unexpected env p e hp.payload_length hidle hsent with ⟨x, hrun⟩
  rw [hrun]
  -- The fields are written again, with what they already were.
  have hstage' : Stage me you own other { e with proto := e.proto.metHello p } := by
    cases hstage with
    | idle hs => exact absurd hs hidle
    | helloSent _ hs => exact absurd hs hsent
    | helloReceived k l hs hini hown _ _ hkey =>
        exact .helloReceived k k' hs hini hown hother (hp.met e.proto) hkey
    | keyed k l s hholds hini hown hl _ hshares =>
        exact .keyed k l s ⟨hholds.state, hholds.session⟩ hini hown hl (hp.met e.proto).peerId
          hshares
  exact {
    identity := rfl
    aligned := halign
    drawn := hdrawn
    grows := fun _ h => h
    stage := hstage'
    keeps := fun s h => ⟨s, ⟨h.state, h.session⟩, rfl, rfl⟩
    stays := id
    sends := fun _ h => absurd h (Option.not_mem_none _)
    enters := fun hno h => absurd h hno }

/-- A stage is one of the five states of a handshake. -/
theorem Stage.not_terminal (h : Stage me you own other e) :
    e.proto.state ≠ .closed ∧ e.proto.state ≠ .error := by
  cases h with
  | idle hs => simp only [hs, ne_eq, reduceCtorEq, not_false_eq_true, and_self]
  | helloSent _ hs => simp only [hs, ne_eq, reduceCtorEq, not_false_eq_true, and_self]
  | helloReceived _ _ hs => simp only [hs, ne_eq, reduceCtorEq, not_false_eq_true, and_self]
  | keyed _ _ _ hholds =>
      rcases hholds.state with hs | hs
      · simp only [hs, ne_eq, reduceCtorEq, not_false_eq_true, and_self]
      · simp only [hs, ne_eq, reduceCtorEq, not_false_eq_true, and_self]

/-- Receiving the other side's HELLO is an advance. -/
theorem hello_advances {k' raw : Bytes} {p : Packet}
    (hme : e.device.identityPrivate = me.identityPrivate) (halign : e.device.Aligned)
    (hdrawn : ∀ k, own = some k → k ∈ keys) (henv : env.x25519Private ∈ keys)
    (hnonce : env.nonce ∈ nonces) (hp : HelloFor you k' raw p) (hother : other = some k')
    (hstage : Stage me you own other e) :
    ∃ own', Advances keys nonces me you own own' other o e
      ((Endpoint.processIncoming env raw).run e).final
      ((Endpoint.processIncoming env raw).run e).returned.join := by
  rw [hp.processIncoming_run env e _ rfl hstage.not_terminal]
  cases hstage with
  | idle hs hkey => exact hello_idle_advances hme halign hdrawn henv hp hother hs hkey
  | helloSent k hs hini hown hkey =>
      exact ⟨own, hello_helloSent_advances hme halign hdrawn hnonce hp hother hs hini hown hkey⟩
  -- Past IDLE and HELLO_SENT a HELLO is refused, whatever it carries.
  | helloReceived k l hs hini hown hl hmet hkey =>
      refine ⟨own, hello_again_advances halign hdrawn hp hother ?_ ?_
        (.helloReceived k l hs hini hown hl hmet hkey)⟩
      · simp only [hs, ne_eq, reduceCtorEq, not_false_eq_true]
      · simp only [hs, ne_eq, reduceCtorEq, not_false_eq_true]
  | keyed k l s hholds hini hown hl hpeer hshares =>
      refine ⟨own, hello_again_advances halign hdrawn hp hother ?_ ?_
        (.keyed k l s hholds hini hown hl hpeer hshares)⟩
      · intro hs
        exact hholds.not_early hs (by decide)
      · intro hs
        exact hholds.not_early hs (by decide)

/-- One advance after another. -/
theorem Advances.trans {own' own'' : Option Bytes} {e' e'' : Endpoint C} {raw : Option Bytes}
    (h : Advances keys nonces me you own own' other o e e' none)
    (h' : Advances keys nonces me you own' own'' other o e' e'' raw) :
    Advances keys nonces me you own own'' other o e e'' raw where
  identity := h'.identity.trans h.identity
  aligned := h'.aligned
  drawn := h'.drawn
  grows := fun k hk => h'.grows k (h.grows k hk)
  stage := h'.stage
  keeps := by
    intro s hs
    rcases h.keeps s hs with ⟨s', hs', hkey, hrole⟩
    rcases h'.keeps s' hs' with ⟨s'', hs'', hkey', hrole'⟩
    exact ⟨s'', hs'', hkey'.trans hkey, hrole'.trans hrole⟩
  stays := fun hest => h'.stays (h.stays hest)
  sends := h'.sends
  enters := by
    intro hno hest
    by_cases hmid : e'.proto.state = .established
    · exact (h.enters hno hmid).advance_self h.stage hmid h'
    · exact h'.enters hmid hest

/-- Receiving a packet, before any handler has run, is an advance. -/
theorem received_advances {raw : Bytes} {p : Packet} {r : Device C} (halign : e.device.Aligned)
    (hdrawn : ∀ k, own = some k → k ∈ keys) (hstage : Stage me you own other e)
    (hrec : Device.Received e.device env raw p r) :
    Advances keys nonces me you own own other o e { e with device := r } none := by
  rcases Device.received_tables _ r _ _ _ hrec with ⟨hid, hpriv, _⟩
  -- Reception records a number in a session, and no stage speaks of the numbers.
  have hstage' : Stage me you own other { e with device := r } := by
    cases hstage with
    | idle hs hkey => exact .idle hs (by rw [hpriv]; exact hkey)
    | helloSent k hs hini hown hkey =>
        exact .helloSent k hs hini hown (by rw [hpriv]; exact hkey)
    | helloReceived k k' hs hini hown hother hmet hkey =>
        exact .helloReceived k k' hs hini hown hother hmet (by rw [hpriv]; exact hkey)
    | keyed k k' s hholds hini hown hother hpeer hshares =>
        rcases Device.received_keys _ r _ _ _ hrec _ s hholds.session with ⟨s', hs', hsk, hmk⟩
        refine .keyed k k' s' ⟨hholds.state, hs'⟩ hini hown hother hpeer ?_
        rcases hshares with ⟨secret, hx, hk, hm⟩
        exact ⟨secret, hx, hsk.trans hk, hmk.trans hm⟩
  exact {
    identity := hid
    aligned := Device.received_aligned _ r _ _ _ hrec halign
    drawn := hdrawn
    grows := fun _ h => h
    stage := hstage'
    keeps := by
      intro s hs
      rcases Device.received_keys _ r _ _ _ hrec _ s hs.session with ⟨s', hs', hsk, _⟩
      exact ⟨s', ⟨hs.state, hs'⟩, hsk, rfl⟩
    stays := id
    sends := fun _ h => absurd h (Option.not_mem_none _)
    enters := fun hno h => absurd h hno }

/-- The session that a responder completes is under its key, the other's key
    and its role. -/
theorem completes_shares {k k' peerId : Bytes} {s : Session}
    (hme : e.device.identityPrivate = me.identityPrivate) (hmet : e.proto.Met you k')
    (hkey : ∀ l, e.device.ephemeralPrivate.get? you.deviceId = some l → l = k)
    (hcomp : e.Completes peerId s) :
    peerId = you.deviceId ∧ s.Shares C k k' you.deviceId me.deviceId := by
  rcases hcomp with ⟨ed, x, hid, hed, hx, hex⟩
  rw [hmet.peerId, Option.some.injEq] at hid
  rw [hmet.peerEd25519Pub, Option.some.injEq] at hed
  rw [hmet.peerX25519Pub, Option.some.injEq] at hx
  rw [← hid, ← hed, ← hx] at hex
  rcases e.device.exchangedSession_inv you k' false s hex with ⟨l, hl, hshares⟩
  rw [hkey l hl, if_neg Bool.false_ne_true, if_neg Bool.false_ne_true,
    (me.identity_eq e.device hme).2] at hshares
  exact ⟨hid.symm, hshares⟩

/-- The other side holds keys while this one is a responder without any: it is
    the initiator. -/
theorem initiator_of_holds {so : Session} (hheld : o.Holds me so)
    (hostage : Stage you me other own o) (hpartner : o.proto.state = .established → Partner o e)
    (hstate : e.proto.state = .helloReceived) : o.proto.iAmInitiator = true := by
  by_contra hini
  rcases hostage.keyed_of_state hheld.state with ⟨_, _, _, _, _, _, hinitiator, _⟩
  rcases hheld.state with hsent | hest
  · -- Whoever waits for a confirmation has initiated.
    exact hini (hinitiator hsent)
  · -- An established side would have a partner that holds keys.
    rcases (hpartner hest).state with hs | hs
    · rw [hstate] at hs
      simp only [reduceCtorEq] at hs
    · rw [hstate] at hs
      simp only [reduceCtorEq] at hs

/-- A responder that holds its session for the first time is established by
    the step, with the initiator as its partner. -/
theorem responder_established {k k' : Bytes} {s so : Session} {d : Device C} {raw : Option Bytes}
    (hdrawn : ∀ k, own = some k → k ∈ keys) (hheld : o.Holds me so)
    (hostage : Stage you me other own o) (hpartner : o.proto.state = .established → Partner o e)
    (hstate : e.proto.state = .helloReceived) (hini : e.proto.iAmInitiator = false)
    (hown : own = some k) (hother : other = some k') (hmet : e.proto.Met you k')
    (hid : d.identityPrivate = e.device.identityPrivate) (halign : d.Aligned)
    (hget : d.sessions.get? you.deviceId = some s)
    (hshares : s.Shares C k k' you.deviceId me.deviceId)
    (hsends : ∀ b ∈ raw,
      Message nonces me you own ⟨{ e.proto with state := .established }, d⟩ b) :
    Advances keys nonces me you own own other o e ⟨{ e.proto with state := .established }, d⟩
      raw where
  identity := hid
  aligned := halign
  drawn := hdrawn
  grows := fun _ h => h
  stage := by
    refine .keyed k k' s ⟨Or.inr rfl, hget⟩ ?_ hown hother hmet.peerId ?_
    · simp only [reduceCtorEq, false_implies]
    · simp only [hini, Bool.false_eq_true, if_false]
      exact hshares
  keeps := fun _ h => (h.not_early hstate (by decide)).elim
  stays := fun _ => rfl
  sends := hsends
  -- The peer holds its keys already, so it is the other role and stays where it is.
  enters := by
    intro _ _
    refine ⟨hheld.state, ?_, ?_⟩
    · rw [initiator_of_holds hheld hostage hpartner hstate, hini]
      rfl
    · simp only [hini, Bool.false_eq_true, false_implies]

/-- A KEY_EXCHANGE that meets a responder. -/
theorem keyExchange_responder_advances {k k' : Bytes} {so : Session} {p : Packet}
    (hme : e.device.identityPrivate = me.identityPrivate) (halign : e.device.Aligned)
    (hdrawn : ∀ k, own = some k → k ∈ keys) (hnonce : env.nonce ∈ nonces)
    (hheld : o.Holds me so) (hostage : Stage you me other own o)
    (hpartner : o.proto.state = .established → Partner o e)
    (hstate : e.proto.state = .helloReceived) (hini : e.proto.iAmInitiator = false)
    (hown : own = some k) (hother : other = some k') (hmet : e.proto.Met you k')
    (hkey : ∀ l, e.device.ephemeralPrivate.get? you.deviceId = some l → l = k) :
    Advances keys nonces me you own own other o e
      ((Endpoint.handleKeyExchange env p).run e).final
      ((Endpoint.handleKeyExchange env p).run e).returned.join := by
  -- A session that was installed and not accepted: the key is spent and the side is stuck.
  have hspent : ∀ s : Session, Advances keys nonces me you own own other o e
      { e with device := e.device.installed you.deviceId s } none := by
    intro s
    refine early_advances .helloReceived hstate (by decide) _ _ rfl
      (e.device.aligned_installed you.deviceId s halign) hdrawn (fun _ h => h)
      (by simp only [hstate, ne_eq, reduceCtorEq, not_false_eq_true])
      (.helloReceived k k' hstate hini hown hother hmet (fun l hl => ?_))
      (fun b hb => absurd hb (Option.not_mem_none _))
    simp only [Device.installed, Dict.get?_pop_self, reduceCtorEq] at hl
  have hout := Endpoint.handleKeyExchange_helloReceived env p e hstate
  generalize hr : (Endpoint.handleKeyExchange env p).run e = r at hout
  cases hout with
  | refused => exact .refl halign hdrawn (.helloReceived k k' hstate hini hown hother hmet hkey)
  | halfway _ s _ _ hcomp hpub =>
      rcases hcomp with ⟨_, _, _, _, _, hex⟩
      exact absurd hpub (halign.public_ne_none _ _ _ _ _ s hex)
  | stale peerId s _ _ hcomp =>
      rw [(completes_shares hme hmet hkey hcomp).1]
      exact hspent s
  | unconfirmed peerId s _ _ hcomp =>
      rw [(completes_shares hme hmet hkey hcomp).1]
      exact hspent (s.recorded p.sequence)
  | unanswered _ hs => simp only [hstate, reduceCtorEq] at hs
  | answered hs => simp only [hstate, reduceCtorEq] at hs
  | unexpected _ hs => exact absurd hstate hs
  | established peerId s _ _ hcomp _ hadmits hplain =>
      rcases completes_shares hme hmet hkey hcomp with ⟨rfl, hshares⟩
      have halign' := e.device.aligned_installed you.deviceId (s.recorded p.sequence) halign
      -- Established in any case, with or without an answer on the wire.
      rcases Endpoint.handleKeyExchange_confirms env p e you.deviceId s halign hstate hcomp hadmits
        hplain with ⟨_, q, b, hq, hrun⟩ | ⟨_, x, hrun⟩
      · rw [hr] at hrun
        rw [hrun]
        refine responder_established hdrawn hheld hostage hpartner hstate hini hown hother hmet rfl
          halign' (Dict.get?_set_self _ _ _) hshares (fun c hc => ?_)
        simp only [EStateM.Result.returned, Option.join_some, Option.mem_some_iff] at hc
        rw [← hc]
        exact .confirmation _ env q ⟨Or.inr rfl, Dict.get?_set_self _ _ _⟩ hnonce
          (hq.of_identity hme)
      · rw [hr] at hrun
        rw [hrun]
        exact responder_established hdrawn hheld hostage hpartner hstate hini hown hother hmet rfl
          halign' (Dict.get?_set_self _ _ _) hshares
          (fun c hc => absurd hc (Option.not_mem_none _))

/-- A confirmation that was sealed for one order of roles is not one for the
    other. -/
def Rejects (keys nonces : List Bytes) (me you : Device C) : Prop :=
  ∀ k ∈ keys, ∀ k' ∈ keys, ∀ secret ∈ C.x25519 k (C.x25519Public k'), ∀ nonce ∈ nonces,
    C.aesGcmDecrypt (CryptoEngine.deriveSessionKey C secret me.deviceId you.deviceId) nonce
      (C.aesGcmEncrypt (CryptoEngine.deriveSessionKey C secret you.deviceId me.deviceId) nonce
        keyExchangeOk) ≠ some keyExchangeOk

/-- A confirmation that an initiator can read comes from an established
    responder. -/
theorem responder_of_confirmed {env' : Env} {so : Session} {raw : Bytes} {p : Packet}
    (hrejects : Rejects keys nonces me you) (hdrawn : ∀ k, own = some k → k ∈ keys)
    (hdrawn' : ∀ k, other = some k → k ∈ keys) (hheld : o.Holds me so)
    (hostage : Stage you me other own o) (hnonce : env'.nonce ∈ nonces)
    (hp : ConfirmationFor you env' so.sessionKey raw p) {k k' : Bytes} {s : Session}
    (hown : own = some k) (hother : other = some k')
    (hshares : s.Shares C k k' me.deviceId you.deviceId)
    (hplain : C.aesGcmDecrypt s.sessionKey p.nonce p.payload = some keyExchangeOk) :
    o.proto.iAmInitiator = false ∧ o.proto.state = .established := by
  rcases hostage.keyed_of_state hheld.state with ⟨l, l', t, hl, hl', hholds, hini, hshares'⟩
  -- The keys of the two sides are the same two, in the other order.
  rw [hother, Option.some.injEq] at hl
  rw [hown, Option.some.injEq] at hl'
  subst hl
  subst hl'
  have ht := hholds.session
  rw [hheld.session, Option.some.injEq] at ht
  subst ht
  have hrole : o.proto.iAmInitiator = false := by
    by_contra htrue
    rw [Bool.not_eq_false] at htrue
    rw [if_pos htrue, if_pos htrue] at hshares'
    rcases hshares with ⟨secret, hx, hk, _⟩
    rcases hshares'.symm with ⟨secret', hx', hk', _⟩
    rw [hx, Option.some.injEq] at hx'
    rw [hp.nonce, hp.payload, hk, hk', ← hx'] at hplain
    exact hrejects k (hdrawn k hown) k' (hdrawn' k' hother) secret hx env'.nonce hnonce hplain
  refine ⟨hrole, ?_⟩
  rcases hheld.state with hsent | hest
  · rw [hini hsent] at hrole
    simp only [Bool.true_eq_false] at hrole
  · exact hest

/-- A KEY_EXCHANGE that meets an initiator. -/
theorem keyExchange_initiator_advances {env' : Env} {k k' raw : Bytes} {s so : Session}
    {p : Packet} (hrejects : Rejects keys nonces me you) (halign : e.device.Aligned)
    (hdrawn : ∀ k, own = some k → k ∈ keys) (hdrawn' : ∀ k, other = some k → k ∈ keys)
    (hheld : o.Holds me so) (hostage : Stage you me other own o) (hnonce : env'.nonce ∈ nonces)
    (hp : ConfirmationFor you env' so.sessionKey raw p)
    (hstate : e.proto.state = .keyExchangeSent) (hini : e.proto.iAmInitiator = true)
    (hholds : e.Holds you s) (hown : own = some k) (hother : other = some k')
    (hpeer : e.proto.peerId = some you.deviceId)
    (hshares : s.Shares C k k' me.deviceId you.deviceId) :
    Advances keys nonces me you own own other o e
      ((Endpoint.handleKeyExchange env p).run e).final
      ((Endpoint.handleKeyExchange env p).run e).returned.join := by
  have hshares' : s.Shares C k k' (if e.proto.iAmInitiator then me.deviceId else you.deviceId)
      (if e.proto.iAmInitiator then you.deviceId else me.deviceId) := by
    rw [if_pos hini, if_pos hini]
    exact hshares
  have hout := Endpoint.handleKeyExchange_keyExchangeSent env p e hstate
  generalize (Endpoint.handleKeyExchange env p).run e = r at hout
  cases hout with
  -- A packet that does not confirm leaves the initiator where it waits.
  | unanswered =>
      exact .refl halign hdrawn (.keyed k k' s hholds (fun _ => hini) hown hother hpeer hshares')
  | answered _ hconf =>
      rcases hconf with ⟨_, t, ht, hplain⟩
      rw [hp.senderId, hholds.session, Option.some.injEq] at ht
      subst ht
      -- Only the responder's confirmation decrypts to the expected text, so the peer is
      -- established.
      rcases responder_of_confirmed hrejects hdrawn hdrawn' hheld hostage hnonce hp hown hother
        hshares hplain with ⟨hrole, hest⟩
      have hentered :
          Partner { e with proto := { e.proto with state := .established } } o := by
        refine ⟨hheld.state, ?_, fun _ => hest⟩
        rw [hrole, hini]
        rfl
      exact {
        identity := rfl
        aligned := halign
        drawn := hdrawn
        grows := fun _ h => h
        stage := .keyed k k' s ⟨Or.inr rfl, hholds.session⟩ (fun _ => hini) hown hother hpeer
          hshares'
        keeps := fun u hu => ⟨u, ⟨Or.inr rfl, hu.session⟩, rfl, rfl⟩
        stays := fun _ => rfl
        sends := fun _ h => absurd h (Option.not_mem_none _)
        enters := fun _ _ => hentered }
  | unexpected _ _ hs => exact absurd hstate hs
  | refused _ hs => simp only [hstate, reduceCtorEq] at hs
  | halfway _ _ _ hs => simp only [hstate, reduceCtorEq] at hs
  | stale _ _ _ hs => simp only [hstate, reduceCtorEq] at hs
  | unconfirmed _ _ _ hs => simp only [hstate, reduceCtorEq] at hs
  | established _ _ _ hs => simp only [hstate, reduceCtorEq] at hs

/-- The handler of a KEY_EXCHANGE is an advance. -/
theorem keyExchange_advances {env' : Env} {raw : Bytes} {so : Session} {p : Packet}
    (hrejects : Rejects keys nonces me you)
    (hme : e.device.identityPrivate = me.identityPrivate) (halign : e.device.Aligned)
    (hdrawn : ∀ k, own = some k → k ∈ keys) (hdrawn' : ∀ k, other = some k → k ∈ keys)
    (hnonce : env.nonce ∈ nonces) (hheld : o.Holds me so) (hostage : Stage you me other own o)
    (hpartner : o.proto.state = .established → Partner o e) (hnonce' : env'.nonce ∈ nonces)
    (hp : ConfirmationFor you env' so.sessionKey raw p) (hstage : Stage me you own other e) :
    Advances keys nonces me you own own other o e
      ((Endpoint.handleKeyExchange env p).run e).final
      ((Endpoint.handleKeyExchange env p).run e).returned.join := by
  -- In the states without a handler nothing happens.
  have hidle : e.proto.state ≠ .helloReceived → e.proto.state ≠ .keyExchangeSent →
      Advances keys nonces me you own own other o e
        ((Endpoint.handleKeyExchange env p).run e).final
        ((Endpoint.handleKeyExchange env p).run e).returned.join := by
    intro hreceived hsent
    rcases Endpoint.handleKeyExchange_unexpected env p e hreceived hsent with ⟨x, hrun⟩
    rw [hrun]
    exact .refl halign hdrawn hstage
  cases hstage with
  | idle hs =>
      refine hidle ?_ ?_
      · simp only [hs, ne_eq, reduceCtorEq, not_false_eq_true]
      · simp only [hs, ne_eq, reduceCtorEq, not_false_eq_true]
  | helloSent _ hs =>
      refine hidle ?_ ?_
      · simp only [hs, ne_eq, reduceCtorEq, not_false_eq_true]
      · simp only [hs, ne_eq, reduceCtorEq, not_false_eq_true]
  | helloReceived k k' hs hini hown hother hmet hkey =>
      exact keyExchange_responder_advances hme halign hdrawn hnonce hheld hostage hpartner hs hini
        hown hother hmet hkey
  | keyed k k' s hholds hini hown hother hpeer hshares =>
      rcases hholds.state with hs | hs
      · rw [if_pos (hini hs), if_pos (hini hs)] at hshares
        exact keyExchange_initiator_advances hrejects halign hdrawn hdrawn' hheld hostage hnonce'
          hp hs (hini hs) hholds hown hother hpeer hshares
      · refine hidle ?_ ?_
        · simp only [hs, ne_eq, reduceCtorEq, not_false_eq_true]
        · simp only [hs, ne_eq, reduceCtorEq, not_false_eq_true]

/-- Receiving the other side's confirmation is an advance. -/
theorem confirmation_advances {env' : Env} {raw : Bytes} {so : Session} {p : Packet}
    (hrejects : Rejects keys nonces me you)
    (hme : e.device.identityPrivate = me.identityPrivate) (halign : e.device.Aligned)
    (hdrawn : ∀ k, own = some k → k ∈ keys) (hdrawn' : ∀ k, other = some k → k ∈ keys)
    (hnonce : env.nonce ∈ nonces) (hheld : o.Holds me so) (hostage : Stage you me other own o)
    (hpartner : o.proto.state = .established → Partner o e) (hnonce' : env'.nonce ∈ nonces)
    (hp : ConfirmationFor you env' so.sessionKey raw p) (hstage : Stage me you own other e) :
    Advances keys nonces me you own own other o e
      ((Endpoint.processIncoming env raw).run e).final
      ((Endpoint.processIncoming env raw).run e).returned.join := by
  rcases Endpoint.processIncoming_cases env raw e with ⟨x, hrun⟩ | ⟨_, q, r, hrec, _⟩
  · rw [hrun]
    exact .refl halign hdrawn hstage
  · rw [hp.received_eq hrec] at hrec
    rw [hp.processIncoming_run env e _ rfl hstage.not_terminal hrec]
    -- Reception first, then the handler on the device it left behind.
    have hadv : Advances keys nonces me you own own other o e { e with device := r } none :=
      received_advances halign hdrawn hstage hrec
    exact hadv.trans (keyExchange_advances hrejects (hadv.identity.trans hme) hadv.aligned hdrawn
      hdrawn' hnonce hheld hostage
      (fun hest => (hpartner hest).advance_other hstage hadv) hnonce' hp hadv.stage)

end Steps

variable {dev keys nonces}

/-- The assumptions keep the two orders of roles apart, if the devices have
    different identifiers. -/
theorem Separates.rejects (h : Separates dev keys nonces)
    (hne : (dev false).deviceId ≠ (dev true).deviceId) (side : Bool) :
    Rejects keys nonces (dev side) (dev !side) := by
  intro k hk k' hk' secret hsecret nonce hnonce hplain
  have hback : CryptoEngine.deriveSessionKey C secret (dev !side).deviceId (dev side).deviceId
      = C.hkdf 32 (roleInfo dev !side) secret := by
    rw [roleInfo, Bool.not_not]
    rfl
  rw [hback] at hplain
  have hkeys := h.aead_binds k hk k' hk' secret hsecret nonce hnonce side
    (Option.isSome_of_eq_some hplain)
  have hinfo := h.hkdf_injective k hk k' hk' secret hsecret side hkeys
  -- Equal info strings start with equal identifiers.
  rw [roleInfo, roleInfo, Bool.not_not, List.append_assoc, List.append_assoc] at hinfo
  have hids := List.append_cancel_left hinfo
  have hid := (List.append_inj hids
    ((dev side).deviceId_length.trans (dev !side).deviceId_length.symm)).1
  cases side with
  | false => exact hne hid
  | true => exact hne hid.symm

/-- The invariant holds of two fresh protocols. -/
theorem agrees_opened (dev : Bool → Device C) (halign : ∀ side, (dev side).Aligned)
    (keys nonces : List Bytes)
    (hkeys : ∀ side k, (dev side).ephemeralPrivate.get? (dev !side).deviceId = some k → k ∈ keys) :
    Agrees dev keys nonces (Exchange.opened dev)
      (fun side => (dev side).ephemeralPrivate.get? (dev !side).deviceId) where
  identity := fun _ => rfl
  aligned := halign
  drawn := hkeys
  stage := fun _ => .idle rfl rfl
  messages := fun _ _ h => absurd h List.not_mem_nil
  partner := by
    intro side h
    simp only [Exchange.opened, reduceCtorEq] at h

/-- Every step keeps the invariant. -/
theorem agrees_step (hsep : ∀ side, Rejects keys nonces (dev side) (dev !side))
    (x : Exchange C) (g : Bool → Option Bytes) (a : ExchangeAct)
    (h : Agrees dev keys nonces x g)
    (ha : a.env.x25519Private ∈ keys ∧ a.env.nonce ∈ nonces) :
    ∃ g', Agrees dev keys nonces (x.step a) g' := by
  -- Whatever is delivered was sent by the other end, and what it sent is one of two messages.
  cases a with
  | initiate side env =>
      have hid : (x.ends !side).device.deviceId = (dev !side).deviceId :=
        (Device.identity_eq _ _ (h.identity !side)).2
      simp only [Exchange.step, hid]
      rcases initiate_advances (h.identity side) (h.aligned side) (h.drawn side) ha.1
        (h.stage side) with ⟨own', hadv⟩
      exact ⟨_, agrees_put h hadv⟩
  | deliver side env i =>
      simp only [Exchange.step]
      cases hraw : (x.sent !side)[i]? with
      | none => exact ⟨g, h⟩
      | some raw =>
          -- What the sender has reached since then is read off its own stage.
          have hother := h.stage !side
          have hmessage := h.messages (!side) raw (List.mem_of_getElem? hraw)
          have hpartner := h.partner !side
          rw [Bool.not_not] at hother hmessage hpartner
          cases hmessage with
          | hello k p hk hp =>
              rcases hello_advances (h.identity side) (h.aligned side) (h.drawn side) ha.1 ha.2 hp
                hk (h.stage side) with ⟨own', hadv⟩
              exact ⟨_, agrees_put h hadv⟩
          | confirmation s env' p hholds hnonce hp =>
              exact ⟨_, agrees_put h (confirmation_advances (hsep side) (h.identity side)
                (h.aligned side) (h.drawn side) (h.drawn !side) ha.2 hholds hother hpartner hnonce
                hp (h.stage side))⟩

/-- An established side and its partner hold the same keys. -/
theorem Agrees.keys_eq {x : Exchange C} {g : Bool → Option Bytes} {side : Bool}
    (h : Agrees dev keys nonces x g) (hest : (x.ends side).proto.state = .established) :
    ∃ s t, (x.ends side).device.sessions.get? (dev !side).deviceId = some s ∧
      (x.ends !side).device.sessions.get? (dev side).deviceId = some t ∧
      s.sessionKey = t.sessionKey ∧ s.macKey = t.macKey := by
  have hpartner := h.partner side hest
  have hother := h.stage !side
  rw [Bool.not_not] at hother
  rcases (h.stage side).keyed_of_state (Or.inr hest) with ⟨k, k', s, hk, hk', hs, _, hshares⟩
  rcases hother.keyed_of_state hpartner.state with ⟨l, l', t, hl, hl', ht, _, hshares'⟩
  rw [hk', Option.some.injEq] at hl
  rw [hk, Option.some.injEq] at hl'
  subst hl
  subst hl'
  refine ⟨s, t, hs.session, ht.session, ?_⟩
  -- The roles are opposite, so the two orders of the identifiers are one.
  rw [hpartner.role] at hshares'
  cases hini : (x.ends side).proto.iAmInitiator with
  | true =>
      rw [hini] at hshares hshares'
      exact hshares.keys_eq hshares'.symm
  | false =>
      rw [hini] at hshares hshares'
      exact hshares.keys_eq hshares'.symm

end Invariant

/-- Whatever the network does, an established side has a partner: the other
    side holds a session for it under the same two keys, and exactly one of
    them is the initiator. The devices may have any past; HKDF and AES-GCM are
    assumed to keep the keys of the two orders of roles apart, on the values
    of the run. -/
theorem handshake_agreement (C : Primitives) (priv : Bool → Bytes)
    (life : Bool → List LifeAct) (dev : Bool → Device C)
    (hdev : ∀ side, dev side = Device.after C (priv side) (life side))
    (hne : (dev false).deviceId ≠ (dev true).deviceId) (acts : List ExchangeAct)
    (hsep : Separates dev (ephemeralsOf dev acts) (noncesOf acts)) (side : Bool)
    (hest : ((acts.foldl Exchange.step (Exchange.opened dev)).ends side).proto.state
      = .established) :
    ∃ s t,
      ((acts.foldl Exchange.step (Exchange.opened dev)).ends side).device.sessions.get?
        (dev !side).deviceId = some s ∧
      ((acts.foldl Exchange.step (Exchange.opened dev)).ends !side).device.sessions.get?
        (dev side).deviceId = some t ∧
      s.sessionKey = t.sessionKey ∧ s.macKey = t.macKey ∧
      ((acts.foldl Exchange.step (Exchange.opened dev)).ends !side).proto.iAmInitiator
        = !((acts.foldl Exchange.step (Exchange.opened dev)).ends side).proto.iAmInitiator := by
  have halign : ∀ t, (dev t).Aligned := by
    intro t
    rw [hdev t]
    exact Device.aligned_of_reachable C (priv t) (life t)
  -- A key left over from an earlier session counts among the keys of this exchange.
  have hleft : ∀ t k, (dev t).ephemeralPrivate.get? (dev !t).deviceId = some k →
      k ∈ ephemeralsOf dev acts := by
    intro t k hk
    unfold ephemeralsOf
    cases t with
    | false =>
        exact List.mem_append_left _ (Option.mem_toList.mpr hk)
    | true =>
        exact List.mem_append_right _ (List.mem_append_left _ (Option.mem_toList.mpr hk))
  have hacts : ∀ a ∈ acts, a.env.x25519Private ∈ ephemeralsOf dev acts ∧
      a.env.nonce ∈ noncesOf acts := by
    intro a ha
    unfold ephemeralsOf noncesOf
    exact ⟨List.mem_append_right _ (List.mem_append_right _ (List.mem_map_of_mem ha)),
      List.mem_map_of_mem ha⟩
  have hrun := along_invariant
    (fun x => ∃ g, Agrees dev (ephemeralsOf dev acts) (noncesOf acts) x g)
    -- The ghost keys are chosen step by step, so the invariant is under the existential.
    (fun x a hx ha => by
      rcases hx with ⟨g, hg⟩
      exact agrees_step (hsep.rejects hne) x g a hg ha)
    (Exchange.opened dev) acts ⟨_, agrees_opened dev halign _ _ hleft⟩
    (along_of_forall _ acts hacts)
  rcases hrun with ⟨g, hg⟩
  rcases hg.keys_eq hest with ⟨s, t, hs, ht, hsk, hmk⟩
  exact ⟨s, t, hs, ht, hsk, hmk, (hg.partner side hest).role⟩

/-- Two new devices under the toy primitives. -/
def toyPair (side : Bool) : Device toyPrimitives :=
  Device.create toyPrimitives (if side then [1] else [7])

/-- A run in which both sides try to initiate and everything is delivered
    twice; the one that comes too late is the responder. -/
def openedTwice : List ExchangeAct :=
  [.initiate false toyEnv, .deliver true toyEnv 0, .initiate true toyEnv, .deliver false toyEnv 0,
    .deliver false toyEnv 0, .deliver true toyEnv 1, .deliver true toyEnv 0,
    .deliver false toyEnv 1]

theorem openedTwice_separates :
    Separates toyPair (ephemeralsOf toyPair openedTwice) (noncesOf openedTwice) := by
  -- All acts draw the same key and the same nonce.
  have hkeys : ∀ k ∈ ephemeralsOf toyPair openedTwice, k = toyEnv.x25519Private := by
    decide +kernel
  have hnonces : ∀ n ∈ noncesOf openedTwice, n = toyEnv.nonce := by
    decide +kernel
  constructor
  · intro k hk k' hk'
    rw [hkeys k hk, hkeys k' hk']
    decide +kernel
  · intro k hk k' hk' secret hsecret nonce hnonce
    rw [hkeys k hk, hkeys k' hk'] at hsecret
    rw [hnonces nonce hnonce]
    revert secret
    decide +kernel

/-- The run establishes the initiator, and its keys are the responder's. -/
theorem handshake_agreement_openedTwice :
    ((openedTwice.foldl Exchange.step (Exchange.opened toyPair)).ends false).proto.state
      = .established ∧
    ∃ s t,
      ((openedTwice.foldl Exchange.step (Exchange.opened toyPair)).ends
        false).device.sessions.get? (toyPair !false).deviceId = some s ∧
      ((openedTwice.foldl Exchange.step (Exchange.opened toyPair)).ends
        !false).device.sessions.get? (toyPair false).deviceId = some t ∧
      s.sessionKey = t.sessionKey ∧ s.macKey = t.macKey ∧
      ((openedTwice.foldl Exchange.step (Exchange.opened toyPair)).ends !false).proto.iAmInitiator
        = !((openedTwice.foldl Exchange.step (Exchange.opened toyPair)).ends
          false).proto.iAmInitiator := by
  have hest : ((openedTwice.foldl Exchange.step (Exchange.opened toyPair)).ends
      false).proto.state = .established := by
    decide +kernel
  have hdev : ∀ side, toyPair side
      = Device.after toyPrimitives (if side then [1] else [7]) [] := by
    intro side
    simp only [toyPair, Device.after, List.foldl_nil, Host.create]
  have hne : (toyPair false).deviceId ≠ (toyPair true).deviceId := by
    decide +kernel
  have hagree := handshake_agreement toyPrimitives (fun side => if side then [1] else [7])
    (fun _ => []) toyPair hdev hne openedTwice openedTwice_separates false hest
  exact ⟨hest, hagree⟩

end Ztlnp

import Ztlnp.Core.Rotation
import Ztlnp.Lib.Runs

/-!
# The Registry as a Machine

A trust store and its rotation manager under any history of calls.

One act is one call of a method that writes. A call that raises leaves the
registry as it was, so a step is total, and `accepts` says which calls went
through. `Registry.Change` is the whole inventory of what a step can do, with
the checks that were passed. Every invariant of the registry is a case
analysis over it.

The properties about vouching speak of the calls of a run and not only of the
state they lead to. A `Ledger` is a registry with the list of the calls that
were accepted so far.

## Main definitions

* `RegistryAct`: One call.
* `RegistryAct.OnTransition`: A condition on transitions.
* `Registry.perform`: What the call runs.
* `Registry.step`, `Registry.accepts`: Its effect, and whether it succeeded.
* `Registry.create`: A registry before any call.
* `Registry.toyEndorsement`, `Registry.toyTransition`: Signed statements for
  concrete runs.
* `Registry.Change`: What a step can do.
* `Ledger`: A registry with the calls it has accepted.
* `Ledger.transitions`: The transitions among them.

## Theorems

* `Registry.step_addEndorsement`, `Registry.step_applyTransition`: The two
  outcomes of a voucher.
* `Registry.step_change`: Every step is in the inventory.
* `Registry.Change.records`: A step writes at most one record, and never
  against the record that was there.
* `Registry.Change.grows`: A step loses no record, changes no key and lowers
  no level.
* `Registry.Change.settings`, `Registry.run_settings`: A step and a run leave the
  limits alone.
* `Ledger.run_registry`: The ledger's registry runs as the registry does.
* `Ledger.transitions_step`: Only an accepted transition writes to the manager.
-/

namespace Ztlnp

/-- One call on a trust store or its rotation manager. -/
inductive RegistryAct
  | add (ed25519Public : Bytes) (trustLevel : TrustLevel)
  | processHello (senderDeviceId senderEd25519Pub : Bytes)
  | verifyFingerprint (deviceId : Bytes) (fingerprint : String)
  | addEndorsement (endorsementBytes endorserDeviceId : Bytes)
  | distrust (deviceId : Bytes)
  | removeBlacklist (deviceId : Bytes)
  | applyTransition (nowMs : Nat) (transition : KeyTransition)
deriving DecidableEq

/-- A condition on the transition that a call applies, if it applies one. -/
def RegistryAct.OnTransition (P : KeyTransition → Prop) : RegistryAct → Prop
  | .applyTransition _ t => P t
  | _ => True

instance (P : KeyTransition → Prop) [∀ t, Decidable (P t)] :
    ∀ a : RegistryAct, Decidable (a.OnTransition P)
  | .applyTransition _ t => inferInstanceAs (Decidable (P t))
  | .add _ _ => .isTrue trivial
  | .processHello _ _ => .isTrue trivial
  | .verifyFingerprint _ _ => .isTrue trivial
  | .addEndorsement _ _ => .isTrue trivial
  | .distrust _ => .isTrue trivial
  | .removeBlacklist _ => .isTrue trivial

variable {C : Primitives}

namespace Registry

/-- A method of the store, called on the registry's store. -/
def onStore {α : Type} (x : EStateM Exn (TrustStore C) α) : EStateM Exn (Registry C) α :=
  zoom Registry.store (fun s g => { g with store := s }) x

/-- What a call runs. It reports `false` only for a fingerprint that did not
    match, which is the one call that can fail without raising. -/
def perform : RegistryAct → EStateM Exn (Registry C) Bool
  | .add pub level => onStore (TrustStore.add pub level) >>= fun _ => pure true
  | .processHello sender pub => onStore (TrustStore.processHello sender pub) >>= fun _ => pure true
  | .verifyFingerprint id fingerprint => onStore (TrustStore.verifyFingerprint id fingerprint)
  | .addEndorsement blob endorser =>
    onStore (TrustStore.addEndorsement blob endorser) >>= fun _ => pure true
  | .distrust id => onStore (TrustStore.distrust id) >>= fun _ => pure true
  | .removeBlacklist id => onStore (TrustStore.removeBlacklist id) >>= fun _ => pure true
  | .applyTransition nowMs t => applyTransition nowMs t >>= fun _ => pure true

/-- The registry after a call. -/
def step (g : Registry C) (a : RegistryAct) : Registry C := ((perform a).run g).final

/-- Whether a call went through. -/
def accepts (g : Registry C) (a : RegistryAct) : Bool :=
  ((perform a).run g).returned = some true

/-- A registry before any call. -/
def create (C : Primitives) (allowTofu : Bool) (minTrust : TrustLevel)
    (maxEndorsementDepth maxRotations : Int) : Registry C where
  store := { allowTofu, minTrust, maxEndorsementDepth }
  manager := { maxRotations }

/-- The public key of a device in a run under the toy primitives. Its digest,
    and so its identity, is the key itself. -/
def toyIdentity (n : UInt8) : Bytes := toyPrimitives.ed25519Public [n]

/-- An endorsement blob that one toy device signed for another. -/
def toyEndorsement (endorser target : UInt8) : Bytes :=
  let body := toyIdentity endorser ++ toyIdentity target ++ toyIdentity target
  body ++ toyPrimitives.ed25519Sign [endorser] body

/-- A transition that one toy device signed towards another. -/
def toyTransition (old new : UInt8) (timestampMs : Nat) : KeyTransition where
  oldDeviceId := toyIdentity old
  newDeviceId := toyIdentity new
  newEd25519Public := toyIdentity new
  timestampMs := timestampMs
  signature := toyPrimitives.ed25519Sign [old]
    (toyIdentity old ++ toyIdentity new ++ toyIdentity new ++ beEncode 8 timestampMs)
  oldDeviceId_length := toyPrimitives.ed25519Public_length _
  newDeviceId_length := toyPrimitives.ed25519Public_length _
  newEd25519Public_length := toyPrimitives.ed25519Public_length _
  signature_length := toyPrimitives.ed25519Sign_length _ _

/-- The registry with one record written. -/
def put (g : Registry C) (r : TrustRecord C) : Registry C := { g with store := g.store.put r }

open TrustStore in
/-- What a step can do, and whether it went through. -/
inductive Change (g : Registry C) : RegistryAct → Bool → Registry C → Prop
  /-- A call that raised, or a fingerprint that did not match. -/
  | refused (a : RegistryAct) : Change g a false g
  | added (pub : Bytes) (level : TrustLevel) (r : TrustRecord C)
      (hr : g.store.upsert pub level = some r) : Change g (.add pub level) true (g.put r)
  /-- A hello from a device whose key is stored. -/
  | recognised (sender pub : Bytes) : Change g (.processHello sender pub) true g
  /-- A hello from an unknown device, trusted on first use. -/
  | greeted (sender pub : Bytes) (r : TrustRecord C) (hnone : g.store.get sender = none)
      (hr : g.store.upsert pub .tofu = some r) : Change g (.processHello sender pub) true (g.put r)
  | confirmed (id : Bytes) (fingerprint : String) (old : TrustRecord C)
      (hold : g.store.get id = some old)
      (hfp : fingerprintOf C old.ed25519Public = fingerprint) :
      Change g (.verifyFingerprint id fingerprint) true
        (g.put { old with trustLevel := max old.trustLevel .verified })
  | endorsed (blob id : Bytes) (e r : TrustRecord C) (hv : g.store.Vouches blob id e)
      (hr : g.store.upsert (endorsedKey blob) .endorsed = some r) :
      Change g (.addEndorsement blob id) true (g.put (endorsedBy r id (e.endorsementDepth + 1)))
  | distrusted (id : Bytes) :
      Change g (.distrust id) true
        { g with store := { g.store with blacklist := insert id g.store.blacklist } }
  | pardoned (id : Bytes) :
      Change g (.removeBlacklist id) true
        { g with store := { g.store with blacklist := g.store.blacklist.erase id } }
  | rotated (nowMs : Nat) (t : KeyTransition) (old new : TrustRecord C)
      (ht : g.Transits nowMs t old)
      (hnew : g.store.upsert t.newEd25519Public old.trustLevel = some new) :
      Change g (.applyTransition nowMs t) true (g.migrated t old new)

/-- A method of the store that returned. -/
theorem run_onStore_ok {α : Type} (x : EStateM Exn (TrustStore C) α) (g : Registry C) (v : α)
    (s : TrustStore C) (hrun : x.run g.store = .ok v s) :
    (onStore x >>= fun _ => pure true).run g = .ok true { g with store := s } := by
  simp only [onStore, EStateM.run_bind, run_zoom, hrun]
  rfl

/-- A method of the store that raised and left it alone. -/
theorem run_onStore_error {α : Type} (x : EStateM Exn (TrustStore C) α) (g : Registry C)
    (exn : Exn) (hrun : x.run g.store = .error exn g.store) :
    (onStore x >>= fun _ => pure true).run g = .error exn g := by
  simp only [onStore, EStateM.run_bind, run_zoom, hrun]

/-- A call that returned a verdict moves as the inventory says. -/
theorem change_of_ok (g g' : Registry C) (a : RegistryAct) (b : Bool)
    (hrun : (perform a).run g = .ok b g') (h : Change g a b g') :
    Change g a (g.accepts a) (g.step a) := by
  rw [accepts, step, hrun]
  cases b with
  | false => exact h
  | true => exact h

/-- A call that raised without a trace was refused. -/
theorem change_of_error (g : Registry C) (a : RegistryAct) (exn : Exn)
    (hrun : (perform a).run g = .error exn g) : Change g a (g.accepts a) (g.step a) := by
  rw [accepts, step, hrun]
  exact Change.refused a

/-- A voucher either fails a check and changes nothing, or goes through. -/
theorem step_addEndorsement (g : Registry C) (blob id : Bytes) :
    ((∀ e, ¬ g.store.Vouches blob id e) ∧ g.accepts (.addEndorsement blob id) = false ∧
        g.step (.addEndorsement blob id) = g) ∨
      ∃ e r, g.store.Vouches blob id e ∧
        g.store.upsert (TrustStore.endorsedKey blob) .endorsed = some r ∧
        g.accepts (.addEndorsement blob id) = true ∧
        g.step (.addEndorsement blob id)
          = g.put (TrustStore.endorsedBy r id (e.endorsementDepth + 1)) := by
  unfold accepts step perform
  rcases g.store.addEndorsement_cases blob id with ⟨hno, exn, hrun⟩ | ⟨e, r, hv, hr, hrun⟩
  · rw [run_onStore_error _ g exn hrun]
    exact Or.inl ⟨hno, rfl, rfl⟩
  · rw [run_onStore_ok _ g _ _ hrun]
    exact Or.inr ⟨e, r, hv, hr, rfl, rfl⟩

/-- A transition does likewise. -/
theorem step_applyTransition (g : Registry C) (nowMs : Nat) (t : KeyTransition) :
    ((∀ old, ¬ g.Transits nowMs t old) ∧ g.accepts (.applyTransition nowMs t) = false ∧
        g.step (.applyTransition nowMs t) = g) ∨
      ∃ old new, g.Transits nowMs t old ∧
        g.store.upsert t.newEd25519Public old.trustLevel = some new ∧
        g.accepts (.applyTransition nowMs t) = true ∧
        g.step (.applyTransition nowMs t) = g.migrated t old new := by
  unfold accepts step perform
  rcases g.applyTransition_cases nowMs t with ⟨hno, exn, hrun⟩ | ⟨old, new, ht, hnew, hrun⟩
  · simp only [EStateM.run_bind, hrun]
    exact Or.inl ⟨hno, rfl, rfl⟩
  · simp only [EStateM.run_bind, hrun]
    exact Or.inr ⟨old, new, ht, hnew, rfl, rfl⟩

/-- Every step is in the inventory. -/
theorem step_change (g : Registry C) (a : RegistryAct) : Change g a (g.accepts a) (g.step a) := by
  -- One case per call, each with its ways to return or raise.
  cases a with
  | add pub level =>
      have hrun := g.store.add_run pub level
      cases hup : g.store.upsert pub level with
      | none =>
          rw [hup] at hrun
          exact change_of_error g _ _ (run_onStore_error _ g _ hrun)
      | some r =>
          rw [hup] at hrun
          exact change_of_ok g _ _ true (run_onStore_ok _ g _ _ hrun) (Change.added pub level r hup)
  | processHello sender pub =>
      rcases g.store.processHello_cases sender pub with ⟨exn, hrun⟩ | ⟨r, _, _, hrun⟩ |
        ⟨r, hnone, hup, hrun⟩
      · exact change_of_error g _ exn (run_onStore_error _ g exn hrun)
      · exact change_of_ok g g _ true (run_onStore_ok _ g _ _ hrun) (Change.recognised sender pub)
      · exact change_of_ok g _ _ true (run_onStore_ok _ g _ _ hrun)
          (Change.greeted sender pub r hnone hup)
  | verifyFingerprint id fingerprint =>
      rcases g.store.verifyFingerprint_cases id fingerprint with hrun | ⟨old, hold, hfp, hrun⟩
      · refine change_of_ok g g _ false ?_ (Change.refused _)
        simp only [perform, onStore, run_zoom, hrun]
      · refine change_of_ok g _ _ true ?_ (Change.confirmed id fingerprint old hold hfp)
        simp only [perform, onStore, run_zoom, hrun]
        rfl
  | addEndorsement blob id =>
      rcases g.step_addEndorsement blob id with ⟨_, hok, hstep⟩ | ⟨e, r, hv, hr, hok, hstep⟩
      · rw [hok, hstep]
        exact Change.refused _
      · rw [hok, hstep]
        exact Change.endorsed blob id e r hv hr
  | distrust id => exact change_of_ok g _ _ true rfl (Change.distrusted id)
  | removeBlacklist id => exact change_of_ok g _ _ true rfl (Change.pardoned id)
  | applyTransition nowMs t =>
      rcases g.step_applyTransition nowMs t with ⟨_, hok, hstep⟩ | ⟨old, new, ht, hnew, hok, hstep⟩
      · rw [hok, hstep]
        exact Change.refused _
      · rw [hok, hstep]
        exact Change.rotated nowMs t old new ht hnew

end Registry

/-- A record may replace the one of its identity: the key stays and the level
    does not fall. -/
def TrustStore.Upgrades (s : TrustStore C) (r : TrustRecord C) : Prop :=
  ∀ old, s.get r.deviceId = some old →
    r.ed25519Public = old.ed25519Public ∧ old.trustLevel ≤ r.trustLevel

/-- Adding a key upgrades, and so does everything that is done to the record
    afterwards without touching its key or its level. -/
theorem TrustStore.upgrades_of_upsert (s : TrustStore C) (pub : Bytes) (level : TrustLevel)
    (r r' : TrustRecord C) (h : s.upsert pub level = some r) (hid : r'.deviceId = r.deviceId)
    (hkey : r'.ed25519Public = r.ed25519Public) (hlevel : r'.trustLevel = r.trustLevel) :
    s.Upgrades r' := by
  intro old hold
  rcases s.upsert_cases pub level r h with ⟨hfiled, ⟨o, hget, hr⟩ | ⟨hnone, _⟩⟩
  · rw [hid, hfiled, hget, Option.some.injEq] at hold
    rw [hkey, hlevel, hr, hold]
    exact ⟨rfl, le_max_left _ _⟩
  · rw [hid, hfiled, hnone] at hold
    simp only [reduceCtorEq] at hold

namespace Registry.Change

variable {g g' : Registry C} {a : RegistryAct} {ok : Bool}

/-- A step writes at most one record, and never against the record that was
    there. -/
theorem records (h : Change g a ok g') :
    (∀ id, g'.store.get id = g.store.get id) ∨
      ∃ r, g.store.Upgrades r ∧ ∀ id, g'.store.get id = (g.store.put r).get id := by
  cases h with
  | refused => exact Or.inl (fun _ => rfl)
  | added pub level r hr =>
      exact Or.inr ⟨r, g.store.upgrades_of_upsert pub level r r hr rfl rfl rfl, fun _ => rfl⟩
  | recognised => exact Or.inl (fun _ => rfl)
  | greeted sender pub r _ hr =>
      exact Or.inr ⟨r, g.store.upgrades_of_upsert pub .tofu r r hr rfl rfl rfl, fun _ => rfl⟩
  | confirmed id fingerprint old hold _ =>
      refine Or.inr ⟨_, ?_, fun _ => rfl⟩
      intro o ho
      -- The record that is upgraded is the one the identity has.
      rw [show ({ old with trustLevel := max old.trustLevel .verified } : TrustRecord C).deviceId
        = id from g.store.filed id old hold, hold, Option.some.injEq] at ho
      rw [← ho]
      exact ⟨rfl, le_max_left _ _⟩
  | endorsed blob id e r _ hr =>
      exact Or.inr ⟨TrustStore.endorsedBy r id (e.endorsementDepth + 1),
        g.store.upgrades_of_upsert _ _ r _ hr rfl rfl rfl, fun _ => rfl⟩
  | distrusted => exact Or.inl (fun _ => rfl)
  | pardoned => exact Or.inl (fun _ => rfl)
  | rotated nowMs t old new _ hnew =>
      exact Or.inr ⟨{ new with endorsers := carryOver old.endorsers new.endorsers },
        g.store.upgrades_of_upsert _ _ new _ hnew rfl rfl rfl, fun _ => rfl⟩

/-- A step loses no record, changes no key and lowers no level. -/
theorem grows (h : Change g a ok g') (id : Bytes) (old : TrustRecord C)
    (hold : g.store.get id = some old) :
    ∃ r, g'.store.get id = some r ∧ r.ed25519Public = old.ed25519Public ∧
      old.trustLevel ≤ r.trustLevel := by
  rcases h.records with hsame | ⟨r, hup, hput⟩
  · exact ⟨old, (hsame id).trans hold, rfl, le_refl _⟩
  · rw [hput, TrustStore.get_put]
    by_cases hid : id = r.deviceId
    · rw [if_pos hid]
      exact ⟨r, rfl, hup old (hid ▸ hold)⟩
    · rw [if_neg hid]
      exact ⟨old, hold, rfl, le_refl _⟩

/-- A step leaves the limits alone. -/
theorem settings (h : Change g a ok g') :
    g'.store.minTrust = g.store.minTrust ∧
      g'.store.maxEndorsementDepth = g.store.maxEndorsementDepth ∧
      g'.manager.maxRotations = g.manager.maxRotations := by
  cases h with
  | refused => exact ⟨rfl, rfl, rfl⟩
  | added => exact ⟨rfl, rfl, rfl⟩
  | recognised => exact ⟨rfl, rfl, rfl⟩
  | greeted => exact ⟨rfl, rfl, rfl⟩
  | confirmed => exact ⟨rfl, rfl, rfl⟩
  | endorsed => exact ⟨rfl, rfl, rfl⟩
  | distrusted => exact ⟨rfl, rfl, rfl⟩
  | pardoned => exact ⟨rfl, rfl, rfl⟩
  | rotated => exact ⟨rfl, rfl, rfl⟩

end Registry.Change

/-- The limits are set once. -/
theorem Registry.run_settings (g : Registry C) (acts : List RegistryAct) :
    (acts.foldl step g).store.minTrust = g.store.minTrust ∧
      (acts.foldl step g).store.maxEndorsementDepth = g.store.maxEndorsementDepth ∧
      (acts.foldl step g).manager.maxRotations = g.manager.maxRotations := by
  induction acts generalizing g with
  | nil => exact ⟨rfl, rfl, rfl⟩
  | cons a as ih =>
      rcases (g.step_change a).settings with ⟨hmin, hdepth, hmax⟩
      rcases ih (g.step a) with ⟨hmin', hdepth', hmax'⟩
      exact ⟨hmin'.trans hmin, hdepth'.trans hdepth, hmax'.trans hmax⟩

/-- A registry with the calls it has accepted, the latest last. -/
structure Ledger (C : Primitives) where
  registry : Registry C
  log : List RegistryAct := []
deriving DecidableEq

namespace Ledger

/-- One call, entered into the log if it went through. -/
def step (l : Ledger C) (a : RegistryAct) : Ledger C where
  registry := l.registry.step a
  log := if l.registry.accepts a then l.log ++ [a] else l.log

/-- The accepted transitions of a run, the latest last. -/
def transitions (l : Ledger C) : List KeyTransition :=
  l.log.filterMap (fun a => match a with
    | .applyTransition _ t => some t
    | _ => none)

/-- The log only records: the registry runs as it does without one. -/
theorem run_registry (l : Ledger C) (acts : List RegistryAct) :
    (acts.foldl step l).registry = acts.foldl Registry.step l.registry := by
  induction acts generalizing l with
  | nil => rfl
  | cons a as ih => exact ih (step l a)

/-- A step either was refused and left everything as it was, or went through
    and is now the last entry of the log. -/
theorem step_cases (l : Ledger C) (a : RegistryAct) :
    (Registry.Change l.registry a false (l.step a).registry ∧ (l.step a).log = l.log) ∨
      (l.registry.accepts a = true ∧ Registry.Change l.registry a true (l.step a).registry ∧
        (l.step a).log = l.log ++ [a]) := by
  have hchange := l.registry.step_change a
  cases hok : l.registry.accepts a with
  | false =>
      rw [hok] at hchange
      exact Or.inl ⟨hchange, by simp only [step, hok, Bool.false_eq_true, if_false]⟩
  | true =>
      rw [hok] at hchange
      exact Or.inr ⟨rfl, hchange, by simp only [step, hok, if_true]⟩

/-- A step that is no accepted transition leaves the transitions and the manager
    alone. -/
theorem transitions_step (l : Ledger C) (a : RegistryAct) :
    ((l.step a).transitions = l.transitions ∧
        (l.step a).registry.manager = l.registry.manager ∧
        ∀ P, l.registry.accepts a = true → a.OnTransition P) ∨
      ∃ nowMs t old, a = .applyTransition nowMs t ∧ l.registry.accepts a = true ∧
        l.registry.Transits nowMs t old ∧
        (l.step a).transitions = l.transitions ++ [t] ∧
        (l.step a).registry.manager = Registry.recorded l.registry.manager t := by
  have hchange := l.registry.step_change a
  have hregistry : (l.step a).registry = l.registry.step a := rfl
  have hlog : (l.step a).log = if l.registry.accepts a then l.log ++ [a] else l.log := rfl
  unfold transitions
  rw [hregistry, hlog]
  generalize l.registry.step a = g' at hchange
  generalize l.registry.accepts a = ok at hchange
  cases hchange with
  | refused => exact Or.inl ⟨rfl, rfl, fun _ hok => absurd hok Bool.false_ne_true⟩
  | rotated nowMs t old new ht _ =>
      right
      refine ⟨nowMs, t, old, rfl, rfl, ht, ?_, rfl⟩
      simp only [if_true, List.filterMap_append, List.filterMap_cons, List.filterMap_nil]
  -- Every other accepted act is logged, and none of them is a transition.
  | _ =>
      left
      refine ⟨?_, rfl, fun _ _ => trivial⟩
      simp only [if_true, List.filterMap_append, List.filterMap_cons, List.filterMap_nil,
        List.append_nil]

end Ledger

end Ztlnp

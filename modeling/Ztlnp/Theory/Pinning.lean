import Ztlnp.Theory.Migration

/-!
# Key Pinning

A trust store pins the key of an identity: once a record is there, its key
stays, and the record can only gain standing.

The invariant of a record is mostly a matter of how it is built. The digest of
its key and the lengths are fields of `TrustRecord`, the place it is filed
under is a field of `TrustStore`, and distinct endorsers are kept by every
step. What a run adds is that no step removes a record, changes its key or
lowers its level, whatever raises on the way (`trustStore_pins_keys`).

A hello is where the pin is set, and where the identity and the key come from
the sender. Who is known is looked up under the identity, and who is not is
added under the digest of the key. Where the two are the same device this is
trust on first use. Where they are not, the sender gets a record of its key
back that says nothing about the identity it gave (`processHello_greets_iff`).

## Main definitions

* `TrustStore.Pinned`: What holds of every record.
* `TrustStore.Upholds`: What a later store owes to an earlier one.
* `TrustStore.Greets`: A hello gets the sender's own record, or raises.

## Theorems

* `trustStore_pins_keys`: Keys are pinned throughout a run.
* `getPublicKey_pinned`: The key that is given out for an identity stays the same.
* `TrustStore.greets_iff`: When a store greets a sender.
* `processHello_greets_iff`: The same in every state of a run.
-/

namespace Ztlnp

variable {C : Primitives}

namespace TrustStore

/-- Every record is filed under the digest of its key, with fields of the right
    length and no endorser named twice. -/
def Pinned (s : TrustStore C) : Prop :=
  ∀ id r, s.get id = some r → r.deviceId = id ∧ id = C.sha256 r.ed25519Public ∧
    id.length = 32 ∧ r.ed25519Public.length = 32 ∧ r.endorsers.Nodup

theorem pinned_of_namesOnce (s : TrustStore C) (h : s.NamesOnce) : s.Pinned := by
  intro id r hget
  have hkey := s.sha256_of_get id r hget
  exact ⟨s.filed id r hget, hkey.symm, hkey ▸ C.sha256_length _, r.ed25519Public_length,
    h id r hget⟩

/-- Every record is still there, with its key and at no lower level. -/
def Upholds (s s' : TrustStore C) : Prop :=
  ∀ id old, s.get id = some old → ∃ r, s'.get id = some r ∧
    r.ed25519Public = old.ed25519Public ∧ old.trustLevel ≤ r.trustLevel

theorem upholds_refl (s : TrustStore C) : s.Upholds s :=
  fun _ old hold => ⟨old, hold, rfl, le_refl _⟩

theorem Upholds.trans {s t u : TrustStore C} (hst : s.Upholds t) (htu : t.Upholds u) :
    s.Upholds u := by
  intro id old hold
  rcases hst id old hold with ⟨r, hr, hkey, hlevel⟩
  rcases htu id r hr with ⟨r', hr', hkey', hlevel'⟩
  exact ⟨r', hr', hkey'.trans hkey, hlevel.trans hlevel'⟩

/-- The key that is given out is that of the record. -/
theorem getPublicKey_eq_ok (s : TrustStore C) (id pub : Bytes) :
    s.getPublicKey id = .ok pub ↔ ∃ r, s.get id = some r ∧ r.ed25519Public = pub := by
  unfold getPublicKey get
  cases s.records.get? id with
  | none => simp only [reduceCtorEq, false_and, exists_false]
  | some r => simp only [Except.ok.injEq, Option.some.injEq, exists_eq_left']

end TrustStore

section Runs

variable (C : Primitives) (allowTofu : Bool) (minTrust : TrustLevel)
  (maxEndorsementDepth maxRotations : Int) (acts : List RegistryAct)

theorem run_pinned (k : Nat) :
    ((acts.take k).foldl Registry.step
      (Registry.create C allowTofu minTrust maxEndorsementDepth maxRotations)).store.Pinned := by
  have hstart : (Registry.create C allowTofu minTrust maxEndorsementDepth
      maxRotations).store.NamesOnce := by
    intro id r hget
    cases hget
  refine TrustStore.pinned_of_namesOnce _ ?_
  exact along_invariant (fun g : Registry C => g.store.NamesOnce)
    (fun g a h _ => (g.step_change a).namesOnce h) _ _ hstart (along_true _ _)

theorem run_upholds (j k : Nat) (hjk : j ≤ k) :
    ((acts.take j).foldl Registry.step
      (Registry.create C allowTofu minTrust maxEndorsementDepth maxRotations)).store.Upholds
    ((acts.take k).foldl Registry.step
      (Registry.create C allowTofu minTrust maxEndorsementDepth maxRotations)).store :=
  take_related (fun _ => True) (fun g g' : Registry C => g.store.Upholds g'.store)
    (fun g => g.store.upholds_refl) (fun _ _ _ => TrustStore.Upholds.trans)
    (fun g a _ => ⟨trivial, (g.step_change a).grows⟩) _ acts trivial j k hjk

end Runs

/-- In every state of a run the records are pinned, and every later state
    upholds them. -/
theorem trustStore_pins_keys (C : Primitives) (allowTofu : Bool) (minTrust : TrustLevel)
    (maxEndorsementDepth maxRotations : Int) (acts : List RegistryAct) :
    let state (k : Nat) := ((acts.take k).foldl Registry.step
      (Registry.create C allowTofu minTrust maxEndorsementDepth maxRotations)).store
    (∀ k, (state k).Pinned) ∧ ∀ j k, j ≤ k → (state j).Upholds (state k) :=
  ⟨run_pinned C allowTofu minTrust maxEndorsementDepth maxRotations acts,
    run_upholds C allowTofu minTrust maxEndorsementDepth maxRotations acts⟩

/-- The key that is given out for an identity has the identity as its digest, and
    stays the same for the rest of the run. -/
theorem getPublicKey_pinned (C : Primitives) (allowTofu : Bool) (minTrust : TrustLevel)
    (maxEndorsementDepth maxRotations : Int) (acts : List RegistryAct) (id pub : Bytes) :
    let state (k : Nat) := ((acts.take k).foldl Registry.step
      (Registry.create C allowTofu minTrust maxEndorsementDepth maxRotations)).store
    ∀ j k, j ≤ k → (state j).getPublicKey id = .ok pub →
      id = C.sha256 pub ∧ (state k).getPublicKey id = .ok pub := by
  intro state j k hjk hpub
  rcases ((state j).getPublicKey_eq_ok id pub).mp hpub with ⟨old, hold, rfl⟩
  have hkey := (run_pinned C allowTofu minTrust maxEndorsementDepth maxRotations acts j id old
    hold).2.1
  rcases run_upholds C allowTofu minTrust maxEndorsementDepth maxRotations acts j k hjk id old hold
    with ⟨r, hr, hsame, _⟩
  exact ⟨hkey, ((state k).getPublicKey_eq_ok id _).mpr ⟨r, hr, hsame⟩⟩

namespace TrustStore

/-- A hello gets the record of its sender back, or raises and changes nothing.
    Without trust on first use it adds no record. -/
structure Greets (s : TrustStore C) (sender pub : Bytes) : Prop where
  own : ∀ r, ((processHello sender pub).run s).returned = some r →
    r.deviceId = sender ∧ r.ed25519Public = pub
  raised : ((processHello sender pub).run s).returned = none →
    ∃ message, (processHello sender pub).run s = .error ⟨.trustError, message⟩ s
  strict : s.allowTofu = false → ((processHello sender pub).run s).final.records = s.records

/-- Raising with nothing changed is a way to greet anyone. -/
theorem greets_of_error (s : TrustStore C) (sender pub : Bytes) (message : String)
    (hrun : (processHello sender pub).run s = .error ⟨.trustError, message⟩ s) :
    s.Greets sender pub where
  own r hr := by
    rw [hrun] at hr
    cases hr
  raised _ := ⟨message, hrun⟩
  strict _ := by
    rw [hrun]
    rfl

/-- So is returning the sender's own record, if nothing is added without trust
    on first use. -/
theorem greets_of_ok (s s' : TrustStore C) (sender pub : Bytes) (r : TrustRecord C)
    (hrun : (processHello sender pub).run s = .ok r s')
    (hown : r.deviceId = sender ∧ r.ed25519Public = pub)
    (hstrict : s.allowTofu = false → s'.records = s.records) : s.Greets sender pub where
  own r' hr := by
    rw [hrun] at hr
    cases hr
    exact hown
  raised hr := by
    rw [hrun] at hr
    cases hr
  strict htofu := by
    rw [hrun]
    exact hstrict htofu

/-- A known sender gets its record, if it has the key of it. -/
theorem processHello_known (s : TrustStore C) (sender pub : Bytes) (r : TrustRecord C)
    (h : s.get sender = some r) :
    (r.ed25519Public = pub ∧ (processHello sender pub).run s = .ok r s) ∨
      ∃ message, (processHello sender pub).run s = .error ⟨.trustError, message⟩ s := by
  have hget : s.records.get? sender = some r := h
  simp only [processHello, EStateM.run_bind, EStateM.run_get, hget]
  by_cases hkey : r.ed25519Public = pub
  · rw [if_neg (not_not.mpr hkey)]
    exact Or.inl ⟨hkey, rfl⟩
  · rw [if_pos hkey]
    exact Or.inr ⟨_, rfl⟩

/-- An unknown sender is refused without trust on first use. -/
theorem processHello_refused (s : TrustStore C) (sender pub : Bytes) (h : s.get sender = none)
    (htofu : s.allowTofu = false) :
    ∃ message, (processHello sender pub).run s = .error ⟨.trustError, message⟩ s := by
  have hget : s.records.get? sender = none := h
  simp only [processHello, EStateM.run_bind, EStateM.run_get, hget, htofu]
  exact ⟨_, rfl⟩

/-- With it, its key is added under the digest of the key. -/
theorem processHello_unknown (s : TrustStore C) (sender pub : Bytes) (hpub : pub.length = 32)
    (h : s.get sender = none) (htofu : s.allowTofu = true) :
    ∃ r, s.upsert pub .tofu = some r ∧ (processHello sender pub).run s = .ok r (s.put r) := by
  have hget : s.records.get? sender = none := h
  rcases s.upsert_of_length pub .tofu hpub with ⟨r, hr⟩
  have hrun := s.add_run pub .tofu
  rw [hr] at hrun
  simp only [processHello, EStateM.run_bind, EStateM.run_get, hget, htofu]
  exact ⟨r, hr, hrun⟩

/-- A store greets a sender, unless it takes an unknown identity on the word of
    a key with another digest. -/
theorem greets_iff (s : TrustStore C) (sender pub : Bytes) (hpub : pub.length = 32) :
    s.Greets sender pub ↔
      (s.get sender = none → s.allowTofu = true → sender = C.sha256 pub) := by
  rcases hget : s.get sender with _ | r
  · cases htofu : s.allowTofu with
    | false =>
        rcases s.processHello_refused sender pub hget htofu with ⟨message, hrun⟩
        exact iff_of_true (s.greets_of_error sender pub message hrun)
          (fun _ h => Bool.noConfusion h)
    | true =>
        rcases s.processHello_unknown sender pub hpub hget htofu with ⟨r, hup, hrun⟩
        have hfiled := (s.upsert_cases pub .tofu r hup).1
        constructor
        · intro h _ _
          have hown := h.own r (by rw [hrun]; rfl)
          rw [← hown.1, hfiled]
        · intro h
          have hsender := h rfl rfl
          refine s.greets_of_ok _ sender pub r hrun ?_ (fun hc => Bool.noConfusion
            (htofu.symm.trans hc))
          -- The digest is the identity, which is unknown, so the record is new.
          rcases (s.upsert_cases pub .tofu r hup).2 with ⟨old, hold, _⟩ | ⟨_, hkey, _⟩
          · rw [← hsender, hget] at hold
            cases hold
          · exact ⟨hfiled.trans hsender.symm, hkey⟩
  · refine iff_of_true ?_ (fun h => by cases h)
    rcases s.processHello_known sender pub r hget with ⟨hkey, hrun⟩ | ⟨message, hrun⟩
    · exact s.greets_of_ok s sender pub r hrun ⟨s.filed sender r hget, hkey⟩ (fun _ => rfl)
    · exact s.greets_of_error sender pub message hrun

end TrustStore

/-- In every state of a run, a hello gets its sender's own record exactly when
    the sender is known, or is not let in, or gives the digest of its key. -/
theorem processHello_greets_iff (C : Primitives) (allowTofu : Bool) (minTrust : TrustLevel)
    (maxEndorsementDepth maxRotations : Int) (acts : List RegistryAct) (sender pub : Bytes)
    (hpub : pub.length = 32) :
    let s := (acts.foldl Registry.step
      (Registry.create C allowTofu minTrust maxEndorsementDepth maxRotations)).store
    s.Greets sender pub ↔
      (s.get sender = none → s.allowTofu = true → sender = C.sha256 pub) :=
  TrustStore.greets_iff _ sender pub hpub

/-- A device says hello, another one is verified, and the first is distrusted. -/
def greetedRun : List RegistryAct :=
  [.processHello (Registry.toyIdentity 1) (Registry.toyIdentity 1),
    .add (Registry.toyIdentity 2) .verified, .distrust (Registry.toyIdentity 1)]

/-- After that run a third device is let in and gets its own record, and the
    first one is refused under the key of the second. -/
theorem processHello_greets_third :
    let s := (greetedRun.foldl Registry.step
      (Registry.create toyPrimitives true .tofu 3 10)).store
    (∃ r, ((TrustStore.processHello (Registry.toyIdentity 3) (Registry.toyIdentity 3)).run
        s).returned = some r ∧ r.deviceId = Registry.toyIdentity 3) ∧
      ((TrustStore.processHello (Registry.toyIdentity 1) (Registry.toyIdentity 2)).run
        s).returned = none ∧
      s.Greets (Registry.toyIdentity 3) (Registry.toyIdentity 3) ∧
      s.Greets (Registry.toyIdentity 1) (Registry.toyIdentity 2) := by
  have hgreets := processHello_greets_iff toyPrimitives true .tofu 3 10 greetedRun
  refine ⟨⟨_, rfl, by decide +kernel⟩, by decide +kernel, ?_, ?_⟩
  · exact (hgreets _ _ (toyPrimitives.ed25519Public_length _)).mpr (fun _ _ => by decide)
  · -- The first device is known, whatever key it gives.
    exact (hgreets _ _ (toyPrimitives.ed25519Public_length _)).mpr
      (fun hnone => absurd hnone (by decide +kernel))

/-- A hello that gives one identity and the key of another is accepted, and
    gets the record of the other back. -/
theorem processHello_misnamed :
    let s := (Registry.create toyPrimitives true .tofu 3 10).store
    (∃ r, ((TrustStore.processHello (Registry.toyIdentity 1) (Registry.toyIdentity 2)).run
        s).returned = some r ∧ r.deviceId = Registry.toyIdentity 2) ∧
      ¬ s.Greets (Registry.toyIdentity 1) (Registry.toyIdentity 2) := by
  have hne : Registry.toyIdentity 1 ≠ Registry.toyIdentity 2 := by decide
  refine ⟨⟨_, rfl, by decide⟩, fun h => hne ?_⟩
  have hid := (h.own _ rfl).1
  rw [← hid]
  decide

end Ztlnp

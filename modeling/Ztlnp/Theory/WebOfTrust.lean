import Ztlnp.Lib.Rumours
import Ztlnp.Theory.Anchors

/-!
# The Web of Trust

How far trust spreads from an operator's decisions.

An operator verifies some devices, these vouch for others, and those for others
again. What a store makes of all the vouchers depends on the order in which they
are submitted: a voucher is refused as long as its endorser is not verified, and
the depth of a record is that of its latest endorser, so that an anchor can even be
demoted (`Theory.Anchors`). Where every device vouches only for devices that stand one
grade further from the operator, there is but one depth that a record can have, and
the order does not matter any more.

Trust then spreads as a rumour does (`Web.Upright.run_standing`): a device that is known to
be verified tells those it vouches for, up to the limit, and the operator is known
to begin with. So in every run a verified device is joined to the operator by a
chain of vouchers that is within the limit, its depth is its grade, and after enough
rounds of submissions, each in any order, all such devices are verified
(`trust_spreads`). Refused calls, hellos and the like may come in between.

## Main definitions

* `Web`: Devices, their grades, and who vouches for whom.
* `WebAct`: A voucher is submitted, or something else happens.
* `Web.Fair`: What is asked of a step.
* `Web.Chained`: A chain of vouchers joins a device to the operator.
* `Web.standing`: Who is verified.
* `Web.Upright`: The invariant of a run.

## Theorems

* `Registry.Change.depth_kept`: What does not endorse leaves a depth alone.
* `Web.Upright.standing_vouched`, `Web.Upright.standing_of_step`: Who becomes
  verified in a step.
* `Web.upright_step`: The invariant is kept.
* `Web.Upright.standing_step`, `Web.Upright.run_standing`: Trust spreads as a
  rumour.
* `trust_spreads`: Who is verified after a run, and at what depth.
-/

namespace Ztlnp

variable {C : Primitives} {ι : Type}

/-- Devices by their identity keys, and who vouches for whom. The operator is
    `none`. Nobody vouches for a device that is not one grade further out. -/
structure Web (C : Primitives) (ι : Type) where
  key : ι → Bytes
  grade : ι → Nat
  vouches : Option ι → ι → Prop
  id_injective : Function.Injective (fun x => C.sha256 (C.ed25519Public (key x)))
  graded : ∀ b x, vouches b x → grade x = b.elim 0 (fun e => grade e + 1)

/-- A device or the operator vouches for a device, or something else is called. -/
inductive WebAct (ι : Type)
  | vouch (voucher : Option ι) (target : ι)
  | other (a : RegistryAct)
deriving DecidableEq

/-- A call that verifies nobody. -/
def RegistryAct.Bystander : RegistryAct → Prop
  | .add _ level => level = .tofu
  | .processHello _ _ => True
  | .distrust _ => True
  | .removeBlacklist _ => True
  | _ => False

instance : ∀ a : RegistryAct, Decidable a.Bystander
  | .add _ level => inferInstanceAs (Decidable (level = .tofu))
  | .processHello _ _ => .isTrue trivial
  | .distrust _ => .isTrue trivial
  | .removeBlacklist _ => .isTrue trivial
  | .verifyFingerprint _ _ => .isFalse not_false
  | .addEndorsement _ _ => .isFalse not_false
  | .applyTransition _ _ => .isFalse not_false

/-- It is no operator's decision either. -/
theorem RegistryAct.Bystander.not_verifies {a : RegistryAct} (h : a.Bystander) (id : Bytes) :
    ¬ a.verifies C id := by
  intro hop
  cases a with
  | add pub level =>
      have hlevel : level = .tofu := h
      rw [hlevel] at hop
      exact absurd hop.2 (by decide)
  | verifyFingerprint => exact h.elim
  | _ => exact hop.elim

section Depths

/-- Adding a key leaves its depth alone. One that is new has none. -/
theorem TrustStore.depth_upserted (s : TrustStore C) (pub : Bytes) (level : TrustLevel)
    (r : TrustRecord C) (hr : s.upsert pub level = some r) :
    r.endorsementDepth = (s.get r.deviceId).elim 0 TrustRecord.endorsementDepth := by
  rcases s.upsert_cases pub level r hr with ⟨hfiled, ⟨old, hold, heq⟩ | ⟨hnone, _, _, _, hdepth⟩⟩
  · rw [hfiled, hold, heq]
    rfl
  · rw [hfiled, hnone, hdepth]
    rfl

/-- Writing a record with the depth it had changes no depth. -/
theorem TrustStore.depth_written (s : TrustStore C) (w : TrustRecord C)
    (hw : w.endorsementDepth = (s.get w.deviceId).elim 0 TrustRecord.endorsementDepth)
    (id : Bytes) (r' : TrustRecord C) (hr' : (s.put w).get id = some r') :
    r'.endorsementDepth = (s.get id).elim 0 TrustRecord.endorsementDepth := by
  rw [get_put] at hr'
  by_cases hid : id = w.deviceId
  · rw [if_pos hid, Option.some.injEq] at hr'
    rw [← hr', hid]
    exact hw
  · rw [if_neg hid] at hr'
    rw [hr']
    rfl

/-- What does not endorse an identity leaves its depth alone. -/
theorem Registry.Change.depth_kept {g g' : Registry C} {a : RegistryAct} {ok : Bool}
    (h : Change g a ok g') (id : Bytes)
    (hne : ∀ blob i e, a = .addEndorsement blob i → g.store.Vouches blob i e →
      C.sha256 (TrustStore.endorsedKey blob) ≠ id)
    (r' : TrustRecord C) (hr' : g'.store.get id = some r') :
    r'.endorsementDepth = (g.store.get id).elim 0 TrustRecord.endorsementDepth := by
  have hsame : g.store.get id = some r' →
      r'.endorsementDepth = (g.store.get id).elim 0 TrustRecord.endorsementDepth := by
    intro hget
    rw [hget]
    rfl
  cases h with
  | refused => exact hsame hr'
  | added pub level w hw =>
      exact g.store.depth_written w (g.store.depth_upserted pub level w hw) id r' hr'
  | recognised => exact hsame hr'
  | greeted sender pub w _ hw =>
      exact g.store.depth_written w (g.store.depth_upserted pub .tofu w hw) id r' hr'
  | confirmed d fingerprint old hget _ =>
      have hold : old.endorsementDepth
          = (g.store.get old.deviceId).elim 0 TrustRecord.endorsementDepth := by
        rw [g.store.filed d old hget, hget]
        rfl
      exact g.store.depth_written { old with trustLevel := max old.trustLevel .verified } hold id
        r' hr'
  | endorsed blob i e w hv hw =>
      have hfiled := (g.store.upsert_cases _ _ w hw).1
      -- The record that was written is another one.
      have hid : id ≠ w.deviceId := fun hc => hne blob i e rfl hv (hfiled.symm.trans hc.symm)
      simp only [put, TrustStore.get_put, TrustStore.endorsedBy, if_neg hid] at hr'
      exact hsame hr'
  | distrusted => exact hsame hr'
  | pardoned => exact hsame hr'
  | rotated nowMs t old new _ hnew =>
      exact g.store.depth_written { new with endorsers := carryOver old.endorsers new.endorsers }
        (g.store.depth_upserted _ _ new hnew) id r' hr'

end Depths

/-- A voucher that was created for a key vouches for that key. -/
theorem TrustStore.endorsedKey_created (endorserPrivate e t pub : Bytes) (he : e.length = 32)
    (ht : t.length = 32) (hpub : pub.length = 32) :
    endorsedKey (createEndorsement C endorserPrivate e t pub) = pub := by
  have hbody : (e ++ t ++ pub).length = 96 := by
    rw [List.length_append, List.length_append, he, ht, hpub]
  have htarget : (e ++ t).length = 64 := by rw [List.length_append, he, ht]
  rw [endorsedKey_eq, createEndorsement, field_append_within _ _ 64 32 (by omega),
    field_append_right _ _ 64 32 (by omega), htarget, Nat.sub_self,
    (field_eq_self _ 32 hpub.ge).mpr hpub]

namespace Web

variable (W : Web C ι)

def pub (x : ι) : Bytes := C.ed25519Public (W.key x)

def id (x : ι) : Bytes := C.sha256 (W.pub x)

/-- The voucher of one device for another. -/
def voucher (e x : ι) : Bytes := createEndorsement C (W.key e) (W.id e) (W.id x) (W.pub x)

/-- What is called on the store. -/
def call : WebAct ι → RegistryAct
  | .vouch none x => .add (W.pub x) .verified
  | .vouch (some e) x => .addEndorsement (W.voucher e x) (W.id e)
  | .other a => a

def step (g : Registry C) (a : WebAct ι) : Registry C := g.step (W.call a)

/-- Only vouchers of the web are submitted. Whatever else goes through verifies
    nobody, and brings in no other key with the digest of one of these. -/
def Fair (g : Registry C) : WebAct ι → Prop
  | .vouch b x => W.vouches b x
  | .other a => (g.accepts a = true → a.Bystander) ∧
    ∀ k ∈ a.key, ∀ x, C.sha256 k = W.id x → k = W.pub x

instance decidableFair [Fintype ι] [∀ b x, Decidable (W.vouches b x)] (g : Registry C) :
    ∀ a : WebAct ι, Decidable (W.Fair g a)
  | .vouch b x => inferInstanceAs (Decidable (W.vouches b x))
  | .other a => inferInstanceAs (Decidable ((g.accepts a = true → a.Bystander) ∧
      ∀ k ∈ a.key, ∀ x, C.sha256 k = W.id x → k = W.pub x))

/-- Every voucher of the web is submitted. -/
def IsRound (acts : List (WebAct ι)) : Prop := ∀ b x, W.vouches b x → .vouch b x ∈ acts

/-- One vouches for the other. -/
def Link (x b : Option ι) : Prop := ∃ t, x = some t ∧ W.vouches b t

/-- A chain of vouchers joins a device to the operator. -/
def Chained (x : ι) : Prop := Relation.ReflTransGen W.Link (some x) none

/-- The store does not refuse a device for its grade. -/
def Within (limit : Int) (x : ι) : Prop := (W.grade x : Int) ≤ max 0 limit

instance decidableWithin (limit : Int) (x : ι) : Decidable (W.Within limit x) :=
  inferInstanceAs (Decidable (_ ≤ _))

/-- Who is verified. The operator need not be. -/
def standing (g : Registry C) : Option ι → Bool
  | none => true
  | some x => g.store.isVerified (W.id x)

/-- The records of the web have the keys of the web, and their grades for depths
    once they are verified. -/
structure Upright (limit : Int) (g : Registry C) : Prop where
  limited : g.store.maxEndorsementDepth = limit
  keyed : ∀ x r, g.store.get (W.id x) = some r → r.ed25519Public = W.pub x
  deep : ∀ x r, g.store.get (W.id x) = some r →
    r.endorsementDepth = if .verified ≤ r.trustLevel then W.grade x else 0

/-- What a step tells to whom: one that is vouched for within the limit hears the
    voucher. -/
def tells (limit : Int) : WebAct ι → Option (Option ι × Option ι)
  | .vouch b x => if W.Within limit x then some (some x, b) else none
  | .other _ => none

section Step

variable {W : Web C ι} {limit : Int} {g : Registry C}

theorem voucher_names (e x : ι) : TrustStore.endorsedKey (W.voucher e x) = W.pub x :=
  TrustStore.endorsedKey_created _ _ _ _ (C.sha256_length _) (C.sha256_length _)
    (C.ed25519Public_length _)

/-- A step brings in no other key with the digest of one of the web. -/
theorem Fair.keyed {a : WebAct ι} (hfair : W.Fair g a) (k : Bytes)
    (hk : (W.call a).key = some k) (x : ι) (hid : C.sha256 k = W.id x) : k = W.pub x := by
  cases a with
  | vouch b t =>
      have hkt : k = W.pub t := by
        cases b with
        | none => exact (Option.some.inj hk).symm
        | some e => exact (Option.some.inj hk).symm.trans (voucher_names e t)
      rw [hkt] at hid ⊢
      rw [W.id_injective hid]
  | other a => exact hfair.2 k hk x hid

/-- What else happens is refused without a trace, or verifies nobody. -/
theorem other_cases (a : RegistryAct) (hfair : W.Fair g (.other a)) :
    W.step g (.other a) = g ∨ a.Bystander := by
  cases hok : g.accepts a with
  | false =>
      have hchange := g.step_change a
      rw [hok] at hchange
      exact Or.inl hchange.eq_of_refused
  | true => exact Or.inr (hfair.1 hok)

/-- A verified device stays verified. -/
theorem standing_kept (a : WebAct ι) (y : Option ι) (hy : W.standing g y = true) :
    W.standing (W.step g a) y = true := by
  cases y with
  | none => rfl
  | some x =>
      rcases (TrustStore.isVerified_iff _ _).mp hy with ⟨r, hr, hlevel⟩
      rcases (g.step_change (W.call a)).grows _ r hr with ⟨r', hr', _, hle⟩
      exact (TrustStore.isVerified_iff _ _).mpr ⟨r', hr', hlevel.trans hle⟩

/-- An accepted endorsement of the web is a voucher of a verified device for the next
    grade, which is within the limit. -/
theorem Upright.endorses (h : W.Upright limit g) {a : WebAct ι} (hfair : W.Fair g a)
    (blob i : Bytes) (er : TrustRecord C) (ha : W.call a = .addEndorsement blob i)
    (hv : g.store.Vouches blob i er) (x : ι)
    (hid : C.sha256 (TrustStore.endorsedKey blob) = W.id x) :
    (∃ e, a = .vouch (some e) x ∧ W.standing g (some e) = true) ∧
      er.endorsementDepth + 1 = W.grade x ∧ W.Within limit x := by
  cases a with
  | vouch b t =>
      cases b with
      | none => simp only [call, reduceCtorEq] at ha
      | some e =>
          simp only [call, RegistryAct.addEndorsement.injEq] at ha
          rcases ha with ⟨rfl, rfl⟩
          rw [voucher_names] at hid
          have htx : t = x := W.id_injective hid
          have hdeep := h.deep e er hv.2.1
          have hgrade : W.grade t = W.grade e + 1 := W.graded _ _ hfair
          rw [if_pos hv.2.2.1] at hdeep
          rw [← hdeep, htx] at hgrade
          -- What the store checked against the limit is the grade of the target.
          have hdepth := hv.2.2.2.1
          rw [← hgrade, h.limited] at hdepth
          rw [htx]
          exact ⟨⟨e, rfl, (TrustStore.isVerified_iff _ _).mpr ⟨er, hv.2.1, hv.2.2.1⟩⟩,
            hgrade.symm, hdepth.trans (le_max_right _ _)⟩
  | other a =>
      -- No other call that goes through is an endorsement.
      have hok := (g.accepts_addEndorsement_iff blob i).mpr ⟨er, hv⟩
      have hby := hfair.1
      rw [show a = .addEndorsement blob i from ha] at hby
      exact (hby hok).elim

/-- What a verified device signs within the limit passes the checks. -/
theorem Upright.vouches (h : W.Upright limit g) (e x : ι) (hvouch : W.vouches (some e) x)
    (he : W.standing g (some e) = true) (hx : W.Within limit x) :
    ∃ er, g.store.Vouches (W.voucher e x) (W.id e) er := by
  rcases (TrustStore.isVerified_iff _ _).mp he with ⟨er, her, hlevel⟩
  have hdeep := h.deep e er her
  have hgrade : W.grade x = W.grade e + 1 := W.graded _ _ hvouch
  rw [if_pos hlevel] at hdeep
  have hdepth : (er.endorsementDepth : Int) < g.store.maxEndorsementDepth := by
    unfold Within at hx
    rw [hdeep, h.limited]
    omega
  exact ((g.store.vouchesFor_iff _ _).mp (g.store.vouchesFor_created (W.key e) (W.id e) (W.pub x)
    er her (h.keyed e er her) hlevel hdepth (C.ed25519Public_length _))).1

/-- A device that is vouched for within the limit, by somebody that is verified, is
    verified. -/
theorem Upright.standing_vouched (h : W.Upright limit g) (b : Option ι) (x : ι)
    (hvouch : W.vouches b x) (hb : W.standing g b = true) (hx : W.Within limit x) :
    W.standing (W.step g (.vouch b x)) (some x) = true := by
  refine (TrustStore.isVerified_iff _ _).mpr ?_
  cases b with
  | none =>
      -- The operator adds the key at VERIFIED.
      rcases g.store.upsert_of_length (W.pub x) .verified (C.ed25519Public_length _) with ⟨r, hr⟩
      have hrun := g.store.add_run (W.pub x) .verified
      rw [hr] at hrun
      have hstep : W.step g (.vouch none x) = g.put r := by
        unfold step Registry.step call Registry.perform
        simp only
        rw [Registry.run_onStore_ok _ g _ _ hrun]
        rfl
      have hfiled := (g.store.upsert_cases _ _ r hr).1
      refine ⟨r, ?_, g.store.level_le_upsert _ _ r hr⟩
      rw [hstep, Registry.put, TrustStore.get_put]
      exact if_pos hfiled.symm
  | some e =>
      -- The endorsement is accepted, as the endorser's standing is what it is checked for.
      rcases h.vouches e x hvouch hb hx with ⟨er, hv⟩
      rcases g.step_addEndorsement (W.voucher e x) (W.id e) with ⟨hno, _⟩ |
        ⟨er', r, _, hr, _, hstep⟩
      · exact absurd hv (hno er)
      · have hfiled := (g.store.upsert_cases _ _ r hr).1
        rw [voucher_names] at hfiled
        refine ⟨TrustStore.endorsedBy r (W.id e) (er'.endorsementDepth + 1), ?_,
          le_trans (TrustLevel.le_endorsed _) (g.store.level_le_upsert _ _ r hr)⟩
        rw [step, call, hstep, Registry.put, TrustStore.get_put]
        exact if_pos hfiled.symm

/-- What else happens verifies nobody. -/
theorem standing_of_other (a : RegistryAct) (hfair : W.Fair g (.other a)) (x : ι)
    (hx : W.standing (W.step g (.other a)) (some x) = true) : W.standing g (some x) = true := by
  rcases other_cases a hfair with hsame | hby
  · rw [hsame] at hx
    exact hx
  · rcases (TrustStore.isVerified_iff _ _).mp hx with ⟨r', hr', hlevel⟩
    cases (g.step_change a).standing (W.id x) r' hr' hlevel with
    | kept r hr hverified _ => exact (TrustStore.isVerified_iff _ _).mpr ⟨r, hr, hverified⟩
    | operator hop => exact absurd hop (hby.not_verifies _)
    | endorsed blob i er ha _ _ _ =>
        rw [ha] at hby
        exact hby.elim
    | rotated nowMs t old ha _ _ _ _ =>
        rw [ha] at hby
        exact hby.elim

/-- Whoever is verified after a step was before, or was vouched for within the limit by
    somebody that was. -/
theorem Upright.standing_of_step (h : W.Upright limit g) (a : WebAct ι) (hfair : W.Fair g a)
    (x : ι) (hx : W.standing (W.step g a) (some x) = true) :
    W.standing g (some x) = true ∨
      ∃ b, a = .vouch b x ∧ W.standing g b = true ∧ W.Within limit x := by
  cases a with
  | other a => exact Or.inl (standing_of_other a hfair x hx)
  | vouch b t =>
      rcases (TrustStore.isVerified_iff _ _).mp hx with ⟨r', hr', hlevel⟩
      cases (g.step_change (W.call (.vouch b t))).standing (W.id x) r' hr' hlevel with
      | kept r hr hverified _ =>
          exact Or.inl ((TrustStore.isVerified_iff _ _).mpr ⟨r, hr, hverified⟩)
      | operator hop =>
          cases b with
          | none =>
              have htx : t = x := W.id_injective hop.1
              have hgrade : W.grade t = 0 := W.graded _ _ hfair
              refine Or.inr ⟨none, by rw [htx], rfl, ?_⟩
              unfold Within
              rw [← htx, hgrade]
              exact le_max_left _ _
          | some e => exact hop.elim
      | endorsed blob i er ha hv hid _ =>
          rcases h.endorses hfair blob i er ha hv x hid with ⟨⟨e, heq, he⟩, _, hnear⟩
          exact Or.inr ⟨some e, heq, he, hnear⟩
      | rotated nowMs t' old ha _ _ _ _ =>
          -- Nobody rotates a key here.
          cases b with
          | none => simp only [call, reduceCtorEq] at ha
          | some e => simp only [call, reduceCtorEq] at ha

/-- The depth of a device, known or not, is its grade if it is verified. -/
theorem Upright.depth_eq (h : W.Upright limit g) (x : ι) :
    (g.store.get (W.id x)).elim 0 TrustRecord.endorsementDepth
      = if W.standing g (some x) = true then W.grade x else 0 := by
  cases hr : g.store.get (W.id x) with
  | none =>
      simp only [standing, TrustStore.isVerified, hr, Option.any_none, Bool.false_eq_true, if_false]
      rfl
  | some r =>
      simp only [standing, TrustStore.isVerified, hr, Option.any_some, decide_eq_true_eq]
      exact h.deep x r hr

/-- A device that is vouched for, and not endorsed, is vouched for by the operator. -/
theorem Upright.grade_of_vouched (h : W.Upright limit g) (a : WebAct ι) (hfair : W.Fair g a)
    (x : ι) (hne : ∀ blob i er, W.call a = .addEndorsement blob i → g.store.Vouches blob i er →
      C.sha256 (TrustStore.endorsedKey blob) ≠ W.id x)
    (hvouched : ∃ b, a = .vouch b x ∧ W.standing g b = true ∧ W.Within limit x) :
    W.grade x = 0 := by
  rcases hvouched with ⟨b, rfl, hb, hnear⟩
  cases b with
  | none => exact W.graded _ _ hfair
  | some e =>
      -- What a verified device signs within the limit would have been accepted.
      rcases h.vouches e x hfair hb hnear with ⟨er, hv⟩
      refine absurd ?_ (hne _ _ er rfl hv)
      rw [voucher_names]
      rfl

/-- A device that was just endorsed has its grade for a depth. -/
theorem Upright.deep_endorsed (h : W.Upright limit g) (a : WebAct ι) (hfair : W.Fair g a)
    (blob i : Bytes) (er : TrustRecord C) (ha : W.call a = .addEndorsement blob i)
    (hv : g.store.Vouches blob i er) (x : ι)
    (hid : C.sha256 (TrustStore.endorsedKey blob) = W.id x) (r' : TrustRecord C)
    (hr' : (W.step g a).store.get (W.id x) = some r') :
    .verified ≤ r'.trustLevel ∧ r'.endorsementDepth = W.grade x := by
  rcases h.endorses hfair blob i er ha hv x hid with ⟨⟨e, heq, he⟩, hgrade, hnear⟩
  constructor
  · have hstands : W.standing (W.step g a) (some x) = true := by
      rw [heq] at hfair ⊢
      exact h.standing_vouched (some e) x hfair he hnear
    rcases (TrustStore.isVerified_iff _ _).mp hstands with ⟨r, hr, hlevel⟩
    rw [Option.some.inj (hr'.symm.trans hr)]
    exact hlevel
  · unfold step at hr'
    rw [ha, ← hid] at hr'
    rw [← hgrade]
    exact g.depth_endorsed blob i er r' hv hr'

/-- A device that was not endorsed has the depth it had, and that is still the right
    one. -/
theorem Upright.deep_kept (h : W.Upright limit g) (a : WebAct ι) (hfair : W.Fair g a) (x : ι)
    (hne : ∀ blob i er, W.call a = .addEndorsement blob i → g.store.Vouches blob i er →
      C.sha256 (TrustStore.endorsedKey blob) ≠ W.id x)
    (r' : TrustRecord C) (hr' : (W.step g a).store.get (W.id x) = some r') :
    r'.endorsementDepth = if .verified ≤ r'.trustLevel then W.grade x else 0 := by
  rw [(g.step_change (W.call a)).depth_kept (W.id x) hne r' hr', h.depth_eq x]
  have hstep : W.standing (W.step g a) (some x) = true ↔ .verified ≤ r'.trustLevel := by
    simp only [standing, TrustStore.isVerified, hr', Option.any_some, decide_eq_true_eq]
  by_cases hlevel : .verified ≤ r'.trustLevel
  · rw [if_pos hlevel]
    rcases h.standing_of_step a hfair x (hstep.mpr hlevel) with hold | hvouched
    · rw [if_pos hold]
    · -- It has become verified without an endorsement, so at grade zero.
      rw [h.grade_of_vouched a hfair x hne hvouched, ite_self]
  · rw [if_neg hlevel, if_neg (fun hold => hlevel (hstep.mp (standing_kept a _ hold)))]

/-- Every step of the web keeps the invariant. -/
theorem upright_step (h : W.Upright limit g) (a : WebAct ι) (hfair : W.Fair g a) :
    W.Upright limit (W.step g a) where
  limited := (g.step_change (W.call a)).settings.2.1.trans h.limited
  keyed := by
    intro x r' hr'
    have hid := (W.step g a).store.sha256_of_get _ r' hr'
    rcases (g.step_change (W.call a)).key_mem _ r' hr' with ⟨i, r, hr, hkey⟩ | hbring
    · -- The key was stored before, and under the same digest.
      have hi := g.store.sha256_of_get i r hr
      rw [hkey, hid] at hi
      rw [← hkey]
      exact h.keyed x r (hi ▸ hr)
    · exact hfair.keyed _ hbring x hid
  deep := by
    intro x r' hr'
    by_cases hend : ∃ blob i er, W.call a = .addEndorsement blob i ∧ g.store.Vouches blob i er ∧
        C.sha256 (TrustStore.endorsedKey blob) = W.id x
    · rcases hend with ⟨blob, i, er, ha, hv, hid⟩
      rcases h.deep_endorsed a hfair blob i er ha hv x hid r' hr' with ⟨hlevel, hdepth⟩
      rw [if_pos hlevel, hdepth]
    · exact h.deep_kept a hfair x
        (fun blob i er ha hv hid => hend ⟨blob, i, er, ha, hv, hid⟩) r' hr'

theorem upright_create (allowTofu : Bool) (minTrust : TrustLevel) (maxRotations : Int) :
    W.Upright limit (Registry.create C allowTofu minTrust limit maxRotations) where
  limited := rfl
  keyed := by
    intro x r hr
    simp only [Registry.create, TrustStore.get, Dict.get?_empty, reduceCtorEq] at hr
  deep := by
    intro x r hr
    simp only [Registry.create, TrustStore.get, Dict.get?_empty, reduceCtorEq] at hr

/-- Who is verified after a step: the one that was told, if one was, and who was. -/
theorem Upright.standing_step [DecidableEq ι] (h : W.Upright limit g) (a : WebAct ι)
    (hfair : W.Fair g a) :
    W.standing (W.step g a) = (W.tells limit a).elim (W.standing g) (hearFrom (W.standing g)) := by
  funext y
  rw [Bool.eq_iff_iff]
  cases a with
  | vouch b t =>
      by_cases hnear : W.Within limit t
      · rw [tells, if_pos hnear, Option.elim_some, hearFrom_iff]
        constructor
        · intro hy
          cases y with
          | none => exact Or.inl rfl
          | some x =>
              rcases h.standing_of_step _ hfair x hy with hold | ⟨b', heq, hb, _⟩
              · exact Or.inl hold
              · -- The step names the one that was told, and by whom.
                rw [WebAct.vouch.injEq] at heq
                rw [heq.1, heq.2]
                exact Or.inr ⟨rfl, hb⟩
        · rintro (hy | ⟨rfl, hb⟩)
          · exact standing_kept _ y hy
          · exact h.standing_vouched b t hfair hb hnear
      · rw [tells, if_neg hnear, Option.elim_none]
        refine ⟨fun hy => ?_, standing_kept _ y⟩
        cases y with
        | none => rfl
        | some x =>
            rcases h.standing_of_step _ hfair x hy with hold | ⟨b', heq, _, hx⟩
            · exact hold
            · rw [WebAct.vouch.injEq] at heq
              rw [← heq.2] at hx
              exact absurd hx hnear
  | other a =>
      rw [tells, Option.elim_none]
      refine ⟨fun hy => ?_, standing_kept _ y⟩
      cases y with
      | none => rfl
      | some x => exact standing_of_other a hfair x hy

/-- Trust spreads as a rumour does, and the invariant is kept. -/
theorem Upright.run_standing [DecidableEq ι] (acts : List (WebAct ι)) (h : W.Upright limit g)
    (hrun : Along W.step W.Fair g acts) :
    W.Upright limit (acts.foldl W.step g) ∧ W.standing (acts.foldl W.step g)
      = (acts.filterMap (W.tells limit)).foldl hearFrom (W.standing g) := by
  induction acts generalizing g with
  | nil => exact ⟨h, rfl⟩
  | cons a acts ih =>
      rcases ih (upright_step h a hrun.1) hrun.2 with ⟨hupright, hstanding⟩
      rw [List.foldl_cons]
      refine ⟨hupright, ?_⟩
      rw [hstanding, h.standing_step a hrun.1]
      cases htells : W.tells limit a with
      | none => rw [List.filterMap_cons_none htells, Option.elim_none]
      | some e => rw [List.filterMap_cons_some htells, List.foldl_cons, Option.elim_some]

end Step

section Chains

variable {W : Web C ι} {limit : Int}

/-- One vouches for the other within the limit. -/
def Near (W : Web C ι) (limit : Int) (x b : Option ι) : Prop :=
  ∃ t, x = some t ∧ W.vouches b t ∧ W.Within limit t

/-- On a chain to the operator the grades fall, so the first is the one to look at. -/
theorem near_of_link (y : Option ι) (hpath : Relation.ReflTransGen W.Link y none)
    (hy : ∀ x, y = some x → W.Within limit x) :
    Relation.ReflTransGen (W.Near limit) y none := by
  induction hpath using Relation.ReflTransGen.head_induction_on with
  | refl => exact .refl
  | head hlink _ ih =>
      rcases hlink with ⟨t, rfl, hvouch⟩
      have ht := hy t rfl
      refine .head ⟨t, rfl, hvouch, ht⟩ (ih ?_)
      rintro e rfl
      have hgrade : W.grade t = W.grade e + 1 := W.graded _ _ hvouch
      unfold Within at ht ⊢
      omega

theorem chained_of_near (x : ι) (hpath : Relation.ReflTransGen (W.Near limit) (some x) none) :
    W.Chained x ∧ W.Within limit x := by
  refine ⟨Relation.ReflTransGen.mono (fun _ _ ⟨t, hy, hvouch, _⟩ => ⟨t, hy, hvouch⟩) _ _ hpath, ?_⟩
  rcases Relation.ReflTransGen.cases_head hpath with heq | ⟨b, ⟨t, heq, _, ht⟩, _⟩
  · simp only [reduceCtorEq] at heq
  · rw [Option.some.inj heq]
    exact ht

/-- In a run of the web, one is told of by somebody that vouches for it. -/
theorem near_of_tells (g : Registry C) (acts : List (WebAct ι))
    (hrun : Along W.step W.Fair g acts) (e : Option ι × Option ι)
    (he : e ∈ acts.filterMap (W.tells limit)) : W.Near limit e.1 e.2 := by
  rcases List.mem_filterMap.mp he with ⟨a, ha, htells⟩
  have hvouch : ∀ a ∈ acts, ∀ b x, a = .vouch b x → W.vouches b x := by
    refine forall_of_along (fun g a hfair b x heq => ?_) g acts hrun
    rw [heq] at hfair
    exact hfair
  cases a with
  | vouch b x =>
      rw [tells] at htells
      by_cases hx : W.Within limit x
      · rw [if_pos hx, Option.some.injEq] at htells
        rw [← htells]
        exact ⟨x, rfl, hvouch _ ha b x rfl, hx⟩
      · rw [if_neg hx] at htells
        simp only [reduceCtorEq] at htells
  | other => simp only [tells, reduceCtorEq] at htells

/-- In a round, whoever is vouched for within the limit is told. -/
theorem isRound_tells (acts : List (WebAct ι)) (h : W.IsRound acts) :
    Ztlnp.IsRound (W.Near limit) (acts.filterMap (W.tells limit)) := by
  rintro y b ⟨x, rfl, hvouch, hx⟩
  refine List.mem_filterMap.mpr ⟨.vouch b x, h b x hvouch, ?_⟩
  exact if_pos hx

end Chains

end Web

/-- In every run that begins with an empty store: a device that is verified is joined to
    the operator by a chain of vouchers, is within the limit, and its depth is its grade.
    If every voucher was submitted in as many rounds as there are devices, in any order,
    all devices of that kind are verified. -/
theorem trust_spreads [Fintype ι] (W : Web C ι) (allowTofu : Bool) (minTrust : TrustLevel)
    (limit maxRotations : Int) (acts : List (WebAct ι))
    (hfair : Along W.step W.Fair (Registry.create C allowTofu minTrust limit maxRotations) acts) :
    let g := acts.foldl W.step (Registry.create C allowTofu minTrust limit maxRotations)
    (∀ x, g.store.isVerified (W.id x) = true → W.Chained x ∧ W.Within limit x ∧
      (g.store.get (W.id x)).map TrustRecord.endorsementDepth = some (W.grade x)) ∧
    ∀ rounds : List (List (WebAct ι)), acts = rounds.flatten → (∀ r ∈ rounds, W.IsRound r) →
      Fintype.card ι ≤ rounds.length →
      ∀ x, W.Chained x → W.Within limit x → g.store.isVerified (W.id x) = true := by
  classical
  intro g
  rcases Web.Upright.run_standing acts (Web.upright_create allowTofu minTrust maxRotations) hfair
    with ⟨hupright, hstanding⟩
  constructor
  · intro x hx
    have htold : W.standing g (some x) = true := hx
    rw [hstanding] at htold
    rcases foldl_hearFrom_reaches _ _ (Web.near_of_tells _ acts hfair) (some x) htold with
      ⟨z, hpath, hz⟩
    -- Nobody is verified in an empty store.
    have hnone : z = none := by
      cases z with
      | none => rfl
      | some y => exact absurd hz Bool.false_ne_true
    rw [hnone] at hpath
    rcases Web.chained_of_near x hpath with ⟨hchain, hwithin⟩
    rcases (TrustStore.isVerified_iff _ _).mp hx with ⟨r, hr, hlevel⟩
    have hdeep := hupright.deep x r hr
    rw [if_pos hlevel] at hdeep
    refine ⟨hchain, hwithin, ?_⟩
    rw [hr, Option.map_some, hdeep]
  · intro rounds hacts hround hcount x hchain hwithin
    have hpath := Web.near_of_link (some x) hchain
      (fun y hy => Option.some.inj hy ▸ hwithin)
    change W.standing g (some x) = true
    rw [hstanding, hacts, List.filterMap_flatten]
    refine rounds_tell_all (rounds.map (List.filterMap (W.tells limit))) ?_ ?_ _ (some x) none
      hpath rfl
    · intro told htold
      rcases List.mem_map.mp htold with ⟨r, hr, rfl⟩
      exact Web.isRound_tells r (hround r hr)
    · rw [List.length_map, Fintype.card_option]
      omega

section Examples

/-- Three devices, by their distance from the operator. -/
inductive Tier
  | first
  | second
  | third
deriving DecidableEq

instance : Fintype Tier where
  elems := {.first, .second, .third}
  complete := by
    intro x
    cases x <;> decide

/-- An operator verifies the first device, which vouches for the second, which vouches
    for the third. -/
def threeTiers : Web toyPrimitives Tier where
  key := fun | .first => [1] | .second => [2] | .third => [3]
  grade := fun | .first => 0 | .second => 1 | .third => 2
  vouches := fun b x => (b, x) ∈ [(none, .first), (some .first, .second), (some .second, .third)]
  id_injective := by
    intro x y
    revert x y
    decide +kernel
  graded := by decide

instance : ∀ b x, Decidable (threeTiers.vouches b x) :=
  fun _ _ => inferInstanceAs (Decidable (_ ∈ _))

/-- The vouchers in the worst order, and a hello. -/
def tieredRound : List (WebAct Tier) :=
  [.vouch (some .second) .third, .vouch (some .first) .second, .vouch none .first,
    .other (.processHello (Registry.toyIdentity 9) (Registry.toyIdentity 9))]

/-- With a limit of one the second device is verified in the end, and the third is
    not. -/
theorem threeTiers_spread :
    let g := [tieredRound, tieredRound, tieredRound].flatten.foldl threeTiers.step
      (Registry.create toyPrimitives true .tofu 1 10)
    g.store.isVerified (threeTiers.id .second) = true ∧
      g.store.isVerified (threeTiers.id .third) = false := by
  intro g
  rcases trust_spreads threeTiers true .tofu 1 10 [tieredRound, tieredRound, tieredRound].flatten
    (by decide +kernel) with ⟨honly, hall⟩
  constructor
  · refine hall [tieredRound, tieredRound, tieredRound] rfl ?_ (by decide) .second ?_ (by decide)
    · intro r hr
      have hmem : r = tieredRound := by simpa using hr
      rw [hmem]
      unfold Web.IsRound
      decide
    · have hsecond : threeTiers.Link (some .second) (some .first) := ⟨.second, rfl, by decide⟩
      have hfirst : threeTiers.Link (some .first) none := ⟨.first, rfl, by decide⟩
      exact .head hsecond (.single hfirst)
  · cases hthird : g.store.isVerified (threeTiers.id .third) with
    | false => rfl
    | true => exact absurd (honly .third hthird).2.1 (by decide)

end Examples

end Ztlnp

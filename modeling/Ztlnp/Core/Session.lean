import Ztlnp.Core.Crypto
import Ztlnp.Lib.SeqWindow

/-!
# Sessions

The session record of `session.py`: key material, the outgoing sequence
counter, and the replay state for the incoming direction.

The four length checks of the constructor are fields of the record. The
replay check is a method that mutates the record or raises, and two lemmas
give its whole behaviour. When `Admits` holds it records the sequence number
in the window of `Lib.SeqWindow` at width 64, and otherwise it raises and
leaves the session alone. Every later fact about replay is read off those and
the window's own lemmas.

## Main definitions

* `Session`: Keys, counter and replay state.
* `Session.postInit`: The constructor and its checks.
* `Session.nextSequence`: Drawing an outgoing sequence number.
* `Session.checkReplay`: The replay check.
* `Session.window`: The replay state as a sliding window.
* `Session.Timely`: The timestamp test.
* `Session.Admits`: What the replay check accepts.
* `Session.recorded`: The session after an accepting check.

## Theorems

* `Session.postInit_eq_ok`: A constructed session.
* `Session.checkReplay_admits`: An accepting check records the number.
* `Session.checkReplay_refuses`: Any other check raises and changes nothing.
* `Session.checkReplay_eq_ok`, `Session.checkReplay_eq_error`: Its outcomes.
* `Session.recorded_window`: What an accepting check does to the window.
* `Session.recorded_fixed`: It touches nothing else.
-/

namespace Ztlnp

/-- `MAX_CLOCK_SKEW_MS`. -/
def maxClockSkewMs : Nat := 30000

/-- `_REPLAY_WINDOW`. -/
def replayWindow : Nat := 64

/-- Symmetric session state shared by two peers. -/
@[ext]
structure Session where
  peerId : Bytes
  peerEd25519Public : Bytes
  sessionKey : Bytes
  macKey : Bytes
  localSequence : Nat := 0
  peerMaxSeq : Nat := 0
  peerSeqWindow : Finset Nat := ∅
  peerId_length : peerId.length = 32
  peerEd25519Public_length : peerEd25519Public.length = 32
  sessionKey_length : sessionKey.length = 32
  macKey_length : macKey.length = 64

instance : DecidableEq Session := fun _ _ => decidable_of_iff' _ Session.ext_iff

namespace Session

/-- `Session.__post_init__`: a fresh session, once the lengths are checked. -/
def postInit (peerId peerEd25519Public sessionKey macKey : Bytes) : Except Exn Session :=
  if hp : peerId.length = 32 then
    if he : peerEd25519Public.length = 32 then
      if hs : sessionKey.length = 32 then
        if hm : macKey.length = 64 then
          .ok
            { peerId, peerEd25519Public, sessionKey, macKey
              peerId_length := hp
              peerEd25519Public_length := he
              sessionKey_length := hs
              macKey_length := hm }
        else .error ⟨.valueError, "mac_key must be 64 bytes"⟩
      else .error ⟨.valueError, "session_key must be 32 bytes"⟩
    else .error ⟨.valueError, "peer_ed25519_public must be 32 bytes"⟩
  else .error ⟨.valueError, "peer_id must be 32 bytes"⟩

/-- A constructed session holds its arguments and nothing has happened in it. -/
theorem postInit_eq_ok (peerId ed sk mk : Bytes) (s : Session)
    (h : postInit peerId ed sk mk = .ok s) :
    (s.peerId = peerId ∧ s.peerEd25519Public = ed ∧ s.sessionKey = sk ∧ s.macKey = mk) ∧
      s.localSequence = 0 ∧ s.peerMaxSeq = 0 ∧ s.peerSeqWindow = ∅ := by
  unfold postInit at h
  by_cases hp : peerId.length = 32
  · by_cases he : ed.length = 32
    · by_cases hs : sk.length = 32
      · by_cases hm : mk.length = 64
        · rw [dif_pos hp, dif_pos he, dif_pos hs, dif_pos hm, Except.ok.injEq] at h
          rw [← h]
          exact ⟨⟨rfl, rfl, rfl, rfl⟩, rfl, rfl, rfl⟩
        · simp only [dif_pos hp, dif_pos he, dif_pos hs, dif_neg hm, reduceCtorEq] at h
      · simp only [dif_pos hp, dif_pos he, dif_neg hs, reduceCtorEq] at h
    · simp only [dif_pos hp, dif_neg he, reduceCtorEq] at h
  · simp only [dif_neg hp, reduceCtorEq] at h

/-- `next_sequence`: the counter's value before it is advanced. -/
def nextSequence : EStateM Exn Session Nat := do
  let s ← get
  set { s with localSequence := s.localSequence + 1 }
  return s.localSequence

/-- `check_replay`. The checks come first; a session that raises has not been
    written to. -/
def checkReplay (nowMs sequence timestampMs : Nat) : EStateM Exn Session Unit := do
  let s ← get
  if ((nowMs : Int) - timestampMs).natAbs > maxClockSkewMs then
    throw ⟨.replayAttackError, "Packet timestamp " ++ toString timestampMs ++
      " ms is outside the " ++ toString maxClockSkewMs ++ " ms clock-skew window"⟩
  else if sequence ∈ s.peerSeqWindow then
    throw ⟨.replayAttackError, "Duplicate sequence number " ++ toString sequence ++
      " detected (replay attack)"⟩
  else if (sequence : Int) ≤ (s.peerMaxSeq : Int) - replayWindow then
    throw ⟨.replayAttackError, "Sequence number " ++ toString sequence ++
      " is too far below the current maximum (" ++ toString s.peerMaxSeq ++ ")"⟩
  else
    -- Record the sequence number and advance the window.
    let added := insert sequence s.peerSeqWindow
    if sequence > s.peerMaxSeq then
      set { s with
        peerMaxSeq := sequence
        peerSeqWindow := added.filter
          (fun k : Nat => (k : Int) > (sequence : Int) - replayWindow) }
    else
      set { s with peerSeqWindow := added }

/-- The replay state as a sliding window. -/
def window (s : Session) : SeqWindow := ⟨s.peerMaxSeq, s.peerSeqWindow⟩

/-- The timestamp test of the replay check. -/
def Timely (nowMs timestampMs : Nat) : Prop :=
  ((nowMs : Int) - timestampMs).natAbs ≤ maxClockSkewMs

instance (nowMs timestampMs : Nat) : Decidable (Timely nowMs timestampMs) :=
  inferInstanceAs (Decidable (_ ≤ _))

/-- What the replay check accepts. -/
def Admits (s : Session) (nowMs sequence timestampMs : Nat) : Prop :=
  Timely nowMs timestampMs ∧ s.window.Admits replayWindow sequence

instance (s : Session) (nowMs sequence timestampMs : Nat) :
    Decidable (s.Admits nowMs sequence timestampMs) :=
  inferInstanceAs (Decidable (_ ∧ _))

/-- The session after an accepting check. -/
def recorded (s : Session) (sequence : Nat) : Session :=
  { s with
    peerMaxSeq := (s.window.record replayWindow sequence).largest
    peerSeqWindow := (s.window.record replayWindow sequence).recent }

@[simp]
theorem recorded_window (s : Session) (sequence : Nat) :
    (s.recorded sequence).window = s.window.record replayWindow sequence := rfl

theorem recorded_peerMaxSeq (s : Session) (sequence : Nat) :
    (s.recorded sequence).peerMaxSeq = max sequence s.peerMaxSeq :=
  SeqWindow.largest_record replayWindow s.window sequence

/-- An accepting check touches only the replay state. -/
theorem recorded_fixed (s : Session) (sequence : Nat) :
    (s.recorded sequence).peerId = s.peerId ∧
    (s.recorded sequence).peerEd25519Public = s.peerEd25519Public ∧
    (s.recorded sequence).sessionKey = s.sessionKey ∧
    (s.recorded sequence).macKey = s.macKey ∧
    (s.recorded sequence).localSequence = s.localSequence :=
  ⟨rfl, rfl, rfl, rfl, rfl⟩

/-- A check that accepts returns and records the number. -/
theorem checkReplay_admits (s : Session) (nowMs sequence timestampMs : Nat)
    (h : s.Admits nowMs sequence timestampMs) :
    (checkReplay nowMs sequence timestampMs).run s = .ok () (s.recorded sequence) := by
  rcases h with ⟨htime, hdup, hlow⟩
  have htime' : ¬ ((nowMs : Int) - timestampMs).natAbs > maxClockSkewMs := not_lt.mpr htime
  simp only [window] at hdup
  simp only [window, SeqWindow.edge] at hlow
  simp only [checkReplay, EStateM.run_bind, EStateM.run_get, if_neg htime', if_neg hdup,
    if_neg hlow]
  -- The two ways of recording are those of the window.
  by_cases hgt : sequence > s.peerMaxSeq
  · have hrec : s.window.record replayWindow sequence = ⟨sequence, (insert sequence
        s.peerSeqWindow).filter (fun k : Nat => (k : Int) > (sequence : Int) - replayWindow)⟩ :=
      if_pos hgt
    rw [if_pos hgt, recorded, hrec]
    rfl
  · have hrec : s.window.record replayWindow sequence
        = ⟨s.peerMaxSeq, insert sequence s.peerSeqWindow⟩ := if_neg hgt
    rw [if_neg hgt, recorded, hrec]
    rfl

/-- A check that does not accept raises and changes nothing. -/
theorem checkReplay_refuses (s : Session) (nowMs sequence timestampMs : Nat)
    (h : ¬ s.Admits nowMs sequence timestampMs) :
    ∃ e, e.kind = .replayAttackError ∧
      (checkReplay nowMs sequence timestampMs).run s = .error e s := by
  simp only [checkReplay, EStateM.run_bind, EStateM.run_get]
  -- The three checks in the order of the source.
  by_cases htime : ((nowMs : Int) - timestampMs).natAbs > maxClockSkewMs
  · rw [if_pos htime]
    exact ⟨_, rfl, rfl⟩
  · rw [if_neg htime]
    by_cases hdup : sequence ∈ s.peerSeqWindow
    · rw [if_pos hdup]
      exact ⟨_, rfl, rfl⟩
    · rw [if_neg hdup]
      by_cases hlow : (sequence : Int) ≤ (s.peerMaxSeq : Int) - replayWindow
      · rw [if_pos hlow]
        exact ⟨_, rfl, rfl⟩
      · -- No check fired, so it was admitted after all.
        exact absurd ⟨not_lt.mp htime, hdup, hlow⟩ h

/-- A check that returns had accepted. -/
theorem checkReplay_eq_ok (s t : Session) (nowMs sequence timestampMs : Nat) (u : Unit) :
    (checkReplay nowMs sequence timestampMs).run s = .ok u t ↔
      s.Admits nowMs sequence timestampMs ∧ t = s.recorded sequence := by
  by_cases h : s.Admits nowMs sequence timestampMs
  · rw [checkReplay_admits s nowMs sequence timestampMs h, EStateM.Result.ok.injEq]
    exact ⟨fun hr => ⟨h, hr.2.symm⟩, fun hr => ⟨rfl, hr.2.symm⟩⟩
  · rcases checkReplay_refuses s nowMs sequence timestampMs h with ⟨e, _, he⟩
    rw [he]
    simp only [reduceCtorEq, h, false_and]

/-- A check that raises had refused, and left the session as it was. -/
theorem checkReplay_eq_error (s t : Session) (nowMs sequence timestampMs : Nat) (e : Exn)
    (h : (checkReplay nowMs sequence timestampMs).run s = .error e t) :
    ¬ s.Admits nowMs sequence timestampMs ∧ t = s := by
  by_cases ha : s.Admits nowMs sequence timestampMs
  · rw [checkReplay_admits s nowMs sequence timestampMs ha] at h
    simp only [reduceCtorEq] at h
  · rcases checkReplay_refuses s nowMs sequence timestampMs ha with ⟨e', _, he⟩
    rw [he, EStateM.Result.error.injEq] at h
    exact ⟨ha, h.2.symm⟩

end Session

end Ztlnp

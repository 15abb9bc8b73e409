import Ztlnp.Core.Session

/-!
# Replay Protection Within a Session

The replay check of a session, run after run, against the filter that
forgets nothing.

`replayRun` folds the check over any list of calls with any sequence
numbers, timestamps and clock readings, and collects the numbers that were
accepted. The session's window and that list are related by `Tracks` at
every point, which is one induction over the calls; the decisions, the
contents of the window and its size then follow from the library.

## Main definitions

* `ReplayCall`: The arguments of one check, with the clock it reads.
* `replayStep`, `replayRun`: Folding the check over a list of calls.

## Theorems

* `replayRun_tracks`: The window holds what the accepted numbers prescribe.
* `replayRun_nodup`: No number is accepted twice.
* `checkReplay_refines_history`: The check decides as the full history does.
-/

namespace Ztlnp

/-- One call of the replay check: its arguments and the clock it reads. -/
structure ReplayCall where
  nowMs : Nat
  sequence : Nat
  timestampMs : Nat
deriving DecidableEq

namespace ReplayCall

/-- The call, as a method run on a session. -/
def run (c : ReplayCall) (s : Session) : EStateM.Result Exn Session Unit :=
  (Session.checkReplay c.nowMs c.sequence c.timestampMs).run s

end ReplayCall

/-- One call, with the list of accepted numbers carried along. -/
def replayStep (st : Session × List Nat) (c : ReplayCall) : Session × List Nat :=
  match c.run st.1 with
  | .ok _ s => (s, st.2 ++ [c.sequence])
  | .error _ s => (s, st.2)

/-- A whole run: the session it ends in and the numbers it accepted. -/
def replayRun (s : Session) (calls : List ReplayCall) : Session × List Nat :=
  calls.foldl replayStep (s, [])

/-- What one call does: it accepts and records, or leaves everything. -/
theorem replayStep_cases (st : Session × List Nat) (c : ReplayCall) :
    (st.1.Admits c.nowMs c.sequence c.timestampMs ∧
      replayStep st c = (st.1.recorded c.sequence, st.2 ++ [c.sequence])) ∨
    (¬ st.1.Admits c.nowMs c.sequence c.timestampMs ∧ replayStep st c = st) := by
  by_cases h : st.1.Admits c.nowMs c.sequence c.timestampMs
  · left
    refine ⟨h, ?_⟩
    rw [replayStep, ReplayCall.run, Session.checkReplay_admits _ _ _ _ h]
  · right
    rcases Session.checkReplay_refuses _ _ _ _ h with ⟨e, _, he⟩
    refine ⟨h, ?_⟩
    rw [replayStep, ReplayCall.run, he]

/-- The window and the accepted numbers stay related along a run. -/
theorem foldl_replayStep_tracks (calls : List ReplayCall) (st : Session × List Nat)
    (h : Tracks replayWindow st.1.window st.2.toFinset) :
    Tracks replayWindow (calls.foldl replayStep st).1.window
      (calls.foldl replayStep st).2.toFinset := by
  -- The induction is over the calls, with the history as it stands before each.
  induction calls generalizing st with
  | nil => exact h
  | cons c rest ih =>
      rw [List.foldl_cons]
      refine ih _ ?_
      rcases replayStep_cases st c with ⟨ha, hstep⟩ | ⟨_, hstep⟩
      · rw [hstep, Session.recorded_window, List.toFinset_append, List.toFinset_cons,
          List.toFinset_nil, insert_empty_eq, Finset.union_comm, ← Finset.insert_eq]
        exact tracks_record h c.sequence ha.2
      · rw [hstep]
        exact h

theorem foldl_replayStep_nodup (calls : List ReplayCall) (st : Session × List Nat)
    (h : Tracks replayWindow st.1.window st.2.toFinset) (hn : st.2.Nodup) :
    (calls.foldl replayStep st).2.Nodup := by
  induction calls generalizing st with
  | nil => exact hn
  | cons c rest ih =>
      rw [List.foldl_cons]
      -- One call is a run of its own, so the relation also holds after it.
      have hnext := foldl_replayStep_tracks [c] st h
      rw [List.foldl_cons, List.foldl_nil] at hnext
      refine ih _ hnext ?_
      rcases replayStep_cases st c with ⟨ha, hstep⟩ | ⟨_, hstep⟩
      · -- The window admits only what the history does not hold.
        have hfresh := ((admits_iff_fresh h c.sequence).mp ha.2).1
        rw [List.mem_toFinset] at hfresh
        rw [hstep]
        refine List.nodup_append.mpr ⟨hn, List.nodup_singleton _, ?_⟩
        intro a hmem b hb hab
        rw [List.mem_singleton] at hb
        exact hfresh (hb ▸ hab ▸ hmem)
      · rw [hstep]
        exact hn

theorem replayRun_tracks (s : Session) (hmax : s.peerMaxSeq = 0) (hwin : s.peerSeqWindow = ∅)
    (calls : List ReplayCall) :
    Tracks replayWindow (replayRun s calls).1.window (replayRun s calls).2.toFinset := by
  refine foldl_replayStep_tracks calls (s, []) ?_
  have hw : s.window = ⟨0, ∅⟩ := by rw [Session.window, hmax, hwin]
  rw [hw]
  exact tracks_empty replayWindow

theorem replayRun_nodup (s : Session) (hmax : s.peerMaxSeq = 0) (hwin : s.peerSeqWindow = ∅)
    (calls : List ReplayCall) : (replayRun s calls).2.Nodup :=
  foldl_replayStep_nodup calls (s, []) (replayRun_tracks s hmax hwin []) List.nodup_nil

/-- The bounded window decides exactly as the full history does. From a fresh
    session, after any calls: the next call accepts exactly when its timestamp
    is within 30000 ms of the clock, its number was never accepted before, and
    the number is above the largest accepted one less 64. No number is
    accepted twice, the window holds the accepted numbers of the last 64, and
    a refusal changes nothing. -/
theorem checkReplay_refines_history (s : Session) (hmax : s.peerMaxSeq = 0)
    (hwin : s.peerSeqWindow = ∅) (calls : List ReplayCall) :
    let reached := (replayRun s calls).1
    let accepted := (replayRun s calls).2
    let largest := top accepted.toFinset
    (∀ c : ReplayCall,
      ((∃ t, c.run reached = .ok () t) ↔
        ((c.nowMs : Int) - c.timestampMs).natAbs ≤ 30000 ∧ c.sequence ∉ accepted ∧
          (c.sequence : Int) > (largest : Int) - 64) ∧
      (∀ e t, c.run reached = .error e t → t = reached)) ∧
    accepted.Nodup ∧
    reached.peerMaxSeq = largest ∧
    reached.peerSeqWindow = accepted.toFinset.filter
      (fun n : Nat => (largest : Int) - 64 < n ∧ n ≤ largest) ∧
    reached.peerSeqWindow.card ≤ 64 := by
  intro reached accepted largest
  have htr : Tracks replayWindow reached.window accepted.toFinset :=
    replayRun_tracks s hmax hwin calls
  refine ⟨fun c => ⟨?_, ?_⟩, replayRun_nodup s hmax hwin calls, htr.largest_eq, ?_, htr.card_le⟩
  · have hfresh := admits_iff_fresh htr c.sequence
    unfold Fresh at hfresh
    rw [List.mem_toFinset] at hfresh
    constructor
    · rintro ⟨t, ht⟩
      have hok := ((Session.checkReplay_eq_ok _ _ _ _ _ _).mp ht).1
      exact ⟨hok.1, hfresh.mp hok.2⟩
    · rintro ⟨htime, hseq⟩
      exact ⟨_, Session.checkReplay_admits _ _ _ _ ⟨htime, hfresh.mpr hseq⟩⟩
  · intro e t ht
    exact (Session.checkReplay_eq_error _ _ _ _ _ _ ht).2
  · -- The source also drops what is above the largest number, but nothing is.
    have hrecent : reached.peerSeqWindow = _ := htr.recent_eq
    rw [hrecent]
    refine Finset.filter_congr (fun n hn => ?_)
    exact ⟨fun h => ⟨h, le_top hn⟩, fun h => h.1⟩

/-- A session as the constructor leaves it. -/
def freshSession : Session where
  peerId := List.replicate 32 1
  peerEd25519Public := List.replicate 32 2
  sessionKey := List.replicate 32 3
  macKey := List.replicate 64 4
  peerId_length := by decide
  peerEd25519Public_length := by decide
  sessionKey_length := by decide
  macKey_length := by decide

/-- After accepting 0, 100 and 70, a fresh session refuses 100 and 36 and
    admits 37. -/
theorem checkReplay_refines_history_at_hundred :
    let calls := [⟨0, 0, 0⟩, ⟨5, 100, 5⟩, ⟨9, 70, 5⟩]
    let reached := (replayRun freshSession calls).1
    reached.peerMaxSeq = 100 ∧ (replayRun freshSession calls).2 = [0, 100, 70] ∧
      (∃ t, (⟨9, 37, 5⟩ : ReplayCall).run reached = .ok () t) ∧
      ¬ (∃ t, (⟨9, 36, 5⟩ : ReplayCall).run reached = .ok () t) ∧
      ¬ (∃ t, (⟨9, 100, 5⟩ : ReplayCall).run reached = .ok () t) := by
  intro calls reached
  have hacc : (replayRun freshSession calls).2 = [0, 100, 70] := by decide +kernel
  have htop : top [0, 100, 70].toFinset = 100 := by decide +kernel
  rcases checkReplay_refines_history freshSession rfl rfl calls with ⟨hdec, _, hmax, _, _⟩
  rw [hacc, htop] at hmax
  rw [hacc, htop] at hdec
  refine ⟨hmax, hacc, (hdec _).1.mpr (by decide), fun h => ?_, fun h => ?_⟩
  · exact absurd ((hdec _).1.mp h) (by decide)
  · exact absurd ((hdec _).1.mp h) (by decide)

end Ztlnp

import Ztlnp.Theory.Bench

/-!
# The Base of the Send Window

The base is meant to be the lowest number that is not acknowledged.

Of the three methods that change the window, `send` sets the base when its
packet is the only one, and `process_sack` sets it to the least of the numbers
that are left. `get_retransmissions` removes what is out of attempts and leaves
the base where it is. If that was the packet at the base and others remain, the
base points to a packet that has been given up, until the next frame arrives.

The base does not go down in any run. It lies below everything in the window,
and numbers are handed out in ascending order.

## Main definitions

* `Channel.Based`: The base is the least number in the window.
* `Channel.Floored`: No number in the window lies below the base.
* `Bench.KeepsBase`: A poll does not give up the packet at the base and keep
  another one.

## Theorems

* `mem_processSack`, `mem_enqueued`: The numbers in the window afterwards.
* `processSack_based`: An acknowledgement puts the base right.
* `enqueued_sendBase`: The base after a send.
* `stepped_based_iff`: When an act leaves the base right.
* `stepped_rises`: No act lowers the base.
* `send_base_least_iff`: When a run keeps the base right.
-/

namespace Ztlnp

variable {C : Primitives}

namespace Channel

/-- The base of a window that holds something is the least number in it. -/
def Based (c : Channel) : Prop :=
  c.sendWindow.keys ≠ [] →
    c.sendBase ∈ c.sendWindow.keys ∧ ∀ n ∈ c.sendWindow.keys, c.sendBase ≤ n

instance (c : Channel) : Decidable c.Based := inferInstanceAs (Decidable (_ → _ ∧ ∀ n ∈ _, _))

/-- No number in the window lies below the base. -/
def Floored (c : Channel) : Prop := ∀ n ∈ c.sendWindow.keys, c.sendBase ≤ n

/-- A frame leaves the numbers that it does not acknowledge. -/
theorem mem_processSack (c : Channel) (sack : SackFrame) (n : Nat) :
    n ∈ (c.processSack sack).1.sendWindow.keys ↔
      n ∈ c.sendWindow.keys ∧ n ∉ sack.allAcked := by
  rw [Dict.mem_keys, Dict.mem_keys, processSack_get?]
  by_cases hn : n ∈ sack.allAcked
  · simp only [hn, if_true, reduceCtorEq, exists_false, not_true_eq_false, and_false]
  · simp only [hn, if_false, not_false_eq_true, and_true]

/-- The base after a frame is the least number that is left, whatever it was
    before. -/
theorem processSack_based (c : Channel) (sack : SackFrame) : (c.processSack sack).1.Based := by
  intro hne
  have hbase : (c.processSack sack).1.sendBase
      = (c.processSack sack).1.sendWindow.keys.min?.getD c.sendBase := rfl
  cases hmin : (c.processSack sack).1.sendWindow.keys.min? with
  | none => exact absurd (List.min?_eq_none_iff.mp hmin) hne
  | some m =>
      rw [hbase, hmin, Option.getD_some]
      exact List.min?_eq_some_iff.mp hmin

/-- A frame that empties the window leaves the base alone. -/
theorem processSack_emptied (c : Channel) (sack : SackFrame)
    (h : (c.processSack sack).1.sendWindow.keys = []) :
    (c.processSack sack).1.sendBase = c.sendBase := by
  have hbase : (c.processSack sack).1.sendBase
      = (c.processSack sack).1.sendWindow.keys.min?.getD c.sendBase := rfl
  rw [hbase, h]
  rfl

/-- A packet that is sent is in the window, with those that were there. -/
theorem mem_enqueued (c : Channel) (n : Nat) (wire : Bytes) (now : Rat) (k : Nat) :
    k ∈ (c.enqueued n wire now).sendWindow.keys ↔ k = n ∨ k ∈ c.sendWindow.keys := by
  rw [enqueued]
  simp only [Dict.mem_keys, Dict.get?_set]
  by_cases hk : k = n
  · simp only [hk, if_true, Option.some.injEq, exists_eq', true_or]
  · simp only [hk, if_false, false_or]

/-- A packet under a new number becomes the base of an empty window. -/
theorem enqueued_sendBase (c : Channel) (n : Nat) (wire : Bytes) (now : Rat)
    (hnew : c.sendWindow.get? n = none) :
    (c.enqueued n wire now).sendBase = if c.sendWindow.keys = [] then n else c.sendBase := by
  have hbase : (c.enqueued n wire now).sendBase
      = if (c.enqueued n wire now).sendWindow.size = 1 then n else c.sendBase := rfl
  have hsize : (c.enqueued n wire now).sendWindow.size = c.sendWindow.size + 1 :=
    Dict.size_set_new _ _ _ hnew
  rw [hbase, hsize]
  simp only [Dict.keys_eq_nil, Nat.add_eq_right]

end Channel

namespace Bench

/-- A poll that gives up the packet at the base gives up all packets. -/
def KeepsBase (b : Bench C) : BenchAct → Prop
  | .poll due sent =>
    b.sliding.sendBase ∈ (b.sliding.timer due sent).lost b.sliding.sendWindow →
      ∀ n ∈ b.sliding.sendWindow.keys,
        n ∈ (b.sliding.timer due sent).lost b.sliding.sendWindow
  | _ => True

instance (b : Bench C) (a : BenchAct) : Decidable (b.KeepsBase a) :=
  match a with
  | .poll _ _ => inferInstanceAs (Decidable (_ → ∀ n ∈ _, _))
  | .build _ _ => .isTrue trivial
  | .maybeSend _ _ _ => .isTrue trivial
  | .send _ _ _ => .isTrue trivial
  | .sendReliable _ _ _ => .isTrue trivial
  | .processSack _ => .isTrue trivial
  | .processAck _ => .isTrue trivial
  | .pollReliable _ _ => .isTrue trivial

/-- The channel after a poll. -/
def polled (b : Bench C) (due sent : Nat → Rat) : Channel :=
  { b.sliding with sendWindow := (b.sliding.timer due sent).swept b.sliding.sendWindow }

/-- A poll leaves the numbers that it does not give up. -/
theorem mem_polled (b : Bench C) (due sent : Nat → Rat) (n : Nat) :
    n ∈ (b.polled due sent).sendWindow.keys ↔ n ∈ b.sliding.sendWindow.keys ∧
      n ∉ (b.sliding.timer due sent).lost b.sliding.sendWindow := by
  rw [polled]
  simp only [Dict.mem_keys, Timer.get?_swept]
  by_cases hn : n ∈ (b.sliding.timer due sent).lost b.sliding.sendWindow
  · simp only [hn, if_true, reduceCtorEq, exists_false, not_true_eq_false, and_false]
  · simp only [hn, if_false, Option.map_eq_some_iff, not_false_eq_true, and_true]
    constructor
    · rintro ⟨_, w, hw, _⟩
      exact ⟨w, hw⟩
    · rintro ⟨w, hw⟩
      exact ⟨_, w, hw, rfl⟩

/-- The base stays, so it is right if its packet does, or if none does. -/
theorem polled_based_iff (b : Bench C) (due sent : Nat → Rat) (h : b.sliding.Based) :
    (b.polled due sent).Based ↔ b.KeepsBase (.poll due sent) := by
  constructor
  · intro hbased hlost n hn
    by_contra hkept
    have hleft := (b.mem_polled due sent n).mpr ⟨hn, hkept⟩
    exact ((b.mem_polled due sent _).mp (hbased (List.ne_nil_of_mem hleft)).1).2 hlost
  · intro hkeeps hne
    rcases List.exists_mem_of_ne_nil _ hne with ⟨n, hn⟩
    rcases (b.mem_polled due sent n).mp hn with ⟨hold, hkept⟩
    rcases h (List.ne_nil_of_mem hold) with ⟨hmem, hleast⟩
    refine ⟨(b.mem_polled due sent _).mpr ⟨hmem, fun hlost => hkept (hkeeps hlost n hold)⟩, ?_⟩
    intro k hk
    exact hleast k ((b.mem_polled due sent k).mp hk).1

/-- A packet under the next number goes to the end of the window. -/
theorem enqueued_based (b : Bench C) (wire : Bytes) (now : Rat) (hs : b.Sound)
    (h : b.sliding.Based) : (b.sliding.enqueued b.next wire now).Based := by
  intro _
  rw [b.sliding.enqueued_sendBase b.next wire now hs.unused.1]
  by_cases hempty : b.sliding.sendWindow.keys = []
  · rw [if_pos hempty]
    refine ⟨(Channel.mem_enqueued _ _ _ _ _).mpr (Or.inl rfl), fun k hk => ?_⟩
    rcases (Channel.mem_enqueued _ _ _ _ _).mp hk with rfl | hk
    · exact Nat.le_refl _
    · rw [hempty] at hk
      exact absurd hk List.not_mem_nil
  · rw [if_neg hempty]
    rcases h hempty with ⟨hmem, hleast⟩
    refine ⟨(Channel.mem_enqueued _ _ _ _ _).mpr (Or.inr hmem), fun k hk => ?_⟩
    rcases (Channel.mem_enqueued _ _ _ _ _).mp hk with rfl | hk
    · exact Nat.le_of_lt (hs.below_next _ hmem)
    · exact hleast k hk

/-- When an act leaves the base right. -/
theorem stepped_based_iff (b b' : Bench C) (a : BenchAct) (hs : b.Sound) (h : b.sliding.Based)
    (hstep : b.Stepped a b') : b'.sliding.Based ↔ b.KeepsBase a := by
  cases hstep with
  | sent env now plaintext e wire hroom hbuilds hemit =>
      have hnumber := ((emission_numbers b e [wire] hemit).2 wire (List.mem_singleton_self _)).2.1
      simp only [hnumber]
      exact iff_of_true (b.enqueued_based wire now hs h) trivial
  | processed sack => exact iff_of_true (b.sliding.processSack_based sack) trivial
  | returned due sent hlost => exact b.polled_based_iff due sent h
  | raised due sent hlost => exact b.polled_based_iff due sent h
  | _ => exact iff_of_true h trivial

/-- The window lies between its base and the next number. -/
structure Between (b : Bench C) : Prop where
  sound : b.Sound
  floored : b.sliding.Floored
  next : b.sliding.sendBase ≤ b.next

/-- No act lowers the base. -/
theorem stepped_rises (b b' : Bench C) (a : BenchAct) (h : b.Between) (hstep : b.Stepped a b') :
    b'.sliding.Floored ∧ b'.sliding.sendBase ≤ b'.next ∧
      b.sliding.sendBase ≤ b'.sliding.sendBase := by
  cases hstep with
  | built env n e wires hemit =>
      have hnext := (emission_numbers b e wires hemit).1
      exact ⟨h.floored, h.next.trans hnext, Nat.le_refl _⟩
  | covered env nowMs urandom e cover wires hemit =>
      have hnext := (emission_numbers b e wires hemit).1
      exact ⟨h.floored, h.next.trans hnext, Nat.le_refl _⟩
  | held env now plaintext e hheld hemit =>
      have hnext := (emission_numbers b e [] hemit).1
      exact ⟨h.floored, h.next.trans hnext, Nat.le_refl _⟩
  | heldReliable env now plaintext e hemit =>
      have hnext := (emission_numbers b e [] hemit).1
      exact ⟨h.floored, h.next.trans hnext, Nat.le_refl _⟩
  | sentReliable env now plaintext e wire hemit =>
      have hnext := (emission_numbers b e [wire] hemit).1
      exact ⟨h.floored, h.next.trans hnext, Nat.le_refl _⟩
  | sent env now plaintext e wire hroom hbuilds hemit =>
      rcases emission_numbers b e [wire] hemit with ⟨hnext, hwire⟩
      have hnumber := (hwire wire (List.mem_singleton_self _)).2.1
      have hbase := b.sliding.enqueued_sendBase b.next wire now h.sound.unused.1
      have hle := h.next
      simp only [hnumber]
      -- The base moves to the new number or stays, and is below it in both cases.
      have hbounds : b.sliding.sendBase ≤ (b.sliding.enqueued b.next wire now).sendBase ∧
          (b.sliding.enqueued b.next wire now).sendBase ≤ b.next := by
        rw [hbase]
        split <;> omega
      refine ⟨fun k hk => ?_, hbounds.2.trans hnext, hbounds.1⟩
      rcases (Channel.mem_enqueued _ _ _ _ _).mp hk with rfl | hk
      · exact hbounds.2
      · rw [hbase, if_neg (List.ne_nil_of_mem hk)]
        exact h.floored k hk
  | processed sack =>
      have hbased := b.sliding.processSack_based sack
      have hnext : (b.step (.processSack sack)).next = b.next := rfl
      rw [hnext]
      by_cases hempty : (b.sliding.processSack sack).1.sendWindow.keys = []
      · have hbase := b.sliding.processSack_emptied sack hempty
        refine ⟨fun k hk => ?_, hbase.le.trans h.next, hbase.ge⟩
        have hnone : k ∈ (b.sliding.processSack sack).1.sendWindow.keys := hk
        rw [hempty] at hnone
        exact absurd hnone List.not_mem_nil
      · rcases hbased hempty with ⟨hmem, hleast⟩
        have hold := ((b.sliding.mem_processSack sack _).mp hmem).1
        exact ⟨hleast, Nat.le_of_lt (h.sound.below_next _ hold), h.floored _ hold⟩
  | returned due sent hlost =>
      exact ⟨fun k hk => h.floored k ((b.mem_polled due sent k).mp hk).1, h.next, Nat.le_refl _⟩
  | raised due sent hlost =>
      exact ⟨fun k hk => h.floored k ((b.mem_polled due sent k).mp hk).1, h.next, Nat.le_refl _⟩
  | _ => exact ⟨h.floored, h.next, Nat.le_refl _⟩

end Bench

/-- In every run on a session, the base of the send window never goes down; and
    in every state of the run it is the least number in the window, if there is
    one, exactly when no poll of the run gives up the packet at the base and
    keeps another one. -/
theorem send_base_least_iff (e : Endpoint C) (c : Channel) (r : ReliableChannel)
    (cover : CoverTraffic) (hc : c.sendWindow = .empty) (hbase : c.sendBase = 0)
    (hr : r.pending = .empty) (acts : List BenchAct) :
    (Along Bench.step Bench.KeepsBase (Bench.opened e c r cover) acts ↔
      ∀ k, ((acts.take k).foldl Bench.step (Bench.opened e c r cover)).sliding.Based) ∧
    ∀ j k, j ≤ k →
      ((acts.take j).foldl Bench.step (Bench.opened e c r cover)).sliding.sendBase ≤
        ((acts.take k).foldl Bench.step (Bench.opened e c r cover)).sliding.sendBase := by
  have hsound := Bench.opened_sound e c r cover hc hr
  have hnone : (Bench.opened e c r cover).sliding.sendWindow.keys = [] := by
    simp only [Bench.opened, hc]
    -- The condition is the statement about the base in every state, by one step lemma.
    rfl
  constructor
  · exact along_iff_forall_take Bench.Sound (fun b => b.sliding.Based) Bench.step_sound
      (fun b a hs h => Bench.stepped_based_iff b _ a hs h (Bench.step_stepped b a)) _ acts hsound
      (fun hne => absurd hnone hne)
  · -- The base stays between what it was and the next number.
    have h0 : (Bench.opened e c r cover).Between := by
      refine ⟨hsound, fun n hn => ?_, hbase.le.trans (Nat.zero_le _)⟩
      rw [hnone] at hn
      exact absurd hn List.not_mem_nil
    refine take_related Bench.Between (fun b b' => b.sliding.sendBase ≤ b'.sliding.sendBase)
      (fun _ => Nat.le_refl _) (fun _ _ _ => Nat.le_trans) (fun b a h => ?_) _ acts h0
    rcases Bench.stepped_rises b _ a h (Bench.step_stepped b a) with ⟨hfloored, hnext, hle⟩
    exact ⟨⟨Bench.step_sound b a h.sound, hfloored, hnext⟩, hle⟩

/-- The only packet in the window is given up, and two more are sent. -/
@[irreducible]
def aloneGivenUp : List BenchAct :=
  [.send toyEnv 0 [1], .poll (fun _ => 1) (fun _ => 1), .poll (fun _ => 4) (fun _ => 4),
    .send toyEnv 4 [2], .send toyEnv 4 [3]]

/-- The base has moved to the first of them. -/
theorem aloneGivenUp_based :
    let b := (aloneGivenUp.take 5).foldl Bench.step (toyBench { maxRetries := 1 } {})
    (b.sliding.sendWindow.keys = [2, 3] ∧ b.sliding.sendBase = 2) ∧ b.sliding.Based := by
  have hrun : let b := (aloneGivenUp.take 5).foldl Bench.step (toyBench { maxRetries := 1 } {})
      (b.sliding.sendWindow.keys = [2, 3] ∧ b.sliding.sendBase = 2) ∧
        Along Bench.step Bench.KeepsBase (toyBench { maxRetries := 1 } {}) aloneGivenUp := by
    decide +kernel
  exact ⟨hrun.1, (send_base_least_iff _ { maxRetries := 1 } {} _ rfl rfl rfl aloneGivenUp).1.mp
    hrun.2 5⟩

/-- The first packet is given up while the second has an attempt left. -/
@[irreducible]
def firstGivenUp : List BenchAct :=
  [.send toyEnv 0 [1], .poll (fun _ => 1) (fun _ => 1), .send toyEnv 1 [2],
    .poll (fun _ => 3 / 2) (fun _ => 3 / 2)]

/-- The base is the number of the packet that was given up. -/
theorem base_given_up :
    let b := firstGivenUp.foldl Bench.step (toyBench { maxRetries := 1 } {})
    b.sliding.sendWindow.keys = [2] ∧ b.sliding.sendBase = 1 ∧ ¬ b.sliding.Based := by
  decide +kernel

end Ztlnp

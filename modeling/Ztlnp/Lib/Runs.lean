import Mathlib.Data.List.Induction
import Mathlib.Logic.Basic

/-!
# Runs

Runs of a state machine over a list of inputs, and the rules that carry a
fact about one step to a whole run.

A machine is a step function; a run is the fold of it. `Along` says that a
condition on the state before a step and on the input of that step is met at
every step of a run, which is how an assumption about the environment is
stated. Both rules, the one for invariants and the one for relations between
two points of a run, ask only for steps that meet the condition.

What a state still owes to one input of the past is said the other way round.
`Since` looks back along a run to an input of one kind with only inputs of
another kind behind it, and `since_concat` says what one more input does to
that.

## Main definitions

* `Along`: A condition is met at every step of a run.
* `Since`: An input of one kind, and since then only inputs of another.

## Theorems

* `along_true`: The trivial condition is met by every run.
* `along_append`: A run that meets a condition splits anywhere.
* `along_of_forall`: A condition on the inputs alone.
* `forall_of_along`: What a condition says of the inputs.
* `along_and`: Two conditions at once.
* `along_mono_of`, `along_mono`: A stronger condition implies a weaker one.
* `along_congr`: Equivalent conditions are met by the same runs.
* `along_invariant`: What every permitted step keeps holds after the run.
* `along_related`: What every permitted step relates, the run relates.
* `along_take`: A run that meets a condition meets it up to any point.
* `along_take_related`, `take_related`: The same for two states of one run.
* `along_iff_forall_take_of`: A condition that every permitted step needs to
  keep an invariant is met exactly when the invariant holds throughout.
* `along_iff_forall_take`: The same for any steps.
* `since_concat`: Looking back from one input later.
-/

namespace Ztlnp

variable {σ α : Type}

/-- The condition is met at every step of the run. -/
def Along (step : σ → α → σ) (P : σ → α → Prop) : σ → List α → Prop
  | _, [] => True
  | s, a :: as => P s a ∧ Along step P (step s a) as

instance decidableAlong (step : σ → α → σ) (P : σ → α → Prop) [∀ s a, Decidable (P s a)] :
    ∀ (s : σ) (as : List α), Decidable (Along step P s as)
  | _, [] => .isTrue trivial
  | s, a :: as =>
    have := decidableAlong step P (step s a) as
    inferInstanceAs (Decidable (P s a ∧ Along step P (step s a) as))

variable {step : σ → α → σ} {P : σ → α → Prop}

theorem along_true (s : σ) (as : List α) : Along step (fun _ _ => True) s as := by
  induction as generalizing s with
  | nil => trivial
  | cons a as ih => exact ⟨trivial, ih (step s a)⟩

/-- A run that meets a condition splits anywhere. -/
theorem along_append (s : σ) (as bs : List α) :
    Along step P s (as ++ bs) ↔ Along step P s as ∧ Along step P (as.foldl step s) bs := by
  induction as generalizing s with
  | nil => exact ⟨fun h => ⟨trivial, h⟩, fun h => h.2⟩
  | cons a as ih =>
      simp only [List.cons_append, Along, List.foldl_cons]
      -- The condition of the first step moves to the front.
      rw [ih, and_assoc]

/-- A stronger condition implies a weaker one along the run. Only the states
    of an invariant have to be compared. -/
theorem along_mono_of {Q : σ → α → Prop} (I : σ → Prop)
    (hstep : ∀ s a, I s → P s a → I (step s a)) (hPQ : ∀ s a, I s → P s a → Q s a) (s : σ)
    (as : List α) (h0 : I s) (hrun : Along step P s as) : Along step Q s as := by
  induction as generalizing s with
  | nil => trivial
  | cons a as ih =>
      exact ⟨hPQ s a h0 hrun.1, ih (step s a) (hstep s a h0 hrun.1) hrun.2⟩

theorem along_mono {Q : σ → α → Prop} (hPQ : ∀ s a, P s a → Q s a) (s : σ) (as : List α)
    (hrun : Along step P s as) : Along step Q s as :=
  along_mono_of (fun _ => True) (fun _ _ _ _ => trivial) (fun s a _ => hPQ s a) s as trivial hrun

/-- Conditions that agree on every step are met by the same runs. -/
theorem along_congr {Q : σ → α → Prop} (hPQ : ∀ s a, P s a ↔ Q s a) (s : σ) (as : List α) :
    Along step P s as ↔ Along step Q s as := by
  constructor
  · intro h
    exact along_mono (fun s a => (hPQ s a).mp) s as h
  · intro h
    exact along_mono (fun s a => (hPQ s a).mpr) s as h

/-- A condition on the inputs alone is met if every input meets it. -/
theorem along_of_forall {Q : α → Prop} (s : σ) (as : List α) (h : ∀ a ∈ as, Q a) :
    Along step (fun _ a => Q a) s as := by
  induction as generalizing s with
  | nil => trivial
  | cons a as ih =>
      exact ⟨h a List.mem_cons_self, ih (step s a) (fun b hb => h b (List.mem_cons_of_mem _ hb))⟩

/-- What the condition says of every input alone. -/
theorem forall_of_along {Q : α → Prop} (hPQ : ∀ s a, P s a → Q a) (s : σ) (as : List α)
    (hrun : Along step P s as) : ∀ a ∈ as, Q a := by
  induction as generalizing s with
  | nil => exact fun a ha => absurd ha List.not_mem_nil
  | cons b as ih =>
      intro a ha
      rcases List.mem_cons.mp ha with heq | hrest
      · rw [heq]
        exact hPQ s b hrun.1
      · exact ih (step s b) hrun.2 a hrest

/-- Two conditions that are met along a run are met together. -/
theorem along_and {Q : σ → α → Prop} (s : σ) (as : List α) (hP : Along step P s as)
    (hQ : Along step Q s as) : Along step (fun s a => P s a ∧ Q s a) s as := by
  induction as generalizing s with
  | nil => trivial
  | cons a as ih => exact ⟨⟨hP.1, hQ.1⟩, ih (step s a) hP.2 hQ.2⟩

/-- An invariant of the permitted steps holds after the run. -/
theorem along_invariant (I : σ → Prop) (hstep : ∀ s a, I s → P s a → I (step s a))
    (s : σ) (as : List α) (h0 : I s) (hrun : Along step P s as) : I (as.foldl step s) := by
  induction as generalizing s with
  | nil => exact h0
  | cons a as ih => exact ih (step s a) (hstep s a h0 hrun.1) hrun.2

/-- A reflexive and transitive relation that the permitted steps stay in
    relates the two ends of the run. -/
theorem along_related (I : σ → Prop) (R : σ → σ → Prop) (hrefl : ∀ s, R s s)
    (htrans : ∀ s t u, R s t → R t u → R s u)
    (hstep : ∀ s a, I s → P s a → I (step s a) ∧ R s (step s a))
    (s : σ) (as : List α) (h0 : I s) (hrun : Along step P s as) : R s (as.foldl step s) := by
  induction as generalizing s with
  | nil => exact hrefl s
  | cons a as ih =>
      rcases hstep s a h0 hrun.1 with ⟨hI, hR⟩
      exact htrans _ _ _ hR (ih (step s a) hI hrun.2)

/-- A run that meets a condition meets it up to any point. -/
theorem along_take (s : σ) (as : List α) (k : Nat) (hrun : Along step P s as) :
    Along step P s (as.take k) := by
  rw [← List.take_append_drop k as, along_append] at hrun
  exact hrun.1

/-- A reflexive and transitive relation that the permitted steps stay in
    relates an earlier state of the run to a later one. -/
theorem along_take_related (I : σ → Prop) (R : σ → σ → Prop) (hrefl : ∀ s, R s s)
    (htrans : ∀ s t u, R s t → R t u → R s u)
    (hstep : ∀ s a, I s → P s a → I (step s a) ∧ R s (step s a)) (s : σ) (as : List α) (h0 : I s)
    (hrun : Along step P s as) (j k : Nat) (hjk : j ≤ k) :
    R ((as.take j).foldl step s) ((as.take k).foldl step s) := by
  have hsplit : as.take k = as.take j ++ (as.drop j).take (k - j) := by
    rw [← List.take_add, Nat.add_sub_cancel' hjk]
  have hparts := along_take s as k hrun
  rw [hsplit, along_append] at hparts
  have hI : I ((as.take j).foldl step s) :=
    along_invariant I (fun s a h hP => (hstep s a h hP).1) s _ h0 hparts.1
  rw [hsplit, List.foldl_append]
  exact along_related I R hrefl htrans hstep _ _ hI hparts.2

/-- The same for runs of any steps. -/
theorem take_related (I : σ → Prop) (R : σ → σ → Prop) (hrefl : ∀ s, R s s)
    (htrans : ∀ s t u, R s t → R t u → R s u)
    (hstep : ∀ s a, I s → I (step s a) ∧ R s (step s a)) (s : σ) (as : List α) (h0 : I s)
    (j k : Nat) (hjk : j ≤ k) : R ((as.take j).foldl step s) ((as.take k).foldl step s) :=
  along_take_related I R hrefl htrans (fun s a h _ => hstep s a h) s as h0 (along_true s as) j k hjk

/-- If a permitted step keeps a property exactly when it meets the condition,
    then a run of such steps meets the condition exactly when the property holds
    in every state of it. What the permitted steps keep may be used. -/
theorem along_iff_forall_take_of {Q : σ → α → Prop} (J I : σ → Prop)
    (hJ : ∀ s a, J s → Q s a → J (step s a))
    (hstep : ∀ s a, J s → Q s a → I s → (I (step s a) ↔ P s a)) (s : σ) (as : List α)
    (hrun : Along step Q s as) (hs : J s) (h0 : I s) :
    Along step P s as ↔ ∀ k, I ((as.take k).foldl step s) := by
  induction as generalizing s with
  | nil => simp only [Along, List.take_nil, List.foldl_nil, h0, implies_true]
  | cons a as ih =>
      have hs' := hJ s a hs hrun.1
      constructor
      · intro h k
        cases k with
        | zero => exact h0
        | succ k =>
            exact (ih (step s a) hrun.2 hs' ((hstep s a hs hrun.1 h0).mpr h.1)).mp h.2 k
      · intro h
        have hnext : I (step s a) := h 1
        exact ⟨(hstep s a hs hrun.1 h0).mp hnext, (ih (step s a) hrun.2 hs' hnext).mpr
          (fun k => h (k + 1))⟩

/-- The same for runs of any steps. -/
theorem along_iff_forall_take (J I : σ → Prop) (hJ : ∀ s a, J s → J (step s a))
    (hstep : ∀ s a, J s → I s → (I (step s a) ↔ P s a)) (s : σ) (as : List α) (hs : J s)
    (h0 : I s) : Along step P s as ↔ ∀ k, I ((as.take k).foldl step s) :=
  along_iff_forall_take_of J I (fun s a h _ => hJ s a h) (fun s a h _ hI => hstep s a h hI) s as
    (along_true s as) hs h0

/-- Some input meets `P`, and all that came after it meet `Q`. -/
def Since (P Q : α → Prop) (as : List α) : Prop :=
  ∃ before a after, as = before ++ a :: after ∧ P a ∧ ∀ b ∈ after, Q b

theorem not_since_nil {P Q : α → Prop} : ¬ Since P Q [] := by
  rintro ⟨before, a, after, h, _⟩
  exact absurd h.symm (List.append_ne_nil_of_right_ne_nil before (List.cons_ne_nil a after))

/-- The last input is the one looked for, or it is one that may follow. -/
theorem since_concat {P Q : α → Prop} (as : List α) (a : α) :
    Since P Q (as ++ [a]) ↔ P a ∨ (Q a ∧ Since P Q as) := by
  constructor
  · rintro ⟨before, b, after, h, hb, hafter⟩
    rcases List.eq_nil_or_concat after with rfl | ⟨after', c, rfl⟩
    · rw [List.append_singleton_inj] at h
      exact Or.inl (h.2 ▸ hb)
    · rw [List.concat_eq_append] at h hafter
      rw [← List.cons_append, ← List.append_assoc, List.append_singleton_inj] at h
      rcases h with ⟨rfl, rfl⟩
      exact Or.inr ⟨hafter a (List.mem_append_right _ List.mem_cons_self), before, b, after', rfl,
        hb, fun x hx => hafter x (List.mem_append_left _ hx)⟩
  · rintro (ha | ⟨ha, before, b, after, rfl, hb, hafter⟩)
    · exact ⟨as, a, [], rfl, ha, fun b hb => absurd hb List.not_mem_nil⟩
    · refine ⟨before, b, after ++ [a], by rw [List.append_assoc, List.cons_append], hb,
        fun x hx => ?_⟩
      rcases List.mem_append.mp hx with hx | hx
      · exact hafter x hx
      · exact List.mem_singleton.mp hx ▸ ha

end Ztlnp

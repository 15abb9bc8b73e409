import Mathlib.Logic.Basic

/-!
# Formats

A writer and a reader of one format, either of which may refuse, and how far
they agree.

Two laws say so, and neither follows from the other. A format round-trips if
reading gives back what was written. It is exact at a string if the string is
refused there, for a reason that was agreed on, or writing gives back what was
read. A reader that ignores a part of its input breaks the second law and not
the first, and the place where it does is a string that was never written:
under the first law the strings that are accepted and exact are the ones that
the writer can produce.

Where the first law holds, sending a value on any number of times leaves it as
it is.

## Main definitions

* `Format`: A writer and a reader.
* `Format.RoundTrips`: Reading gives back what was written.
* `Format.Exact`: A string is refused, or writing gives back what was read.
* `Format.trips`: Writing and reading a number of times.

## Theorems

* `Format.exact_iff`: A format that round-trips is exact at the strings that it
  refuses and at those that were written.
* `Format.trips_eq`: A value that can be written survives every trip.
-/

namespace Ztlnp

/-- A writer and a reader. -/
structure Format (α β ε : Type) where
  encode : α → Except ε β
  decode : β → Except ε α

namespace Format

variable {α β ε : Type} (F : Format α β ε)

/-- Reading gives back what was written. -/
def RoundTrips : Prop := ∀ x w, F.encode x = .ok w → F.decode w = .ok x

/-- A string is refused for a proper reason, or writing gives back what was
    read. -/
def Exact (refusal : ε → Prop) (w : β) : Prop :=
  (∃ e, F.decode w = .error e ∧ refusal e) ∨ ∃ x, F.decode w = .ok x ∧ F.encode x = .ok w

/-- Writing a value and reading it, a number of times. -/
def trips : Nat → α → Except ε α
  | 0, x => .ok x
  | n + 1, x => do trips n (← F.decode (← F.encode x))

variable {F}

/-- What is read has to be what is written. -/
theorem exact_of_ok {refusal : ε → Prop} {w : β} {x : α} (h : F.decode w = .ok x) :
    F.Exact refusal w ↔ F.encode x = .ok w := by
  constructor
  · rintro (⟨e, he, _⟩ | ⟨y, hy, hw⟩)
    · rw [h] at he
      simp only [reduceCtorEq] at he
    · rw [h, Except.ok.injEq] at hy
      rw [hy]
      exact hw
  · exact fun hw => Or.inr ⟨x, h, hw⟩

/-- A format that round-trips is exact where it refuses, and at what was
    written. -/
theorem exact_iff (hF : F.RoundTrips) (refusal : ε → Prop) (w : β) :
    F.Exact refusal w ↔
      (∃ e, F.decode w = .error e ∧ refusal e) ∨ ∃ x, F.encode x = .ok w := by
  unfold Exact
  refine or_congr_right ⟨fun ⟨x, _, hw⟩ => ⟨x, hw⟩, fun ⟨x, hw⟩ => ⟨x, hF x w hw, hw⟩⟩

/-- A value that can be written survives every trip. -/
theorem trips_eq (hF : F.RoundTrips) (x : α) (w : β) (hw : F.encode x = .ok w) (n : Nat) :
    F.trips n x = .ok x := by
  induction n with
  | zero => rfl
  | succ n ih =>
      rw [trips, hw]
      simp only [bind, Except.bind, hF x w hw]
      exact ih

end Format

end Ztlnp

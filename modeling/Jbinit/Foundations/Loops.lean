import Mathlib.Data.Nat.Notation
import Mathlib.Tactic.Common

/-!
# Loops

A loop is its body, which goes on with a new state or leaves with a result. `runLoop` runs the body
at most a number of times; `Halts` says that the loop leaves however many more times are allowed.
`halts_of_variant` is the rule of an invariant and a variant: a loop whose body keeps the invariant
and decreases the variant leaves.
-/

namespace Foundations.Loops

/-- What the body of a loop comes to. -/
inductive Step (S R : Type*)
  | next (s : S)
  | done (r : R)

variable {S R : Type*}

/-- The loop, with at most so many runs of its body. -/
def runLoop (body : S → Step S R) : ℕ → S → Option R
  | 0, _ => none
  | fuel + 1, s =>
    match body s with
    | .next s' => runLoop body fuel s'
    | .done r => some r

/-- The loop leaves with a result. -/
def Halts (body : S → Step S R) (s : S) (r : R) : Prop :=
  ∃ n, ∀ fuel, n ≤ fuel → runLoop body fuel s = some r

/-- One run of the body keeps the invariant and decreases the variant, or leaves with what the
postcondition says. -/
def Step.Meets (Inv : S → Prop) (variant : S → ℕ) (Post : R → Prop) (s : S) : Step S R → Prop
  | .next s' => Inv s' ∧ variant s' < variant s
  | .done r => Post r

variable {body : S → Step S R} {Inv : S → Prop} {variant : S → ℕ} {Post : R → Prop}

/-- **Total correctness**: an invariant and a variant. -/
theorem halts_of_variant (hbody : ∀ s, Inv s → (body s).Meets Inv variant Post s) {s : S}
    (hs : Inv s) : ∃ r, Post r ∧ Halts body s r := by
  induction hn : variant s using Nat.strongRecOn generalizing s with
  | ind n ih =>
    have hstep := hbody s hs
    cases hnext : body s with
    | next s' =>
      rw [hnext] at hstep
      obtain ⟨r, hr, fuel, hfuel⟩ := ih _ (hn ▸ hstep.2) hstep.1 rfl
      refine ⟨r, hr, fuel + 1, fun k hk => ?_⟩
      obtain ⟨k, rfl⟩ : ∃ k', k = k' + 1 := ⟨k - 1, by omega⟩
      rw [runLoop, hnext]
      exact hfuel k (by omega)
    | done r =>
      rw [hnext] at hstep
      refine ⟨r, hstep, 1, fun k hk => ?_⟩
      obtain ⟨k, rfl⟩ : ∃ k', k = k' + 1 := ⟨k - 1, by omega⟩
      rw [runLoop, hnext]

end Foundations.Loops

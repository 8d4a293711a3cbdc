import Mathlib.Data.List.Infix
import Mathlib.Tactic.Common

/-!
# Occurrences of a list

Where a list occurs in another, element by element (`occursAt_iff`), and what the first place is.
`not_occursAt_of_shift` is the rule of the algorithms that skip places: an element of the text
rules out all places that would put another element of the list on it.
-/

namespace Foundations.Occurrences

variable {α : Type*} {needle hay : List α} {i : ℕ}

/-- The list occurs at a place. -/
def OccursAt (needle hay : List α) (i : ℕ) : Prop := i ≤ hay.length ∧ needle <+: hay.drop i

/-- The first place, if there is one. -/
def IsFirst (needle hay : List α) (r : Option ℕ) : Prop :=
  ∀ i, r = some i ↔ OccursAt needle hay i ∧ ∀ j < i, ¬OccursAt needle hay j

/-- An occurrence, element by element. -/
theorem occursAt_iff : OccursAt needle hay i ↔
    i + needle.length ≤ hay.length ∧ ∀ k < needle.length, hay[i + k]? = needle[k]? := by
  have hget (k : ℕ) (hk : k < needle.length) : (hay.drop i)[k]? = some needle[k] ↔
      hay[i + k]? = needle[k]? := by
    rw [List.getElem?_drop, List.getElem?_eq_getElem hk]
  rw [OccursAt, List.prefix_iff_getElem?]
  constructor
  · rintro ⟨hle, hall⟩
    refine ⟨?_, fun k hk => (hget k hk).mp (hall k hk)⟩
    by_contra hlt
    obtain ⟨k, hk⟩ : ∃ k, needle.length = k + 1 := ⟨needle.length - 1, by omega⟩
    have hlast := hall k (by omega)
    rw [List.getElem?_drop, List.getElem?_eq_none (by omega)] at hlast
    cases hlast
  · rintro ⟨hle, hall⟩
    exact ⟨by omega, fun k hk => (hget k hk).mpr (hall k hk)⟩

theorem isFirst_some (h : OccursAt needle hay i) (hbefore : ∀ j < i, ¬OccursAt needle hay j) :
    IsFirst needle hay (some i) := by
  intro j
  constructor
  · rintro heq
    obtain rfl := Option.some.inj heq
    exact ⟨h, hbefore⟩
  · rintro ⟨hj, hfirst⟩
    rcases Nat.lt_trichotomy i j with hlt | rfl | hlt
    · exact absurd h (hfirst i hlt)
    · rfl
    · exact absurd hj (hbefore j hlt)

theorem isFirst_none (h : ∀ i, ¬OccursAt needle hay i) : IsFirst needle hay none :=
  fun i => iff_of_false (by simp) fun hi => h i hi.1

/-- Places at which there is no room. -/
theorem not_occursAt_of_length (h : hay.length < i + needle.length) : ¬OccursAt needle hay i :=
  fun hi => absurd (occursAt_iff.mp hi).1 (by omega)

/-- There is none if there is none before a place behind which the list is too long. -/
theorem isFirst_none_of_before (hbefore : ∀ j < i, ¬OccursAt needle hay j)
    (hlong : hay.length < i + needle.length) : IsFirst needle hay none := by
  refine isFirst_none fun j => ?_
  rcases Nat.lt_or_ge j i with hj | hj
  · exact hbefore j hj
  · exact not_occursAt_of_length (by omega)

theorem IsFirst.unique {r r' : Option ℕ} (h : IsFirst needle hay r) (h' : IsFirst needle hay r') :
    r = r' :=
  Option.ext fun i => (h i).trans (h' i).symm

/-- **The rule of a skip**: an element of the text at the last place of the list. -/
theorem not_occursAt_of_shift {a : α} {last k : ℕ} (hlast : last < needle.length)
    (hk : k ≤ last) (ha : hay[i + last]? = some a) (hne : needle[last - k]? ≠ some a) :
    ¬OccursAt needle hay (i + k) := by
  intro hoccurs
  have hat := (occursAt_iff.mp hoccurs).2 (last - k) (by omega)
  have hplace : i + k + (last - k) = i + last := by omega
  rw [hplace, ha] at hat
  exact hne hat.symm

end Foundations.Occurrences

import Mathlib.Data.List.Basic
import Mathlib.Tactic.Common

/-!
# Entries in order

A dictionary as the list of its entries, in which a value that is set takes the place of the one
that the key has. Setting the value that a key has changes nothing (`set_eq_self`).
-/

namespace Foundations

abbrev Entries (K V : Type*) := List (K × V)

namespace Entries

variable {K V : Type*} [DecidableEq K] {es : Entries K V} {k k' : K} {v v' : V}

def get (k : K) : Entries K V → Option V
  | [] => none
  | (k', v) :: es => if k' = k then some v else get k es

/-- A new key goes behind the others. -/
def set (k : K) (v : V) : Entries K V → Entries K V
  | [] => [(k, v)]
  | (k', v') :: es => if k' = k then (k, v) :: es else (k', v') :: set k v es

@[simp] theorem get_set_self : get k (set k v es) = some v := by
  induction es with
  | nil => simp [set, get]
  | cons e es ih =>
    rw [set]
    split
    · simp [get]
    · simp [get, *]

theorem get_set_of_ne (h : k' ≠ k) : get k' (set k v es) = get k' es := by
  induction es with
  | nil => simp [set, get, h.symm]
  | cons e es ih =>
    rw [set]
    split
    case isTrue heq => simp [get, heq, h.symm]
    case isFalse => rw [get, get, ih]

theorem set_eq_self (h : get k es = some v) : set k v es = es := by
  induction es with
  | nil => cases h
  | cons e es ih =>
    rw [get] at h
    rw [set]
    split
    case isTrue heq =>
      rw [if_pos heq, Option.some.injEq] at h
      rw [← h, ← heq]
    case isFalse hne =>
      rw [if_neg hne] at h
      rw [ih h]

/-- The last value counts. -/
theorem set_set : set k v' (set k v es) = set k v' es := by
  induction es with
  | nil => simp [set]
  | cons e es ih =>
    rw [set, set]
    split
    case isTrue => simp [set]
    case isFalse hne => rw [set, if_neg hne, ih]

end Entries

end Foundations

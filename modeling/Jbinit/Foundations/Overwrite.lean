import Mathlib.Data.List.Basic
import Mathlib.Tactic.Common

/-!
# Overwriting a part of a list

A list put over the elements of another from an index on. Two that are put one behind the other are
one that is put there (`overwrite_overwrite`). What is put at the beginning of a list of which all
elements are the same ends at the first of these, if it has none itself and leaves room for one
(`mem_append_replicate`, `takeWhile_append_replicate`).
-/

namespace Foundations

variable {α : Type*} {xs ys : List α} {i n : ℕ}

def overwrite (xs : List α) (i : ℕ) (ys : List α) : List α :=
  xs.take i ++ ys ++ xs.drop (i + ys.length)

theorem length_overwrite (h : i + ys.length ≤ xs.length) :
    (overwrite xs i ys).length = xs.length := by
  simp only [overwrite, List.length_append, List.length_take, List.length_drop]
  omega

/-- What is before the elements put there, and they. -/
theorem take_overwrite_add (h : i + ys.length ≤ xs.length) :
    (overwrite xs i ys).take (i + ys.length) = xs.take i ++ ys := by
  refine List.take_left' ?_
  simp only [List.length_append, List.length_take]
  omega

theorem drop_overwrite_add (h : i + ys.length ≤ xs.length) :
    (overwrite xs i ys).drop (i + ys.length) = xs.drop (i + ys.length) := by
  refine List.drop_left' ?_
  simp only [List.length_append, List.length_take]
  omega

theorem take_overwrite (h : i + ys.length ≤ xs.length) (hn : n ≤ i) :
    (overwrite xs i ys).take n = xs.take n := by
  have htake := congrArg (List.take n) (take_overwrite_add h)
  have hlength : (xs.take i).length = i := List.length_take_of_le (by omega)
  rw [List.take_take, Nat.min_eq_left (by omega),
    List.take_append_of_le_length (by omega), List.take_take, Nat.min_eq_left hn] at htake
  exact htake

/-- The elements put there. -/
theorem take_drop_overwrite (h : i + ys.length ≤ xs.length) :
    ((overwrite xs i ys).drop i).take ys.length = ys := by
  have hlength : (xs.take i).length = i := List.length_take_of_le (by omega)
  rw [overwrite, List.append_assoc, List.drop_left' hlength, List.take_left]

theorem getElem?_overwrite (h : i + ys.length ≤ xs.length) (hn : n < i ∨ i + ys.length ≤ n) :
    (overwrite xs i ys)[n]? = xs[n]? := by
  rcases hn with hbefore | hafter
  · have htake := congrArg (·[n]?) (take_overwrite h (Nat.le_refl i))
    simpa only [List.getElem?_take_of_lt hbefore] using htake
  · have hdrop := congrArg (·[n - (i + ys.length)]?) (drop_overwrite_add h)
    simpa only [List.getElem?_drop, Nat.add_sub_cancel' hafter] using hdrop

/-- **One behind the other.** -/
theorem overwrite_overwrite (h : i + ys.length ≤ xs.length) (zs : List α) :
    overwrite (overwrite xs i ys) (i + ys.length) zs = overwrite xs i (ys ++ zs) := by
  rw [overwrite, take_overwrite_add h, ← List.drop_drop, drop_overwrite_add h, List.drop_drop,
    overwrite, List.length_append, Nat.add_assoc, List.append_assoc (xs.take i)]

theorem overwrite_nil (xs : List α) (i : ℕ) : overwrite xs i [] = xs := by
  simp [overwrite]

/-- One element. -/
theorem set_eq_overwrite (a : α) (h : i < xs.length) : xs.set i a = overwrite xs i [a] := by
  rw [List.set_eq_take_append_cons_drop, if_pos h]
  simp [overwrite]

/-! ## A list of the same elements -/

theorem overwrite_replicate (a : α) (n : ℕ) (ys : List α) :
    overwrite (List.replicate n a) 0 ys = ys ++ List.replicate (n - ys.length) a := by
  rw [overwrite, List.take_zero, List.nil_append, Nat.zero_add, List.drop_replicate]

theorem mem_append_replicate (a : α) (n : ℕ) (ys : List α) :
    a ∈ ys ++ List.replicate (n - ys.length) a ↔ a ∈ ys ∨ ys.length < n := by
  rw [List.mem_append, List.mem_replicate, and_iff_left rfl, Nat.sub_ne_zero_iff_lt]

theorem takeWhile_append_replicate {a : α} {p : α → Bool} (ha : p a = false) (ys : List α) (n : ℕ) :
    (ys ++ List.replicate n a).takeWhile p = ys.takeWhile p := by
  have hnone : (List.replicate n a).takeWhile p = [] := by
    cases n with
    | zero => rfl
    | succ n => rw [List.replicate_succ, List.takeWhile_cons_of_neg (by simp [ha])]
  rw [List.takeWhile_append, hnone]
  split
  case isTrue hall =>
    have hsame := List.IsPrefix.eq_of_length (List.takeWhile_prefix p) hall
    rw [List.append_nil, hsame]
  case isFalse => rfl

end Foundations

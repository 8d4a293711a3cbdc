import Mathlib.Data.List.Basic
import Mathlib.Logic.Function.Basic
import Mathlib.Tactic.Common

/-!
# Memory

A memory is a function of the address. `store` puts a list at an address, `load` reads one. A list
can be put there in two parts (`store_append`), in either order (`store_append'`), or one element
after the other; what is read where it stands is the list (`load_store`), and elsewhere nothing is
changed (`store_of_lt`, `store_of_le`, `load_store_of_le`).
-/

namespace Foundations.Memory

variable {α : Type*} {mem : ℕ → α} {xs ys : List α} {i j n : ℕ}

/-- The list at the address and those after it. -/
def store (mem : ℕ → α) (i : ℕ) (xs : List α) : ℕ → α :=
  fun j => if i ≤ j then (xs[j - i]?).getD (mem j) else mem j

def load (mem : ℕ → α) (i n : ℕ) : List α := (List.range n).map fun k => mem (i + k)

theorem store_of_lt (h : j < i) : store mem i xs j = mem j := if_neg (by omega)

theorem store_of_le (h : i + xs.length ≤ j) : store mem i xs j = mem j := by
  rw [store, if_pos (by omega), List.getElem?_eq_none (by omega), Option.getD_none]

theorem store_add {k : ℕ} (h : k < xs.length) : store mem i xs (i + k) = xs[k] := by
  rw [store, if_pos (by omega), Nat.add_sub_cancel_left, List.getElem?_eq_getElem h, Option.getD_some]

@[simp] theorem store_nil (mem : ℕ → α) (i : ℕ) : store mem i [] = mem := by
  funext j
  simp [store]

theorem store_singleton (mem : ℕ → α) (i : ℕ) (a : α) :
    store mem i [a] = Function.update mem i a := by
  funext j
  by_cases h : j = i
  · subst h
    simp [store]
  · rw [Function.update_of_ne h]
    rcases Nat.lt_or_ge j i with hlt | hge
    · exact store_of_lt hlt
    · exact store_of_le (by rw [List.length_singleton]; omega)

/-- **One behind the other.** -/
theorem store_append (mem : ℕ → α) (i : ℕ) (xs ys : List α) :
    store mem i (xs ++ ys) = store (store mem i xs) (i + xs.length) ys := by
  funext j
  rcases Nat.lt_or_ge j i with hbefore | hge
  · rw [store_of_lt hbefore, store_of_lt (by omega), store_of_lt hbefore]
  rcases Nat.lt_or_ge j (i + xs.length) with hlt | hafter
  · rw [store_of_lt hlt, store, store, if_pos hge, if_pos hge, List.getElem?_append_left (by omega)]
  · rw [store, if_pos hge, List.getElem?_append_right (by omega), store, if_pos hafter,
      store_of_le hafter, Nat.sub_sub]

/-- Lists that do not overlap can be put in either order. -/
theorem store_comm (h : i + xs.length ≤ j) :
    store (store mem i xs) j ys = store (store mem j ys) i xs := by
  funext k
  by_cases hk : k < i + xs.length
  · rw [store_of_lt (show k < j by omega)]
    unfold store
    rw [if_neg (show ¬j ≤ k by omega)]
  · have hafter : i + xs.length ≤ k := by omega
    rw [show store (store mem j ys) i xs k = store mem j ys k from store_of_le hafter]
    unfold store
    rw [show (if i ≤ k then (xs[k - i]?).getD (mem k) else mem k) = mem k from store_of_le hafter]

theorem store_append' (mem : ℕ → α) (i : ℕ) (xs ys : List α) :
    store mem i (xs ++ ys) = store (store mem (i + xs.length) ys) i xs :=
  (store_append mem i xs ys).trans (store_comm (Nat.le_refl _))

/-- The element behind a list. -/
theorem update_store_length (mem : ℕ → α) (i : ℕ) (a : α) (xs : List α) :
    Function.update (store mem i xs) (i + xs.length) a = store mem i (xs ++ [a]) := by
  rw [← store_singleton, ← store_append]

/-- What is put over a list of the same length replaces it. -/
theorem store_store_of_length (h : xs.length = ys.length) :
    store (store mem i xs) i ys = store mem i ys := by
  funext j
  rcases Nat.lt_or_ge j (i + ys.length) with hlt | hge
  · by_cases hij : i ≤ j
    · obtain ⟨k, rfl⟩ := Nat.exists_eq_add_of_le hij
      rw [store_add (by omega), store_add (by omega)]
    · rw [store_of_lt (by omega), store_of_lt (by omega), store_of_lt (by omega)]
  · rw [store_of_le hge, store_of_le (by omega), store_of_le hge]

/-! ## Reading -/

@[simp] theorem length_load (mem : ℕ → α) (i n : ℕ) : (load mem i n).length = n := by
  simp [load]

theorem getElem_load (mem : ℕ → α) (i n k : ℕ) (h : k < (load mem i n).length) :
    (load mem i n)[k] = mem (i + k) := by
  simp [load]

theorem load_succ (mem : ℕ → α) (i n : ℕ) : load mem i (n + 1) = load mem i n ++ [mem (i + n)] := by
  simp [load, List.range_succ]

theorem load_succ' (mem : ℕ → α) (i n : ℕ) : load mem i (n + 1) = mem i :: load mem (i + 1) n := by
  simp only [load, List.range_succ_eq_map, List.map_cons, List.map_map, Nat.add_zero]
  congr 1
  refine List.map_congr_left fun k _ => ?_
  exact congrArg mem (by simp only [Nat.succ_eq_add_one]; omega)

theorem load_congr {mem' : ℕ → α} (h : ∀ k < n, mem (i + k) = mem' (i + k)) :
    load mem i n = load mem' i n := by
  refine List.map_congr_left fun k hk => h k ?_
  exact List.mem_range.mp hk

theorem load_store (mem : ℕ → α) (i : ℕ) (xs : List α) : load (store mem i xs) i xs.length = xs := by
  refine List.ext_getElem (length_load _ _ _) fun k h₁ h₂ => ?_
  rw [getElem_load, store_add h₂]

/-- A list that is part of what is there. -/
theorem load_store_append (mem : ℕ → α) (i : ℕ) (xs ys zs : List α) :
    load (store mem i (xs ++ (ys ++ zs))) (i + xs.length) ys.length = ys := by
  rw [store_append, store_append', load_store]

theorem load_store_of_le (h : i + xs.length ≤ j ∨ j + n ≤ i) :
    load (store mem i xs) j n = load mem j n := by
  refine load_congr fun k hk => ?_
  rcases h with h | h
  · exact store_of_le (by omega)
  · exact store_of_lt (by omega)

theorem load_add (mem : ℕ → α) (i m n : ℕ) :
    load mem i (m + n) = load mem i m ++ load mem (i + m) n := by
  induction n with
  | zero => exact (List.append_nil _).symm
  | succ n ih => rw [← Nat.add_assoc, load_succ, load_succ, ih, List.append_assoc, Nat.add_assoc]

end Foundations.Memory

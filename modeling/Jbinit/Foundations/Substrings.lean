import Mathlib.Data.List.Infix
import Mathlib.Tactic.Common

/-!
# Searching a list

`search` finds the first occurrence of a list in another (`search_append`, for a list that does not
overlap itself), and `afterLast` scans for the place behind the last occurrence of an element.
-/

namespace Foundations.Substrings

variable {α : Type*} {needle pre post s : List α} {a : α}

/-! ## Lists -/

/-- A list that has its first element only once does not begin in what it does not occur in. -/
theorem not_prefix_append (hhead : a ∉ s) (hpre : ¬(a :: s) <:+: pre) (hne : pre ≠ []) :
    ¬(a :: s) <+: pre ++ (a :: s ++ post) := by
  intro hprefix
  by_cases hlength : (a :: s).length ≤ pre.length
  · exact hpre (List.prefix_of_prefix_length_le hprefix (List.prefix_append ..) hlength).isInfix
  · -- The list is cut by the end of `pre`, so its first element comes again.
    obtain ⟨b, pre', rfl⟩ := List.exists_cons_of_ne_nil hne
    rw [List.length_cons, List.length_cons] at hlength
    have hlt : (b :: pre').length < (a :: s).length := by
      rw [List.length_cons, List.length_cons]
      omega
    have hagain := hprefix.getElem hlt
    simp only [List.length_cons, List.getElem_cons_succ, List.cons_append, List.getElem_append_right,
      Nat.le_refl, Nat.sub_self, List.getElem_cons_zero] at hagain
    exact hhead (hagain ▸ List.getElem_mem _)

/-- A list does not occur behind a piece that does not have its first element. -/
theorem not_infix_append (ha : a ∉ pre) (h : ¬(a :: s) <:+: post) : ¬(a :: s) <:+: pre ++ post := by
  induction pre with
  | nil => exact h
  | cons c pre ih =>
    rw [List.mem_cons, not_or] at ha
    rw [List.cons_append, List.infix_cons_iff, not_or]
    exact ⟨fun hprefix => ha.1 (List.cons_prefix_cons.mp hprefix).1, ih ha.2⟩

variable [DecidableEq α]

/-- The rest of a list from the first occurrence of `needle` on. -/
def search (needle : List α) : List α → Option (List α)
  | [] => if needle = [] then some [] else none
  | c :: s => if needle <+: c :: s then some (c :: s) else search needle s

theorem search_eq_none (h : ¬needle <:+: s) : search needle s = none := by
  induction s with
  | nil =>
    have hne : needle ≠ [] := by
      rintro rfl
      exact h (List.nil_infix)
    rw [search, if_neg hne]
  | cons c s ih =>
    have hhead : ¬needle <+: c :: s := fun hprefix => h hprefix.isInfix
    rw [search, if_neg hhead]
    exact ih fun hwithin => h (hwithin.trans (List.infix_cons (List.infix_refl s)))

theorem search_isSome (h : needle <:+: s) : (search needle s).isSome = true := by
  induction s with
  | nil =>
    obtain rfl := List.eq_nil_of_infix_nil h
    rfl
  | cons c s ih =>
    rw [search]
    split
    case isTrue => rfl
    case isFalse hnot =>
      rw [List.infix_cons_iff] at h
      exact ih (h.resolve_left hnot)

/-- **The first occurrence**, of a list that has its first element only once. -/
theorem search_append (hhead : a ∉ s) (hpre : ¬(a :: s) <:+: pre) (post : List α) :
    search (a :: s) (pre ++ (a :: s ++ post)) = some (a :: s ++ post) := by
  induction pre with
  | nil =>
    have hprefix : (a :: s) <+: a :: (s ++ post) := by
      simp
    rw [List.nil_append, List.cons_append, search, if_pos hprefix]
  | cons c pre ih =>
    have hnot : ¬a :: s <+: c :: pre ++ (a :: s ++ post) :=
      not_prefix_append hhead hpre (List.cons_ne_nil c pre)
    rw [List.cons_append] at hnot ⊢
    rw [search, if_neg hnot]
    exact ih fun hwithin => hpre (hwithin.trans (List.infix_cons (List.infix_refl pre)))

/-! ## Elements -/

/-- The index behind the last `a` of a list that begins at `i`, or `found` without one. -/
def afterLast (a : α) : ℕ → ℕ → List α → ℕ
  | _, found, [] => found
  | i, found, c :: s => afterLast a (i + 1) (if c = a then i + 1 else found) s

theorem afterLast_of_not_mem (h : a ∉ s) (i found : ℕ) : afterLast a i found s = found := by
  induction s generalizing i with
  | nil => rfl
  | cons c s ih =>
    rw [List.mem_cons, not_or] at h
    rw [afterLast, if_neg (Ne.symm h.1), ih h.2]

theorem afterLast_append (h : a ∉ post) (i found : ℕ) :
    afterLast a i found (pre ++ a :: post) = i + pre.length + 1 := by
  induction pre generalizing i found with
  | nil => rw [List.nil_append, afterLast, if_pos rfl, afterLast_of_not_mem h, List.length_nil]
  | cons c pre ih =>
    rw [List.cons_append, afterLast, ih, List.length_cons]
    omega

end Foundations.Substrings

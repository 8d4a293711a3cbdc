import Jbinit.Foundations.Delimited
import Jbinit.Foundations.Substrings

/-!
# Lines

A list read as lines that a separator ends. The last line may go without it; what is appended then
continues that line (`lines_append_append`), and otherwise makes new ones (`lines_append`). A list
occurs behind a separator where a line begins with it (`infix_iff_line`).
-/

namespace Foundations.Lines

open Delimited Substrings

variable {α : Type*} {sep : α} {c l t : List α}

/-- All lines end with the separator. -/
def Terminated (sep : α) (l : List α) : Prop := l = [] ∨ l.getLast? = some sep

theorem Terminated.cons (h : Terminated sep l) : Terminated sep (c ++ sep :: l) := by
  right
  rcases h with rfl | hlast
  · simp
  · rw [List.getLast?_append, List.getLast?_cons, hlast]
    rfl

theorem Terminated.of_append (h : Terminated sep (c ++ sep :: l)) : Terminated sep l := by
  cases l with
  | nil => exact .inl rfl
  | cons a l =>
    right
    rcases h with hnil | hlast
    · simp at hnil
    · simpa [List.getLast?_append, List.getLast?_cons_cons] using hlast

variable [DecidableEq α]

/-- The lines of a list, without their separators. -/
def lines (sep : α) (l : List α) : List (List α) :=
  let pieces := l.splitOn sep
  if pieces.getLast? = some [] then pieces.dropLast else pieces

theorem lines_of_not_mem (h : sep ∉ l) : lines sep l = if l = [] then [] else [l] := by
  rw [lines, List.splitOn_eq_singleton h]
  cases l <;> simp

@[simp] theorem lines_nil : lines sep ([] : List α) = [] := by
  simp [lines]

theorem lines_cons (h : sep ∉ c) (l : List α) : lines sep (c ++ sep :: l) = c :: lines sep l := by
  have hne := List.splitOn_ne_nil sep l
  obtain ⟨piece, pieces, hpieces⟩ := List.exists_cons_of_ne_nil hne
  simp only [lines, List.splitOn_append_cons_self_of_not_mem h, hpieces, List.getLast?_cons_cons,
    List.dropLast_cons_cons]
  split <;> rfl

/-- A list is its terminated lines, and a line without a separator. -/
theorem exists_terminated_append (sep : α) (l : List α) :
    ∃ t r, l = t ++ r ∧ Terminated sep t ∧ sep ∉ r := by
  induction l using split_induction sep with
  | base l hl => exact ⟨[], l, rfl, .inl rfl, hl⟩
  | step c l hc ih =>
    obtain ⟨t, r, rfl, ht, hr⟩ := ih
    exact ⟨c ++ sep :: t, r, by simp, ht.cons, hr⟩

/-- **Behind lines that end** there are the lines of what is appended. -/
theorem lines_append (h : Terminated sep t) (l : List α) :
    lines sep (t ++ l) = lines sep t ++ lines sep l := by
  induction t using split_induction sep with
  | base t ht =>
    rcases h with rfl | hlast
    · simp
    · exact absurd (List.mem_of_getLast? hlast) ht
  | step c t hc ih =>
    rw [List.append_assoc, List.cons_append, lines_cons hc, lines_cons hc, ih h.of_append,
      List.cons_append]

/-- What is appended to a line that does not end continues it. -/
theorem lines_append_append (h : Terminated sep t) {r e : List α} (hr : sep ∉ r) (he : sep ∉ e)
    (l : List α) : lines sep (t ++ r ++ (e ++ sep :: l)) = lines sep t ++ (r ++ e) :: lines sep l := by
  have hline : sep ∉ r ++ e := by simp [hr, he]
  rw [List.append_assoc, lines_append h, ← List.append_assoc, lines_cons hline]

theorem lines_flatMap {ls : List (List α)} (h : ∀ l ∈ ls, sep ∉ l) :
    lines sep (ls.flatMap fun l => l ++ [sep]) = ls := by
  induction ls with
  | nil => exact lines_nil
  | cons l ls ih =>
    rw [List.flatMap_cons, List.append_assoc, List.singleton_append,
      lines_cons (h l List.mem_cons_self), ih fun l' hl' => h l' (List.mem_cons_of_mem l hl')]

theorem not_mem_of_mem_splitOn (h : c ∈ l.splitOn sep) : sep ∉ c := by
  induction l using split_induction sep with
  | base l hl =>
    rw [List.splitOn_eq_singleton hl, List.mem_singleton] at h
    exact h ▸ hl
  | step d l hd ih =>
    rw [List.splitOn_append_cons_self_of_not_mem hd, List.mem_cons] at h
    rcases h with rfl | h
    · exact hd
    · exact ih h

/-- The pieces between separators are the lines, and the empty piece. -/
theorem mem_lines_iff (hc : c ≠ []) : c ∈ lines sep l ↔ c ∈ l.splitOn sep := by
  induction l using split_induction sep with
  | base l hl =>
    rw [lines_of_not_mem hl, List.splitOn_eq_singleton hl]
    split
    case isTrue hnil => simp [hnil, hc]
    case isFalse => rfl
  | step d l hd ih =>
    rw [lines_cons hd, List.splitOn_append_cons_self_of_not_mem hd, List.mem_cons, List.mem_cons, ih]

/-- **A list occurs behind a separator** where a line begins with it. -/
theorem infix_iff_line {key : List α} (hkey : key ≠ []) (hsep : sep ∉ key) (l : List α) :
    sep :: key <:+: sep :: l ↔ ∃ line ∈ lines sep l, key <+: line := by
  induction l using split_induction sep with
  | base l hl =>
    have hwithin : ¬sep :: key <:+: l := fun h => hl (h.subset List.mem_cons_self)
    rw [List.infix_cons_iff, List.cons_prefix_cons, lines_of_not_mem hl]
    by_cases hnil : l = []
    · simp [hnil, hkey]
    · simp [hnil, hwithin]
  | step c l hc ih =>
    have hrest : sep :: key <:+: c ++ sep :: l ↔ sep :: key <:+: sep :: l := by
      constructor
      · intro h
        by_contra hnot
        exact not_infix_append hc hnot h
      · exact fun h => h.trans (List.suffix_append c _).isInfix
    have hfirst : key <+: c ++ sep :: l ↔ key <+: c := by
      constructor
      · intro h
        rcases List.prefix_or_prefix_of_prefix h (List.prefix_append c _) with hshort | ⟨rest, rfl⟩
        · exact hshort
        · -- A key that is longer than the line has the separator in it.
          rw [List.prefix_append_right_inj] at h
          cases rest with
          | nil => simp
          | cons a rest =>
            obtain rfl := (List.cons_prefix_cons.mp h).1
            simp at hsep
      · exact fun h => h.trans (List.prefix_append c _)
    rw [List.infix_cons_iff, List.cons_prefix_cons, lines_cons hc, hrest, ih, hfirst]
    simp

end Foundations.Lines

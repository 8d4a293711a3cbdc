import Mathlib.Algebra.GroupWithZero.Nat
import Mathlib.Data.List.Basic
import Mathlib.Tactic.Common

/-!
# Delimited lists

A list over any alphabet, read as a sequence of components between separators. `components` keeps
the maximal runs of elements other than the separator, so that leading, trailing and doubled
separators make no component (what iterating a tokenizer yields); `join` puts a separator between
the members of a list of components.

* `components_join`: joining components and splitting again gives the components back.
* `length_join_le`: the join of a sublist of the components of `l` is no longer than `l`, the bound
  that makes a buffer of the original's size large enough for a filtered copy.
-/

namespace Foundations.Delimited

variable {α : Type*} {sep : α}

/-! ## Joining -/

/-- The members of a list with a separator between any two of them. -/
def join (sep : α) : List (List α) → List α
  | [] => []
  | [c] => c
  | c :: d :: cs => c ++ sep :: join sep (d :: cs)

@[simp] theorem join_nil : join sep ([] : List (List α)) = [] := rfl

@[simp] theorem join_singleton (c : List α) : join sep [c] = c := rfl

theorem join_cons_cons (c d : List α) (cs : List (List α)) :
    join sep (c :: d :: cs) = c ++ sep :: join sep (d :: cs) := rfl

/-- Appending one more member: after the first, a separator goes before it. -/
theorem join_concat {cs : List (List α)} (h : cs ≠ []) (c : List α) :
    join sep (cs ++ [c]) = join sep cs ++ sep :: c := by
  induction cs with
  | nil => exact absurd rfl h
  | cons a cs ih =>
    cases cs with
    | nil => rfl
    | cons b cs =>
      have := ih (by simp)
      simp only [List.cons_append, join_cons_cons, List.append_assoc] at this ⊢
      rw [this]

/-- The elements a list of components takes when each one is followed by a terminator. -/
def weight (cs : List (List α)) : ℕ := (cs.map fun c => c.length + 1).sum

@[simp] theorem weight_nil : weight ([] : List (List α)) = 0 := rfl

@[simp] theorem weight_cons (c : List α) (cs : List (List α)) :
    weight (c :: cs) = c.length + 1 + weight cs := by simp [weight]

@[simp] theorem weight_append (cs ds : List (List α)) :
    weight (cs ++ ds) = weight cs + weight ds := by simp [weight]

theorem length_join (sep : α) {cs : List (List α)} (h : cs ≠ []) :
    (join sep cs).length + 1 = weight cs := by
  induction cs with
  | nil => exact absurd rfl h
  | cons c cs ih =>
    cases cs with
    | nil => simp
    | cons d cs =>
      have := ih (by simp)
      simp only [join_cons_cons, List.length_append, List.length_cons, weight_cons] at this ⊢
      omega

theorem weight_le_of_sublist {cs ds : List (List α)} (h : cs.Sublist ds) :
    weight cs ≤ weight ds := by
  induction h with
  | slnil => simp
  | cons d _ ih => simp only [weight_cons]; omega
  | cons_cons c _ ih => simp only [weight_cons]; omega

/-! ## Splitting -/

/-- A component: not empty, and without a separator in it. -/
def IsComponent (sep : α) (c : List α) : Prop := c ≠ [] ∧ sep ∉ c

instance [DecidableEq α] (sep : α) (c : List α) : Decidable (IsComponent sep c) :=
  inferInstanceAs (Decidable (_ ∧ _))

variable [BEq α]

/-- The maximal runs of elements of `l` other than `sep`, in order. -/
def components (sep : α) (l : List α) : List (List α) :=
  (l.splitOn sep).filter fun c => !c.isEmpty

@[simp] theorem components_nil : components sep ([] : List α) = [] := by
  simp [components, List.splitOn_nil]

variable [LawfulBEq α]

theorem components_append_cons (l₁ l₂ : List α) :
    components sep (l₁ ++ sep :: l₂) = components sep l₁ ++ components sep l₂ := by
  simp [components, List.splitOn_append_cons_self]

theorem components_of_not_mem {l : List α} (h : sep ∉ l) :
    components sep l = if l.isEmpty then [] else [l] := by
  cases l with
  | nil => simp
  | cons a l => simp [components, List.splitOn_eq_singleton h]

theorem components_of_isComponent {c : List α} (h : IsComponent sep c) :
    components sep c = [c] := by
  rw [components_of_not_mem h.2, if_neg (by simpa using h.1)]

/-- **Splitting undoes joining**, on lists of components. -/
theorem components_join {cs : List (List α)} (h : ∀ c ∈ cs, IsComponent sep c) :
    components sep (join sep cs) = cs := by
  induction cs with
  | nil => simp
  | cons c cs ih =>
    have hc := components_of_isComponent (h c (by simp))
    cases cs with
    | nil => simpa using hc
    | cons d cs =>
      rw [join_cons_cons, components_append_cons, hc, ih fun e he => h e (by simp [he])]
      rfl

/-- Induction over the separators of a list, first to last. -/
theorem split_induction (sep : α) {motive : List α → Prop} (base : ∀ l, sep ∉ l → motive l)
    (step : ∀ c l, sep ∉ c → motive l → motive (c ++ sep :: l)) (l : List α) : motive l := by
  induction hn : l.length using Nat.strongRecOn generalizing l with
  | ind n ih =>
    by_cases h : sep ∈ l
    · obtain ⟨c, l', rfl, hc⟩ := List.eq_append_cons_of_mem h
      exact step c l' hc (ih l'.length (by simp at hn; omega) l' rfl)
    · exact base l h

/-- The members of `components` are components. -/
theorem isComponent_of_mem {l c : List α} (h : c ∈ components sep l) : IsComponent sep c := by
  induction l using split_induction sep with
  | base l hl =>
    rw [components_of_not_mem hl] at h
    split at h
    · simp at h
    · rename_i hne
      obtain rfl := List.mem_singleton.mp h
      exact ⟨by simpa using hne, hl⟩
  | step d l hd ih =>
    rw [components_append_cons, List.mem_append, components_of_not_mem hd] at h
    obtain h | h := h
    · split at h
      · simp at h
      · rename_i hne
        obtain rfl := List.mem_singleton.mp h
        exact ⟨by simpa using hne, hd⟩
    · exact ih h

theorem weight_components_le (sep : α) (l : List α) : weight (components sep l) ≤ l.length + 1 := by
  induction l using split_induction sep with
  | base l hl =>
    rw [components_of_not_mem hl]
    split <;> simp
  | step d l hd ih =>
    rw [components_append_cons, weight_append, components_of_not_mem hd]
    split <;> simp <;> omega

/-- **A filtered copy fits**: the join of some of the components of `l`, in order, is no longer
than `l`. -/
theorem length_join_le {l : List α} {cs : List (List α)} (h : cs.Sublist (components sep l)) :
    (join sep cs).length ≤ l.length := by
  by_cases hcs : cs = []
  · simp [hcs]
  · have h₁ := length_join sep hcs
    have h₂ := weight_le_of_sublist h
    have h₃ := weight_components_le sep l
    omega

end Foundations.Delimited

import Mathlib.Data.List.Basic
import Mathlib.Tactic.Common

/-!
# First-match tables

A list used as a table: a reader of the key `p` takes the first entry that satisfies the predicate
`p` (`List.find?`), a writer replaces that entry or appends a new one (`put`), and a deletion
erases that entry only (`List.eraseP`), so that a repeated key comes back into view. Keys are
predicates on entries; two keys are different when no entry satisfies both (`Apart`).

The table is a map from keys to stacks of entries: the stack of `p` is `l.filter p`, its top is what
a reader sees, `put` replaces the top and a deletion pops it (`filter_put_self`,
`filter_eraseP_self`). Operations on different keys do not interfere, and what is under the top is
never changed by a writer (`eraseP_put_self`).
-/

namespace Foundations.FirstMatch

variable {α : Type*} {p q : α → Bool}

/-- Replace the first entry that satisfies `p` by `e`; append `e` when there is none. -/
def put (p : α → Bool) (e : α) : List α → List α
  | [] => [e]
  | a :: l => if p a then e :: l else a :: put p e l

/-- No entry satisfies both keys. -/
def Apart (p q : α → Bool) : Prop := ∀ a, p a = true → q a = false

theorem Apart.symm (h : Apart p q) : Apart q p := by
  intro a hq
  by_contra hp
  have := h a (by simpa using hp)
  rw [hq] at this
  cases this

@[simp] theorem put_nil (e : α) : put p e [] = [e] := rfl

theorem put_cons_of_neg {a : α} (h : p a = false) (e : α) (l : List α) :
    put p e (a :: l) = a :: put p e l := by simp [put, h]

/-- `put` by the index of the first match. -/
theorem put_eq_findIdx? (e : α) (l : List α) :
    put p e l = match l.findIdx? p with
      | some i => l.set i e
      | none => l ++ [e] := by
  induction l with
  | nil => rfl
  | cons a l ih =>
    cases h : p a with
    | true => simp [put, h, List.findIdx?_cons]
    | false =>
      rw [put_cons_of_neg h, ih, List.findIdx?_cons, h]
      cases l.findIdx? p <;> simp

/-! ## The stacks of entries -/

/-- A writer replaces the top of its own stack. -/
theorem filter_put_self {e : α} (he : p e = true) (l : List α) :
    (put p e l).filter p = e :: (l.filter p).tail := by
  induction l with
  | nil => simp [he]
  | cons a l ih =>
    cases ha : p a with
    | true => simp [put, ha, he]
    | false => simp [put, ha, ih]

theorem filter_put_of_apart (h : Apart p q) {e : α} (he : p e = true) (l : List α) :
    (put p e l).filter q = l.filter q := by
  induction l with
  | nil => simp [h e he]
  | cons a l ih =>
    cases ha : p a with
    | true => simp [put, ha, h e he, h a ha]
    | false => rw [put_cons_of_neg ha, List.filter_cons, List.filter_cons, ih]

/-- A deletion pops its own stack. -/
theorem filter_eraseP_self (l : List α) : (l.eraseP p).filter p = (l.filter p).tail := by
  induction l with
  | nil => rfl
  | cons a l ih =>
    cases ha : p a with
    | true => simp [ha]
    | false => simp [ha, ih]

theorem filter_eraseP_of_apart (h : Apart p q) (l : List α) :
    (l.eraseP p).filter q = l.filter q := by
  induction l with
  | nil => rfl
  | cons a l ih =>
    cases ha : p a with
    | true => simp [ha, h a ha]
    | false => rw [List.eraseP_cons_of_neg (by simp [ha]), List.filter_cons, List.filter_cons, ih]

/-! ## What the other entries keep -/

/-- Writing a key and deleting it is deleting it: the entries below the first match stay. -/
theorem eraseP_put_self {e : α} (he : p e = true) (l : List α) :
    (put p e l).eraseP p = l.eraseP p := by
  induction l with
  | nil => simp [he]
  | cons a l ih =>
    cases ha : p a with
    | true => simp [put, ha, he]
    | false =>
      have hna : ¬ p a = true := by simp [ha]
      rw [put_cons_of_neg ha, List.eraseP_cons_of_neg hna, ih, List.eraseP_cons_of_neg hna]

theorem eraseP_put_of_apart (h : Apart p q) {e : α} (he : p e = true) (l : List α) :
    (put p e l).eraseP q = put p e (l.eraseP q) := by
  induction l with
  | nil => simp [h e he]
  | cons a l ih =>
    cases hp : p a with
    | true => simp [put, hp, h e he, h a hp]
    | false =>
      rw [put_cons_of_neg hp]
      cases hq : q a with
      | true => simp [hq]
      | false =>
        have hnq : ¬ q a = true := by simp [hq]
        rw [List.eraseP_cons_of_neg hnq, ih, List.eraseP_cons_of_neg hnq, put_cons_of_neg hp]

/-! ## Searches -/

/-- When at most one member is looked for, a search finds it. -/
theorem find?_eq_some_iff_of_unique {l : List α}
    (hunique : ∀ x ∈ l, ∀ y ∈ l, p x = true → p y = true → x = y) {x : α} :
    l.find? p = some x ↔ x ∈ l ∧ p x = true := by
  constructor
  · exact fun h => ⟨List.mem_of_find?_eq_some h, List.find?_some h⟩
  · rintro ⟨hx, hpx⟩
    cases hfind : l.find? p with
    | none => exact absurd hpx (List.find?_eq_none.mp hfind x hx)
    | some y =>
      exact congrArg some
        (hunique y (List.mem_of_find?_eq_some hfind) x hx (List.find?_some hfind) hpx)

end Foundations.FirstMatch

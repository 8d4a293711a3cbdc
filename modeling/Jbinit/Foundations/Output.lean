import Jbinit.Foundations.Memory

/-!
# Output

A sink takes an element, its index and how many elements there is room for. `emits` gives it a list,
one element after the other. A sink that keeps what fits in a memory ends with the beginning of the
list in it, and nothing else (`emits_bounded`).
-/

namespace Foundations.Output

open Memory

variable {S α : Type}

/-- An output function. -/
abbrev Sink (S α : Type) := α → S → ℕ → ℕ → S

/-- One element, at the index. -/
def emit (out : Sink S α) (maxlen : ℕ) (st : S × ℕ) (a : α) : S × ℕ :=
  (out a st.1 st.2 maxlen, st.2 + 1)

def emits (out : Sink S α) (maxlen : ℕ) (st : S × ℕ) (l : List α) : S × ℕ :=
  l.foldl (emit out maxlen) st

variable {out : Sink S α} {maxlen : ℕ}

@[simp] theorem emits_nil (st : S × ℕ) : emits out maxlen st [] = st := rfl

@[simp] theorem emits_cons (st : S × ℕ) (a : α) (l : List α) :
    emits out maxlen st (a :: l) = emits out maxlen (emit out maxlen st a) l := rfl

theorem emits_append (st : S × ℕ) (l l' : List α) :
    emits out maxlen st (l ++ l') = emits out maxlen (emits out maxlen st l) l' :=
  List.foldl_append

@[simp] theorem emit_snd (st : S × ℕ) (a : α) : (emit out maxlen st a).2 = st.2 + 1 := rfl

@[simp] theorem emits_snd (st : S × ℕ) (l : List α) :
    (emits out maxlen st l).2 = st.2 + l.length := by
  induction l generalizing st with
  | nil => rfl
  | cons a l ih =>
    rw [emits_cons, ih, emit_snd, List.length_cons]
    omega

/-! ## A memory with room for some elements -/

/-- The elements go to an address and those after it. -/
def bounded (base : ℕ) : Sink (ℕ → α) α :=
  fun a mem i maxlen => if i < maxlen then Function.update mem (base + i) a else mem

/-- **What fits is stored**, and nothing else. -/
theorem emits_bounded (base : ℕ) (mem : ℕ → α) (i : ℕ) (l : List α) :
    (emits (bounded base) maxlen (mem, i) l).1 = store mem (base + i) (l.take (maxlen - i)) := by
  induction l generalizing mem i with
  | nil => simp
  | cons a l ih =>
    rw [emits_cons, emit, ih]
    by_cases h : i < maxlen
    · have hone : (a :: l).take (maxlen - i) = [a] ++ l.take (maxlen - (i + 1)) := by
        rw [show maxlen - i = maxlen - (i + 1) + 1 by omega, List.take_succ_cons, List.singleton_append]
      rw [hone, store_append, store_singleton]
      simp only [bounded, if_pos h, List.length_singleton, Nat.add_assoc]
    · rw [show maxlen - i = 0 by omega, show maxlen - (i + 1) = 0 by omega]
      simp only [bounded, if_neg h, List.take_zero, store_nil]

end Foundations.Output

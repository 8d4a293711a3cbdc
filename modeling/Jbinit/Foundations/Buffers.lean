import Mathlib.Data.List.Basic
import Mathlib.Tactic.Common

/-!
# Arrays of a fixed size

An array whose size is part of its type. A `write` that does not fit is refused. Writes one behind
the other put their lists one behind the other (`Begins.write`), and what stands before the
terminator is then the text (`Begins.text`).
-/

namespace Foundations

structure Buffer (α : Type*) (n : ℕ) where
  cells : List α
  length_cells : cells.length = n

namespace Buffer

variable {α : Type*} {n : ℕ} {xs : List α} {buf : Buffer α n}

/-- Put the elements at an index and after it; `none` when they do not fit. -/
def write (buf : Buffer α n) (i : ℕ) (ys : List α) : Option (Buffer α n) :=
  if h : i + ys.length ≤ n then
    some
      { cells := buf.cells.take i ++ ys ++ buf.cells.drop (i + ys.length)
        length_cells := by
          have hlength := buf.length_cells
          simp only [List.length_append, List.length_take, List.length_drop]
          omega }
  else none

/-- The elements before the first terminator. -/
def text [BEq α] (stop : α) (buf : Buffer α n) : List α := buf.cells.takeWhile (· != stop)

def Begins (xs : List α) (buf : Buffer α n) : Prop := xs <+: buf.cells

theorem begins_nil (buf : Buffer α n) : Begins [] buf := List.nil_prefix

theorem Begins.write (h : Begins xs buf) (ys : List α) (hfits : xs.length + ys.length ≤ n) :
    ∃ buf', buf.write xs.length ys = some buf' ∧ Begins (xs ++ ys) buf' := by
  refine ⟨_, dif_pos hfits, ?_⟩
  obtain ⟨zs, hzs⟩ := h
  have htake : buf.cells.take xs.length = xs := by
    rw [← hzs, List.take_left]
  show xs ++ ys <+: buf.cells.take xs.length ++ ys ++ buf.cells.drop (xs.length + ys.length)
  rw [htake]
  exact List.prefix_append ..

theorem Begins.text [BEq α] [LawfulBEq α] {stop : α} (h : Begins (xs ++ [stop]) buf)
    (hstop : stop ∉ xs) : buf.text stop = xs := by
  obtain ⟨zs, hzs⟩ := h
  have hxs : ∀ x ∈ xs, (x != stop) = true := fun x hx =>
    bne_iff_ne.mpr (ne_of_mem_of_not_mem hx hstop)
  rw [Buffer.text, ← hzs, List.append_assoc, List.takeWhile_append_of_pos hxs]
  simp

end Buffer

end Foundations

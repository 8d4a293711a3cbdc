import Mathlib.Data.Nat.Notation
import Mathlib.Logic.Function.Basic

/-!
# Memories of words

A memory has a word at every address, and addresses count words. `write` stores a list of words from
an address on, `Holds` says that they are there, and `IsZero` that a number of words are zero.
-/

namespace Foundations.Words

abbrev Memory (w : ℕ) := ℕ → BitVec w

variable {w : ℕ} {m m' : Memory w} {a b n : ℕ} {xs : List (BitVec w)}

def write (m : Memory w) (a : ℕ) : List (BitVec w) → Memory w
  | [] => m
  | x :: xs => write (Function.update m a x) (a + 1) xs

theorem write_of_outside (h : b < a ∨ a + xs.length ≤ b) : write m a xs b = m b := by
  induction xs generalizing m a with
  | nil => rfl
  | cons x xs ih =>
    rw [List.length_cons] at h
    have hne : b ≠ a := by omega
    rw [write, ih (by omega), Function.update_of_ne hne]

theorem write_of_lt {k : ℕ} (h : k < xs.length) : write m a xs (a + k) = xs[k] := by
  induction xs generalizing m a k with
  | nil => cases h
  | cons x xs ih =>
    rw [write]
    cases k with
    | zero =>
      rw [write_of_outside (by omega), Nat.add_zero, Function.update_self]
      rfl
    | succ k =>
      have hadd : a + (k + 1) = a + 1 + k := by omega
      rw [hadd, ih (by simpa using h)]
      rfl

/-- The words are in the memory, from the address on. -/
def Holds (m : Memory w) (a : ℕ) (xs : List (BitVec w)) : Prop :=
  ∀ k (h : k < xs.length), m (a + k) = xs[k]

theorem holds_write (m : Memory w) (a : ℕ) (xs : List (BitVec w)) : Holds (write m a xs) a xs :=
  fun _ h => write_of_lt h

/-- Memories that agree on the words hold the same. -/
theorem Holds.congr (h : Holds m a xs) (heq : ∀ k < xs.length, m' (a + k) = m (a + k)) :
    Holds m' a xs :=
  fun k hk => (heq k hk).trans (h k hk)

/-- Two lists of one length in one place are the same. -/
theorem Holds.getElem_eq {ys : List (BitVec w)} (h : Holds m a xs) (h' : Holds m a ys) {k : ℕ}
    (hk : k < xs.length) (hk' : k < ys.length) : xs[k] = ys[k] :=
  (h k hk).symm.trans (h' k hk')

/-- The words from the address on are zero. -/
def isZero (m : Memory w) (n a : ℕ) : Bool := (List.range n).all fun k => m (a + k) == 0

theorem isZero_iff : isZero m n a = true ↔ ∀ k < n, m (a + k) = 0 := by
  simp [isZero]

/-- Only which words are zero matters. -/
theorem isZero_congr (h : ∀ a, m a = 0 ↔ m' a = 0) (n a : ℕ) : isZero m n a = isZero m' n a := by
  rw [Bool.eq_iff_iff, isZero_iff, isZero_iff]
  simp only [h]

/-! ## Bytes -/

/-- The 32-bit word at an address of a memory of bytes, the least significant byte first. -/
def u32 (m : Memory 8) (a : ℕ) : BitVec 32 := m (a + 3) ++ m (a + 2) ++ m (a + 1) ++ m a

def u64 (m : Memory 8) (a : ℕ) : BitVec 64 := u32 m (a + 4) ++ u32 m a

/-- The bytes of a memory of words, the least significant byte first. -/
def bytes (m : Memory 32) : Memory 8 := fun a => (m (a / 4)).extractLsb' (8 * (a % 4)) 8

end Foundations.Words

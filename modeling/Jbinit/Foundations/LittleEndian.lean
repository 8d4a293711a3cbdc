import Mathlib.Algebra.Group.Nat.Defs
import Mathlib.Data.Nat.Notation
import Mathlib.Tactic.Common

/-!
# Numbers as bytes

The bytes of a number, the least significant one first, and the number of a list of bytes.
-/

namespace Foundations.LittleEndian

abbrev Byte := BitVec 8

/-- The `n` low bytes of a number. -/
def toBytes : ℕ → ℕ → List Byte
  | 0, _ => []
  | n + 1, x => BitVec.ofNat 8 x :: toBytes n (x / 256)

def ofBytes : List Byte → ℕ
  | [] => 0
  | b :: bs => b.toNat + 256 * ofBytes bs

@[simp] theorem length_toBytes (n x : ℕ) : (toBytes n x).length = n := by
  induction n generalizing x with
  | zero => rfl
  | succ n ih => rw [toBytes, List.length_cons, ih]

theorem ofBytes_toBytes {n x : ℕ} (h : x < 256 ^ n) : ofBytes (toBytes n x) = x := by
  induction n generalizing x with
  | zero =>
    rw [Nat.pow_zero] at h
    rw [toBytes, ofBytes]
    omega
  | succ n ih =>
    rw [Nat.pow_succ] at h
    rw [toBytes, ofBytes, ih (by omega), BitVec.toNat_ofNat]
    omega

/-- The bytes of a word read back. -/
theorem ofNat_ofBytes_toBytes {n : ℕ} (x : BitVec (8 * n)) :
    BitVec.ofNat (8 * n) (ofBytes (toBytes n x.toNat)) = x := by
  have hlt : x.toNat < 256 ^ n := by
    have h := x.isLt
    rwa [Nat.pow_mul] at h
  rw [ofBytes_toBytes hlt, BitVec.ofNat_toNat, BitVec.setWidth_eq]

end Foundations.LittleEndian

import Mathlib.Algebra.Group.Int.Defs
import Mathlib.Data.Int.Init
import Mathlib.Data.Nat.Notation

/-!
# Branches of AArch64

The instructions are words of 32 bits. `decodeBranch` reads the branches to an address, `B` and
`BL`, and `branchRegister` those to the address in a register, `BR` and `BLR`. The lemmas are on
immediates of 26 bits that are or-ed into an instruction.
-/

namespace Foundations.Arm64

abbrev Word := BitVec 32

/-- A branch with an immediate: whether it links, and its offset in words. -/
def decodeBranch (w : Word) : Option (Bool × ℤ) :=
  if w &&& 0x7c000000#32 = 0x14000000#32 then some (w.msb, (w.extractLsb' 0 26).toInt) else none

/-- A branch to a register: whether it links, and the register. -/
def branchRegister (w : Word) : Option (Bool × BitVec 5) :=
  if w &&& 0xffdffc1f#32 = 0xd61f0000#32 then some (w.getLsbD 21, w.extractLsb' 5 5) else none

variable {w : Word}

theorem branchRegister_isSome : (branchRegister w).isSome = true ↔
    w &&& 0xffdffc1f#32 = 0xd61f0000#32 := by
  unfold branchRegister
  split <;> simp [*]

/-- No branch is of both kinds. -/
theorem decodeBranch_of_branchRegister (h : (branchRegister w).isSome = true) :
    decodeBranch w = none := by
  have hopcode : w &&& 0x7c000000#32 = 0x54000000#32 := by
    have hmask : (0x7c000000#32) = 0xffdffc1f#32 &&& 0x7c000000#32 := by decide
    rw [hmask, ← BitVec.and_assoc, branchRegister_isSome.mp h]
    decide
  rw [decodeBranch, hopcode, if_neg (by decide)]

theorem branchRegister_of_decodeBranch (h : (decodeBranch w).isSome = true) :
    branchRegister w = none := by
  cases hw : branchRegister w with
  | none => rfl
  | some r =>
    rw [decodeBranch_of_branchRegister (by rw [hw]; rfl)] at h
    cases h

theorem ne_zero_of_branchRegister (h : (branchRegister w).isSome = true) : w ≠ 0#32 := by
  rintro rfl
  exact absurd h (by decide)

theorem ne_zero_of_decodeBranch (h : (decodeBranch w).isSome = true) : w ≠ 0#32 := by
  rintro rfl
  exact absurd h (by decide)

/-- A word that ends in a one is no branch to a register. -/
theorem branchRegister_of_odd (h : w.getLsbD 0 = true) : branchRegister w = none := by
  cases hw : branchRegister w with
  | none => rfl
  | some r =>
    have hword := branchRegister_isSome.mp (by rw [hw]; rfl)
    have hbit := congrArg (fun w => BitVec.getLsbD w 0) hword
    rw [BitVec.getLsbD_and, h] at hbit
    exact absurd hbit (by decide)

/-! ## Immediates -/

theorem getElem_imm (x : Word) {i : ℕ} (hi : i < 32) :
    (x <<< 6 >>> 6)[i] = (decide (i < 26) && x[i]) := by
  by_cases h : i < 26
  · have hadd : 6 + i < 32 := by omega
    simp [h, hadd]
  · have hadd : 32 ≤ 6 + i := by omega
    simp [h, hadd]

/-- An immediate leaves the upper bits alone. -/
theorem imm_and (x : Word) : x <<< 6 >>> 6 &&& 0x7c000000#32 = 0#32 := by
  have hmask : ∀ i (hi : i < 32), i < 26 → (0x7c000000#32)[i] = false := by decide
  ext i hi
  rw [BitVec.getElem_and, getElem_imm]
  by_cases h : i < 26
  · simp [hmask i hi h]
  · simp [h]

theorem msb_imm (x : Word) : (x <<< 6 >>> 6).msb = false := by
  rw [BitVec.msb_eq_getLsbD_last]
  simp

theorem extract_imm (x : Word) : (x <<< 6 >>> 6).extractLsb' 0 26 = x.extractLsb' 0 26 := by
  ext i hi
  have hi' : i < 32 := by omega
  simp only [BitVec.getElem_extractLsb', Nat.zero_add]
  rw [BitVec.getLsbD_eq_getElem hi', BitVec.getLsbD_eq_getElem hi', getElem_imm]
  simp [hi]

/-- The low bits of an offset, read as a signed number. -/
theorem toInt_extract_ofInt {d : ℤ} (h : -2 ^ 25 ≤ d) (h' : d < 2 ^ 25) :
    ((BitVec.ofInt 32 d).extractLsb' 0 26).toInt = d := by
  have hoffset : (BitVec.ofInt 32 d).extractLsb' 0 26 = BitVec.ofInt 26 d := by
    apply BitVec.eq_of_toNat_eq
    simp only [BitVec.toNat_ofInt, BitVec.extractLsb'_toNat, Nat.shiftRight_zero]
    omega
  rw [hoffset, BitVec.toInt_ofInt_eq_self (by decide) h h']

end Foundations.Arm64

import Mathlib.Data.Nat.Basic
import Mathlib.Tactic.Common
import Mathlib.Tactic.IntervalCases

/-!
# Numerals

Reading a number in a base up to 36 from the front of a string, as `strtoull` does, and the round
trip of the digits that `Nat.toDigits` writes (`readDigits_toDigits`).
-/

namespace Foundations.Numerals

/-- The value of a digit or letter. -/
def digitValue (c : Char) : Option ℕ :=
  if c.isDigit then some (c.toNat - '0'.toNat)
  else if c.isLower then some (c.toNat - 'a'.toNat + 10)
  else if c.isUpper then some (c.toNat - 'A'.toNat + 10)
  else none

def isDigitOf (base : ℕ) (c : Char) : Bool :=
  match digitValue c with
  | some d => decide (d < base)
  | none => false

/-- The value of the digits up to the first character that is none, after digits with the value
`acc`. -/
def readDigits (base : ℕ) : ℕ → List Char → ℕ
  | acc, [] => acc
  | acc, c :: l =>
    match digitValue c with
    | some d => if d < base then readDigits base (acc * base + d) l else acc
    | none => acc

variable {base : ℕ}

theorem readDigits_append {l l' : List Char} (h : ∀ c ∈ l, isDigitOf base c = true) (acc : ℕ) :
    readDigits base acc (l ++ l') = readDigits base (readDigits base acc l) l' := by
  induction l generalizing acc with
  | nil => rfl
  | cons c l ih =>
    have hc := h c List.mem_cons_self
    unfold isDigitOf at hc
    rw [List.cons_append, readDigits, readDigits]
    cases hd : digitValue c with
    | none => simp [hd] at hc
    | some d =>
      have hlt : d < base := by simpa [hd] using hc
      simp only [if_pos hlt]
      exact ih (fun c' hc' => h c' (List.mem_cons_of_mem c hc')) _

/-- The bytes of the decimal digits. -/
theorem isDigit_iff (c : Char) : c.isDigit = true ↔ 48 ≤ c.toNat ∧ c.toNat ≤ 57 := by
  simp [Char.isDigit, UInt32.le_iff_toNat_le, ← Char.toNat_val]

/-- The digits of base ten are no letters. -/
theorem isDigitOf_ten (c : Char) : isDigitOf 10 c = c.isDigit := by
  unfold isDigitOf digitValue
  cases hdigit : c.isDigit with
  | true =>
    have hle := (isDigit_iff c).mp hdigit
    have hzero : '0'.toNat = 48 := rfl
    simp only [if_true, decide_eq_true_eq]
    omega
  | false => cases c.isLower <;> cases c.isUpper <;> simp

theorem le_readDigits (hbase : 0 < base) (acc : ℕ) (l : List Char) : acc ≤ readDigits base acc l := by
  induction l generalizing acc with
  | nil => rfl
  | cons c l ih =>
    rw [readDigits]
    cases digitValue c with
    | none => rfl
    | some d =>
      by_cases hlt : d < base
      · have hacc : acc ≤ acc * base := Nat.le_mul_of_pos_right acc hbase
        have hread := ih (acc * base + d)
        simp only [if_pos hlt]
        omega
      · simp only [if_neg hlt, le_refl]

/-- Nothing is read of a list that does not begin with a digit. -/
theorem readDigits_of_head {l : List Char} (h : ∀ c ∈ l.head?, isDigitOf base c = false) (acc : ℕ) :
    readDigits base acc l = acc := by
  cases l with
  | nil => rfl
  | cons c l =>
    have hc := h c rfl
    unfold isDigitOf at hc
    rw [readDigits]
    cases hd : digitValue c with
    | none => rfl
    | some d =>
      have hle : ¬d < base := by simpa [hd] using hc
      simp only [if_neg hle]

theorem digitValue_digitChar {d : ℕ} (h : d < 16) : digitValue d.digitChar = some d := by
  interval_cases d <;> rfl

theorem isDigitOf_digitChar (hbase : base ≤ 16) {d : ℕ} (h : d < base) :
    isDigitOf base d.digitChar = true := by
  unfold isDigitOf
  rw [digitValue_digitChar (by omega)]
  exact decide_eq_true h

/-- Digits come in groups: the last one, and those of the quotient. -/
theorem toDigits_isDigitOf (hbase : base ≤ 16) (htwo : 1 < base) (n : ℕ) :
    ∀ c ∈ Nat.toDigits base n, isDigitOf base c = true := by
  induction n using Nat.strongRecOn with
  | ind n ih =>
    intro c hc
    by_cases h : n < base
    · rw [Nat.toDigits_of_lt_base h, List.mem_singleton] at hc
      rw [hc]
      exact isDigitOf_digitChar hbase h
    · rw [Nat.toDigits_of_base_le htwo (not_lt.mp h), List.mem_append, List.mem_singleton] at hc
      rcases hc with hc | rfl
      · exact ih _ (Nat.div_lt_self (by omega) htwo) c hc
      · exact isDigitOf_digitChar hbase (Nat.mod_lt _ (by omega))

theorem readDigits_digitChar (hbase : base ≤ 16) {d : ℕ} (h : d < base) (acc : ℕ) :
    readDigits base acc [d.digitChar] = acc * base + d := by
  rw [readDigits, digitValue_digitChar (by omega)]
  exact if_pos h

/-- The digits of a number read back. -/
theorem readDigits_toDigits (hbase : base ≤ 16) (htwo : 1 < base) (n : ℕ) :
    readDigits base 0 (Nat.toDigits base n) = n := by
  induction n using Nat.strongRecOn with
  | ind n ih =>
    by_cases h : n < base
    · rw [Nat.toDigits_of_lt_base h, readDigits_digitChar hbase h]
      omega
    · rw [Nat.toDigits_of_base_le htwo (not_lt.mp h),
        readDigits_append (toDigits_isDigitOf hbase htwo _),
        ih _ (Nat.div_lt_self (by omega) htwo), readDigits_digitChar hbase (Nat.mod_lt _ (by omega))]
      exact Nat.div_add_mod' n base

/-- **Reading inverts writing**, in front of anything that does not begin with a digit. -/
theorem readDigits_toDigits_append (hbase : base ≤ 16) (htwo : 1 < base) (n : ℕ) {l : List Char}
    (h : ∀ c ∈ l.head?, isDigitOf base c = false) :
    readDigits base 0 (Nat.toDigits base n ++ l) = n := by
  rw [readDigits_append (toDigits_isDigitOf hbase htwo n), readDigits_toDigits hbase htwo,
    readDigits_of_head h]

end Foundations.Numerals

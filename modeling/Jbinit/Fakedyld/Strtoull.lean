import Jbinit.Fakedyld.PrintfInteger
import Mathlib.Data.List.TakeWhile

/-!
# `strtoull`

fakedyld's own `strtoull` stops at a lower case letter: its `isupper` compares with `'Z'` twice with
the same sign, so that a lower case letter has a value of 42 or more. For a text without upper case
letters it reads the decimal digits of its base (`strtoull_eq`), with the overflow that the standard
asks for. So it reads back what `%llu` has put out, and what `0x%llx` has put out exactly when there
is no letter in it (`strtoull_formatText`).
-/

namespace Jbinit.Fakedyld

open Foundations Numerals

def isspace (c : Char) : Bool :=
  c = '\t' || c = '\n' || c = Char.ofNat 11 || c = Char.ofNat 12 || c = '\r' || c = ' '

def isalpha (c : Char) : Bool :=
  (decide ('a'.toNat ≤ c.toNat) && decide (c.toNat ≤ 'z'.toNat)) ||
    (decide ('A'.toNat ≤ c.toNat) && decide (c.toNat ≤ 'Z'.toNat))

def isupper (c : Char) : Bool := decide ('A'.toNat ≤ c.toNat) && decide ('Z'.toNat ≤ c.toNat)

def ullongMax : ℕ := 2 ^ 64 - 1

/-- The value of a character, in an `int`. -/
def strtoullDigit (c : Char) : Option ℤ :=
  if isdigit c then some (c.toNat - '0'.toNat)
  else if isalpha c then
    some (c.toNat - if isupper c then ('A'.toNat : ℤ) - 10 else ('a'.toNat : ℤ) - 10)
  else none

/-- The loop of `strtoull`; the result has `any`, `acc` and what is left of the string. -/
def strtoullLoop (base : ℕ) : ℤ → BitVec 64 → CStr → ℤ × BitVec 64 × CStr
  | any, acc, [] => (any, acc, [])
  | any, acc, c :: s =>
    match strtoullDigit c with
    | none => (any, acc, c :: s)
    | some d =>
      if (base : ℤ) ≤ d then (any, acc, c :: s)
      else if any < 0 ∨ ullongMax / base < acc.toNat ∨
          acc.toNat = ullongMax / base ∧ ((ullongMax % base : ℕ) : ℤ) < d then
        strtoullLoop base (-1) acc s
      else strtoullLoop base 1 (acc * BitVec.ofNat 64 base + BitVec.ofInt 64 d) s

def strtoullSign : CStr → Bool × CStr
  | '-' :: s => (true, s)
  | '+' :: s => (false, s)
  | s => (false, s)

/-- The base that a prefix asks for, and what is behind the prefix. -/
def strtoullBase (base : ℕ) : CStr → ℕ × CStr
  | '0' :: x :: t =>
    if (base = 0 ∨ base = 16) ∧ (x = 'x' ∨ x = 'X') then (16, t) else (base, '0' :: x :: t)
  | s => (base, s)

/-- The sign, the base and the digits. -/
def strtoullParts (nptr : CStr) (base : ℕ) : Bool × ℕ × CStr :=
  let (neg, s) := strtoullSign (nptr.dropWhile isspace)
  let (base, s) := strtoullBase base s
  (neg, if base = 0 then if s.head? = some '0' then 8 else 10 else base, s)

/-- `strtoull`, with what `endptr` points to. -/
def strtoull (nptr : CStr) (base : ℕ) : BitVec 64 × CStr :=
  let (neg, base, s) := strtoullParts nptr base
  let (any, acc, s) := strtoullLoop base 0 0#64 s
  let acc := if any < 0 then BitVec.ofNat 64 ullongMax else if neg then -acc else acc
  (acc, if any ≠ 0 then s else nptr)

/-! ## What it reads -/

/-- A decimal digit of the base. -/
def isDecimal (base : ℕ) (c : Char) : Bool := isdigit c && decide (c.toNat - '0'.toNat < base)

def isUpperLetter (c : Char) : Bool := decide ('A'.toNat ≤ c.toNat) && decide (c.toNat ≤ 'Z'.toNat)

/-- The number that the decimal digits have. -/
def decimalValue (base : ℕ) (s : CStr) : ℕ := readDigits base 0 (s.takeWhile (isDecimal base))

variable {base : ℕ}

theorem strtoullDigit_of_isdigit {c : Char} (h : isdigit c = true) :
    strtoullDigit c = some ((c.toNat - '0'.toNat : ℕ) : ℤ) := by
  rw [strtoullDigit, if_pos h]
  rw [isdigit, Bool.and_eq_true, decide_eq_true_eq] at h
  congr 1
  omega

/-- A lower case letter has a value that is no digit of any base. -/
theorem le_of_strtoullDigit {c : Char} (hdigit : isdigit c = false) (hupper : isUpperLetter c = false)
    {d : ℤ} (h : strtoullDigit c = some d) : 36 ≤ d := by
  rw [strtoullDigit, if_neg (by simp [hdigit])] at h
  split at h
  case isFalse => cases h
  case isTrue halpha =>
    have hA : 'A'.toNat = 65 := rfl
    have hZ : 'Z'.toNat = 90 := rfl
    have ha : 'a'.toNat = 97 := rfl
    have hz : 'z'.toNat = 122 := rfl
    simp only [isalpha, Bool.or_eq_true, Bool.and_eq_true, decide_eq_true_eq] at halpha
    simp only [isUpperLetter, Bool.and_eq_false_iff, decide_eq_false_iff_not] at hupper
    have hisupper : isupper c = true := by
      simp only [isupper, Bool.and_eq_true, decide_eq_true_eq]
      omega
    rw [if_pos hisupper] at h
    have hd := Option.some.inj h
    omega

theorem digitValue_of_isDecimal {c : Char} (h : isDecimal base c = true) :
    digitValue c = some (c.toNat - '0'.toNat) ∧ c.toNat - '0'.toNat < base := by
  rw [isDecimal, Bool.and_eq_true, decide_eq_true_eq, isdigit_eq, isDigitOf_ten] at h
  exact ⟨if_pos h.1, h.2⟩

theorem isDecimal_iff (c : Char) :
    isDecimal base c = true ↔ isdigit c = true ∧ c.toNat - '0'.toNat < base := by
  rw [isDecimal, Bool.and_eq_true, decide_eq_true_eq]

/-- The loop stops at a character that is no decimal digit of the base. -/
theorem strtoullLoop_of_not (hbase : base ≤ 36) {c : Char} (hupper : isUpperLetter c = false)
    (h : isDecimal base c = false) (any : ℤ) (acc : BitVec 64) (s : CStr) :
    strtoullLoop base any acc (c :: s) = (any, acc, c :: s) := by
  rw [strtoullLoop]
  cases hdigit : isdigit c with
  | true =>
    have hle : base ≤ c.toNat - '0'.toNat := by
      by_contra hlt
      rw [(isDecimal_iff c).mpr ⟨hdigit, not_le.mp hlt⟩] at h
      cases h
    rw [strtoullDigit_of_isdigit hdigit]
    exact if_pos (by exact_mod_cast hle)
  | false =>
    cases hd : strtoullDigit c with
    | none => rfl
    | some d =>
      have hle := le_of_strtoullDigit hdigit hupper hd
      exact if_pos (by omega)

/-- The test for an overflow is exact. -/
theorem overflows_iff {a d : ℕ} (hd : d < base) :
    (ullongMax / base < a ∨ a = ullongMax / base ∧ ((ullongMax % base : ℕ) : ℤ) < d) ↔
      2 ^ 64 ≤ a * base + d := by
  have hmod : ullongMax % base < base := Nat.mod_lt _ (by omega)
  have hmax : ullongMax / base * base + ullongMax % base + 1 = 2 ^ 64 := by
    rw [Nat.div_add_mod']
    rfl
  rw [Nat.cast_lt]
  rcases Nat.lt_trichotomy a (ullongMax / base) with hlt | rfl | hgt
  · have hle : (a + 1) * base ≤ ullongMax / base * base := Nat.mul_le_mul_right _ hlt
    rw [Nat.add_mul, Nat.one_mul] at hle
    omega
  · omega
  · have hle : (ullongMax / base + 1) * base ≤ a * base := Nat.mul_le_mul_right _ hgt
    rw [Nat.add_mul, Nat.one_mul] at hle
    omega

/-- The loop at a decimal digit of the base. -/
theorem strtoullLoop_of_isDecimal {c : Char} (h : isDecimal base c = true) (any : ℤ)
    (acc : BitVec 64) (s : CStr) :
    strtoullLoop base any acc (c :: s) =
      if any < 0 ∨ 2 ^ 64 ≤ acc.toNat * base + (c.toNat - '0'.toNat) then strtoullLoop base (-1) acc s
      else strtoullLoop base 1
        (BitVec.ofNat 64 (acc.toNat * base + (c.toNat - '0'.toNat))) s := by
  obtain ⟨hdigit, hlt⟩ := (isDecimal_iff c).mp h
  have hnext : acc * BitVec.ofNat 64 base + BitVec.ofInt 64 ((c.toNat - '0'.toNat : ℕ) : ℤ) =
      BitVec.ofNat 64 (acc.toNat * base + (c.toNat - '0'.toNat)) := by
    rw [BitVec.ofInt_natCast, BitVec.ofNat_add, BitVec.ofNat_mul, BitVec.ofNat_toNat,
      BitVec.setWidth_eq]
  rw [strtoullLoop, strtoullDigit_of_isdigit hdigit]
  dsimp only
  rw [if_neg (by exact_mod_cast not_le.mpr hlt), hnext]
  simp only [overflows_iff hlt]

/-- The loop after an overflow. -/
theorem strtoullLoop_neg (hbase : base ≤ 36) (acc : BitVec 64) {s : CStr}
    (hupper : ∀ c ∈ s, isUpperLetter c = false) :
    strtoullLoop base (-1) acc s = (-1, acc, s.dropWhile (isDecimal base)) := by
  induction s with
  | nil => rfl
  | cons c s ih =>
    rw [List.forall_mem_cons] at hupper
    cases h : isDecimal base c with
    | true =>
      rw [strtoullLoop_of_isDecimal h, if_pos (.inl (by decide)), List.dropWhile_cons_of_pos h]
      exact ih hupper.2
    | false =>
      rw [strtoullLoop_of_not hbase hupper.1 h, List.dropWhile_cons_of_neg (by simp [h])]

theorem readDigits_cons_of_isDecimal {c : Char} (h : isDecimal base c = true) (a : ℕ) (s : CStr) :
    readDigits base a (c :: s) = readDigits base (a * base + (c.toNat - '0'.toNat)) s := by
  obtain ⟨hvalue, hlt⟩ := digitValue_of_isDecimal h
  rw [readDigits, hvalue]
  exact if_pos hlt

theorem toNat_ofNat_of_lt {n : ℕ} (h : n < 2 ^ 64) : (BitVec.ofNat 64 n).toNat = n := by
  rw [BitVec.toNat_ofNat, Nat.mod_eq_of_lt h]

/-- **The loop reads a number that fits.** -/
theorem strtoullLoop_of_lt (hbase : base ≤ 36) (hpos : 0 < base) {any : ℤ} (hany : 0 ≤ any)
    (acc : BitVec 64) {s : CStr} (hupper : ∀ c ∈ s, isUpperLetter c = false)
    (h : readDigits base acc.toNat (s.takeWhile (isDecimal base)) < 2 ^ 64) :
    strtoullLoop base any acc s = (if s.takeWhile (isDecimal base) = [] then any else 1,
      BitVec.ofNat 64 (readDigits base acc.toNat (s.takeWhile (isDecimal base))),
      s.dropWhile (isDecimal base)) := by
  induction s generalizing any acc with
  | nil => simp [strtoullLoop, readDigits]
  | cons c s ih =>
    rw [List.forall_mem_cons] at hupper
    cases hc : isDecimal base c with
    | true =>
      rw [List.takeWhile_cons_of_pos hc, readDigits_cons_of_isDecimal hc] at h ⊢
      have hle := le_readDigits hpos (acc.toNat * base + (c.toNat - '0'.toNat))
        (s.takeWhile (isDecimal base))
      have hnat : (BitVec.ofNat 64 (acc.toNat * base + (c.toNat - '0'.toNat))).toNat =
          acc.toNat * base + (c.toNat - '0'.toNat) := toNat_ofNat_of_lt (by omega)
      rw [strtoullLoop_of_isDecimal hc, if_neg (by omega), ih (by decide) _ hupper.2 (by rwa [hnat]), hnat,
        List.dropWhile_cons_of_pos hc, ite_self, if_neg (List.cons_ne_nil _ _)]
    | false =>
      rw [strtoullLoop_of_not hbase hupper.1 hc, List.takeWhile_cons_of_neg (by simp [hc]),
        List.dropWhile_cons_of_neg (by simp [hc])]
      simp [readDigits]

theorem strtoullLoop_of_le (hbase : base ≤ 36) {any : ℤ} (hany : 0 ≤ any)
    (acc : BitVec 64) {s : CStr} (hupper : ∀ c ∈ s, isUpperLetter c = false)
    (h : 2 ^ 64 ≤ readDigits base acc.toNat (s.takeWhile (isDecimal base))) :
    ∃ acc', strtoullLoop base any acc s = (-1, acc', s.dropWhile (isDecimal base)) := by
  induction s generalizing any acc with
  | nil =>
    have hlt := acc.isLt
    rw [List.takeWhile_nil, readDigits] at h
    omega
  | cons c s ih =>
    rw [List.forall_mem_cons] at hupper
    cases hc : isDecimal base c with
    | true =>
      rw [List.takeWhile_cons_of_pos hc, readDigits_cons_of_isDecimal hc] at h
      rw [strtoullLoop_of_isDecimal hc, List.dropWhile_cons_of_pos hc]
      by_cases hover : 2 ^ 64 ≤ acc.toNat * base + (c.toNat - '0'.toNat)
      · rw [if_pos (.inr hover)]
        exact ⟨acc, strtoullLoop_neg hbase acc hupper.2⟩
      · have hnat : (BitVec.ofNat 64 (acc.toNat * base + (c.toNat - '0'.toNat))).toNat =
            acc.toNat * base + (c.toNat - '0'.toNat) := toNat_ofNat_of_lt (by omega)
        rw [if_neg (by omega)]
        exact ih (by decide) _ hupper.2 (by rwa [hnat])
    | false =>
      have hlt := acc.isLt
      rw [List.takeWhile_cons_of_neg (by simp [hc]), readDigits] at h
      omega

/-- **The number of the decimal digits**, `ULLONG_MAX` when it is too large, and where they end. -/
theorem strtoull_eq {nptr s : CStr} {base base' : ℕ} {neg : Bool}
    (hparts : strtoullParts nptr base = (neg, base', s)) (hpos : 0 < base') (hbase : base' ≤ 36)
    (hupper : ∀ c ∈ s, isUpperLetter c = false) :
    strtoull nptr base =
      (if 2 ^ 64 ≤ decimalValue base' s then BitVec.allOnes 64
        else if neg then -BitVec.ofNat 64 (decimalValue base' s)
        else BitVec.ofNat 64 (decimalValue base' s),
      if s.takeWhile (isDecimal base') = [] then nptr else s.dropWhile (isDecimal base')) := by
  unfold strtoull decimalValue
  rw [hparts]
  dsimp only
  by_cases hover : 2 ^ 64 ≤ readDigits base' 0 (s.takeWhile (isDecimal base'))
  · obtain ⟨acc, hloop⟩ := strtoullLoop_of_le hbase (Int.le_refl 0) 0#64 hupper hover
    have hne : s.takeWhile (isDecimal base') ≠ [] := by
      intro hnil
      rw [hnil, readDigits] at hover
      omega
    rw [hloop, if_pos hover, if_neg hne]
    rfl
  · have hloop := strtoullLoop_of_lt hbase hpos (Int.le_refl 0) 0#64 hupper (not_le.mp hover)
    rw [hloop, if_neg hover]
    by_cases hnil : s.takeWhile (isDecimal base') = []
    · simp [hnil]
    · simp [hnil]

/-! ## What `printf` has put out -/

open Printf

/-- A conversion without flags, width and precision that is the last of a format. -/
theorem formatText_last {format : CStr} {va va' : VaList} {c : Char} {value : ℕ} {negative : Bool}
    {long longLong : Bool}
    (hspec : evalSpec format va = some ⟨{ long := long, longLong := longLong }, 0, 0, [c], va⟩)
    (hc : c ∈ ['d', 'i', 'u', 'x', 'X', 'o', 'b']) (hbase : 8 ≤ baseOf c)
    (harg : integerArg c (integerFlags c { long := long, longLong := longLong }) va =
      some ((value, negative), va')) (hvalue : value < 2 ^ 64) :
    formatText ('%' :: format) va = some ((if negative then ['-'] else []) ++
      numeral (c = 'X') (baseOf c) value) := by
  rw [formatText_of_integer hspec rfl hc harg, formatText_nil, Option.map_some, List.append_nil,
    Integer.text_simple hbase hvalue rfl rfl rfl]
  simp [Integer.sign]

theorem formatText_llu (v : BitVec 64) :
    formatText "%llu".toList [.word v] = some (Nat.toDigits 10 v.toNat) := by
  have hspec : evalSpec "llu".toList [.word v] =
      some ⟨{ long := true, longLong := true }, 0, 0, ['u'], [.word v]⟩ := rfl
  have htext := formatText_last hspec (by decide) (by decide) rfl v.isLt
  rw [← numeral_false]
  exact htext

theorem formatText_append_llx (text : CStr) (h : '%' ∉ text) (v : BitVec 64) :
    formatText (text ++ "%llx".toList) [.word v] = some (text ++ Nat.toDigits 16 v.toNat) := by
  have hspec : evalSpec "llx".toList [.word v] =
      some ⟨{ long := true, longLong := true }, 0, 0, ['x'], [.word v]⟩ := rfl
  have hlast := formatText_last hspec (by decide) (by decide) rfl v.isLt
  rw [show text ++ "%llx".toList = text ++ '%' :: "llx".toList from rfl, formatText_append h, hlast,
    ← numeral_false]
  rfl

theorem formatText_llx (v : BitVec 64) :
    formatText "0x%llx".toList [.word v] = some ('0' :: 'x' :: Nat.toDigits 16 v.toNat) :=
  formatText_append_llx ['0', 'x'] (by decide) v

theorem formatText_d (v : BitVec 64) :
    formatText "%d".toList [.word v] =
      some ((if (v.setWidth 32).toInt < 0 then ['-'] else []) ++
        Nat.toDigits 10 (v.setWidth 32).toInt.natAbs) := by
  have hspec : evalSpec ['d'] [.word v] =
      some ⟨{ long := false, longLong := false }, 0, 0, ['d'], [.word v]⟩ := rfl
  have hlt : (magnitude (v.setWidth 32)).1 < 2 ^ 64 := by
    rw [magnitude_fst, BitVec.toInt_eq_toNat_cond]
    have hv := (v.setWidth 32).isLt
    split <;> omega
  have harg : integerArg 'd' (integerFlags 'd' { long := false, longLong := false }) [.word v] =
      some (((magnitude (v.setWidth 32)).1, (magnitude (v.setWidth 32)).2), []) := rfl
  have hnegative : (magnitude (v.setWidth 32)).2 = decide ((v.setWidth 32).toInt < 0) := rfl
  have htext := formatText_last hspec (by decide) (by decide) harg hlt
  rw [← numeral_false, ← magnitude_fst, show "%d".toList = '%' :: ['d'] from rfl, htext, hnegative]
  simp only [decide_eq_true_eq]
  rfl

/-! ## Reading it back -/

theorem isdigit_iff (c : Char) : isdigit c = true ↔ '0'.toNat ≤ c.toNat ∧ c.toNat ≤ '9'.toNat := by
  rw [isdigit, Bool.and_eq_true, decide_eq_true_eq, decide_eq_true_eq]

theorem isDecimal_ten (c : Char) : isDecimal 10 c = isdigit c := by
  have hiff : isDecimal 10 c = true ↔ isdigit c = true := by
    rw [isDecimal_iff, and_iff_left_iff_imp, isdigit_iff]
    have hzero : '0'.toNat = 48 := rfl
    have hnine : '9'.toNat = 57 := rfl
    omega
  exact Bool.eq_iff_iff.mpr hiff

/-- A digit behind a number, in an `int`. -/
theorem toInt_next (val : ℕ) {d e : ℕ} (h : e ≤ d) :
    toInt (10 * toInt val + (d - e)) = toInt ((val * 10 + (d - e) : ℕ) : ℤ) := by
  have hcast : ((val * 10 + (d - e) : ℕ) : ℤ) = 10 * (val : ℤ) + ((d : ℤ) - e) := by omega
  have hsub : 10 * toInt val + ((d : ℤ) - e) = 10 * (val : ℤ) + ((d : ℤ) - e) -
      ((2 ^ 32 : ℕ) : ℤ) * (10 * (val : ℤ).bdiv (2 ^ 32)) := by
    rw [toInt, Int.bmod_eq_self_sub_mul_bdiv]
    omega
  rw [hcast, hsub]
  exact Int.sub_mul_bmod_self_left _ _ _

/-- `atoi` computes in the numbers that an `int` has. -/
theorem atoiDigits_toInt (val : ℕ) (str : CStr) :
    atoiDigits (toInt val) str = toInt (readDigits 10 val str) := by
  induction str generalizing val with
  | nil => rfl
  | cons c str ih =>
    cases hdigit : isdigit c with
    | true =>
      have hread := readDigits_cons_of_isDecimal ((isDecimal_ten c).trans hdigit) val str
      rw [atoiDigits, hdigit, if_pos rfl, hread, toInt_next val ((isdigit_iff c).mp hdigit).1, ih]
    | false =>
      have hstop : readDigits 10 val (c :: str) = val := by
        refine readDigits_of_head ?_ val
        simpa [← isdigit_eq] using hdigit
      rw [atoiDigits, hdigit, hstop]
      exact if_neg (by decide)

/-- **Every `int` is read back**, the smallest one too, as its negation wraps. -/
theorem atoi_formatText (v : BitVec 64) :
    ∃ text, formatText "%d".toList [.word v] = some text ∧ atoi text = (v.setWidth 32).toInt := by
  refine ⟨_, formatText_d v, ?_⟩
  have hread := readDigits_toDigits (by decide : 10 ≤ 16) (by decide) (v.setWidth 32).toInt.natAbs
  have hdigits := atoiDigits_toInt 0 (Nat.toDigits 10 (v.setWidth 32).toInt.natAbs)
  have hzero : toInt ((0 : ℕ) : ℤ) = 0 := toInt_of_lt (by decide)
  rw [hread, hzero] at hdigits
  have hrange : toInt (v.setWidth 32).toInt = (v.setWidth 32).toInt := by
    have hv := (v.setWidth 32).isLt
    rw [BitVec.toInt_eq_toNat_cond]
    split <;> exact Int.bmod_eq_of_le (by omega) (by omega)
  by_cases hneg : (v.setWidth 32).toInt < 0
  · have habs : (((v.setWidth 32).toInt.natAbs : ℕ) : ℤ) = -(v.setWidth 32).toInt := by omega
    rw [if_pos hneg, List.singleton_append]
    show toInt (-atoiDigits 0 _) = _
    rw [hdigits, habs, toInt, toInt, ← Int.zero_sub, Int.sub_bmod_bmod, Int.zero_sub, Int.neg_neg]
    exact hrange
  · have habs : (((v.setWidth 32).toInt.natAbs : ℕ) : ℤ) = (v.setWidth 32).toInt := by omega
    have hhead : ∀ c ∈ (Nat.toDigits 10 (v.setWidth 32).toInt.natAbs).head?,
        isDigitOf 10 c = true := fun c hc =>
      toDigits_isDigitOf (by decide) (by decide) _ c (List.mem_of_mem_head? hc)
    rw [if_neg hneg, List.nil_append, atoi_of_head hhead]
    rw [hdigits, habs, hrange]

theorem isUpperLetter_of_mem_toDigits {base : ℕ} (htwo : 1 < base) (hbase : base ≤ 16) {n : ℕ} {c : Char}
    (h : c ∈ Nat.toDigits base n) : isUpperLetter c = false := by
  obtain ⟨d, hd, rfl⟩ := exists_digitChar htwo n c h
  have hsixteen : d < 16 := by omega
  interval_cases d <;> rfl

theorem isDecimal_of_mem_toDigits {n : ℕ} {c : Char} (h : c ∈ Nat.toDigits 10 n) :
    isDecimal 10 c = true := by
  obtain ⟨d, hd, rfl⟩ := exists_digitChar (by decide) n c h
  interval_cases d <;> rfl

/-- A letter among the digits stops the reading, before its value is counted. -/
theorem readDigits_takeWhile_eq_iff {l : List Char} (h : ∀ c ∈ l, isDigitOf 16 c = true) (acc : ℕ) :
    readDigits 16 acc (l.takeWhile (isDecimal 16)) = readDigits 16 acc l ↔
      ∀ c ∈ l, isdigit c = true := by
  induction l generalizing acc with
  | nil => simp
  | cons c l ih =>
    rw [List.forall_mem_cons] at h
    rw [List.forall_mem_cons]
    obtain ⟨d, hvalue⟩ : ∃ d, digitValue c = some d := by
      have hc := h.1
      unfold isDigitOf at hc
      cases hd : digitValue c with
      | none => simp [hd] at hc
      | some d => exact ⟨d, rfl⟩
    have hlt : d < 16 := by simpa [isDigitOf, hvalue] using h.1
    cases hdigit : isdigit c with
    | true =>
      have hdecimal : isDecimal 16 c = true := by
        rw [isDecimal_iff]
        refine ⟨hdigit, ?_⟩
        rw [isdigit_iff] at hdigit
        have hzero : '0'.toNat = 48 := rfl
        have hnine : '9'.toNat = 57 := rfl
        omega
      rw [List.takeWhile_cons_of_pos hdecimal, readDigits_cons_of_isDecimal hdecimal,
        readDigits_cons_of_isDecimal hdecimal, ih h.2]
      simp
    | false =>
      have hdecimal : ¬isDecimal 16 c = true := by simp [isDecimal, hdigit]
      have hletter : 0 < d := by
        rw [isdigit_eq, isDigitOf_ten] at hdigit
        rw [digitValue, if_neg (by simp [hdigit])] at hvalue
        split at hvalue
        · have := Option.some.inj hvalue
          omega
        · split at hvalue
          · have := Option.some.inj hvalue
            omega
          · cases hvalue
      have hread : readDigits 16 acc (c :: l) = readDigits 16 (acc * 16 + d) l := by
        rw [readDigits, hvalue]
        exact if_pos hlt
      have hle := le_readDigits (show 0 < 16 by decide) (acc * 16 + d) l
      rw [List.takeWhile_cons_of_neg hdecimal, hread, readDigits]
      simp only [Bool.false_eq_true, false_and, iff_false]
      omega

/-- A number in base ten has neither spaces nor a sign in front of it. -/
theorem strtoullParts_ten {c : Char} (h : isdigit c = true) (s : CStr) :
    strtoullParts (c :: s) 10 = (false, 10, c :: s) := by
  have hlt : ∀ c' : Char, isdigit c' = false → c ≠ c' := by
    rintro c' hc' rfl
    rw [h] at hc'
    cases hc'
  have hspace : isspace c = false := by
    simp [isspace, hlt '\t' rfl, hlt '\n' rfl, hlt (Char.ofNat 11) rfl, hlt (Char.ofNat 12) rfl,
      hlt '\r' rfl, hlt ' ' rfl]
  have hminus := hlt '-' rfl
  have hplus := hlt '+' rfl
  have hsign : strtoullSign (c :: s) = (false, c :: s) := by
    unfold strtoullSign
    split
    next heq => exact absurd (List.cons.inj heq).1 hminus
    next heq => exact absurd (List.cons.inj heq).1 hplus
    next => rfl
  have hbase : strtoullBase 10 (c :: s) = (10, c :: s) := by
    unfold strtoullBase
    split
    next heq =>
      rw [heq]
      exact if_neg (by omega)
    next => rfl
  unfold strtoullParts
  rw [List.dropWhile_cons_of_neg (by simp [hspace]), hsign]
  dsimp only
  rw [hbase]
  rfl

theorem strtoullParts_hex (s : CStr) : strtoullParts ('0' :: 'x' :: s) 0 = (false, 16, s) := rfl

theorem strtoull_toDigits_ten (v : BitVec 64) : strtoull (Nat.toDigits 10 v.toNat) 10 = (v, []) := by
  have hdecimal : ∀ c ∈ Nat.toDigits 10 v.toNat, isDecimal 10 c = true :=
    fun c => isDecimal_of_mem_toDigits
  obtain ⟨c, s, hs⟩ := List.exists_cons_of_ne_nil (Nat.toDigits_ne_nil (b := 10) (n := v.toNat))
  have hparts : strtoullParts (Nat.toDigits 10 v.toNat) 10 = (false, 10, Nat.toDigits 10 v.toNat) := by
    rw [hs] at hdecimal ⊢
    exact strtoullParts_ten (by rw [← isDecimal_ten]; exact hdecimal c List.mem_cons_self) s
  have hall : (Nat.toDigits 10 v.toNat).takeWhile (isDecimal 10) = Nat.toDigits 10 v.toNat :=
    List.takeWhile_eq_self_iff.mpr hdecimal
  have hnone : (Nat.toDigits 10 v.toNat).dropWhile (isDecimal 10) = [] :=
    List.dropWhile_eq_nil_iff.mpr hdecimal
  have hvalue : decimalValue 10 (Nat.toDigits 10 v.toNat) = v.toNat := by
    rw [decimalValue, hall, readDigits_toDigits (by decide) (by decide)]
  have hlt := v.isLt
  rw [strtoull_eq hparts (by decide) (by decide)
    (fun c => isUpperLetter_of_mem_toDigits (by decide) (by decide)), hvalue, hall, hnone,
    if_neg (by omega), if_neg Nat.toDigits_ne_nil, BitVec.ofNat_toNat, BitVec.setWidth_eq]
  rfl

/-- In base sixteen the number is that of the decimal digits in front of the first letter. -/
theorem strtoull_toDigits_sixteen (v : BitVec 64) :
    (strtoull ('0' :: 'x' :: Nat.toDigits 16 v.toNat) 0).1 = v ↔
      ∀ c ∈ Nat.toDigits 16 v.toNat, isdigit c = true := by
  have hdigit : ∀ c ∈ Nat.toDigits 16 v.toNat, isDigitOf 16 c = true :=
    toDigits_isDigitOf (by decide) (by decide) _
  have hread := readDigits_toDigits (show 16 ≤ 16 by decide) (by decide) v.toNat
  have hlt := v.isLt
  have hle : decimalValue 16 (Nat.toDigits 16 v.toNat) ≤ v.toNat := by
    conv_rhs => rw [← hread, ← List.takeWhile_append_dropWhile (p := isDecimal 16)
      (l := Nat.toDigits 16 v.toNat)]
    rw [readDigits_append fun c hc => hdigit c (List.takeWhile_subset _ hc)]
    exact le_readDigits (by decide) _ _
  rw [strtoull_eq (strtoullParts_hex _) (by decide) (by decide)
    (fun c => isUpperLetter_of_mem_toDigits (by decide) (by decide)), if_neg (by omega),
    if_neg (by decide), ← readDigits_takeWhile_eq_iff hdigit 0, hread, ← BitVec.toNat_inj,
    toNat_ofNat_of_lt (by omega), decimalValue]

/-- **What `printf` has put out is read back** in base ten, and in base sixteen exactly when it has
no letters. -/
theorem strtoull_formatText (v : BitVec 64) :
    (∃ text, formatText "%llu".toList [.word v] = some text ∧ strtoull text 10 = (v, [])) ∧
      ∃ text, formatText "0x%llx".toList [.word v] = some text ∧
        ((strtoull text 0).1 = v ↔ ∀ c ∈ Nat.toDigits 16 v.toNat, isdigit c = true) :=
  ⟨⟨_, formatText_llu v, strtoull_toDigits_ten v⟩, _, formatText_llx v, strtoull_toDigits_sixteen v⟩

end Jbinit.Fakedyld

import Jbinit.Fakedyld.PrintfInteger

/-!
# Integers as the standard has them

A conversion specification of ISO C (`Directive`) with its arguments asks for the conversion of an
integer, and that for a text (`Standard`). fakedyld reads the specification as it is meant, but for a
negative precision from an argument, which counts as omitted. `formatText_directive` says exactly when
the text is that of the standard.
-/

namespace Jbinit.Fakedyld.Printf

open Foundations

/-! ## The standard -/

/-- A conversion of an integer, without `#`. -/
structure Standard where
  specifier : Char
  left : Bool
  plus : Bool
  space : Bool
  zero : Bool
  width : ℕ
  /-- A negative one is taken as if it were omitted. -/
  precision : Option ℤ
  value : ℤ

namespace Standard

def sign (c : Standard) : List Char :=
  if c.value < 0 then ['-']
  else if isSigned c.specifier && c.plus then ['+']
  else if isSigned c.specifier && c.space then [' ']
  else []

def omitsPrecision (c : Standard) : Bool :=
  match c.precision with
  | none => true
  | some n => decide (n < 0)

/-- The number of digits that there are at least. -/
def minDigits (c : Standard) : ℕ :=
  match c.precision with
  | none => 1
  | some n => if n < 0 then 1 else n.toNat

/-- The digits that a value has; zero has none. -/
def significant (c : Standard) : List Char :=
  if c.value = 0 then [] else numeral (c.specifier = 'X') (baseOf c.specifier) c.value.natAbs

def digits (c : Standard) : List Char :=
  List.replicate (c.minDigits - c.significant.length) '0' ++ c.significant

/-- The zeros that fill the field. -/
def padding (c : Standard) : List Char :=
  if c.zero && !c.left && c.omitsPrecision then
    List.replicate (c.width - (c.sign.length + c.digits.length)) '0'
  else []

def text (c : Standard) : List Char :=
  let text := c.sign ++ c.padding ++ c.digits
  if c.left then text ++ spaces (c.width - text.length)
  else spaces (c.width - text.length) ++ text

/-- In a field that is adjusted to the left there are no zeros to put in front of the digits; there is
room for the digits with their sign, or the sign is a space that can be one of those in front of them;
and a negative precision makes no difference. -/
structure Fits (c : Standard) : Prop where
  left : c.left = true → ∀ n, c.precision = some n → n ≤ c.significant.length
  room : c.sign.length + (c.padding ++ c.digits).length ≤ ntoaBufferSize ∨
    c.sign = [' '] ∧ (c.padding ++ c.digits).length = ntoaBufferSize ∧ ntoaBufferSize < c.width ∧
      c.left = false ∧ (c.zero = true → c.precision.isSome = true)
  negative : ∀ n < 0, c.precision = some n → c.value ≠ 0 ∧ c.padding = []

theorem digits_of_neg {c : Standard} {n : ℤ} (hprecision : c.precision = some n) (hn : n < 0) :
    c.digits = digits { c with precision := none } := by
  have hmin : c.minDigits = minDigits { c with precision := none } := by
    simp [minDigits, hprecision, hn]
  unfold digits
  rw [hmin]
  rfl

theorem padding_of_neg {c : Standard} {n : ℤ} (hprecision : c.precision = some n) (hn : n < 0) :
    c.padding = padding { c with precision := none } := by
  have homits : c.omitsPrecision = omitsPrecision { c with precision := none } := by
    simp [omitsPrecision, hprecision, hn]
  unfold padding
  rw [homits, digits_of_neg hprecision hn]
  rfl

theorem text_of_neg {c : Standard} {n : ℤ} (hprecision : c.precision = some n) (hn : n < 0) :
    c.text = text { c with precision := none } := by
  unfold text
  rw [padding_of_neg hprecision hn, digits_of_neg hprecision hn]
  rfl

end Standard

/-! ## What fakedyld makes of it -/

/-- The conversion as it has been read. -/
structure Integer.Reads (k : Integer) (c : Standard) : Prop where
  specifier : k.specifier = c.specifier
  hash : k.flags.hash = false
  uppercase : k.flags.uppercase = false
  left : k.flags.left = c.left
  plus : k.flags.plus = c.plus
  space : k.flags.space = c.space
  zeropad : k.flags.zeropad = c.zero
  precision : k.flags.precision = c.precision.isSome
  prec : k.prec = (c.precision.getD 0).toNat
  width : k.width = c.width
  value : k.value = c.value.natAbs
  negative : k.negative = decide (c.value < 0)

namespace Integer.Reads

variable {k : Integer} {c : Standard}

theorem plain (h : k.Reads c) : k.Plain where
  hash := .inl h.hash
  prec hnone := by
    rw [h.precision, Option.isSome_eq_false_iff, Option.isNone_iff_eq_none] at hnone
    rw [h.prec, hnone]
    rfl
  uppercase := h.uppercase

theorem sign_eq (h : k.Reads c) : k.sign = c.sign := by
  unfold Integer.sign Standard.sign
  rw [h.negative, h.specifier, h.plus, h.space]
  simp only [decide_eq_true_eq]

/-- The digits without a precision: a zero has one. -/
theorem digits_of_none (h : k.Reads c) (hnone : c.precision = none) : k.digits = c.digits := by
  have hprecision : k.flags.precision = false := by rw [h.precision, hnone, Option.isSome_none]
  unfold Integer.digits Standard.digits Standard.significant Standard.minDigits
  rw [hprecision, hnone, h.specifier, h.value]
  by_cases hzero : c.value = 0
  · have hnumeral : numeral (c.specifier = 'X') (baseOf c.specifier) 0 = ['0'] := by
      rw [numeral, Nat.toDigits_zero]
      cases decide (c.specifier = 'X') <;> rfl
    simp [hzero, hnumeral]
  · have hpos : 0 < (numeral (c.specifier = 'X') (baseOf c.specifier) c.value.natAbs).length := by
      rw [numeral, List.length_map]
      exact Nat.length_toDigits_pos
    have hone : 1 - (numeral (c.specifier = 'X') (baseOf c.specifier) c.value.natAbs).length = 0 := by
      omega
    simp [hzero, hone]

theorem digits_of_some (h : k.Reads c) {n : ℤ} (hsome : c.precision = some n) :
    k.digits = c.significant := by
  have hprecision : k.flags.precision = true := by rw [h.precision, hsome, Option.isSome_some]
  unfold Integer.digits Standard.significant
  rw [hprecision, h.specifier, h.value]
  by_cases hzero : c.value = 0 <;> simp [hzero]

theorem zeropad_of_some (h : k.Reads c) {n : ℤ} (hsome : c.precision = some n) :
    k.zeropad = false := by
  unfold Integer.zeropad
  rw [h.precision, hsome, Option.isSome_some]
  simp

/-- The zeros and the digits are those of the standard, when the precision is not negative. -/
theorem paddedDigits_eq (h : k.Reads c) (hnonneg : ∀ n, c.precision = some n → 0 ≤ n) :
    k.paddedDigits = c.padding ++ c.digits := by
  unfold Integer.paddedDigits Integer.zeros
  cases hprecision : c.precision with
  | none =>
    have hzeropad : k.zeropad = (c.zero && !c.left && c.omitsPrecision) := by
      unfold Integer.zeropad Standard.omitsPrecision
      rw [h.precision, hprecision, h.zeropad, h.left]
      simp
    have hprec : k.prec = 0 := by
      rw [h.prec, hprecision]
      rfl
    unfold Standard.padding
    rw [h.digits_of_none hprecision, hzeropad, h.sign_eq, h.width, hprec]
    split
    · rw [Nat.sub_sub]
    · rw [Nat.zero_sub, List.replicate_zero]
  | some n =>
    have hn : ¬n < 0 := not_lt.mpr (hnonneg n hprecision)
    have hpadding : c.padding = [] := by
      simp [Standard.padding, Standard.omitsPrecision, hprecision, hn]
    rw [h.digits_of_some hprecision, h.zeropad_of_some hprecision, if_neg Bool.false_ne_true, h.prec,
      hprecision, hpadding, Standard.digits, Standard.minDigits, hprecision]
    simp [hn]

/-- A negative precision is read as zero. -/
theorem paddedDigits_of_neg (h : k.Reads c) {n : ℤ} (hprecision : c.precision = some n)
    (hn : n < 0) : k.paddedDigits = c.significant := by
  unfold Integer.paddedDigits Integer.zeros
  rw [h.digits_of_some hprecision, h.zeropad_of_some hprecision, if_neg Bool.false_ne_true, h.prec,
    hprecision, Option.getD_some, Int.toNat_of_nonpos hn.le, Nat.zero_sub]
  rfl

theorem paddedText_eq (h : k.Reads c) (hdigits : k.paddedDigits = c.padding ++ c.digits) :
    k.paddedText = c.text := by
  unfold Integer.paddedText Standard.text
  rw [hdigits, h.sign_eq, h.left, h.width, List.append_assoc]

/-- The conversion that has no precision in the place of a negative one. -/
theorem omitted (h : k.Reads c) {n : ℤ} (hprecision : c.precision = some n) (hn : n < 0) :
    Integer.Reads { k with flags := { k.flags with precision := false } }
      { c with precision := none } where
  specifier := h.specifier
  hash := h.hash
  uppercase := h.uppercase
  left := h.left
  plus := h.plus
  space := h.space
  zeropad := h.zeropad
  precision := rfl
  prec := by
    show k.prec = _
    rw [h.prec, hprecision, Option.getD_some, Int.toNat_of_nonpos hn.le]
    rfl
  width := h.width
  value := h.value
  negative := h.negative

theorem countDigits_text (h : k.Reads c) : countDigits c.text = (c.padding ++ c.digits).length := by
  by_cases hnonneg : ∀ n, c.precision = some n → 0 ≤ n
  · have hdigits := h.paddedDigits_eq hnonneg
    rw [← h.paddedText_eq hdigits, Integer.countDigits_paddedText, hdigits]
  · simp only [not_forall, not_le] at hnonneg
    obtain ⟨n, hprecision, hn⟩ := hnonneg
    have homitted := h.omitted hprecision hn
    have hdigits := homitted.paddedDigits_eq fun n hn => nomatch hn
    rw [Standard.text_of_neg hprecision hn, Standard.padding_of_neg hprecision hn,
      Standard.digits_of_neg hprecision hn, ← homitted.paddedText_eq hdigits,
      Integer.countDigits_paddedText, hdigits]

/-- fakedyld's text has as many digits as the standard's only when a negative precision makes no
difference. -/
theorem negative_of_length (h : k.Reads c)
    (hlength : k.digitsBuf.length = (c.padding ++ c.digits).length) :
    ∀ n < 0, c.precision = some n → c.value ≠ 0 ∧ c.padding = [] := by
  intro n hn hprecision
  have hzeros : (if k.flags.left then 0 else k.zeros) = 0 := by
    unfold Integer.zeros
    rw [h.zeropad_of_some hprecision, if_neg Bool.false_ne_true, h.prec, hprecision, Option.getD_some,
      Int.toNat_of_nonpos hn.le, ite_self]
  unfold Integer.digitsBuf at hlength
  rw [hzeros, pushZeros_zero, h.digits_of_some hprecision, List.length_take,
    List.length_reverse, List.length_append, Standard.digits, List.length_append,
    List.length_replicate, Standard.minDigits, hprecision] at hlength
  simp only [hn, if_true] at hlength
  have hpadding : c.padding.length = 0 := by omega
  refine ⟨fun hzero => ?_, List.eq_nil_of_length_eq_zero hpadding⟩
  rw [Standard.significant, if_pos hzero, List.length_nil] at hlength
  omega

theorem paddedDigits_of_negative (h : k.Reads c)
    (hnegative : ∀ n < 0, c.precision = some n → c.value ≠ 0 ∧ c.padding = []) :
    k.paddedDigits = c.padding ++ c.digits := by
  by_cases hnonneg : ∀ n, c.precision = some n → 0 ≤ n
  · exact h.paddedDigits_eq hnonneg
  · simp only [not_forall, not_le] at hnonneg
    obtain ⟨n, hprecision, hn⟩ := hnonneg
    obtain ⟨hvalue, hpadding⟩ := hnegative n hn hprecision
    have hpos : 0 < c.significant.length := by
      rw [Standard.significant, if_neg hvalue, numeral, List.length_map]
      exact Nat.length_toDigits_pos
    have hone : 1 - c.significant.length = 0 := by omega
    rw [h.paddedDigits_of_neg hprecision hn, hpadding, Standard.digits, Standard.minDigits,
      hprecision]
    simp [hn, hone]

theorem prec_le_iff (h : k.Reads c) : k.prec ≤ k.digits.length ↔
    ∀ n, c.precision = some n → n ≤ c.significant.length := by
  rw [h.prec]
  cases hprecision : c.precision with
  | none => simp
  | some n =>
    rw [h.digits_of_some hprecision, Option.getD_some, Int.toNat_le]
    simp

theorem fits_iff (h : k.Reads c) (hdigits : k.paddedDigits = c.padding ++ c.digits) : k.Fits ↔
    (c.left = true → ∀ n, c.precision = some n → n ≤ c.significant.length) ∧
      (c.sign.length + (c.padding ++ c.digits).length ≤ ntoaBufferSize ∨
        c.sign = [' '] ∧ (c.padding ++ c.digits).length = ntoaBufferSize ∧
          ntoaBufferSize < c.width ∧ c.left = false ∧
            (c.zero = true → c.precision.isSome = true)) := by
  have hzeropad (hleft : c.left = false) :
      k.zeropad = false ↔ (c.zero = true → c.precision.isSome = true) := by
    unfold Integer.zeropad
    rw [h.zeropad, h.precision, h.left, hleft]
    cases c.zero <;> cases c.precision.isSome <;> simp
  unfold Integer.Fits
  rw [h.prec_le_iff, hdigits, h.sign_eq, h.left, h.width]
  refine and_congr_right fun _ => or_congr_right ?_
  refine and_congr_right fun _ => and_congr_right fun _ => and_congr_right fun _ => ?_
  exact and_congr_right fun hleft => hzeropad hleft

/-- **fakedyld's text is that of the standard** exactly when the conversion fits. -/
theorem text_eq_iff (h : k.Reads c) : k.text = c.text ↔ c.Fits := by
  constructor
  · intro heq
    have hlength : k.digitsBuf.length = (c.padding ++ c.digits).length := by
      rw [← Integer.countDigits_text h.plain, heq, h.countDigits_text]
    have hnegative := h.negative_of_length hlength
    have hdigits := h.paddedDigits_of_negative hnegative
    rw [← h.paddedText_eq hdigits, Integer.text_eq_paddedText_iff h.plain, h.fits_iff hdigits] at heq
    exact ⟨heq.1, heq.2, hnegative⟩
  · intro hfits
    have hdigits := h.paddedDigits_of_negative hfits.negative
    rw [← h.paddedText_eq hdigits, Integer.text_eq_paddedText_iff h.plain, h.fits_iff hdigits]
    exact ⟨hfits.left, hfits.room⟩

end Integer.Reads

/-! ## Conversion specifications -/

/-- An unsigned numeral that fits. -/
structure Numeral where
  digits : List Char
  isdigit_of_mem : ∀ c ∈ digits, isdigit c = true
  lt : Nat.ofDigitChars 10 digits 0 < 2 ^ 32

/-- A width or a precision: in the format, or from an `int` argument. -/
inductive Field
  | numeral (n : Numeral)
  | star

def Field.chars : Field → List Char
  | .numeral n => n.digits
  | .star => ['*']

def Field.value (arg : BitVec 64) : Field → ℤ
  | .numeral n => (Nat.ofDigitChars 10 n.digits 0 : ℕ)
  | .star => (arg.setWidth 32).toInt

def Field.arguments (arg : BitVec 64) : Field → VaList
  | .numeral _ => []
  | .star => [.word arg]

inductive LengthModifier
  | none
  | hh
  | h
  | l
  | ll
  | j
  | z
  | t
  deriving DecidableEq, Repr

def LengthModifier.chars : LengthModifier → List Char
  | .none => []
  | .hh => ['h', 'h']
  | .h => ['h']
  | .l => ['l']
  | .ll => ['l', 'l']
  | .j => ['j']
  | .z => ['z']
  | .t => ['t']

/-- The size of the argument. -/
def LengthModifier.bits : LengthModifier → ℕ
  | .none => 32
  | .hh => 8
  | .h => 16
  | _ => 64

/-- A conversion specification for an integer, without `#` and behind its percent sign. -/
structure Directive where
  flags : List Char
  width : Option Field
  precision : Option Field
  length : LengthModifier
  specifier : Char
  flags_mem : ∀ c ∈ flags, c ∈ ['-', '+', ' ', '0']
  /-- A `0` would be a flag. -/
  width_head : ∀ n, width = some (.numeral n) → ∃ c ds, n.digits = c :: ds ∧ c ≠ '0'
  specifier_mem : specifier ∈ ['d', 'i', 'u', 'x', 'X', 'o', 'b']

namespace Directive

variable (d : Directive)

def widthChars : List Char := (d.width.map Field.chars).getD []

def precisionChars : List Char := (d.precision.map fun f => '.' :: f.chars).getD []

def chars : List Char :=
  d.flags ++ (d.widthChars ++ (d.precisionChars ++ (d.length.chars ++ [d.specifier])))

variable (w p v : BitVec 64)

/-- The arguments: those for the asterisks that there are, and the integer. -/
def arguments : VaList :=
  (d.width.map (Field.arguments w)).getD [] ++ ((d.precision.map (Field.arguments p)).getD [] ++ [.word v])

def widthValue : ℤ := (d.width.map (Field.value w)).getD 0

def value : ℤ :=
  if isSigned d.specifier then (v.setWidth d.length.bits).toInt
  else (v.setWidth d.length.bits).toNat

/-- A negative width is a `-` flag with a width. -/
def standard : Standard where
  specifier := d.specifier
  left := d.flags.contains '-' || decide (d.widthValue w < 0)
  plus := d.flags.contains '+'
  space := d.flags.contains ' '
  zero := d.flags.contains '0'
  width := (d.widthValue w).natAbs
  precision := d.precision.map (Field.value p)
  value := d.value v

end Directive

/-! ## Reading a conversion specification -/

/-- What can stand behind the precision. -/
def behindPrecision : List Char := ['h', 'l', 'j', 'z', 't', 'd', 'i', 'u', 'x', 'X', 'o', 'b']

theorem exists_behindPrecision (d : Directive) (rest : CStr) :
    ∃ c cs, d.length.chars ++ (d.specifier :: rest) = c :: cs ∧ c ∈ behindPrecision := by
  have hspecifier : d.specifier ∈ behindPrecision :=
    List.mem_append_right ['h', 'l', 'j', 'z', 't'] d.specifier_mem
  cases d.length with
  | none => exact ⟨_, _, rfl, hspecifier⟩
  | hh => exact ⟨_, _, rfl, by decide⟩
  | h => exact ⟨_, _, rfl, by decide⟩
  | l => exact ⟨_, _, rfl, by decide⟩
  | ll => exact ⟨_, _, rfl, by decide⟩
  | j => exact ⟨_, _, rfl, by decide⟩
  | z => exact ⟨_, _, rfl, by decide⟩
  | t => exact ⟨_, _, rfl, by decide⟩

theorem exists_behindWidth (d : Directive) (rest : CStr) :
    ∃ c cs, d.precisionChars ++ (d.length.chars ++ (d.specifier :: rest)) = c :: cs ∧
      c ∈ '.' :: behindPrecision := by
  unfold Directive.precisionChars
  cases d.precision with
  | none =>
    obtain ⟨c, cs, heq, hc⟩ := exists_behindPrecision d rest
    exact ⟨c, cs, heq, List.mem_cons_of_mem _ hc⟩
  | some f => exact ⟨_, _, rfl, List.mem_cons_self⟩

theorem evalFlags_append {cs : List Char} (hcs : ∀ c ∈ cs, c ∈ ['-', '+', ' ', '0']) {c : Char}
    (hc : c ∉ ['0', '-', '+', ' ', '#']) (rest : CStr) (flags : FormatFlags) :
    evalFlags flags (cs ++ c :: rest) = ({ flags with
      zeropad := flags.zeropad || cs.contains '0'
      left := flags.left || cs.contains '-'
      plus := flags.plus || cs.contains '+'
      space := flags.space || cs.contains ' ' }, c :: rest) := by
  induction cs generalizing flags with
  | nil =>
    simp only [List.mem_cons, List.not_mem_nil, or_false, not_or] at hc
    simp [evalFlags, hc]
  | cons c' cs ih =>
    have htail := ih fun c hc => hcs c (List.mem_cons_of_mem _ hc)
    have hmem := hcs c' List.mem_cons_self
    simp only [List.mem_cons, List.not_mem_nil, or_false] at hmem
    rw [List.cons_append, evalFlags]
    rcases hmem with rfl | rfl | rfl | rfl <;> simp [htail]

theorem atoi_append {ds : List Char} (hds : ∀ c ∈ ds, isdigit c = true) {c : Char}
    (hc : isdigit c = false) (rest : CStr) (i : ℕ) :
    atoi (i % 2 ^ 32) (ds ++ c :: rest) = (Nat.ofDigitChars 10 ds i % 2 ^ 32, c :: rest) := by
  induction ds generalizing i with
  | nil => simp [atoi, hc]
  | cons c' ds ih =>
    have htail := ih fun c hc => hds c (List.mem_cons_of_mem _ hc)
    have hmod : (i % 2 ^ 32 * 10 + (c'.toNat - '0'.toNat)) % 2 ^ 32 =
        (10 * i + (c'.toNat - '0'.toNat)) % 2 ^ 32 := by omega
    rw [List.cons_append, atoi, if_pos (hds c' List.mem_cons_self), hmod, htail,
      Nat.ofDigitChars_cons]

theorem Numeral.atoi_append (n : Numeral) {c : Char} (hc : isdigit c = false) (rest : CStr) :
    atoi 0 (n.digits ++ c :: rest) = (Nat.ofDigitChars 10 n.digits 0, c :: rest) := by
  have hatoi := Printf.atoi_append n.isdigit_of_mem hc rest 0
  rwa [Nat.zero_mod, Nat.mod_eq_of_lt n.lt] at hatoi

theorem follows {c : Char} (hc : c ∈ behindPrecision) : isdigit c = false ∧ c ≠ '*' ∧ c ≠ '.' := by
  simp only [behindPrecision, List.mem_cons, List.not_mem_nil, or_false] at hc
  rcases hc with rfl | rfl | rfl | rfl | rfl | rfl | rfl | rfl | rfl | rfl | rfl | rfl <;>
    exact ⟨rfl, by decide, by decide⟩

theorem evalWidth_numeral (n : Numeral) {c' : Char} {ds : List Char} (hds : n.digits = c' :: ds)
    {c : Char} (hc : isdigit c = false) (flags : FormatFlags) (rest : CStr) (va : VaList) :
    evalWidth ⟨flags, 0, 0, n.digits ++ c :: rest, va⟩ =
      some ⟨flags, Nat.ofDigitChars 10 n.digits 0, 0, c :: rest, va⟩ := by
  have hdigit : isdigit c' = true := n.isdigit_of_mem c' (hds ▸ List.mem_cons_self)
  have hatoi := n.atoi_append hc rest
  rw [hds] at hatoi ⊢
  rw [List.cons_append] at hatoi ⊢
  simp only [evalWidth, hdigit, if_true, hatoi]

/-- An `int` that is not negative. -/
theorem toInt_of_not_neg {b : BitVec 32} (hb : ¬b.toInt < 0) : b.toInt = b.toNat := by
  have hlt := b.isLt
  rw [BitVec.toInt_eq_toNat_cond] at hb ⊢
  split at hb
  · rw [if_pos (by assumption)]
  · omega

theorem evalWidth_star (w : BitVec 64) (flags : FormatFlags) (rest : CStr) (va : VaList) :
    evalWidth ⟨flags, 0, 0, '*' :: rest, .word w :: va⟩ =
      some ⟨{ flags with left := flags.left || decide ((w.setWidth 32).toInt < 0) },
        (w.setWidth 32).toInt.natAbs, 0, rest, va⟩ := by
  have hstar : isdigit '*' = false := rfl
  have hva : vaInt (.word w :: va) = some (w.setWidth 32, va) := rfl
  simp only [evalWidth, hstar, hva, Bool.false_eq_true, if_false, if_true, Option.bind_eq_bind,
    Option.bind_some]
  split
  case isTrue hneg =>
    have habs : (-w.setWidth 32).toNat = (w.setWidth 32).toInt.natAbs := by
      rw [← magnitude_fst, magnitude, if_neg (by omega)]
      simp
    rw [decide_eq_true hneg, Bool.or_true, habs]
    rfl
  case isFalse hnonneg =>
    rw [decide_eq_false hnonneg, Bool.or_false, toInt_of_not_neg hnonneg, Int.natAbs_natCast]
    rfl

theorem evalWidth_eq (d : Directive) (w : BitVec 64) {c : Char} (hc : c ∈ '.' :: behindPrecision)
    (flags : FormatFlags) (rest : CStr) (va : VaList) :
    evalWidth ⟨flags, 0, 0, d.widthChars ++ c :: rest,
      (d.width.map (Field.arguments w)).getD [] ++ va⟩ =
      some ⟨{ flags with left := flags.left || decide (d.widthValue w < 0) },
        (d.widthValue w).natAbs, 0, c :: rest, va⟩ := by
  have hfollows : isdigit c = false ∧ c ≠ '*' := by
    rcases List.mem_cons.mp hc with rfl | hc
    · exact ⟨rfl, by decide⟩
    · exact ⟨(follows hc).1, (follows hc).2.1⟩
  cases hwidth : d.width with
  | none =>
    have hchars : d.widthChars = [] := by rw [Directive.widthChars, hwidth]; rfl
    have hvalue : d.widthValue w = 0 := by rw [Directive.widthValue, hwidth]; rfl
    rw [hchars, hvalue]
    simp [evalWidth, hfollows]
  | some f =>
    have hchars : d.widthChars = f.chars := by rw [Directive.widthChars, hwidth]; rfl
    have hvalue : d.widthValue w = f.value w := by rw [Directive.widthValue, hwidth]; rfl
    rw [hchars, hvalue]
    cases f with
    | numeral n =>
      obtain ⟨c', ds, hds, -⟩ := d.width_head n hwidth
      have hnonneg : ¬(Field.value w (.numeral n) < 0) := not_lt.mpr (Int.natCast_nonneg _)
      rw [decide_eq_false hnonneg, Bool.or_false]
      exact evalWidth_numeral n hds hfollows.1 flags rest va
    | star => exact evalWidth_star w flags (c :: rest) va

theorem evalPrecision_numeral (n : Numeral) {c : Char} (hdigit : isdigit c = false) (hstar : c ≠ '*')
    (flags : FormatFlags) (width : ℕ) (rest : CStr) (va : VaList) :
    evalPrecision ⟨flags, width, 0, '.' :: (n.digits ++ c :: rest), va⟩ =
      some ⟨{ flags with precision := true }, width, Nat.ofDigitChars 10 n.digits 0, c :: rest, va⟩ := by
  have hatoi := n.atoi_append hdigit rest
  cases hds : n.digits with
  | nil => simp [evalPrecision, hdigit, hstar]
  | cons c' ds =>
    have hdigit' : isdigit c' = true := n.isdigit_of_mem c' (hds ▸ List.mem_cons_self)
    rw [hds, List.cons_append] at hatoi
    simp only [evalPrecision, if_true, List.cons_append, hdigit', hatoi]

theorem evalPrecision_star (p : BitVec 64) (flags : FormatFlags) (width : ℕ) (rest : CStr)
    (va : VaList) : evalPrecision ⟨flags, width, 0, '.' :: '*' :: rest, .word p :: va⟩ =
      some ⟨{ flags with precision := true }, width, (p.setWidth 32).toInt.toNat, rest, va⟩ := by
  have hstar : isdigit '*' = false := rfl
  have hva : vaInt (.word p :: va) = some (p.setWidth 32, va) := rfl
  have hprec : (if 0 < (p.setWidth 32).toInt then (p.setWidth 32).toNat else 0) =
      (p.setWidth 32).toInt.toNat := by
    split
    case isTrue hpos => rw [toInt_of_not_neg (by omega), Int.toNat_natCast]
    case isFalse hneg => omega
  simp only [evalPrecision, if_true, hstar, Bool.false_eq_true, if_false, hva, Option.bind_eq_bind,
    Option.bind_some, hprec]
  rfl

theorem evalPrecision_eq (d : Directive) (p : BitVec 64) {c : Char} (hc : c ∈ behindPrecision)
    (flags : FormatFlags) (hflags : flags.precision = false) (width : ℕ) (rest : CStr) (va : VaList) :
    evalPrecision ⟨flags, width, 0, d.precisionChars ++ c :: rest,
      (d.precision.map (Field.arguments p)).getD [] ++ va⟩ =
      some ⟨{ flags with precision := (d.precision.map (Field.value p)).isSome }, width,
        ((d.precision.map (Field.value p)).getD 0).toNat, c :: rest, va⟩ := by
  obtain ⟨hdigit, hstar, hdot⟩ := follows hc
  unfold Directive.precisionChars
  cases d.precision with
  | none =>
    have hsame : { flags with precision := false } = flags := by rw [← hflags]
    simp only [Option.map_none, Option.getD_none, Option.isSome_none, List.nil_append, hsame,
      Int.toNat_zero]
    simp [evalPrecision, hdot]
  | some f =>
    cases f with
    | numeral n => exact evalPrecision_numeral n hdigit hstar flags width rest va
    | star => exact evalPrecision_star p flags width (c :: rest) va

/-- The flags that a length modifier sets. -/
def LengthModifier.setFlags (flags : FormatFlags) : LengthModifier → FormatFlags
  | .none => flags
  | .hh => { flags with short := true, char := true }
  | .h => { flags with short := true }
  | .ll => { flags with long := true, longLong := true }
  | _ => { flags with long := true }

theorem evalLength_eq (m : LengthModifier) {c : Char}
    (hc : c ∈ ['d', 'i', 'u', 'x', 'X', 'o', 'b']) (flags : FormatFlags) (rest : CStr) :
    evalLength flags (m.chars ++ c :: rest) = (m.setFlags flags, c :: rest) := by
  simp only [List.mem_cons, List.not_mem_nil, or_false] at hc
  rcases hc with rfl | rfl | rfl | rfl | rfl | rfl | rfl <;> cases m <;> rfl

theorem magnitude_eq {w : ℕ} (value : BitVec w) :
    magnitude value = (value.toInt.natAbs, decide (value.toInt < 0)) :=
  Prod.ext (magnitude_fst value) rfl

/-- A signed argument, as it is converted to its type. -/
theorem signedArg_eq (m : LengthModifier) (v : BitVec 64) (flags : FormatFlags)
    (hflags : flags.long = false ∧ flags.longLong = false ∧ flags.short = false ∧
      flags.char = false) (va : VaList) :
    signedArg (m.setFlags flags) (.word v :: va) =
      some ((((v.setWidth m.bits).toInt).natAbs, decide ((v.setWidth m.bits).toInt < 0)), va) := by
  obtain ⟨hlong, hlongLong, hshort, hchar⟩ := hflags
  have hextend {n : ℕ} (hn : n ≤ 32) :
      (((v.setWidth 32).setWidth n).signExtend 32).toInt = (v.setWidth n).toInt := by
    rw [BitVec.toInt_signExtend_of_le hn, BitVec.setWidth_setWidth_of_le _ hn]
  have h8 := hextend (show 8 ≤ 32 by decide)
  have h16 := hextend (show 16 ≤ 32 by decide)
  have h64 : v.setWidth 64 = v := BitVec.setWidth_eq v
  cases m <;> simp only [signedArg, LengthModifier.setFlags, LengthModifier.bits, vaInt, vaLong, hlong,
    hlongLong, hshort, hchar, Bool.or_self, Bool.or_true, Bool.false_eq_true, if_false,
    if_true, Option.map_some, magnitude_eq, h8, h16, h64] <;> rfl

theorem unsignedArg_eq (m : LengthModifier) (v : BitVec 64) (flags : FormatFlags)
    (hflags : flags.long = false ∧ flags.longLong = false ∧ flags.short = false ∧
      flags.char = false) (va : VaList) :
    unsignedArg (m.setFlags flags) (.word v :: va) = some (((v.setWidth m.bits).toNat, false), va) := by
  obtain ⟨hlong, hlongLong, hshort, hchar⟩ := hflags
  have hmod {n : ℕ} (hn : n ≤ 32) : (v.setWidth 32).toNat % 2 ^ n = (v.setWidth n).toNat := by
    rw [BitVec.toNat_setWidth, BitVec.toNat_setWidth, Nat.mod_mod_of_dvd _ (Nat.pow_dvd_pow 2 hn)]
  have h8 := hmod (show 8 ≤ 32 by decide)
  have h16 := hmod (show 16 ≤ 32 by decide)
  have h64 : v.setWidth 64 = v := BitVec.setWidth_eq v
  cases m <;> simp only [unsignedArg, LengthModifier.setFlags, LengthModifier.bits, vaInt, vaLong,
    hlong, hlongLong, hshort, hchar, Bool.or_self, Bool.or_true, Bool.false_eq_true,
    if_false, if_true, Option.map_some, h8, h16, h64]

theorem integerArg_eq (d : Directive) (v : BitVec 64) (flags : FormatFlags)
    (hflags : flags.long = false ∧ flags.longLong = false ∧ flags.short = false ∧
      flags.char = false) (va : VaList) :
    integerArg d.specifier (integerFlags d.specifier (d.length.setFlags flags)) (.word v :: va) =
      some (((d.value v).natAbs, decide (d.value v < 0)), va) := by
  have hset : integerFlags d.specifier (d.length.setFlags flags) =
      d.length.setFlags (integerFlags d.specifier flags) := by
    cases d.length <;> rfl
  unfold integerArg Directive.value
  rw [hset]
  split
  · exact signedArg_eq d.length v (integerFlags d.specifier flags) hflags va
  · rw [unsignedArg_eq d.length v (integerFlags d.specifier flags) hflags va, Int.natAbs_natCast,
      decide_eq_false (not_lt.mpr (Int.natCast_nonneg _))]

theorem chars_append (d : Directive) (rest : CStr) : d.chars ++ rest =
    d.flags ++ (d.widthChars ++ (d.precisionChars ++ (d.length.chars ++ d.specifier :: rest))) := by
  simp [Directive.chars]

theorem exists_behindFlags (d : Directive) (rest : CStr) :
    ∃ c cs, d.widthChars ++ (d.precisionChars ++ (d.length.chars ++ d.specifier :: rest)) = c :: cs ∧
      c ∉ ['0', '-', '+', ' ', '#'] := by
  obtain ⟨c, cs, heq, hc⟩ := exists_behindWidth d rest
  unfold Directive.widthChars
  rw [heq]
  cases hwidth : d.width with
  | none =>
    refine ⟨c, cs, rfl, ?_⟩
    simp only [behindPrecision, List.mem_cons, List.not_mem_nil, or_false] at hc
    rcases hc with rfl | rfl | rfl | rfl | rfl | rfl | rfl | rfl | rfl | rfl | rfl | rfl | rfl <;>
      decide
  | some f =>
    cases f with
    | numeral n =>
      obtain ⟨c', ds, hds, hzero⟩ := d.width_head n hwidth
      have hdigit : isdigit c' = true := n.isdigit_of_mem c' (hds ▸ List.mem_cons_self)
      refine ⟨c', ds ++ c :: cs, by simp [Field.chars, hds], fun hmem => ?_⟩
      simp only [List.mem_cons, List.not_mem_nil, or_false] at hmem
      rcases hmem with rfl | rfl | rfl | rfl | rfl
      · exact hzero rfl
      all_goals cases hdigit
    | star => exact ⟨'*', c :: cs, rfl, by decide⟩

/-- The flags as they are read. -/
def Directive.formatFlags (d : Directive) (w p : BitVec 64) : FormatFlags :=
  d.length.setFlags
    { zeropad := d.flags.contains '0'
      left := d.flags.contains '-' || decide (d.widthValue w < 0)
      plus := d.flags.contains '+'
      space := d.flags.contains ' '
      precision := (d.precision.map (Field.value p)).isSome }

theorem evalSpec_eq (d : Directive) (w p v : BitVec 64) (rest : CStr) (va : VaList) :
    evalSpec (d.chars ++ rest) (d.arguments w p v ++ va) =
      some ⟨d.formatFlags w p, (d.widthValue w).natAbs,
        ((d.precision.map (Field.value p)).getD 0).toNat, d.specifier :: rest, .word v :: va⟩ := by
  obtain ⟨c₀, cs₀, hwidth, hc₀⟩ := exists_behindFlags d rest
  obtain ⟨c₁, cs₁, hprecision, hc₁⟩ := exists_behindWidth d rest
  obtain ⟨c₂, cs₂, hlength, hc₂⟩ := exists_behindPrecision d rest
  have hargs : d.arguments w p v ++ va = (d.width.map (Field.arguments w)).getD [] ++
      ((d.precision.map (Field.arguments p)).getD [] ++ .word v :: va) := by
    simp [Directive.arguments]
  unfold evalSpec
  rw [chars_append, hwidth, hargs, evalFlags_append d.flags_mem hc₀]
  dsimp only
  rw [← hwidth, hprecision, evalWidth_eq d w hc₁, Option.bind_eq_bind, Option.bind_some, ← hprecision,
    hlength, evalPrecision_eq d p hc₂ _ rfl, Option.bind_some]
  dsimp only
  rw [← hlength, evalLength_eq d.length d.specifier_mem]
  simp only [Bool.false_or]
  rfl

theorem reads_standard (d : Directive) (w p v : BitVec 64) :
    Integer.Reads ⟨d.specifier, d.formatFlags w p, ((d.precision.map (Field.value p)).getD 0).toNat,
      (d.widthValue w).natAbs, (d.value v).natAbs, decide (d.value v < 0)⟩ (d.standard w p v) := by
  have hflags (flags : FormatFlags) : (d.length.setFlags flags).hash = flags.hash ∧
      (d.length.setFlags flags).uppercase = flags.uppercase ∧
      (d.length.setFlags flags).left = flags.left ∧ (d.length.setFlags flags).plus = flags.plus ∧
      (d.length.setFlags flags).space = flags.space ∧
      (d.length.setFlags flags).zeropad = flags.zeropad ∧
      (d.length.setFlags flags).precision = flags.precision := by
    cases d.length <;> exact ⟨rfl, rfl, rfl, rfl, rfl, rfl, rfl⟩
  obtain ⟨hhash, hupper, hleft, hplus, hspace, hzeropad, hprecision⟩ := hflags
    { zeropad := d.flags.contains '0'
      left := d.flags.contains '-' || decide (d.widthValue w < 0)
      plus := d.flags.contains '+'
      space := d.flags.contains ' '
      precision := (d.precision.map (Field.value p)).isSome }
  exact ⟨rfl, hhash, hupper, hleft, hplus, hspace, hzeropad, hprecision, rfl, rfl, rfl, rfl⟩

/-- **Every conversion of an integer** without `#`: its text is that of the standard exactly when the
conversion fits. -/
theorem formatText_directive (d : Directive) (w p v : BitVec 64) (rest : CStr) (va : VaList) :
    ∃ text, formatText ('%' :: (d.chars ++ rest)) (d.arguments w p v ++ va) =
        (formatText rest va).map (text ++ ·) ∧
      (text = (d.standard w p v).text ↔ (d.standard w p v).Fits) := by
  have harg : integerArg d.specifier (integerFlags d.specifier (d.formatFlags w p)) (.word v :: va) =
      some (((d.value v).natAbs, decide (d.value v < 0)), va) :=
    integerArg_eq d v _ ⟨rfl, rfl, rfl, rfl⟩ va
  exact ⟨_, formatText_of_integer (evalSpec_eq d w p v rest va) rfl d.specifier_mem harg,
    (reads_standard d w p v).text_eq_iff⟩

/-- `%.*d` of -1 and 0: the precision is to be taken as omitted. -/
example : Integer.text ⟨'d', { precision := true }, 0, 0, 0, false⟩ = [] ∧
    Standard.text ⟨'d', false, false, false, false, 0, some (-1), 0⟩ = ['0'] := by decide

end Jbinit.Fakedyld.Printf

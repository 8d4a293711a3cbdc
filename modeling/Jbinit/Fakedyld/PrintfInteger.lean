import Jbinit.Fakedyld.PrintfText
import Mathlib.Data.List.Count

/-!
# The text of an integer

`_ntoa_long` puts the digits of an integer into a buffer, and behind them the zeros that the precision
or the width asks for and the sign. Without `#` all of them come out but for two cases: the precision
is ignored when the field is adjusted to the left, and there may be no room in the buffer.
`text_eq_paddedText_iff` says exactly when.
-/

namespace Jbinit.Fakedyld.Printf

open Foundations

/-! ## The conversion -/

/-- A conversion of an integer, as `_vsnprintf` has read it. -/
structure Integer where
  specifier : Char
  flags : FormatFlags
  prec : ℕ
  width : ℕ
  value : ℕ
  negative : Bool

def numeral (uppercase : Bool) (base value : ℕ) : List Char :=
  (Nat.toDigits base value).map fun c => if uppercase then c.toUpper else c

namespace Integer

/-- The sign of a signed conversion. -/
def sign (k : Integer) : List Char :=
  if k.negative then ['-']
  else if isSigned k.specifier && k.flags.plus then ['+']
  else if isSigned k.specifier && k.flags.space then [' ']
  else []

/-- The digits that there are at least: none, for a zero with a precision. -/
def digits (k : Integer) : List Char :=
  if k.flags.precision && k.value = 0 then []
  else numeral (k.specifier = 'X') (baseOf k.specifier) k.value

/-- The width is filled with zeros. -/
def zeropad (k : Integer) : Bool := k.flags.zeropad && !k.flags.precision && !k.flags.left

/-- The number of digits that are asked for. -/
def zeros (k : Integer) : ℕ := if k.zeropad then k.width - k.sign.length else k.prec

/-- The digits with all their zeros. -/
def paddedDigits (k : Integer) : List Char :=
  List.replicate (k.zeros - k.digits.length) '0' ++ k.digits

/-- The text with all that is asked for. -/
def paddedText (k : Integer) : List Char :=
  let text := k.sign ++ k.paddedDigits
  if k.flags.left then text ++ spaces (k.width - text.length)
  else spaces (k.width - text.length) ++ text

/-- What `_vsnprintf` puts out. -/
def text (k : Integer) : List Char :=
  integerText k.value k.negative (baseOf k.specifier) k.prec k.width
    (integerFlags k.specifier k.flags)

/-- No `#`, no precision but where the flag says so, and no flag that a specifier sets. -/
structure Plain (k : Integer) : Prop where
  hash : k.flags.hash = false ∨ baseOf k.specifier = 10
  prec : k.flags.precision = false → k.prec = 0
  uppercase : k.flags.uppercase = false

/-- There is room for the digits with their sign, and the precision asks for no zeros on the left. A
space that has no room can be one of those in front of the digits. -/
def Fits (k : Integer) : Prop :=
  (k.flags.left = true → k.prec ≤ k.digits.length) ∧
    (k.sign.length + k.paddedDigits.length ≤ ntoaBufferSize ∨
      k.sign = [' '] ∧ k.paddedDigits.length = ntoaBufferSize ∧ ntoaBufferSize < k.width ∧
        k.flags.left = false ∧ k.zeropad = false)

end Integer

/-! ## The digits -/

theorem ntoaDigit_eq {digit : ℕ} (h : digit < 16) (uppercase : Bool) :
    ntoaDigit uppercase digit =
      if uppercase then (Nat.digitChar digit).toUpper else Nat.digitChar digit := by
  cases uppercase <;> interval_cases digit <;> rfl

theorem ntoaDigits_eq {base : ℕ} (hbase : base ≤ 16) (htwo : 1 < base) (uppercase : Bool)
    (room value : ℕ) :
    ntoaDigits uppercase base room value = (numeral uppercase base value).reverse.take room := by
  induction room generalizing value with
  | zero => rfl
  | succ room ih =>
    have hdigit := ntoaDigit_eq (show value % base < 16 from
      Nat.lt_of_lt_of_le (Nat.mod_lt _ (by omega)) hbase) uppercase
    rw [ntoaDigits, ih, hdigit]
    by_cases hlt : value < base
    · rw [if_pos (Nat.div_eq_of_lt hlt), Nat.mod_eq_of_lt hlt, numeral, Nat.toDigits_of_lt_base hlt]
      simp
    · have hdiv : value / base ≠ 0 := by
        rw [Ne, Nat.div_eq_zero_iff]
        omega
      rw [if_neg hdiv]
      conv_rhs => rw [numeral, Nat.toDigits_of_base_le htwo (not_lt.mp hlt), List.map_append,
        List.reverse_append]
      rfl

theorem exists_digitChar {base : ℕ} (htwo : 1 < base) (n : ℕ) :
    ∀ c ∈ Nat.toDigits base n, ∃ d < base, c = Nat.digitChar d := by
  induction n using Nat.strongRecOn with
  | ind n ih =>
    intro c hc
    by_cases h : n < base
    · rw [Nat.toDigits_of_lt_base h, List.mem_singleton] at hc
      exact ⟨n, h, hc⟩
    · rw [Nat.toDigits_of_base_le htwo (not_lt.mp h), List.mem_append, List.mem_singleton] at hc
      rcases hc with hc | hc
      · exact ih _ (Nat.div_lt_self (by omega) htwo) c hc
      · exact ⟨n % base, Nat.mod_lt _ (by omega), hc⟩

theorem baseOf_bounds (specifier : Char) : 1 < baseOf specifier ∧ baseOf specifier ≤ 16 := by
  unfold baseOf
  split_ifs <;> decide

theorem magnitude_fst {w : ℕ} (value : BitVec w) : (magnitude value).1 = value.toInt.natAbs := by
  unfold magnitude
  have hlt := value.isLt
  have hneg : (0 - value).toNat = (2 ^ w - value.toNat) % 2 ^ w := by simp
  rw [hneg, BitVec.toInt_eq_toNat_cond]
  generalize 2 ^ w = n at hlt ⊢
  by_cases hsmall : 2 * value.toNat < n
  · rw [if_pos hsmall, Int.natAbs_natCast]
    by_cases hzero : value.toNat = 0
    · simp [hzero]
    · rw [if_pos (by omega)]
  · rw [if_neg hsmall, if_neg (by omega), Nat.mod_eq_of_lt (by omega)]
    omega

/-! ## The buffer -/

theorem length_pushZeros (buf : List Char) (n : ℕ) :
    (pushZeros buf n).length = max buf.length (min n ntoaBufferSize) := by
  rw [pushZeros, List.length_append, List.length_replicate]
  omega

theorem reverse_pushZeros (buf : List Char) (n : ℕ) : (pushZeros buf n).reverse =
    List.replicate (min n ntoaBufferSize - buf.length) '0' ++ buf.reverse := by
  rw [pushZeros, List.reverse_append, List.reverse_replicate]

theorem pushZeros_zero (buf : List Char) : pushZeros buf 0 = buf := by
  simp [pushZeros]

namespace Integer

variable (k : Integer)

/-- The buffer with the digits and the zeros in front of them. -/
def digitsBuf : List Char :=
  pushZeros (k.digits.reverse.take ntoaBufferSize) (if k.flags.left then 0 else k.zeros)

theorem length_sign : k.sign.length = if k.negative || (integerFlags k.specifier k.flags).plus ||
    (integerFlags k.specifier k.flags).space then 1 else 0 := by
  unfold sign integerFlags
  by_cases hnegative : k.negative = true
  · simp [hnegative]
  by_cases hsigned : isSigned k.specifier = true
  · by_cases hplus : k.flags.plus = true
    · simp [hnegative, hsigned, hplus]
    · by_cases hspace : k.flags.space = true <;> simp [hnegative, hsigned, hplus, hspace]
  · simp [hnegative, hsigned]

theorem signedWidth_eq : signedWidth k.negative k.width (integerFlags k.specifier k.flags) =
    if k.zeropad then k.width - k.sign.length else k.width := by
  have hleft : (integerFlags k.specifier k.flags).left = k.flags.left := rfl
  have hzeropad : (integerFlags k.specifier k.flags).zeropad =
      (k.flags.zeropad && !k.flags.precision) := rfl
  rw [signedWidth, length_sign, hleft, hzeropad, zeropad]
  cases k.negative || (integerFlags k.specifier k.flags).plus ||
    (integerFlags k.specifier k.flags).space with
  | false => simp
  | true =>
    cases k.width <;> cases k.flags.zeropad <;> cases k.flags.precision <;> cases k.flags.left <;> simp

theorem pushSign_eq (buf : List Char) :
    pushSign buf k.negative (integerFlags k.specifier k.flags) =
      if buf.length < ntoaBufferSize then buf ++ k.sign else buf := by
  unfold pushSign sign push integerFlags
  simp only [Bool.and_comm (isSigned k.specifier)]
  cases k.negative <;> cases k.flags.plus && isSigned k.specifier <;>
    cases k.flags.space && isSigned k.specifier <;> simp

theorem zeros_of_left (h : k.flags.left = true) : k.zeros = k.prec := by
  simp [zeros, zeropad, h]

variable {k}

/-- The buffer before the sign. -/
theorem digitsBuf_eq (hk : k.Plain) :
    (let buf := k.digits.reverse.take ntoaBufferSize
     let buf := if !k.flags.left then pushZeros buf k.prec else buf
     if !k.flags.left && (integerFlags k.specifier k.flags).zeropad then
       pushZeros buf (signedWidth k.negative k.width (integerFlags k.specifier k.flags))
     else buf) = k.digitsBuf := by
  have hzeropad : (integerFlags k.specifier k.flags).zeropad =
      (k.flags.zeropad && !k.flags.precision) := rfl
  rw [hzeropad, signedWidth_eq]
  unfold digitsBuf zeros zeropad
  cases hl : k.flags.left with
  | true => simp [pushZeros_zero]
  | false =>
    cases hp : k.flags.precision with
    | true => simp
    | false =>
      rw [hk.prec hp]
      cases k.flags.zeropad <;> simp [pushZeros_zero]

/-- **The text**, when there is no `#`. -/
theorem text_eq (hk : k.Plain) : k.text =
    revText (if k.digitsBuf.length < ntoaBufferSize then k.digitsBuf ++ k.sign else k.digitsBuf)
      (if k.zeropad then k.width - k.sign.length else k.width)
      (integerFlags k.specifier k.flags) := by
  have hhash : (integerFlags k.specifier k.flags).hash = false := by
    show (k.flags.hash && decide (baseOf k.specifier ≠ 10)) = false
    rcases hk.hash with h | h <;> simp [h]
  have hflags : (if k.value = 0 then
      { integerFlags k.specifier k.flags with hash := false }
      else integerFlags k.specifier k.flags) = integerFlags k.specifier k.flags := by
    split
    · rw [← hhash]
    · rfl
  have huppercase : (integerFlags k.specifier k.flags).uppercase = decide (k.specifier = 'X') := by
    show (k.flags.uppercase || _) = _
    rw [hk.uppercase, Bool.false_or]
  have hdigits : (if !(integerFlags k.specifier k.flags).precision || k.value ≠ 0 then
      ntoaDigits (integerFlags k.specifier k.flags).uppercase (baseOf k.specifier) ntoaBufferSize
        k.value else []) = k.digits.reverse.take ntoaBufferSize := by
    obtain ⟨hlt, hle⟩ := baseOf_bounds k.specifier
    rw [huppercase, ntoaDigits_eq hle hlt]
    unfold digits
    have hprecision : (integerFlags k.specifier k.flags).precision = k.flags.precision := rfl
    rw [hprecision]
    cases k.flags.precision <;> by_cases hv : k.value = 0 <;> simp [hv]
  unfold text integerText
  simp only [hflags, hdigits]
  unfold ntoaBuf
  simp only [hhash, Bool.false_eq_true, if_false]
  have hbuf := digitsBuf_eq hk
  have hleft : (integerFlags k.specifier k.flags).left = k.flags.left := rfl
  simp only at hbuf
  rw [hleft, hbuf, pushSign_eq, signedWidth_eq]

theorem length_digitsBuf_eq_iff : k.digitsBuf.length = k.paddedDigits.length ↔
    (k.flags.left = true → k.prec ≤ k.digits.length) ∧
      k.paddedDigits.length ≤ ntoaBufferSize := by
  unfold digitsBuf paddedDigits
  rw [length_pushZeros, List.length_take, List.length_reverse, List.length_append,
    List.length_replicate]
  cases hl : k.flags.left with
  | true =>
    rw [zeros_of_left k hl, if_pos rfl, imp_iff_right rfl]
    omega
  | false =>
    simp only [Bool.false_eq_true, if_false, false_imp_iff, true_and]
    omega

theorem reverse_digitsBuf (hleft : k.flags.left = true → k.prec ≤ k.digits.length)
    (hfits : k.paddedDigits.length ≤ ntoaBufferSize) : k.digitsBuf.reverse = k.paddedDigits := by
  unfold paddedDigits at hfits ⊢
  rw [List.length_append, List.length_replicate] at hfits
  have hall : k.digits.reverse.take ntoaBufferSize = k.digits.reverse :=
    List.take_of_length_le (by rw [List.length_reverse]; omega)
  have hzeros : min (if k.flags.left then 0 else k.zeros) ntoaBufferSize - k.digits.length =
      k.zeros - k.digits.length := by
    cases hl : k.flags.left with
    | true =>
      have hle := hleft hl
      rw [zeros_of_left k hl, if_pos rfl]
      omega
    | false =>
      simp only [Bool.false_eq_true, if_false]
      omega
  rw [digitsBuf, hall, reverse_pushZeros, List.reverse_reverse, List.length_reverse, hzeros]

end Integer

/-! ## The characters that are no digits -/

def isMark (c : Char) : Bool := c = ' ' || c = '-' || c = '+'

/-- The number of the digits in a text. -/
def countDigits (text : List Char) : ℕ := text.countP fun c => !isMark c

theorem countDigits_append (text text' : List Char) :
    countDigits (text ++ text') = countDigits text + countDigits text' :=
  List.countP_append

theorem countDigits_spaces (n : ℕ) : countDigits (spaces n) = 0 := by
  rw [countDigits, List.countP_eq_zero]
  intro c hc
  rw [(List.mem_replicate.mp hc).2]
  decide

theorem countDigits_ite_spaces (c : Bool) (n : ℕ) :
    countDigits (if c then spaces n else []) = 0 := by
  cases c
  · rfl
  · exact countDigits_spaces n

/-- A character in front of a text is one of the spaces, when the text does not contain it. -/
theorem spaces_append_eq_iff {c : Char} {text : List Char} (hc : c ∉ text) {m n : ℕ} :
    spaces m ++ text = spaces n ++ ([c] ++ text) ↔ c = ' ' ∧ m = n + 1 := by
  unfold spaces
  constructor
  · intro heq
    have hlengths := congrArg List.length heq
    simp only [List.length_append, List.length_replicate, List.length_singleton] at hlengths
    refine ⟨?_, by omega⟩
    by_contra hspace
    have hcount := congrArg (List.count c) heq
    have hne : ' ' ≠ c := fun h => hspace h.symm
    simp [List.count_append, List.count_replicate, List.count_eq_zero.mpr hc, hne] at hcount
  · rintro ⟨rfl, rfl⟩
    rw [← List.append_assoc, List.replicate_succ']

namespace Integer

variable {k : Integer}

theorem isMark_of_mem_digits {c : Char} (h : c ∈ k.digits) : isMark c = false := by
  unfold digits numeral at h
  split at h
  case isTrue => cases h
  case isFalse =>
    obtain ⟨hlt, hle⟩ := baseOf_bounds k.specifier
    obtain ⟨c', hc', rfl⟩ := List.mem_map.mp h
    obtain ⟨d, hd, rfl⟩ := exists_digitChar hlt k.value c' hc'
    have hsixteen : d < 16 := by omega
    cases decide (k.specifier = 'X') <;> interval_cases d <;> rfl

theorem isMark_of_mem_paddedDigits {c : Char} (h : c ∈ k.paddedDigits) : isMark c = false := by
  rcases List.mem_append.mp h with hc | hc
  · rw [(List.mem_replicate.mp hc).2]
    rfl
  · exact isMark_of_mem_digits hc

theorem countDigits_paddedDigits : countDigits k.paddedDigits = k.paddedDigits.length := by
  rw [countDigits, List.countP_eq_length]
  intro c hc
  rw [isMark_of_mem_paddedDigits hc]
  rfl

theorem countDigits_digitsBuf : countDigits k.digitsBuf.reverse = k.digitsBuf.length := by
  rw [← List.length_reverse, countDigits, List.countP_eq_length]
  intro c hc
  rw [List.mem_reverse, digitsBuf, pushZeros, List.mem_append] at hc
  rcases hc with hc | hc
  · rw [isMark_of_mem_digits (List.mem_reverse.mp (List.mem_of_mem_take hc))]
    rfl
  · rw [(List.mem_replicate.mp hc).2]
    rfl

/-- A sign is one character at most. -/
theorem sign_cases (k : Integer) : k.sign = [] ∨ ∃ c, isMark c = true ∧ k.sign = [c] := by
  unfold sign
  split_ifs
  · exact .inr ⟨'-', rfl, rfl⟩
  · exact .inr ⟨'+', rfl, rfl⟩
  · exact .inr ⟨' ', rfl, rfl⟩
  · exact .inl rfl

theorem countDigits_sign (k : Integer) : countDigits k.sign = 0 := by
  rcases k.sign_cases with hsign | ⟨c, hc, hsign⟩
  · rw [hsign]
    rfl
  · simp [hsign, countDigits, hc]

theorem reverse_sign (k : Integer) : k.sign.reverse = k.sign := by
  rcases k.sign_cases with hsign | ⟨c, hc, hsign⟩ <;> rw [hsign] <;> rfl

theorem countDigits_paddedText : countDigits k.paddedText = k.paddedDigits.length := by
  unfold paddedText
  split
  case isTrue =>
    rw [countDigits_append, countDigits_append, countDigits_spaces, countDigits_sign,
      countDigits_paddedDigits]
    omega
  case isFalse =>
    rw [countDigits_append, countDigits_append, countDigits_spaces, countDigits_sign,
      countDigits_paddedDigits]
    omega

/-- The text, by the sign that has room. -/
theorem text_eq_append (hk : k.Plain) :
    k.text =
      (if !k.flags.left && !k.zeropad then
        spaces (k.width - (k.digitsBuf.length +
          (if k.digitsBuf.length < ntoaBufferSize then k.sign else []).length)) else []) ++
      ((if k.digitsBuf.length < ntoaBufferSize then k.sign else []) ++ k.digitsBuf.reverse) ++
      if k.flags.left then
        spaces (k.width - (k.digitsBuf.length +
          (if k.digitsBuf.length < ntoaBufferSize then k.sign else []).length)) else [] := by
  have hleft : (integerFlags k.specifier k.flags).left = k.flags.left := rfl
  have hzeropad : (integerFlags k.specifier k.flags).zeropad =
      (k.flags.zeropad && !k.flags.precision) := rfl
  have hbuf : (if k.digitsBuf.length < ntoaBufferSize then k.digitsBuf ++ k.sign else k.digitsBuf) =
      k.digitsBuf ++ if k.digitsBuf.length < ntoaBufferSize then k.sign else [] := by
    split
    · rfl
    · exact (List.append_nil _).symm
  have hreverse : (if k.digitsBuf.length < ntoaBufferSize then k.sign else []).reverse =
      if k.digitsBuf.length < ntoaBufferSize then k.sign else [] := by
    split
    · exact reverse_sign k
    · rfl
  rw [text_eq hk, hbuf, revText, List.reverse_append, hreverse, List.length_append, hleft, hzeropad]
  unfold zeropad
  cases k.flags.left <;> cases k.flags.zeropad <;> cases k.flags.precision <;> simp

theorem countDigits_text (hk : k.Plain) : countDigits k.text = k.digitsBuf.length := by
  have hsign : countDigits (if k.digitsBuf.length < ntoaBufferSize then k.sign else []) = 0 := by
    split
    · exact countDigits_sign k
    · rfl
  rw [text_eq_append hk, countDigits_append, countDigits_append, countDigits_append, hsign,
    countDigits_digitsBuf, countDigits_ite_spaces, countDigits_ite_spaces]
  omega

/-- With zeros in front of the digits there are no spaces. -/
theorem width_le_of_zeropad (h : k.zeropad = true) :
    k.width ≤ k.sign.length + k.paddedDigits.length := by
  rw [paddedDigits, List.length_append, List.length_replicate, zeros, if_pos h]
  omega

theorem text_of_sign (hk : k.Plain) (hbuf : k.digitsBuf.reverse = k.paddedDigits)
    (hsign : (if k.digitsBuf.length < ntoaBufferSize then k.sign else []) = k.sign) :
    k.text = k.paddedText := by
  have hlength : k.digitsBuf.length = k.paddedDigits.length := by rw [← hbuf, List.length_reverse]
  rw [text_eq_append hk, hsign, hbuf, hlength, paddedText, List.length_append, Nat.add_comm]
  cases hl : k.flags.left with
  | true => simp
  | false =>
    cases hz : k.zeropad with
    | true =>
      have hwidth := width_le_of_zeropad hz
      simp [spaces, Nat.sub_eq_zero_of_le hwidth]
    | false => simp

/-- Without its sign the text is all there only when the sign is one of the spaces. -/
theorem text_of_no_sign (hk : k.Plain) (hbuf : k.digitsBuf.reverse = k.paddedDigits) {c : Char}
    (hc : isMark c = true) (hsign : k.sign = [c])
    (hlength : k.paddedDigits.length = ntoaBufferSize) :
    k.text = k.paddedText ↔ c = ' ' ∧ ntoaBufferSize < k.width ∧ k.flags.left = false ∧
      k.zeropad = false := by
  have hsize : k.digitsBuf.length = ntoaBufferSize := by rw [← hlength, ← hbuf, List.length_reverse]
  obtain ⟨d, digits, hdigits⟩ : ∃ d digits, k.paddedDigits = d :: digits :=
    List.exists_cons_of_length_pos (by rw [hlength]; decide)
  have hne : d ≠ c := by
    have hmark := isMark_of_mem_paddedDigits (k := k) (hdigits ▸ List.mem_cons_self)
    rintro rfl
    rw [hc] at hmark
    cases hmark
  have htext : k.text = (if !k.flags.left && !k.zeropad then spaces (k.width - ntoaBufferSize) else []) ++
      k.paddedDigits ++ if k.flags.left then spaces (k.width - ntoaBufferSize) else [] := by
    rw [text_eq_append hk, hbuf, hsize, if_neg (Nat.lt_irrefl _)]
    rfl
  rw [htext, paddedText, hsign, List.length_append, List.length_singleton, hlength]
  cases hl : k.flags.left with
  | true => simp [hdigits, hne]
  | false =>
    cases hz : k.zeropad with
    | true =>
      have hwidth := width_le_of_zeropad hz
      rw [hsign, List.length_singleton, hlength] at hwidth
      simp [spaces, Nat.sub_eq_zero_of_le hwidth, hdigits]
    | false =>
      have hnot : c ∉ k.paddedDigits := by
        intro hmem
        rw [isMark_of_mem_paddedDigits hmem] at hc
        cases hc
      simp only [Bool.not_false, Bool.and_true, if_true, Bool.false_eq_true, if_false,
        List.append_nil, and_true, spaces_append_eq_iff hnot]
      refine and_congr_right fun _ => ?_
      omega

/-- **All of the text is there** exactly when the conversion fits. -/
theorem text_eq_paddedText_iff (hk : k.Plain) : k.text = k.paddedText ↔ k.Fits := by
  unfold Fits
  constructor
  · intro heq
    have hlength : k.digitsBuf.length = k.paddedDigits.length := by
      rw [← countDigits_text hk, heq, countDigits_paddedText]
    obtain ⟨hleft, hfits⟩ := length_digitsBuf_eq_iff.mp hlength
    refine ⟨hleft, ?_⟩
    rcases k.sign_cases with hsign | ⟨c, hc, hsign⟩
    · rw [hsign]
      exact .inl (by simpa using hfits)
    · rcases Nat.lt_or_eq_of_le hfits with hlt | hsize
      · rw [hsign, List.length_singleton]
        exact .inl (by omega)
      · obtain ⟨rfl, hwidth, hl, hz⟩ :=
          (text_of_no_sign hk (reverse_digitsBuf hleft hfits) hc hsign hsize).mp heq
        exact .inr ⟨hsign, hsize, hwidth, hl, hz⟩
  · rintro ⟨hleft, hroom | ⟨hsign, hsize, hwidth, hl, hz⟩⟩
    · have hfits : k.paddedDigits.length ≤ ntoaBufferSize := by omega
      have hlength := length_digitsBuf_eq_iff.mpr ⟨hleft, hfits⟩
      refine text_of_sign hk (reverse_digitsBuf hleft hfits) ?_
      rcases k.sign_cases with hsign | ⟨c, hc, hsign⟩
      · rw [hsign, ite_self]
      · rw [hsign, List.length_singleton] at hroom
        exact if_pos (by omega)
    · exact (text_of_no_sign hk (reverse_digitsBuf hleft (by omega)) rfl hsign hsize).mpr
        ⟨rfl, hwidth, hl, hz⟩

end Integer

/-! ## Conversions without flags -/

theorem numeral_false (base value : ℕ) : numeral false base value = Nat.toDigits base value :=
  List.map_id _

/-- 64 bits have 22 digits at most, in base eight and above. -/
theorem length_numeral {base value : ℕ} (hbase : 8 ≤ base) (hvalue : value < 2 ^ 64)
    (uppercase : Bool) : (numeral uppercase base value).length ≤ 22 := by
  rw [numeral, List.length_map, Nat.length_toDigits_le_iff (by omega) (by decide)]
  have hpow : 8 ^ 22 ≤ base ^ 22 := Nat.pow_le_pow_left hbase 22
  have height : (2 : ℕ) ^ 64 < 8 ^ 22 := by decide
  omega

/-- The sign and the digits. -/
theorem Integer.text_simple {k : Integer} (hbase : 8 ≤ baseOf k.specifier) (hvalue : k.value < 2 ^ 64)
    (hflags : k.flags = { long := k.flags.long, longLong := k.flags.longLong })
    (hprec : k.prec = 0) (hwidth : k.width = 0) :
    k.text = k.sign ++ numeral (k.specifier = 'X') (baseOf k.specifier) k.value := by
  have hleft : k.flags.left = false := by rw [hflags]
  have hprecision : k.flags.precision = false := by rw [hflags]
  have hzeropad : k.flags.zeropad = false := by rw [hflags]
  have hk : k.Plain :=
    ⟨.inl (by rw [hflags]), fun _ => hprec, by rw [hflags]⟩
  have hdigits : k.digits = numeral (k.specifier = 'X') (baseOf k.specifier) k.value := by
    simp [Integer.digits, hprecision]
  have hpadded : k.paddedDigits = numeral (k.specifier = 'X') (baseOf k.specifier) k.value := by
    simp [Integer.paddedDigits, Integer.zeros, Integer.zeropad, hzeropad, hprec, hdigits]
  have hlength := length_numeral hbase hvalue (k.specifier = 'X')
  have hsign : k.sign.length ≤ 1 := by
    rcases k.sign_cases with hsign | ⟨c, -, hsign⟩ <;> simp [hsign]
  have hfits : k.Fits := by
    refine ⟨fun h => ?_, .inl ?_⟩
    · rw [hleft] at h
      cases h
    · have hsize : ntoaBufferSize = 32 := rfl
      rw [hpadded]
      omega
  rw [(Integer.text_eq_paddedText_iff hk).mpr hfits, Integer.paddedText, hleft, hpadded, hwidth]
  simp [spaces]

/-! ## Conversions of a format -/

theorem formatText_of_integer {format rest : CStr} {va va' : VaList} {s : Spec} {c : Char} {value : ℕ}
    {negative : Bool} (hspec : evalSpec format va = some s) (hformat : s.format = c :: rest)
    (hc : c ∈ ['d', 'i', 'u', 'x', 'X', 'o', 'b'])
    (harg : integerArg c (integerFlags c s.flags) s.va = some ((value, negative), va')) :
    formatText ('%' :: format) va = (formatText rest va').map
      ((Integer.mk c s.flags s.precision s.width value negative).text ++ ·) := by
  have hspecifier : evalSpecifier s = some (.integer value negative (baseOf c) s.precision s.width
      (integerFlags c s.flags), rest, va') := by
    rw [evalSpecifier, hformat]
    dsimp only
    rw [if_pos hc, harg]
    rfl
  exact formatText_percent hspec hspecifier

/-- `%-8.5d` of 42 ignores the precision, and `%8.5d` does not. -/
example : Integer.text ⟨'d', { left := true, precision := true }, 5, 8, 42, false⟩ = "42      ".toList ∧
    Integer.text ⟨'d', { precision := true }, 5, 8, 42, false⟩ = "   00042".toList := by decide

end Jbinit.Fakedyld.Printf

import Jbinit.Fakedyld.Printf

/-!
# The text of a format

What `vsnprintf` puts out does not depend on the output function: it is the text of the format with
its arguments (`internalVsnprintf_eq`). So a buffer is left with the beginning of the text that fits
and its terminator, for every format without a conversion of a `double`, and nothing else is written
(`vsnprintf_eq`); of what is printed on the console no character is lost or comes twice on its way to
`write` (`vprintf_eq_some`).
-/

namespace Jbinit.Fakedyld.Printf

open Foundations Output Memory

/-! ## The text of a conversion -/

def spaces (n : ℕ) : List Char := List.replicate n ' '

/-- The text of `_out_rev`. -/
def revText (buf : List Char) (width : ℕ) (flags : FormatFlags) : List Char :=
  (if !flags.left && !flags.zeropad then spaces (width - buf.length) else []) ++ buf.reverse ++
    if flags.left then spaces (width - buf.length) else []

def integerText (value : ℕ) (negative : Bool) (base prec width : ℕ) (flags : FormatFlags) :
    List Char :=
  let flags := if value = 0 then { flags with hash := false } else flags
  let buf :=
    if !flags.precision || value ≠ 0 then ntoaDigits flags.uppercase base ntoaBufferSize value else []
  revText (ntoaBuf buf negative base prec (signedWidth negative width flags) flags)
    (signedWidth negative width flags) flags

/-- The text with spaces up to a width, of which the text is taken to have `l`. -/
def padded (text : List Char) (l width : ℕ) (flags : FormatFlags) : List Char :=
  (if !flags.left then spaces (width - l) else []) ++ text ++
    if flags.left then spaces (width - l) else []

/-- The length that `%s` takes its string to have. -/
def stringLength (p : CStr) (precision : ℕ) (flags : FormatFlags) : ℕ :=
  let l := min p.length (if precision ≠ 0 then precision else 2 ^ 64 - 1) % 2 ^ 32
  if flags.precision then min l precision else l

def Conversion.text : Conversion → List Char
  | .integer value negative base prec width flags =>
    integerText value negative base prec width flags
  | .char c width flags => padded [c] 1 width flags
  | .string p precision width flags =>
    padded (if flags.precision then p.take precision else p) (stringLength p precision flags) width
      flags
  | .literal c => [c]

def formatTextLoop : ℕ → CStr → VaList → Option (List Char)
  | _, [], _ => some []
  | 0, _ :: _, _ => none
  | fuel + 1, c :: format, va =>
    if c ≠ '%' then (formatTextLoop fuel format va).map (c :: ·)
    else do
      let s ← evalSpec format va
      let (conversion, format, va) ← evalSpecifier s
      (formatTextLoop fuel format va).map (conversion.text ++ ·)

/-- The text of a format with its arguments. -/
def formatText (format : CStr) (va : VaList) : Option (List Char) :=
  formatTextLoop format.length format va

/-! ## The equations of the text -/

theorem length_evalFlags (flags : FormatFlags) (format : CStr) :
    (evalFlags flags format).2.length ≤ format.length := by
  induction format generalizing flags with
  | nil => exact Nat.le_refl _
  | cons c format ih =>
    rw [evalFlags]
    split_ifs
    case neg => exact Nat.le_refl _
    all_goals exact Nat.le_succ_of_le (ih _)

theorem length_atoi (i : ℕ) (str : CStr) : (atoi i str).2.length ≤ str.length := by
  induction str generalizing i with
  | nil => exact Nat.le_refl _
  | cons c str ih =>
    rw [atoi]
    split
    · exact Nat.le_succ_of_le (ih _)
    · exact Nat.le_refl _

theorem length_evalWidth {s s' : Spec} (h : evalWidth s = some s') :
    s'.format.length ≤ s.format.length := by
  unfold evalWidth at h
  split at h
  · cases h
    exact Nat.le_refl _
  next c format hformat =>
    split at h
    · cases h
      exact length_atoi 0 s.format
    split at h
    · obtain ⟨⟨w, va⟩, -, h⟩ := Option.bind_eq_some_iff.mp h
      have hlength : format.length ≤ s.format.length := by
        rw [hformat]
        exact Nat.le_succ _
      dsimp only at h
      split at h
      · cases h
        exact hlength
      · cases h
        exact hlength
    · cases h
      exact Nat.le_refl _

theorem length_evalPrecision {s s' : Spec} (h : evalPrecision s = some s') :
    s'.format.length ≤ s.format.length := by
  unfold evalPrecision at h
  split at h
  · cases h
    exact Nat.le_refl _
  next c format hformat =>
    rw [hformat, List.length_cons]
    split at h
    · split at h
      · cases h
        exact Nat.zero_le _
      next c' format =>
        split at h
        · cases h
          exact Nat.le_succ_of_le (length_atoi 0 _)
        split at h
        · obtain ⟨r, -, h⟩ := Option.bind_eq_some_iff.mp h
          cases h
          exact Nat.le_succ_of_le (Nat.le_succ _)
        · cases h
          exact Nat.le_succ _
    · cases h
      rw [hformat, List.length_cons]

theorem length_evalLength (flags : FormatFlags) (format : CStr) :
    (evalLength flags format).2.length ≤ format.length := by
  unfold evalLength
  split <;> simp only [List.length_cons] <;> omega

theorem length_evalSpec {format : CStr} {va : VaList} {s : Spec} (h : evalSpec format va = some s) :
    s.format.length ≤ format.length := by
  unfold evalSpec at h
  obtain ⟨s₁, hwidth, h⟩ := Option.bind_eq_some_iff.mp h
  obtain ⟨s₂, hprecision, h⟩ := Option.bind_eq_some_iff.mp h
  obtain rfl := Option.some.inj h
  have hflags := length_evalFlags {} format
  have hwidth := length_evalWidth hwidth
  have hprecision := length_evalPrecision hprecision
  have hlength := length_evalLength s₂.flags s₂.format
  show (evalLength s₂.flags s₂.format).2.length ≤ format.length
  dsimp only at hwidth
  omega

theorem evalSpecifier_format {s : Spec} {r : Conversion × CStr × VaList}
    (h : evalSpecifier s = some r) : ∃ c, s.format = c :: r.2.1 := by
  unfold evalSpecifier at h
  split at h
  · cases h
  next c format hformat =>
    refine ⟨c, ?_⟩
    rw [hformat]
    congr 1
    split at h
    · obtain ⟨a, -, h⟩ := Option.bind_eq_some_iff.mp h
      cases h
      rfl
    split at h
    · cases h
    split at h
    · obtain ⟨a, -, h⟩ := Option.bind_eq_some_iff.mp h
      cases h
      rfl
    split at h
    · obtain ⟨a, -, h⟩ := Option.bind_eq_some_iff.mp h
      cases h
      rfl
    split at h
    · obtain ⟨a, -, h⟩ := Option.bind_eq_some_iff.mp h
      cases h
      rfl
    · cases h
      rfl

/-- Each time around the loop a character is taken of the format. -/
theorem formatTextLoop_eq {fuel fuel' : ℕ} {format : CStr} (h : format.length ≤ fuel)
    (h' : format.length ≤ fuel') (va : VaList) :
    formatTextLoop fuel format va = formatTextLoop fuel' format va := by
  induction fuel generalizing fuel' format va with
  | zero =>
    obtain rfl := List.length_eq_zero_iff.mp (Nat.le_zero.mp h)
    simp only [formatTextLoop]
  | succ fuel ih =>
    cases format with
    | nil => simp only [formatTextLoop]
    | cons c format =>
      obtain ⟨fuel', rfl⟩ : ∃ n, fuel' = n + 1 := ⟨fuel' - 1, by rw [List.length_cons] at h'; omega⟩
      rw [List.length_cons, Nat.succ_le_succ_iff] at h h'
      rw [formatTextLoop, formatTextLoop, ih h h']
      cases hspec : evalSpec format va with
      | none => rfl
      | some s =>
        simp only [Option.bind_eq_bind, Option.bind_some]
        cases hspecifier : evalSpecifier s with
        | none => rfl
        | some r =>
          obtain ⟨c', hformat⟩ := evalSpecifier_format hspecifier
          have hlength := length_evalSpec hspec
          rw [hformat, List.length_cons] at hlength
          simp only [Option.bind_some]
          rw [ih (by omega) (show r.2.1.length ≤ fuel' by omega)]

@[simp] theorem formatText_nil (va : VaList) : formatText [] va = some [] := rfl

/-- A character that is put out as it is. -/
theorem formatText_cons {c : Char} (hc : c ≠ '%') (format : CStr) (va : VaList) :
    formatText (c :: format) va = (formatText format va).map (c :: ·) := by
  rw [formatText, List.length_cons, formatTextLoop, if_pos hc]
  rfl

theorem formatText_append {text : List Char} (htext : '%' ∉ text) (format : CStr) (va : VaList) :
    formatText (text ++ format) va = (formatText format va).map (text ++ ·) := by
  induction text with
  | nil => exact (congrFun Option.map_id _).symm
  | cons c text ih =>
    rw [List.mem_cons, not_or] at htext
    rw [List.cons_append, formatText_cons (Ne.symm htext.1), ih htext.2, Option.map_map]
    rfl

/-- A conversion. -/
theorem formatText_percent {format rest : CStr} {va va' : VaList} {s : Spec} {conversion : Conversion}
    (hspec : evalSpec format va = some s)
    (hspecifier : evalSpecifier s = some (conversion, rest, va')) :
    formatText ('%' :: format) va = (formatText rest va').map (conversion.text ++ ·) := by
  obtain ⟨c, hformat⟩ := evalSpecifier_format hspecifier
  have hlength := length_evalSpec hspec
  rw [hformat, List.length_cons] at hlength
  rw [formatText, List.length_cons, formatTextLoop, if_neg (by simp), hspec, Option.bind_eq_bind,
    Option.bind_some, hspecifier, Option.bind_eq_bind, Option.bind_some]
  exact congrArg (Option.map (conversion.text ++ ·))
    (formatTextLoop_eq (by dsimp only at hlength; omega) (Nat.le_refl _) va')

/-! ## Every output function gets the text -/

variable {S : Type} {out : Sink S Char} {maxlen : ℕ}

theorem outSpaces_eq (n : ℕ) (st : S × ℕ) :
    outSpaces out maxlen n st = emits out maxlen st (spaces n) := by
  induction n generalizing st with
  | zero => rfl
  | succ n ih =>
    rw [outSpaces, ih]
    rfl

theorem outReverse_eq (buf : List Char) {len : ℕ} (h : len ≤ buf.length) (st : S × ℕ) :
    outReverse out maxlen buf len st = emits out maxlen st (buf.take len).reverse := by
  induction len generalizing st with
  | zero => rfl
  | succ len ih =>
    have hget : buf.getD len nul = buf[len] := by
      rw [List.getD, List.getElem?_eq_getElem (by omega), Option.getD_some]
    rw [outReverse, ih (by omega), List.take_succ_eq_append_getElem (by omega), List.reverse_append,
      hget]
    rfl

theorem outRev_eq (st : S × ℕ) (buf : List Char) (width : ℕ) (flags : FormatFlags) :
    outRev out maxlen st buf width flags = emits out maxlen st (revText buf width flags) := by
  unfold outRev revText
  simp only [outReverse_eq buf (Nat.le_refl _), List.take_length]
  cases hleft : flags.left with
  | true =>
    simp only [Bool.not_true, Bool.false_and, Bool.false_eq_true, if_false, if_true, emits_snd,
      List.length_reverse, outSpaces_eq, List.nil_append, emits_append, Nat.add_sub_cancel_left]
  | false =>
    cases flags.zeropad with
    | true =>
      simp only [Bool.not_true, Bool.and_false, Bool.false_eq_true, if_false, List.nil_append,
        List.append_nil]
    | false =>
      simp only [Bool.not_false, Bool.and_true, if_true, Bool.false_eq_true, if_false, outSpaces_eq,
        List.append_nil, emits_append]

theorem ntoaLongLong_eq (st : S × ℕ) (value : ℕ) (negative : Bool) (base prec width : ℕ)
    (flags : FormatFlags) : ntoaLongLong out maxlen st value negative base prec width flags =
      emits out maxlen st (integerText value negative base prec width flags) :=
  outRev_eq _ _ _ _

theorem strnlenS_eq (str : CStr) (maxsize : ℕ) : strnlenS str maxsize = min str.length maxsize := by
  induction str generalizing maxsize with
  | nil => simp [strnlenS]
  | cons c str ih =>
    cases maxsize with
    | zero => simp [strnlenS]
    | succ maxsize =>
      rw [strnlenS, ih, List.length_cons]
      omega

theorem outString_eq (flags : FormatFlags) (p : CStr) (precision : ℕ) (st : S × ℕ) :
    outString out maxlen flags p precision st =
      emits out maxlen st (if flags.precision then p.take precision else p) := by
  induction p generalizing precision st with
  | nil => simp [outString]
  | cons c p ih =>
    cases hprecision : flags.precision with
    | false =>
      rw [outString.eq_def]
      simp only [hprecision, Bool.not_false, if_true, ih]
      rfl
    | true =>
      cases precision with
      | zero => simp [outString, hprecision]
      | succ precision =>
        rw [outString.eq_def]
        simp only [hprecision, Bool.not_true, Bool.false_eq_true, if_false, ih]
        rfl

/-- The spaces in front of a text or behind it. -/
theorem outPadded_eq (text : List Char) (l width : ℕ) (flags : FormatFlags) (st : S × ℕ) :
    (let st := if !flags.left then outSpaces out maxlen (width - l) st else st
     let st := emits out maxlen st text
     if flags.left then outSpaces out maxlen (width - l) st else st) =
      emits out maxlen st (padded text l width flags) := by
  unfold padded
  cases flags.left with
  | true =>
    simp only [Bool.not_true, Bool.false_eq_true, if_false, if_true, List.nil_append, outSpaces_eq,
      emits_append]
  | false =>
    simp only [Bool.not_false, Bool.false_eq_true, if_false, if_true, List.append_nil, outSpaces_eq,
      emits_append]

theorem Conversion.out_eq (st : S × ℕ) (conversion : Conversion) :
    conversion.out out maxlen st = emits out maxlen st conversion.text := by
  cases conversion with
  | integer value negative base prec width flags => exact ntoaLongLong_eq ..
  | char c width flags => exact outPadded_eq [c] 1 width flags st
  | string p precision width flags =>
    rw [Conversion.out, strnlenS_eq, outString_eq]
    exact outPadded_eq _ (stringLength p precision flags) width flags st
  | literal c => rfl

theorem vsnprintfLoop_eq (fuel : ℕ) (st : S × ℕ) (format : CStr) (va : VaList) :
    vsnprintfLoop out maxlen fuel st format va =
      (formatTextLoop fuel format va).map (emits out maxlen st) := by
  induction fuel generalizing st format va with
  | zero => cases format <;> rfl
  | succ fuel ih =>
    cases format with
    | nil => rfl
    | cons c format =>
      rw [vsnprintfLoop, formatTextLoop]
      split
      case isTrue =>
        rw [ih, Option.map_map]
        rfl
      case isFalse =>
        cases evalSpec format va with
        | none => rfl
        | some s =>
          simp only [Option.bind_eq_bind, Option.bind_some]
          cases evalSpecifier s with
          | none => rfl
          | some r =>
            simp only [Option.bind_some, ih, Option.map_map, Conversion.out_eq]
            congr 1
            funext text
            exact (emits_append _ _ _).symm

/-- **The output function gets the text**, and then a NUL. -/
theorem internalVsnprintf_eq (st : S) (format : CStr) (va : VaList) :
    internalVsnprintf out st maxlen format va = (formatText format va).map fun text =>
      (out nul (emits out maxlen (st, 0) text).1
        (if text.length < maxlen then text.length else if maxlen = 0 then 2 ^ 64 - 1 else maxlen - 1)
        maxlen, toInt text.length) := by
  unfold internalVsnprintf formatText
  rw [vsnprintfLoop_eq]
  cases formatTextLoop format.length format va with
  | none => rfl
  | some text =>
    simp only [Option.map_some, Option.bind_eq_bind, Option.bind_some, Option.pure_def, emits_snd,
      Nat.zero_add]

/-! ## A buffer -/

/-- What is left in a buffer of `count` bytes. -/
def bufferText (count : ℕ) (text : List Char) : List Char :=
  if count = 0 then [] else CStr.snprintf count text ++ [nul]

theorem length_bufferText (count : ℕ) (text : List Char) : (bufferText count text).length ≤ count := by
  unfold bufferText CStr.snprintf
  split
  · exact Nat.zero_le _
  · rw [List.length_append, List.length_take, List.length_singleton]
    omega

theorem outBuffer_eq (buffer : ℕ) : outBuffer buffer = bounded buffer := rfl

/-- The terminator is put behind the text, or over the last character for which there is room. -/
theorem outBuffer_nul (mem : ℕ → Char) (buffer count : ℕ) (text : List Char) :
    outBuffer buffer nul (emits (outBuffer buffer) count (mem, 0) text).1
      (if text.length < count then text.length else if count = 0 then 2 ^ 64 - 1 else count - 1)
      count = store mem buffer (bufferText count text) := by
  rw [outBuffer_eq, emits_bounded, Nat.add_zero, Nat.sub_zero]
  unfold bufferText CStr.snprintf bounded
  rcases Nat.eq_zero_or_pos count with rfl | hpos
  · simp
  simp only [if_neg (show count ≠ 0 by omega)]
  by_cases hfits : text.length < count
  · rw [if_pos hfits, if_pos hfits, List.take_of_length_le (by omega),
      List.take_of_length_le (by omega), update_store_length]
  · -- The last character of those that fit is overwritten.
    obtain ⟨last, hlast⟩ : ∃ last, text.take count = text.take (count - 1) ++ [last] := by
      have hlt : count - 1 < text.length := by omega
      exact ⟨text[count - 1], by rw [← List.take_succ_eq_append_getElem hlt, Nat.sub_add_cancel hpos]⟩
    have hlength : (text.take (count - 1)).length = count - 1 := List.length_take_of_le (by omega)
    rw [if_neg hfits, if_pos (by omega), hlast, store_append, hlength, ← store_singleton,
      store_store_of_length (by simp), store_append, hlength]

/-- **A buffer of any size**: the beginning of the text with its terminator, and nothing else. -/
theorem vsnprintf_eq (mem : ℕ → Char) (buffer count : ℕ) (format : CStr) (va : VaList) :
    vsnprintf mem buffer count format va = (formatText format va).map fun text =>
      (if buffer = 0 then mem else store mem buffer (bufferText count text), toInt text.length) := by
  unfold vsnprintf
  rw [internalVsnprintf_eq]
  congr 1
  funext text
  by_cases hnull : buffer = 0
  · have hnone : ∀ st, (emits outNull count (mem, st) text).1 = mem := by
      intro st
      induction text generalizing st with
      | nil => rfl
      | cons c text ih => exact ih (st + 1)
    simp only [if_pos hnull]
    exact congrArg (·, _) (hnone 0)
  · simp only [if_neg hnull, outBuffer_nul]

/-- **Nothing is written outside the buffer**: it gets the beginning of the text that has room, always
with a terminator, and the length of the whole text is returned. -/
theorem vsnprintf_terminated {mem mem' : ℕ → Char} {buffer count : ℕ} {format : CStr} {va : VaList}
    {n : ℤ} (h : vsnprintf mem buffer count format va = some (mem', n)) :
    ∃ text, formatText format va = some text ∧ n = toInt text.length ∧
      (∀ j, j < buffer ∨ buffer + count ≤ j → mem' j = mem j) ∧
      (buffer = 0 ∨ count = 0 → mem' = mem) ∧
      (buffer ≠ 0 → 0 < count →
        load mem' buffer (min (count - 1) text.length) = text.take (count - 1) ∧
          mem' (buffer + min (count - 1) text.length) = nul) := by
  rw [vsnprintf_eq, Option.map_eq_some_iff] at h
  obtain ⟨text, htext, heq⟩ := h
  obtain ⟨rfl, rfl⟩ := Prod.mk.inj heq
  refine ⟨text, htext, rfl, ?_, ?_, ?_⟩
  · have hlength := length_bufferText count text
    intro j hj
    split
    · rfl
    · rcases hj with hj | hj
      · exact store_of_lt hj
      · exact store_of_le (by omega)
  · rintro (hnull | hzero)
    · exact if_pos hnull
    · rw [bufferText, if_pos hzero, store_nil, ite_self]
  · intro hnull hpos
    have hbuffer : bufferText count text = text.take (count - 1) ++ ([nul] ++ []) :=
      if_neg (by omega)
    have hlength : (text.take (count - 1)).length = min (count - 1) text.length := List.length_take
    rw [if_neg hnull, hbuffer, ← hlength]
    refine ⟨?_, ?_⟩
    · exact load_store_append _ _ [] _ _
    · rw [store_add (by simp)]
      simp

theorem vsnprintf_terminated_short :
    ∃ text, formatText "%d".toList [.word 123456#64] = some text ∧ 6 = toInt text.length ∧
      (∀ j, j < 0x100 ∨ 0x100 + 4 ≤ j → store (fun _ => ' ') 0x100 ['1', '2', '3', nul] j = ' ') ∧
      ((0x100 : ℕ) = 0 ∨ (4 : ℕ) = 0 → store (fun _ => ' ') 0x100 ['1', '2', '3', nul] = fun _ => ' ') ∧
      ((0x100 : ℕ) ≠ 0 → (0 : ℕ) < 4 →
        load (store (fun _ => ' ') 0x100 ['1', '2', '3', nul]) 0x100 (min (4 - 1) text.length) =
          text.take (4 - 1) ∧
        store (fun _ => ' ') 0x100 ['1', '2', '3', nul] (0x100 + min (4 - 1) text.length) = nul) := by
  have h : vsnprintf (fun _ => ' ') 0x100 4 "%d".toList [.word 123456#64] =
      some (store (fun _ => ' ') 0x100 ['1', '2', '3', nul], 6) := by
    have htext : formatText "%d".toList [.word 123456#64] = some "123456".toList := by decide +kernel
    have hlength : toInt "123456".toList.length = 6 := toInt_of_lt (by decide)
    rw [vsnprintf_eq, htext, Option.map_some, if_neg (by decide), hlength]
    rfl
  exact vsnprintf_terminated h

/-! ## The console -/

/-- What has been given to the console. -/
def Console.text (console : Console) : List Char := console.written ++ console.printbuf

theorem Console.text_putchar (console : Console) (character : Char) :
    (console.putchar character).text = console.text ++ [character] := by
  unfold Console.putchar Console.text
  split
  case isTrue => simp
  case isFalse => simp

theorem text_emits_outChar (console : Console) (i : ℕ) (text : List Char) :
    (emits outChar maxlen (console, i) text).1.text = console.text ++ text.filter (· ≠ nul) := by
  induction text generalizing console i with
  | nil => simp
  | cons c text ih =>
    rw [emits_cons, emit, ih]
    by_cases hc : c = nul
    · simp [outChar, hc]
    · simp [outChar, hc, Console.text_putchar]

theorem vprintf_eq_some {console console' : Console} {format : CStr} {va : VaList} {n : ℤ}
    (h : vprintf console format va = some (console', n)) :
    ∃ text, formatText format va = some text ∧
      console'.text = console.text ++ text.filter (· ≠ nul) := by
  unfold vprintf at h
  rw [internalVsnprintf_eq, Option.map_eq_some_iff] at h
  obtain ⟨text, htext, heq⟩ := h
  refine ⟨text, htext, ?_⟩
  rw [← (Prod.mk.inj heq).1, ← text_emits_outChar console 0 text]
  exact congrArg Console.text (if_pos rfl)

/-- The calls of `printf` one after the other, each with its format and its arguments. -/
def printAll (console : Console) : List (CStr × VaList) → Option Console
  | [] => some console
  | call :: calls => do
    let (console, _) ← vprintf console call.1 call.2
    printAll console calls

/-- **`write` is given every text**: what is left is part of a line of less than `printbufSize`
characters. -/
theorem printAll_eq_some {console console' : Console} {calls : List (CStr × VaList)}
    (h : printAll console calls = some console') :
    ∃ texts, calls.mapM (fun call => formatText call.1 call.2) = some texts ∧
      console'.written ++ console'.printbuf =
        console.written ++ console.printbuf ++ texts.flatten.filter (· ≠ nul) ∧
      console'.printbuf.length < printbufSize ∧ '\n' ∉ console'.printbuf := by
  induction calls generalizing console with
  | nil =>
    cases h
    exact ⟨[], rfl, by simp, console'.length_lt, console'.newline_not_mem⟩
  | cons call calls ih =>
    rw [printAll] at h
    obtain ⟨r, hr, h⟩ := Option.bind_eq_some_iff.mp h
    obtain ⟨text, htext, hconsole⟩ := vprintf_eq_some hr
    obtain ⟨texts, htexts, hall, hlt, hline⟩ := ih h
    refine ⟨text :: texts, ?_, ?_, hlt, hline⟩
    · rw [List.mapM_cons, htext, htexts]
      rfl
    · rw [hall, List.flatten_cons, List.filter_append, ← List.append_assoc]
      exact congrArg (· ++ _) hconsole

theorem length_nil_lt_printbufSize : ([] : CStr).length < printbufSize := by decide

theorem newline_not_mem_nil : '\n' ∉ ([] : CStr) := List.not_mem_nil

def plainConsole : Console := ⟨[], [], length_nil_lt_printbufSize, newline_not_mem_nil⟩

theorem printAll_eq_some_two : ∃ texts,
    [("%s\n".toList, [Arg.str ['a', 'b']]), ("%c".toList, [Arg.word 99#64])].mapM
        (fun call => formatText call.1 call.2) = some texts ∧
      "ab\n".toList ++ ['c'] = plainConsole.written ++ plainConsole.printbuf ++
        texts.flatten.filter (· ≠ nul) ∧
      ['c'].length < printbufSize ∧ '\n' ∉ ['c'] := by
  have h : printAll plainConsole
      [("%s\n".toList, [Arg.str ['a', 'b']]), ("%c".toList, [Arg.word 99#64])] =
      some ⟨"ab\n".toList, ['c'], by decide, by decide⟩ := rfl
  exact printAll_eq_some h

end Jbinit.Fakedyld.Printf

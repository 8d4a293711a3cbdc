import Jbinit.Fakedyld.SystemInfo
import Jbinit.Foundations.Output
import Mathlib.Data.BitVec

/-!
# `vsnprintf`

fakedyld formats with a `printf` of its own. Every function takes an output function, to which it
gives one character after the other with its index (`Sink`); the output function for a buffer drops
the characters for which there is no room. The conversions of a `double` (`%f`, `%e`, `%g`) are left
out: a format that has one is not evaluated here.
-/

namespace Jbinit.Fakedyld.Printf

open Foundations Output

def ntoaBufferSize : ℕ := 32

def nul : Char := Char.ofNat 0

structure FormatFlags where
  zeropad : Bool := false
  left : Bool := false
  plus : Bool := false
  space : Bool := false
  hash : Bool := false
  uppercase : Bool := false
  char : Bool := false
  short : Bool := false
  long : Bool := false
  longLong : Bool := false
  precision : Bool := false
  deriving DecidableEq, Repr

/-- An argument: what is in its 64 bits, or the string that they point to. -/
inductive Arg
  | word (w : BitVec 64)
  | str (s : CStr)
  deriving DecidableEq, Repr

abbrev VaList := List Arg

/-- `va_arg` of an argument of 64 bits. -/
def vaLong : VaList → Option (BitVec 64 × VaList)
  | .word w :: va => some (w, va)
  | _ => none

/-- `va_arg` of an `int`. -/
def vaInt (va : VaList) : Option (BitVec 32 × VaList) :=
  (vaLong va).map fun r => (r.1.setWidth 32, r.2)

def vaStr : VaList → Option (CStr × VaList)
  | .str s :: va => some (s, va)
  | _ => none

variable {S : Type}

/-! ## Output functions -/

def outBuffer (buffer : ℕ) : Sink (ℕ → Char) Char :=
  fun character mem idx maxlen =>
    if idx < maxlen then Function.update mem (buffer + idx) character else mem

def outNull : Sink S Char := fun _ buffer _ _ => buffer

def printbufSize : ℕ := 0x100

/-- The console: what `write` has been given, whatever it makes of it, and what is in `printbuf`. -/
structure Console where
  written : List Char
  printbuf : List Char
  length_lt : printbuf.length < printbufSize
  newline_not_mem : '\n' ∉ printbuf

/-- `_putchar`. -/
def Console.putchar (console : Console) (character : Char) : Console :=
  if h : character = '\n' ∨ (console.printbuf ++ [character]).length = printbufSize then
    { written := console.written ++ (console.printbuf ++ [character])
      printbuf := []
      length_lt := by decide
      newline_not_mem := List.not_mem_nil }
  else
    { written := console.written
      printbuf := console.printbuf ++ [character]
      length_lt := by
        have hlt := console.length_lt
        rw [not_or, List.length_append, List.length_singleton] at h
        rw [List.length_append, List.length_singleton]
        omega
      newline_not_mem := by
        rw [not_or] at h
        simp [console.newline_not_mem, Ne.symm h.1] }

def outChar : Sink Console Char :=
  fun character console _ _ => if character = nul then console else console.putchar character

/-- The loops that put out spaces. -/
def outSpaces (out : Sink S Char) (maxlen : ℕ) : ℕ → S × ℕ → S × ℕ
  | 0, st => st
  | n + 1, st => outSpaces out maxlen n (emit out maxlen st ' ')

/-- The first `len` characters of `buf`, the last one first. -/
def outReverse (out : Sink S Char) (maxlen : ℕ) (buf : List Char) : ℕ → S × ℕ → S × ℕ
  | 0, st => st
  | len + 1, st => outReverse out maxlen buf len (emit out maxlen st (buf.getD len nul))

/-- `_out_rev`; `buf` is what has been written of the buffer, and its length is `len`. -/
def outRev (out : Sink S Char) (maxlen : ℕ) (st : S × ℕ) (buf : List Char) (width : ℕ)
    (flags : FormatFlags) : S × ℕ :=
  let startIdx := st.2
  let st := if !flags.left && !flags.zeropad then outSpaces out maxlen (width - buf.length) st else st
  let st := outReverse out maxlen buf buf.length st
  if flags.left then outSpaces out maxlen (width - (st.2 - startIdx)) st else st

/-! ## Integers -/

/-- `buf[len++] = c`, when there is room. -/
def push (buf : List Char) (c : Char) : List Char :=
  if buf.length < ntoaBufferSize then buf ++ [c] else buf

/-- Zeros up to a length. -/
def pushZeros (buf : List Char) (n : ℕ) : List Char :=
  buf ++ List.replicate (min n ntoaBufferSize - buf.length) '0'

/-- The part of `_ntoa_format` for `FLAGS_HASH`. -/
def pushHash (buf : List Char) (base prec width : ℕ) (flags : FormatFlags) : List Char :=
  let buf :=
    if !flags.precision && buf.length ≠ 0 && (buf.length = prec || buf.length = width) then
      if buf.dropLast.length ≠ 0 && base = 16 then buf.dropLast.dropLast else buf.dropLast
    else buf
  let buf :=
    if base = 16 && !flags.uppercase then push buf 'x'
    else if base = 16 && flags.uppercase then push buf 'X'
    else if base = 2 then push buf 'b'
    else buf
  push buf '0'

/-- The part of `_ntoa_format` for the sign. -/
def pushSign (buf : List Char) (negative : Bool) (flags : FormatFlags) : List Char :=
  if negative then push buf '-'
  else if flags.plus then push buf '+'
  else if flags.space then push buf ' '
  else buf

/-- The width that is left for the digits, when there is a sign in front of zeros. -/
def signedWidth (negative : Bool) (width : ℕ) (flags : FormatFlags) : ℕ :=
  if !flags.left && width ≠ 0 && flags.zeropad && (negative || flags.plus || flags.space) then
    width - 1
  else width

/-- The buffer of `_ntoa_format` before it is put out. -/
def ntoaBuf (buf : List Char) (negative : Bool) (base prec width : ℕ) (flags : FormatFlags) :
    List Char :=
  let buf := if !flags.left then pushZeros buf prec else buf
  let buf := if !flags.left && flags.zeropad then pushZeros buf width else buf
  let buf := if flags.hash then pushHash buf base prec width flags else buf
  pushSign buf negative flags

/-- `_ntoa_format`. -/
def ntoaFormat (out : Sink S Char) (maxlen : ℕ) (st : S × ℕ) (buf : List Char) (negative : Bool)
    (base prec width : ℕ) (flags : FormatFlags) : S × ℕ :=
  let width := signedWidth negative width flags
  outRev out maxlen st (ntoaBuf buf negative base prec width flags) width flags

def ntoaDigit (uppercase : Bool) (digit : ℕ) : Char :=
  if digit < 10 then Char.ofNat ('0'.toNat + digit)
  else Char.ofNat ((if uppercase then 'A' else 'a').toNat + digit - 10)

/-- The digits of a value, the last one first, as far as there is room. -/
def ntoaDigits (uppercase : Bool) (base : ℕ) : ℕ → ℕ → List Char
  | 0, _ => []
  | room + 1, value =>
    ntoaDigit uppercase (value % base) ::
      if value / base = 0 then [] else ntoaDigits uppercase base room (value / base)

/-- `_ntoa_long_long`, and `_ntoa_long`: both types have 64 bits. -/
def ntoaLongLong (out : Sink S Char) (maxlen : ℕ) (st : S × ℕ) (value : ℕ) (negative : Bool)
    (base prec width : ℕ) (flags : FormatFlags) : S × ℕ :=
  let flags := if value = 0 then { flags with hash := false } else flags
  let buf :=
    if !flags.precision || value ≠ 0 then ntoaDigits flags.uppercase base ntoaBufferSize value else []
  ntoaFormat out maxlen st buf negative base prec width flags

/-! ## The format -/

/-- What has been read of a conversion, and what is left of the format and of the arguments. -/
structure Spec where
  flags : FormatFlags
  width : ℕ
  precision : ℕ
  format : CStr
  va : VaList

/-- Evaluate flags. -/
def evalFlags (flags : FormatFlags) : CStr → FormatFlags × CStr
  | [] => (flags, [])
  | c :: format =>
    if c = '0' then evalFlags { flags with zeropad := true } format
    else if c = '-' then evalFlags { flags with left := true } format
    else if c = '+' then evalFlags { flags with plus := true } format
    else if c = ' ' then evalFlags { flags with space := true } format
    else if c = '#' then evalFlags { flags with hash := true } format
    else (flags, c :: format)

/-- `_atoi`, after digits with the value `i`. -/
def atoi (i : ℕ) : CStr → ℕ × CStr
  | [] => (i, [])
  | c :: str =>
    if isdigit c then atoi ((i * 10 + (c.toNat - '0'.toNat)) % 2 ^ 32) str else (i, c :: str)

/-- Evaluate width field. -/
def evalWidth (s : Spec) : Option Spec :=
  match s.format with
  | [] => some s
  | c :: format =>
    if isdigit c then
      some { s with width := (atoi 0 s.format).1, format := (atoi 0 s.format).2 }
    else if c = '*' then do
      let (w, va) ← vaInt s.va
      if w.toInt < 0 then
        return { s with flags := { s.flags with left := true }, width := (-w).toNat, format, va }
      else return { s with width := w.toNat, format, va }
    else some s

/-- Evaluate precision field. -/
def evalPrecision (s : Spec) : Option Spec :=
  match s.format with
  | [] => some s
  | c :: format =>
    if c = '.' then
      let s := { s with flags := { s.flags with precision := true }, format }
      match format with
      | [] => some s
      | c :: format =>
        if isdigit c then
          some { s with precision := (atoi 0 s.format).1, format := (atoi 0 s.format).2 }
        else if c = '*' then do
          let (prec, va) ← vaInt s.va
          return { s with precision := if 0 < prec.toInt then prec.toNat else 0, format, va }
        else some s
    else some s

/-- Evaluate length field; `ptrdiff_t`, `intmax_t` and `size_t` have the size of `long`. -/
def evalLength (flags : FormatFlags) : CStr → FormatFlags × CStr
  | 'l' :: 'l' :: format => ({ flags with long := true, longLong := true }, format)
  | 'l' :: format => ({ flags with long := true }, format)
  | 'h' :: 'h' :: format => ({ flags with short := true, char := true }, format)
  | 'h' :: format => ({ flags with short := true }, format)
  | 't' :: format => ({ flags with long := true }, format)
  | 'j' :: format => ({ flags with long := true }, format)
  | 'z' :: format => ({ flags with long := true }, format)
  | format => (flags, format)

/-- Flags, width, precision and length of a conversion; the pointer is behind its percent sign. -/
def evalSpec (format : CStr) (va : VaList) : Option Spec := do
  let (flags, format) := evalFlags {} format
  let s ← evalWidth ⟨flags, 0, 0, format, va⟩
  let s ← evalPrecision s
  let (flags, format) := evalLength s.flags s.format
  return { s with flags, format }

/-- What a specifier has put out. -/
inductive Conversion
  | integer (value : ℕ) (negative : Bool) (base prec width : ℕ) (flags : FormatFlags)
  | char (c : Char) (width : ℕ) (flags : FormatFlags)
  | string (p : CStr) (precision width : ℕ) (flags : FormatFlags)
  | literal (c : Char)

def baseOf (specifier : Char) : ℕ :=
  if specifier = 'x' ∨ specifier = 'X' then 16
  else if specifier = 'o' then 8
  else if specifier = 'b' then 2
  else 10

/-- The specifier has a signed argument. -/
def isSigned (specifier : Char) : Bool := specifier = 'i' || specifier = 'd'

/-- The flags that a specifier of an integer does not ignore. -/
def integerFlags (specifier : Char) (flags : FormatFlags) : FormatFlags :=
  { flags with
    hash := flags.hash && baseOf specifier ≠ 10
    uppercase := flags.uppercase || specifier = 'X'
    plus := flags.plus && isSigned specifier
    space := flags.space && isSigned specifier
    zeropad := flags.zeropad && !flags.precision }

/-- The absolute value of a signed argument, and whether it is negative. The negation of the smallest
value is undefined in C; here it wraps. -/
def magnitude {w : ℕ} (value : BitVec w) : ℕ × Bool :=
  (if 0 < value.toInt then value.toNat else (0 - value).toNat, decide (value.toInt < 0))

def signedArg (flags : FormatFlags) (va : VaList) : Option ((ℕ × Bool) × VaList) :=
  if flags.longLong || flags.long then (vaLong va).map fun r => (magnitude r.1, r.2)
  else
    (vaInt va).map fun r =>
      let value : BitVec 32 :=
        if flags.char then (r.1.setWidth 8).signExtend 32
        else if flags.short then (r.1.setWidth 16).signExtend 32
        else r.1
      (magnitude value, r.2)

def unsignedArg (flags : FormatFlags) (va : VaList) : Option ((ℕ × Bool) × VaList) :=
  if flags.longLong || flags.long then (vaLong va).map fun r => ((r.1.toNat, false), r.2)
  else
    (vaInt va).map fun r =>
      let value : ℕ :=
        if flags.char then r.1.toNat % 2 ^ 8
        else if flags.short then r.1.toNat % 2 ^ 16
        else r.1.toNat
      ((value, false), r.2)

/-- The argument of an integer: its absolute value, and whether it is negative. -/
def integerArg (specifier : Char) (flags : FormatFlags) (va : VaList) :
    Option ((ℕ × Bool) × VaList) :=
  if isSigned specifier then signedArg flags va else unsignedArg flags va

/-- Evaluate specifier; a format that ends before it is read beyond its end. A conversion of a `double`
is left out. -/
def evalSpecifier (s : Spec) : Option (Conversion × CStr × VaList) :=
  match s.format with
  | [] => none
  | c :: format =>
    if c ∈ ['d', 'i', 'u', 'x', 'X', 'o', 'b'] then do
      let flags := integerFlags c s.flags
      let ((value, negative), va) ← integerArg c flags s.va
      return (.integer value negative (baseOf c) s.precision s.width flags, format, va)
    else if c ∈ ['f', 'F', 'e', 'E', 'g', 'G'] then none
    else if c = 'c' then do
      let (w, va) ← vaInt s.va
      return (.char (Char.ofNat (w.toNat % 2 ^ 8)) s.width s.flags, format, va)
    else if c = 's' then do
      let (p, va) ← vaStr s.va
      return (.string p s.precision s.width s.flags, format, va)
    else if c = 'p' then do
      let (w, va) ← vaLong s.va
      let flags := { s.flags with zeropad := true, uppercase := true }
      return (.integer w.toNat false 16 s.precision 16 flags, format, va)
    else some (.literal c, format, s.va)

/-- `_strnlen_s`. -/
def strnlenS : CStr → ℕ → ℕ
  | [], _ => 0
  | _ :: _, 0 => 0
  | _ :: str, maxsize + 1 => strnlenS str maxsize + 1

/-- The loop of `%s` for its characters. -/
def outString (out : Sink S Char) (maxlen : ℕ) (flags : FormatFlags) : CStr → ℕ → S × ℕ → S × ℕ
  | [], _, st => st
  | c :: p, precision, st =>
    if !flags.precision then outString out maxlen flags p precision (emit out maxlen st c)
    else
      match precision with
      | 0 => st
      | precision + 1 => outString out maxlen flags p precision (emit out maxlen st c)

def Conversion.out (out : Sink S Char) (maxlen : ℕ) (st : S × ℕ) : Conversion → S × ℕ
  | .integer value negative base prec width flags =>
    ntoaLongLong out maxlen st value negative base prec width flags
  | .char c width flags =>
    let st := if !flags.left then outSpaces out maxlen (width - 1) st else st
    let st := emit out maxlen st c
    if flags.left then outSpaces out maxlen (width - 1) st else st
  | .string p precision width flags =>
    let l := strnlenS p (if precision ≠ 0 then precision else 2 ^ 64 - 1) % 2 ^ 32
    let l := if flags.precision then min l precision else l
    let st := if !flags.left then outSpaces out maxlen (width - l) st else st
    let st := outString out maxlen flags p precision st
    if flags.left then outSpaces out maxlen (width - l) st else st
  | .literal c => emit out maxlen st c

/-- The loop of `_vsnprintf`; it takes at least one character of the format each time. -/
def vsnprintfLoop (out : Sink S Char) (maxlen : ℕ) : ℕ → S × ℕ → CStr → VaList → Option (S × ℕ)
  | _, st, [], _ => some st
  | 0, _, _ :: _, _ => none
  | fuel + 1, st, c :: format, va =>
    if c ≠ '%' then vsnprintfLoop out maxlen fuel (emit out maxlen st c) format va
    else do
      let s ← evalSpec format va
      let (conversion, format, va) ← evalSpecifier s
      vsnprintfLoop out maxlen fuel (conversion.out out maxlen st) format va

/-- `_vsnprintf`: the state of the output function, and the length of the text as an `int`. -/
def internalVsnprintf (out : Sink S Char) (st : S) (maxlen : ℕ) (format : CStr) (va : VaList) :
    Option (S × ℤ) := do
  let (st, idx) ← vsnprintfLoop out maxlen format.length (st, 0) format va
  return (out nul st (if idx < maxlen then idx else if maxlen = 0 then 2 ^ 64 - 1 else maxlen - 1)
    maxlen, toInt idx)

/-- `vsnprintf_`, into a buffer that may be `NULL`. -/
def vsnprintf (mem : ℕ → Char) (buffer count : ℕ) (format : CStr) (va : VaList) :
    Option ((ℕ → Char) × ℤ) :=
  internalVsnprintf (if buffer = 0 then outNull else outBuffer buffer) mem count format va

/-- `vprintf_`. -/
def vprintf (console : Console) (format : CStr) (va : VaList) : Option (Console × ℤ) :=
  internalVsnprintf outChar console (2 ^ 64 - 1) format va

end Jbinit.Fakedyld.Printf

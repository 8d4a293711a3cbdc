import Jbinit.Foundations.Delimited

/-!
# C strings

A C string is the list of its characters up to the terminating NUL, which takes one more byte of
the buffer the string is in. The copying functions of the C library are modelled with the size of
their destination, so that a copy that does not fit is a fault and not a longer string.
-/

namespace Jbinit

/-- The characters of a C string, without its terminating NUL. -/
abbrev CStr := List Char

namespace CStr

open Foundations Delimited

/-- What `snprintf(buf, size, "%s", s)` leaves in `buf`: at most `size - 1` characters. -/
def snprintf (size : ℕ) (s : CStr) : CStr := s.take (size - 1)

theorem snprintf_of_lt {size : ℕ} {s : CStr} (h : s.length < size) : snprintf size s = s :=
  List.take_of_length_le (by omega)

/-- `strcpy` into a buffer of `cap` bytes; `none` when the copy is written past its end. -/
def strcpy (cap : ℕ) (src : CStr) : Option CStr :=
  if src.length + 1 ≤ cap then some src else none

/-- `strcat` onto the string `dst` in a buffer of `cap` bytes. -/
def strcat (cap : ℕ) (dst src : CStr) : Option CStr := strcpy cap (dst ++ src)

/-- `basename_r`. -/
def basenameR (path : CStr) : CStr :=
  if path = [] then ['.'] else (components '/' path).getLast?.getD ['/']

theorem basenameR_append {name : CStr} (h : IsComponent '/' name) (dir : CStr) :
    basenameR (dir ++ '/' :: name) = name := by
  rw [basenameR, if_neg (by simp), components_append_cons, components_of_isComponent h]
  simp

end CStr

end Jbinit

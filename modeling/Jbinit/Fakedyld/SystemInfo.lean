import Jbinit.Palera1nd.Sys
import Jbinit.Foundations.Numerals
import Jbinit.Foundations.Substrings
import Mathlib.Algebra.Group.Nat.Defs
import Mathlib.Algebra.Group.Int.Defs

/-!
# `systeminfo`

fakedyld reads the versions of Darwin and XNU from the text of the kernel's version, with string
functions of its own. `strstr` is the search for the first occurrence (`strstr_eq_search`), and
`atoi` reads a number up to the first character that is no digit (`atoi_toDigits_append`). So the
four numbers are those that the kernel has written.
-/

namespace Jbinit.Fakedyld

open Foundations Numerals Substrings Palera1nd

/-! ## The library -/

def isdigit (c : Char) : Bool := decide ('0'.toNat ≤ c.toNat) && decide (c.toNat ≤ '9'.toNat)

/-- A value in an `int`. -/
def toInt (n : ℤ) : ℤ := n.bmod (2 ^ 32)

/-- The loop of `atoi`, after digits with the value `val`. -/
def atoiDigits (val : ℤ) : CStr → ℤ
  | [] => val
  | c :: str => if isdigit c then atoiDigits (toInt (10 * val + (c.toNat - '0'.toNat))) str else val

def atoi : CStr → ℤ
  | '-' :: str => toInt (-atoiDigits 0 str)
  | '+' :: str => atoiDigits 0 str
  | str => atoiDigits 0 str

/-- The inner loop of `strstr`: the end of `b` is reached before a difference. The end of `a` is
different from every character. -/
def agrees : CStr → CStr → Bool
  | _, [] => true
  | [], _ :: _ => false
  | x :: a, y :: b => if x = y then agrees a b else false

/-- The outer loop of `strstr`, for a string that begins with `b`. -/
def strstrLoop (b : Char) (substring : CStr) : CStr → Option CStr
  | [] => none
  | c :: string =>
    if c ≠ b then strstrLoop b substring string
    else if agrees (c :: string) (b :: substring) then some (c :: string)
    else strstrLoop b substring string

/-- A pointer into a string is what the string is from there on. -/
def strstr (string : CStr) : CStr → Option CStr
  | [] => some string
  | b :: substring => strstrLoop b substring string

/-- `strchr`, for a character that is not NUL. -/
def strchr : CStr → Char → Option CStr
  | [], _ => none
  | c :: p, ch => if c = ch then some (c :: p) else strchr p ch

/-! ## The versions -/

def maxBootargsLen : ℕ := 0x400

def maxKversionLen : ℕ := 256

/-- What the kernel answers for `kern.bootargs` and `kern.version`. -/
structure Kernel where
  bootargs : CStr
  version : CStr

/-- `sysctlbyname` of a string, into a buffer of `len` bytes; it fails with ENOMEM. -/
def sysctlbyname (value : CStr) (len : ℕ) : Except Errno CStr :=
  if value.length + 1 ≤ len then .ok value else .error 12

structure OsRelease where
  darwinMajor : ℤ
  darwinMinor : ℤ
  darwinRevision : ℤ
  deriving DecidableEq

structure SystemInfo where
  bootargs : CStr
  kversion : CStr
  osrelease : OsRelease
  xnuMajor : ℤ
  deriving DecidableEq

def darwinMarker : CStr := "Darwin Kernel Version ".toList

def serialArg : CStr := "serial=".toList

def buildTags : List CStr :=
  ["root:xnu-".toList, "root:xnu_development-".toList, "root:xnu_debug-".toList,
    "root:xnu_kasan-".toList]

/-- The chain of `strstr`: what is behind the first of the tags that occurs. -/
def afterTag (p : CStr) : List CStr → Option CStr
  | [] => none
  | tag :: tags =>
    match strstr p tag with
    | some xnu => some (xnu.drop tag.length)
    | none => afterTag p tags

/-- The text of the version; the result is `none` at `kver_fail`. A pointer behind a dot is the
rest of the string without it. -/
def parseVersion (kversion : CStr) : Option (OsRelease × ℤ) := do
  let p ← strstr kversion darwinMarker
  let p := p.drop darwinMarker.length
  guard (p.head?.any isdigit)
  let darwinMajor := atoi p
  guard (darwinMajor ≠ 0)
  let p ← strchr p '.'
  let p := p.drop 1
  let darwinMinor := atoi p
  let p ← strchr p '.'
  let p := p.drop 1
  let darwinRevision := atoi p
  let p ← afterTag p buildTags
  let xnuMajor := atoi p
  guard (xnuMajor ≠ 0)
  return (⟨darwinMajor, darwinMinor, darwinRevision⟩, xnuMajor)

/-- `systeminfo`, with `has_verbose_boot`; the error is what it panics with. -/
def systeminfo (kernel : Kernel) : Except String (SystemInfo × Bool) :=
  match sysctlbyname kernel.bootargs maxBootargsLen with
  | .error _ => .error "Unable to read boot-args"
  | .ok bootargs =>
    let hasVerboseBoot := (strstr bootargs serialArg).isSome
    match sysctlbyname kernel.version maxKversionLen with
    | .error _ => .error "Unable to get kernel version"
    | .ok kversion =>
      match parseVersion kversion with
      | none => .error "Error parsing kernel version"
      | some (osrelease, xnuMajor) =>
        .ok (⟨bootargs, kversion, osrelease, xnuMajor⟩, hasVerboseBoot)

/-! ## Lemmas for the library -/

theorem isdigit_eq (c : Char) : isdigit c = isDigitOf 10 c := by
  have hdigit : isdigit c = true ↔ c.isDigit = true := by
    rw [isdigit, Bool.and_eq_true, decide_eq_true_eq, decide_eq_true_eq]
    exact (isDigit_iff c).symm
  rw [isDigitOf_ten]
  exact Bool.eq_iff_iff.mpr hdigit

theorem toInt_of_lt {n : ℕ} (h : n < 2 ^ 31) : toInt n = n :=
  Int.bmod_eq_of_le (by omega) (by omega)

/-- A number that an `int` can hold is read without an overflow. -/
theorem atoiDigits_eq {str : CStr} {val : ℕ} (h : readDigits 10 val str < 2 ^ 31) :
    atoiDigits val str = readDigits 10 val str := by
  induction str generalizing val with
  | nil => rfl
  | cons c str ih =>
    cases hdigit : isDigitOf 10 c with
    | true =>
      have hvalue : digitValue c = some (c.toNat - '0'.toNat) :=
        if_pos (isDigitOf_ten c ▸ hdigit)
      have hle := (isDigit_iff c).mp (isDigitOf_ten c ▸ hdigit)
      have hzero : '0'.toNat = 48 := rfl
      have hread : readDigits 10 val (c :: str) =
          readDigits 10 (val * 10 + (c.toNat - '0'.toNat)) str := by
        rw [readDigits, hvalue]
        exact if_pos (by omega)
      have hnext := le_readDigits (show 0 < 10 by omega) (val * 10 + (c.toNat - '0'.toNat)) str
      rw [hread] at h ⊢
      have hval : toInt (10 * (val : ℤ) + (c.toNat - '0'.toNat : ℤ)) =
          (val * 10 + (c.toNat - '0'.toNat) : ℕ) := by
        rw [← toInt_of_lt (show val * 10 + (c.toNat - '0'.toNat) < 2 ^ 31 by omega)]
        congr 1
        omega
      rw [atoiDigits, isdigit_eq, hdigit, if_pos rfl, hval]
      exact ih h
    | false =>
      have hstop : readDigits 10 val (c :: str) = val :=
        readDigits_of_head (by simpa using hdigit) val
      rw [atoiDigits, isdigit_eq, hdigit, hstop]
      rfl

theorem atoi_of_head {str : CStr} (h : ∀ c ∈ str.head?, isDigitOf 10 c = true) :
    atoi str = atoiDigits 0 str := by
  unfold atoi
  split
  · exact absurd (h '-' rfl) (by decide)
  · exact absurd (h '+' rfl) (by decide)
  · rfl

/-- **`atoi` reads back a number**, in front of anything that does not begin with a digit. -/
theorem atoi_toDigits_append {n : ℕ} (hn : n < 2 ^ 31) {str : CStr}
    (h : ∀ c ∈ str.head?, isDigitOf 10 c = false) : atoi (Nat.toDigits 10 n ++ str) = n := by
  have hread := readDigits_toDigits_append (by omega : 10 ≤ 16) (by omega) n h
  have hhead : ∀ c ∈ (Nat.toDigits 10 n ++ str).head?, isDigitOf 10 c = true := by
    intro c hc
    rw [List.head?_append_of_ne_nil _ (Nat.toDigits_ne_nil)] at hc
    exact toDigits_isDigitOf (by omega) (by omega) n c (List.mem_of_mem_head? hc)
  rw [atoi_of_head hhead]
  have hbound : readDigits 10 0 (Nat.toDigits 10 n ++ str) < 2 ^ 31 := by
    rw [hread]
    exact hn
  exact (atoiDigits_eq hbound).trans (congrArg Nat.cast hread)

theorem agrees_iff (a b : CStr) : agrees a b = true ↔ b <+: a := by
  induction b generalizing a with
  | nil => simp [agrees]
  | cons y b ih =>
    cases a with
    | nil => simp [agrees]
    | cons x a =>
      rw [agrees, List.cons_prefix_cons]
      by_cases hxy : x = y
      · rw [if_pos hxy, ih]
        simp [hxy]
      · simp [hxy, Ne.symm hxy]

/-- **`strstr` is exact**: it finds the first occurrence. -/
theorem strstr_eq_search (string substring : CStr) :
    strstr string substring = search substring string := by
  cases substring with
  | nil => cases string <;> simp [strstr, search]
  | cons b substring =>
    rw [strstr]
    induction string with
    | nil => rfl
    | cons c string ih =>
      rw [strstrLoop, search, ih]
      by_cases hprefix : b :: substring <+: c :: string
      · have hhead : ¬c ≠ b := by simpa using (List.cons_prefix_cons.mp hprefix).1.symm
        rw [if_neg hhead, if_pos ((agrees_iff _ _).mpr hprefix), if_pos hprefix]
      · rw [if_neg hprefix, if_neg (fun h => hprefix ((agrees_iff _ _).mp h)), ite_self]

theorem strchr_append {pre : CStr} {ch : Char} (h : ch ∉ pre) (post : CStr) :
    strchr (pre ++ ch :: post) ch = some (ch :: post) := by
  induction pre with
  | nil => exact if_pos rfl
  | cons c pre ih =>
    rw [List.mem_cons, not_or] at h
    rw [List.cons_append, strchr, if_neg (Ne.symm h.1), ih h.2]

/-! ## The kernel's format -/

/-- The numbers of a release. -/
structure Release where
  major : ℕ
  minor : ℕ
  revision : ℕ
  xnu : ℕ

/-- The numbers are in the range of `int`, and those that are never zero are not. -/
structure Release.Valid (r : Release) : Prop where
  major_pos : 0 < r.major
  xnu_pos : 0 < r.xnu
  major_lt : r.major < 2 ^ 31
  minor_lt : r.minor < 2 ^ 31
  revision_lt : r.revision < 2 ^ 31
  xnu_lt : r.xnu < 2 ^ 31

def Release.osrelease (r : Release) : OsRelease := ⟨r.major, r.minor, r.revision⟩

def decimal (n : ℕ) : CStr := Nat.toDigits 10 n

/-- The text of a version: X before the marker, Y before the tag, Z behind it. -/
def versionText (r : Release) (X Y tag Z : CStr) : CStr :=
  X ++ (darwinMarker ++ (decimal r.major ++ '.' :: (decimal r.minor ++ '.' ::
    (decimal r.revision ++ Y ++ (tag ++ (decimal r.xnu ++ Z))))))

/-- What a tag is made of: its first character comes only once. -/
theorem buildTags_head {tag : CStr} (h : tag ∈ buildTags) : ∃ s, 'r' ∉ s ∧ tag = 'r' :: s := by
  simp only [buildTags, List.mem_cons, List.not_mem_nil, or_false] at h
  rcases h with rfl | rfl | rfl | rfl <;> exact ⟨_, by decide, rfl⟩

theorem decimal_isDigit {n : ℕ} {c : Char} (h : c ∈ decimal n) : isDigitOf 10 c = true :=
  toDigits_isDigitOf (by omega) (by omega) n c h

theorem not_mem_decimal {c : Char} (h : isDigitOf 10 c = false) (n : ℕ) : c ∉ decimal n := by
  intro hc
  rw [decimal_isDigit hc] at h
  cases h

theorem afterTag_append {earlier later : List CStr} {tag p post : CStr}
    (htag : tag ∈ buildTags) (hp : ¬tag <:+: p)
    (hearlier : ∀ t ∈ earlier, ¬t <:+: p ++ (tag ++ post)) :
    afterTag (p ++ (tag ++ post)) (earlier ++ tag :: later) = some post := by
  induction earlier with
  | nil =>
    obtain ⟨s, hs, rfl⟩ := buildTags_head htag
    rw [List.nil_append, afterTag, strstr_eq_search, search_append hs hp]
    simp
  | cons t earlier ih =>
    have hnone : search t (p ++ (tag ++ post)) = none :=
      search_eq_none (hearlier t List.mem_cons_self)
    rw [List.cons_append, afterTag, strstr_eq_search, hnone]
    exact ih fun t ht => hearlier t (List.mem_cons_of_mem _ ht)

theorem head?_decimal (n : ℕ) (str : CStr) : (decimal n ++ str).head?.any isdigit = true := by
  have hne : decimal n ≠ [] := Nat.toDigits_ne_nil
  rw [List.head?_append_of_ne_nil _ hne, List.head?_eq_some_head hne, Option.any_some, isdigit_eq]
  exact decimal_isDigit (List.head_mem hne)

variable {r : Release} {X Y Z tag : CStr} {earlier later : List CStr}

/-- **The four numbers of a version.** -/
theorem parseVersion_versionText (hr : r.Valid) (htags : buildTags = earlier ++ tag :: later)
    (hX : ¬darwinMarker <:+: X) (hdigitY : ∀ c ∈ Y.head?, isDigitOf 10 c = false)
    (hY : ¬tag <:+: Y) (hdigitZ : ∀ c ∈ Z.head?, isDigitOf 10 c = false)
    (hearlier : ∀ t ∈ earlier, ¬t <:+: versionText r X Y tag Z) :
    parseVersion (versionText r X Y tag Z) = some (r.osrelease, (r.xnu : ℤ)) := by
  have htag : tag ∈ buildTags := by simp [htags]
  obtain ⟨s, hs, rfl⟩ := buildTags_head htag
  have hdot : ∀ n, '.' ∉ decimal n := not_mem_decimal (by decide)
  have hmarker (post : CStr) : strstr (X ++ (darwinMarker ++ post)) darwinMarker =
      some (darwinMarker ++ post) := by
    rw [strstr_eq_search]
    exact search_append (by decide) hX post
  -- Behind the number `revision` there is the text before the tag, or the tag.
  have hrevision : ∀ c ∈ (Y ++ ('r' :: s ++ (decimal r.xnu ++ Z))).head?,
      isDigitOf 10 c = false := by
    cases Y with
    | nil => simp; decide
    | cons c Y => simpa using hdigitY
  have hbehind : ¬('r' :: s) <:+: decimal r.revision ++ Y :=
    not_infix_append (not_mem_decimal (by decide) r.revision) hY
  have hafter : afterTag (decimal r.revision ++ Y ++ ('r' :: s ++ (decimal r.xnu ++ Z))) buildTags =
      some (decimal r.xnu ++ Z) := by
    rw [htags]
    refine afterTag_append htag hbehind fun t ht hwithin => hearlier t ht (hwithin.trans ?_)
    refine List.IsSuffix.isInfix ⟨X ++ (darwinMarker ++ (decimal r.major ++ '.' ::
      (decimal r.minor ++ ['.']))), ?_⟩
    simp [versionText]
  have hmajor (post : CStr) : atoi (decimal r.major ++ '.' :: post) = r.major :=
    atoi_toDigits_append hr.major_lt (by simp; decide)
  have hminor (post : CStr) : atoi (decimal r.minor ++ '.' :: post) = r.minor :=
    atoi_toDigits_append hr.minor_lt (by simp; decide)
  have hrev : atoi (decimal r.revision ++ Y ++ ('r' :: s ++ (decimal r.xnu ++ Z))) = r.revision := by
    rw [List.append_assoc]
    exact atoi_toDigits_append hr.revision_lt hrevision
  have hxnu : atoi (decimal r.xnu ++ Z) = r.xnu := atoi_toDigits_append hr.xnu_lt hdigitZ
  have hmajor_ne : (r.major : ℤ) ≠ 0 := by
    have := hr.major_pos
    omega
  have hxnu_ne : (r.xnu : ℤ) ≠ 0 := by
    have := hr.xnu_pos
    omega
  simp only [parseVersion, versionText, hmarker, Option.bind_eq_bind, Option.bind_some,
    List.drop_left, head?_decimal, guard, if_true, hmajor, hmajor_ne, ne_eq, not_false_eq_true,
    Option.pure_def, strchr_append (hdot _), List.drop_succ_cons, List.drop_zero, hminor, hrev, hafter,
    hxnu, hxnu_ne]
  rfl

/-- **`systeminfo` inverts the kernel's format**, with any of the four tags of a build. -/
theorem systeminfo_versionText {bootargs : CStr} (hbootargs : bootargs.length < maxBootargsLen)
    (hr : r.Valid) (htags : buildTags = earlier ++ tag :: later) (hX : ¬darwinMarker <:+: X)
    (hdigitY : ∀ c ∈ Y.head?, isDigitOf 10 c = false) (hY : ¬tag <:+: Y)
    (hdigitZ : ∀ c ∈ Z.head?, isDigitOf 10 c = false)
    (hearlier : ∀ t ∈ earlier, ¬t <:+: versionText r X Y tag Z)
    (hlength : (versionText r X Y tag Z).length < maxKversionLen) :
    systeminfo ⟨bootargs, versionText r X Y tag Z⟩ =
      .ok (⟨bootargs, versionText r X Y tag Z, r.osrelease, r.xnu⟩,
        (strstr bootargs serialArg).isSome) := by
  have hsysctl {value : CStr} {len : ℕ} (h : value.length < len) :
      sysctlbyname value len = .ok value := if_pos h
  rw [systeminfo, hsysctl hbootargs]
  dsimp only
  rw [hsysctl hlength]
  dsimp only
  rw [parseVersion_versionText hr htags hX hdigitY hY hdigitZ hearlier]

/-- A kernel with the second of the tags. -/
theorem systeminfo_versionText_development :
    systeminfo ⟨"serial=3".toList, "Darwin Kernel Version 22.5.0: root:xnu_development-8796.1~2".toList⟩ =
      .ok (⟨"serial=3".toList, "Darwin Kernel Version 22.5.0: root:xnu_development-8796.1~2".toList,
        ⟨22, 5, 0⟩, 8796⟩, true) := by
  have hr : Release.Valid ⟨22, 5, 0, 8796⟩ :=
    ⟨by decide, by decide, by decide, by decide, by decide, by decide⟩
  have hbootargs : "serial=3".toList.length < maxBootargsLen := by decide
  have htags : buildTags = ["root:xnu-".toList] ++ "root:xnu_development-".toList ::
      buildTags.drop 2 := rfl
  have hcolon : ∀ c ∈ ": ".toList.head?, isDigitOf 10 c = false := by
    rintro _ ⟨⟩
    decide
  have hpoint : ∀ c ∈ ".1~2".toList.head?, isDigitOf 10 c = false := by
    rintro _ ⟨⟩
    decide
  have h := systeminfo_versionText (X := []) (Y := ": ".toList) (Z := ".1~2".toList) hbootargs hr
    htags (by decide) hcolon (by decide) hpoint (by decide) (by decide)
  exact h

end Jbinit.Fakedyld

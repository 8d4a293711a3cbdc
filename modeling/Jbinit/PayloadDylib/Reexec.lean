import Jbinit.PayloadDylib.XpcHandler
import Jbinit.Foundations.Numerals
import Jbinit.Systemhook.Spawn

/-!
# Launchd after a userspace reboot

launchd executes itself again with its own environment. `launchd_hook_main` then reads `pflags` from
it (`load_pflags`) and loads systemhook, whose initializer copies its variables from the same place.
-/

namespace Jbinit.PayloadDylib

open Foundations Numerals Palera1nd

/-! ## Numbers in strings -/

/-- What `strtoull` skips. -/
def isSpace (c : Char) : Bool := c == ' ' || decide (9 ≤ c.toNat ∧ c.toNat ≤ 13)

/-- The magnitude, in the base that the prefix tells. -/
def magnitude : CStr → ℕ
  | '0' :: x :: c :: s =>
    if (x == 'x' || x == 'X') && isDigitOf 16 c then readDigits 16 0 (c :: s)
    else readDigits 8 0 (x :: c :: s)
  | '0' :: s => readDigits 8 0 s
  | s => readDigits 10 0 s

/-- `ULLONG_MAX` when the number is too large. -/
def saturate (n : ℕ) : BitVec 64 := if n < 2 ^ 64 then BitVec.ofNat 64 n else BitVec.allOnes 64

/-- `strtoull(s, NULL, 0)`. -/
def strtoull (s : CStr) : BitVec 64 :=
  match s.dropWhile isSpace with
  | '-' :: s => if magnitude s < 2 ^ 64 then -saturate (magnitude s) else saturate (magnitude s)
  | '+' :: s => saturate (magnitude s)
  | s => saturate (magnitude s)

theorem length_toDigits_flags (flags : Flags) : (Nat.toDigits 16 flags.toNat).length ≤ 16 :=
  (Nat.length_toDigits_le_iff (by decide) (by decide)).mpr flags.isLt

/-- The string of the flags fits its buffer and reads back as the flags. -/
theorem strtoull_pinfoFlagsString (flags : Flags) : strtoull (pinfoFlagsString flags) = flags := by
  have hfits : pinfoFlagsString flags = '0' :: 'x' :: Nat.toDigits 16 flags.toNat := by
    refine CStr.snprintf_of_lt ?_
    have := length_toDigits_flags flags
    simp only [List.length_cons]
    omega
  have hmagnitude : magnitude ('0' :: 'x' :: Nat.toDigits 16 flags.toNat) = flags.toNat := by
    have hdigits := toDigits_isDigitOf (by decide : 16 ≤ 16) (by decide) flags.toNat
    have hread := readDigits_toDigits (by decide : 16 ≤ 16) (by decide) flags.toNat
    cases hl : Nat.toDigits 16 flags.toNat with
    | nil => exact absurd hl Nat.toDigits_ne_nil
    | cons c s =>
      rw [hl] at hdigits hread
      show (if (true && isDigitOf 16 c) = true then readDigits 16 0 (c :: s) else _) = _
      rw [hdigits c List.mem_cons_self]
      exact hread
  rw [hfits]
  show saturate (magnitude ('0' :: 'x' :: Nat.toDigits 16 flags.toNat)) = flags
  rw [hmagnitude, saturate, if_pos flags.isLt, BitVec.ofNat_toNat, BitVec.setWidth_eq]

/-! ## Loading -/

variable (host : Host)

/-- `strtoull` of a pointer. -/
def strtoullOf : Option CStr → Handling (BitVec 64)
  | none => throw .nullPointer
  | some s => return strtoull s

/-- `strdup` of a pointer. -/
def strdupOf : Option CStr → Handling (Option CStr)
  | none => throw .nullPointer
  | some s => return if host.strdup then some s else none

def jbPinfoFlagsName : CStr := "JB_PINFO_FLAGS".toList
def jbSandboxExtensionsName : CStr := "JB_SANDBOX_EXTENSIONS".toList
def jbTweakloaderPathName : CStr := "JB_TWEAKLOADER_PATH".toList
def dyldInsertLibrariesName : CStr := "DYLD_INSERT_LIBRARIES".toList
def dyldLibraryPathName : CStr := "DYLD_LIBRARY_PATH".toList

def Environ.unsetenv (environ : Environ) (name : CStr) : Environ := Function.update environ name none

/-- Unset a variable that holds exactly a value. -/
def Environ.unsetIf (environ : Environ) (name value : CStr) : Environ :=
  if environ name = some value then environ.unsetenv name else environ

/-- The part of systemhook's initializer that reads and writes the environment. -/
def initializer (environ : Environ) : Handling (SystemhookVars × Environ) := do
  let jbSandboxExtensions ← strdupOf host (environ jbSandboxExtensionsName)
  let environ := environ.unsetenv jbSandboxExtensionsName
  let jbRootPath ← strdupOf host (environ jbRootPathName)
  let jbPinfoFlags ← strdupOf host (environ jbPinfoFlagsName)
  let _ ← strdupOf host (environ jbTweakloaderPathName)
  let pflags ← strtoullOf jbPinfoFlags
  -- `unsandbox` copies the string
  if jbSandboxExtensions.isNone then throw .nullPointer
  let environ := environ.unsetIf dyldInsertLibrariesName Systemhook.hookDylibPath
  let environ := environ.unsetIf dyldLibraryPathName Systemhook.librootDylibDirectoryPath
  return (⟨jbRootPath, jbPinfoFlags, pflags⟩, environ)

/-- `load_pflags`. -/
def loadPflags (environ : Environ) : Handling Flags := strtoullOf (environ jbPinfoFlagsName)

/-- What `launchd_hook_main` does with the state, when it does not panic; the extensions are those
that `generate_sandbox_extensions` issues and the identifier is new. -/
def launchdHookMain (sandboxExtensions : CStr) (bootUuid : List UInt8) (environ : Environ) :
    Handling Launchd := do
  let environ := Function.update environ jbSandboxExtensionsName (some sandboxExtensions)
  let pflags ← loadPflags environ
  let (systemhook, environ) ← initializer host environ
  return ⟨pflags, environ, systemhook, bootUuid⟩

/-! ## What becomes of the flags -/

theorem bind_eq_ok {α β : Type} {x : Handling α} {f : α → Handling β} {b : β}
    (h : x >>= f = .ok b) : ∃ a, x = .ok a ∧ f a = .ok b := by
  cases x with
  | error fault => cases h
  | ok a => exact ⟨a, rfl, h⟩

theorem unsetIf_apply_of_ne (environ : Environ) {name name' value : CStr} (h : name' ≠ name) :
    environ.unsetIf name value name' = environ name' := by
  unfold Environ.unsetIf Environ.unsetenv
  split
  · exact Function.update_of_ne h _ _
  · rfl

theorem strtoullOf_eq_ok {s : Option CStr} {n : BitVec 64} (h : strtoullOf s = .ok n) :
    s.map strtoull = some n := by
  cases s with
  | none => cases h
  | some s =>
    cases h
    rfl

theorem strdupOf_eq_ok {s s' : Option CStr} (h : strdupOf host s = .ok s') (hs' : s' ≠ none) :
    s' = s := by
  cases s with
  | none => cases h
  | some s =>
    have hcopy : (if host.strdup then some s else none) = s' := Except.ok.inj h
    split at hcopy
    · exact hcopy.symm
    · exact absurd hcopy.symm hs'

variable {host}

/-- The initializer copies the flags and leaves their variable as it is. -/
theorem initializer_eq_ok {environ environ' : Environ} {vars : SystemhookVars}
    (h : initializer host environ = .ok (vars, environ')) :
    vars.jbPinfoFlags = environ jbPinfoFlagsName ∧
      vars.jbPinfoFlags.map strtoull = some vars.pflags ∧
      environ' jbPinfoFlagsName = environ jbPinfoFlagsName := by
  obtain ⟨jbSandboxExtensions, hsandbox, h⟩ := bind_eq_ok h
  obtain ⟨jbRootPath, hrootPath, h⟩ := bind_eq_ok h
  obtain ⟨jbPinfoFlags, hpinfoFlags, h⟩ := bind_eq_ok h
  obtain ⟨_, htweakloader, h⟩ := bind_eq_ok h
  obtain ⟨pflags, hpflags, h⟩ := bind_eq_ok h
  have hflags := strtoullOf_eq_ok hpflags
  have hset : jbPinfoFlags ≠ none := by
    rintro rfl
    cases hflags
  have hunset : environ.unsetenv jbSandboxExtensionsName jbPinfoFlagsName =
      environ jbPinfoFlagsName := Function.update_of_ne (by decide) _ _
  have hcopy := (strdupOf_eq_ok host hpinfoFlags hset).trans hunset
  cases jbSandboxExtensions with
  | none => cases h
  | some extensions =>
    cases h
    refine ⟨hcopy, hflags, ?_⟩
    rw [unsetIf_apply_of_ne _ (by decide), unsetIf_apply_of_ne _ (by decide), hunset]

/-- After a userspace reboot every copy in launchd is that of the environment. -/
theorem launchdHookMain_eq_ok {sandboxExtensions : CStr} {bootUuid : List UInt8} {environ : Environ}
    {s : Launchd} (h : launchdHookMain host sandboxExtensions bootUuid environ = .ok s) :
    s.environ jbPinfoFlagsName = environ jbPinfoFlagsName ∧
      s.systemhook.jbPinfoFlags = environ jbPinfoFlagsName ∧
      some s.pflags = (environ jbPinfoFlagsName).map strtoull ∧
      some s.systemhook.pflags = (environ jbPinfoFlagsName).map strtoull := by
  have hupdate : Function.update environ jbSandboxExtensionsName (some sandboxExtensions)
      jbPinfoFlagsName = environ jbPinfoFlagsName := Function.update_of_ne (by decide) _ _
  obtain ⟨pflags, hpflags, h⟩ := bind_eq_ok h
  obtain ⟨⟨vars, environ'⟩, hinit, h⟩ := bind_eq_ok h
  obtain ⟨hcopy, hvars, henviron⟩ := initializer_eq_ok hinit
  have hload := strtoullOf_eq_ok hpflags
  rw [hupdate] at hcopy henviron hload
  cases h
  exact ⟨henviron, hcopy, hload.symm, hcopy ▸ hvars.symm⟩

end Jbinit.PayloadDylib

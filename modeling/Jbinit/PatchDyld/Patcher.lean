import Jbinit.PatchDyld.DyldInCache
import Mathlib.Data.BitVec

/-!
# `patch_dyld`

One image is patched: the platform check, the configuration of the process when the image has the
text for it, and dyld in the cache when it has the text for that. A panic ends the process, and so
does a null pointer that is followed. Functions begin at word boundaries. The static variables are
those of `Process`; the others of the source are set on each call before they are read.
-/

namespace Jbinit.PatchDyld

open Foundations Arm64 Words

/-- How a process ends. -/
inductive Stop
  | panic (message : String)
  /-- A null pointer is followed. -/
  | fault
  deriving DecidableEq

/-- The word where the function of a symbol begins. -/
def functionAt (m : Memory 32) (buf symbol : ℕ) : ℕ :=
  (BitVec.ofNat 64 buf + symbolOffset (bytes m) symbol).toNat / 4

def functionLen (m : Memory 32) (symbol : ℕ) : ℕ := (machoGetSymbolSize (bytes m) symbol).toNat

/-! ## The platform check -/

def platformCheckSymbol : String :=
  "____ZNK5dyld39MachOFile24forEachSupportedPlatformEU13block_pointerFvNS_8PlatformEjjE_block_invoke"

def platformCheckSymbolNewPrefix : String := "__ZNK6mach_o"

def platformCheckSymbolNewSuffix : String := "19loadableIntoProcessENS_8PlatformE7CStringb"

def platformSymbolNewClassifier (m : Memory 8) (symName : ℕ) : Bool :=
  let suffix := cbytes platformCheckSymbolNewSuffix
  let symLen := strlen m symName
  bytesAt m symName (cbytes platformCheckSymbolNewPrefix) && decide (suffix.length ≤ symLen) &&
    strEq m (symName + symLen - suffix.length) suffix

inductive Generation
  | one
  | two
  deriving DecidableEq

/-- The function to patch, and how. -/
def platformSymbol (m : Memory 8) (buf : ℕ) : Option (ℕ × Generation) :=
  match machoFindSymbol m buf platformCheckSymbol with
  | some symbol => some (symbol, .one)
  | none => (machoFindSymbolF m buf (platformSymbolNewClassifier m)).map (·, .two)

/-- `macho_find_section` for the text section. -/
def machoFindText : FindSection := fun m buf =>
  (machoFindSection (bytes m) (4 * buf) "__TEXT" "__text").map fun sect =>
    ⟨(u32 (bytes m) (sect + 48)).toNat, (u64 (bytes m) (sect + 40)).toNat⟩

def patchPlatformCheckNew (dyldBuf : ℕ) (s : Process) : Process :=
  { s with
    memory := write s.memory dyldBuf [0x52800020, 0xd65f03c0]
    hasFoundPlatformPatch := true }

def platformCheckPatch (buf : ℕ) (platform : Word) (s : Process) : Except Stop Process :=
  match platformSymbol (bytes s.memory) buf with
  | none =>
    .error (.panic s!"failed to find symbol {platformCheckSymbol} or *{platformCheckSymbolNewSuffix}")
  | some (symbol, generation) =>
    let funcAddr := functionAt s.memory buf symbol
    let funcLen := functionLen s.memory symbol
    let s := match generation with
      | .one => patchPlatformCheck machoFindText (buf / 4) funcAddr funcLen platform s
      | .two => patchPlatformCheckNew funcAddr s
    if s.hasFoundPlatformPatch then .ok s
    else .error (.panic "failed to find dyld platform check")

/-! ## Dyld in the cache -/

def matchesOld : List (Word × Word) :=
  [(0xaa1303e0, 0xffffffff), (0x94000000, 0xfc000000), (0x90000001, 0x9f00001f),
    (0x91000021, 0xffc003ff), (0x94000000, 0xfc000000), (0xb4000000, 0xff00001f),
    (0x90000001, 0x9f00001f), (0x91000021, 0xffc003ff), (0x94000000, 0xfc000000),
    (0x34000000, 0xff00001f)]

/-- `none` when a null pointer is followed. -/
def patchDyldInCache (buf stream : ℕ) (s : Process) : Option (Bool × Process) :=
  let m := s.memory
  (pfFollowXref m buf (stream + 2)).bind fun envName =>
  (pfFollowXref m buf (stream + 6)).map fun envValue =>
  if envName = null ∨ envValue = null then (false, s)
  else if strEq (bytes m) envName (cbytes "DYLD_IN_CACHE") = false ∨
      strEq (bytes m) envValue (cbytes "0") = false then (false, s)
  else
    let memory := Function.update m (stream + 5) 0xd503201f
    let memory := Function.update memory (stream + 8) 0x52800000
    (true, { s with memory, hasFoundDyldInCache := true })

/-- `dyld_in_cache`, which is never disabled. -/
def dyldInCache (buf : ℕ) : PfPatch (Option Process) where
  words := matchesOld
  disabled := false
  callback stream s := (false, (s.bind (patchDyldInCache buf stream)).map Prod.snd)

/-- The memory, until a null pointer is followed. -/
def readProcess (s : Option Process) : Memory 32 := s.elim 0 Process.memory

def dyldInCachePatch (buf : ℕ) (s : Process) : Except Stop Process :=
  match machoFindSymbol (bytes s.memory) buf "start" with
  | none => .error .fault
  | some start =>
    match pfFindMaskmatch32 readProcess (functionAt s.memory buf start) (functionLen s.memory start)
      [dyldInCache buf, dyldInCacheNew buf] (some s) with
    | none => .error .fault
    | some s =>
      if s.hasFoundDyldInCache then .ok s else .error (.panic "failed to find dyld-in-cache")

/-! ## The configuration of the process -/

/-- `dev_panic`, which goes on in a build that is not for developers. -/
def devPanic (devBuild : Bool) (message : String) (s : Process) : Except Stop Process :=
  if devBuild then .error (.panic message) else .ok s

def amfiCheckDyldPolicySelfSymbol : String := "_amfi_check_dyld_policy_self"

def dyldProcesConfigPatch (devBuild : Bool) (buf : ℕ) (s : Process) : Except Stop Process :=
  match machoFindSymbol (bytes s.memory) buf amfiCheckDyldPolicySelfSymbol with
  | none => devPanic devBuild s!"{amfiCheckDyldPolicySelfSymbol} not found" s
  | some amfiFlags =>
    if functionLen s.memory amfiFlags < 16 then
      devPanic devBuild s!"{amfiCheckDyldPolicySelfSymbol} too small" s
    else
      let memory := write s.memory (functionAt s.memory buf amfiFlags)
        [0xd2801be8, 0xf9000028, 0xd2800000, 0xd65f03c0]
      .ok { s with memory }

/-! ## An image -/

/-- Whether the strings of the image have a text; `none` when a null pointer is followed. -/
def cstringHas (m : Memory 8) (buf cstring : ℕ) (text : String) : Option Bool :=
  (machoVaToPtr m buf (u64 m (cstring + 32))).bind fun ptr =>
    memmem m ptr (u64 m (cstring + 40)).toNat (cbytes text ++ [0])

/-- Patch an image whose strings have a text. -/
def whenCstringHas (buf cstring : ℕ) (text : String) (patch : Process → Except Stop Process)
    (s : Process) : Except Stop Process :=
  match cstringHas (bytes s.memory) buf cstring text with
  | none => .error .fault
  | some true => patch s
  | some false => .ok s

/-- The image at `buf`, up to the test for `DYLD_IN_CACHE`, with its section of strings. -/
def patchDyldBefore (devBuild : Bool) (buf : ℕ) (platform : Word) (s : Process) :
    Except Stop (ℕ × Process) := do
  let s ← platformCheckPatch buf platform s
  match machoFindSection (bytes s.memory) buf "__TEXT" "__cstring" with
  | none => .error (.panic "failed to find dyld cstring")
  | some cstring =>
    let s ← whenCstringHas buf cstring "AMFI" (dyldProcesConfigPatch devBuild buf) s
    return (cstring, s)

def patchDyld (devBuild : Bool) (fileP : ℕ) (platform : Word) (s : Process) :
    Except Stop Process := do
  match checkDyld (bytes s.memory) fileP with
  | .error message => .error (.panic message)
  | .ok () =>
    let buf := machoFindArch (bytes s.memory) fileP cpuTypeArm64
    let (cstring, s) ← patchDyldBefore devBuild buf platform s
    whenCstringHas buf cstring "DYLD_IN_CACHE" (dyldInCachePatch buf) s

end Jbinit.PatchDyld

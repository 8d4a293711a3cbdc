import Jbinit.Foundations.Words
import Mathlib.Tactic.IntervalCases

/-!
# The slices of a universal image

`macho_find_arch` looks for a slice, and returns the whole image when there is none. `check_dyld`
expects a null pointer for that, so it refuses no universal image; the callers work on the slice for
arm64 exactly when the image has one (`checkDyld_refuses_iff`).
-/

namespace Jbinit.PatchDyld

open Foundations Words

/-! ## `macho.c` -/

def fatMagic : BitVec 32 := 0xbebafeca

def machHeader64Magic : BitVec 32 := 0xfeedfacf

def machoGetMagic (m : Memory 8) (buf : ℕ) : BitVec 32 :=
  let magic := u32 m buf
  if magic = machHeader64Magic ∨ magic = fatMagic then magic else 0

def machoCheck (m : Memory 8) (buf : ℕ) : Bool :=
  let magic := machoGetMagic m buf
  magic == machHeader64Magic || magic == fatMagic

def convertEndianness32 (val : BitVec 32) : BitVec 32 :=
  (List.range 4).foldl (fun swapped i =>
    let sh := i <<< 3
    swapped ||| ((val >>> sh) &&& 0xff#32) <<< (sh ^^^ 24)) 0

def cpuTypeArm64 : BitVec 32 := 0xc000001

/-- The offset of the first slice for `arch`, of `n` at `farch`. -/
def findArch (m : Memory 8) (arch : BitVec 32) : ℕ → ℕ → Option (BitVec 32)
  | 0, _ => none
  | n + 1, farch =>
    if u32 m farch = arch then some (convertEndianness32 (u32 m (farch + 8)))
    else findArch m arch n (farch + 20)

def machoFindArch (m : Memory 8) (buf : ℕ) (arch : BitVec 32) : ℕ :=
  if machoGetMagic m buf = fatMagic then
    match findArch m arch (convertEndianness32 (u32 m (buf + 4))).toNat (buf + 8) with
    | some offset => buf + offset.toNat
    | none => buf
  else buf

def lcBuildVersion : BitVec 32 := 0x32

/-- The platform in the first build version of `n` load commands. -/
def findPlatform (m : Memory 8) : ℕ → ℕ → BitVec 32
  | 0, _ => 0
  | n + 1, afterHeader =>
    if u32 m afterHeader = lcBuildVersion then
      let platform := u32 m (afterHeader + 8)
      if platform.toNat > 5 then 0 else platform
    else findPlatform m n (afterHeader + (u32 m (afterHeader + 4)).toNat)

def machoGetPlatform (m : Memory 8) (buf : ℕ) : BitVec 32 :=
  if machoCheck m buf then findPlatform m (u32 m (buf + 16)).toNat (buf + 32) else 0

/-! ## `patcher.c` -/

/-- A null pointer. -/
def null : ℕ := 0

def checkDyld (m : Memory 8) (fileP : ℕ) : Except String Unit :=
  if fileP = null then .error "refusing to patch dyld buf at NULL"
  else
    let magic := machoGetMagic m fileP
    if magic = 0 then .error "detected corrupted dyld"
    else if magic = fatMagic then
      let arm64DyldBuf := machoFindArch m fileP cpuTypeArm64
      if arm64DyldBuf = null then .error "detected unsupported or invalid dyld architecture"
      else .ok ()
    else .ok ()

def getPlatform (m : Memory 8) (fileP : ℕ) : Except String (BitVec 32) :=
  let platform := machoGetPlatform m (machoFindArch m fileP cpuTypeArm64)
  if platform = 0 then .error "detected unsupported or invalid platform" else .ok platform

/-! ## The property -/

/-- What a universal image says of a slice. -/
structure Slice where
  cputype : BitVec 32
  offset : BitVec 32
  deriving DecidableEq

/-- The numbers of a universal image have their most significant byte first. -/
def u32Be (m : Memory 8) (a : ℕ) : BitVec 32 := m a ++ m (a + 1) ++ m (a + 2) ++ m (a + 3)

/-- The slices of a universal image. -/
def slices (m : Memory 8) (buf : ℕ) : List Slice :=
  (List.range (u32Be m (buf + 4)).toNat).map fun i =>
    ⟨u32Be m (buf + 8 + 20 * i), u32Be m (buf + 8 + 20 * i + 8)⟩

def Slice.isArm64 (slice : Slice) : Bool := slice.cputype == 0x0100000c#32

/-- An image without a slice for arm64 is refused, and of another the slice is worked on. -/
structure RefusesUnpatchable (m : Memory 8) (buf : ℕ) : Prop where
  refuses : (∃ e, checkDyld m buf = .error e) ↔ ∀ slice ∈ slices m buf, slice.isArm64 = false
  slice : checkDyld m buf = .ok () → machoFindArch m buf cpuTypeArm64 ≠ buf ∧
    ∃ slice ∈ slices m buf, slice.isArm64 = true ∧
      machoFindArch m buf cpuTypeArm64 = buf + slice.offset.toNat

/-! ## The search -/

variable {m : Memory 8} {buf : ℕ}

/-- The bytes change places, and the bits of a byte do not. -/
theorem getLsbD_convertEndianness32 (x : BitVec 32) {i : ℕ} (hi : i < 32) :
    (convertEndianness32 x).getLsbD i = x.getLsbD (i ^^^ 24) := by
  have hswap : convertEndianness32 x =
      (((0#32 ||| ((x >>> 0) &&& 0xff#32) <<< 24) ||| ((x >>> 8) &&& 0xff#32) <<< 16) |||
        ((x >>> 16) &&& 0xff#32) <<< 8) ||| ((x >>> 24) &&& 0xff#32) <<< 0 := rfl
  rw [hswap]
  interval_cases i <;> simp

theorem getLsbD_u32 (m : Memory 8) (a : ℕ) {i : ℕ} (hi : i < 32) :
    (u32 m a).getLsbD i = (m (a + i / 8)).getLsbD (i % 8) := by
  simp only [u32, BitVec.getLsbD_append]
  interval_cases i <;> rfl

theorem getLsbD_u32Be (m : Memory 8) (a : ℕ) {i : ℕ} (hi : i < 32) :
    (u32Be m a).getLsbD i = (m (a + (3 - i / 8))).getLsbD (i % 8) := by
  simp only [u32Be, BitVec.getLsbD_append]
  interval_cases i <;> rfl

theorem convertEndianness32_u32 (m : Memory 8) (a : ℕ) :
    convertEndianness32 (u32 m a) = u32Be m a := by
  apply BitVec.eq_of_getLsbD_eq
  intro i hi
  have hxor : i ^^^ 24 < 32 ∧ (i ^^^ 24) / 8 = 3 - i / 8 ∧ (i ^^^ 24) % 8 = i % 8 := by
    revert i
    decide
  rw [getLsbD_convertEndianness32 _ hi, getLsbD_u32 m a hxor.1, getLsbD_u32Be m a hi, hxor.2.1,
    hxor.2.2]

theorem convertEndianness32_involutive (x : BitVec 32) :
    convertEndianness32 (convertEndianness32 x) = x := by
  apply BitVec.eq_of_getLsbD_eq
  intro i hi
  have hxor : i ^^^ 24 < 32 ∧ i ^^^ 24 ^^^ 24 = i := by
    revert i
    decide
  rw [getLsbD_convertEndianness32 _ hi, getLsbD_convertEndianness32 _ hxor.1, hxor.2]

/-- The type is compared as it is stored. -/
theorem u32_eq_cpuTypeArm64 (m : Memory 8) (a : ℕ) :
    u32 m a = cpuTypeArm64 ↔ u32Be m a = 0x0100000c#32 := by
  have harm : convertEndianness32 cpuTypeArm64 = 0x0100000c#32 := by decide
  rw [← convertEndianness32_u32, ← harm]
  constructor
  · exact congrArg convertEndianness32
  · intro h
    have hswap := congrArg convertEndianness32 h
    rwa [convertEndianness32_involutive, convertEndianness32_involutive] at hswap

/-- The search takes the first slice for arm64. -/
theorem findArch_eq (m : Memory 8) (n farch : ℕ) : findArch m cpuTypeArm64 n farch =
    (((List.range n).map fun i => Slice.mk (u32Be m (farch + 20 * i))
      (u32Be m (farch + 20 * i + 8))).find? Slice.isArm64).map Slice.offset := by
  induction n generalizing farch with
  | zero => rfl
  | succ n ih =>
    rw [findArch, List.range_succ_eq_map, List.map_cons, List.map_map, List.find?_cons, ih]
    have hstep : (fun i => Slice.mk (u32Be m (farch + 20 * i)) (u32Be m (farch + 20 * i + 8))) ∘
        Nat.succ = fun i => ⟨u32Be m (farch + 20 + 20 * i), u32Be m (farch + 20 + 20 * i + 8)⟩ := by
      funext i
      have hadd : farch + 20 * (i + 1) = farch + 20 + 20 * i := by omega
      simp only [Function.comp_apply, Nat.succ_eq_add_one, hadd]
    rw [hstep]
    by_cases harch : u32 m farch = cpuTypeArm64
    · have hslice := (u32_eq_cpuTypeArm64 m farch).mp harch
      rw [if_pos harch]
      simp [Slice.isArm64, hslice, convertEndianness32_u32]
    · have hslice : (u32Be m farch == 0x0100000c#32) = false :=
        beq_eq_false_iff_ne.mpr fun h => harch ((u32_eq_cpuTypeArm64 m farch).mpr h)
      simp only [if_neg harch, Slice.isArm64, Nat.mul_zero, Nat.add_zero, hslice]

theorem machoFindArch_universal (huniversal : u32 m buf = fatMagic) :
    machoFindArch m buf cpuTypeArm64 = match (slices m buf).find? Slice.isArm64 with
      | some slice => buf + slice.offset.toNat
      | none => buf := by
  have hmagic : machoGetMagic m buf = fatMagic := by
    simp [machoGetMagic, huniversal]
  rw [machoFindArch, if_pos hmagic, findArch_eq, convertEndianness32_u32]
  change (match Option.map Slice.offset ((slices m buf).find? Slice.isArm64) with
    | some offset => buf + offset.toNat
    | none => buf) = _
  cases (slices m buf).find? Slice.isArm64 <;> rfl

/-- No universal image is refused. -/
theorem checkDyld_universal (hbuf : buf ≠ null) (huniversal : u32 m buf = fatMagic) :
    checkDyld m buf = .ok () := by
  have hmagic : machoGetMagic m buf = fatMagic := by
    simp [machoGetMagic, huniversal]
  have hslice : machoFindArch m buf cpuTypeArm64 ≠ null := by
    rw [machoFindArch_universal huniversal]
    have hpos : 0 < buf := Nat.pos_of_ne_zero hbuf
    split
    · exact Nat.ne_of_gt (Nat.add_pos_left hpos _)
    · exact hbuf
  have hfat : fatMagic ≠ 0 := by decide
  rw [checkDyld, if_neg hbuf, hmagic, if_neg hfat, if_pos rfl, if_neg hslice]

/-- **The refusals**: what is asked of a universal image holds exactly when it has a slice for
arm64, and the first one is not at the header. -/
theorem checkDyld_refuses_iff (hbuf : buf ≠ null) (huniversal : u32 m buf = fatMagic) :
    RefusesUnpatchable m buf ↔
      ∃ slice, (slices m buf).find? Slice.isArm64 = some slice ∧ slice.offset ≠ 0 := by
  have hok := checkDyld_universal hbuf huniversal
  have hfind := machoFindArch_universal huniversal
  constructor
  · intro h
    cases hslice : (slices m buf).find? Slice.isArm64 with
    | none =>
      rw [hslice] at hfind
      exact absurd hfind (h.slice hok).1
    | some slice =>
      rw [hslice] at hfind
      refine ⟨slice, rfl, fun hzero => (h.slice hok).1 ?_⟩
      simp [hfind, hzero]
  · rintro ⟨slice, hslice, hoffset⟩
    have harm := List.find?_some hslice
    have hmem := List.mem_of_find?_eq_some hslice
    rw [hslice] at hfind
    constructor
    case refuses =>
      rw [hok]
      constructor
      · rintro ⟨e, he⟩
        cases he
      · intro hnone
        rw [hnone slice hmem] at harm
        cases harm
    case slice =>
      intro _
      have hne : slice.offset.toNat ≠ 0 := by
        simpa [BitVec.toNat_eq] using hoffset
      refine ⟨?_, slice, hmem, harm, hfind⟩
      simpa [hfind] using hne

/-- An image of one slice, at an offset of 16384. -/
def image (cputype : List (BitVec 8)) : Memory 8 :=
  write (fun _ => 0) 4096 ([0xca, 0xfe, 0xba, 0xbe, 0, 0, 0, 1] ++ cputype ++
    [0, 0, 0, 0, 0, 0, 0x40, 0])

theorem checkDyld_refuses_arm64 : 4096 ≠ null ∧ u32 (image [1, 0, 0, 0xc]) 4096 = fatMagic ∧
    RefusesUnpatchable (image [1, 0, 0, 0xc]) 4096 :=
  ⟨by decide, by decide, (checkDyld_refuses_iff (by decide) (by decide)).mpr
    ⟨⟨0x0100000c, 0x4000⟩, by decide, by decide⟩⟩

/-- An image for x86_64 only is not refused, and its header is worked on. -/
theorem not_checkDyld_refuses_x86 : u32 (image [1, 0, 0, 7]) 4096 = fatMagic ∧
    slices (image [1, 0, 0, 7]) 4096 = [⟨0x01000007, 0x4000⟩] ∧
    checkDyld (image [1, 0, 0, 7]) 4096 = .ok () ∧
    machoFindArch (image [1, 0, 0, 7]) 4096 cpuTypeArm64 = 4096 ∧
    ¬ RefusesUnpatchable (image [1, 0, 0, 7]) 4096 := by
  have hok : checkDyld (image [1, 0, 0, 7]) 4096 = .ok () :=
    checkDyld_universal (by decide) (by decide)
  refine ⟨by decide, by decide, hok, by decide, fun h => ?_⟩
  obtain ⟨e, he⟩ := h.refuses.mpr (by decide)
  rw [hok] at he
  cases he

end Jbinit.PatchDyld

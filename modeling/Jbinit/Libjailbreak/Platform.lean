import Jbinit.PatchDyld.Macho
import Jbinit.Palera1nd.Sys

/-!
# The platform of `dyld`

`jailbreak_get_platform` reads the platform of the running system from the same image as
`get_platform` of the boot stage, and with a copy of the reader. The copy was not given the search
for a slice: it accepts a universal image, and reads the bytes behind the universal header as load
commands. It accepts more platforms as well, which makes no difference to an image that the boot
stage accepts (`machoGetPlatform_eq_iff`).
-/

namespace Jbinit.Libjailbreak

open Foundations Words PatchDyld Palera1nd

/-! ## `platform.c` -/

def machoCheck (m : Memory 8) (buf : ℕ) : Bool :=
  let magic := u32 m buf
  magic == machHeader64Magic || magic == fatMagic

/-- The platform in the first build version of `n` load commands, and the `errno` that is set. -/
def findPlatform (m : Memory 8) : ℕ → ℕ → BitVec 32 × Option Errno
  | 0, _ => (0, some enotsup)
  | n + 1, afterHeader =>
    if u32 m afterHeader = lcBuildVersion then
      let platform := u32 m (afterHeader + 8)
      if platform.toNat > 20 then (0, some einval) else (platform, none)
    else findPlatform m n (afterHeader + (u32 m (afterHeader + 4)).toNat)

def machoGetPlatform (m : Memory 8) (buf : ℕ) : BitVec 32 × Option Errno :=
  if machoCheck m buf then findPlatform m (u32 m (buf + 16)).toNat (buf + 32)
  else (0, some einval)

/-- The answers of `stat`, `open` and `mmap` for `/usr/lib/dyld`. -/
structure DyldFile where
  stat : ℤ
  fd : ℤ
  buf : Option ℕ

/-- The result, and the platform that is cached from then on; -1 where none is. -/
def jailbreakGetPlatform (m : Memory 8) (dyld : DyldFile) (cachedPlatform : ℤ) : ℤ × ℤ :=
  if cachedPlatform ≠ -1 then (cachedPlatform, cachedPlatform)
  else if dyld.stat ≠ 0 then (dyld.stat, cachedPlatform)
  else if dyld.fd = -1 then (-1, cachedPlatform)
  else match dyld.buf with
    | none => (-1, cachedPlatform)
    | some dyldBuf =>
      let platform := (machoGetPlatform m dyldBuf).1
      if platform = 0 then (-1, cachedPlatform) else (platform.toInt, platform.toInt)

/-! ## The property -/

/-- The first build version of an image. -/
def buildVersion (m : Memory 8) (buf : ℕ) : Option ℕ :=
  firstCommand m (fun command => u32 m command == lcBuildVersion) (u32 m (buf + 16)).toNat
    (buf + 32)

/-- The bytes behind the universal header, read as load commands, have a build version, and its
platform is the one that the slice at `slice` has. -/
def SamePlatform (m : Memory 8) (buf slice : ℕ) : Prop :=
  ∃ a b, buildVersion m slice = some a ∧ buildVersion m buf = some b ∧
    u32 m (b + 8) = u32 m (a + 8)

/-- An image in which the copy of the reader finds the platform of the boot stage: it is not
universal, or its slice for arm64 is where it begins itself, or its universal header reads like the
slice. -/
def ReadAlike (m : Memory 8) (buf : ℕ) : Prop :=
  u32 m buf = fatMagic → ∀ slice, (slices m buf).find? Slice.isArm64 = some slice →
    slice.offset = 0 ∨ SamePlatform m buf (buf + slice.offset.toNat)

/-! ## The readers -/

/-- The platform of a build version, up to a limit. -/
def platformUpTo (m : Memory 8) (limit : ℕ) : Option ℕ → BitVec 32
  | some command => if (u32 m (command + 8)).toNat > limit then 0 else u32 m (command + 8)
  | none => 0

variable {m m' : Memory 8} {p q : ℕ} {platform : BitVec 32}

theorem platformUpTo_eq_iff {limit : ℕ} {build : Option ℕ} (hplatform : platform ≠ 0) :
    platformUpTo m limit build = platform ↔
      platform.toNat ≤ limit ∧ ∃ a, build = some a ∧ u32 m (a + 8) = platform := by
  cases build with
  | none => simpa [platformUpTo] using hplatform.symm
  | some a =>
    rw [platformUpTo]
    by_cases hover : (u32 m (a + 8)).toNat > limit
    · rw [if_pos hover]
      constructor
      · intro hzero
        exact absurd hzero.symm hplatform
      · rintro ⟨hle, b, hb, rfl⟩
        cases hb
        omega
    · rw [if_neg hover]
      constructor
      · rintro rfl
        exact ⟨by omega, a, rfl, rfl⟩
      · rintro ⟨-, b, hb, rfl⟩
        cases hb
        rfl

theorem findPlatform_eq (n a : ℕ) : PatchDyld.findPlatform m n a =
    platformUpTo m 5 (firstCommand m (fun command => u32 m command == lcBuildVersion) n a) := by
  induction n generalizing a with
  | zero => rfl
  | succ n ih =>
    rw [PatchDyld.findPlatform, firstCommand]
    by_cases hbuild : u32 m a = lcBuildVersion
    · simp [hbuild, platformUpTo]
    · simp [hbuild, ih]

theorem findPlatform_copy_eq (n a : ℕ) : (findPlatform m n a).1 =
    platformUpTo m 20 (firstCommand m (fun command => u32 m command == lcBuildVersion) n a) := by
  induction n generalizing a with
  | zero => rfl
  | succ n ih =>
    rw [findPlatform, firstCommand]
    by_cases hbuild : u32 m a = lcBuildVersion
    · by_cases hover : (u32 m (a + 8)).toNat > 20
      · simp [hbuild, platformUpTo, hover]
      · simp [hbuild, platformUpTo, hover]
    · simp [hbuild, ih]

theorem u32_congr (hload : ∀ k, m' (q + k) = m (p + k)) (k : ℕ) :
    u32 m' (q + k) = u32 m (p + k) := by
  simp only [u32, Nat.add_assoc, hload]

theorem findPlatform_congr (hload : ∀ k, m' (q + k) = m (p + k)) (n k : ℕ) :
    findPlatform m' n (q + k) = findPlatform m n (p + k) := by
  induction n generalizing k with
  | zero => rfl
  | succ n ih =>
    simp only [findPlatform, Nat.add_assoc, u32_congr hload, ih]

/-- Where the image is makes no difference. -/
theorem machoGetPlatform_congr (hload : ∀ k, m' (q + k) = m (p + k)) :
    machoGetPlatform m' q = machoGetPlatform m p := by
  have hmagic : u32 m' q = u32 m p := u32_congr hload 0
  unfold machoGetPlatform machoCheck
  rw [hmagic, u32_congr hload, findPlatform_congr hload]

theorem machoCheck_eq (m : Memory 8) (buf : ℕ) : machoCheck m buf = PatchDyld.machoCheck m buf := by
  by_cases hmagic : u32 m buf = machHeader64Magic ∨ u32 m buf = fatMagic
  · simp only [machoCheck, PatchDyld.machoCheck, machoGetMagic, if_pos hmagic]
  · have hnone : machoCheck m buf = false := by
      simpa [machoCheck] using hmagic
    rw [hnone, PatchDyld.machoCheck, machoGetMagic, if_neg hmagic]
    decide

/-- What the boot stage reads from an image or a slice. -/
theorem machoGetPlatform_eq_iff_of_slice (hplatform : platform ≠ 0) :
    PatchDyld.machoGetPlatform m p = platform ↔ PatchDyld.machoCheck m p = true ∧
      platform.toNat ≤ 5 ∧ ∃ a, buildVersion m p = some a ∧ u32 m (a + 8) = platform := by
  rw [PatchDyld.machoGetPlatform, findPlatform_eq, ← buildVersion]
  cases PatchDyld.machoCheck m p with
  | false => simpa using hplatform.symm
  | true => simpa using platformUpTo_eq_iff hplatform

/-- What the copy reads from an image. -/
theorem machoGetPlatform_copy_eq_iff (hplatform : platform ≠ 0) :
    (machoGetPlatform m p).1 = platform ↔ PatchDyld.machoCheck m p = true ∧
      platform.toNat ≤ 20 ∧ ∃ a, buildVersion m p = some a ∧ u32 m (a + 8) = platform := by
  rw [machoGetPlatform, machoCheck_eq]
  cases PatchDyld.machoCheck m p with
  | false => simpa using hplatform.symm
  | true =>
    rw [if_pos rfl, findPlatform_copy_eq, ← buildVersion]
    simpa using platformUpTo_eq_iff hplatform

/-- In a process that has not asked before. -/
theorem jailbreakGetPlatform_of_read {fd : ℤ} (hfd : fd ≠ -1) (hplatform : platform ≠ 0)
    (hread : (machoGetPlatform m p).1 = platform) :
    jailbreakGetPlatform m ⟨0, fd, some p⟩ (-1) = (platform.toInt, platform.toInt) := by
  have hzero : ¬ platform = 0#32 := hplatform
  simp [jailbreakGetPlatform, hfd, hread, hzero]

/-! ## Both -/

theorem getPlatform_eq_ok_iff : getPlatform m p = .ok platform ↔
    platform ≠ 0 ∧ PatchDyld.machoGetPlatform m (machoFindArch m p cpuTypeArm64) = platform := by
  rw [getPlatform]
  by_cases hzero : PatchDyld.machoGetPlatform m (machoFindArch m p cpuTypeArm64) = 0
  · simp only [hzero, if_true]
    constructor
    · intro h
      cases h
    · rintro ⟨hne, heq⟩
      exact absurd heq.symm hne
  · simp only [hzero, if_false, Except.ok.injEq]
    constructor
    · rintro rfl
      exact ⟨hzero, rfl⟩
    · rintro ⟨-, heq⟩
      exact heq

/-- On one image, the readers differ in the limit only. -/
theorem machoGetPlatform_copy_eq (hplatform : platform ≠ 0)
    (hread : PatchDyld.machoGetPlatform m p = platform) : (machoGetPlatform m p).1 = platform := by
  obtain ⟨hcheck, hlimit, hbuild⟩ := (machoGetPlatform_eq_iff_of_slice hplatform).mp hread
  exact (machoGetPlatform_copy_eq_iff hplatform).mpr ⟨hcheck, by omega, hbuild⟩

/-- An image that is not universal is its own slice. -/
theorem machoFindArch_thin (h : u32 m p ≠ fatMagic) : machoFindArch m p cpuTypeArm64 = p := by
  have hmagic : machoGetMagic m p ≠ fatMagic := by
    rw [machoGetMagic]
    split
    · exact h
    · decide
  rw [machoFindArch, if_neg hmagic]

/-- A universal image with a slice behind its header. -/
theorem machoGetPlatform_copy_eq_iff_of_slice (huniversal : u32 m p = fatMagic) {slice : Slice}
    (hslice : (slices m p).find? Slice.isArm64 = some slice) (hoffset : slice.offset ≠ 0)
    (hplatform : platform ≠ 0)
    (hread : PatchDyld.machoGetPlatform m (p + slice.offset.toNat) = platform) :
    (machoGetPlatform m p).1 = platform ↔ ReadAlike m p := by
  obtain ⟨-, hlimit, a, ha, hvalue⟩ := (machoGetPlatform_eq_iff_of_slice hplatform).mp hread
  have hcheck : PatchDyld.machoCheck m p = true := by
    simp [PatchDyld.machoCheck, machoGetMagic, huniversal]
  constructor
  · intro hcopy _ other hother
    rw [hslice] at hother
    cases hother
    obtain ⟨-, -, b, hb, hsame⟩ := (machoGetPlatform_copy_eq_iff hplatform).mp hcopy
    exact .inr ⟨a, b, ha, hb, hsame.trans hvalue.symm⟩
  · intro halike
    obtain ⟨c, b, hc, hb, hsame⟩ := (halike huniversal slice hslice).resolve_left hoffset
    rw [ha] at hc
    cases hc
    exact (machoGetPlatform_copy_eq_iff hplatform).mpr
      ⟨hcheck, by omega, b, hb, hsame.trans hvalue⟩

/-- **The platforms**: the running system reads the platform that the boot stage has found exactly
when the image is read alike by both. The image is at `p` for the boot stage and at `q` for the
running system. -/
theorem machoGetPlatform_eq_iff (hload : ∀ k, m' (q + k) = m (p + k))
    (hok : getPlatform m p = .ok platform) :
    (machoGetPlatform m' q).1 = platform ↔ ReadAlike m p := by
  obtain ⟨hplatform, hread⟩ := getPlatform_eq_ok_iff.mp hok
  rw [machoGetPlatform_congr hload]
  by_cases huniversal : u32 m p = fatMagic
  case neg =>
    rw [machoFindArch_thin huniversal] at hread
    exact iff_of_true (machoGetPlatform_copy_eq hplatform hread)
      fun h => absurd h huniversal
  case pos =>
    have hfind := machoFindArch_universal huniversal
    cases hslice : (slices m p).find? Slice.isArm64 with
    | none =>
      rw [hslice] at hfind
      rw [hfind] at hread
      refine iff_of_true (machoGetPlatform_copy_eq hplatform hread) ?_
      intro _ slice hsome
      rw [hslice] at hsome
      cases hsome
    | some slice =>
      rw [hslice] at hfind
      change machoFindArch m p cpuTypeArm64 = p + slice.offset.toNat at hfind
      rw [hfind] at hread
      by_cases hoffset : slice.offset = 0
      · have hself : p + slice.offset.toNat = p := by
          simp [hoffset]
        rw [hself] at hread
        refine iff_of_true (machoGetPlatform_copy_eq hplatform hread) ?_
        intro _ other hother
        rw [hslice] at hother
        cases hother
        exact .inl hoffset
      · exact machoGetPlatform_copy_eq_iff_of_slice huniversal hslice hoffset hplatform hread

/-- An image for arm64 with one load command, a build version for iOS. -/
def thin : List (BitVec 8) :=
  [0xcf, 0xfa, 0xed, 0xfe, 0x0c, 0, 0, 1, 0, 0, 0, 0, 7, 0, 0, 0, 1, 0, 0, 0, 24, 0, 0, 0,
    0, 0, 0, 0, 0, 0, 0, 0, 0x32, 0, 0, 0, 24, 0, 0, 0, 2, 0, 0, 0, 0, 0, 15, 0, 0, 0, 15, 0,
    0, 0, 0, 0]

/-- A universal image with that image as its only slice. -/
def universal : Memory 8 :=
  write (write (fun _ => 0) 4096 [0xca, 0xfe, 0xba, 0xbe, 0, 0, 0, 1, 1, 0, 0, 0x0c, 0, 0, 0, 0,
    0, 0, 0x40, 0, 0, 0, 0, 0x38, 0, 0, 0, 14]) 20480 thin

theorem machoGetPlatform_thin :
    getPlatform (write (fun _ => 0) 4096 thin) 4096 = .ok 2 ∧
      ((machoGetPlatform (write (fun _ => 0) 4096 thin) 4096).1 = 2 ↔
        ReadAlike (write (fun _ => 0) 4096 thin) 4096) :=
  have hok : getPlatform (write (fun _ => 0) 4096 thin) 4096 = .ok 2 := by decide
  ⟨hok, machoGetPlatform_eq_iff (fun _ => rfl) hok⟩

/-- A command without a size is read again and again. -/
theorem firstCommand_of_size_zero {found : ℕ → Bool} {a : ℕ} (hfound : found a = false)
    (hsize : u32 m (a + 4) = 0) (n : ℕ) : firstCommand m found n a = none := by
  induction n with
  | zero => rfl
  | succ n ih => simpa [firstCommand, hfound, hsize] using ih

/-- The slice is for iOS, and the running system finds no platform. -/
theorem not_machoGetPlatform_universal : getPlatform universal 4096 = .ok 2 ∧
    (machoGetPlatform universal 4096).1 = 0 ∧
    jailbreakGetPlatform universal ⟨0, 3, some 4096⟩ (-1) = (-1, -1) := by
  have hok : getPlatform universal 4096 = .ok 2 := by decide +kernel
  have hread : (machoGetPlatform universal 4096).1 = 0 := by
    have hcheck : machoCheck universal 4096 = true := by decide
    rw [machoGetPlatform, if_pos hcheck, findPlatform_copy_eq,
      firstCommand_of_size_zero (by decide) (by decide)]
    rfl
  refine ⟨hok, hread, ?_⟩
  simp [jailbreakGetPlatform, hread]

end Jbinit.Libjailbreak

import Jbinit.PatchDyld.Plooshfinder

/-!
# The platform patch

`patch_platform_check` replaces each branch to a register in a function by a branch to a copy of the
shellcode, in zero words of the text section. The static variables of the patch are those of the
process: a first image and those after it use the same. The source keeps a pointer to the header of
the section that is found. The header is not among the words that are searched, so while one image
is patched its offset and size stay as they are; what a later image finds there is up to
`Process.load`.
-/

namespace Jbinit.PatchDyld

open Foundations Arm64 Words

/-- Where a section begins in its image, and its size. -/
structure Section64 where
  offset : ℕ
  size : ℕ
  deriving DecidableEq

/-- The memory and the static variables. -/
structure Process where
  memory : Memory 32
  shcLoc : Option ℕ
  /-- What the static pointer `section` goes to; `none` is a null pointer. -/
  textSection : Option Section64
  shellcodeBr : List Word
  shellcodeBlr : List Word
  hasFoundPlatformPatch : Bool
  hasFoundDyldInCache : Bool

/-- Nothing has been patched. -/
def Process.fresh (memory : Memory 32) : Process where
  memory
  shcLoc := none
  textSection := none
  shellcodeBr := [0xf100283f, 0x54000040, 0xd2800001, 0]
  shellcodeBlr := [0xa9bf7bfd, 0x910003fd, 0xf100283f, 0x54000040, 0xd2800001, 0, 0xa8c17bfd,
    0xd65f03c0]
  hasFoundPlatformPatch := false
  hasFoundDyldInCache := false

/-- A `br`. -/
def isBr (insn : Word) : Bool := pfMaskmatch32 insn 0xd61f0000 0xfffffc1f

/-- A `br` or `blr`: what the patch looks for. -/
def isBranch (insn : Word) : Bool := pfMaskmatch32 insn 0xd61f0000 0xffdffc1f

/-- Set the platform and the branch of the shellcode. -/
def Process.fill (s : Process) (platform jmp : Word) : Process :=
  if isBr jmp then
    { s with shellcodeBr := (s.shellcodeBr.modify 2 (· ||| platform <<< 5)).set 3 jmp }
  else { s with shellcodeBlr := (s.shellcodeBlr.modify 4 (· ||| platform <<< 5)).set 5 jmp }

/-- `macho_find_section` for the text section, at an image. -/
abbrev FindSection := Memory 32 → ℕ → Option Section64

/-- Keep the section, unless there is one. -/
def Process.findText (findSection : FindSection) (buf : ℕ) (s : Process) : Process :=
  if s.textSection.isNone then { s with textSection := findSection s.memory buf } else s

def copyShc (findSection : FindSection) (buf : ℕ) (platform jmp : Word) (s : Process) :
    Option ℕ × Process :=
  let br := isBr jmp
  let s := s.fill platform jmp
  let shellcode := if br then s.shellcodeBr else s.shellcodeBlr
  if br && s.shcLoc.isSome then (s.shcLoc, s)
  else
    let s := s.findText findSection buf
    match s.textSection with
    | none => (none, s)
    | some text =>
      match pfFindZeroBuf s.memory (buf + text.offset / 4) text.size shellcode.length with
      | none => (none, { s with shcLoc := none })
      | some loc => (some loc, { s with shcLoc := some loc, memory := write s.memory loc shellcode })

def injectShc (findSection : FindSection) (buf : ℕ) (platform : Word) (stream : ℕ) (s : Process) :
    Process :=
  match copyShc findSection buf platform (s.memory stream) s with
  | (none, s) => s
  | (some loc, s) =>
    { s with
      memory := Function.update s.memory stream
        (arm64Branch stream loc !isBr (s.memory stream))
      hasFoundPlatformPatch := true }

def patchPlatformCheck (findSection : FindSection) (realBuf dyldBuf dyldLen : ℕ) (platform : Word)
    (s : Process) : Process :=
  pfFindMaskmatch32 Process.memory dyldBuf dyldLen
    [⟨[(0xd61f0000, 0xffdffc1f)], false,
      fun stream s => (false, injectShc findSection realBuf platform stream s)⟩] s

/-! ## The shellcode -/

/-- `mov x1, platform`. -/
def movPlatform (platform : Word) : Word := 0xd2800001#32 ||| platform <<< 5

/-- The words of a copy for an instruction. -/
def shellcode (platform jmp : Word) : List Word :=
  if isBr jmp then [0xf100283f, 0x54000040, movPlatform platform, jmp]
  else [0xa9bf7bfd, 0x910003fd, 0xf100283f, 0x54000040, movPlatform platform, jmp, 0xa8c17bfd,
    0xd65f03c0]

/-- The place of the branch in a copy. -/
def branchIndex (jmp : Word) : ℕ := if isBr jmp then 3 else 5

section

variable {platform w : Word} {s : Process}

theorem isBranch_iff : isBranch w = true ↔ (branchRegister w).isSome = true := by
  rw [branchRegister_isSome, isBranch, pfMaskmatch32]
  exact beq_iff_eq

theorem ne_zero_of_isBranch (h : isBranch w = true) : w ≠ 0#32 :=
  ne_zero_of_branchRegister (isBranch_iff.mp h)

theorem movPlatform_odd (platform : Word) : (movPlatform platform).getLsbD 0 = true := by
  rw [movPlatform, BitVec.getLsbD_or]
  rfl

theorem isBranch_movPlatform (platform : Word) : isBranch (movPlatform platform) = false := by
  rw [Bool.eq_false_iff, Ne, isBranch_iff, branchRegister_of_odd (movPlatform_odd platform)]
  simp

theorem movPlatform_ne_zero (platform : Word) : movPlatform platform ≠ 0#32 := by
  intro hzero
  have hodd := movPlatform_odd platform
  rw [hzero] at hodd
  cases hodd

/-- Every word of a copy is set, and only the branch is a branch. -/
theorem shellcode_word (h : isBranch w = true) {x : Word} {k : ℕ}
    (hk : (shellcode platform w)[k]? = some x) :
    x ≠ 0#32 ∧ (isBranch x = true → k = branchIndex w) := by
  have hmov := isBranch_movPlatform platform
  have hmov0 := movPlatform_ne_zero platform
  have hw0 := ne_zero_of_isBranch h
  unfold shellcode at hk
  unfold branchIndex
  split at hk
  case isTrue hbr =>
    rw [if_pos hbr]
    rcases k with _ | _ | _ | _ | k <;> cases hk
    · exact ⟨by decide, by decide⟩
    · exact ⟨by decide, by decide⟩
    · exact ⟨hmov0, by rw [hmov]; simp⟩
    · exact ⟨hw0, fun _ => rfl⟩
  case isFalse hbr =>
    rw [if_neg hbr]
    rcases k with _ | _ | _ | _ | _ | _ | _ | _ | k <;> cases hk
    · exact ⟨by decide, by decide⟩
    · exact ⟨by decide, by decide⟩
    · exact ⟨by decide, by decide⟩
    · exact ⟨by decide, by decide⟩
    · exact ⟨hmov0, by rw [hmov]; simp⟩
    · exact ⟨hw0, fun _ => rfl⟩
    · exact ⟨by decide, by decide⟩
    · exact ⟨by decide, by decide⟩

/-- What the templates keep: the platform is or-ed in, any number of times. -/
structure Templates (platform : Word) (s : Process) : Prop where
  br : ∃ mov jmp, s.shellcodeBr = [0xf100283f, 0x54000040, mov, jmp] ∧
    mov ||| platform <<< 5 = movPlatform platform
  blr : ∃ mov jmp, s.shellcodeBlr = [0xa9bf7bfd, 0x910003fd, 0xf100283f, 0x54000040, mov, jmp,
    0xa8c17bfd, 0xd65f03c0] ∧ mov ||| platform <<< 5 = movPlatform platform

theorem templates_fresh (memory : Memory 32) : Templates platform (.fresh memory) where
  br := ⟨_, _, rfl, rfl⟩
  blr := ⟨_, _, rfl, rfl⟩

theorem Templates.fill (h : Templates platform s) (jmp : Word) :
    Templates platform (s.fill platform jmp) := by
  obtain ⟨⟨mov, x, hbr, hmov⟩, ⟨mov', x', hblr, hmov'⟩⟩ := h
  have hidem (mov : Word) (h : mov ||| platform <<< 5 = movPlatform platform) :
      mov ||| platform <<< 5 ||| platform <<< 5 = movPlatform platform := by
    rw [BitVec.or_assoc, BitVec.or_self, h]
  unfold Process.fill
  split
  · exact ⟨⟨_, jmp, by rw [hbr]; rfl, hidem mov hmov⟩, ⟨mov', x', hblr, hmov'⟩⟩
  · exact ⟨⟨mov, x, hbr, hmov⟩, ⟨_, jmp, by rw [hblr]; rfl, hidem mov' hmov'⟩⟩

/-- The shellcode that is copied. -/
theorem Templates.shellcode (h : Templates platform s) (jmp : Word) :
    (if isBr jmp then (s.fill platform jmp).shellcodeBr else (s.fill platform jmp).shellcodeBlr) =
      shellcode platform jmp := by
  obtain ⟨⟨mov, x, hbr, hmov⟩, ⟨mov', x', hblr, hmov'⟩⟩ := h
  unfold Process.fill PatchDyld.shellcode
  split
  · rw [hbr, ← hmov]
    rfl
  · rw [hblr, ← hmov']
    rfl

theorem shellcode_branchIndex (platform w : Word) :
    (shellcode platform w)[branchIndex w]? = some w := by
  unfold shellcode branchIndex
  split <;> rfl

theorem length_shellcode_pos (platform w : Word) : 0 < (shellcode platform w).length := by
  unfold shellcode
  split <;> simp

/-! ## One branch -/

variable {findSection : FindSection} {buf stream loc : ℕ}

@[simp] theorem fill_memory (s : Process) (platform jmp : Word) :
    (s.fill platform jmp).memory = s.memory := by
  unfold Process.fill
  split <;> rfl

@[simp] theorem fill_shcLoc (s : Process) (platform jmp : Word) :
    (s.fill platform jmp).shcLoc = s.shcLoc := by
  unfold Process.fill
  split <;> rfl

@[simp] theorem fill_textSection (s : Process) (platform jmp : Word) :
    (s.fill platform jmp).textSection = s.textSection := by
  unfold Process.fill
  split <;> rfl

@[simp] theorem findText_memory (s : Process) (findSection : FindSection) (buf : ℕ) :
    (s.findText findSection buf).memory = s.memory := by
  unfold Process.findText
  split <;> rfl

@[simp] theorem findText_shcLoc (s : Process) (findSection : FindSection) (buf : ℕ) :
    (s.findText findSection buf).shcLoc = s.shcLoc := by
  unfold Process.findText
  split <;> rfl

theorem Templates.findText (h : Templates platform s) (findSection : FindSection) (buf : ℕ) :
    Templates platform (s.findText findSection buf) := by
  unfold Process.findText
  split <;> exact ⟨h.br, h.blr⟩

/-- The text section that is searched. -/
def Process.text (s : Process) (findSection : FindSection) (buf : ℕ) : Option Section64 :=
  if s.textSection.isNone then findSection s.memory buf else s.textSection

theorem findText_textSection (s : Process) (findSection : FindSection) (buf : ℕ) :
    (s.findText findSection buf).textSection = s.text findSection buf := by
  unfold Process.findText Process.text
  split <;> rfl

theorem text_fill (s : Process) (jmp : Word) :
    (s.fill platform jmp).text findSection buf = s.text findSection buf := by
  simp [Process.text]

/-- The first place with as many zero words in a section of the image. -/
def place (text : Option Section64) (buf : ℕ) (m : Memory 32) (n : ℕ) : Option ℕ :=
  text.bind fun text => pfFindZeroBuf m (buf + text.offset / 4) text.size n

theorem place_isZero {text : Option Section64} {m : Memory 32} {n : ℕ}
    (h : place text buf m n = some loc) : ∀ k < n, m (loc + k) = 0#32 := by
  obtain ⟨text, -, hfind⟩ := Option.bind_eq_some_iff.mp h
  rw [pfFindZeroBuf_eq] at hfind
  obtain ⟨i, hi, rfl⟩ := Option.map_eq_some_iff.mp hfind
  have hzero := List.find?_some hi
  exact isZero_iff.mp hzero

theorem place_congr {m m' : Memory 32} (h : ∀ a, m a = 0 ↔ m' a = 0) (text : Option Section64)
    (buf n : ℕ) : place text buf m n = place text buf m' n := by
  unfold place
  simp only [pfFindZeroBuf_eq, isZero_congr h]

/-- What `inject_shc` does at a branch `jmp`. -/
inductive Injects (findSection : FindSection) (buf : ℕ) (platform : Word) (stream : ℕ) (jmp : Word)
    (s s' : Process) : Prop
  /-- A `br` goes to the last copy. -/
  | again {loc : ℕ} (hbr : isBr jmp = true) (hloc : s.shcLoc = some loc)
      (hmemory : s'.memory = Function.update s.memory stream (arm64Branch stream loc false))
      (hshc : s'.shcLoc = some loc) (htext : s'.textSection = s.textSection)
  /-- There is no place for a copy. -/
  | nowhere (hneeds : isBr jmp = true → s.shcLoc = none)
      (hplace : place (s.text findSection buf) buf s.memory (shellcode platform jmp).length = none)
      (hmemory : s'.memory = s.memory)
      (hshc : s'.shcLoc = none ∨ s'.shcLoc = s.shcLoc ∧ s.text findSection buf = none)
      (htext : s'.textSection = s.text findSection buf)
  | copied {loc : ℕ} (hneeds : isBr jmp = true → s.shcLoc = none)
      (hplace : place (s.text findSection buf) buf s.memory (shellcode platform jmp).length =
        some loc)
      (hmemory : s'.memory = Function.update (write s.memory loc (shellcode platform jmp)) stream
        (arm64Branch stream loc !isBr jmp))
      (hshc : s'.shcLoc = some loc) (htext : s'.textSection = s.text findSection buf)

theorem copyShc_again {jmp : Word} (hbr : isBr jmp = true) (hloc : s.shcLoc = some loc) :
    copyShc findSection buf platform jmp s = (some loc, s.fill platform jmp) := by
  simp [copyShc, hbr, hloc]

/-- A copy in the place that is found. -/
theorem copyShc_place (findSection : FindSection) (buf : ℕ) {jmp : Word}
    (h : Templates platform s) (hneeds : isBr jmp = true → s.shcLoc = none) :
    ∃ s', copyShc findSection buf platform jmp s =
        (place (s.text findSection buf) buf s.memory (shellcode platform jmp).length, s') ∧
      Templates platform s' ∧
      match place (s.text findSection buf) buf s.memory (shellcode platform jmp).length with
      | none => s'.memory = s.memory ∧
          (s'.shcLoc = none ∨ s'.shcLoc = s.shcLoc ∧ s.text findSection buf = none) ∧
          s'.textSection = s.text findSection buf
      | some loc => s'.memory = write s.memory loc (shellcode platform jmp) ∧
          s'.shcLoc = some loc ∧ s'.textSection = s.text findSection buf := by
  have hnot : (isBr jmp && (s.fill platform jmp).shcLoc.isSome) = false := by
    cases hbr : isBr jmp with
    | false => rfl
    | true => simp [hneeds hbr]
  have htemplates := (h.fill jmp).findText findSection buf
  have htext := findText_textSection (s.fill platform jmp) findSection buf
  rw [text_fill] at htext
  unfold copyShc
  dsimp only
  rw [h.shellcode, hnot, if_neg (by simp), htext]
  unfold place
  cases hfind : s.text findSection buf with
  | none => exact ⟨_, rfl, htemplates, by simp, .inr (by simp), htext.trans hfind⟩
  | some text =>
    simp only [Option.bind_some, findText_memory, fill_memory]
    cases pfFindZeroBuf s.memory (buf + text.offset / 4) text.size (shellcode platform jmp).length with
    | none => exact ⟨_, rfl, ⟨htemplates.br, htemplates.blr⟩, by simp, .inl rfl, rfl⟩
    | some loc => exact ⟨_, rfl, ⟨htemplates.br, htemplates.blr⟩, rfl, rfl, rfl⟩

theorem injectShc_injects (h : Templates platform s) (hbranch : isBranch (s.memory stream) = true) :
    Injects findSection buf platform stream (s.memory stream) s
        (injectShc findSection buf platform stream s) ∧
      Templates platform (injectShc findSection buf platform stream s) := by
  unfold injectShc
  by_cases hagain : isBr (s.memory stream) = true ∧ s.shcLoc.isSome = true
  · obtain ⟨hbr, hsome⟩ := hagain
    obtain ⟨loc, hloc⟩ := Option.isSome_iff_exists.mp hsome
    rw [copyShc_again hbr hloc]
    have htemplates := h.fill (s.memory stream)
    refine ⟨.again hbr hloc ?_ (by simp [hloc]) (by simp), htemplates.br, htemplates.blr⟩
    simp [hbr]
  · have hneeds : isBr (s.memory stream) = true → s.shcLoc = none := fun hbr =>
      Option.not_isSome_iff_eq_none.mp fun hsome => hagain ⟨hbr, hsome⟩
    obtain ⟨s', hcopy, htemplates, hs'⟩ := copyShc_place findSection buf h hneeds
    rw [hcopy]
    cases hplace : place (s.text findSection buf) buf s.memory
        (shellcode platform (s.memory stream)).length with
    | none =>
      rw [hplace] at hs'
      exact ⟨.nowhere hneeds hplace hs'.1 hs'.2.1 hs'.2.2, htemplates⟩
    | some loc =>
      rw [hplace] at hs'
      obtain ⟨hmemory, hshc, htext⟩ := hs'
      refine ⟨.copied hneeds hplace ?_ hshc htext, htemplates.br, htemplates.blr⟩
      have hstream : write s.memory loc (shellcode platform (s.memory stream)) stream =
          s.memory stream := by
        apply write_of_outside
        by_contra hinside
        have hzero := place_isZero hplace (stream - loc) (by omega)
        rw [Nat.add_sub_cancel' (by omega)] at hzero
        exact ne_zero_of_isBranch hbranch hzero
      simp only [hmemory, hstream]

end

end Jbinit.PatchDyld

import Jbinit.Foundations.Transitions
import Jbinit.PatchDyld.Patcher
import Jbinit.PatchDyld.Redirects

/-!
# Several images in one process

The test tool patches one image after another. The place of the shellcode, the section it was looked
for in and what has been found are static, so an image can depend on those before it: a `br` goes to
a copy in another image, a copy is looked for in the section of another, whose buffer may have been
freed, and a patch that is not found is not missed. An image that uses none of these is patched as
in a process of its own (`outcome_eq_fresh`).
-/

namespace Jbinit.PatchDyld

open Foundations Arm64 Words Transitions

/-- A file that is read, with the memory at that time. -/
structure Image where
  fileP : ℕ
  memory : Memory 32
  /-- The header that the pointer of an earlier image goes to; `none` when its buffer is freed. -/
  header : Option Section64

/-- What can be read through the pointer: anything, when the buffer is freed. -/
def Image.MayRead (image : Image) (read : Section64) : Prop :=
  ∀ header, image.header = some header → read = header

/-- The file is in memory. The static pointer stays, and `read` is what it goes to now. -/
def Process.load (s : Process) (image : Image) (read : Section64) : Process :=
  { s with memory := image.memory, textSection := s.textSection.map fun _ => read }

/-- An image is patched, and the process goes on. -/
def Patches (devBuild : Bool) (platform : Word) (s : Process) (image : Image) (s' : Process) :
    Prop :=
  ∃ read, image.MayRead read ∧ patchDyld devBuild image.fileP platform (s.load image read) = .ok s'

/-! ## The property -/

/-- A memory that the patch of an image can leave, or a way in which the process can end. -/
def Outcome (devBuild : Bool) (platform : Word) (s : Process) (image : Image)
    (result : Except Stop (Memory 32)) : Prop :=
  ∃ read, image.MayRead read ∧
    (patchDyld devBuild image.fileP platform (s.load image read)).map Process.memory = result

/-- A process that has patched nothing. -/
def freshProcess : Process := .fresh 0

/-! ## The condition -/

/-- What the patch of a function of `n` words at `f` does not read of the static variables, when the
pointer to a section goes to `header`. -/
structure UnaffectedOne (m : Memory 32) (buf f n : ℕ) (platform : Word) (header : Option Section64)
    (s : Process) : Prop where
  /-- Before a `br` there is a `blr`, whose copy is made in this image. -/
  shcLoc : s.shcLoc = none ∨ ∀ i < n, isBr (m (f + i)) = true →
    (machoFindText m buf).isSome = true ∧
      ∃ j < i, isBranch (m (f + j)) = true ∧ isBr (m (f + j)) = false
  /-- There is no section, or one whose header is still there and says what that of this image
  says. -/
  text : s.textSection = none ∨ (∃ own, header = some own ∧ machoFindText m buf = some own) ∨
    ∀ i < n, isBranch (m (f + i)) = false
  /-- There is a branch and place for its copy. -/
  found : s.hasFoundPlatformPatch = false ∨ ∃ i < n, isBranch (m (f + i)) = true ∧
    (place (machoFindText m buf) buf m (shellcode platform (m (f + i))).length).isSome = true

/-- The old pattern is there, with the names it is looked for with. -/
structure FindsOld (m : Memory 32) (buf stream : ℕ) : Prop where
  matched : (dyldInCache buf).matchesAt m stream = true
  name : ∃ envName, pfFollowXref m buf (stream + 2) = some envName ∧ envName ≠ null ∧
    strEq (bytes m) envName (cbytes "DYLD_IN_CACHE") = true
  value : ∃ envValue, pfFollowXref m buf (stream + 6) = some envValue ∧ envValue ≠ null ∧
    strEq (bytes m) envValue (cbytes "0") = true

/-- The new pattern is there, with a call that is redirected. -/
structure FindsNew (m : Memory 32) (buf stream : ℕ) : Prop where
  matched : (dyldInCacheNew buf).matchesAt m stream = true
  redirecting : ∃ cbz callsite, Redirecting m buf stream cbz callsite

/-- One of the patterns is found in `start`. -/
def FindsInCache (m : Memory 32) (buf : ℕ) : Prop :=
  ∃ start, machoFindSymbol (bytes m) buf "start" = some start ∧
    ∃ i < functionLen m start / 4, FindsOld m buf (functionAt m buf start + i) ∨
      FindsNew m buf (functionAt m buf start + i)

/-- The image is patched without a look at what earlier images have left in `s`. -/
structure Unaffected (devBuild : Bool) (platform : Word) (s : Process) (image : Image) : Prop where
  checks : ∀ buf symbol, buf = machoFindArch (bytes image.memory) image.fileP cpuTypeArm64 →
    platformSymbol (bytes image.memory) buf = some (symbol, .one) →
    UnaffectedOne image.memory (buf / 4) (functionAt image.memory buf symbol)
      (functionLen image.memory symbol / 4) platform image.header s
  /-- When dyld in the cache is patched, it has not been found before or it is found now. -/
  caches : ∀ buf cstring read s',
    buf = machoFindArch (bytes image.memory) image.fileP cpuTypeArm64 → image.MayRead read →
    patchDyldBefore devBuild buf platform (s.load image read) = .ok (cstring, s') →
    cstringHas (bytes s'.memory) buf cstring "DYLD_IN_CACHE" = some true →
    s'.hasFoundDyldInCache = false ∨ FindsInCache s'.memory buf

/-! ## Like states -/

/-- The states of a process that has left `s₀` behind and of a fresh one. -/
structure Like (platform : Word) (s₀ s t : Process) : Prop where
  memory : s.memory = t.memory
  templates : Templates platform s
  templates_fresh : Templates platform t
  found : s.hasFoundPlatformPatch = (s₀.hasFoundPlatformPatch || t.hasFoundPlatformPatch)
  inCache : s.hasFoundDyldInCache = (s₀.hasFoundDyldInCache || t.hasFoundDyldInCache)

/-- They also have the same copy and the same section. -/
structure Same (platform : Word) (s₀ s t : Process) : Prop extends Like platform s₀ s t where
  shcLoc : s.shcLoc = t.shcLoc
  textSection : s.textSection = t.textSection

variable {platform jmp : Word} {s₀ s t : Process} {findSection : FindSection} {buf stream : ℕ}

@[simp] theorem fill_hasFoundPlatformPatch (s : Process) (platform jmp : Word) :
    (s.fill platform jmp).hasFoundPlatformPatch = s.hasFoundPlatformPatch := by
  unfold Process.fill
  split <;> rfl

@[simp] theorem fill_hasFoundDyldInCache (s : Process) (platform jmp : Word) :
    (s.fill platform jmp).hasFoundDyldInCache = s.hasFoundDyldInCache := by
  unfold Process.fill
  split <;> rfl

theorem Like.fill (h : Like platform s₀ s t) (jmp jmp' : Word) :
    Like platform s₀ (s.fill platform jmp) (t.fill platform jmp') where
  memory := by simp [h.memory]
  templates := h.templates.fill jmp
  templates_fresh := h.templates_fresh.fill jmp'
  found := by simp [h.found]
  inCache := by simp [h.inCache]

theorem Same.fill (h : Same platform s₀ s t) (jmp : Word) :
    Same platform s₀ (s.fill platform jmp) (t.fill platform jmp) where
  toLike := h.toLike.fill jmp jmp
  shcLoc := by simp [h.shcLoc]
  textSection := by simp [h.textSection]

/-- A copy and a section for both. -/
theorem Like.same (h : Like platform s₀ s t) (shcLoc : Option ℕ) (textSection : Option Section64) :
    Same platform s₀ { s with shcLoc, textSection } { t with shcLoc, textSection } where
  memory := h.memory
  templates := ⟨h.templates.br, h.templates.blr⟩
  templates_fresh := ⟨h.templates_fresh.br, h.templates_fresh.blr⟩
  found := h.found
  inCache := h.inCache
  shcLoc := rfl
  textSection := rfl

/-- The same memory for both. -/
theorem Like.write (h : Like platform s₀ s t) (memory : Memory 32) :
    Like platform s₀ { s with memory } { t with memory } where
  memory := rfl
  templates := ⟨h.templates.br, h.templates.blr⟩
  templates_fresh := ⟨h.templates_fresh.br, h.templates_fresh.blr⟩
  found := h.found
  inCache := h.inCache

theorem Same.set (h : Same platform s₀ s t) (memory : Memory 32) (shcLoc : Option ℕ)
    (textSection : Option Section64) :
    Same platform s₀ { s with memory, shcLoc, textSection }
      { t with memory, shcLoc, textSection } :=
  (h.toLike.write memory).same shcLoc textSection

theorem Like.markFound (h : Like platform s₀ s t) :
    Like platform s₀ { s with hasFoundPlatformPatch := true }
      { t with hasFoundPlatformPatch := true } where
  memory := h.memory
  templates := ⟨h.templates.br, h.templates.blr⟩
  templates_fresh := ⟨h.templates_fresh.br, h.templates_fresh.blr⟩
  found := by simp
  inCache := h.inCache

theorem Same.markFound (h : Same platform s₀ s t) :
    Same platform s₀ { s with hasFoundPlatformPatch := true }
      { t with hasFoundPlatformPatch := true } where
  toLike := h.toLike.markFound
  shcLoc := h.shcLoc
  textSection := h.textSection

theorem Same.findText (h : Same platform s₀ s t) (findSection : FindSection) (buf : ℕ) :
    Same platform s₀ (s.findText findSection buf) (t.findText findSection buf) := by
  unfold Process.findText
  rw [h.textSection, h.memory, h.shcLoc]
  split
  · exact h.set _ _ _
  · exact h

theorem copyShc_same (findSection : FindSection) (buf : ℕ) (jmp : Word) (h : Same platform s₀ s t) :
    (copyShc findSection buf platform jmp s).1 = (copyShc findSection buf platform jmp t).1 ∧
      Same platform s₀ (copyShc findSection buf platform jmp s).2
        (copyShc findSection buf platform jmp t).2 := by
  have hfill := h.fill jmp
  have htext := hfill.findText findSection buf
  unfold copyShc
  dsimp only
  rw [h.templates.shellcode, h.templates_fresh.shellcode, hfill.shcLoc, htext.textSection,
    htext.memory]
  split
  · exact ⟨rfl, hfill⟩
  split
  · exact ⟨rfl, htext⟩
  split
  · exact ⟨rfl, htext.set _ _ _⟩
  · exact ⟨rfl, htext.set _ _ _⟩

theorem injectShc_same (h : Same platform s₀ s t) :
    Same platform s₀ (injectShc findSection buf platform stream s)
      (injectShc findSection buf platform stream t) := by
  unfold injectShc
  rw [h.memory]
  obtain ⟨hloc, hsame⟩ := copyShc_same findSection buf (t.memory stream) h
  revert hloc hsame
  generalize copyShc findSection buf platform (t.memory stream) s = r
  generalize copyShc findSection buf platform (t.memory stream) t = r'
  obtain ⟨loc, s'⟩ := r
  obtain ⟨loc', t'⟩ := r'
  rintro rfl hsame
  cases loc with
  | none => exact hsame
  | some loc =>
    dsimp only
    rw [hsame.memory, hsame.shcLoc, hsame.textSection]
    exact (hsame.set _ _ _).markFound

/-! ## The first branch -/

/-- Where a copy is looked for, without a copy to go to. -/
theorem copyShc_eq (hneeds : isBr jmp = true → s.shcLoc = none) {text : Section64}
    (htext : s.text findSection buf = some text) :
    copyShc findSection buf platform jmp s =
      copyShc findSection buf platform jmp { s with shcLoc := none, textSection := some text } := by
  have hcond : (isBr jmp && s.shcLoc.isSome) = false := by
    cases hbr : isBr jmp with
    | false => rfl
    | true => simp [hneeds hbr]
  have hfind : (s.fill platform jmp).findText findSection buf =
      { s.fill platform jmp with textSection := some text } := by
    unfold Process.text at htext
    unfold Process.findText
    rw [fill_textSection, fill_memory]
    split at htext
    case isTrue hnone =>
      rw [if_pos hnone, htext]
      simp
    case isFalse hnone => rw [if_neg hnone, ← htext, ← fill_textSection s platform jmp]
  have hfill : { s with shcLoc := none, textSection := some text }.fill platform jmp =
      { s.fill platform jmp with shcLoc := none, textSection := some text } := by
    unfold Process.fill
    split <;> rfl
  unfold copyShc
  have hset : { s.fill platform jmp with shcLoc := none, textSection := some text }.findText
      findSection buf = { s.fill platform jmp with shcLoc := none, textSection := some text } := rfl
  dsimp only
  rw [fill_shcLoc, hcond, hfind, hfill, hset, Option.isSome_none, Bool.and_false]
  rfl

theorem injectShc_eq (hneeds : isBr (s.memory stream) = true → s.shcLoc = none) {text : Section64}
    (htext : s.text findSection buf = some text) :
    injectShc findSection buf platform stream s =
      injectShc findSection buf platform stream
        { s with shcLoc := none, textSection := some text } := by
  unfold injectShc
  rw [copyShc_eq hneeds htext]

theorem findText_of_none (h : s.textSection = none) (hfind : findSection s.memory buf = none) :
    s.findText findSection buf = s := by
  obtain ⟨memory, shcLoc, textSection⟩ := s
  subst h
  simp [Process.findText, hfind]

/-- Without a section there is no copy. -/
theorem injectShc_of_none (hneeds : isBr (s.memory stream) = true → s.shcLoc = none)
    (htext : s.text findSection buf = none) :
    injectShc findSection buf platform stream s = s.fill platform (s.memory stream) := by
  have hcond : (isBr (s.memory stream) && s.shcLoc.isSome) = false := by
    cases hbr : isBr (s.memory stream) with
    | false => rfl
    | true => simp [hneeds hbr]
  have hnone : s.textSection = none ∧ findSection s.memory buf = none := by
    unfold Process.text at htext
    split at htext
    case isTrue hnone => exact ⟨Option.isNone_iff_eq_none.mp hnone, htext⟩
    case isFalse hsome => simp [htext] at hsome
  have hfill : (s.fill platform (s.memory stream)).textSection = none := by
    rw [fill_textSection, hnone.1]
  have hfind : (s.fill platform (s.memory stream)).findText findSection buf =
      s.fill platform (s.memory stream) := findText_of_none hfill (by rw [fill_memory, hnone.2])
  unfold injectShc copyShc
  dsimp only
  rw [fill_shcLoc, hcond, hfind, hfill]
  rfl

/-! ## The words of a function -/

/-- The first `n` words of the function are gone through. -/
def checkWords (buf f : ℕ) (platform : Word) (s : Process) (n : ℕ) : Process :=
  (List.range n).foldl (fun s i =>
    if isBranch (s.memory (f + i)) then injectShc machoFindText buf platform (f + i) s else s) s

theorem patchPlatformCheck_checkWords (buf f len : ℕ) (platform : Word) (s : Process) :
    patchPlatformCheck machoFindText buf f len platform s =
      checkWords buf f platform s (len / 4) := patchPlatformCheck_eq ..

variable {f i n : ℕ} {m : Memory 32}

theorem checkWords_succ (buf f : ℕ) (platform : Word) (s : Process) (n : ℕ) :
    checkWords buf f platform s (n + 1) =
      let s := checkWords buf f platform s n
      if isBranch (s.memory (f + n)) then injectShc machoFindText buf platform (f + n) s
      else s := by
  simp only [checkWords, List.range_succ, List.foldl_append, List.foldl_cons, List.foldl_nil]
  rfl

theorem templates_checkWords (h : Templates platform s) (n : ℕ) :
    Templates platform (checkWords buf f platform s n) := by
  induction n with
  | zero => exact h
  | succ n ih =>
    rw [checkWords_succ]
    dsimp only
    split
    case isTrue hbranch => exact (injectShc_injects ih hbranch).2
    case isFalse => exact ih

/-- No copy has been looked for in its section. -/
structure Waiting (platform : Word) (m : Memory 32) (buf f i : ℕ) (s₀ s t : Process) : Prop
    extends Like platform s₀ s t where
  original : t.memory = m
  shcLoc : s.shcLoc = s₀.shcLoc
  shcLoc_fresh : t.shcLoc = none
  textSection : s.textSection = s₀.textSection
  textSection_fresh : t.textSection = none
  none_before : (machoFindText m buf).isSome = true →
    ∀ j < i, isBranch (m (f + j)) = false

/-- The states while an image is gone through. -/
def Follows (platform : Word) (m : Memory 32) (buf f i : ℕ) (s₀ s t : Process) : Prop :=
  Waiting platform m buf f i s₀ s t ∨ Same platform s₀ s t

theorem Waiting.skip (h : Waiting platform m buf f i s₀ s t)
    (hword : isBranch (m (f + i)) = false) : Waiting platform m buf f (i + 1) s₀ s t where
  toLike := h.toLike
  original := h.original
  shcLoc := h.shcLoc
  shcLoc_fresh := h.shcLoc_fresh
  textSection := h.textSection
  textSection_fresh := h.textSection_fresh
  none_before hsome j hj := by
    rcases Nat.lt_succ_iff_lt_or_eq.mp hj with hj | rfl
    · exact h.none_before hsome j hj
    · exact hword

/-- A branch that is found first. -/
theorem Waiting.inject (h : Waiting platform m buf f i s₀ s t) (hi : i < n)
    (hword : isBranch (m (f + i)) = true)
    (hs₀ : UnaffectedOne m buf f n platform s₀.textSection s₀) :
    Follows platform m buf f (i + 1) s₀ (injectShc machoFindText buf platform (f + i) s)
      (injectShc machoFindText buf platform (f + i) t) := by
  have hmemory : s.memory = m := h.memory.trans h.original
  have hneeds : isBr (s.memory (f + i)) = true → s.shcLoc = none := by
    intro hbr
    rw [hmemory] at hbr
    rw [h.shcLoc]
    refine hs₀.shcLoc.resolve_right fun hblr => ?_
    obtain ⟨hsome, j, hj, hbranch, -⟩ := hblr i hi hbr
    rw [h.none_before hsome j hj] at hbranch
    cases hbranch
  have htext : s.text machoFindText buf = machoFindText m buf := by
    unfold Process.text
    rw [h.textSection, hmemory]
    rcases hs₀.text with hnone | ⟨own, hsame, hfind⟩ | hno
    · rw [hnone]
      rfl
    · rw [hsame, hfind]
      rfl
    · rw [hno i hi] at hword
      cases hword
  have htext_fresh : t.text machoFindText buf = machoFindText m buf := by
    unfold Process.text
    rw [h.textSection_fresh, h.original]
    rfl
  have hneeds_fresh : isBr (t.memory (f + i)) = true → t.shcLoc = none := fun _ => h.shcLoc_fresh
  cases hfind : machoFindText m buf with
  | none =>
    rw [injectShc_of_none hneeds (htext.trans hfind),
      injectShc_of_none hneeds_fresh (htext_fresh.trans hfind)]
    exact .inl { h.toLike.fill _ _ with
      original := by rw [fill_memory, h.original]
      shcLoc := by rw [fill_shcLoc, h.shcLoc]
      shcLoc_fresh := by rw [fill_shcLoc, h.shcLoc_fresh]
      textSection := by rw [fill_textSection, h.textSection]
      textSection_fresh := by rw [fill_textSection, h.textSection_fresh]
      none_before := by simp [hfind] }
  | some text =>
    rw [injectShc_eq hneeds (htext.trans hfind),
      injectShc_eq hneeds_fresh (htext_fresh.trans hfind)]
    exact .inr (injectShc_same (h.toLike.same none (some text)))

theorem follows_checkWords (h : Waiting platform m buf f 0 s₀ s t)
    (hs₀ : UnaffectedOne m buf f n platform s₀.textSection s₀) : ∀ i ≤ n,
      Follows platform m buf f i s₀ (checkWords buf f platform s i)
        (checkWords buf f platform t i) := by
  intro i
  induction i with
  | zero => exact fun _ => .inl h
  | succ i ih =>
    intro hi
    rw [checkWords_succ, checkWords_succ]
    dsimp only
    rcases ih (by omega) with hwaiting | hsame
    · rw [hwaiting.memory, hwaiting.original]
      cases hword : isBranch (m (f + i)) with
      | false => exact .inl (hwaiting.skip hword)
      | true => exact hwaiting.inject (by omega) hword hs₀
    · rw [hsame.memory]
      split
      · exact .inr (injectShc_same hsame)
      · exact .inr hsame

theorem Follows.like (h : Follows platform m buf f i s₀ s t) : Like platform s₀ s t :=
  h.elim Waiting.toLike Same.toLike

/-! ## What is found -/

theorem copyShc_hasFoundPlatformPatch (findSection : FindSection) (buf : ℕ) (platform jmp : Word)
    (s : Process) : (copyShc findSection buf platform jmp s).2.hasFoundPlatformPatch =
      s.hasFoundPlatformPatch := by
  have htext : ((s.fill platform jmp).findText findSection buf).hasFoundPlatformPatch =
      s.hasFoundPlatformPatch := by
    unfold Process.findText
    split <;> simp
  unfold copyShc
  dsimp only
  split
  · simp
  split
  · exact htext
  split
  · exact htext
  · exact htext

theorem injectShc_found (h : s.hasFoundPlatformPatch = true) :
    (injectShc findSection buf platform stream s).hasFoundPlatformPatch = true := by
  have hcopy := copyShc_hasFoundPlatformPatch findSection buf platform (s.memory stream) s
  unfold injectShc
  split
  case h_1 s' heq =>
    rw [heq] at hcopy
    exact hcopy.trans h
  case h_2 => rfl

/-- Nothing has been found, and nothing is changed. -/
structure Missing (platform : Word) (m : Memory 32) (buf f i : ℕ) (t : Process) : Prop where
  memory : t.memory = m
  templates : Templates platform t
  shcLoc : t.shcLoc = none
  text : t.text machoFindText buf = machoFindText m buf
  noPlace : ∀ j < i, isBranch (m (f + j)) = true →
    place (machoFindText m buf) buf m (shellcode platform (m (f + j))).length = none

theorem Missing.inject (h : Missing platform m buf f i t) (hword : isBranch (m (f + i)) = true) :
    (injectShc machoFindText buf platform (f + i) t).hasFoundPlatformPatch = true ∨
      Missing platform m buf f (i + 1) (injectShc machoFindText buf platform (f + i) t) := by
  have hneeds : isBr (t.memory (f + i)) = true → t.shcLoc = none := fun _ => h.shcLoc
  obtain ⟨t', hcopy, htemplates, ht'⟩ := copyShc_place machoFindText buf h.templates hneeds
  unfold injectShc
  rw [hcopy]
  rw [h.text, h.memory] at ht' ⊢
  cases hplace : place (machoFindText m buf) buf m (shellcode platform (m (f + i))).length with
  | some loc => exact .inl rfl
  | none =>
    rw [hplace] at ht'
    obtain ⟨hmemory, hshc, htext⟩ := ht'
    refine .inr ⟨hmemory, htemplates, hshc.elim id fun hsame => hsame.1.trans h.shcLoc, ?_, ?_⟩
    · unfold Process.text
      rw [htext, hmemory]
      cases machoFindText m buf <;> rfl
    · intro j hj hbranch
      rcases Nat.lt_succ_iff_lt_or_eq.mp hj with hj | rfl
      · exact h.noPlace j hj hbranch
      · exact hplace

theorem found_or_missing (h : Missing platform m buf f 0 t) (i : ℕ) :
    (checkWords buf f platform t i).hasFoundPlatformPatch = true ∨
      Missing platform m buf f i (checkWords buf f platform t i) := by
  induction i with
  | zero => exact .inr h
  | succ i ih =>
    rw [checkWords_succ]
    dsimp only
    rcases ih with hfound | hmissing
    · split
      · exact .inl (injectShc_found hfound)
      · exact .inl hfound
    · rw [hmissing.memory]
      cases hword : isBranch (m (f + i)) with
      | true => exact hmissing.inject hword
      | false =>
        refine .inr { hmissing with noPlace := fun j hj hbranch => ?_ }
        rcases Nat.lt_succ_iff_lt_or_eq.mp hj with hj | rfl
        · exact hmissing.noPlace j hj hbranch
        · rw [hword] at hbranch
          cases hbranch

/-! ## The platform check -/

/-- The processes go on in states that are alike, or end in the same way. -/
def LikeResult (platform : Word) (s₀ : Process) : Except Stop Process → Except Stop Process → Prop
  | .ok s, .ok t => Like platform s₀ s t
  | .error e, .error e' => e = e'
  | _, _ => False

/-- Two states in which an image has been read, the second of a fresh process. -/
structure Loaded (platform : Word) (m : Memory 32) (s t : Process) : Prop
    extends Like platform s s t where
  original : t.memory = m
  shcLoc_fresh : t.shcLoc = none
  textSection_fresh : t.textSection = none

theorem Loaded.waiting (h : Loaded platform m s t) (buf f : ℕ) :
    Waiting platform m buf f 0 s s t where
  toLike := h.toLike
  original := h.original
  shcLoc := rfl
  shcLoc_fresh := h.shcLoc_fresh
  textSection := rfl
  textSection_fresh := h.textSection_fresh
  none_before _ _ hj := absurd hj (Nat.not_lt_zero _)

theorem Loaded.missing (h : Loaded platform m s t) (buf f : ℕ) : Missing platform m buf f 0 t where
  memory := h.original
  templates := h.templates_fresh
  shcLoc := h.shcLoc_fresh
  text := by
    rw [Process.text, h.textSection_fresh, h.original]
    rfl
  noPlace _ hj := absurd hj (Nat.not_lt_zero _)

/-- What is found in a fresh process, when the other has found it before. -/
theorem Loaded.found_checkWords (h : Loaded platform m s t)
    (hs : UnaffectedOne m buf f n platform s.textSection s) (hfound : s.hasFoundPlatformPatch = true) :
    (checkWords buf f platform t n).hasFoundPlatformPatch = true := by
  refine (found_or_missing (h.missing buf f) n).resolve_right fun hmissing => ?_
  obtain ⟨i, hi, hbranch, hplace⟩ := hs.found.resolve_left (by simp [hfound])
  rw [hmissing.noPlace i hi hbranch] at hplace
  cases hplace

/-- What is found does not depend on the flag that is left, if the image has it. -/
theorem eq_of_or {a b c : Bool} (h : a = (b || c)) (hc : b = true → c = true) : a = c := by
  cases b with
  | false => exact h
  | true => rw [h, hc rfl, Bool.or_true]

theorem platformCheckPatch_like (h : Loaded platform m s t)
    (hs : ∀ symbol, platformSymbol (bytes m) buf = some (symbol, .one) →
      UnaffectedOne m (buf / 4) (functionAt m buf symbol) (functionLen m symbol / 4) platform
        s.textSection s) :
    LikeResult platform s (platformCheckPatch buf platform s)
      (platformCheckPatch buf platform t) := by
  unfold platformCheckPatch
  rw [h.memory, h.original]
  split
  case h_1 => rfl
  case h_2 symbol generation hsymbol =>
    cases generation with
    | two =>
      dsimp only
      unfold patchPlatformCheckNew
      rw [h.memory]
      exact (h.toLike.write _).markFound
    | one =>
      have hfollows := follows_checkWords (h.waiting _ _) (hs symbol hsymbol) _ le_rfl
      have hfound := eq_of_or hfollows.like.found (h.found_checkWords (hs symbol hsymbol))
      dsimp only
      rw [patchPlatformCheck_checkWords, patchPlatformCheck_checkWords, hfound]
      split
      · exact hfollows.like
      · rfl

/-! ## The configuration -/

theorem dyldProcesConfigPatch_like (h : Like platform s₀ s t) (devBuild : Bool) (buf : ℕ) :
    LikeResult platform s₀ (dyldProcesConfigPatch devBuild buf s)
      (dyldProcesConfigPatch devBuild buf t) := by
  have hdev (message : String) : LikeResult platform s₀ (devPanic devBuild message s)
      (devPanic devBuild message t) := by
    cases devBuild with
    | true => rfl
    | false => exact h
  unfold dyldProcesConfigPatch
  rw [h.memory]
  split
  · exact hdev _
  split
  · exact hdev _
  · exact h.write _

theorem whenCstringHas_like (h : Like platform s₀ s t) {patch : Process → Except Stop Process}
    {cstring : ℕ} {text : String}
    (hpatch : cstringHas (bytes s.memory) buf cstring text = some true →
      LikeResult platform s₀ (patch s) (patch t)) :
    LikeResult platform s₀ (whenCstringHas buf cstring text patch s)
      (whenCstringHas buf cstring text patch t) := by
  unfold whenCstringHas
  rw [← h.memory]
  split
  case h_1 => rfl
  case h_2 hsome => exact hpatch hsome
  case h_3 => exact h

/-! ## Dyld in the cache -/

theorem Like.markCache (h : Like platform s₀ s t) (memory : Memory 32) :
    Like platform s₀ { s with memory, hasFoundDyldInCache := true }
      { t with memory, hasFoundDyldInCache := true } where
  memory := rfl
  templates := ⟨h.templates.br, h.templates.blr⟩
  templates_fresh := ⟨h.templates_fresh.br, h.templates_fresh.blr⟩
  found := h.found
  inCache := by simp

/-- Both have followed a null pointer, or none has. -/
def LikeOption (platform : Word) (s₀ : Process) : Option Process → Option Process → Prop
  | some s, some t => Like platform s₀ s t
  | none, none => True
  | _, _ => False

theorem patchDyldInCache_like (h : Like platform s₀ s t) (buf stream : ℕ) :
    LikeOption platform s₀ ((patchDyldInCache buf stream s).map Prod.snd)
      ((patchDyldInCache buf stream t).map Prod.snd) := by
  unfold patchDyldInCache
  rw [h.memory]
  dsimp only
  cases pfFollowXref t.memory buf (stream + 2) with
  | none => trivial
  | some envName =>
  cases pfFollowXref t.memory buf (stream + 6) with
  | none => trivial
  | some envValue =>
  simp only [Option.bind_some, Option.map_some]
  split
  · exact h
  split
  · exact h
  · exact h.markCache _

theorem patchDyldInCacheNew_like (h : Like platform s₀ s t) (buf stream : ℕ) :
    LikeOption platform s₀ ((patchDyldInCacheNew buf stream s).map Prod.snd)
      ((patchDyldInCacheNew buf stream t).map Prod.snd) := by
  unfold patchDyldInCacheNew
  rw [h.memory]
  dsimp only
  split
  · exact h
  split
  · exact h
  split
  · trivial
  split
  · trivial
  split
  · exact h
  split
  · exact h
  split
  · exact h
  split
  · trivial
  split
  · exact h
  · exact h.markCache _

/-- The patches of `dyld_in_cache_patch`. -/
def cachePatches (buf : ℕ) : List (PfPatch (Option Process)) :=
  [dyldInCache buf, dyldInCacheNew buf]

theorem applyAt_like {s t : Option Process} (h : LikeOption platform s₀ s t) (stream : ℕ)
    {patch : PfPatch (Option Process)} (hpatch : patch ∈ cachePatches buf) :
    LikeOption platform s₀ (patch.applyAt readProcess stream s)
      (patch.applyAt readProcess stream t) := by
  cases s with
  | none =>
    cases t with
    | some t => cases h
    | none =>
      unfold PfPatch.applyAt
      split
      · rcases List.mem_pair.mp hpatch with rfl | rfl <;> trivial
      · trivial
  | some s =>
    cases t with
    | none => cases h
    | some t =>
      have hread : readProcess (some s) = readProcess (some t) := h.memory
      unfold PfPatch.applyAt
      rw [hread]
      split
      · rcases List.mem_pair.mp hpatch with rfl | rfl
        · exact patchDyldInCache_like h buf stream
        · exact patchDyldInCacheNew_like h buf stream
      · exact h

/-- What the patches do at a word. -/
def cacheWord (buf stream : ℕ) (s : Option Process) : Option Process :=
  (cachePatches buf).foldl (PfPatch.applyAt readProcess stream) s

/-- The first `n` words of `start` are gone through. -/
def cacheWords (buf f : ℕ) (s : Option Process) (n : ℕ) : Option Process :=
  (List.range n).foldl (fun s i => cacheWord buf (f + i) s) s

theorem cacheWords_succ (buf f : ℕ) (s : Option Process) (n : ℕ) :
    cacheWords buf f s (n + 1) = cacheWord buf (f + n) (cacheWords buf f s n) := by
  simp only [cacheWords, List.range_succ, List.foldl_append, List.foldl_cons, List.foldl_nil]

theorem pfFindMaskmatch32_cacheWords (buf f len : ℕ) (s : Option Process) :
    pfFindMaskmatch32 readProcess f len [dyldInCache buf, dyldInCacheNew buf] s =
      cacheWords buf f s (len / 4) :=
  pfFindMaskmatch32_eq (by simp [dyldInCache, dyldInCacheNew])
    (by simp [dyldInCache, dyldInCacheNew]) f len s

theorem cacheWords_like {s t : Option Process} (h : LikeOption platform s₀ s t) (buf f n : ℕ) :
    LikeOption platform s₀ (cacheWords buf f s n) (cacheWords buf f t n) :=
  List.foldl_rel h fun _ _ _ _ h => List.foldl_rel h fun _ hpatch _ _ h => applyAt_like h _ hpatch

/-! ### What is found -/

theorem patchDyldInCache_eq {done : Bool} {s' : Process}
    (h : patchDyldInCache buf stream s = some (done, s')) :
    s' = s ∨ s'.hasFoundDyldInCache = true := by
  unfold patchDyldInCache at h
  obtain ⟨envName, -, h⟩ := Option.bind_eq_some_iff.mp h
  obtain ⟨envValue, -, h⟩ := Option.map_eq_some_iff.mp h
  split at h
  · exact .inl (Prod.mk.inj h).2.symm
  split at h
  · exact .inl (Prod.mk.inj h).2.symm
  · rw [← (Prod.mk.inj h).2]
    exact .inr rfl

theorem patchDyldInCacheNew_eq_or {done : Bool} {s' : Process}
    (h : patchDyldInCacheNew buf stream s = some (done, s')) :
    s' = s ∨ s'.hasFoundDyldInCache = true := by
  rcases patchDyldInCacheNew_eq h with ⟨-, hsame⟩ | ⟨cbz, callsite, hredirecting⟩
  · exact .inl hsame
  · rw [patchDyldInCacheNew_redirecting hredirecting] at h
    cases h
    exact .inr rfl

/-- A callback changes nothing, or has found what it looks for. -/
theorem applyAt_some {patch : PfPatch (Option Process)} (hpatch : patch ∈ cachePatches buf)
    {p : Process} (h : patch.applyAt readProcess stream (some s) = some p) :
    p = s ∨ p.hasFoundDyldInCache = true := by
  unfold PfPatch.applyAt at h
  split at h
  · rcases List.mem_pair.mp hpatch with rfl | rfl
    · obtain ⟨⟨done, s'⟩, hrun, rfl⟩ := Option.map_eq_some_iff.mp h
      exact patchDyldInCache_eq hrun
    · obtain ⟨⟨done, s'⟩, hrun, rfl⟩ := Option.map_eq_some_iff.mp h
      exact patchDyldInCacheNew_eq_or hrun
  · exact .inl (Option.some.inj h).symm

theorem applyAt_none {patch : PfPatch (Option Process)} (hpatch : patch ∈ cachePatches buf) :
    patch.applyAt readProcess stream none = none := by
  unfold PfPatch.applyAt
  split
  · rcases List.mem_pair.mp hpatch with rfl | rfl <;> rfl
  · rfl

/-- It has been found, unless a null pointer is followed. -/
def FoundCache (s : Option Process) : Prop := ∀ p, s = some p → p.hasFoundDyldInCache = true

theorem FoundCache.applyAt {s : Option Process} (h : FoundCache s)
    {patch : PfPatch (Option Process)} (hpatch : patch ∈ cachePatches buf) :
    FoundCache (patch.applyAt readProcess stream s) := by
  intro p hp
  cases s with
  | none =>
    rw [applyAt_none hpatch] at hp
    cases hp
  | some s =>
    rcases applyAt_some hpatch hp with rfl | hfound
    · exact h p rfl
    · exact hfound

/-- The patch finds at a word what it looks for. -/
def FindsAt (m : Memory 32) (stream : ℕ) (patch : PfPatch (Option Process)) : Prop :=
  ∀ s : Process, s.memory = m → FoundCache (patch.applyAt readProcess stream (some s))

theorem FindsOld.findsAt (h : FindsOld m buf stream) : FindsAt m stream (dyldInCache buf) := by
  rintro s rfl p hp
  obtain ⟨envName, hname, hnull, hname'⟩ := h.name
  obtain ⟨envValue, hvalue, hnull', hvalue'⟩ := h.value
  have hmatched : (dyldInCache buf).matchesAt (readProcess (some s)) stream = true := h.matched
  rw [PfPatch.applyAt, if_pos hmatched] at hp
  obtain ⟨⟨done, s'⟩, hrun, rfl⟩ := Option.map_eq_some_iff.mp hp
  simp [patchDyldInCache, hname, hvalue, hnull, hnull', hname', hvalue'] at hrun
  rw [← hrun.2]

theorem FindsNew.findsAt (h : FindsNew m buf stream) : FindsAt m stream (dyldInCacheNew buf) := by
  rintro s rfl p hp
  obtain ⟨cbz, callsite, hredirecting⟩ := h.redirecting
  have hmatched : (dyldInCacheNew buf).matchesAt (readProcess (some s)) stream = true := h.matched
  rw [PfPatch.applyAt, if_pos hmatched] at hp
  obtain ⟨⟨done, s'⟩, hrun, rfl⟩ := Option.map_eq_some_iff.mp hp
  rw [Option.bind_some, patchDyldInCacheNew_redirecting hredirecting] at hrun
  cases hrun
  rfl

/-- It has been found, or the memory is as it was. -/
def FoundOr (m : Memory 32) (s : Option Process) : Prop :=
  FoundCache s ∨ ∃ p, s = some p ∧ p.memory = m

theorem FoundOr.applyAt {s : Option Process} (h : FoundOr m s)
    {patch : PfPatch (Option Process)} (hpatch : patch ∈ cachePatches buf) :
    FoundOr m (patch.applyAt readProcess stream s) := by
  rcases h with hfound | ⟨p, rfl, hp⟩
  · exact .inl (hfound.applyAt hpatch)
  · cases hrun : patch.applyAt readProcess stream (some p) with
    | none => exact .inl nofun
    | some p' =>
      rcases applyAt_some hpatch hrun with rfl | hfound
      · exact .inr ⟨_, rfl, hp⟩
      · exact .inl fun q hq => Option.some.inj hq ▸ hfound

theorem FoundOr.finds {s : Option Process} (h : FoundOr m s) {patch : PfPatch (Option Process)}
    (hpatch : patch ∈ cachePatches buf) (hfinds : FindsAt m stream patch) :
    FoundCache (patch.applyAt readProcess stream s) := by
  rcases h with hfound | ⟨p, rfl, hp⟩
  · exact hfound.applyAt hpatch
  · exact hfinds p hp

theorem dyldInCache_mem (buf : ℕ) : dyldInCache buf ∈ cachePatches buf := by
  simp [cachePatches]

theorem dyldInCacheNew_mem (buf : ℕ) : dyldInCacheNew buf ∈ cachePatches buf := by
  simp [cachePatches]

theorem FoundCache.cacheWord {s : Option Process} (h : FoundCache s) (buf stream : ℕ) :
    FoundCache (cacheWord buf stream s) :=
  (h.applyAt (dyldInCache_mem buf)).applyAt (dyldInCacheNew_mem buf)

theorem FoundOr.cacheWord {s : Option Process} (h : FoundOr m s) (buf stream : ℕ) :
    FoundOr m (cacheWord buf stream s) :=
  (h.applyAt (dyldInCache_mem buf)).applyAt (dyldInCacheNew_mem buf)

/-- One of the patches finds it at this word. -/
theorem FoundOr.found_cacheWord {s : Option Process} (h : FoundOr m s)
    (hfinds : FindsOld m buf stream ∨ FindsNew m buf stream) :
    FoundCache (PatchDyld.cacheWord buf stream s) := by
  rcases hfinds with hfinds | hfinds
  · exact (h.finds (dyldInCache_mem buf) hfinds.findsAt).applyAt (dyldInCacheNew_mem buf)
  · exact (h.applyAt (dyldInCache_mem buf)).finds (dyldInCacheNew_mem buf) hfinds.findsAt

theorem foundOr_cacheWords (buf f : ℕ) (s : Process) (n : ℕ) :
    FoundOr s.memory (cacheWords buf f (some s) n) := by
  induction n with
  | zero => exact .inr ⟨s, rfl, rfl⟩
  | succ n ih =>
    rw [cacheWords_succ]
    exact ih.cacheWord buf (f + n)

/-- It is found in a function where one of the patterns is. -/
theorem foundCache_cacheWords
    (hfinds : FindsOld s.memory buf (f + i) ∨ FindsNew s.memory buf (f + i)) (hi : i < n) : FoundCache (cacheWords buf f (some s) n) := by
  induction n with
  | zero => exact absurd hi (Nat.not_lt_zero i)
  | succ n ih =>
    rw [cacheWords_succ]
    rcases Nat.lt_succ_iff_lt_or_eq.mp hi with hlt | rfl
    · exact (ih hlt).cacheWord buf (f + n)
    · exact (foundOr_cacheWords buf f s i).found_cacheWord hfinds

theorem dyldInCachePatch_like (h : Like platform s₀ s t)
    (hs : s₀.hasFoundDyldInCache = true → FindsInCache s.memory buf) :
    LikeResult platform s₀ (dyldInCachePatch buf s) (dyldInCachePatch buf t) := by
  unfold dyldInCachePatch
  rw [h.memory]
  split
  case h_1 => rfl
  case h_2 start hstart =>
    rw [pfFindMaskmatch32_cacheWords, pfFindMaskmatch32_cacheWords]
    have hlike : LikeOption platform s₀
        (cacheWords buf (functionAt t.memory buf start) (some s) (functionLen t.memory start / 4))
        (cacheWords buf (functionAt t.memory buf start) (some t) (functionLen t.memory start / 4)) :=
      cacheWords_like (s := some s) (t := some t) h ..
    -- when the flag is left by an earlier image, the fresh process finds it too
    have hfound (hleft : s₀.hasFoundDyldInCache = true) : FoundCache
        (cacheWords buf (functionAt t.memory buf start) (some t) (functionLen t.memory start / 4)) := by
      obtain ⟨start', hstart', i, hi, hfinds⟩ := hs hleft
      rw [h.memory] at hstart' hi hfinds
      obtain rfl : start = start' := Option.some.inj (hstart.symm.trans hstart')
      exact foundCache_cacheWords hfinds hi
    revert hlike hfound
    generalize cacheWords buf (functionAt t.memory buf start) (some s) _ = r
    generalize cacheWords buf (functionAt t.memory buf start) (some t) _ = r'
    intro hlike hfound
    match r, r', hlike with
    | none, none, _ => rfl
    | some p, some q, hlike =>
      dsimp only
      rw [eq_of_or hlike.inCache fun hleft => hfound hleft q rfl]
      split
      · exact hlike
      · rfl

/-! ## One image -/

theorem LikeResult.map_memory {x y : Except Stop Process} (h : LikeResult platform s₀ x y) :
    x.map Process.memory = y.map Process.memory := by
  match x, y, h with
  | .error _, .error _, rfl => rfl
  | .ok s, .ok t, h => exact congrArg Except.ok (Like.memory h)

/-- Two processes after the same step. -/
theorem LikeResult.elim {x y : Except Stop Process} (h : LikeResult platform s₀ x y) :
    (∃ e, x = .error e ∧ y = .error e) ∨
      ∃ s t, x = .ok s ∧ y = .ok t ∧ Like platform s₀ s t := by
  match x, y, h with
  | .error e, .error _, rfl => exact .inl ⟨e, rfl, rfl⟩
  | .ok s, .ok t, h => exact .inr ⟨s, t, rfl, rfl, h⟩

/-- What is read through a pointer that goes to the image's own header. -/
theorem UnaffectedOne.load {image : Image}
    (h : UnaffectedOne m buf f n platform image.header s) {read : Section64}
    (hread : image.MayRead read) :
    UnaffectedOne m buf f n platform (s.load image read).textSection (s.load image read) where
  shcLoc := h.shcLoc
  text := by
    rcases h.text with hnone | ⟨own, hheader, hfind⟩ | hno
    · refine .inl ?_
      rw [Process.load, hnone]
      rfl
    · obtain rfl := hread own hheader
      cases hsection : s.textSection with
      | none => exact .inl (by rw [Process.load, hsection]; rfl)
      | some _ => exact .inr (.inl ⟨read, by rw [Process.load, hsection]; rfl, hfind⟩)
    · exact .inr (.inr hno)
  found := h.found

/-- Up to the test for the text that dyld in the cache needs. -/
theorem patchDyldBefore_like (h : Loaded platform m s t) (devBuild : Bool) (buf : ℕ)
    (hs : ∀ symbol, platformSymbol (bytes m) buf = some (symbol, .one) →
      UnaffectedOne m (buf / 4) (functionAt m buf symbol) (functionLen m symbol / 4) platform
        s.textSection s) :
    (∃ e, patchDyldBefore devBuild buf platform s = .error e ∧
      patchDyldBefore devBuild buf platform t = .error e) ∨
    ∃ cstring s' t', patchDyldBefore devBuild buf platform s = .ok (cstring, s') ∧
      patchDyldBefore devBuild buf platform t = .ok (cstring, t') ∧ Like platform s s' t' := by
  unfold patchDyldBefore
  rcases (platformCheckPatch_like h hs).elim with ⟨e, hs₁, ht₁⟩ | ⟨s₁, t₁, hs₁, ht₁, hlike₁⟩
  · rw [hs₁, ht₁]
    exact .inl ⟨e, rfl, rfl⟩
  rw [hs₁, ht₁]
  simp only [bind, Except.bind, hlike₁.memory]
  split
  · exact .inl ⟨_, rfl, rfl⟩
  case h_2 cstring hcstring =>
  rcases (whenCstringHas_like hlike₁ fun _ =>
    dyldProcesConfigPatch_like hlike₁ devBuild buf).elim with
    ⟨e, hs₂, ht₂⟩ | ⟨s₂, t₂, hs₂, ht₂, hlike₂⟩
  · rw [hs₂, ht₂]
    exact .inl ⟨e, rfl, rfl⟩
  · rw [hs₂, ht₂]
    exact .inr ⟨cstring, s₂, t₂, rfl, rfl, hlike₂⟩

theorem patchDyld_like {devBuild : Bool} {image : Image}
    {read : Section64} (hread : image.MayRead read)
    (h : Loaded platform image.memory (s.load image read) t)
    (hs : Unaffected devBuild platform s image) :
    LikeResult platform (s.load image read)
      (patchDyld devBuild image.fileP platform (s.load image read))
      (patchDyld devBuild image.fileP platform t) := by
  unfold patchDyld
  rw [h.memory, h.original]
  split
  case h_1 => rfl
  case h_2 =>
  dsimp only
  rcases patchDyldBefore_like h devBuild
    (machoFindArch (bytes image.memory) image.fileP cpuTypeArm64) fun symbol hsymbol =>
      (hs.checks _ symbol rfl hsymbol).load hread with ⟨e, hs', ht'⟩ | ⟨cstring, s', t', hs', ht', hlike⟩
  · rw [hs', ht']
    rfl
  · rw [hs', ht']
    refine whenCstringHas_like hlike fun hhas => dyldInCachePatch_like hlike fun hleft => ?_
    have hflag : s'.hasFoundDyldInCache = true := by rw [hlike.inCache, hleft, Bool.true_or]
    exact (hs.caches _ cstring read s' rfl hread hs' hhas).resolve_left (by simp [hflag])

/-! ## Runs -/

theorem Templates.like (h : Templates platform s) : Like platform freshProcess s s where
  memory := rfl
  templates := h
  templates_fresh := h
  found := rfl
  inCache := rfl

theorem platformCheckPatch_templates (h : Templates platform s) {s' : Process}
    (hrun : platformCheckPatch buf platform s = .ok s') : Templates platform s' := by
  unfold platformCheckPatch at hrun
  split at hrun
  case h_1 => cases hrun
  case h_2 symbol generation hsymbol =>
    cases generation with
    | one =>
      dsimp only at hrun
      split at hrun
      case isFalse => cases hrun
      case isTrue =>
        obtain rfl := Except.ok.inj hrun
        rw [patchPlatformCheck_checkWords]
        exact templates_checkWords h _
    | two =>
      obtain rfl := Except.ok.inj hrun
      exact ⟨h.br, h.blr⟩

theorem whenCstringHas_templates (h : Templates platform s)
    {patch : Process → Except Stop Process} {cstring : ℕ} {text : String}
    (hpatch : LikeResult platform freshProcess (patch s) (patch s)) {s' : Process}
    (hrun : whenCstringHas buf cstring text patch s = .ok s') : Templates platform s' := by
  have hlike : LikeResult platform freshProcess (whenCstringHas buf cstring text patch s)
      (whenCstringHas buf cstring text patch s) := whenCstringHas_like h.like fun _ => hpatch
  rw [hrun] at hlike
  exact Like.templates hlike

/-- The platform of the process stays in the templates. -/
theorem patches_templates {devBuild : Bool} {image : Image} {s' : Process}
    (h : Templates platform s) (hpatches : Patches devBuild platform s image s') :
    Templates platform s' := by
  obtain ⟨read, -, hpatches⟩ := hpatches
  have hload : Templates platform (s.load image read) := ⟨h.br, h.blr⟩
  unfold patchDyld patchDyldBefore at hpatches
  split at hpatches
  case h_1 => cases hpatches
  case h_2 =>
  dsimp only at hpatches
  generalize machoFindArch _ _ _ = buf at hpatches
  cases hcheck : platformCheckPatch buf platform (s.load image read) with
  | error e =>
    rw [hcheck] at hpatches
    cases hpatches
  | ok s₁ =>
  have hs₁ := platformCheckPatch_templates hload hcheck
  rw [hcheck] at hpatches
  simp only [bind, Except.bind] at hpatches
  cases hcstring : machoFindSection (bytes s₁.memory) buf "__TEXT" "__cstring" with
  | none =>
    rw [hcstring] at hpatches
    cases hpatches
  | some cstring =>
  rw [hcstring] at hpatches
  dsimp only at hpatches
  cases hconfig : whenCstringHas buf cstring "AMFI" (dyldProcesConfigPatch devBuild buf) s₁ with
  | error e =>
    rw [hconfig] at hpatches
    cases hpatches
  | ok s₂ =>
  rw [hconfig] at hpatches
  have hlike₁ := dyldProcesConfigPatch_like hs₁.like devBuild buf
  have hs₂ := whenCstringHas_templates hs₁ hlike₁ hconfig
  exact whenCstringHas_templates hs₂ (dyldInCachePatch_like hs₂.like nofun) hpatches

/-- **An image that uses nothing that is left**: it is patched as in a process of its own, whatever
was patched before. -/
theorem outcome_eq_fresh {devBuild : Bool} {run : List (Image × Process)}
    (hrun : IsRun (Patches devBuild platform) freshProcess run) {image : Image}
    (h : Unaffected devBuild platform (final freshProcess run) image)
    (result : Except Stop (Memory 32)) :
    Outcome devBuild platform (final freshProcess run) image result ↔
      Outcome devBuild platform freshProcess image result := by
  have hstep : ∀ s image s', Templates platform s → True → Patches devBuild platform s image s' →
      Templates platform s' := fun _ _ _ hs _ hpatches => patches_templates hs hpatches
  have htemplates : Templates platform (final freshProcess run) :=
    IsRun.invariant_final hstep (templates_fresh 0) hrun (meets_true _ run)
  have hloaded (read : Section64) : Loaded platform image.memory
      ((final freshProcess run).load image read) (freshProcess.load image read) :=
    { memory := rfl
      templates := ⟨htemplates.br, htemplates.blr⟩
      templates_fresh := templates_fresh image.memory
      found := (Bool.or_false _).symm
      inCache := (Bool.or_false _).symm
      original := rfl
      shcLoc_fresh := rfl
      textSection_fresh := rfl }
  have hsame {read : Section64} (hread : image.MayRead read) :=
    (patchDyld_like hread (hloaded read) h).map_memory
  constructor
  · rintro ⟨read, hread, rfl⟩
    exact ⟨read, hread, (hsame hread).symm⟩
  · rintro ⟨read, hread, rfl⟩
    exact ⟨read, hread, hsame hread⟩

/-! ## An image that is patched twice -/

/-- The header of the text section of the image below. -/
def checkHeader : Section64 := ⟨0x1a4, 0x40⟩

/-- An image at the second page, whose function is a branch. Earlier buffers are kept. -/
def checkImage (jmp : Word) : Image where
  fileP := 0x1000
  header := some checkHeader
  memory i := if i < 0x400 then 0 else
    [0xfeedfacf, 0, 0, 0, 2, 0, 0, 0, 0x19, 0xe8, 0x45545f5f, 0x5458, 0, 0, 0, 0, 0x1000, 0, 0, 0,
      0x1000, 0, 0, 0, 2, 0, 0x65745f5f, 0x7478, 0, 0, 0x45545f5f, 0x5458, 0, 0, 0x1a4, 0, 0x40,
      0, 0x1a4, 0, 0, 0, 0, 0, 0, 0, 0x73635f5f, 0x6e697274, 0x67, 0, 0x45545f5f, 0x5458, 0, 0,
      0x140, 0, 0x10, 0, 0x140, 0, 0, 0, 0, 0, 0, 0, 2, 0x18, 0x120, 1, 0x140, 0, 0, 0, 0x1a4, 0,
      0, 0, 0x1ac, 0, 0x5f5f5f5f, 0x354b4e5a, 0x646c7964, 0x614d3933, 0x464f6863, 0x32656c69,
      0x726f6634, 0x68636145, 0x70707553, 0x6574726f, 0x616c5064, 0x726f6674, 0x3155456d,
      0x6f6c6233, 0x705f6b63, 0x746e696f, 0x76467265, 0x385f534e, 0x74616c50, 0x6d726f66,
      0x456a6a45, 0x6f6c625f, 0x695f6b63, 0x6b6f766e, 0x65, jmp, 0xd65f03c0].getD (i - 0x400) 0

theorem mayRead_check (jmp : Word) : (checkImage jmp).MayRead checkHeader :=
  fun _ h => Option.some.inj h

/-- The process that has patched it. -/
def patchedOnce (jmp : Word) : Process :=
  match patchDyld false 0x1000 2 (freshProcess.load (checkImage jmp) checkHeader) with
  | .ok s => s
  | .error _ => freshProcess

theorem patches_once {jmp : Word}
    (h : (patchDyld false 0x1000 2 (freshProcess.load (checkImage jmp) checkHeader)).isOk = true) :
    Patches false 2 freshProcess (checkImage jmp) (patchedOnce jmp) := by
  refine ⟨checkHeader, mayRead_check jmp, ?_⟩
  unfold patchedOnce
  change patchDyld false 0x1000 2 _ = _
  cases hrun : patchDyld false 0x1000 2 (freshProcess.load (checkImage jmp) checkHeader) with
  | ok s => rfl
  | error e =>
    rw [hrun] at h
    cases h

/-- The image is patched after itself. -/
theorem isRun_once {jmp : Word}
    (h : (patchDyld false 0x1000 2 (freshProcess.load (checkImage jmp) checkHeader)).isOk = true) :
    IsRun (Patches false 2) freshProcess [(checkImage jmp, patchedOnce jmp)] :=
  ⟨patches_once h, trivial⟩

theorem unaffectedOne_blr : UnaffectedOne (checkImage 0xd63f0100).memory 0x400 0x469 2 2
    (checkImage 0xd63f0100).header (patchedOnce 0xd63f0100) where
  shcLoc := by
    have hbr : ∀ i < 2, isBr ((checkImage 0xd63f0100).memory (0x469 + i)) = false := by decide
    refine .inr fun i hi h => ?_
    rw [hbr i hi] at h
    cases h
  text := .inr (.inl ⟨checkHeader, rfl, by decide +kernel⟩)
  found := .inr ⟨0, by decide, by decide, by decide +kernel⟩

theorem machoFindArch_blr :
    machoFindArch (bytes (checkImage 0xd63f0100).memory) 0x1000 cpuTypeArm64 = 0x1000 := by
  decide

theorem unaffected_blr : Unaffected false 2 (patchedOnce 0xd63f0100) (checkImage 0xd63f0100) where
  checks buf symbol hbuf hsymbol := by
    have hone :
        platformSymbol (bytes (checkImage 0xd63f0100).memory) 0x1000 = some (0x1120, .one) := by
      decide +kernel
    obtain rfl := hbuf.trans machoFindArch_blr
    rw [hone] at hsymbol
    obtain rfl := (Prod.mk.inj (Option.some.inj hsymbol)).1
    exact unaffectedOne_blr
  caches buf cstring read s' hbuf hread hrun hhas := by
    obtain rfl := hbuf.trans machoFindArch_blr
    obtain rfl : read = checkHeader := hread _ rfl
    have htext := congrArg (fun r => match r with
      | .ok (cstring, s) => cstringHas (bytes s.memory) 0x1000 cstring "DYLD_IN_CACHE"
      | .error _ => none) hrun
    dsimp only at htext
    rw [hhas] at htext
    exact absurd htext (by decide +kernel)

/-- What the second patch leaves. -/
def secondResult (jmp : Word) : Except Stop (Memory 32) :=
  (patchDyld false 0x1000 2 ((patchedOnce jmp).load (checkImage jmp) checkHeader)).map
    Process.memory

theorem outcome_eq_fresh_blr :
    Outcome false 2 (patchedOnce 0xd63f0100) (checkImage 0xd63f0100) (secondResult 0xd63f0100) ↔
      Outcome false 2 freshProcess (checkImage 0xd63f0100) (secondResult 0xd63f0100) :=
  have hrun : IsRun (Patches false 2) freshProcess
      [(checkImage 0xd63f0100, patchedOnce 0xd63f0100)] := isRun_once (by decide +kernel)
  outcome_eq_fresh hrun unaffected_blr (secondResult 0xd63f0100)

/-- A `br` goes to the place of a copy that is not in the image. -/
theorem not_outcome_eq_fresh : ¬∀ (devBuild : Bool) (platform : Word) (run : List (Image × Process))
    (image : Image) (result : Except Stop (Memory 32)),
    IsRun (Patches devBuild platform) freshProcess run →
      (Outcome devBuild platform (final freshProcess run) image result ↔
        Outcome devBuild platform freshProcess image result) := by
  intro hall
  have hiff := hall false 2 [(checkImage 0xd61f0100, patchedOnce 0xd61f0100)]
    (checkImage 0xd61f0100) (secondResult 0xd61f0100) (isRun_once (by decide +kernel))
  obtain ⟨read, hread, hsame⟩ := hiff.mp ⟨checkHeader, mayRead_check _, rfl⟩
  obtain rfl : read = checkHeader := hread _ rfl
  have hcopy := congrArg (fun r : Except Stop (Memory 32) => r.toOption.map (· 0x46b)) hsame
  revert hcopy
  decide +kernel

end Jbinit.PatchDyld

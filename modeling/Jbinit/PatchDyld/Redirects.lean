import Jbinit.PatchDyld.PlatformPatch

/-!
# Where the patched branches go

A `br` goes to the last copy of the shellcode, whatever that was made for, and a branch for which no
zero words are left stays as it is. The branches keep their targets when, in the order of the
function, every `br` is the instruction of the copy before it, there are free words in reach for the
other copies, and none of these has its own branch in the part of the function that is still to be
searched (`Fits`); in an image in which all is in reach, only then (`keepsTargets_iff`).
-/

namespace Jbinit.PatchDyld

open Foundations Arm64 Words

/-- A call of `patch_platform_check` in a process that has patched nothing. -/
structure Call where
  findSection : FindSection
  realBuf : ℕ
  dyldBuf : ℕ
  dyldLen : ℕ
  platform : Word
  memory : Memory 32

namespace Call

variable (c : Call)

def result : Process :=
  patchPlatformCheck c.findSection c.realBuf c.dyldBuf c.dyldLen c.platform (.fresh c.memory)

/-- The process when the search comes to a word of the function. -/
def before (i : ℕ) : Process :=
  patchPlatformCheck c.findSection c.realBuf c.dyldBuf (4 * i) c.platform (.fresh c.memory)

/-- What the search finds there. -/
def found (i : ℕ) : Word := (c.before i).memory (c.dyldBuf + i)

end Call

/-! ## The property -/

/-- There is a branch to a copy for the instruction. -/
def Redirected (m : Memory 32) (platform : Word) (site : ℕ) (jmp : Word) : Prop :=
  ∃ loc : ℕ, decodeBranch (m site) = some (!isBr jmp, (loc : ℤ) - site) ∧
    Holds m loc (shellcode platform jmp)

/-- Every branch that is found is redirected to a copy for it. -/
def Call.KeepsTargets (c : Call) : Prop :=
  ∀ i < c.dyldLen / 4, isBranch (c.found i) = true →
    Redirected c.result.memory c.platform (c.dyldBuf + i) (c.found i)

/-! ## The condition -/

/-- A `B` or `BL` can go from one place to the other. -/
def InReach (site loc : ℕ) : Prop := -2 ^ 25 ≤ (loc : ℤ) - site ∧ (loc : ℤ) - site < 2 ^ 25

/-- The branches in a number of words, with their places. -/
def branches (m : Memory 32) (a : ℕ) : ℕ → List (ℕ × Word)
  | 0 => []
  | n + 1 => if isBranch (m a) then (a, m a) :: branches m (a + 1) n else branches m (a + 1) n

/-- The branches fit: each `br` is the instruction of the last copy, or is the first branch, and
the others have a place, in reach, that is not searched after them. The memory is that with the
copies. -/
inductive Fits (text : Option Section64) (buf stop : ℕ) (platform : Word) :
    Memory 32 → Option (Word × ℕ) → List (ℕ × Word) → Prop
  | nil {m : Memory 32} {last : Option (Word × ℕ)} : Fits text buf stop platform m last []
  | again {m : Memory 32} {jmp : Word} {loc site : ℕ} {sites : List (ℕ × Word)}
      (hbr : isBr jmp = true) (hreach : InReach site loc)
      (h : Fits text buf stop platform m (some (jmp, loc)) sites) :
      Fits text buf stop platform m (some (jmp, loc)) ((site, jmp) :: sites)
  | copied {m : Memory 32} {last : Option (Word × ℕ)} {jmp : Word} {loc site : ℕ}
      {sites : List (ℕ × Word)} (hneeds : isBr jmp = true → last = none)
      (hplace : place text buf m (shellcode platform jmp).length = some loc)
      (hreach : InReach site loc)
      (hoff : loc + branchIndex jmp ≤ site ∨ stop ≤ loc + branchIndex jmp)
      (h : Fits text buf stop platform (write m loc (shellcode platform jmp)) (some (jmp, loc))
        sites) :
      Fits text buf stop platform m last ((site, jmp) :: sites)

/-- The function's branches fit into the image. -/
def Call.HasRoom (c : Call) : Prop :=
  Fits (c.findSection c.memory c.realBuf) c.realBuf (c.dyldBuf + c.dyldLen / 4) c.platform c.memory
    none (branches c.memory c.dyldBuf (c.dyldLen / 4))

/-- A word of the text section. -/
def Call.InText (c : Call) (loc : ℕ) : Prop :=
  ∃ text, c.findSection c.memory c.realBuf = some text ∧
    ∃ j < text.size / 4, loc = c.realBuf + text.offset / 4 + j

/-- The words of the function are all in reach of those of the text section. -/
def Call.Near (c : Call) : Prop :=
  ∀ i < c.dyldLen / 4, ∀ loc, c.InText loc → InReach (c.dyldBuf + i) loc

/-! ## The search -/

section

variable {c : Call} {i j a : ℕ}

theorem patchPlatformCheck_eq (findSection : FindSection) (realBuf dyldBuf dyldLen : ℕ)
    (platform : Word) (s : Process) :
    patchPlatformCheck findSection realBuf dyldBuf dyldLen platform s =
      (List.range (dyldLen / 4)).foldl (fun s i =>
        if isBranch (s.memory (dyldBuf + i)) then
          injectShc findSection realBuf platform (dyldBuf + i) s
        else s) s := by
  have hmatches (m : Memory 32) (a : ℕ) (callback : ℕ → Process → Bool × Process) :
      (PfPatch.mk [(0xd61f0000, 0xffdffc1f)] false callback).matchesAt m a = isBranch (m a) := by
    simp [PfPatch.matchesAt, isBranch]
  unfold patchPlatformCheck
  rw [pfFindMaskmatch32_single rfl fun _ _ => rfl]
  simp only [hmatches]

theorem before_zero (c : Call) : c.before 0 = .fresh c.memory := by
  rw [Call.before, patchPlatformCheck_eq]
  rfl

theorem before_succ (c : Call) (i : ℕ) :
    c.before (i + 1) =
      if isBranch (c.found i) then
        injectShc c.findSection c.realBuf c.platform (c.dyldBuf + i) (c.before i)
      else c.before i := by
  have hdiv (i : ℕ) : 4 * i / 4 = i := by omega
  simp only [Call.found, Call.before, patchPlatformCheck_eq, hdiv, List.range_succ,
    List.foldl_append, List.foldl_cons, List.foldl_nil]

theorem before_succ_of_not_isBranch {c : Call} {i : ℕ} (hbranch : ¬isBranch (c.found i) = true) :
    c.before (i + 1) = c.before i := by
  rw [before_succ, if_neg hbranch]

theorem result_eq (c : Call) : c.result = c.before (c.dyldLen / 4) := by
  have hdiv : 4 * (c.dyldLen / 4) / 4 = c.dyldLen / 4 := by omega
  rw [Call.result, Call.before, patchPlatformCheck_eq, patchPlatformCheck_eq, hdiv]

theorem templates_before (c : Call) (i : ℕ) : Templates c.platform (c.before i) := by
  induction i with
  | zero =>
    rw [before_zero]
    exact templates_fresh c.memory
  | succ i ih =>
    rw [before_succ]
    split
    case isTrue hbranch => exact (injectShc_injects ih hbranch).2
    case isFalse => exact ih

/-- One step of the search. -/
theorem injects_before {jmp : Word} (hfound : c.found i = jmp) (hbranch : isBranch jmp = true) :
    Injects c.findSection c.realBuf c.platform (c.dyldBuf + i) jmp (c.before i)
      (c.before (i + 1)) := by
  subst hfound
  rw [before_succ, if_pos hbranch]
  exact (injectShc_injects (templates_before c i) hbranch).1

/-- A step changes no word that is set, but the branch it finds. -/
theorem before_succ_apply (hne : (c.before i).memory a ≠ 0#32)
    (hnot : isBranch ((c.before i).memory a) = true → a ≠ c.dyldBuf + i) :
    (c.before (i + 1)).memory a = (c.before i).memory a := by
  by_cases hbranch : isBranch (c.found i) = true
  · have hsite : a ≠ c.dyldBuf + i := by
      rintro rfl
      exact hnot hbranch rfl
    cases injects_before rfl hbranch with
    | again _ _ hmemory => rw [hmemory, Function.update_of_ne hsite]
    | nowhere _ _ hmemory => rw [hmemory]
    | @copied loc _ hplace hmemory =>
      rw [hmemory, Function.update_of_ne hsite]
      apply write_of_outside
      by_contra hinside
      have hzero := place_isZero hplace (a - loc) (by omega)
      rw [Nat.add_sub_cancel' (by omega)] at hzero
      exact hne hzero
  · rw [before_succ_of_not_isBranch hbranch]

/-- What is set stays, unless it is a branch that is still to be found. -/
theorem before_apply (hij : i ≤ j) (hne : (c.before i).memory a ≠ 0#32)
    (hnot : isBranch ((c.before i).memory a) = true → a < c.dyldBuf + i ∨ c.dyldBuf + j ≤ a) :
    (c.before j).memory a = (c.before i).memory a := by
  induction hij with
  | refl => rfl
  | @step j hij ih =>
    have hij : i ≤ j := hij
    have hsame := ih fun hbranch => by
      have := hnot hbranch
      omega
    rw [before_succ_apply (by rwa [hsame]), hsame]
    rw [hsame]
    intro hbranch
    have := hnot hbranch
    omega

/-- The section is looked for before anything is written. -/
theorem text_before (c : Call) (i : ℕ) :
    (c.before i).textSection = none ∧ (c.before i).shcLoc = none ∧
        (c.before i).memory = c.memory ∨
      (c.before i).textSection.isSome = true ∧
        (c.before i).textSection = c.findSection c.memory c.realBuf := by
  induction i with
  | zero =>
    rw [before_zero]
    exact .inl ⟨rfl, rfl, rfl⟩
  | succ i ih =>
    by_cases hbranch : isBranch (c.found i) = true
    · have htext : (c.before i).text c.findSection c.realBuf =
          c.findSection c.memory c.realBuf := by
        unfold Process.text
        rcases ih with ⟨hnone, -, hmemory⟩ | ⟨hsome, heq⟩
        · rw [hnone, hmemory]
          rfl
        · rw [if_neg (by simpa [Option.isSome_iff_ne_none] using hsome), heq]
      cases injects_before rfl hbranch with
      | again _ hloc _ _ hsame =>
        rw [hsame]
        refine .inr (ih.resolve_left fun hnone => ?_)
        rw [hnone.2.1] at hloc
        cases hloc
      | nowhere _ _ hmemory hshc hnext =>
        rw [hnext, htext, hmemory]
        cases hfind : c.findSection c.memory c.realBuf with
        | some text => exact .inr ⟨rfl, rfl⟩
        | none =>
          rcases ih with ⟨-, hnone, hsame⟩ | ⟨hsome, heq⟩
          · exact .inl ⟨rfl, hshc.elim id fun heq => heq.1.trans hnone, hsame⟩
          · rw [heq, hfind] at hsome
            cases hsome
      | copied _ hplace _ _ hnext =>
        obtain ⟨text, hfind, -⟩ := Option.bind_eq_some_iff.mp hplace
        rw [hnext, hfind, ← htext, hfind]
        exact .inr ⟨rfl, rfl⟩
    · rw [before_succ_of_not_isBranch hbranch]
      exact ih

theorem text_eq (c : Call) (i : ℕ) :
    (c.before i).text c.findSection c.realBuf = c.findSection c.memory c.realBuf := by
  unfold Process.text
  rcases text_before c i with ⟨hnone, -, hmemory⟩ | ⟨hsome, heq⟩
  · rw [hnone, hmemory]
    rfl
  · rw [if_neg (by simpa [Option.isSome_iff_ne_none] using hsome), heq]

/-! ## Copies -/

theorem decodeBranch_eq_none {w : Word} (h : isBranch w = true) : decodeBranch w = none :=
  decodeBranch_of_branchRegister (isBranch_iff.mp h)

theorem arm64Branch_word (caller target : ℕ) (link : Bool) :
    arm64Branch caller target link ≠ 0#32 ∧ isBranch (arm64Branch caller target link) = false := by
  have hsome := decodeBranch_isSome_arm64Branch caller target link
  refine ⟨ne_zero_of_decodeBranch hsome, ?_⟩
  rw [Bool.eq_false_iff, Ne, isBranch_iff, branchRegister_of_decodeBranch hsome]
  simp

/-- A copy stays, when its branch is not among the words that are still to be searched. -/
theorem holds_before {loc : ℕ} {jmp : Word} (hij : i ≤ j) (hjmp : isBranch jmp = true)
    (hoff : loc + branchIndex jmp < c.dyldBuf + i ∨ c.dyldBuf + j ≤ loc + branchIndex jmp)
    (h : Holds (c.before i).memory loc (shellcode c.platform jmp)) :
    Holds (c.before j).memory loc (shellcode c.platform jmp) := by
  refine h.congr fun k hk => ?_
  obtain ⟨hne, hindex⟩ := shellcode_word hjmp (List.getElem?_eq_getElem hk)
  rw [← h k hk] at hne hindex
  refine before_apply hij hne fun hbranch => ?_
  rw [hindex hbranch]
  exact hoff

/-- The instruction of a copy is known from its words. -/
theorem eq_of_holds {m : Memory 32} {platform jmp jmp' : Word} {loc : ℕ} (hbr : isBr jmp = true)
    (h : Holds m loc (shellcode platform jmp)) (h' : Holds m loc (shellcode platform jmp')) :
    jmp' = jmp := by
  unfold shellcode at h h'
  rw [if_pos hbr] at h
  split at h'
  · exact h'.getElem_eq h (k := 3) (by simp) (by simp)
  · have hfirst : 0xf100283f#32 = 0xa9bf7bfd#32 := h.getElem_eq h' (k := 0) (by simp) (by simp)
    exact absurd hfirst (by decide)

theorem place_mem {m : Memory 32} {loc n : ℕ}
    (h : place (c.findSection c.memory c.realBuf) c.realBuf m n = some loc) : c.InText loc := by
  obtain ⟨text, htext, hfind⟩ := Option.bind_eq_some_iff.mp h
  rw [pfFindZeroBuf_eq] at hfind
  obtain ⟨j, hj, rfl⟩ := Option.map_eq_some_iff.mp hfind
  exact ⟨text, htext, j, List.mem_range.mp (List.mem_of_find?_eq_some hj), rfl⟩

/-- The branches from a word on. -/
theorem branches_succ {m : Memory 32} {a n : ℕ} (h : isBranch (m a) = true) :
    branches m a (n + 1) = (a, m a) :: branches m (a + 1) n := by
  rw [branches, if_pos h]

/-! ## The search and the condition -/

/-- What the search keeps, with the last copy and a memory that has the same words set. -/
structure InStep (c : Call) (i : ℕ) (z : Memory 32) (last : Option (Word × ℕ)) : Prop where
  zero : ∀ a, (c.before i).memory a = 0#32 ↔ z a = 0#32
  /-- The branches that are still to be found are those of the image. -/
  ahead : ∀ a, c.dyldBuf + i ≤ a → a < c.dyldBuf + c.dyldLen / 4 →
    isBranch ((c.before i).memory a) = true ∨ isBranch (c.memory a) = true →
      (c.before i).memory a = c.memory a
  shcLoc : (c.before i).shcLoc = last.map Prod.snd
  branch : ∀ jmp loc, last = some (jmp, loc) → isBranch jmp = true
  copy : ∀ jmp loc, last = some (jmp, loc) →
    Holds (c.before i).memory loc (shellcode c.platform jmp)
  off : ∀ jmp loc, last = some (jmp, loc) → loc + branchIndex jmp < c.dyldBuf + i ∨
    c.dyldBuf + c.dyldLen / 4 ≤ loc + branchIndex jmp
  inText : ∀ jmp loc, last = some (jmp, loc) → c.InText loc

variable {z : Memory 32} {last : Option (Word × ℕ)}

theorem inStep_zero (c : Call) : InStep c 0 c.memory none where
  zero a := by rw [before_zero]; rfl
  ahead a _ _ _ := by rw [before_zero]; rfl
  shcLoc := by rw [before_zero]; rfl
  branch := by simp
  copy := by simp
  off := by simp
  inText := by simp

/-- The copy for the next branch has the same place in both memories. -/
theorem InStep.place_eq (h : InStep c i z last) (n : ℕ) :
    place ((c.before i).text c.findSection c.realBuf) c.realBuf (c.before i).memory n =
      place (c.findSection c.memory c.realBuf) c.realBuf z n := by
  rw [text_eq, place_congr h.zero]

theorem InStep.found_iff (h : InStep c i z last) (hi : i < c.dyldLen / 4) :
    isBranch (c.found i) = true ↔ isBranch (c.memory (c.dyldBuf + i)) = true := by
  have hahead := h.ahead (c.dyldBuf + i) (by omega) (by omega)
  constructor
  · intro hbranch
    rwa [← hahead (.inl hbranch)]
  · intro hbranch
    rwa [Call.found, hahead (.inr hbranch)]

theorem InStep.found_eq (h : InStep c i z last) (hi : i < c.dyldLen / 4)
    (hbranch : isBranch (c.memory (c.dyldBuf + i)) = true) :
    c.found i = c.memory (c.dyldBuf + i) :=
  h.ahead (c.dyldBuf + i) (by omega) (by omega) (.inr hbranch)

theorem InStep.skip (h : InStep c i z last) (hbranch : ¬isBranch (c.found i) = true) :
    InStep c (i + 1) z last := by
  have hsame := before_succ_of_not_isBranch hbranch
  constructor
  · rw [hsame]
    exact h.zero
  · rw [hsame]
    exact fun a ha => h.ahead a (by omega)
  · rw [hsame]
    exact h.shcLoc
  · exact h.branch
  · rw [hsame]
    exact h.copy
  · intro jmp loc hlast
    have := h.off jmp loc hlast
    omega
  · exact h.inText

/-- A `br` that goes to the last copy. -/
theorem InStep.again (h : InStep c i z last) (hi : i < c.dyldLen / 4) {loc : ℕ}
    (hbranch : isBranch (c.found i) = true)
    (hmemory : (c.before (i + 1)).memory = Function.update (c.before i).memory (c.dyldBuf + i)
      (arm64Branch (c.dyldBuf + i) loc false))
    (hshc : (c.before (i + 1)).shcLoc = (c.before i).shcLoc) : InStep c (i + 1) z last := by
  constructor
  · intro a
    rw [hmemory]
    by_cases ha : a = c.dyldBuf + i
    · have hfound : (c.before i).memory a ≠ 0#32 := by
        rw [ha]
        exact ne_zero_of_isBranch hbranch
      rw [ha, Function.update_self, ← ha]
      exact iff_of_false (arm64Branch_word _ _ _).1 (mt (h.zero a).mpr hfound)
    · rw [Function.update_of_ne ha]
      exact h.zero a
  · intro a ha
    rw [hmemory, Function.update_of_ne (by omega)]
    exact h.ahead a (by omega)
  · rw [hshc]
    exact h.shcLoc
  · exact h.branch
  · intro jmp loc hlast
    refine holds_before (Nat.le_succ i) (h.branch jmp loc hlast) ?_ (h.copy jmp loc hlast)
    have := h.off jmp loc hlast
    omega
  · intro jmp loc hlast
    have := h.off jmp loc hlast
    omega
  · exact h.inText

theorem write_eq_zero_iff {m m' : Memory 32} (h : ∀ a, m a = 0#32 ↔ m' a = 0#32) (loc : ℕ)
    (xs : List Word) (a : ℕ) : write m loc xs a = 0#32 ↔ write m' loc xs a = 0#32 := by
  by_cases hinside : loc ≤ a ∧ a < loc + xs.length
  · obtain ⟨k, rfl⟩ := Nat.exists_eq_add_of_le hinside.1
    rw [write_of_lt (by omega), write_of_lt (by omega)]
  · rw [write_of_outside (by omega), write_of_outside (by omega)]
    exact h a

/-- The place of a copy is free, and the branch is not in it. -/
theorem InStep.place_free (h : InStep c i z last) {loc n : ℕ}
    (hplace : place (c.findSection c.memory c.realBuf) c.realBuf z n = some loc) {a : ℕ}
    (ha : loc ≤ a ∧ a < loc + n) : (c.before i).memory a = 0#32 := by
  obtain ⟨k, rfl⟩ := Nat.exists_eq_add_of_le ha.1
  exact (h.zero _).mpr (place_isZero hplace k (by omega))

theorem InStep.site_outside (h : InStep c i z last) {loc n : ℕ}
    (hplace : place (c.findSection c.memory c.realBuf) c.realBuf z n = some loc)
    (hbranch : isBranch (c.found i) = true) :
    ¬(loc ≤ c.dyldBuf + i ∧ c.dyldBuf + i < loc + n) :=
  fun hinside => ne_zero_of_isBranch hbranch (h.place_free hplace hinside)

theorem InStep.holds_copied (h : InStep c i z last) {loc : ℕ} {x : Word} {xs : List Word}
    (hplace : place (c.findSection c.memory c.realBuf) c.realBuf z xs.length = some loc)
    (hbranch : isBranch (c.found i) = true)
    (hmemory : (c.before (i + 1)).memory =
      Function.update (write (c.before i).memory loc xs) (c.dyldBuf + i) x) :
    Holds (c.before (i + 1)).memory loc xs := by
  have hsite := h.site_outside hplace hbranch
  refine (holds_write (c.before i).memory loc xs).congr fun k hk => ?_
  rw [hmemory, Function.update_of_ne (by omega)]

/-- A branch that is copied. -/
theorem InStep.copied (h : InStep c i z last) {loc : ℕ} {jmp : Word}
    (hfound : c.found i = jmp) (hbranch : isBranch jmp = true)
    (hplace : place (c.findSection c.memory c.realBuf) c.realBuf z
      (shellcode c.platform jmp).length = some loc)
    (hoff : loc + branchIndex jmp ≤ c.dyldBuf + i ∨
      c.dyldBuf + c.dyldLen / 4 ≤ loc + branchIndex jmp)
    (hmemory : (c.before (i + 1)).memory =
      Function.update (write (c.before i).memory loc (shellcode c.platform jmp)) (c.dyldBuf + i)
        (arm64Branch (c.dyldBuf + i) loc !isBr jmp))
    (hshc : (c.before (i + 1)).shcLoc = some loc) :
    InStep c (i + 1) (write z loc (shellcode c.platform jmp)) (some (jmp, loc)) := by
  have hsite := h.site_outside hplace (hfound ▸ hbranch)
  constructor
  · intro a
    rw [hmemory]
    by_cases ha : a = c.dyldBuf + i
    · have hne : write z loc (shellcode c.platform jmp) a ≠ 0#32 := by
        rw [ha, write_of_outside (by omega), Ne, ← h.zero]
        show ¬c.found i = 0#32
        rw [hfound]
        exact ne_zero_of_isBranch hbranch
      rw [ha, Function.update_self, ← ha]
      exact iff_of_false (arm64Branch_word _ _ _).1 hne
    · rw [Function.update_of_ne ha]
      exact write_eq_zero_iff h.zero loc _ a
  · intro a ha hstop hbranches
    rw [hmemory, Function.update_of_ne (by omega)] at hbranches ⊢
    by_cases hinside : loc ≤ a ∧ a < loc + (shellcode c.platform jmp).length
    · exfalso
      rcases hbranches with hcopy | himage
      · obtain ⟨k, rfl⟩ := Nat.exists_eq_add_of_le hinside.1
        have hk : k < (shellcode c.platform jmp).length := by omega
        rw [write_of_lt hk] at hcopy
        have hindex := (shellcode_word hbranch (List.getElem?_eq_getElem hk)).2 hcopy
        omega
      · have hsame := h.ahead a (by omega) hstop (.inr himage)
        rw [← hsame, h.place_free hplace hinside] at himage
        exact ne_zero_of_isBranch himage rfl
    · rw [write_of_outside (by omega)] at hbranches ⊢
      exact h.ahead a (by omega) hstop hbranches
  · exact hshc
  · rintro _ _ ⟨⟩
    exact hbranch
  · rintro _ _ ⟨⟩
    exact h.holds_copied hplace (hfound ▸ hbranch) hmemory
  · rintro _ _ ⟨⟩
    omega
  · rintro _ _ ⟨⟩
    exact place_mem hplace

/-! ## The equivalence -/

/-- The branch that is written stays. -/
theorem result_site (hi : i < c.dyldLen / 4) {x : Word} (hne : x ≠ 0#32)
    (hmemory : (c.before (i + 1)).memory (c.dyldBuf + i) = x) :
    c.result.memory (c.dyldBuf + i) = x := by
  have hsame := before_apply (c := c) (i := i + 1) (j := c.dyldLen / 4) (a := c.dyldBuf + i)
    (by omega) (by rwa [hmemory]) fun _ => .inl (by omega)
  rw [result_eq, hsame, hmemory]

/-- A branch to a copy that stays is redirected. -/
theorem redirected_result (hi : i < c.dyldLen / 4) {loc : ℕ} {jmp : Word}
    (hjmp : isBranch jmp = true) (hreach : InReach (c.dyldBuf + i) loc)
    (hsite : (c.before (i + 1)).memory (c.dyldBuf + i) =
      arm64Branch (c.dyldBuf + i) loc !isBr jmp)
    (hcopy : Holds (c.before (i + 1)).memory loc (shellcode c.platform jmp))
    (hoff : loc + branchIndex jmp < c.dyldBuf + (i + 1) ∨
      c.dyldBuf + c.dyldLen / 4 ≤ loc + branchIndex jmp) :
    Redirected c.result.memory c.platform (c.dyldBuf + i) jmp := by
  refine ⟨loc, ?_, ?_⟩
  · rw [result_site hi (arm64Branch_word _ _ _).1 hsite, decodeBranch_arm64Branch _ hreach]
  · rw [result_eq]
    exact holds_before (by omega) hjmp hoff hcopy

/-- One branch that fits. -/
theorem InStep.of_fits (h : InStep c i z last) (hi : i < c.dyldLen / 4)
    (hbranch : isBranch (c.found i) = true) {sites : List (ℕ × Word)}
    (hfits : Fits (c.findSection c.memory c.realBuf) c.realBuf (c.dyldBuf + c.dyldLen / 4)
      c.platform z last ((c.dyldBuf + i, c.found i) :: sites)) :
    Redirected c.result.memory c.platform (c.dyldBuf + i) (c.found i) ∧
      ∃ z' last', InStep c (i + 1) z' last' ∧
        Fits (c.findSection c.memory c.realBuf) c.realBuf (c.dyldBuf + c.dyldLen / 4) c.platform
          z' last' sites := by
  have hshcLoc := h.shcLoc
  have hplaceEq := h.place_eq (shellcode c.platform (c.found i)).length
  generalize hjmp : c.found i = jmp at hfits hbranch hplaceEq ⊢
  have hinjects := injects_before hjmp hbranch
  cases hfits with
  | @again _ _ loc _ _ hbr hreach hrest =>
    cases hinjects with
    | nowhere hneeds => simp [hneeds hbr] at hshcLoc
    | copied hneeds => simp [hneeds hbr] at hshcLoc
    | @again loc' _ hloc hmemory hshc =>
      obtain rfl : loc = loc' := by simpa [hloc] using hshcLoc.symm
      have hnext := h.again hi (hjmp ▸ hbranch) hmemory (hshc.trans hloc.symm)
      refine ⟨redirected_result hi hbranch hreach ?_ (hnext.copy jmp loc rfl)
        (hnext.off jmp loc rfl), z, _, hnext, hrest⟩
      rw [hmemory, Function.update_self, hbr]
      rfl
  | @copied _ _ _ loc _ _ hneeds hplace hreach hoff hrest =>
    cases hinjects with
    | again hbr hloc =>
      rw [hneeds hbr, hloc] at hshcLoc
      cases hshcLoc
    | nowhere _ hnowhere =>
      rw [hplaceEq, hplace] at hnowhere
      cases hnowhere
    | @copied loc' _ hplace' hmemory hshc =>
      obtain rfl := Option.some.inj (hplace.symm.trans (hplaceEq.symm.trans hplace'))
      have hnext := h.copied hjmp hbranch hplace hoff hmemory hshc
      refine ⟨redirected_result hi hbranch hreach ?_ (hnext.copy jmp loc rfl)
        (hnext.off jmp loc rfl), _, _, hnext, hrest⟩
      rw [hmemory, Function.update_self]

/-- When the branches fit, those that are found are redirected. -/
theorem redirected_of_fits (d : ℕ) (hi : i + d = c.dyldLen / 4) (h : InStep c i z last)
    (hfits : Fits (c.findSection c.memory c.realBuf) c.realBuf (c.dyldBuf + c.dyldLen / 4)
      c.platform z last (branches c.memory (c.dyldBuf + i) d)) :
    ∀ j, i ≤ j → j < c.dyldLen / 4 → isBranch (c.found j) = true →
      Redirected c.result.memory c.platform (c.dyldBuf + j) (c.found j) := by
  induction d generalizing i z last with
  | zero =>
    intro j hij hj
    omega
  | succ d ih =>
    intro j hij hj hfound
    have hlt : i < c.dyldLen / 4 := by omega
    by_cases hbranch : isBranch (c.memory (c.dyldBuf + i)) = true
    · rw [branches_succ hbranch, ← h.found_eq hlt hbranch] at hfits
      obtain ⟨hredirected, z', last', hnext, hrest⟩ :=
        h.of_fits hlt ((h.found_iff hlt).mpr hbranch) hfits
      rcases Nat.eq_or_lt_of_le hij with rfl | hij
      · exact hredirected
      · exact ih (by omega) hnext hrest j hij hj hfound
    · rw [branches, if_neg hbranch] at hfits
      have hskip := h.skip (mt (h.found_iff hlt).mp hbranch)
      rcases Nat.eq_or_lt_of_le hij with rfl | hij
      · exact absurd ((h.found_iff hlt).mp hfound) hbranch
      · exact ih (by omega) hskip hfits j hij hj hfound

/-- What a redirected branch says of the copy it goes to. -/
theorem copy_of_redirected (hi : i < c.dyldLen / 4) {loc : ℕ} {jmp : Word} (link : Bool)
    (hreach : InReach (c.dyldBuf + i) loc)
    (hsite : (c.before (i + 1)).memory (c.dyldBuf + i) = arm64Branch (c.dyldBuf + i) loc link)
    (h : Redirected c.result.memory c.platform (c.dyldBuf + i) jmp) :
    Holds c.result.memory loc (shellcode c.platform jmp) := by
  obtain ⟨loc', hdecode, hcopy⟩ := h
  rw [result_site hi (arm64Branch_word _ _ _).1 hsite, decodeBranch_arm64Branch _ hreach] at hdecode
  have hoffset := congrArg Prod.snd (Option.some.inj hdecode)
  dsimp only at hoffset
  obtain rfl : loc = loc' := by omega
  exact hcopy

/-- A branch that is found does not stay. -/
theorem ne_of_redirected {m : Memory 32} {platform jmp jmp' : Word} {site : ℕ}
    (h : Redirected m platform site jmp) (hbranch : isBranch jmp' = true) : m site ≠ jmp' := by
  rintro rfl
  obtain ⟨loc, hdecode, -⟩ := h
  rw [decodeBranch_eq_none hbranch] at hdecode
  cases hdecode

/-- The copy for a branch is not searched later. -/
theorem off_of_keeps (hkeeps : c.KeepsTargets) {loc : ℕ} {jmp : Word}
    (hbranch : isBranch jmp = true)
    (hcopy : Holds (c.before (i + 1)).memory loc (shellcode c.platform jmp))
    (hresult : Holds c.result.memory loc (shellcode c.platform jmp)) :
    loc + branchIndex jmp ≤ c.dyldBuf + i ∨ c.dyldBuf + c.dyldLen / 4 ≤ loc + branchIndex jmp := by
  by_contra hinside
  obtain ⟨hindex, hword⟩ :=
    List.getElem?_eq_some_iff.mp (shellcode_branchIndex c.platform jmp)
  obtain ⟨k, hk⟩ := Nat.exists_eq_add_of_le (show c.dyldBuf ≤ loc + branchIndex jmp by omega)
  have hset : (c.before (i + 1)).memory (loc + branchIndex jmp) = jmp := by
    rw [hcopy _ hindex, hword]
  have hfound : c.found k = jmp := by
    rw [Call.found, ← hk, before_apply (i := i + 1) (by omega), hset]
    · rw [hset]
      exact ne_zero_of_isBranch hbranch
    · intro _
      omega
  have hredirected := hkeeps k (by omega) (by rwa [hfound])
  refine ne_of_redirected hredirected hbranch ?_
  rw [← hk, hresult _ hindex, hword]

/-- One branch that is redirected. -/
theorem InStep.fits (h : InStep c i z last) (hi : i < c.dyldLen / 4) (hnear : c.Near)
    (hkeeps : c.KeepsTargets) (hbranch : isBranch (c.found i) = true) {sites : List (ℕ × Word)}
    (hrest : ∀ z' last', InStep c (i + 1) z' last' →
      Fits (c.findSection c.memory c.realBuf) c.realBuf (c.dyldBuf + c.dyldLen / 4) c.platform
        z' last' sites) :
    Fits (c.findSection c.memory c.realBuf) c.realBuf (c.dyldBuf + c.dyldLen / 4) c.platform z last
      ((c.dyldBuf + i, c.found i) :: sites) := by
  have hredirected := hkeeps i hi hbranch
  have hshcLoc := h.shcLoc
  have hplaceEq := h.place_eq (shellcode c.platform (c.found i)).length
  generalize hjmp : c.found i = jmp at hbranch hplaceEq hredirected ⊢
  cases injects_before hjmp hbranch with
  | @again loc hbr hloc hmemory hshc =>
    rw [hloc] at hshcLoc
    obtain ⟨⟨jmp', loc'⟩, hlast, hsnd⟩ := Option.map_eq_some_iff.mp hshcLoc.symm
    obtain rfl : loc' = loc := hsnd
    have hreach := hnear i hi loc' (h.inText _ _ hlast)
    have hnext := h.again hi (hjmp ▸ hbranch) hmemory (hshc.trans hloc.symm)
    have hcopy := copy_of_redirected hi false hreach (by rw [hmemory, Function.update_self])
      hredirected
    have hkept : Holds c.result.memory loc' (shellcode c.platform jmp') := by
      rw [result_eq]
      exact holds_before (by omega) (h.branch _ _ hlast) (h.off _ _ hlast) (h.copy _ _ hlast)
    obtain rfl := eq_of_holds hbr hcopy hkept
    subst hlast
    exact .again hbr hreach (hrest _ _ hnext)
  | nowhere _ _ hmemory =>
    refine absurd ?_ (ne_of_redirected hredirected hbranch)
    refine result_site hi (ne_zero_of_isBranch hbranch) ?_
    rw [hmemory]
    exact hjmp
  | @copied loc hneeds hplace hmemory hshc =>
    rw [hplaceEq] at hplace
    have hreach := hnear i hi loc (place_mem hplace)
    have hcopy := copy_of_redirected hi _ hreach (by rw [hmemory, Function.update_self]) hredirected
    have hlast : isBr jmp = true → last = none := fun hbr => by
      rw [hneeds hbr] at hshcLoc
      exact Option.map_eq_none_iff.mp hshcLoc.symm
    have hoff := off_of_keeps hkeeps hbranch (h.holds_copied hplace (hjmp ▸ hbranch) hmemory) hcopy
    exact .copied hlast hplace hreach hoff
      (hrest _ _ (h.copied hjmp hbranch hplace hoff hmemory hshc))

/-- When those that are found are redirected, and all is in reach, the branches fit. -/
theorem fits_of_keeps (d : ℕ) (hi : i + d = c.dyldLen / 4) (h : InStep c i z last)
    (hnear : c.Near) (hkeeps : c.KeepsTargets) :
    Fits (c.findSection c.memory c.realBuf) c.realBuf (c.dyldBuf + c.dyldLen / 4) c.platform z last
      (branches c.memory (c.dyldBuf + i) d) := by
  induction d generalizing i z last with
  | zero => exact .nil
  | succ d ih =>
    have hlt : i < c.dyldLen / 4 := by omega
    have hadd : i + 1 + d = c.dyldLen / 4 := by omega
    by_cases hbranch : isBranch (c.memory (c.dyldBuf + i)) = true
    · rw [branches_succ hbranch, ← h.found_eq hlt hbranch]
      exact h.fits hlt hnear hkeeps ((h.found_iff hlt).mpr hbranch) fun _ _ hnext => ih hadd hnext
    · rw [branches, if_neg hbranch]
      exact ih hadd (h.skip (mt (h.found_iff hlt).mp hbranch))

end

/-- **Where the patched branches go**: to copies for them when the branches fit, and only then when
all is in reach. -/
theorem keepsTargets_iff (c : Call) :
    (c.HasRoom → c.KeepsTargets) ∧ (c.Near → c.KeepsTargets → c.HasRoom) := by
  refine ⟨fun hroom i hi => ?_, fun hnear hkeeps => ?_⟩
  · exact redirected_of_fits _ (Nat.zero_add _) (inStep_zero c) hroom i (Nat.zero_le i) hi
  · exact fits_of_keeps _ (Nat.zero_add _) (inStep_zero c) hnear hkeeps

/-! ## Two functions -/

/-- A function with these instructions, and zero words after it in the text section. -/
def callOf (insns : List Word) : Call where
  findSection _ _ := some ⟨0, 128⟩
  realBuf := 0
  dyldBuf := 0
  dyldLen := 4 * insns.length
  platform := 2
  memory := write (fun _ => 0) 0 insns

/-- `br x8` and `blr x9`. -/
def plainCall : Call := callOf [0xd61f0100, 0xd63f0120]

theorem hasRoom_plain : plainCall.HasRoom := by
  have hbranches : branches plainCall.memory 0 2 = [(0, 0xd61f0100), (1, 0xd63f0120)] := by
    decide +kernel
  rw [Call.HasRoom]
  change Fits _ 0 2 _ plainCall.memory none (branches plainCall.memory 0 2)
  rw [hbranches]
  have hfirst : place (some ⟨0, 128⟩) 0 plainCall.memory 4 = some 2 := by decide +kernel
  have hsecond : place (some ⟨0, 128⟩) 0
      (write plainCall.memory 2 (shellcode plainCall.platform 0xd61f0100)) 8 = some 6 := by
    decide +kernel
  exact .copied (fun _ => rfl) hfirst ⟨by decide, by decide⟩ (.inr (by decide))
    (.copied (fun h => absurd h (by decide)) hsecond ⟨by decide, by decide⟩ (.inr (by decide)) .nil)

theorem keepsTargets_plain : plainCall.KeepsTargets :=
  (keepsTargets_iff plainCall).1 hasRoom_plain

/-- `br x8` and `br x9`. -/
def twoBrCall : Call := callOf [0xd61f0100, 0xd61f0120]

/-- The second `br` goes to the copy for the first. -/
theorem not_keepsTargets_twoBr : ¬twoBrCall.KeepsTargets := by
  intro hkeeps
  have hfound : twoBrCall.found 1 = 0xd61f0120#32 := by decide +kernel
  have hsite : decodeBranch (twoBrCall.result.memory 1) = some (false, 1) := by decide +kernel
  have hcopy : twoBrCall.result.memory 5 = 0xd61f0100#32 := by decide +kernel
  obtain ⟨loc, hdecode, hholds⟩ := hkeeps 1 (by decide) (by rw [hfound]; decide)
  rw [hfound] at hdecode hholds
  have hoffset := congrArg Prod.snd (Option.some.inj (hsite.symm.trans hdecode))
  change (1 : ℤ) = (loc : ℤ) - (1 : ℕ) at hoffset
  obtain rfl : loc = 2 := by omega
  exact absurd (hcopy.symm.trans (hholds 3 (by decide))) (by decide)

end Jbinit.PatchDyld

import Jbinit.PatchDyld.Redirects

/-!
# What the platform patch overwrites

The search for zero words compares all the words of a copy, also where these go on after the end of
the section. So the patch overwrites only its branches and zero words of the section exactly when
the image has room for the copies: laid out in the order of the function, each at the first run of
zero words that begins in the section, they all end in it (`onlyPadding_iff`).
-/

namespace Jbinit.PatchDyld

open Foundations Arm64 Words

/-- At a word of the function, a copy of so many words is made. -/
def Call.CopiesAt (c : Call) (i loc n : ℕ) : Prop :=
  isBranch (c.found i) = true ∧ (isBr (c.found i) = true → (c.before i).shcLoc = none) ∧
    n = (shellcode c.platform (c.found i)).length ∧
    place (c.findSection c.memory c.realBuf) c.realBuf (c.before i).memory n = some loc

/-- What may be changed: a branch of the function, or a zero word of the text section. -/
inductive Call.MayChange (c : Call) (a : ℕ) : Prop
  | branch (hfunction : c.dyldBuf ≤ a ∧ a < c.dyldBuf + c.dyldLen / 4)
      (hbranch : isBranch (c.memory a) = true)
  | padding (hzero : c.memory a = 0#32) (hinside : c.InText a)

/-- Nothing else is changed, and no two copies overlap. -/
structure Call.OnlyPadding (c : Call) : Prop where
  changes : ∀ a, c.result.memory a ≠ c.memory a → c.MayChange a
  disjoint : ∀ i j loc loc' n n', i < j → j < c.dyldLen / 4 → c.CopiesAt i loc n →
    c.CopiesAt j loc' n' → loc + n ≤ loc' ∨ loc' + n' ≤ loc

/-! ## The condition -/

/-- The first run of `n` zero words that begins in a section of an image. -/
structure FirstRun (text : Section64) (buf : ℕ) (m : Memory 32) (n loc : ℕ) : Prop where
  begins : buf + text.offset / 4 ≤ loc ∧ loc < buf + text.offset / 4 + text.size / 4
  zero : ∀ k < n, m (loc + k) = 0#32
  first : ∀ loc', buf + text.offset / 4 ≤ loc' → loc' < loc → ∃ k < n, m (loc' + k) ≠ 0#32

/-- In `n` words from `a` on, the first run for each branch that needs a copy ends in the section.
A `br` needs one while there is none to go to; the memory is that with the copies. -/
def FitsInside (text : Section64) (buf : ℕ) (platform : Word) :
    ℕ → ℕ → Memory 32 → Bool → Prop
  | 0, _, _, _ => True
  | n + 1, a, m, copied =>
    if isBranch (m a) = true ∧ (isBr (m a) = true → copied = false) then
      (∀ loc, FirstRun text buf m (shellcode platform (m a)).length loc →
        loc + (shellcode platform (m a)).length ≤ buf + text.offset / 4 + text.size / 4 ∧
          FitsInside text buf platform n (a + 1) (write m loc (shellcode platform (m a))) true) ∧
      ((∀ loc, ¬FirstRun text buf m (shellcode platform (m a)).length loc) →
        FitsInside text buf platform n (a + 1) m false)
    else FitsInside text buf platform n (a + 1) m copied

/-- The copies for the branches of the function fit into the text section. -/
def Call.CopiesFit (c : Call) : Prop :=
  ∀ text, c.findSection c.memory c.realBuf = some text →
    FitsInside text c.realBuf c.platform (c.dyldLen / 4) c.dyldBuf c.memory false

/-! ## The copies of a run -/

/-- A copy for this word ends in the text section. -/
def Call.EndsAt (c : Call) (i : ℕ) : Prop :=
  ∀ loc n, c.CopiesAt i loc n → ∀ k < n, c.InText (loc + k)

/-- Every copy ends in the text section. -/
def Call.EndsInside (c : Call) : Prop := ∀ i < c.dyldLen / 4, c.EndsAt i

section

variable {c : Call} {i j a loc n : ℕ}

/-- A word that is set stays set. -/
theorem before_ne_zero (hij : i ≤ j) (hne : (c.before i).memory a ≠ 0#32) :
    (c.before j).memory a ≠ 0#32 := by
  induction hij with
  | refl => exact hne
  | @step j hij ih =>
    by_cases hsite : a = c.dyldBuf + j ∧ isBranch (c.found j) = true
    · obtain ⟨rfl, hbranch⟩ := hsite
      cases injects_before rfl hbranch with
      | again _ _ hmemory =>
        rw [hmemory, Function.update_self]
        exact (arm64Branch_word _ _ _).1
      | nowhere _ _ hmemory => rwa [hmemory]
      | copied _ _ hmemory =>
        rw [hmemory, Function.update_self]
        exact (arm64Branch_word _ _ _).1
    · rw [before_succ_apply ih]
      · exact ih
      · rintro hbranch rfl
        exact hsite ⟨rfl, hbranch⟩

theorem memory_eq_zero (h : (c.before i).memory a = 0#32) : c.memory a = 0#32 := by
  by_contra hne
  have hzero : (c.before 0).memory a ≠ 0#32 := by rwa [before_zero]
  exact before_ne_zero (Nat.zero_le i) hzero h

/-- The place of a copy is free before, and set after. -/
theorem copiesAt_spec (h : c.CopiesAt i loc n) {k : ℕ} (hk : k < n) :
    (c.before i).memory (loc + k) = 0#32 ∧ (c.before (i + 1)).memory (loc + k) ≠ 0#32 := by
  obtain ⟨hbranch, hneeds, rfl, hplace⟩ := h
  have hzero := place_isZero hplace k hk
  refine ⟨hzero, ?_⟩
  cases injects_before rfl hbranch with
  | again hbr hloc =>
    rw [hneeds hbr] at hloc
    cases hloc
  | nowhere _ hnowhere =>
    rw [text_eq, hplace] at hnowhere
    cases hnowhere
  | @copied loc' _ hplace' hmemory =>
    rw [text_eq, hplace] at hplace'
    obtain rfl := Option.some.inj hplace'
    rw [hmemory]
    by_cases hsite : loc + k = c.dyldBuf + i
    · rw [hsite, Function.update_self]
      exact (arm64Branch_word _ _ _).1
    · rw [Function.update_of_ne hsite, write_of_lt hk]
      exact (shellcode_word hbranch (List.getElem?_eq_getElem hk)).1

/-- The later of two copies is placed in words that are still zero. -/
theorem copiesAt_disjoint {loc' n' : ℕ} (hij : i < j) (h : c.CopiesAt i loc n)
    (h' : c.CopiesAt j loc' n') : loc + n ≤ loc' ∨ loc' + n' ≤ loc := by
  by_contra hoverlap
  have hpos {i loc n : ℕ} (h : c.CopiesAt i loc n) : 0 < n := by
    obtain ⟨-, -, rfl, -⟩ := h
    exact length_shellcode_pos c.platform (c.found i)
  have hn := hpos h
  have hn' := hpos h'
  have hset : ∀ k < n, (c.before j).memory (loc + k) ≠ 0#32 := fun k hk =>
    before_ne_zero hij (copiesAt_spec h hk).2
  have hzero : ∀ k < n', (c.before j).memory (loc' + k) = 0#32 := fun k hk =>
    (copiesAt_spec h' hk).1
  by_cases hle : loc ≤ loc'
  · have heq : loc + (loc' - loc) = loc' + 0 := by omega
    exact hset (loc' - loc) (by omega) (heq ▸ hzero 0 (by omega))
  · have heq : loc' + (loc - loc') = loc + 0 := by omega
    exact hset 0 (by omega) (heq ▸ hzero (loc - loc') (by omega))

/-- What one step changes. -/
theorem changes_succ (hi : i < c.dyldLen / 4) (hends : c.EndsInside)
    (ih : ∀ a, (c.before i).memory a ≠ c.memory a → c.MayChange a)
    (hne : (c.before (i + 1)).memory a ≠ c.memory a) : c.MayChange a := by
  by_cases hsame : (c.before (i + 1)).memory a = (c.before i).memory a
  · exact ih a (hsame ▸ hne)
  by_cases hbranch : isBranch (c.found i) = true
  · by_cases hsite : a = c.dyldBuf + i
    · by_cases hfound : (c.before i).memory a = c.memory a
      · refine .branch (by omega) ?_
        rw [← hfound, hsite]
        exact hbranch
      · exact ih a hfound
    cases injects_before rfl hbranch with
    | again _ _ hmemory =>
      rw [hmemory, Function.update_of_ne hsite] at hsame
      exact absurd rfl hsame
    | nowhere _ _ hmemory =>
      rw [hmemory] at hsame
      exact absurd rfl hsame
    | @copied loc hneeds hplace hmemory =>
      rw [text_eq] at hplace
      rw [hmemory, Function.update_of_ne hsite] at hsame
      have hinside : loc ≤ a ∧ a < loc + (shellcode c.platform (c.found i)).length := by
        by_contra houtside
        exact hsame (write_of_outside (by omega))
      obtain ⟨k, rfl⟩ := Nat.exists_eq_add_of_le hinside.1
      have hcopies : c.CopiesAt i loc _ := ⟨hbranch, hneeds, rfl, hplace⟩
      have hk : k < (shellcode c.platform (c.found i)).length := by omega
      exact .padding (memory_eq_zero (copiesAt_spec hcopies hk).1) (hends i hi loc _ hcopies k hk)
  · rw [before_succ_of_not_isBranch hbranch] at hsame
    exact absurd rfl hsame

theorem changes_before (hends : c.EndsInside) (hi : i ≤ c.dyldLen / 4)
    (hne : (c.before i).memory a ≠ c.memory a) : c.MayChange a := by
  induction i generalizing a with
  | zero =>
    rw [before_zero] at hne
    exact absurd rfl hne
  | succ i ih => exact changes_succ hi hends (fun _ => ih (by omega)) hne

end

/-- What the patch overwrites is decided by where the copies of the run are. -/
theorem onlyPadding_iff_endsInside (c : Call) : c.OnlyPadding ↔ c.EndsInside := by
  constructor
  · intro honly i hi loc n hcopies k hk
    obtain ⟨hzero, hset⟩ := copiesAt_spec hcopies hk
    have hresult : c.result.memory (loc + k) ≠ 0#32 := by
      rw [result_eq]
      exact before_ne_zero hi hset
    have hmemory := memory_eq_zero hzero
    cases honly.changes (loc + k) (by rwa [hmemory]) with
    | branch _ hbranch => exact absurd hmemory (ne_zero_of_isBranch hbranch)
    | padding _ hinside => exact hinside
  · intro hends
    refine ⟨fun a hne => ?_, fun i j loc loc' n n' hij _ h h' => copiesAt_disjoint hij h h'⟩
    rw [result_eq] at hne
    exact changes_before hends (Nat.le_refl _) hne

/-! ## Where the copies are -/

section

variable {text : Section64} {buf n loc : ℕ} {m z : Memory 32}

/-- **The search for zero words** finds the first run. -/
theorem place_eq_some_iff : place (some text) buf m n = some loc ↔ FirstRun text buf m n loc := by
  have hzero (a : ℕ) : (!isZero m n a) = true ↔ ∃ k < n, m (a + k) ≠ 0#32 := by
    rw [Bool.not_eq_true', Bool.eq_false_iff, Ne, isZero_iff]
    simp
  rw [place, Option.bind_some, pfFindZeroBuf_eq, Option.map_eq_some_iff]
  simp only [List.find?_range_eq_some, List.mem_range, isZero_iff, hzero]
  constructor
  · rintro ⟨i, ⟨hrun, hi, hfirst⟩, rfl⟩
    refine ⟨by omega, hrun, fun loc' hle hlt => ?_⟩
    obtain ⟨i', rfl⟩ := Nat.exists_eq_add_of_le hle
    exact hfirst i' (by omega)
  · intro h
    obtain ⟨i, rfl⟩ := Nat.exists_eq_add_of_le h.begins.1
    have hi := h.begins.2
    exact ⟨i, ⟨h.zero, by omega, fun i' hi' => h.first _ (by omega) (by omega)⟩, rfl⟩

theorem firstRun_congr {z : Memory 32} (h : ∀ a, m a = 0#32 ↔ z a = 0#32) :
    FirstRun text buf m n loc ↔ FirstRun text buf z n loc := by
  rw [← place_eq_some_iff, ← place_eq_some_iff, place_congr h]

/-- The run is inside when its end is. -/
theorem ends_iff_le (h : FirstRun text buf m n loc) (hn : 0 < n) {c : Call}
    (htext : c.findSection c.memory c.realBuf = some text) (hbuf : c.realBuf = buf) :
    (∀ k < n, c.InText (loc + k)) ↔ loc + n ≤ buf + text.offset / 4 + text.size / 4 := by
  have hbegins := h.begins
  constructor
  · intro hin
    obtain ⟨text', htext', j, hj, heq⟩ := hin (n - 1) (by omega)
    obtain rfl := Option.some.inj (htext.symm.trans htext')
    omega
  · intro hle k hk
    exact ⟨text, htext, loc + k - (buf + text.offset / 4), by omega, by omega⟩

end

/-! ## The run and the condition -/

/-- The process at a word of the function, with the memory of the condition. -/
structure InLine (c : Call) (i : ℕ) (z : Memory 32) (copied : Bool) : Prop where
  zero : ∀ a, (c.before i).memory a = 0#32 ↔ z a = 0#32
  ahead : ∀ a, c.dyldBuf + i ≤ a → (c.before i).memory a = z a
  shcLoc : (c.before i).shcLoc.isSome = copied

section

variable {c : Call} {i loc : ℕ} {z : Memory 32} {copied : Bool} {text : Section64}

theorem inLine_zero (c : Call) : InLine c 0 c.memory false where
  zero a := by rw [before_zero]; rfl
  ahead a _ := by rw [before_zero]; rfl
  shcLoc := by rw [before_zero]; rfl

theorem InLine.found_eq (h : InLine c i z copied) : c.found i = z (c.dyldBuf + i) :=
  h.ahead _ (Nat.le_refl _)

theorem InLine.skip (h : InLine c i z copied) (hbranch : ¬isBranch (c.found i) = true) :
    InLine c (i + 1) z copied := by
  have hsame := before_succ_of_not_isBranch hbranch
  constructor
  · rw [hsame]
    exact h.zero
  · rw [hsame]
    exact fun a ha => h.ahead a (by omega)
  · rw [hsame]
    exact h.shcLoc

/-- The branch at the word is replaced by another branch. -/
theorem inLine_replace {m : Memory 32} (hbranch : isBranch (m (c.dyldBuf + i)) = true)
    (hzero : ∀ a, m a = 0#32 ↔ z a = 0#32) (hahead : ∀ a, c.dyldBuf + i ≤ a → m a = z a)
    {link : Bool} (hmemory : (c.before (i + 1)).memory =
      Function.update m (c.dyldBuf + i) (arm64Branch (c.dyldBuf + i) loc link))
    (hshc : (c.before (i + 1)).shcLoc = some loc) : InLine c (i + 1) z true where
  zero a := by
    rw [hmemory]
    by_cases ha : a = c.dyldBuf + i
    · have hne : z a ≠ 0#32 := by
        rw [Ne, ← hzero, ha]
        exact ne_zero_of_isBranch hbranch
      rw [ha, Function.update_self, ← ha]
      exact iff_of_false (arm64Branch_word _ _ _).1 hne
    · rw [Function.update_of_ne ha, hzero]
  ahead a ha := by
    rw [hmemory, Function.update_of_ne (by omega), hahead a (by omega)]
  shcLoc := by rw [hshc]; rfl

/-- A word that needs no copy. -/
theorem InLine.of_not_needs (h : InLine c i z copied)
    (hneeds : ¬(isBranch (c.found i) = true ∧ (isBr (c.found i) = true → copied = false))) :
    InLine c (i + 1) z copied := by
  by_cases hbranch : isBranch (c.found i) = true
  · obtain ⟨hbr, rfl⟩ : isBr (c.found i) = true ∧ copied = true := by simpa [hbranch] using hneeds
    have hcopied : (c.before i).shcLoc ≠ none := by
      rw [← Option.isSome_iff_ne_none, h.shcLoc]
    cases injects_before rfl hbranch with
    | again _ hloc hmemory hshc => exact inLine_replace hbranch h.zero h.ahead hmemory hshc
    | nowhere hnone => exact absurd (hnone hbr) hcopied
    | copied hnone => exact absurd (hnone hbr) hcopied
  · exact h.skip hbranch

theorem InLine.endsAt_of_not_needs (h : InLine c i z copied)
    (hneeds : ¬(isBranch (c.found i) = true ∧ (isBr (c.found i) = true → copied = false))) :
    c.EndsAt i := by
  rintro loc n ⟨hbranch, hnone, -⟩
  refine absurd ⟨hbranch, fun hbr => ?_⟩ hneeds
  rw [← h.shcLoc, hnone hbr]
  rfl

theorem InLine.shcLoc_of_needs (h : InLine c i z copied)
    (hneeds : isBr (c.found i) = true → copied = false) (hbr : isBr (c.found i) = true) :
    (c.before i).shcLoc = none := by
  rw [← Option.not_isSome_iff_eq_none, h.shcLoc, hneeds hbr]
  exact Bool.false_ne_true

/-- Where the copy for the word is made. -/
theorem InLine.place_iff (h : InLine c i z copied)
    (htext : c.findSection c.memory c.realBuf = some text) (loc : ℕ) :
    place ((c.before i).text c.findSection c.realBuf) c.realBuf (c.before i).memory
        (shellcode c.platform (c.found i)).length = some loc ↔
      FirstRun text c.realBuf z (shellcode c.platform (c.found i)).length loc := by
  rw [text_eq, htext, place_eq_some_iff, firstRun_congr h.zero]

theorem endsAt_of_nowhere
    (hplace : place ((c.before i).text c.findSection c.realBuf) c.realBuf (c.before i).memory
      (shellcode c.platform (c.found i)).length = none) : c.EndsAt i := by
  rintro loc n ⟨-, -, rfl, hloc⟩
  rw [← text_eq c i, hplace] at hloc
  cases hloc

theorem InLine.endsAt_iff_of_copied (h : InLine c i z copied)
    (htext : c.findSection c.memory c.realBuf = some text)
    (hbranch : isBranch (c.found i) = true)
    (hneeds : isBr (c.found i) = true → (c.before i).shcLoc = none)
    (hplace : place ((c.before i).text c.findSection c.realBuf) c.realBuf (c.before i).memory
      (shellcode c.platform (c.found i)).length = some loc) :
    c.EndsAt i ↔ loc + (shellcode c.platform (c.found i)).length ≤
      c.realBuf + text.offset / 4 + text.size / 4 := by
  have hrun := (h.place_iff htext loc).mp hplace
  rw [← ends_iff_le hrun (length_shellcode_pos _ _) htext rfl]
  rw [text_eq] at hplace
  constructor
  · exact fun hends => hends loc _ ⟨hbranch, hneeds, rfl, hplace⟩
  · rintro hin loc' n ⟨-, -, rfl, hloc⟩
    obtain rfl := Option.some.inj (hplace.symm.trans hloc)
    exact hin

/-- A copy for the word. -/
theorem InLine.of_copied (h : InLine c i z copied)
    (hrun : FirstRun text c.realBuf z (shellcode c.platform (c.found i)).length loc)
    (hbranch : isBranch (c.found i) = true)
    (hmemory : (c.before (i + 1)).memory =
      Function.update (write (c.before i).memory loc (shellcode c.platform (c.found i)))
        (c.dyldBuf + i) (arm64Branch (c.dyldBuf + i) loc !isBr (c.found i)))
    (hshc : (c.before (i + 1)).shcLoc = some loc) :
    InLine c (i + 1) (write z loc (shellcode c.platform (c.found i))) true := by
  have hfree : ¬(loc ≤ c.dyldBuf + i ∧
      c.dyldBuf + i < loc + (shellcode c.platform (c.found i)).length) := by
    rintro ⟨hle, hlt⟩
    obtain ⟨k, hk⟩ := Nat.exists_eq_add_of_le hle
    have hzero := hrun.zero k (by omega)
    rw [← hk, ← h.found_eq] at hzero
    exact ne_zero_of_isBranch hbranch hzero
  have hsite : write (c.before i).memory loc (shellcode c.platform (c.found i)) (c.dyldBuf + i) =
      c.found i := write_of_outside (by omega)
  refine inLine_replace (by rwa [hsite]) (write_eq_zero_iff h.zero loc _) (fun a ha => ?_) hmemory
    hshc
  by_cases hin : loc ≤ a ∧ a < loc + (shellcode c.platform (c.found i)).length
  · obtain ⟨k, rfl⟩ := Nat.exists_eq_add_of_le hin.1
    rw [write_of_lt (by omega), write_of_lt (by omega)]
  · rw [write_of_outside (by omega), write_of_outside (by omega), h.ahead a ha]

/-- One word of the function. -/
theorem InLine.fitsInside_succ (h : InLine c i z copied) {n : ℕ}
    (htext : c.findSection c.memory c.realBuf = some text)
    (ih : ∀ z' copied', InLine c (i + 1) z' copied' →
      ((∀ j, i + 1 ≤ j → j < i + 1 + n → c.EndsAt j) ↔
        FitsInside text c.realBuf c.platform n (c.dyldBuf + (i + 1)) z' copied')) :
    (c.EndsAt i ∧ ∀ j, i + 1 ≤ j → j < i + 1 + n → c.EndsAt j) ↔
      FitsInside text c.realBuf c.platform (n + 1) (c.dyldBuf + i) z copied := by
  rw [FitsInside, ← h.found_eq, Nat.add_assoc c.dyldBuf i 1]
  have hplace := h.place_iff htext
  by_cases hneeds : isBranch (c.found i) = true ∧ (isBr (c.found i) = true → copied = false)
  · rw [if_pos hneeds]
    have hnone := h.shcLoc_of_needs hneeds.2
    cases injects_before rfl hneeds.1 with
    | again hbr hloc =>
      rw [hnone hbr] at hloc
      cases hloc
    | nowhere _ hnowhere hmemory hshc =>
      have hno (loc : ℕ) :
          ¬FirstRun text c.realBuf z (shellcode c.platform (c.found i)).length loc := by
        rw [← hplace, hnowhere]
        exact nofun
      have hshcLoc : (c.before (i + 1)).shcLoc = none := hshc.resolve_right fun h => by
        rw [text_eq, htext] at h
        cases h.2
      have hnext : InLine c (i + 1) z false :=
        ⟨fun a => by rw [hmemory, h.zero], fun a ha => by rw [hmemory, h.ahead a (by omega)],
          by rw [hshcLoc]; rfl⟩
      rw [ih z false hnext]
      exact ⟨fun hrest => ⟨fun loc hrun => absurd hrun (hno loc), fun _ => hrest.2⟩,
        fun hfits => ⟨endsAt_of_nowhere hnowhere, hfits.2 hno⟩⟩
    | @copied loc _ hcopied hmemory hshc =>
      have hrun := (hplace loc).mp hcopied
      rw [h.endsAt_iff_of_copied htext hneeds.1 hnone hcopied,
        ih _ true (h.of_copied hrun hneeds.1 hmemory hshc)]
      constructor
      · intro hrest
        refine ⟨fun loc' hrun' => ?_, fun hno => absurd hrun (hno loc)⟩
        obtain rfl := Option.some.inj (hcopied.symm.trans ((hplace loc').mpr hrun'))
        exact hrest
      · exact fun hfits => hfits.1 loc hrun
  · rw [if_neg hneeds, ih z copied (h.of_not_needs hneeds)]
    exact and_iff_right (h.endsAt_of_not_needs hneeds)

/-- From a word on, the copies of the run end in the section when those of the condition do. -/
theorem InLine.endsAt_iff (h : InLine c i z copied) (n : ℕ)
    (htext : c.findSection c.memory c.realBuf = some text) :
    (∀ j, i ≤ j → j < i + n → c.EndsAt j) ↔
      FitsInside text c.realBuf c.platform n (c.dyldBuf + i) z copied := by
  induction n generalizing i z copied with
  | zero => exact iff_of_true (fun j hij hj => absurd hij (by omega)) trivial
  | succ n ih =>
    rw [← h.fitsInside_succ htext fun z' copied' h' => ih h']
    constructor
    · exact fun hends => ⟨hends i (Nat.le_refl i) (by omega),
        fun j hij hj => hends j (by omega) (by omega)⟩
    · rintro ⟨hi, hrest⟩ j hij hj
      rcases Nat.eq_or_lt_of_le hij with rfl | hij
      · exact hi
      · exact hrest j hij (by omega)

end

theorem endsInside_iff (c : Call) : c.EndsInside ↔ c.CopiesFit := by
  have hends (text : Section64) (htext : c.findSection c.memory c.realBuf = some text) :
      c.EndsInside ↔
        FitsInside text c.realBuf c.platform (c.dyldLen / 4) c.dyldBuf c.memory false := by
    have hiff := (inLine_zero c).endsAt_iff (c.dyldLen / 4) htext
    rw [Nat.add_zero] at hiff
    rw [← hiff, Call.EndsInside]
    simp
  constructor
  · exact fun h text htext => (hends text htext).mp h
  · intro h
    cases htext : c.findSection c.memory c.realBuf with
    | some text => exact (hends text htext).mpr (h text htext)
    | none =>
      rintro i hi loc n ⟨-, -, -, hplace⟩
      rw [htext] at hplace
      cases hplace

/-- **What the platform patch overwrites**: its branches and padding, exactly when in the order of
the function the first run of zero words for each copy ends in the text section. -/
theorem onlyPadding_iff (c : Call) : c.OnlyPadding ↔ c.CopiesFit :=
  (onlyPadding_iff_endsInside c).trans (endsInside_iff c)

/-- It is enough that the section does not end in the middle of a run of zero words. -/
theorem copiesFit_of_boundary (c : Call)
    (h : ∀ text, c.findSection c.memory c.realBuf = some text →
      c.memory (c.realBuf + text.offset / 4 + text.size / 4) ≠ 0#32) : c.CopiesFit := by
  rw [← endsInside_iff]
  intro i hi loc n hcopies k hk
  obtain ⟨text, hfind, j, hj, rfl⟩ := place_mem hcopies.2.2.2
  refine ⟨text, hfind, j + k, ?_, by omega⟩
  by_contra hend
  have hzero := memory_eq_zero (copiesAt_spec hcopies (k := text.size / 4 - j) (by omega)).1
  have heq : c.realBuf + text.offset / 4 + j + (text.size / 4 - j) =
      c.realBuf + text.offset / 4 + text.size / 4 := by omega
  exact h text hfind (heq ▸ hzero)

/-- `blr x9`, in front of a section of four words. -/
def shortCall : Call :=
  { callOf [0xd63f0120] with findSection := fun _ _ => some ⟨4, 16⟩ }

/-- The copy is eight words long. -/
theorem not_onlyPadding_short : ¬shortCall.OnlyPadding := by
  intro honly
  have hchange : shortCall.result.memory 5 ≠ shortCall.memory 5 := by decide +kernel
  have hzero : shortCall.memory 5 = 0#32 := by decide +kernel
  cases honly.changes 5 hchange with
  | branch _ hbranch => exact ne_zero_of_isBranch hbranch hzero
  | padding _ hinside =>
    obtain ⟨text, hfind, j, hj, heq⟩ := hinside
    obtain rfl : (⟨4, 16⟩ : Section64) = text := Option.some.inj hfind
    change j < 4 at hj
    change 5 = 0 + 1 + j at heq
    omega

end Jbinit.PatchDyld

import Mathlib.Algebra.Group.Int.Defs
import Mathlib.Algebra.Group.Nat.Defs
import Mathlib.Data.BitVec
import Mathlib.Data.List.Nodup
import Mathlib.Tactic.Common

/-!
# `find_insn_maskmatch_match`

The hook of lsd looks for the only place of a pattern of instructions. The loop goes to the next
word before it compares, and ends one word early, so the first and the last place are never looked
at (`findInsnMaskmatchMatch_eq`); the result is right if that makes no difference
(`findInsnMaskmatchMatch_exact_iff`).
-/

namespace Jbinit.Universalhooks

abbrev Word := BitVec 32

/-! ## The function -/

/-- The words of a buffer and its address. -/
structure InsnBuffer where
  data : ℕ
  words : List Word

/-- The word at an address, which is at a word boundary of the buffer. -/
def InsnBuffer.read (buf : InsnBuffer) (address : ℕ) : Option Word :=
  if buf.data ≤ address then buf.words[(address - buf.data) / 4]? else none

/-- The comparison of `matches` and `masks` with what is at `current_inst`; the result is `none` for
a read outside of the buffer. -/
def matchesAt (buf : InsnBuffer) (currentInst : ℕ) : List (Word × Word) → Option Bool
  | [] => some true
  | (insn, mask) :: pattern => do
    let current ← buf.read currentInst
    if insn &&& mask ≠ current &&& mask then return false
    else matchesAt buf (currentInst + 4) pattern

/-- `(uintptr_t)data + size - 4 - (count*4)`. The product is one of `int`. -/
def loopEnd (data size count : ℕ) : ℕ :=
  (BitVec.ofNat 64 data + BitVec.ofNat 64 size - 4#64 -
    BitVec.ofInt 64 (((count : ℤ) * 4).bmod (2 ^ 32))).toNat

def maskmatchLoop (buf : InsnBuffer) (pattern : List (Word × Word)) (stop currentInst : ℕ)
    (retval : Option ℕ) : Option (Option ℕ) :=
  if currentInst < stop then
    match matchesAt buf (currentInst + 4) pattern with
    | none => none
    | some false => maskmatchLoop buf pattern stop (currentInst + 4) retval
    | some true =>
      if retval.isNone then maskmatchLoop buf pattern stop (currentInst + 4) (some (currentInst + 4))
      else some none
  else some retval
termination_by stop - currentInst

/-- `find_insn_maskmatch_match`. NULL is `none` inside of the result. The sizes that it compares
first are those of two pointers. -/
def findInsnMaskmatchMatch (buf : InsnBuffer) (pattern : List (Word × Word)) : Option (Option ℕ) :=
  maskmatchLoop buf pattern (loopEnd buf.data (4 * buf.words.length) pattern.length) buf.data none

/-! ## The only element -/

/-- `i` is the only one with the property. -/
def Only {α : Type*} (P : α → Prop) (i : α) : Prop := P i ∧ ∀ j, P j → j = i

/-- What is left of a property without two elements. -/
def Without {α : Type*} (P : α → Prop) (p q : α) (i : α) : Prop := P i ∧ i ≠ p ∧ i ≠ q

/-- **When two elements make no difference** for the only one with a property. -/
theorem only_without_iff {α : Type*} (P : α → Prop) (p q : α) :
    (∀ i, Only (Without P p q) i ↔ Only P i) ↔
      (¬P p ∧ ¬P q) ∨ (∃ i j, i ≠ j ∧ Without P p q i ∧ Without P p q j) ∨
        ((∀ i, ¬Without P p q i) ∧ P p ∧ P q ∧ p ≠ q) := by
  constructor
  · intro h
    by_cases hends : ¬P p ∧ ¬P q
    · exact .inl hends
    by_cases htwo : ∃ i j, i ≠ j ∧ Without P p q i ∧ Without P p q j
    · exact .inr (.inl htwo)
    · -- With one element left, one of the two would be it; with none, each of them would be alone.
      have hnone (i : α) : ¬Without P p q i := by
        intro hi
        have honly : Only P i := (h i).mp ⟨hi, fun j hj => by
          by_contra hne
          exact htwo ⟨j, i, hne, hj, hi⟩⟩
        exact hends ⟨fun hp => hi.2.1 (honly.2 p hp).symm, fun hq => hi.2.2 (honly.2 q hq).symm⟩
      have halone (i : α) : ¬Only P i := fun honly => hnone i ((h i).mpr honly).1
      have hcover (j : α) (hj : P j) : j = p ∨ j = q := by
        by_contra hne
        rw [not_or] at hne
        exact hnone j ⟨hj, hne⟩
      have hother (hp : P p) : P q ∧ p ≠ q := by
        by_contra hnot
        refine halone p ⟨hp, fun j hj => (hcover j hj).elim id fun hq => ?_⟩
        by_contra hne
        exact hnot ⟨hq ▸ hj, fun heq => hne (hq.trans heq.symm)⟩
      have hp : P p := by
        by_contra hp
        refine halone q ⟨?_, fun j hj => (hcover j hj).resolve_left fun heq => hp (heq ▸ hj)⟩
        by_contra hq
        exact hends ⟨hp, hq⟩
      exact .inr (.inr ⟨hnone, hp, hother hp⟩)
  · rintro (⟨hp, hq⟩ | ⟨i, j, hne, hi, hj⟩ | ⟨hnone, hp, hq, hne⟩) k
    · have hsame (j : α) : Without P p q j ↔ P j :=
        ⟨fun h => h.1, fun h => ⟨h, fun heq => hp (heq ▸ h), fun heq => hq (heq ▸ h)⟩⟩
      simp [Only, hsame]
    · refine iff_of_false ?_ ?_
      · exact fun h => hne ((h.2 i hi).trans (h.2 j hj).symm)
      · exact fun h => hne ((h.2 i hi.1).trans (h.2 j hj.1).symm)
    · exact iff_of_false (fun h => hnone k h.1) fun h => hne ((h.2 p hp).trans (h.2 q hq).symm)

/-! ## What is looked at -/

/-- All words of the pattern match at a place of the buffer. -/
def IsMatch (words : List Word) (pattern : List (Word × Word)) (i : ℕ) : Prop :=
  i + pattern.length ≤ words.length ∧ ∀ j insn mask, pattern[j]? = some (insn, mask) →
    ∃ current, words[i + j]? = some current ∧ insn &&& mask = current &&& mask

variable {buf : InsnBuffer} {pattern : List (Word × Word)} {insn mask : Word} {i : ℕ}

theorem isMatch_cons {words : List Word} : IsMatch words ((insn, mask) :: pattern) i ↔
    (∃ current, words[i]? = some current ∧ insn &&& mask = current &&& mask) ∧
      IsMatch words pattern (i + 1) := by
  constructor
  · rintro ⟨hlength, hall⟩
    refine ⟨hall 0 insn mask rfl, by rw [List.length_cons] at hlength; omega, fun j w m hj => ?_⟩
    have hnext := hall (j + 1) w m hj
    rwa [← Nat.add_assoc, Nat.add_right_comm] at hnext
  · rintro ⟨hfirst, hlength, hall⟩
    refine ⟨by rw [List.length_cons]; omega, fun j w m hj => ?_⟩
    cases j with
    | zero =>
      obtain ⟨rfl, rfl⟩ := Prod.mk.inj (Option.some.inj hj)
      exact hfirst
    | succ j =>
      have hnext := hall j w m hj
      rwa [Nat.add_right_comm, Nat.add_assoc] at hnext

theorem read_eq (buf : InsnBuffer) (i : ℕ) : buf.read (buf.data + 4 * i) = buf.words[i]? := by
  rw [InsnBuffer.read, if_pos (by omega), Nat.add_sub_cancel_left,
    Nat.mul_div_cancel_left i (by omega)]

/-- **The comparison stays inside** where the pattern fits, and is right. -/
theorem matchesAt_eq (h : i + pattern.length ≤ buf.words.length) :
    ∃ found, matchesAt buf (buf.data + 4 * i) pattern = some found ∧
      (found = true ↔ IsMatch buf.words pattern i) := by
  induction pattern generalizing i with
  | nil => exact ⟨true, rfl, by simpa [IsMatch] using h⟩
  | cons p pattern ih =>
    obtain ⟨insn, mask⟩ := p
    rw [List.length_cons] at h
    obtain ⟨found, hfound, hiff⟩ := ih (show i + 1 + pattern.length ≤ buf.words.length by omega)
    obtain ⟨current, hcurrent⟩ : ∃ current, buf.words[i]? = some current :=
      ⟨_, List.getElem?_eq_getElem (by omega)⟩
    rw [isMatch_cons, hcurrent, matchesAt, read_eq, hcurrent, Option.bind_eq_bind, Option.bind_some]
    by_cases hword : insn &&& mask = current &&& mask
    · refine ⟨found, ?_, by simp [hword, hiff]⟩
      rw [if_neg (by simpa using hword)]
      exact hfound
    · exact ⟨false, by simp [hword], by simp [hword]⟩

theorem loopEnd_eq {data size count : ℕ} (hcount : 4 * count < 2 ^ 31)
    (hdata : 4 * (count + 1) ≤ data) (hsize : data + size < 2 ^ 64) :
    loopEnd data size count = data + size - 4 - 4 * count := by
  have hbmod : ((count : ℤ) * 4).bmod (2 ^ 32) = (4 * count : ℕ) := by
    rw [Int.bmod_eq_of_le (by omega) (by omega)]
    omega
  rw [loopEnd, hbmod, BitVec.ofInt_natCast]
  simp only [BitVec.toNat_sub, BitVec.toNat_add, BitVec.toNat_ofNat]
  omega

/-- The first of some addresses, if it is the only one. -/
def firstAlone : Option ℕ → List ℕ → Option ℕ
  | retval, [] => retval
  | none, a :: as => firstAlone (some a) as
  | some _, _ :: _ => none

theorem firstAlone_some (a : ℕ) (as : List ℕ) :
    firstAlone (some a) as = if as = [] then some a else none := by
  cases as <;> rfl

theorem firstAlone_none_iff {as : List ℕ} {a : ℕ} : firstAlone none as = some a ↔ as = [a] := by
  cases as with
  | nil => simp [firstAlone]
  | cons b as =>
    rw [firstAlone, firstAlone_some]
    by_cases h : as = [] <;> simp [h]

/-- The addresses of the places from `i` on, `k` of them, at which the pattern is. -/
def found (buf : InsnBuffer) (pattern : List (Word × Word)) (i k : ℕ) : List ℕ :=
  ((List.range' i k).filter fun j =>
    matchesAt buf (buf.data + 4 * j) pattern = some true).map fun j => buf.data + 4 * j

/-- **The loop** looks at `k` places, from the one behind `current_inst` on. -/
theorem maskmatchLoop_eq {i k : ℕ} (hplaces : i + k + pattern.length < buf.words.length)
    {stop : ℕ} (hstop : stop = buf.data + 4 * (i + k)) (retval : Option ℕ) :
    maskmatchLoop buf pattern stop (buf.data + 4 * i) retval =
      some (firstAlone retval (found buf pattern (i + 1) k)) := by
  induction k generalizing i retval with
  | zero =>
    rw [maskmatchLoop, if_neg (by omega)]
    cases retval <;> rfl
  | succ k ih =>
    have hnext : buf.data + 4 * i + 4 = buf.data + 4 * (i + 1) := by omega
    obtain ⟨b, hb, -⟩ := matchesAt_eq (show i + 1 + pattern.length ≤ buf.words.length by omega)
    have hrest (retval : Option ℕ) := ih (i := i + 1) (by omega) (by omega) retval
    rw [maskmatchLoop, if_pos (by omega), hnext, hb, found, List.range'_succ]
    cases b with
    | false =>
      rw [List.filter_cons_of_neg (by simp [hb])]
      exact hrest retval
    | true =>
      rw [List.filter_cons_of_pos (by simp [hb]), List.map_cons]
      cases retval with
      | none => exact hrest _
      | some a => rfl

theorem eq_singleton_iff_only {α : Type*} {l : List α} (hl : l.Nodup) {a : α} :
    l = [a] ↔ Only (fun b => b ∈ l) a := by
  constructor
  · rintro rfl
    exact ⟨List.mem_singleton_self a, fun b hb => List.mem_singleton.mp hb⟩
  · rintro ⟨hmem, hall⟩
    cases l with
    | nil => cases hmem
    | cons b l =>
      obtain rfl := hall b List.mem_cons_self
      have hnil : l = [] := by
        rw [List.eq_nil_iff_forall_not_mem]
        intro c hc
        obtain rfl := hall c (List.mem_cons_of_mem b hc)
        exact (List.nodup_cons.mp hl).1 hc
      rw [hnil]

/-! ## What is found -/

/-- The places that are looked at: the pattern fits there, and they are neither the first one nor
the last. -/
def Interior (buf : InsnBuffer) (pattern : List (Word × Word)) : ℕ → Prop :=
  Without (IsMatch buf.words pattern) 0 (buf.words.length - pattern.length)

theorem interior_iff {i : ℕ} : Interior buf pattern i ↔
    IsMatch buf.words pattern i ∧ 1 ≤ i ∧ i + pattern.length < buf.words.length := by
  constructor
  · rintro ⟨hmatch, hfirst, hlast⟩
    have hfits := hmatch.1
    exact ⟨hmatch, by omega, by omega⟩
  · rintro ⟨hmatch, hone, hlt⟩
    exact ⟨hmatch, by omega, by omega⟩

theorem found_eq_singleton_iff {k : ℕ} (hplaces : k + pattern.length + 1 = buf.words.length)
    (a : ℕ) : found buf pattern 1 k = [a] ↔
      ∃ i, a = buf.data + 4 * i ∧ Only (Interior buf pattern) i := by
  have hmem (i : ℕ) : i ∈ (List.range' 1 k).filter (fun j =>
      matchesAt buf (buf.data + 4 * j) pattern = some true) ↔ Interior buf pattern i := by
    rw [interior_iff, List.mem_filter, List.mem_range'_1]
    constructor
    · rintro ⟨⟨hone, hlt⟩, hmatches⟩
      obtain ⟨b, hb, hiff⟩ := matchesAt_eq (show i + pattern.length ≤ buf.words.length by omega)
      rw [hb] at hmatches
      exact ⟨hiff.mp (by simpa using hmatches), hone, by omega⟩
    · rintro ⟨hmatch, hone, hlt⟩
      obtain ⟨b, hb, hiff⟩ := matchesAt_eq hmatch.1
      exact ⟨⟨hone, by omega⟩, by simp [hb, hiff.mpr hmatch]⟩
  have hnodup := (List.nodup_range' (s := 1) (n := k)).filter
    (fun j => matchesAt buf (buf.data + 4 * j) pattern = some true)
  rw [found, List.map_eq_singleton_iff]
  constructor
  · rintro ⟨i, hi, ha⟩
    rw [eq_singleton_iff_only hnodup] at hi
    exact ⟨i, ha.symm, by simpa only [Only, hmem] using hi⟩
  · rintro ⟨i, ha, honly⟩
    refine ⟨i, ?_, ha.symm⟩
    rw [eq_singleton_iff_only hnodup]
    simpa only [Only, hmem] using honly

/-- Where the buffer and the pattern are: the pattern is shorter than what is below the buffer, its
length in bytes is an `int`, and the buffer ends below the last address. -/
structure Placed (buf : InsnBuffer) (pattern : List (Word × Word)) : Prop where
  count_lt : 4 * pattern.length < 2 ^ 31
  data_ge : 4 * (pattern.length + 1) ≤ buf.data
  end_lt : buf.data + 4 * buf.words.length < 2 ^ 64

/-- **What is returned**: the only place that is neither the first one nor the last. -/
theorem findInsnMaskmatchMatch_eq (h : Placed buf pattern) : ∃ retval,
    findInsnMaskmatchMatch buf pattern = some retval ∧
      ∀ a, retval = some a ↔ ∃ i, a = buf.data + 4 * i ∧ Only (Interior buf pattern) i := by
  obtain ⟨hcount, hdata, hend⟩ := h
  rw [findInsnMaskmatchMatch, loopEnd_eq hcount hdata hend]
  by_cases hfits : pattern.length < buf.words.length
  · obtain ⟨k, hk⟩ : ∃ k, k + pattern.length + 1 = buf.words.length :=
      ⟨buf.words.length - pattern.length - 1, by omega⟩
    have hplaces : 0 + k + pattern.length < buf.words.length := by omega
    have hstop : buf.data + 4 * buf.words.length - 4 - 4 * pattern.length =
        buf.data + 4 * (0 + k) := by omega
    have hloop := maskmatchLoop_eq hplaces hstop none
    exact ⟨_, hloop, fun a => firstAlone_none_iff.trans (found_eq_singleton_iff hk a)⟩
  · refine ⟨none, by rw [maskmatchLoop, if_neg (by omega)], fun a => iff_of_false (by simp) ?_⟩
    rintro ⟨i, -, honly⟩
    have hlt := (interior_iff.mp honly.1).2.2
    omega

/-- The result is right: it is the address of the only place at which all words match, and NULL
without one; nothing outside of the buffer is read. -/
def Exact (buf : InsnBuffer) (pattern : List (Word × Word)) (r : Option (Option ℕ)) : Prop :=
  ∃ retval, r = some retval ∧ ∀ a, retval = some a ↔
    ∃ i, a = buf.data + 4 * i ∧ Only (IsMatch buf.words pattern) i

/-- The pattern is neither at the first place nor at the last; or it is at two places between them;
or at none between them, and at both of them. -/
def EndsMakeNoDifference (buf : InsnBuffer) (pattern : List (Word × Word)) : Prop :=
  let last := buf.words.length - pattern.length
  (¬IsMatch buf.words pattern 0 ∧ ¬IsMatch buf.words pattern last) ∨
    (∃ i j, i ≠ j ∧ Interior buf pattern i ∧ Interior buf pattern j) ∨
      ((∀ i, ¬Interior buf pattern i) ∧ IsMatch buf.words pattern 0 ∧
        IsMatch buf.words pattern last ∧ 0 ≠ last)

/-- **When the result is right.** -/
theorem findInsnMaskmatchMatch_exact_iff (h : Placed buf pattern) :
    Exact buf pattern (findInsnMaskmatchMatch buf pattern) ↔ EndsMakeNoDifference buf pattern := by
  obtain ⟨retval, hrun, hretval⟩ := findInsnMaskmatchMatch_eq h
  have haddress {P Q : ℕ → Prop} : (∀ a, (∃ i, a = buf.data + 4 * i ∧ P i) ↔
      ∃ i, a = buf.data + 4 * i ∧ Q i) ↔ ∀ i, P i ↔ Q i := by
    constructor
    · intro hall i
      have hi := hall (buf.data + 4 * i)
      simpa using hi
    · intro hall a
      simp only [hall]
  have honly : EndsMakeNoDifference buf pattern ↔
      ∀ i, Only (Interior buf pattern) i ↔ Only (IsMatch buf.words pattern) i :=
    (only_without_iff (IsMatch buf.words pattern) 0 _).symm
  rw [honly, ← haddress, Exact, hrun]
  constructor
  · rintro ⟨retval', heq, hexact⟩ a
    obtain rfl := Option.some.inj heq
    exact (hretval a).symm.trans (hexact a)
  · exact fun hall => ⟨retval, rfl, fun a => (hretval a).trans (hall a)⟩

/-- Two instructions, of which the first is looked for. -/
def twoInsns : InsnBuffer := ⟨0x180000000, [0x52800120#32, 0xd503201f#32]⟩

def movW0 : List (Word × Word) := [(0x52800120#32, 0xffffffff#32)]

theorem placed_twoInsns : Placed twoInsns movW0 := ⟨by decide, by decide, by decide⟩

/-- A pattern at the first word is not found. -/
theorem findInsnMaskmatchMatch_first : ¬Exact twoInsns movW0 (findInsnMaskmatchMatch twoInsns movW0) := by
  rintro ⟨retval, hrun, hexact⟩
  obtain ⟨retval', hrun', hretval⟩ := findInsnMaskmatchMatch_eq placed_twoInsns
  obtain rfl := Option.some.inj (hrun.symm.trans hrun')
  have hfirst : IsMatch twoInsns.words movW0 0 := by
    refine isMatch_cons.mpr ⟨⟨_, rfl, rfl⟩, by decide, fun j insn mask hj => ?_⟩
    cases hj
  have honly : Only (IsMatch twoInsns.words movW0) 0 := by
    refine ⟨hfirst, fun j hj => ?_⟩
    obtain ⟨current, hcurrent, hword⟩ := (isMatch_cons.mp hj).1
    have hlast : j + 1 ≤ 2 := hj.1
    obtain rfl | rfl : j = 0 ∨ j = 1 := by omega
    · rfl
    · obtain rfl := Option.some.inj hcurrent
      exact absurd hword (by decide)
  obtain ⟨i, -, hi⟩ := (hretval _).mp ((hexact _).mpr ⟨0, rfl, honly⟩)
  obtain ⟨-, hone, hlt⟩ := interior_iff.mp hi.1
  have hlast : i + 1 < 2 := hlt
  omega

theorem findInsnMaskmatchMatch_exact_iff_twoInsns :
    Exact twoInsns movW0 (findInsnMaskmatchMatch twoInsns movW0) ↔
      EndsMakeNoDifference twoInsns movW0 :=
  findInsnMaskmatchMatch_exact_iff placed_twoInsns

end Jbinit.Universalhooks

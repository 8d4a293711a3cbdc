import Jbinit.Foundations.LittleEndian
import Jbinit.Foundations.Loops
import Jbinit.Foundations.Occurrences
import Mathlib.Algebra.Group.Nat.Defs

/-!
# `memmem` of fakedyld

Two searches, of which the lengths choose one: that of Boyer, Moore and Horspool goes ahead by the
distance of a byte from the end of the needle, the other one starts again behind each place that
fails. Both leave with the first place of the needle and read nothing outside of the buffers
(`memmem_isFirst`). The lengths and indices are values of `size_t`, and wrap around.
-/

namespace Jbinit.Fakedyld

open Foundations LittleEndian Loops Occurrences

/-! ## The searches -/

/-- The subtraction of `size_t`. -/
def sizeSub (m n : ℕ) : ℕ := (m + 2 ^ 64 - n) % 2 ^ 64

def sizeSucc (n : ℕ) : ℕ := (n + 1) % 2 ^ 64

/-- A buffer with a length that is a `size_t`. -/
structure Buffer where
  bytes : List Byte
  length_lt : bytes.length < 2 ^ 64

/-- What a search returns: a place of the haystack, or NULL. -/
inductive Found
  | outOfBounds
  | returned (place : Option ℕ)

/-- `bad_char_skip[needle[scan]] = last - scan`. -/
def setSkip (needle : List Byte) (skip : Byte → ℕ) (scan : ℕ) : Option (Byte → ℕ) :=
  needle[scan]?.map fun c => Function.update skip c (needle.length - 1 - scan)

/-- `bad_char_skip`, filled with the length of the needle, and then from its bytes but the last. -/
def badCharSkip (needle : List Byte) : Option (Byte → ℕ) :=
  (List.range (needle.length - 1)).foldlM (setSkip needle) fun _ => needle.length

/-- The inner loop, from `scan` down to the first byte: whether all bytes are equal. -/
def scanBack (hay needle : List Byte) (haystack : ℕ) : ℕ → Option Bool
  | 0 => do
    let a ← hay[haystack]?
    let b ← needle[0]?
    return a == b
  | scan + 1 => do
    let a ← hay[haystack + (scan + 1)]?
    let b ← needle[scan + 1]?
    if a = b then scanBack hay needle haystack scan else return false

/-- The variables of the outer loop. -/
structure Window where
  haystack : ℕ
  hlen : ℕ

def horspoolBody (hay needle : List Byte) (skip : Byte → ℕ) (w : Window) : Step Window Found :=
  let last := needle.length - 1
  if needle.length ≤ w.hlen then
    match scanBack hay needle w.haystack last, hay[w.haystack + last]? with
    | some true, _ => .done (.returned (some w.haystack))
    | some false, some c => .next ⟨w.haystack + skip c, sizeSub w.hlen (skip c)⟩
    | _, _ => .done .outOfBounds
  else .done (.returned none)

/-- `boyermoore_horspool_memmem`, for buffers that are not NULL. -/
def boyermooreHorspoolMemmem (fuel : ℕ) (hay needle : Buffer) : Option Found :=
  if needle.bytes.length = 0 then some (.returned none)
  else match badCharSkip needle.bytes with
    | none => some .outOfBounds
    | some skip => runLoop (horspoolBody hay.bytes needle.bytes skip) fuel ⟨0, hay.bytes.length⟩

/-- The variables of the other loop. -/
structure Scan where
  i : ℕ
  j : ℕ

def restartBody (hay needle : List Byte) (s : Scan) : Step Scan Found :=
  if s.i < hay.length then
    match hay[s.i]?, needle[s.j]? with
    | some a, some b =>
      if a = b then
        let j := sizeSucc s.j
        if j = needle.length then .done (.returned (some (s.i + 1 - needle.length)))
        else .next ⟨sizeSucc s.i, j⟩
      else .next ⟨sizeSucc (sizeSub s.i s.j), 0⟩
    | _, _ => .done .outOfBounds
  else .done (.returned none)

def restartMemmem (fuel : ℕ) (hay needle : Buffer) : Option Found :=
  runLoop (restartBody hay.bytes needle.bytes) fuel ⟨0, 0⟩

/-- `memmem`, with at most so many runs of the body of its loop. -/
def memmem (fuel : ℕ) (hay needle : Buffer) : Option Found :=
  if needle.bytes.length = 0 then some (.returned (some 0))
  else if hay.bytes.length < needle.bytes.length then some (.returned none)
  else if 4 ≤ needle.bytes.length ∧ 256 ≤ hay.bytes.length then
    boyermooreHorspoolMemmem fuel hay needle
  else restartMemmem fuel hay needle

theorem sizeSub_of_le {m n : ℕ} (hm : m < 2 ^ 64) (h : n ≤ m) : sizeSub m n = m - n := by
  have hsplit : m + 2 ^ 64 - n = m - n + 2 ^ 64 := by omega
  rw [sizeSub, hsplit, Nat.add_mod_right, Nat.mod_eq_of_lt (by omega)]

theorem sizeSucc_of_lt {n : ℕ} (h : n + 1 < 2 ^ 64) : sizeSucc n = n + 1 := Nat.mod_eq_of_lt h

/-! ## The skip table -/

section Skips

variable {needle : List Byte} {skip : Byte → ℕ}

/-- The table after the first `m` bytes: no entry is longer than the distance of its byte from the
last place, for the bytes that have been looked at. -/
structure Skips (needle : List Byte) (m : ℕ) (skip : Byte → ℕ) : Prop where
  pos : ∀ c, 1 ≤ skip c
  le : ∀ c, skip c ≤ needle.length
  absent : ∀ c, ∀ scan < m, needle.length - 1 - scan < skip c → needle[scan]? ≠ some c

theorem Skips.update {m : ℕ} (h : Skips needle m skip) (hm : m < needle.length - 1) {c : Byte}
    (hc : needle[m]? = some c) :
    Skips needle (m + 1) (Function.update skip c (needle.length - 1 - m)) where
  pos := by
    rw [Function.forall_update_iff skip fun _ n => 1 ≤ n]
    exact ⟨by omega, fun c' _ => h.pos c'⟩
  le := by
    rw [Function.forall_update_iff skip fun _ n => n ≤ needle.length]
    exact ⟨by omega, fun c' _ => h.le c'⟩
  absent c' scan hscan hlt := by
    by_cases heq : c' = c
    · -- The entry is the distance from the place `m`, so no place up to `m` is nearer.
      rw [heq, Function.update_self] at hlt
      omega
    · rw [Function.update_of_ne heq] at hlt
      rcases Nat.lt_succ_iff_lt_or_eq.mp hscan with hbefore | rfl
      · exact h.absent c' scan hbefore hlt
      · rw [hc]
        exact fun hsome => heq (Option.some.inj hsome).symm

/-- The table is made without a read outside of the needle. -/
theorem badCharSkip_spec (hne : needle ≠ []) :
    ∃ skip, badCharSkip needle = some skip ∧ Skips needle (needle.length - 1) skip := by
  have hlength := List.length_pos_of_ne_nil hne
  have hloop (m : ℕ) (hm : m ≤ needle.length - 1) : ∃ skip,
      (List.range m).foldlM (setSkip needle) (fun _ => needle.length) = some skip ∧
        Skips needle m skip := by
    induction m with
    | zero => exact ⟨_, rfl, fun _ => hlength, fun _ => Nat.le_refl _, fun _ scan h => by omega⟩
    | succ m ih =>
      obtain ⟨skip, hskip, hskips⟩ := ih (by omega)
      have hc : needle[m]? = some needle[m] := List.getElem?_eq_getElem (by omega)
      refine ⟨Function.update skip needle[m] (needle.length - 1 - m), ?_, hskips.update hm hc⟩
      rw [List.range_succ, List.foldlM_append, hskip, Option.bind_eq_bind, Option.bind_some,
        List.foldlM_cons, setSkip, hc]
      rfl
  exact hloop _ (Nat.le_refl _)

/-- **No occurrence is skipped.** -/
theorem Skips.not_occursAt {hay : List Byte} (h : Skips needle (needle.length - 1) skip)
    {i : ℕ} {c : Byte} (hc : hay[i + (needle.length - 1)]? = some c) {k : ℕ} (hpos : 1 ≤ k)
    (hk : k < skip c) : ¬OccursAt needle hay (i + k) := by
  have hle := h.le c
  have hne := h.absent c (needle.length - 1 - k) (by omega) (by omega)
  exact not_occursAt_of_shift (by omega) (by omega) hc hne

end Skips

/-! ## The searches are exact -/

section Exact

variable {hay needle : List Byte}

/-- The inner loop stays inside the buffers. -/
theorem scanBack_eq {haystack scan : ℕ} (hhay : haystack + scan < hay.length)
    (hneedle : scan < needle.length) : ∃ equal, scanBack hay needle haystack scan = some equal ∧
      (equal = true ↔ ∀ k ≤ scan, hay[haystack + k]? = needle[k]?) := by
  induction scan with
  | zero =>
    have ha : hay[haystack]? = some hay[haystack] := List.getElem?_eq_getElem hhay
    refine ⟨hay[haystack] == needle[0], by simp [scanBack, ha, hneedle], ?_⟩
    simp [List.getElem?_eq_getElem hneedle, ha]
  | succ scan ih =>
    obtain ⟨equal, hequal, hiff⟩ := ih (by omega) (by omega)
    have ha := List.getElem?_eq_getElem hhay
    have hb := List.getElem?_eq_getElem hneedle
    simp only [scanBack, ha, hb, Option.bind_eq_bind, Option.bind_some]
    by_cases heq : hay[haystack + (scan + 1)] = needle[scan + 1]
    · refine ⟨equal, by rw [if_pos heq]; exact hequal, hiff.trans ?_⟩
      constructor
      · intro hall k hk
        rcases Nat.le_succ_iff.mp hk with hk | rfl
        · exact hall k hk
        · rw [ha, hb, heq]
      · exact fun hall k hk => hall k (by omega)
    · refine ⟨false, by rw [if_neg heq]; rfl, iff_of_false (by simp) fun hall => ?_⟩
      have hlast := hall (scan + 1) (Nat.le_refl _)
      rw [ha, hb] at hlast
      exact heq (Option.some.inj hlast)

/-- A search has left with the first place. -/
def IsExact (hay needle : List Byte) (r : Found) : Prop :=
  ∃ place, r = .returned place ∧ IsFirst needle hay place

/-- The window is the rest of the haystack, and there is no occurrence before it. -/
structure WindowInv (hay needle : List Byte) (w : Window) : Prop where
  total : w.haystack + w.hlen = hay.length
  before : ∀ k < w.haystack, ¬OccursAt needle hay k

theorem horspoolBody_meets {skip : Byte → ℕ} (hlt : hay.length < 2 ^ 64) (hne : needle ≠ [])
    (hskip : Skips needle (needle.length - 1) skip) (w : Window) (hw : WindowInv hay needle w) :
    (horspoolBody hay needle skip w).Meets (WindowInv hay needle) Window.hlen (IsExact hay needle)
      w := by
  have hlength := List.length_pos_of_ne_nil hne
  have htotal := hw.total
  rw [horspoolBody]
  by_cases hfits : needle.length ≤ w.hlen
  · have hinside : w.haystack + (needle.length - 1) < hay.length := by omega
    have hscan : needle.length - 1 < needle.length := by omega
    obtain ⟨equal, hequal, hiff⟩ := scanBack_eq hinside hscan
    have hc : hay[w.haystack + (needle.length - 1)]? = some hay[w.haystack + (needle.length - 1)] :=
      List.getElem?_eq_getElem (by omega)
    have hoccurs : equal = true ↔ OccursAt needle hay w.haystack := by
      rw [hiff, occursAt_iff]
      constructor
      · exact fun hall => ⟨by omega, fun k hk => hall k (by omega)⟩
      · exact fun hall k hk => hall.2 k (by omega)
    simp only [if_pos hfits, hequal, hc]
    cases equal with
    | true => exact ⟨_, rfl, isFirst_some (hoccurs.mp rfl) hw.before⟩
    | false =>
      have hpos := hskip.pos hay[w.haystack + (needle.length - 1)]
      have hle := hskip.le hay[w.haystack + (needle.length - 1)]
      have hsub : sizeSub w.hlen (skip hay[w.haystack + (needle.length - 1)]) =
          w.hlen - skip hay[w.haystack + (needle.length - 1)] :=
        sizeSub_of_le (by omega) (by omega)
      refine ⟨⟨by dsimp only; omega, fun k hk => ?_⟩, by dsimp only; omega⟩
      dsimp only at hk
      rcases Nat.lt_trichotomy k w.haystack with hbefore | rfl | hbehind
      · exact hw.before k hbefore
      · exact fun h => absurd (hoccurs.mpr h) (by simp)
      · obtain ⟨d, rfl⟩ : ∃ d, k = w.haystack + d := ⟨k - w.haystack, by omega⟩
        exact hskip.not_occursAt hc (by omega) (by omega)
  · rw [if_neg hfits]
    exact ⟨none, rfl, isFirst_none_of_before hw.before (by omega)⟩

/-- The bytes from `i - j` on are the first `j` of the needle, and there is no occurrence before. -/
structure ScanInv (hay needle : List Byte) (s : Scan) : Prop where
  j_le : s.j ≤ s.i
  j_lt : s.j < needle.length
  i_le : s.i ≤ hay.length
  equal : ∀ k < s.j, hay[s.i - s.j + k]? = needle[k]?
  before : ∀ k < s.i - s.j, ¬OccursAt needle hay k

/-- What is left to read: all of the needle for each place behind this one, and the rest of it. -/
def Scan.left (hay needle : List Byte) (s : Scan) : ℕ :=
  (hay.length - (s.i - s.j)) * (needle.length + 1) + (needle.length - s.j)

section Step

variable {s : Scan}

/-- One more byte is equal. -/
theorem ScanInv.more (h : ScanInv hay needle s) (heq : hay[s.i]? = needle[s.j]?) :
    ∀ k < s.j + 1, hay[s.i - s.j + k]? = needle[k]? := by
  intro k hk
  rcases Nat.lt_succ_iff_lt_or_eq.mp hk with hk | rfl
  · exact h.equal k hk
  · rw [Nat.sub_add_cancel h.j_le, heq]

/-- The scan goes on at the next byte. -/
theorem ScanInv.advance (h : ScanInv hay needle s) (hin : s.i < hay.length)
    (heq : hay[s.i]? = needle[s.j]?) (hj : s.j + 1 < needle.length) :
    ScanInv hay needle ⟨s.i + 1, s.j + 1⟩ ∧
      Scan.left hay needle ⟨s.i + 1, s.j + 1⟩ < Scan.left hay needle s := by
  have hle := h.j_le
  have hplace : s.i + 1 - (s.j + 1) = s.i - s.j := by omega
  refine ⟨⟨Nat.succ_le_succ hle, hj, hin, ?_, ?_⟩, ?_⟩
  · dsimp only
    rw [hplace]
    exact h.more heq
  · dsimp only
    rw [hplace]
    exact h.before
  · simp only [Scan.left, hplace]
    omega

/-- The scan starts again behind the place at which it has started. -/
theorem ScanInv.restart (h : ScanInv hay needle s) (hin : s.i < hay.length)
    (hne : hay[s.i]? ≠ needle[s.j]?) : ScanInv hay needle ⟨s.i - s.j + 1, 0⟩ ∧
      Scan.left hay needle ⟨s.i - s.j + 1, 0⟩ < Scan.left hay needle s := by
  have hle := h.j_le
  have hlt := h.j_lt
  have hnot : ¬OccursAt needle hay (s.i - s.j) := by
    intro hoccurs
    have hat := (occursAt_iff.mp hoccurs).2 s.j hlt
    rw [Nat.sub_add_cancel hle] at hat
    exact hne hat
  refine ⟨⟨Nat.zero_le _, by dsimp only; omega, by dsimp only; omega,
    fun k hk => absurd hk (Nat.not_lt_zero k), fun k hk => ?_⟩, ?_⟩
  · dsimp only at hk
    rcases Nat.lt_succ_iff_lt_or_eq.mp hk with hk | rfl
    · exact h.before k hk
    · exact hnot
  · simp only [Scan.left, Nat.sub_zero]
    have hleft : hay.length - (s.i - s.j) = hay.length - (s.i - s.j + 1) + 1 := by omega
    rw [hleft, Nat.add_mul]
    omega

end Step

theorem restartBody_meets (hlt : hay.length < 2 ^ 64) (hneedle : needle.length < 2 ^ 64) (s : Scan)
    (hs : ScanInv hay needle s) :
    (restartBody hay needle s).Meets (ScanInv hay needle) (Scan.left hay needle)
      (IsExact hay needle) s := by
  have hji := hs.j_le
  have hj := hs.j_lt
  have hi := hs.i_le
  rw [restartBody]
  by_cases hin : s.i < hay.length
  · have ha : hay[s.i]? = some hay[s.i] := List.getElem?_eq_getElem hin
    have hb : needle[s.j]? = some needle[s.j] := List.getElem?_eq_getElem hj
    simp only [if_pos hin, ha, hb]
    by_cases heq : hay[s.i] = needle[s.j]
    · have hequal : hay[s.i]? = needle[s.j]? := by rw [ha, hb, heq]
      rw [if_pos heq, sizeSucc_of_lt (show s.j + 1 < 2 ^ 64 by omega)]
      by_cases hlast : s.j + 1 = needle.length
      · have hplace : s.i + 1 - needle.length = s.i - s.j := by omega
        rw [if_pos hlast, hplace]
        refine ⟨_, rfl, isFirst_some (occursAt_iff.mpr ⟨by omega, ?_⟩) hs.before⟩
        rw [← hlast]
        exact hs.more hequal
      · rw [if_neg hlast, sizeSucc_of_lt (show s.i + 1 < 2 ^ 64 by omega)]
        exact hs.advance hin hequal (by omega)
    · have hne : hay[s.i]? ≠ needle[s.j]? := by
        rw [ha, hb]
        exact fun hsome => heq (Option.some.inj hsome)
      have hback : sizeSucc (sizeSub s.i s.j) = s.i - s.j + 1 := by
        rw [sizeSub_of_le (by omega) hji, sizeSucc_of_lt (by omega)]
      rw [if_neg heq, hback]
      exact hs.restart hin hne
  · rw [if_neg hin]
    exact ⟨none, rfl, isFirst_none_of_before hs.before (by omega)⟩

end Exact

/-! ## The results -/

/-- A search leaves with a result, however many more runs of its loop are allowed. -/
def Returns (search : ℕ → Option Found) (place : Option ℕ) : Prop :=
  ∃ n, ∀ fuel, n ≤ fuel → search fuel = some (.returned place)

variable (hay needle : Buffer)

theorem boyermooreHorspoolMemmem_isFirst (hne : needle.bytes ≠ []) :
    ∃ place, IsFirst needle.bytes hay.bytes place ∧
      Returns (fun fuel => boyermooreHorspoolMemmem fuel hay needle) place := by
  obtain ⟨skip, hskip, hskips⟩ := badCharSkip_spec hne
  have hzero : needle.bytes.length ≠ 0 := List.length_pos_of_ne_nil hne |>.ne'
  have hstart : WindowInv hay.bytes needle.bytes ⟨0, hay.bytes.length⟩ :=
    ⟨Nat.zero_add _, fun k hk => absurd hk (Nat.not_lt_zero k)⟩
  obtain ⟨r, ⟨place, rfl, hfirst⟩, n, hn⟩ :=
    halts_of_variant (horspoolBody_meets hay.length_lt hne hskips) hstart
  refine ⟨place, hfirst, n, fun fuel hfuel => ?_⟩
  simp only [boyermooreHorspoolMemmem, if_neg hzero, hskip]
  exact hn fuel hfuel

theorem restartMemmem_isFirst (hne : needle.bytes ≠ []) :
    ∃ place, IsFirst needle.bytes hay.bytes place ∧
      Returns (fun fuel => restartMemmem fuel hay needle) place := by
  have hstart : ScanInv hay.bytes needle.bytes ⟨0, 0⟩ :=
    ⟨Nat.le_refl 0, List.length_pos_of_ne_nil hne, Nat.zero_le _,
      fun k hk => absurd hk (Nat.not_lt_zero k), fun k hk => absurd hk (Nat.not_lt_zero k)⟩
  obtain ⟨r, ⟨place, rfl, hfirst⟩, hhalts⟩ :=
    halts_of_variant (restartBody_meets hay.length_lt needle.length_lt) hstart
  exact ⟨place, hfirst, hhalts⟩

/-- **`memmem` is exact**, and so are both of its searches, so that they agree. -/
theorem memmem_isFirst (hne : needle.bytes ≠ []) :
    ∃ place, IsFirst needle.bytes hay.bytes place ∧
      Returns (fun fuel => memmem fuel hay needle) place ∧
      Returns (fun fuel => boyermooreHorspoolMemmem fuel hay needle) place ∧
      Returns (fun fuel => restartMemmem fuel hay needle) place := by
  obtain ⟨place, hfirst, hhorspool⟩ := boyermooreHorspoolMemmem_isFirst hay needle hne
  obtain ⟨place', hfirst', hrestart⟩ := restartMemmem_isFirst hay needle hne
  obtain rfl := hfirst.unique hfirst'
  refine ⟨place, hfirst, ?_, hhorspool, hrestart⟩
  have hzero : needle.bytes.length ≠ 0 := List.length_pos_of_ne_nil hne |>.ne'
  by_cases hshort : hay.bytes.length < needle.bytes.length
  · have hnone : place = none :=
      hfirst.unique (isFirst_none fun i => not_occursAt_of_length (by omega))
    refine ⟨0, fun fuel _ => ?_⟩
    simp only [memmem, if_neg hzero, if_pos hshort, hnone]
  · by_cases hlong : 4 ≤ needle.bytes.length ∧ 256 ≤ hay.bytes.length
    · obtain ⟨n, hn⟩ := hhorspool
      refine ⟨n, fun fuel hfuel => ?_⟩
      simp only [memmem, if_neg hzero, if_neg hshort, if_pos hlong]
      exact hn fuel hfuel
    · obtain ⟨n, hn⟩ := hrestart
      refine ⟨n, fun fuel hfuel => ?_⟩
      simp only [memmem, if_neg hzero, if_neg hshort, if_neg hlong]
      exact hn fuel hfuel

/-- A haystack of 300 bytes in which the string of `AMFI` is at the end. -/
def amfiHay : Buffer :=
  ⟨List.replicate 295 0x2e#8 ++ [0x41#8, 0x4d#8, 0x46#8, 0x49#8, 0#8], by
    rw [List.length_append, List.length_replicate]
    decide⟩

def amfiNeedle : Buffer := ⟨[0x41#8, 0x4d#8, 0x46#8, 0x49#8, 0#8], by decide⟩

theorem memmem_isFirst_amfi :
    ∃ place, IsFirst amfiNeedle.bytes amfiHay.bytes place ∧
      Returns (fun fuel => memmem fuel amfiHay amfiNeedle) place ∧
      Returns (fun fuel => boyermooreHorspoolMemmem fuel amfiHay amfiNeedle) place ∧
      Returns (fun fuel => restartMemmem fuel amfiHay amfiNeedle) place :=
  memmem_isFirst amfiHay amfiNeedle (by decide)

end Jbinit.Fakedyld

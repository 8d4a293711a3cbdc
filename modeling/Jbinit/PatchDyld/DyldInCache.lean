import Jbinit.PatchDyld.Follow
import Jbinit.PatchDyld.PlatformPatch

/-!
# The patch for dyld in the cache

`patch_dyld_in_cache_new` makes a call of `internalInstall` into a branch to where the cache is not
used, which is the target of a `cbz` after the pattern. It reads the offset of the `cbz` as 12 bits
without a sign, and follows the `adrp` before the pattern whether one is found or not. It does what
it should exactly when all that it follows is there and the offset fits (`redirectsCall_iff`).
-/

namespace Jbinit.PatchDyld

open Foundations Arm64 Words

def appleinternalSymbol : String := "__ZNK5dyld415SyscallDelegate15internalInstallEv"

/-- The words the callback is called for. -/
def matchesNew : List (Word × Word) :=
  [(0x7100c51f, 0xffffffff), (0x54000000, 0xff00001f), (0x7100c11f, 0xffffffff),
    (0x54000001, 0xff00001f)]

/-- `cbz w8`, from the last word of the pattern on. -/
def findCbz (m : Memory 32) (stream : ℕ) : Option ℕ :=
  pfFindNext m (stream + 3) 5 0x34000008 0xff00001f

/-- `adrp x1`, before the pattern. -/
def findAdrp (m : Memory 32) (stream : ℕ) : Option ℕ :=
  pfFindPrev m stream 10 0x90000001 0x9f00001f

/-- A `bl` before the `adrp`. -/
def findCallsite (m : Memory 32) (adrp : ℕ) : Option ℕ :=
  pfFindPrev m (adrp - 2) 5 0x94000000 0xfc000000

/-- Where the symbol for `internalInstall` is. -/
def appleinternal (m : Memory 32) (buf : ℕ) : Option ℕ :=
  (machoFindSymbol (bytes m) buf appleinternalSymbol).map fun symbol =>
    (BitVec.ofNat 64 buf + symbolOffset (bytes m) symbol).toNat

/-- `none` when a null pointer is followed. -/
def patchDyldInCacheNew (buf stream : ℕ) (s : Process) : Option (Bool × Process) :=
  let m := s.memory
  match appleinternal m buf with
  | none => some (false, s)
  | some appleinternal =>
  match findCbz m stream with
  | none => some (false, s)
  | some cbz =>
  let noCache := cbz + ((m cbz >>> 5) &&& 0xfff#32).toNat
  -- the first word of the reference is read
  match findAdrp m stream with
  | none => none
  | some adrp =>
  match pfFollowXref m buf adrp with
  | none => none
  | some env =>
  if env = null then some (false, s)
  else if strEq (bytes m) env (cbytes "DYLD_IN_CACHE") = false then some (false, s)
  else
  match findCallsite m adrp with
  | none => some (false, s)
  | some callsite =>
  match pfFollowBranch m buf callsite with
  | none => none
  | some target =>
  if target ≠ appleinternal then some (false, s)
  else
    let memory := Function.update m callsite (arm64Branch callsite noCache false)
    some (true, { s with memory, hasFoundDyldInCache := true })

/-- `dyld_in_cache_new`, which is never disabled. -/
def dyldInCacheNew (buf : ℕ) : PfPatch (Option Process) where
  words := matchesNew
  disabled := false
  callback stream s := (false, (s.bind (patchDyldInCacheNew buf stream)).map Prod.snd)

/-! ## The property -/

/-- The offset of a `cbz`, in words. -/
def cbzOffset (w : Word) : ℤ := (w.extractLsb' 5 19).toInt

/-- A `bl` to `internalInstall`, through a veneer if there is one. -/
structure CallsInternalInstall (m : Memory 32) (buf callsite : ℕ) : Prop where
  bl : ∃ offset, decodeBranch (m callsite) = some (true, offset)
  target : ∃ p, appleinternal m buf = some p ∧ pfFollowBranch m buf callsite = some p

/-- The callback changes nothing, or makes one call a branch to where the `cbz` goes. -/
def RedirectsCall (buf stream : ℕ) (s : Process) : Prop :=
  ∃ done s', patchDyldInCacheNew buf stream s = some (done, s') ∧
    (done = false ∧ s'.memory = s.memory ∨
      done = true ∧ ∃ cbz callsite b, findCbz s.memory stream = some cbz ∧
        CallsInternalInstall s.memory buf callsite ∧
        s'.memory = Function.update s.memory callsite b ∧
        decodeBranch b = some (false, cbz + cbzOffset (s.memory cbz) - callsite))

/-! ## The condition -/

/-- A call of `internalInstall` before an `adrp` for the variable, and the `cbz` after the
pattern. -/
structure Redirecting (m : Memory 32) (buf stream cbz callsite : ℕ) : Prop where
  cbz : findCbz m stream = some cbz
  reference : ∃ adrp env, findAdrp m stream = some adrp ∧ pfFollowXref m buf adrp = some env ∧
    env ≠ null ∧ strEq (bytes m) env (cbytes "DYLD_IN_CACHE") = true ∧
    findCallsite m adrp = some callsite
  calls : CallsInternalInstall m buf callsite

/-- The `adrp` and the sections that are used are there. -/
def NothingNull (m : Memory 32) (buf stream : ℕ) : Prop :=
  (appleinternal m buf).isSome = true → (findCbz m stream).isSome = true →
    ∃ adrp, findAdrp m stream = some adrp ∧ XrefInSection m buf adrp ∧
      ∀ env, pfFollowXref m buf adrp = some env → env ≠ null →
        strEq (bytes m) env (cbytes "DYLD_IN_CACHE") = true →
          ∀ callsite, findCallsite m adrp = some callsite → BranchInSection m buf callsite

/-- What is followed is there, and the `cbz` of a call that is redirected goes forward, by less than
4096 words. -/
structure Followable (m : Memory 32) (buf stream : ℕ) : Prop where
  nothingNull : NothingNull m buf stream
  short : ∀ cbz callsite, Redirecting m buf stream cbz callsite →
    0 ≤ cbzOffset (m cbz) ∧ cbzOffset (m cbz) < 4096

/-! ## The offset -/

variable {buf stream cbz callsite : ℕ} {m : Memory 32} {s : Process} {w : Word}

/-- How far from the `cbz` the branch goes. -/
theorem toNat_and_eq (w : Word) : ((w >>> 5) &&& 0xfff#32).toNat = w.toNat / 32 % 4096 := by
  rw [BitVec.toNat_and, BitVec.toNat_ushiftRight, Nat.shiftRight_eq_div_pow]
  exact Nat.and_two_pow_sub_one_eq_mod _ 12

/-- The low 12 bits are the offset when it is short. -/
theorem offset_eq_iff (w : Word) : (((w >>> 5) &&& 0xfff#32).toNat : ℤ) = cbzOffset w ↔
    0 ≤ cbzOffset w ∧ cbzOffset w < 4096 := by
  have hbits : (w.extractLsb' 5 19).toNat = w.toNat / 32 % 2 ^ 19 := by
    rw [BitVec.extractLsb'_toNat, Nat.shiftRight_eq_div_pow]
  rw [toNat_and_eq, cbzOffset, BitVec.toInt_eq_toNat_cond, hbits]
  split <;> omega

theorem decodeBranch_of_bl (h : pfMaskmatch32 w 0x94000000 0xfc000000 = true) :
    ∃ offset, decodeBranch w = some (true, offset) := by
  have hword : w &&& 0xfc000000#32 = 0x94000000#32 := beq_iff_eq.mp h
  have hopcode : w &&& 0x7c000000#32 = 0x14000000#32 := by
    have hmask : (0x7c000000#32) = 0xfc000000#32 &&& 0x7c000000#32 := by decide
    rw [hmask, ← BitVec.and_assoc, hword]
    decide
  have hmsb : w.msb = true := by
    have hbit := congrArg BitVec.msb hword
    have hmask : (0xfc000000#32).msb = true := by decide
    rw [BitVec.msb_and, hmask, Bool.and_true] at hbit
    exact hbit
  exact ⟨_, by rw [decodeBranch, if_pos hopcode, hmsb]⟩

/-- The places are near one another, so that every branch between them is in reach. -/
theorem decodeBranch_redirect {adrp : ℕ} (hcbz : findCbz m stream = some cbz)
    (hadrp : findAdrp m stream = some adrp) (hcallsite : findCallsite m adrp = some callsite) :
    decodeBranch (arm64Branch callsite (cbz + ((m cbz >>> 5) &&& 0xfff#32).toNat) false) =
      some (false, (cbz : ℤ) + ((m cbz >>> 5) &&& 0xfff#32).toNat - callsite) := by
  have hnext := (pfFindNext_eq_some hcbz).1
  have hprev := (pfFindPrev_eq_some hadrp).1
  have hprev' := (pfFindPrev_eq_some hcallsite).1
  have hoffset := toNat_and_eq (m cbz)
  have hlt : (m cbz).toNat / 32 % 4096 < 4096 := Nat.mod_lt _ (by decide)
  rw [decodeBranch_arm64Branch false (by omega), Nat.cast_add]

/-! ## The callback -/

theorem patchDyldInCacheNew_redirecting (h : Redirecting s.memory buf stream cbz callsite) :
    patchDyldInCacheNew buf stream s = some (true,
      { s with
        memory := Function.update s.memory callsite (arm64Branch callsite
          (cbz + ((s.memory cbz >>> 5) &&& 0xfff#32).toNat) false)
        hasFoundDyldInCache := true }) := by
  obtain ⟨adrp, env, hadrp, hxref, hnull, hname, hcallsite⟩ := h.reference
  obtain ⟨p, happle, hfollow⟩ := h.calls.target
  simp [patchDyldInCacheNew, happle, h.cbz, hadrp, hxref, hnull, hname, hcallsite, hfollow]

/-- Without a call to redirect, nothing is changed. -/
theorem patchDyldInCacheNew_eq {done : Bool} {s' : Process}
    (h : patchDyldInCacheNew buf stream s = some (done, s')) :
    done = false ∧ s' = s ∨ ∃ cbz callsite, Redirecting s.memory buf stream cbz callsite := by
  unfold patchDyldInCacheNew at h
  dsimp only at h
  split at h
  case h_1 => exact .inl (by simpa [eq_comm] using h)
  case h_2 p happle =>
  split at h
  case h_1 => exact .inl (by simpa [eq_comm] using h)
  case h_2 cbz hcbz =>
  split at h
  case h_1 => cases h
  case h_2 adrp hadrp =>
  split at h
  case h_1 => cases h
  case h_2 env hxref =>
  split at h
  case isTrue => exact .inl (by simpa [eq_comm] using h)
  case isFalse hnull =>
  split at h
  case isTrue => exact .inl (by simpa [eq_comm] using h)
  case isFalse hname =>
  split at h
  case h_1 => exact .inl (by simpa [eq_comm] using h)
  case h_2 callsite hcallsite =>
  split at h
  case h_1 => cases h
  case h_2 target hfollow =>
  split at h
  case isTrue => exact .inl (by simpa [eq_comm] using h)
  case isFalse htarget =>
  have hbl := decodeBranch_of_bl (pfFindPrev_eq_some hcallsite).2
  rw [not_not] at htarget
  exact .inr ⟨cbz, callsite, hcbz,
    ⟨adrp, env, hadrp, hxref, hnull, Bool.not_eq_false _ ▸ hname, hcallsite⟩,
    hbl, p, happle, htarget ▸ hfollow⟩

theorem patchDyldInCacheNew_isSome : (patchDyldInCacheNew buf stream s).isSome = true ↔
    NothingNull s.memory buf stream := by
  unfold patchDyldInCacheNew NothingNull
  dsimp only
  cases appleinternal s.memory buf with
  | none => simp
  | some p =>
  cases findCbz s.memory stream with
  | none => simp
  | some cbz =>
  cases findAdrp s.memory stream with
  | none => simp
  | some adrp =>
  simp only [Option.isSome_some, forall_const, Option.some.injEq, exists_eq_left',
    ← pfFollowXref_isSome]
  cases pfFollowXref s.memory buf adrp with
  | none => simp
  | some env =>
  by_cases hnull : env = null
  · simp [hnull]
  cases hname : strEq (bytes s.memory) env (cbytes "DYLD_IN_CACHE") with
  | false => simp [hnull, hname]
  | true =>
  cases findCallsite s.memory adrp with
  | none => simp [hnull]
  | some callsite =>
  simp only [← pfFollowBranch_isSome]
  cases hfollow : pfFollowBranch s.memory buf callsite with
  | none => simp [hnull, hname, hfollow]
  | some target =>
  by_cases htarget : target = p
  · simp [hnull, hname, hfollow, htarget]
  · simp [hnull, hname, hfollow, htarget]

/-- A redirected call goes where the `cbz` goes only if that is near. -/
theorem redirectsCall_redirecting (h : Redirecting s.memory buf stream cbz callsite) :
    RedirectsCall buf stream s ↔
      0 ≤ cbzOffset (s.memory cbz) ∧ cbzOffset (s.memory cbz) < 4096 := by
  obtain ⟨adrp, env, hadrp, -, -, -, hcallsite⟩ := h.reference
  have hrun := patchDyldInCacheNew_redirecting h
  have hdecode := decodeBranch_redirect h.cbz hadrp hcallsite
  rw [← offset_eq_iff]
  constructor
  · rintro ⟨done, s', hrun', ⟨rfl, -⟩ | ⟨rfl, cbz', callsite', b, hcbz, -, hmemory, hb⟩⟩
    · rw [hrun] at hrun'
      cases hrun'
    rw [hrun] at hrun'
    obtain rfl : cbz = cbz' := Option.some.inj (h.cbz.symm.trans hcbz)
    cases hrun'
    dsimp only at hmemory
    -- the word at the call is another, so that it is the one that is described
    have hsame : callsite = callsite' := by
      by_contra hne
      have hword := congrFun hmemory callsite
      rw [Function.update_self, Function.update_of_ne hne] at hword
      obtain ⟨offset, hbl⟩ := h.calls.bl
      rw [hword, hbl] at hdecode
      cases hdecode
    subst hsame
    have hword := congrFun hmemory callsite
    rw [Function.update_self, Function.update_self] at hword
    rw [hword, hb] at hdecode
    have hoffset := (Prod.mk.inj (Option.some.inj hdecode)).2
    omega
  · intro hoffset
    refine ⟨true, _, hrun, .inr ⟨rfl, cbz, callsite, _, h.cbz, h.calls, rfl, ?_⟩⟩
    rw [hdecode, hoffset]

/-- **When the callback redirects the call.** -/
theorem redirectsCall_iff (buf stream : ℕ) (s : Process) :
    RedirectsCall buf stream s ↔ Followable s.memory buf stream := by
  constructor
  · intro h
    have hsome : (patchDyldInCacheNew buf stream s).isSome = true := by
      obtain ⟨done, s', hrun, -⟩ := h
      rw [hrun]
      rfl
    exact ⟨patchDyldInCacheNew_isSome.mp hsome,
      fun cbz callsite hredirecting => (redirectsCall_redirecting hredirecting).mp h⟩
  · intro h
    obtain ⟨⟨done, s'⟩, hrun⟩ := Option.isSome_iff_exists.mp
      (patchDyldInCacheNew_isSome.mpr h.nothingNull)
    rcases patchDyldInCacheNew_eq hrun with ⟨hdone, rfl⟩ | ⟨cbz, callsite, hredirecting⟩
    · exact ⟨done, s', hrun, .inl ⟨hdone, rfl⟩⟩
    · exact (redirectsCall_redirecting hredirecting).mpr (h.short cbz callsite hredirecting)

/-- An image with a segment of one section and a symbol, at the second page. The words after the
name of the variable are code. -/
def cacheImage (adrp cbz : Word) : Memory 32 := fun i => if i < 0x400 then 0 else
  [0xfeedfacf, 0, 0, 0, 2, 0, 0, 0, 0x19, 0x98, 0, 0, 0, 0, 0, 0, 0x1000, 0, 0, 0, 0x1000, 0, 0,
    0, 1, 0, 0, 0, 0, 0, 0, 0, 0, 0, 0x20, 0, 0x800, 0, 0x20, 0, 0, 0, 0, 0, 0, 0, 2, 0x18, 0xd0,
    1, 0xe0, 0, 0, 0, 0x120, 0, 0x4e5a5f5f, 0x7964354b, 0x3134646c, 0x73795335, 0x6c6c6163,
    0x656c6544, 0x65746167, 0x6e693531, 0x6e726574, 0x6e496c61, 0x6c617473, 0x76456c, 0x444c5944,
    0x5f4e495f, 0x48434143, 0x45, 0xd65f03c0, 0x97ffffff, 0xd503201f, adrp, 0x91044021,
    0x7100c51f, 0x54000000, 0x7100c11f, 0x54000001, cbz].getD (i - 0x400) 0

/-- The call is redirected when the `cbz` goes to the next word. -/
example : (patchDyldInCacheNew 0x1000 0x44d (.fresh (cacheImage 0x90000001 0x34000028))).map
    (fun r => (r.1, decodeBranch (r.2.memory 0x449))) = some (true, some (false, 9)) := by
  decide +kernel

theorem redirecting_backward :
    Redirecting (cacheImage 0x90000001 0x34ffffe8) 0x1000 0x44d 0x451 0x449 where
  cbz := by decide
  reference :=
    ⟨0x44b, 0x1110, by decide, by decide +kernel, by decide, by decide +kernel, by decide⟩
  calls := ⟨⟨-1, by decide⟩, 0x1120, by decide +kernel, by decide +kernel⟩

/-- A `cbz` that goes backward. -/
theorem not_redirectsCall_backward : ¬∀ buf stream s,
    (dyldInCacheNew buf).matchesAt s.memory stream = true → RedirectsCall buf stream s := by
  intro hall
  have hmatches :
      (dyldInCacheNew 0x1000).matchesAt (cacheImage 0x90000001 0x34ffffe8) 0x44d = true := by
    decide
  have hredirects := hall _ _ (.fresh (cacheImage 0x90000001 0x34ffffe8)) hmatches
  have hoffset := (redirectsCall_redirecting redirecting_backward).mp hredirects
  exact absurd hoffset.1 (by decide)

end Jbinit.PatchDyld

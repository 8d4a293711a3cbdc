import Jbinit.Foundations.Arm64
import Jbinit.Foundations.Words

/-!
# The patchfinder

`pf_find_maskmatch32` goes through the words of a buffer and calls the callback of every patch whose
words are there; a callback can change what is found later. `pf_find_zero_buf` is such a search,
whose callback keeps the first place and disables the patch (`pfFindZeroBuf_eq`). It may find a
place that goes on after the end of the buffer. Buffers begin at word boundaries; their sizes are in
bytes.
-/

namespace Jbinit.PatchDyld

open Foundations Arm64 Words

def pfMaskmatch32 (insn word mask : Word) : Bool := insn &&& mask == word

/-- `struct pf_patch_t`, for callbacks that act on `σ`. A callback may disable its patch. -/
structure PfPatch (σ : Type) where
  /-- The words to match, each with its mask. -/
  words : List (Word × Word)
  disabled : Bool
  callback : ℕ → σ → Bool × σ

variable {σ : Type}

/-- The words of a patch are at an address. -/
def PfPatch.matchesAt (patch : PfPatch σ) (memory : Memory 32) (stream : ℕ) : Bool :=
  patch.words.zipIdx.all fun ⟨⟨word, mask⟩, x⟩ => pfMaskmatch32 (memory (stream + x)) word mask

def PfPatch.emitAt (read : σ → Memory 32) (stream : ℕ) (patch : PfPatch σ) (s : σ) :
    PfPatch σ × σ :=
  if patch.disabled then (patch, s)
  else if patch.matchesAt (read s) stream then
    let (disabled, s) := patch.callback stream s
    ({ patch with disabled }, s)
  else (patch, s)

def emitAll (read : σ → Memory 32) (stream : ℕ) : List (PfPatch σ) × σ → List (PfPatch σ) × σ
  | ([], s) => ([], s)
  | (patch :: patches, s) =>
    let (patch, s) := patch.emitAt read stream s
    let (patches, s) := emitAll read stream (patches, s)
    (patch :: patches, s)

def pfFindMaskmatch32 (read : σ → Memory 32) (buf size : ℕ) (patchset : List (PfPatch σ)) (s : σ) :
    σ :=
  ((List.range (size / 4)).foldl (fun acc i => emitAll read (buf + i) acc) (patchset, s)).2

/-- `pf_set_zero_buf`. -/
def pfSetZeroBuf (stream : ℕ) (_ : Option ℕ) : Bool × Option ℕ := (true, some stream)

def pfFindZeroBuf (memory : Memory 32) (buf size shcCount : ℕ) : Option ℕ :=
  pfFindMaskmatch32 (fun _ => memory) buf size
    [⟨List.replicate shcCount (0, 0xffffffff), false, pfSetZeroBuf⟩] none

/-- The instruction at `caller` that branches to `target`. -/
def arm64Branch (caller target : ℕ) (link : Bool) : Word :=
  let insn := if link then 0x14000000#32 ||| 1#32 <<< 31 else 0x14000000#32
  let offset := BitVec.ofInt 32 ((target : ℤ) - caller)
  insn ||| offset <<< 6 >>> 6

/-! ## The searches -/

/-- What a patch does to the state at a word, when it is not disabled. -/
def PfPatch.applyAt (read : σ → Memory 32) (stream : ℕ) (s : σ) (patch : PfPatch σ) : σ :=
  if patch.matchesAt (read s) stream then (patch.callback stream s).2 else s

theorem emitAll_eq {read : σ → Memory 32} {patchset : List (PfPatch σ)}
    (hdisabled : ∀ patch ∈ patchset, patch.disabled = false)
    (hcallback : ∀ patch ∈ patchset, ∀ a s, (patch.callback a s).1 = false) (stream : ℕ) (s : σ) :
    emitAll read stream (patchset, s) =
      (patchset, patchset.foldl (PfPatch.applyAt read stream) s) := by
  induction patchset generalizing s with
  | nil => rw [emitAll, List.foldl_nil]
  | cons patch patchset ih =>
    have hemit : patch.emitAt read stream s = (patch, patch.applyAt read stream s) := by
      have hsame : { patch with disabled := (patch.callback stream s).1 } = patch := by
        rw [hcallback patch (by simp), ← hdisabled patch (by simp)]
      rw [PfPatch.emitAt, hdisabled patch (by simp), PfPatch.applyAt, if_neg (by simp)]
      split
      · exact congrArg (·, _) hsame
      · rfl
    rw [emitAll, hemit, List.foldl_cons]
    dsimp only
    rw [ih (fun p hp => hdisabled p (by simp [hp]))
      (fun p hp => hcallback p (by simp [hp]))]

/-- Patches that no callback disables: a fold over the words. -/
theorem pfFindMaskmatch32_eq {read : σ → Memory 32} {patchset : List (PfPatch σ)}
    (hdisabled : ∀ patch ∈ patchset, patch.disabled = false)
    (hcallback : ∀ patch ∈ patchset, ∀ a s, (patch.callback a s).1 = false) (buf size : ℕ) (s : σ) :
    pfFindMaskmatch32 read buf size patchset s = (List.range (size / 4)).foldl (fun s i =>
      patchset.foldl (PfPatch.applyAt read (buf + i)) s) s := by
  unfold pfFindMaskmatch32
  generalize List.range (size / 4) = is
  induction is generalizing s with
  | nil => rfl
  | cons i is ih => rw [List.foldl_cons, List.foldl_cons, emitAll_eq hdisabled hcallback, ih]

/-- A single patch. -/
theorem pfFindMaskmatch32_single {read : σ → Memory 32} {patch : PfPatch σ}
    (hdisabled : patch.disabled = false) (hcallback : ∀ a s, (patch.callback a s).1 = false)
    (buf size : ℕ) (s : σ) : pfFindMaskmatch32 read buf size [patch] s =
      (List.range (size / 4)).foldl (fun s i =>
        if patch.matchesAt (read s) (buf + i) then (patch.callback (buf + i) s).2 else s) s :=
  pfFindMaskmatch32_eq (by simpa using hdisabled) (by simpa using hcallback) buf size s

theorem matchesAt_zero (memory : Memory 32) (n a : ℕ) :
    (PfPatch.mk (List.replicate n (0, 0xffffffff)) false pfSetZeroBuf).matchesAt memory a =
      isZero memory n a := by
  have hword (w : Word) : pfMaskmatch32 w 0 0xffffffff = true ↔ w = 0 := by
    have hmask : w &&& 0xffffffff = w := BitVec.and_allOnes
    rw [pfMaskmatch32, hmask, beq_iff_eq]
  rw [Bool.eq_iff_iff, isZero_iff, PfPatch.matchesAt, List.all_eq_true]
  constructor
  · intro h k hk
    refine (hword _).mp (h ((0, 0xffffffff), k) ?_)
    simp [List.mem_zipIdx_iff_getElem?, hk]
  · rintro h ⟨⟨word, mask⟩, k⟩ hmem
    obtain ⟨hk, hpair⟩ := by
      simpa [List.mem_zipIdx_iff_getElem?, List.getElem?_replicate] using hmem
    obtain ⟨rfl, rfl⟩ := hpair
    exact (hword _).mpr (h k hk)

/-- **The zero buffer**: the first place with as many zero words. -/
theorem pfFindZeroBuf_eq (memory : Memory 32) (buf size n : ℕ) :
    pfFindZeroBuf memory buf size n =
      ((List.range (size / 4)).find? fun i => isZero memory n (buf + i)).map (buf + ·) := by
  have hdisabled (is : List ℕ) (patch : PfPatch (Option ℕ)) (h : patch.disabled = true)
      (s : Option ℕ) : (is.foldl (fun acc i => emitAll (fun _ => memory) (buf + i) acc)
        ([patch], s)).2 = s := by
    induction is with
    | nil => rfl
    | cons i is ih =>
      have hemit : emitAll (fun _ => memory) (buf + i) ([patch], s) = ([patch], s) := by
        simp only [emitAll, PfPatch.emitAt, h, if_true]
      rw [List.foldl_cons, hemit, ih]
  unfold pfFindZeroBuf pfFindMaskmatch32
  generalize List.range (size / 4) = is
  induction is with
  | nil => rfl
  | cons i is ih =>
    rw [List.foldl_cons, List.find?_cons]
    cases hzero : isZero memory n (buf + i) with
    | true =>
      simp only [emitAll, PfPatch.emitAt, matchesAt_zero, hzero, Bool.false_eq_true, if_true,
        if_false, pfSetZeroBuf]
      exact hdisabled is _ rfl _
    | false =>
      simp only [emitAll, PfPatch.emitAt, matchesAt_zero, hzero, Bool.false_eq_true, if_false]
      exact ih

theorem opcode_arm64Branch (caller target : ℕ) (link : Bool) :
    arm64Branch caller target link &&& 0x7c000000#32 = 0x14000000#32 := by
  rw [arm64Branch, BitVec.and_or_distrib_right, imm_and, BitVec.or_zero]
  cases link <;> rfl

theorem decodeBranch_isSome_arm64Branch (caller target : ℕ) (link : Bool) :
    (decodeBranch (arm64Branch caller target link)).isSome = true := by
  rw [decodeBranch, if_pos (opcode_arm64Branch caller target link)]
  rfl

/-- **Where the branch goes**, when its target is in reach. -/
theorem decodeBranch_arm64Branch {caller target : ℕ} (link : Bool)
    (h : -2 ^ 25 ≤ (target : ℤ) - caller ∧ (target : ℤ) - caller < 2 ^ 25) :
    decodeBranch (arm64Branch caller target link) = some (link, (target : ℤ) - caller) := by
  have hmsb : (arm64Branch caller target link).msb = link := by
    rw [arm64Branch, BitVec.msb_or, msb_imm, Bool.or_false]
    cases link <;> rfl
  have himm : (arm64Branch caller target link).extractLsb' 0 26 =
      (BitVec.ofInt 32 ((target : ℤ) - caller)).extractLsb' 0 26 := by
    rw [arm64Branch, BitVec.extractLsb'_or, extract_imm]
    cases link <;> exact BitVec.zero_or
  rw [decodeBranch, if_pos (opcode_arm64Branch caller target link), hmsb, himm,
    toInt_extract_ofInt h.1 h.2]

end Jbinit.PatchDyld

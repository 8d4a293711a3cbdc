import Jbinit.Foundations.Arm64Extended
import Jbinit.PatchDyld.Follow
import Jbinit.PatchDyld.Layout

/-!
# What references stand for

`pf_follow_xref` looks at an `adrp` and the `add` after it, and not at their registers. In an image
that is laid out it returns the place of the address that the processor forms with them, exactly
when the `add` takes the register of the `adrp` and its immediate is not shifted
(`pfFollowXref_iff`).
-/

namespace Jbinit.PatchDyld

open Foundations Arm64 Words

variable {m : Memory 32} {buf stream : ℕ} {va : BitVec 64}

/-! ## Immediates -/

/-- The immediate of an `adrp`. -/
def adrpImm (adrp : Word) : BitVec 21 := adrp.extractLsb' 5 19 ++ adrp.extractLsb' 29 2

/-- The mask of the lowest bits. -/
theorem getLsbD_mask {n : ℕ} {x : BitVec 64} (h : x = (BitVec.allOnes n).setWidth 64) (hn : n ≤ 64)
    (i : ℕ) : x.getLsbD i = decide (i < n) := by
  rw [h, BitVec.getLsbD_setWidth, BitVec.getLsbD_allOnes, Bool.eq_iff_iff, Bool.and_eq_true,
    decide_eq_true_iff, decide_eq_true_iff]
  omega

theorem getLsbD_adrpBits (adrp : Word) (i : ℕ) :
    ((((adrp.setWidth 64 >>> 5) &&& 0x7ffff#64) <<< 2 |||
      (adrp.setWidth 64 >>> 29) &&& 0x3#64) <<< 12).getLsbD i =
        (decide (12 ≤ i) && (adrpImm adrp).getLsbD (i - 12)) := by
  have hhi : ∀ j, (0x7ffff#64).getLsbD j = decide (j < 19) := getLsbD_mask (by decide) (by decide)
  have hlo : ∀ j, (0x3#64).getLsbD j = decide (j < 2) := getLsbD_mask (by decide) (by decide)
  simp only [adrpImm, BitVec.getLsbD_shiftLeft, BitVec.getLsbD_or, BitVec.getLsbD_and,
    BitVec.getLsbD_ushiftRight, BitVec.getLsbD_setWidth, hhi, hlo, BitVec.getLsbD_append,
    BitVec.getLsbD_extractLsb']
  rw [Bool.eq_iff_iff]
  by_cases hlow : i - 12 < 2
  · grind
  · have hadd : 5 + (i - 12 - 2) = i - 12 - 2 + 5 := by omega
    simp only [hlow]
    grind

/-- **The offset of an `adrp`** is the one that the processor adds. -/
theorem pfAdrpOffset_eq {adrp : Word} (h : pfMaskmatch32 adrp 0x90000000 0x9f000000 = true) :
    pfAdrpOffset adrp = pageOffset (adrpImm adrp) := by
  have hbits := getLsbD_adrpBits adrp
  rw [pfAdrpOffset, if_pos h]
  dsimp only
  generalize (((adrp.setWidth 64 >>> 5) &&& 0x7ffff#64) <<< 2 |||
    (adrp.setWidth 64 >>> 29) &&& 0x3#64) <<< 12 = val at hbits ⊢
  unfold pageOffset pfSignextend64
  apply BitVec.eq_of_getLsbD_eq
  intro i hi
  simp only [BitVec.getLsbD_sshiftRight, BitVec.getLsbD_shiftLeft, BitVec.getLsbD_signExtend,
    BitVec.msb_eq_getLsbD_last, hbits]
  rw [Bool.eq_iff_iff]
  have hadd : 64 - 33 + i - (64 - 33) = i := by omega
  simp only [hadd]
  grind

/-! ## References -/

/-- The register that the address of a reference is for. -/
def xrefRegister (m : Memory 32) (stream : ℕ) : BitVec 5 := (m (stream + 1)).extractLsb' 0 5

/-- The processor forms an address with the two words of a reference at `va`, whatever its registers
are. -/
def Forms (m : Memory 32) (stream : ℕ) (va target : BitVec 64) : Prop :=
  ∀ (code : Code) (s : State), s.pc = va → code va = m stream → code (va + 4) = m (stream + 1) →
    ∃ s₁ s₂, stepExt code s = some s₁ ∧ stepExt code s₁ = some s₂ ∧
      s₂.getSp (xrefRegister m stream) = target

/-- The `add` is for the `adrp`. -/
structure Paired (m : Memory 32) (stream : ℕ) : Prop where
  register : (m stream).extractLsb' 0 5 = (m (stream + 1)).extractLsb' 5 5
  ne : (m stream).extractLsb' 0 5 ≠ 31#5
  unshifted : (m (stream + 1)).getLsbD 22 = true → (m (stream + 1)).extractLsb' 10 12 = 0

theorem decodeExt_adrp {w : Word} (h : pfMaskmatch32 w 0x90000000 0x9f000000 = true) :
    decodeExt w = some (.adrp (w.extractLsb' 0 5) (adrpImm w)) := by
  have hword : w &&& 0x9f000000#32 = 0x90000000#32 := beq_iff_eq.mp h
  rw [decodeExt, if_pos hword]
  rfl

/-- A word is of one kind. -/
theorem and_ne_of_and_eq {w mask mask' x y : Word} (h : w &&& mask = x)
    (hne : x &&& mask' ≠ y &&& mask) : w &&& mask' ≠ y := by
  rintro rfl
  apply hne
  rw [← h, BitVec.and_assoc, BitVec.and_assoc, BitVec.and_comm mask]

/-- What is known of some bits is known of fewer. -/
theorem and_of_and_eq {w mask mask' x : Word} (h : w &&& mask = x) (hsub : mask &&& mask' = mask') :
    w &&& mask' = x &&& mask' := by
  rw [← h, BitVec.and_assoc, hsub]

/-- A field of a word that is compared. -/
theorem extract_of_and_eq {w mask x : Word} {a n : ℕ} (h : w &&& mask = x)
    (hmask : mask.extractLsb' a n = BitVec.allOnes n) : w.extractLsb' a n = x.extractLsb' a n := by
  rw [← h, BitVec.extractLsb'_and, hmask, BitVec.and_allOnes]

theorem decodeExt_add {w : Word} (h : pfMaskmatch32 w 0x91000000 0xff800000 = true) :
    decodeExt w = some (.add (w.extractLsb' 0 5) (w.extractLsb' 5 5) (w.extractLsb' 10 12)
      (w.getLsbD 22)) := by
  have hword : w &&& 0xff800000#32 = 0x91000000#32 := beq_iff_eq.mp h
  rw [decodeExt, if_neg (and_ne_of_and_eq hword (by decide)), if_pos hword]

theorem setWidth_imm (w : Word) :
    ((w >>> 10) &&& 0xfff#32).setWidth 64 = (w.extractLsb' 10 12).setWidth 64 := by
  apply BitVec.eq_of_toNat_eq
  have hmask : (0xfff#32).toNat = 2 ^ 12 - 1 := rfl
  rw [BitVec.toNat_setWidth, BitVec.toNat_setWidth, BitVec.toNat_and, hmask,
    Nat.and_two_pow_sub_one_eq_mod, BitVec.toNat_ushiftRight, BitVec.extractLsb'_toNat]

theorem xrefAddr_eq (hxref : isXref m stream = true) (va : BitVec 64) :
    xrefAddr m stream va = page va + pageOffset (adrpImm (m stream)) +
      ((m (stream + 1)).extractLsb' 10 12).setWidth 64 := by
  have hadrp := (Bool.and_eq_true _ _ ▸ hxref).1
  rw [xrefAddr, pfAdrpOffset_eq hadrp, setWidth_imm]
  rfl

/-- What the two instructions do. -/
theorem step_xref (hxref : isXref m stream = true) {code : Code} {s : State} (hpc : s.pc = va)
    (hfirst : code va = m stream) (hsecond : code (va + 4) = m (stream + 1)) :
    ∃ s₁ s₂, stepExt code s = some s₁ ∧ stepExt code s₁ = some s₂ ∧
      s₂.getSp (xrefRegister m stream) =
        (if (m (stream + 1)).extractLsb' 5 5 = (m stream).extractLsb' 0 5 ∧
            (m stream).extractLsb' 0 5 ≠ 31#5 then page va + pageOffset (adrpImm (m stream))
          else s.getSp ((m (stream + 1)).extractLsb' 5 5)) +
          addOffset ((m (stream + 1)).extractLsb' 10 12) ((m (stream + 1)).getLsbD 22) := by
  obtain ⟨hadrp, hadd⟩ := Bool.and_eq_true_iff.mp hxref
  have hnext (s : State) (r : BitVec 5) (v : BitVec 64) : (s.set r v).next.pc = s.pc + 4 := by
    rw [next_pc, set_pc]
  refine ⟨_, _, stepExt_eq (hpc ▸ hfirst) (decodeExt_adrp hadrp),
    stepExt_eq ?_ (decodeExt_add hadd), ?_⟩
  · rw [ExtInstr.exec, hnext, hpc, hsecond]
  · rw [ExtInstr.exec, ExtInstr.exec, next_getSp, xrefRegister, getSp_setSp, next_getSp, getSp_set,
      hpc]

/-- A state in which every register has one value. -/
def constState (va a : BitVec 64) : State :=
  ⟨fun _ => a, a, va, ⟨false, false, false, false⟩, fun _ => 0⟩

theorem getSp_constState (va a : BitVec 64) (r : BitVec 5) : (constState va a).getSp r = a := by
  unfold State.getSp constState
  split <;> rfl

theorem forms_iff (hxref : isXref m stream = true) (va : BitVec 64) :
    Forms m stream va (xrefAddr m stream va) ↔ Paired m stream := by
  rw [xrefAddr_eq hxref]
  constructor
  · intro h
    have hne : va + 4 ≠ va := by
      intro heq
      have hzero : 4#64 = 0#64 := BitVec.add_right_eq_self.mp heq
      exact absurd hzero (by decide)
    -- the value of any other register shows in the result
    have hvalue (a : BitVec 64) : (if (m (stream + 1)).extractLsb' 5 5 =
        (m stream).extractLsb' 0 5 ∧ (m stream).extractLsb' 0 5 ≠ 31#5
          then page va + pageOffset (adrpImm (m stream)) else a) +
          addOffset ((m (stream + 1)).extractLsb' 10 12) ((m (stream + 1)).getLsbD 22) =
        page va + pageOffset (adrpImm (m stream)) +
          ((m (stream + 1)).extractLsb' 10 12).setWidth 64 := by
      let code : Code := fun b => if b = va then m stream else m (stream + 1)
      have hfirst : code va = m stream := if_pos rfl
      have hsecond : code (va + 4) = m (stream + 1) := if_neg hne
      obtain ⟨s₁, s₂, hs₁, hs₂, hform⟩ := h code (constState va a) rfl hfirst hsecond
      obtain ⟨t₁, t₂, ht₁, ht₂, hstep⟩ := step_xref hxref (s := constState va a) rfl hfirst hsecond
      rw [hs₁, Option.some.injEq] at ht₁
      rw [← ht₁, hs₂, Option.some.injEq] at ht₂
      rw [← ht₂, hform, getSp_constState] at hstep
      exact hstep.symm
    by_cases hpair : (m (stream + 1)).extractLsb' 5 5 = (m stream).extractLsb' 0 5 ∧
        (m stream).extractLsb' 0 5 ≠ 31#5
    · have hoffset := hvalue 0
      rw [if_pos hpair, BitVec.add_right_inj] at hoffset
      exact ⟨hpair.1.symm, hpair.2, (addOffset_eq_iff _ _).mp hoffset⟩
    · have hzero := hvalue 0
      have hone := hvalue 1
      rw [if_neg hpair] at hzero hone
      exact absurd (BitVec.add_left_inj _ |>.mp (hzero.trans hone.symm)) (by decide)
  · intro h code s hpc hfirst hsecond
    obtain ⟨s₁, s₂, hs₁, hs₂, hstep⟩ := step_xref hxref hpc hfirst hsecond
    refine ⟨s₁, s₂, hs₁, hs₂, ?_⟩
    rw [hstep, if_pos ⟨h.register.symm, h.ne⟩, (addOffset_eq_iff _ _).mpr h.unshifted]

/-- Every address of a section has a place. -/
theorem InSection.exists_place {m : Memory 8} (h : LaidOut m buf) (hin : InSection m buf va) :
    ∃ ptr, machoVaToPtr m buf va = some ptr := by
  obtain ⟨segment, hsegment, sect, hsect, hfilled, hhas⟩ := hin
  exact ⟨_, machoVaToPtr_of_has h hsegment hsect hfilled hhas⟩

/-- **What a reference stands for**: the place is that of the address the processor forms, exactly
when the `add` is for the `adrp`. -/
theorem pfFollowXref_iff (h : LaidOut (bytes m) buf) (hxref : isXref m stream = true)
    (hva : machoPtrToVa (bytes m) buf (4 * stream) = some va)
    (hin : InSection (bytes m) buf (xrefAddr m stream va)) :
    ∃ ptr, pfFollowXref m buf stream = some ptr ∧
      ((∃ target, Forms m stream va target ∧ machoPtrToVa (bytes m) buf ptr = some target) ↔
        Paired m stream) := by
  obtain ⟨ptr, hptr⟩ := hin.exists_place h
  refine ⟨ptr, ?_, ?_⟩
  · rw [pfFollowXref, if_pos hxref, hva, Option.bind_some, hptr]
  · rw [← forms_iff hxref va]
    have hback := (machoPtrToVa_of_machoVaToPtr h hin hptr).2
    constructor
    · rintro ⟨target, hforms, htarget⟩
      rw [hback, Option.some.injEq] at htarget
      rwa [htarget]
    · exact fun hforms => ⟨_, hforms, hback⟩

theorem pfFollowXref_iff_small :
    ∃ ptr, pfFollowXref smallImage 0x4000 0x1080 = some ptr ∧
      ((∃ target, Forms smallImage 0x1080 0x10200 target ∧
          machoPtrToVa (bytes smallImage) 0x4000 ptr = some target) ↔ Paired smallImage 0x1080) :=
  pfFollowXref_iff smallImage_laidOut (by decide +kernel) (by decide +kernel)
    (by decide +kernel)

end Jbinit.PatchDyld

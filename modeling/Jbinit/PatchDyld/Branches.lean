import Jbinit.PatchDyld.References

/-!
# Where branches go

In an image that is mapped as it is in the file, `pf_follow_branch` returns the place that the
processor comes to by a `b` or `bl`, and by the veneer that is there (`pfFollowBranch_goes`). The
offset of a conditional branch is read from the wrong bits (`pfFollowBranch_bCond_iff`).
-/

namespace Jbinit.PatchDyld

open Foundations Arm64 Words

variable {m : Memory 32} {buf base stream : ℕ} {va : BitVec 64}

/-! ## Images that are mapped -/

/-- The image is linked at `base`, and its bytes are as far from it as from the beginning of the
file. -/
structure Mapped (m : Memory 32) (buf base : ℕ) : Prop where
  laidOut : LaidOut (bytes m) buf
  uniform : ∀ segment ∈ segments (bytes m) buf,
    (segmentVa (bytes m) segment).start + buf = base + (segmentFile (bytes m) buf segment).start
  /-- It begins with a page. -/
  aligned : base % 2 ^ 12 = 0

/-- The processor runs the image: its code and its data are where they are linked. -/
structure InMemory (m : Memory 32) (buf : ℕ) (code : Code) (memory : Bytes) : Prop where
  code : ∀ a va, 4 * a < 2 ^ 64 → machoPtrToVa (bytes m) buf (4 * a) = some va → code va = m a
  data : ∀ ptr va, ptr < 2 ^ 64 → machoPtrToVa (bytes m) buf ptr = some va →
    memory va = bytes m ptr

/-- A number of bytes from an address on are in sections. -/
structure RunIn (m : Memory 8) (buf : ℕ) (va : BitVec 64) (n : ℕ) : Prop where
  fits : va.toNat + n ≤ 2 ^ 64
  inSection : ∀ k < n, InSection m buf (va + BitVec.ofNat 64 k)

/-- The address of a byte. -/
theorem Mapped.va_eq (h : Mapped m buf base) {ptr : ℕ} (hlt : ptr < 2 ^ 64)
    (hva : machoPtrToVa (bytes m) buf ptr = some va) : va.toNat + buf = base + ptr := by
  obtain ⟨⟨segment, hsegment, sect, hsect, hfilled, hhas⟩, hplace⟩ :=
    machoVaToPtr_of_machoPtrToVa h.laidOut hlt hva
  rw [machoVaToPtr_of_has h.laidOut hsegment hsect hfilled hhas, Option.some.injEq] at hplace
  have huniform := h.uniform segment hsegment
  have hplaced := h.laidOut.placed segment hsegment sect hsect
  have hoffset := hplaced.offset hfilled
  have hva := hplaced.va.1
  have hfile := (hplaced.file hfilled).1
  have hle := hhas.1
  omega

/-- The bytes of a run are one behind the other. -/
theorem Mapped.run (h : Mapped m buf base) {n : ℕ} (hrun : RunIn (bytes m) buf va n) {ptr : ℕ}
    (hlt : ptr < 2 ^ 64) (hva : machoPtrToVa (bytes m) buf ptr = some va) {k : ℕ} (hk : k < n) :
    ptr + k < 2 ^ 64 ∧ machoPtrToVa (bytes m) buf (ptr + k) = some (va + BitVec.ofNat 64 k) := by
  have hfits := hrun.fits
  have hin := hrun.inSection k hk
  obtain ⟨p, hp⟩ := hin.exists_place h.laidOut
  obtain ⟨hplt, hback⟩ := machoPtrToVa_of_machoVaToPtr h.laidOut hin hp
  have hfirst := h.va_eq hlt hva
  have hthere := h.va_eq hplt hback
  rw [BitVec.toNat_add, BitVec.toNat_ofNat] at hthere
  obtain rfl : p = ptr + k := by omega
  exact ⟨hplt, hback⟩

/-! ## Targets -/

theorem toInt_pfSignextend32 (w : Word) {n : ℕ} (hpos : 0 < n) (hn : n ≤ 32) :
    (pfSignextend32 w n).toInt = (w.extractLsb' 0 n).toInt := by
  have hextend : pfSignextend32 w n = (w.extractLsb' 0 n).signExtend 32 := by
    unfold pfSignextend32
    apply BitVec.eq_of_getLsbD_eq
    intro i hi
    simp only [BitVec.getLsbD_sshiftRight, BitVec.getLsbD_shiftLeft, BitVec.getLsbD_signExtend,
      BitVec.msb_eq_getLsbD_last, BitVec.getLsbD_extractLsb']
    rw [Bool.eq_iff_iff]
    have hadd : 32 - n + i - (32 - n) = i := by omega
    have hlast : 32 - 1 - (32 - n) = n - 1 := by omega
    simp only [hadd, hlast, Nat.zero_add]
    grind
  rw [hextend, BitVec.toInt_signExtend_of_le hn]

/-- Where a branch goes, with its offset. -/
def branchVa (va : BitVec 64) (offset : ℤ) : BitVec 64 := va + BitVec.ofInt 64 (4 * offset)

theorem branchImm_of_decodeBranch {w : Word} {link : Bool} {offset : ℤ}
    (h : decodeBranch w = some (link, offset)) :
    branchImm w = some 26 ∧ (w.extractLsb' 0 26).toInt = offset := by
  unfold decodeBranch at h
  split at h
  case isTrue hword =>
    simp only [Option.some.injEq, Prod.mk.injEq] at h
    have hcond : pfMaskmatch32 w 0x54000000 0xff000010 = false := by
      rw [pfMaskmatch32, beq_eq_false_iff_ne]
      exact and_ne_of_and_eq hword (by decide)
    have hbranch : pfMaskmatch32 w 0x14000000 0x7c000000 = true := beq_iff_eq.mpr hword
    rw [branchImm, hcond, hbranch]
    exact ⟨rfl, h.2⟩
  case isFalse => cases h

/-- The word that the branch goes to is the one at its address. -/
theorem Mapped.target (h : Mapped m buf base) (hlt : 4 * stream < 2 ^ 64)
    (hva : machoPtrToVa (bytes m) buf (4 * stream) = some va) {imm : ℕ} (hpos : 0 < imm)
    (himm : imm ≤ 32) {offset : ℤ} (hoffset : ((m stream).extractLsb' 0 imm).toInt = offset)
    (hin : InSection (bytes m) buf (branchVa va offset)) :
    4 * branchTarget m stream imm < 2 ^ 64 ∧
      machoPtrToVa (bytes m) buf (4 * branchTarget m stream imm) = some (branchVa va offset) := by
  obtain ⟨p, hp⟩ := hin.exists_place h.laidOut
  obtain ⟨hplt, hback⟩ := machoPtrToVa_of_machoVaToPtr h.laidOut hin hp
  have hfirst := h.va_eq hlt hva
  have hthere := h.va_eq hplt hback
  have htarget : 4 * branchTarget m stream imm = p := by
    rw [branchVa, BitVec.toNat_add, BitVec.toNat_ofInt] at hthere
    rw [branchTarget, toInt_pfSignextend32 _ hpos himm, hoffset, BitVec.toNat_add,
      BitVec.toNat_ofNat, BitVec.toNat_ofInt]
    omega
  rw [htarget]
  exact ⟨hplt, hback⟩

/-! ## Veneers -/

theorem toNat_page (a : BitVec 64) : (page a).toNat = a.toNat / 2 ^ 12 * 2 ^ 12 := by
  have hmask : ∀ j, (0xfff#64).getLsbD j = decide (j < 12) := getLsbD_mask (by decide) (by decide)
  have hshift : page a = a >>> 12 <<< 12 := by
    apply BitVec.eq_of_getLsbD_eq
    intro i hi
    rw [page, BitVec.getLsbD_and, BitVec.getLsbD_not, hmask, BitVec.getLsbD_shiftLeft,
      BitVec.getLsbD_ushiftRight]
    grind
  have hlt := a.isLt
  rw [hshift, BitVec.toNat_shiftLeft, BitVec.toNat_ushiftRight, Nat.shiftRight_eq_div_pow,
    Nat.shiftLeft_eq]
  omega

/-- Where a veneer at an address has its target. -/
def veneerSlot (m : Memory 32) (stream : ℕ) (va : BitVec 64) : BitVec 64 :=
  page va + pageOffset (adrpImm (m stream)) + dwordOffset ((m (stream + 1)).extractLsb' 10 12)

theorem decodeExt_ldr {w : Word} (h : w &&& 0xffc00000#32 = 0xf9400000#32) : decodeExt w =
    some (.ldr (w.extractLsb' 0 5) (w.extractLsb' 5 5) (w.extractLsb' 10 12)) := by
  rw [decodeExt, if_neg (and_ne_of_and_eq h (by decide)), if_neg (and_ne_of_and_eq h (by decide)),
    if_pos h]

theorem adrp_of_isVeneer (h : isVeneer m stream = true) :
    pfMaskmatch32 (m stream) 0x90000000 0x9f000000 = true := by
  simp only [isVeneer, Bool.and_eq_true, pfMaskmatch32, beq_iff_eq] at h
  exact beq_iff_eq.mpr (and_of_and_eq h.1.1 (by decide))

theorem veneer_words (h : isVeneer m stream = true) :
    decodeExt (m stream) = some (.adrp 16#5 (adrpImm (m stream))) ∧
      decodeExt (m (stream + 1)) = some (.ldr 16#5 16#5 ((m (stream + 1)).extractLsb' 10 12)) ∧
      decodeExt (m (stream + 2)) = none ∧ decode (m (stream + 2)) = some (.br false 16#5) := by
  have hopcode := adrp_of_isVeneer h
  simp only [isVeneer, Bool.and_eq_true, pfMaskmatch32, beq_iff_eq] at h
  obtain ⟨⟨hadrp, hldr⟩, hbr⟩ := h
  have hword : m (stream + 2) = 0xd61f0200#32 := BitVec.and_allOnes.symm.trans hbr
  have hrd : (m stream).extractLsb' 0 5 = 16#5 := extract_of_and_eq hadrp (by decide)
  have hrt : (m (stream + 1)).extractLsb' 0 5 = 16#5 := extract_of_and_eq hldr (by decide)
  have hrn : (m (stream + 1)).extractLsb' 5 5 = 16#5 := extract_of_and_eq hldr (by decide)
  refine ⟨?_, ?_, ?_, ?_⟩
  · rw [decodeExt_adrp hopcode, hrd]
  · rw [decodeExt_ldr (and_of_and_eq hldr (by decide)), hrt, hrn]
  · rw [hword]
    decide
  · rw [hword]
    decide

/-- The three instructions of a veneer take the processor to the address in its slot. -/
theorem veneer_reaches (h : isVeneer m stream = true) {code : Code} {s : State} (hpc : s.pc = va)
    (hcode : code va = m stream) (hcode₁ : code (va + 4) = m (stream + 1))
    (hcode₂ : code (va + 8) = m (stream + 2)) :
    ∃ s', runExt code 3 s = some s' ∧ s'.pc = load64 s.memory (veneerSlot m stream va) := by
  obtain ⟨hadrp, hldr, hnone, hbr⟩ := veneer_words h
  subst hpc
  have hfour : s.pc + 4 + 4 = s.pc + 8 := by
    rw [BitVec.add_assoc]
    rfl
  have hstep := stepExt_eq hcode hadrp
  have hstep₁ : stepExt code ((ExtInstr.adrp 16#5 (adrpImm (m stream))).exec s) = _ :=
    stepExt_eq (by rw [ExtInstr.exec, next_pc, set_pc, hcode₁]) hldr
  have hstep₂ : stepExt code ((ExtInstr.ldr 16#5 16#5 ((m (stream + 1)).extractLsb' 10 12)).exec
      ((ExtInstr.adrp 16#5 (adrpImm (m stream))).exec s)) = _ :=
    stepExt_of_decode (by
      rw [ExtInstr.exec, ExtInstr.exec, next_pc, set_pc, next_pc, set_pc, hfour, hcode₂]) hnone hbr
  refine ⟨_, by rw [runExt_succ hstep, runExt_succ hstep₁, runExt_succ hstep₂, runExt], ?_⟩
  · simp only [Instr.exec, ExtInstr.exec, State.link]
    rw [next_get, get_set, if_pos ⟨rfl, by decide⟩, next_memory, set_memory, next_getSp, getSp_set,
      if_pos ⟨rfl, by decide⟩, veneerSlot]

/-- The place of the page of a veneer. -/
def streamPage (buf stream : ℕ) : BitVec 64 :=
  let bufOffset := BitVec.ofNat 64 buf &&& 0xfff#64
  page (BitVec.ofNat 64 (4 * stream) - bufOffset) + bufOffset

/-- Pages are counted from the beginning of the image. -/
theorem Mapped.toNat_streamPage (h : Mapped m buf base) (hlt : 4 * stream < 2 ^ 64)
    (hbuf : buf ≤ 4 * stream) (hva : va.toNat + buf = base + 4 * stream) :
    (streamPage buf stream).toNat + base = (page va).toNat + buf := by
  have hmask : (0xfff#64).toNat = 2 ^ 12 - 1 := rfl
  have haligned := h.aligned
  have hoffset : (BitVec.ofNat 64 buf &&& 0xfff#64).toNat = buf % 2 ^ 12 := by
    rw [BitVec.toNat_and, hmask, Nat.and_two_pow_sub_one_eq_mod, BitVec.toNat_ofNat]
    omega
  have hsub : (BitVec.ofNat 64 (4 * stream) - (BitVec.ofNat 64 buf &&& 0xfff#64)).toNat =
      4 * stream - buf % 2 ^ 12 := by
    rw [BitVec.toNat_sub, hoffset, BitVec.toNat_ofNat]
    omega
  rw [streamPage, BitVec.toNat_add, toNat_page, hsub, hoffset, toNat_page]
  omega

/-- A double word, in the image and in memory. -/
theorem load64_eq_u64 {bytes : Memory 8} {memory : Arm64.Bytes} {p : ℕ} {a : BitVec 64}
    (h : ∀ k < 8, memory (a + BitVec.ofNat 64 k) = bytes (p + k)) :
    load64 memory a = u64 bytes p := by
  have hfirst : memory a = bytes p := by simpa using h 0 (by decide)
  have hbyte (k : BitVec 64) (hk : k.toNat < 8) : memory (a + k) = bytes (p + k.toNat) := by
    rw [← h k.toNat hk, BitVec.ofNat_toNat, BitVec.setWidth_eq]
  rw [load64, hbyte 7#64 (by decide), hbyte 6#64 (by decide), hbyte 5#64 (by decide),
    hbyte 4#64 (by decide), hbyte 3#64 (by decide), hbyte 2#64 (by decide), hbyte 1#64 (by decide),
    hfirst]
  apply BitVec.eq_of_getLsbD_eq
  intro i hi
  simp only [u64, u32, BitVec.getLsbD_append]
  interval_cases i <;> rfl

theorem setWidth_dwordOffset (w : Word) :
    (((w >>> 10) &&& 0xfff#32) <<< 3).setWidth 64 = dwordOffset (w.extractLsb' 10 12) := by
  have himm := congrArg BitVec.toNat (setWidth_imm w)
  have hlt := (w.extractLsb' 10 12).isLt
  rw [BitVec.toNat_setWidth, BitVec.toNat_setWidth] at himm
  apply BitVec.eq_of_toNat_eq
  rw [dwordOffset, BitVec.toNat_setWidth, BitVec.toNat_shiftLeft, BitVec.toNat_shiftLeft,
    BitVec.toNat_setWidth, Nat.shiftLeft_eq, Nat.shiftLeft_eq]
  omega

/-- What `pf_follow_veneer` reads is what the processor loads. -/
theorem Mapped.veneerAddr_eq (h : Mapped m buf base) (hveneer : isVeneer m stream = true)
    (hlt : 4 * stream < 2 ^ 64) (hva : machoPtrToVa (bytes m) buf (4 * stream) = some va)
    (hslot : RunIn (bytes m) buf (veneerSlot m stream va) 8) {code : Code} {memory : Bytes}
    (hmem : InMemory m buf code memory) :
    veneerAddr m buf stream = load64 memory (veneerSlot m stream va) := by
  have hin := hslot.inSection 0 (by decide)
  rw [BitVec.add_zero] at hin
  obtain ⟨p, hp⟩ := hin.exists_place h.laidOut
  obtain ⟨hplt, hback⟩ := machoPtrToVa_of_machoVaToPtr h.laidOut hin hp
  -- the place of the slot is as far from the page as in memory
  have hplace : ((streamPage buf stream + pfAdrpOffset (m stream)) +
      (((m (stream + 1) >>> 10) &&& 0xfff#32) <<< 3).setWidth 64).toNat = p := by
    have hpage := h.toNat_streamPage hlt (lt_of_machoPtrToVa h.laidOut hlt hva).le (h.va_eq hlt hva)
    have hthere := h.va_eq hplt hback
    rw [veneerSlot, BitVec.toNat_add, BitVec.toNat_add] at hthere
    rw [BitVec.toNat_add, BitVec.toNat_add, pfAdrpOffset_eq (adrp_of_isVeneer hveneer),
      setWidth_dwordOffset]
    omega
  have hload : load64 memory (veneerSlot m stream va) = u64 (bytes m) p := by
    refine load64_eq_u64 fun k hk => ?_
    obtain ⟨hlt, hbyte⟩ := h.run hslot hplt hback hk
    exact hmem.data _ _ hlt hbyte
  rw [hload, ← hplace]
  rfl

/-! ## Branches -/

/-- The veneer at an address is in the image, with what it loads. -/
structure VeneerIn (m : Memory 32) (buf stream : ℕ) (va : BitVec 64) : Prop where
  words : RunIn (bytes m) buf va 12
  slot : RunIn (bytes m) buf (veneerSlot m stream va) 8
  target : InSection (bytes m) buf (veneerAddr m buf stream)

theorem decodeExt_of_decodeBranch {w : Word} {link : Bool} {offset : ℤ}
    (h : decodeBranch w = some (link, offset)) : decodeExt w = none := by
  unfold decodeBranch at h
  split at h
  case isTrue hword =>
    have hnop : w ≠ 0xd503201f#32 := by
      rintro rfl
      exact absurd hword (by decide)
    rw [decodeExt, if_neg (and_ne_of_and_eq hword (by decide)),
      if_neg (and_ne_of_and_eq hword (by decide)), if_neg (and_ne_of_and_eq hword (by decide)),
      if_neg (and_ne_of_and_eq hword (by decide)), if_neg (and_ne_of_and_eq hword (by decide)),
      if_neg (and_ne_of_and_eq hword (by decide)), if_neg hnop]
  case isFalse => cases h

theorem pfFollowVeneer_reaches (h : Mapped m buf base) (hlt : 4 * stream < 2 ^ 64)
    (hva : machoPtrToVa (bytes m) buf (4 * stream) = some va)
    (hveneer : isVeneer m stream = true → VeneerIn m buf stream va) {code : Code} {s : State}
    (hpc : s.pc = va) (hmem : InMemory m buf code s.memory) :
    ∃ s', runExt code (if isVeneer m stream then 3 else 0) s = some s' ∧
      ∃ ptr, pfFollowVeneer m buf stream = some ptr ∧
      machoPtrToVa (bytes m) buf ptr = some s'.pc := by
  by_cases his : isVeneer m stream = true
  · obtain ⟨hwords, hslot, hin⟩ := hveneer his
    have hcode (k : ℕ) (hk : k < 3) :
        code (va + BitVec.ofNat 64 (4 * k)) = m (stream + k) := by
      obtain ⟨hklt, hkva⟩ := h.run hwords hlt hva (k := 4 * k) (by omega)
      rw [← Nat.mul_add] at hklt hkva
      exact hmem.code _ _ hklt hkva
    obtain ⟨s', hrun, hpc'⟩ := veneer_reaches his hpc (hmem.code _ _ hlt hva)
      (hcode 1 (by decide)) (hcode 2 (by decide))
    rw [← h.veneerAddr_eq his hlt hva hslot hmem] at hpc'
    obtain ⟨ptr, hptr⟩ := hin.exists_place h.laidOut
    obtain ⟨hptrlt, hback⟩ := machoPtrToVa_of_machoVaToPtr h.laidOut hin hptr
    have hlow := lt_of_machoPtrToVa h.laidOut hptrlt hback
    have hne : ptr ≠ null := Nat.ne_of_gt (Nat.zero_lt_of_lt hlow)
    refine ⟨s', by rwa [if_pos his], ptr, ?_, ?_⟩
    · rw [pfFollowVeneer, if_pos his, hptr, Option.map_some, if_neg hne]
    · rw [hback, hpc']
  · refine ⟨s, by rw [if_neg his, runExt], 4 * stream, if_neg his, ?_⟩
    rw [hva, hpc]

/-- **Where a branch goes**: a place whose address the processor comes to, by the branch and by the
three instructions of a veneer that is there. -/
theorem pfFollowBranch_goes (h : Mapped m buf base) {link : Bool} {offset : ℤ}
    (hbranch : decodeBranch (m stream) = some (link, offset)) (hlt : 4 * stream < 2 ^ 64)
    (hva : machoPtrToVa (bytes m) buf (4 * stream) = some va)
    (htarget : InSection (bytes m) buf (branchVa va offset))
    (hveneer : isVeneer m (branchTarget m stream 26) = true →
      VeneerIn m buf (branchTarget m stream 26) (branchVa va offset))
    {code : Code} {s : State} (hpc : s.pc = va) (hmem : InMemory m buf code s.memory) :
    ∃ s', runExt code (if isVeneer m (branchTarget m stream 26) then 4 else 1) s = some s' ∧
      ∃ ptr, pfFollowBranch m buf stream = some ptr ∧
      machoPtrToVa (bytes m) buf ptr = some s'.pc := by
  obtain ⟨himm, hoffset⟩ := branchImm_of_decodeBranch hbranch
  obtain ⟨hlt', hva'⟩ := h.target hlt hva (by decide) (by decide) hoffset htarget
  have hword : code s.pc = m stream := hpc ▸ hmem.code _ _ hlt hva
  have hstep := stepExt_of_decode hword (decodeExt_of_decodeBranch hbranch)
    (decode_of_decodeBranch hbranch)
  have hmemory : (s.link link).memory = s.memory := by
    cases link with
    | false => rfl
    | true => exact set_memory s 30 _
  obtain ⟨s', hrun, ptr, hptr, hback⟩ := pfFollowVeneer_reaches h hlt' hva' hveneer
    (s := (Instr.b link offset).exec s) (by rw [← hpc]; rfl) (by
      change InMemory m buf code (s.link link).memory
      rwa [hmemory])
  refine ⟨s', ?_, ptr, ?_, hback⟩
  · have hcount : (if isVeneer m (branchTarget m stream 26) then 4 else 1) =
        (if isVeneer m (branchTarget m stream 26) then 3 else 0) + 1 := by
      split <;> rfl
    rw [hcount, runExt_succ hstep, hrun]
  · rw [pfFollowBranch, himm]
    exact hptr

/-- Every image that is mapped can be run. -/
theorem Mapped.inMemory (h : Mapped m buf base) :
    InMemory m buf (fun va => m ((va.toNat + buf - base) / 4))
      (fun va => bytes m (va.toNat + buf - base)) where
  code a va hlt hva := by
    rw [h.va_eq hlt hva, Nat.add_sub_cancel_left, Nat.mul_div_cancel_left a (by decide)]
  data ptr va hlt hva := by
    rw [h.va_eq hlt hva, Nat.add_sub_cancel_left]

theorem smallImage_mapped : Mapped smallImage 0x4000 0x10000 where
  laidOut := smallImage_laidOut
  uniform := by decide +kernel
  aligned := by decide

/-- The processor at an address of the small image. -/
def smallState (va : BitVec 64) : State :=
  ⟨fun _ => 0, 0, va, ⟨false, false, false, false⟩,
    fun va => bytes smallImage (va.toNat + 0x4000 - 0x10000)⟩

theorem pfFollowBranch_goes_small :
    ∃ s', runExt (fun va => smallImage ((va.toNat + 0x4000 - 0x10000) / 4))
        (if isVeneer smallImage (branchTarget smallImage 0x1082 26) then 4 else 1)
        (smallState 0x10208) = some s' ∧
      ∃ ptr, pfFollowBranch smallImage 0x4000 0x1082 = some ptr ∧
        machoPtrToVa (bytes smallImage) 0x4000 ptr = some s'.pc := by
  have hveneer : VeneerIn smallImage 0x4000 (branchTarget smallImage 0x1082 26)
      (branchVa 0x10208 1) :=
    ⟨⟨by decide, by decide +kernel⟩, ⟨by decide +kernel, by decide +kernel⟩, by decide +kernel⟩
  have hbranch : decodeBranch (smallImage 0x1082) = some (true, 1) := by decide +kernel
  exact pfFollowBranch_goes smallImage_mapped hbranch (by decide) (by decide +kernel)
    (by decide +kernel) (fun _ => hveneer) rfl smallImage_mapped.inMemory

/-! ## Conditional branches -/

theorem branchImm_of_decode {w : Word} {cond : BitVec 4} {imm : BitVec 19}
    (h : decode w = some (.bCond cond imm)) : branchImm w = some 19 ∧ w.extractLsb' 5 19 = imm := by
  unfold decode at h
  split at h
  case h_1 => cases h
  case h_2 => cases h
  case h_3 =>
    dsimp only at h
    by_cases hword : w &&& 0xff000010#32 = 0x54000000#32
    · rw [if_neg (and_ne_of_and_eq hword (by decide)), if_pos hword, Option.some.injEq,
        Instr.bCond.injEq] at h
      have hcond : pfMaskmatch32 w 0x54000000 0xff000010 = true := beq_iff_eq.mpr hword
      rw [branchImm, hcond]
      exact ⟨rfl, h.2⟩
    · rw [if_neg hword] at h
      split_ifs at h <;> cases h

/-- **Where a conditional branch goes**: where it is taken to, exactly when the lowest bits, with
the condition, are those of the offset. -/
theorem pfFollowBranch_bCond_iff (h : Mapped m buf base) {cond : BitVec 4} {imm : BitVec 19}
    (hdecode : decode (m stream) = some (.bCond cond imm)) (hlt : 4 * stream < 2 ^ 64)
    (hva : machoPtrToVa (bytes m) buf (4 * stream) = some va)
    (hin : InSection (bytes m) buf (branchVa va imm.toInt))
    (hveneer : isVeneer m (branchTarget m stream 19) = false) {s : State} (hpc : s.pc = va)
    (hcond : s.flags.holds cond = true) :
    (∃ ptr, pfFollowBranch m buf stream = some ptr ∧
      machoPtrToVa (bytes m) buf ptr = some ((Instr.bCond cond imm).exec s).pc) ↔
      (m stream).extractLsb' 0 19 = imm := by
  obtain ⟨himm, -⟩ := branchImm_of_decode hdecode
  have hfollow : pfFollowBranch m buf stream = some (4 * branchTarget m stream 19) := by
    rw [pfFollowBranch, himm]
    exact if_neg (by rw [hveneer]; decide)
  have htaken : ((Instr.bCond cond imm).exec s).pc = branchVa va imm.toInt := by
    rw [Instr.exec, if_pos hcond, hpc]
    rfl
  rw [hfollow, htaken]
  constructor
  · rintro ⟨ptr, hptr, hback⟩
    rw [Option.some.injEq] at hptr
    subst hptr
    have hfirst := h.va_eq hlt hva
    have htarget : branchTarget m stream 19 = (BitVec.ofNat 64 (4 * stream) +
        BitVec.ofInt 64 (4 * ((m stream).extractLsb' 0 19).toInt)).toNat / 4 := by
      rw [branchTarget, toInt_pfSignextend32 _ (by decide) (by decide)]
    have hthere := h.va_eq (by rw [htarget]; omega) hback
    rw [htarget, branchVa, BitVec.toNat_add, BitVec.toNat_add, BitVec.toNat_ofNat,
      BitVec.toNat_ofInt, BitVec.toNat_ofInt] at hthere
    apply BitVec.eq_of_toInt_eq
    have hlow := ((m stream).extractLsb' 0 19).toInt_lt
    have hlow' := ((m stream).extractLsb' 0 19).le_toInt
    have hhigh := imm.toInt_lt
    have hhigh' := imm.le_toInt
    omega
  · intro hbits
    exact ⟨_, rfl, (h.target hlt hva (by decide) (by decide) (by rw [hbits]) hin).2⟩

/-- `b.ne` to two words on. -/
theorem pfFollowBranch_bCond_iff_small :
    (∃ ptr, pfFollowBranch smallImage 0x4000 0x1087 = some ptr ∧
      machoPtrToVa (bytes smallImage) 0x4000 ptr =
        some ((Instr.bCond 1 2).exec (smallState 0x1021c)).pc) ↔
      (smallImage 0x1087).extractLsb' 0 19 = 2 :=
  pfFollowBranch_bCond_iff smallImage_mapped (by decide +kernel) (by decide) (by decide +kernel)
    (by decide +kernel) (by decide +kernel) rfl rfl

end Jbinit.PatchDyld

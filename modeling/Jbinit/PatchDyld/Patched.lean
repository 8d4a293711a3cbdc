import Jbinit.PatchDyld.Branches
import Jbinit.PatchDyld.Patcher

/-!
# What the patched code does

Whatever code there was, the routine for the configuration of the process stores `0xdf` and returns
0 (`dyldProcesConfigPatch_calls`), and the new check of the platform returns 1. Where dyld asks for
`DYLD_IN_CACHE` the patched code goes on as the original does when the variable is `0`
(`patchDyldInCache_goes`).
-/

namespace Jbinit.PatchDyld

open Foundations Arm64 Words

variable {m : Memory 32} {buf stream : ℕ} {va : BitVec 64}

/-! ## Routines -/

/-- The words are the code from an address on. -/
def CodeAt (code : Code) (va : BitVec 64) (m : Memory 32) (stream n : ℕ) : Prop :=
  ∀ k < n, code (va + BitVec.ofNat 64 (4 * k)) = m (stream + k)

/-- A call of the routine at a word returns in a state that is known. -/
def CallReturns (m : Memory 32) (stream n : ℕ) (result : State → State) : Prop :=
  ∀ (code : Code) (s : State), CodeAt code s.pc m stream n →
    ReachesExt code s { result s with pc := s.get 30 }

/-- `*x1 = 0xdf`, and 0 is returned. -/
def configResult (s : State) : State :=
  { (s.set 8 0xdf).set 0 0 with memory := store64 s.memory (s.getSp 1) 0xdf }

def checkResult (s : State) : State := s.set 0 1

/-- The next word of some code. -/
theorem CodeAt.word {code : Code} {n : ℕ} (h : CodeAt code va m stream n) {k : ℕ} (hk : k < n)
    {w : Word} (hw : m (stream + k) = w) {pc : BitVec 64} (hpc : pc = va + BitVec.ofNat 64 (4 * k)) :
    code pc = w := by
  rw [hpc, h k hk, hw]

theorem calls_config (hwords : Holds m stream [0xd2801be8, 0xf9000028, 0xd2800000, 0xd65f03c0]) :
    CallReturns m stream 4 configResult := by
  intro code s hcode
  refine .head (stepExt_of_decode (i := .movz 8 0xdf) (hcode.word (k := 0) (by decide)
      (hwords 0 (by decide)) (by simp)) (by decide) (by decide)) ?_
  refine .head (stepExt_eq (i := .str 8 1 0) (hcode.word (k := 1) (by decide)
      (hwords 1 (by decide)) ?_) (by decide)) ?_
  · simp [Instr.exec]
  refine .head (stepExt_of_decode (i := .movz 0 0) (hcode.word (k := 2) (by decide)
      (hwords 2 (by decide)) ?_) (by decide) (by decide)) ?_
  · simp [Instr.exec, ExtInstr.exec, BitVec.add_assoc]
  refine .head (stepExt_of_decode (i := .ret 30) (hcode.word (k := 3) (by decide)
      (hwords 3 (by decide)) ?_) (by decide) (by decide)) ?_
  · simp [Instr.exec, ExtInstr.exec, BitVec.add_assoc]
  apply ReachesExt.of_eq
  simp [Instr.exec, ExtInstr.exec, configResult, State.set, State.get, State.getSp, State.next,
    dwordOffset]

theorem calls_check (hwords : Holds m stream [0x52800020, 0xd65f03c0]) :
    CallReturns m stream 2 checkResult := by
  intro code s hcode
  refine .head (stepExt_eq (i := .movzW 0 1) (hcode.word (k := 0) (by decide)
      (hwords 0 (by decide)) (by simp)) (by decide)) ?_
  refine .head (stepExt_of_decode (i := .ret 30) (hcode.word (k := 1) (by decide)
      (hwords 1 (by decide)) ?_) (by decide) (by decide)) ?_
  · simp [ExtInstr.exec]
  apply ReachesExt.of_eq
  simp [Instr.exec, ExtInstr.exec, checkResult, State.set, State.get, State.next]

/-- **The configuration of the process** is what dyld is given by the routine that is put there, and
no other word is changed. -/
theorem dyldProcesConfigPatch_calls {s : Process} {symbol : ℕ}
    (hsymbol : machoFindSymbol (bytes s.memory) buf amfiCheckDyldPolicySelfSymbol = some symbol)
    (hlen : 16 ≤ functionLen s.memory symbol) (devBuild : Bool) :
    ∃ s', dyldProcesConfigPatch devBuild buf s = .ok s' ∧
      CallReturns s'.memory (functionAt s.memory buf symbol) 4 configResult ∧
      ∀ a, a < functionAt s.memory buf symbol ∨
        functionAt s.memory buf symbol + functionLen s.memory symbol / 4 ≤ a →
          s'.memory a = s.memory a := by
  let memory := write s.memory (functionAt s.memory buf symbol)
    [0xd2801be8, 0xf9000028, 0xd2800000, 0xd65f03c0]
  refine ⟨{ s with memory }, ?_, calls_config (holds_write _ _ _), fun a ha => ?_⟩
  · rw [dyldProcesConfigPatch, hsymbol]
    exact if_neg (by omega)
  · apply write_of_outside
    rw [List.length_cons, List.length_cons, List.length_cons, List.length_cons, List.length_nil]
    omega

/-- An image with two symbols, of which the first is for four words. -/
def configImage : Memory 32 :=
  write (fun _ => 0) 0x400 [machHeader64Magic, 0, 0, 0, 1, 24, 0, 0, 2, 24, 0x38, 2, 0x58, 0x1d,
    0, 0, 0x80, 0, 0x1c, 0, 0x90, 0, 0x666d615f, 0x68635f69, 0x5f6b6365, 0x646c7964, 0x6c6f705f,
    0x5f796369, 0x666c6573]

theorem dyldProcesConfigPatch_calls_small :
    ∃ s', dyldProcesConfigPatch true 0x1000 (.fresh configImage) = .ok s' ∧
      CallReturns s'.memory 0x420 4 configResult ∧
      ∀ a, a < 0x420 ∨ 0x424 ≤ a → s'.memory a = configImage a := by
  have hsymbol : machoFindSymbol (bytes configImage) 0x1000 amfiCheckDyldPolicySelfSymbol =
      some 0x1038 := by decide +kernel
  have hat : functionAt configImage 0x1000 0x1038 = 0x420 := by decide +kernel
  have hlen : functionLen configImage 0x1038 = 16 := by decide +kernel
  have hcalls := dyldProcesConfigPatch_calls (s := .fresh configImage) hsymbol hlen.ge true
  change ∃ s' : Process, _ ∧
    CallReturns s'.memory (functionAt configImage 0x1000 0x1038) 4 configResult ∧
    ∀ a, a < functionAt configImage 0x1000 0x1038 ∨ functionAt configImage 0x1000 0x1038 +
      functionLen configImage 0x1038 / 4 ≤ a → s'.memory a = configImage a at hcalls
  rwa [hat, hlen] at hcalls

theorem platformCheckPatch_calls {s : Process} {symbol : ℕ}
    (hsymbol : platformSymbol (bytes s.memory) buf = some (symbol, .two)) (platform : Word) :
    ∃ s', platformCheckPatch buf platform s = .ok s' ∧
      CallReturns s'.memory (functionAt s.memory buf symbol) 2 checkResult := by
  refine ⟨patchPlatformCheckNew (functionAt s.memory buf symbol) s, ?_,
    calls_check (holds_write _ _ _)⟩
  rw [platformCheckPatch, hsymbol]
  rfl

/-! ## The variable -/

/-- A word of the pattern. -/
theorem word_of_matchesAt (h : (dyldInCache buf).matchesAt m stream = true) {k : ℕ}
    {pattern : Word × Word} (hk : matchesOld[k]? = some pattern) :
    m (stream + k) &&& pattern.2 = pattern.1 := by
  have hall := List.all_eq_true.mp h (pattern, k) (List.mem_zipIdx_iff_getElem?.mpr hk)
  exact beq_iff_eq.mp hall

/-- The words of the pattern for the value, which is formed in `x1`, and of the test of `w0`. -/
theorem decodeExt_of_matchesAt (h : (dyldInCache buf).matchesAt m stream = true) :
    decodeExt (m (stream + 6)) = some (.adrp 1#5 (adrpImm (m (stream + 6)))) ∧
      decodeExt (m (stream + 7)) =
        some (.add 1#5 1#5 ((m (stream + 7)).extractLsb' 10 12) false) ∧
      decodeExt (m (stream + 9)) = some (.cbzW 0#5 ((m (stream + 9)).extractLsb' 5 19)) := by
  have hadrp := word_of_matchesAt h (k := 6) rfl
  have hadd := word_of_matchesAt h (k := 7) rfl
  have hcbz := word_of_matchesAt h (k := 9) rfl
  have hopcode : m (stream + 9) &&& 0xff000000#32 = 0x34000000#32 := and_of_and_eq hcbz (by decide)
  have hadrpRd : (m (stream + 6)).extractLsb' 0 5 = 1#5 := extract_of_and_eq hadrp (by decide)
  have haddRd : (m (stream + 7)).extractLsb' 0 5 = 1#5 := extract_of_and_eq hadd (by decide)
  have haddRn : (m (stream + 7)).extractLsb' 5 5 = 1#5 := extract_of_and_eq hadd (by decide)
  have hcbzRt : (m (stream + 9)).extractLsb' 0 5 = 0#5 := extract_of_and_eq hcbz (by decide)
  have hshift : (m (stream + 7)).getLsbD 22 = false := by
    have hbit : (m (stream + 7)).extractLsb' 22 1 = 0#1 := extract_of_and_eq hadd (by decide)
    have hzero := congrArg (BitVec.getLsbD · 0) hbit
    rwa [BitVec.getLsbD_extractLsb', decide_eq_true (by decide), Bool.true_and, Nat.add_zero] at hzero
  refine ⟨?_, ?_, ?_⟩
  · rw [decodeExt_adrp (beq_iff_eq.mpr (and_of_and_eq hadrp (by decide))), hadrpRd]
  · rw [decodeExt_add (beq_iff_eq.mpr (and_of_and_eq hadd (by decide))), haddRd, haddRn, hshift]
  · rw [decodeExt, if_neg (and_ne_of_and_eq hopcode (by decide)),
      if_neg (and_ne_of_and_eq hopcode (by decide)), if_neg (and_ne_of_and_eq hopcode (by decide)),
      if_neg (and_ne_of_and_eq hopcode (by decide)), if_neg (and_ne_of_and_eq hopcode (by decide)),
      if_pos hopcode, hcbzRt]

/-- What the callback does where it is done. -/
theorem patchDyldInCache_eq_true {s s' : Process}
    (h : patchDyldInCache buf stream s = some (true, s')) :
    s'.memory = Function.update (Function.update s.memory (stream + 5) 0xd503201f) (stream + 8)
      0x52800000 := by
  obtain ⟨envName, -, h⟩ := Option.bind_eq_some_iff.mp h
  obtain ⟨envValue, -, h⟩ := Option.map_eq_some_iff.mp h
  split_ifs at h
  · cases h
  · cases h
  · rw [Prod.mk.injEq] at h
    rw [← h.2]

/-- The branch for a value that is `0`, at the end of the pattern. -/
def zeroVa (m : Memory 32) (stream : ℕ) (va : BitVec 64) : BitVec 64 :=
  branchVa (va + 36) (cbzOffset (m (stream + 9)))

/-- The state after the pattern, for a value that is `0`. -/
def zeroState (m : Memory 32) (stream : ℕ) (va : BitVec 64) (s : State) : State :=
  let value := page (va + 24) + pageOffset (adrpImm (m (stream + 6))) +
    ((m (stream + 7)).extractLsb' 10 12).setWidth 64
  { (s.set 1 value).set 0 0 with pc := zeroVa m stream va }

/-- **Dyld in the cache**: behind the first call the patched code goes on as the original does
behind the second, when that finds no difference, whatever the variable is. -/
theorem patchDyldInCache_goes {s s' : Process}
    (hmatch : (dyldInCache buf).matchesAt s.memory stream = true)
    (hdone : patchDyldInCache buf stream s = some (true, s')) (code : Code) (t : State) :
    (t.pc = va + 20 → CodeAt code va s'.memory stream 10 →
      ReachesExt code t (zeroState s.memory stream va t)) ∧
    (t.pc = va + 36 → CodeAt code va s.memory stream 10 → (t.get 0).setWidth 32 = 0#32 →
      stepExt code t = some { t with pc := zeroVa s.memory stream va }) := by
  obtain ⟨hadrp, hadd, hcbz⟩ := decodeExt_of_matchesAt hmatch
  have hmemory := patchDyldInCache_eq_true hdone
  have hsame (k : ℕ) (h5 : k ≠ 5) (h8 : k ≠ 8) : s'.memory (stream + k) = s.memory (stream + k) := by
    rw [hmemory, Function.update_of_ne (by omega), Function.update_of_ne (by omega)]
  have hnop : s'.memory (stream + 5) = 0xd503201f := by
    rw [hmemory, Function.update_of_ne (by omega), Function.update_self]
  have hmov : s'.memory (stream + 8) = 0x52800000 := by rw [hmemory, Function.update_self]
  have hassoc (a b : BitVec 64) : va + a + b = va + (a + b) := BitVec.add_assoc va a b
  constructor
  · intro hpc hcode
    refine .head (stepExt_eq (i := .nop) (hcode.word (k := 5) (by decide) hnop hpc) (by decide)) ?_
    refine .head (stepExt_eq (hcode.word (k := 6) (by decide) (hsame 6 (by decide) (by decide)) ?_)
      hadrp) ?_
    · rw [ExtInstr.exec, next_pc, hpc, hassoc]
      rfl
    refine .head (stepExt_eq (hcode.word (k := 7) (by decide) (hsame 7 (by decide) (by decide)) ?_)
      hadd) ?_
    · simp [ExtInstr.exec, hpc, hassoc]
    refine .head (stepExt_eq (i := .movzW 0 0) (hcode.word (k := 8) (by decide) hmov ?_)
      (by decide)) ?_
    · simp [ExtInstr.exec, hpc, hassoc, State.setSp]
    refine .head (stepExt_eq (hcode.word (k := 9) (by decide) (hsame 9 (by decide) (by decide)) ?_)
      hcbz) ?_
    · simp [ExtInstr.exec, hpc, hassoc, State.setSp]
    apply ReachesExt.of_eq
    simp [ExtInstr.exec, zeroState, zeroVa, branchVa, cbzOffset, hpc, hassoc, State.set,
      State.setSp, State.get, State.getSp, State.next, addOffset]
  · intro hpc hcode hzero
    have hequal : (t.get 0#5).setWidth 32 = 0#32 := hzero
    rw [stepExt_eq (hcode.word (k := 9) (by decide) rfl hpc) hcbz, ExtInstr.exec, if_pos hequal, hpc]
    rfl

/-- The pattern at 0x200, with the name of the variable and `0` in the data. -/
def variableImage : Memory 32 :=
  write (write (write (fun _ => 0) 0x1000 smallHeader) 0x1080
      [0xaa1303e0, 0x94000000, 0xb0000001, 0x91000021, 0x94000000, 0xb4000000, 0xb0000001,
        0x91003821, 0x94000000, 0x34000040])
    0x1400 [0x444c5944, 0x5f4e495f, 0x48434143, 0x00300045]

/-- The code of an image that is linked at 0x10000. -/
def linkedCode (m : Memory 32) : Code := fun va => m ((va.toNat + 0x4000 - 0x10000) / 4)

theorem codeAt_linked (m : Memory 32) : CodeAt (linkedCode m) 0x10200 m 0x1080 10 := by
  intro k hk
  have hbase : (0x10200 : BitVec 64).toNat = 0x10200 := rfl
  have hplace : ((0x10200 + BitVec.ofNat 64 (4 * k)).toNat + 0x4000 - 0x10000) / 4 = 0x1080 + k := by
    rw [BitVec.toNat_add, BitVec.toNat_ofNat, hbase]
    omega
  rw [linkedCode, hplace]

theorem patchDyldInCache_goes_small :
    ∃ s', patchDyldInCache 0x4000 0x1080 (.fresh variableImage) = some (true, s') ∧
      ReachesExt (linkedCode s'.memory) (constState 0x10214 5)
        (zeroState variableImage 0x1080 0x10200 (constState 0x10214 5)) ∧
      stepExt (linkedCode variableImage) (constState 0x10224 0) =
        some (constState (zeroVa variableImage 0x1080 0x10200) 0) := by
  have hmap : (patchDyldInCache 0x4000 0x1080 (.fresh variableImage)).map Prod.fst = some true := by
    decide +kernel
  obtain ⟨⟨done, s'⟩, hdone, rfl⟩ := Option.map_eq_some_iff.mp hmap
  have hmatch : (dyldInCache 0x4000).matchesAt variableImage 0x1080 = true := by decide +kernel
  exact ⟨s', hdone,
    (patchDyldInCache_goes hmatch hdone _ _).1 (by decide) (codeAt_linked _),
    (patchDyldInCache_goes hmatch hdone _ _).2 (by decide) (codeAt_linked _) (by decide)⟩

end Jbinit.PatchDyld

import Jbinit.Foundations.Arm64Machine

/-!
# Further instructions of AArch64

The instructions of short routines that are not those of the machine for branches: `ADRP` and `ADD`
put an address together, `LDR` and `STR` take a double word at an offset, and there are moves of 32
bits and branches on zero. `stepExt` is the machine for all of them.
-/

namespace Foundations.Arm64

inductive ExtInstr
  /-- The offset in pages. -/
  | adrp (rd : BitVec 5) (imm : BitVec 21)
  /-- The immediate may be shifted by 12. -/
  | add (rd rn : BitVec 5) (imm : BitVec 12) (shift : Bool)
  /-- The offset in double words. -/
  | ldr (rt rn : BitVec 5) (imm : BitVec 12)
  | str (rt rn : BitVec 5) (imm : BitVec 12)
  /-- The upper half is cleared. -/
  | movzW (rd : BitVec 5) (imm : BitVec 16)
  /-- The lower half is compared; the offset in words. -/
  | cbzW (rt : BitVec 5) (offset : BitVec 19)
  | nop
  deriving DecidableEq

def decodeExt (w : Word) : Option ExtInstr :=
  let rd := w.extractLsb' 0 5
  let rn := w.extractLsb' 5 5
  let imm := w.extractLsb' 10 12
  if w &&& 0x9f000000#32 = 0x90000000#32 then
    some (.adrp rd (w.extractLsb' 5 19 ++ w.extractLsb' 29 2))
  else if w &&& 0xff800000#32 = 0x91000000#32 then some (.add rd rn imm (w.getLsbD 22))
  else if w &&& 0xffc00000#32 = 0xf9400000#32 then some (.ldr rd rn imm)
  else if w &&& 0xffc00000#32 = 0xf9000000#32 then some (.str rd rn imm)
  else if w &&& 0xffe00000#32 = 0x52800000#32 then some (.movzW rd (w.extractLsb' 5 16))
  else if w &&& 0xff000000#32 = 0x34000000#32 then some (.cbzW rd (w.extractLsb' 5 19))
  else if w = 0xd503201f#32 then some .nop
  else none

def page (a : BitVec 64) : BitVec 64 := a &&& ~~~0xfff#64

/-- What `ADRP` adds to the page of the instruction. -/
def pageOffset (imm : BitVec 21) : BitVec 64 := imm.signExtend 64 <<< 12

def addOffset (imm : BitVec 12) (shift : Bool) : BitVec 64 :=
  if shift then imm.setWidth 64 <<< 12 else imm.setWidth 64

def dwordOffset (imm : BitVec 12) : BitVec 64 := imm.setWidth 64 <<< 3

def ExtInstr.exec (s : State) : ExtInstr → State
  | .adrp rd imm => (s.set rd (page s.pc + pageOffset imm)).next
  | .add rd rn imm shift => (s.setSp rd (s.getSp rn + addOffset imm shift)).next
  | .ldr rt rn imm => (s.set rt (load64 s.memory (s.getSp rn + dwordOffset imm))).next
  | .str rt rn imm =>
    { s with memory := store64 s.memory (s.getSp rn + dwordOffset imm) (s.get rt) }.next
  | .movzW rd imm => (s.set rd (imm.setWidth 64)).next
  | .cbzW rt offset =>
    if (s.get rt).setWidth 32 = 0#32 then { s with pc := s.pc + BitVec.ofInt 64 (4 * offset.toInt) }
    else s.next
  | .nop => s.next

def stepExt (code : Code) (s : State) : Option State :=
  match decodeExt (code s.pc) with
  | some i => some (i.exec s)
  | none => step code s

/-- The machine comes from one state to the other. -/
def ReachesExt (code : Code) : State → State → Prop :=
  Relation.ReflTransGen fun s s' => stepExt code s = some s'

/-- The state after a number of instructions. -/
def runExt (code : Code) : ℕ → State → Option State
  | 0, s => some s
  | n + 1, s => (stepExt code s).bind (runExt code n)

variable {code : Code} {s t : State} {w : Word} {q r : BitVec 5} {v : BitVec 64}

theorem runExt_succ (hstep : stepExt code s = some t) (n : ℕ) :
    runExt code (n + 1) s = runExt code n t := by
  rw [runExt, hstep, Option.bind_some]

theorem stepExt_eq (hword : code s.pc = w) {i : ExtInstr} (hdecode : decodeExt w = some i) :
    stepExt code s = some (i.exec s) := by
  rw [stepExt, hword, hdecode]

/-- Other instructions are as in the machine for branches. -/
theorem stepExt_of_decode (hword : code s.pc = w) (hnone : decodeExt w = none) {i : Instr}
    (hdecode : decode w = some i) : stepExt code s = some (i.exec s) := by
  rw [stepExt, hword, hnone]
  exact step_eq hword hdecode

theorem ReachesExt.head {u : State} (hstep : stepExt code s = some u) (h : ReachesExt code u t) :
    ReachesExt code s t :=
  Relation.ReflTransGen.head hstep h

theorem ReachesExt.of_eq (h : s = t) : ReachesExt code s t := h ▸ Relation.ReflTransGen.refl

/-- A small immediate is shifted to another number. -/
theorem addOffset_eq_iff (imm : BitVec 12) (shift : Bool) :
    addOffset imm shift = imm.setWidth 64 ↔ shift = true → imm = 0 := by
  cases shift with
  | false => simp [addOffset]
  | true =>
    have hlt := imm.isLt
    rw [addOffset, if_pos rfl, ← BitVec.toNat_inj, BitVec.toNat_shiftLeft, BitVec.toNat_setWidth,
      Nat.shiftLeft_eq, ← BitVec.toNat_inj]
    simp only [true_imp_iff]
    change _ ↔ imm.toNat = 0
    omega

theorem getSp_setSp (s : State) (r : BitVec 5) (v : BitVec 64) : (s.setSp r v).getSp r = v := by
  unfold State.setSp State.getSp
  by_cases hr : r = 31#5
  · simp [hr]
  · simp [hr]

/-- The zero register is no address register. -/
theorem getSp_set (s : State) (q r : BitVec 5) (v : BitVec 64) :
    (s.set r v).getSp q = if q = r ∧ r ≠ 31#5 then v else s.getSp q := by
  unfold State.set State.getSp
  by_cases hr : r = 31#5
  · simp [hr]
  · by_cases hq : q = r
    · simp [hq, hr]
    · simp [hq, hr]

@[simp] theorem next_getSp (s : State) (r : BitVec 5) : s.next.getSp r = s.getSp r := rfl

end Foundations.Arm64

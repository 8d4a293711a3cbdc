import Jbinit.Foundations.Arm64
import Mathlib.Logic.Function.Basic
import Mathlib.Logic.Relation
import Mathlib.Tactic.Common

/-!
# A machine for AArch64

The instructions are those of a short piece of code: branches, moves, comparisons with an immediate,
and pairs of registers that are pushed and popped. The code is a word at every address and cannot be
written; the data are bytes. `step` is undefined at words that are no such instruction. Accesses are
not checked for their alignment.
-/

namespace Foundations.Arm64

/-! ## Memory -/

abbrev Bytes := BitVec 64 → BitVec 8

/-- Store the bytes of `v`, the least significant byte first. Addresses wrap around. -/
def store64 (m : Bytes) (a v : BitVec 64) : Bytes := fun b =>
  if (b - a).toNat < 8 then v.extractLsb' (8 * (b - a).toNat) 8 else m b

def load64 (m : Bytes) (a : BitVec 64) : BitVec 64 :=
  m (a + 7#64) ++ m (a + 6#64) ++ m (a + 5#64) ++ m (a + 4#64) ++ m (a + 3#64) ++ m (a + 2#64) ++
    m (a + 1#64) ++ m a

section

variable {m m' : Bytes} {a b v : BitVec 64}

theorem store64_of_le (h : 8 ≤ (b - a).toNat) : store64 m a v b = m b :=
  if_neg (by omega)

theorem store64_add {k : ℕ} (h : k < 8) :
    store64 m a v (a + BitVec.ofNat 64 k) = v.extractLsb' (8 * k) 8 := by
  have hdiff : (a + BitVec.ofNat 64 k - a).toNat = k := by
    rw [BitVec.add_comm, BitVec.add_sub_cancel, BitVec.toNat_ofNat]
    omega
  rw [store64, hdiff, if_pos h]

theorem load64_congr (h : ∀ b, (b - a).toNat < 8 → m b = m' b) : load64 m a = load64 m' a := by
  have hbyte (k : BitVec 64) (hk : k.toNat < 8) : m (a + k) = m' (a + k) := by
    apply h
    rwa [BitVec.add_comm, BitVec.add_sub_cancel]
  have hfirst : m a = m' a := h a (by simp)
  rw [load64, load64, hbyte 7#64 (by decide), hbyte 6#64 (by decide), hbyte 5#64 (by decide),
    hbyte 4#64 (by decide), hbyte 3#64 (by decide), hbyte 2#64 (by decide), hbyte 1#64 (by decide),
    hfirst]

/-- A load after a store to the same address. -/
theorem load64_store64 (m : Bytes) (a v : BitVec 64) : load64 (store64 m a v) a = v := by
  have hbyte (k : ℕ) (hk : k < 8) := store64_add (m := m) (a := a) (v := v) hk
  have hfirst : store64 m a v a = v.extractLsb' 0 8 := by simpa using hbyte 0 (by decide)
  rw [load64, hbyte 7 (by decide), hbyte 6 (by decide), hbyte 5 (by decide), hbyte 4 (by decide),
    hbyte 3 (by decide), hbyte 2 (by decide), hbyte 1 (by decide), hfirst]
  refine BitVec.eq_of_getLsbD_eq fun i hi => ?_
  simp only [BitVec.getLsbD_append, BitVec.getLsbD_extractLsb']
  repeat' split
  all_goals
    rw [decide_eq_true (by omega), Bool.true_and]
    exact congrArg v.getLsbD (by omega)

/-- A load is not changed by a store elsewhere. -/
theorem load64_store64_of_le (h : ∀ c, (c - b).toNat < 8 → 8 ≤ (c - a).toNat) :
    load64 (store64 m a v) b = load64 m b :=
  load64_congr fun c hc => store64_of_le (h c hc)

end

/-! ## States -/

/-- The condition flags. -/
structure Flags where
  n : Bool
  z : Bool
  c : Bool
  v : Bool

/-- Whether a condition holds. -/
def Flags.holds (f : Flags) (cond : BitVec 4) : Bool :=
  let base := match cond.toNat / 2 with
    | 0 => f.z
    | 1 => f.c
    | 2 => f.n
    | 3 => f.v
    | 4 => f.c && !f.z
    | 5 => f.n == f.v
    | 6 => f.n == f.v && !f.z
    | _ => true
  if cond.getLsbD 0 && cond != 15 then !base else base

/-- The flags of a subtraction. -/
def Flags.sub (a b : BitVec 64) : Flags where
  n := (a - b).msb
  z := a - b == 0
  c := decide (b.toNat ≤ a.toNat)
  v := a.msb != b.msb && (a - b).msb != a.msb

structure State where
  x : BitVec 5 → BitVec 64
  sp : BitVec 64
  pc : BitVec 64
  flags : Flags
  memory : Bytes

namespace State

/-- A general register. The last one is the zero register. -/
def get (s : State) (r : BitVec 5) : BitVec 64 := if r = 31#5 then 0 else s.x r

def set (s : State) (r : BitVec 5) (v : BitVec 64) : State :=
  if r = 31#5 then s else { s with x := Function.update s.x r v }

/-- An address register. The last one is the stack pointer. -/
def getSp (s : State) (r : BitVec 5) : BitVec 64 := if r = 31#5 then s.sp else s.x r

def setSp (s : State) (r : BitVec 5) (v : BitVec 64) : State :=
  if r = 31#5 then { s with sp := v } else { s with x := Function.update s.x r v }

/-- Keep the address of the next instruction, if the branch links. -/
def link (s : State) (link : Bool) : State := if link then s.set 30 (s.pc + 4) else s

def next (s : State) : State := { s with pc := s.pc + 4 }

end State

/-! ## Instructions -/

/-- Instructions, with the offsets of branches in words and those of pairs in double words. -/
inductive Instr
  | b (link : Bool) (offset : ℤ)
  | br (link : Bool) (rn : BitVec 5)
  | ret (rn : BitVec 5)
  | bCond (cond : BitVec 4) (offset : BitVec 19)
  | subs (rd rn : BitVec 5) (imm : BitVec 12)
  | add (rd rn : BitVec 5) (imm : BitVec 12)
  | movz (rd : BitVec 5) (imm : BitVec 16)
  /-- The base is moved before the pair is stored. -/
  | stpPre (rt rt2 rn : BitVec 5) (imm : BitVec 7)
  /-- The base is moved after the pair is loaded. -/
  | ldpPost (rt rt2 rn : BitVec 5) (imm : BitVec 7)
  deriving DecidableEq

def decode (w : Word) : Option Instr :=
  match decodeBranch w, branchRegister w with
  | some (link, offset), _ => some (.b link offset)
  | none, some (link, rn) => some (.br link rn)
  | none, none =>
    let rd := w.extractLsb' 0 5
    let rn := w.extractLsb' 5 5
    let rt2 := w.extractLsb' 10 5
    if w &&& 0xffe00000#32 = 0xd2800000#32 then some (.movz rd (w.extractLsb' 5 16))
    else if w &&& 0xff000010#32 = 0x54000000#32 then
      some (.bCond (w.extractLsb' 0 4) (w.extractLsb' 5 19))
    else if w &&& 0xffc00000#32 = 0xf1000000#32 then some (.subs rd rn (w.extractLsb' 10 12))
    else if w &&& 0xffc00000#32 = 0x91000000#32 then some (.add rd rn (w.extractLsb' 10 12))
    else if w &&& 0xffc00000#32 = 0xa9800000#32 then
      some (.stpPre rd rt2 rn (w.extractLsb' 15 7))
    else if w &&& 0xffc00000#32 = 0xa8c00000#32 then
      some (.ldpPost rd rt2 rn (w.extractLsb' 15 7))
    else if w &&& 0xfffffc1f#32 = 0xd65f0000#32 then some (.ret rn)
    else none

def Instr.exec (s : State) : Instr → State
  | .b link offset => { s.link link with pc := s.pc + BitVec.ofInt 64 (4 * offset) }
  | .br link rn => { s.link link with pc := s.get rn }
  | .ret rn => { s with pc := s.get rn }
  | .bCond cond offset =>
    if s.flags.holds cond then { s with pc := s.pc + BitVec.ofInt 64 (4 * offset.toInt) }
    else s.next
  | .subs rd rn imm =>
    let a := s.getSp rn
    let b := imm.setWidth 64
    { s.set rd (a - b) with flags := .sub a b }.next
  | .add rd rn imm => (s.setSp rd (s.getSp rn + imm.setWidth 64)).next
  | .movz rd imm => (s.set rd (imm.setWidth 64)).next
  | .stpPre rt rt2 rn imm =>
    let a := s.getSp rn + BitVec.ofInt 64 (8 * imm.toInt)
    let memory := store64 (store64 s.memory a (s.get rt)) (a + 8) (s.get rt2)
    ({ s with memory }.setSp rn a).next
  | .ldpPost rt rt2 rn imm =>
    let a := s.getSp rn
    let s' := (s.set rt (load64 s.memory a)).set rt2 (load64 s.memory (a + 8))
    (s'.setSp rn (a + BitVec.ofInt 64 (8 * imm.toInt))).next

/-! ## Runs -/

/-- A word at every address. -/
abbrev Code := BitVec 64 → Word

def step (code : Code) (s : State) : Option State := (decode (code s.pc)).map (·.exec s)

/-- The machine comes from one state to the other. -/
def Reaches (code : Code) : State → State → Prop :=
  Relation.ReflTransGen fun s s' => step code s = some s'

section

variable {code : Code} {s t u : State} {w : Word} {link : Bool}

theorem step_eq (hword : code s.pc = w) {i : Instr} (hdecode : decode w = some i) :
    step code s = some (i.exec s) := by
  rw [step, hword, hdecode]
  rfl

/-- One instruction, and the run after it. -/
theorem Reaches.head (hword : code s.pc = w) {i : Instr} (hdecode : decode w = some i)
    (h : Reaches code (i.exec s) t) : Reaches code s t :=
  Relation.ReflTransGen.head (step_eq hword hdecode) h

/-- A state with no step reaches only itself. -/
theorem Reaches.eq_of_stuck (h : Reaches code s t) (hstuck : step code s = none) : s = t := by
  cases h.cases_head with
  | inl heq => exact heq
  | inr hstep =>
    obtain ⟨u, hu, -⟩ := hstep
    rw [hstuck] at hu
    cases hu

/-- A run goes through the next state. -/
theorem Reaches.of_step (h : Reaches code s t) (hstep : step code s = some u) :
    s = t ∨ Reaches code u t := by
  refine h.cases_head.imp id ?_
  rintro ⟨u', hu', hrest⟩
  rw [hstep] at hu'
  cases hu'
  exact hrest

/-- Of two states that are reached from one, one is reached from the other. -/
theorem Reaches.total (h : Reaches code s t) (h' : Reaches code s u) :
    Reaches code t u ∨ Reaches code u t := by
  refine Relation.ReflTransGen.total_of_right_unique (fun a b c hb hc => ?_) h h'
  exact Option.some.inj (hb.symm.trans hc)

theorem decode_of_decodeBranch {offset : ℤ} (h : decodeBranch w = some (link, offset)) :
    decode w = some (.b link offset) := by
  rw [decode, h]

theorem decode_of_branchRegister {rn : BitVec 5} (h : branchRegister w = some (link, rn)) :
    decode w = some (.br link rn) := by
  have hbranch : decodeBranch w = none := decodeBranch_of_branchRegister (by rw [h]; rfl)
  rw [decode, hbranch, h]

/-! ### Registers -/

variable {q r : BitVec 5} {v : BitVec 64}

theorem get_set (s : State) (q r : BitVec 5) (v : BitVec 64) :
    (s.set r v).get q = if q = r ∧ r ≠ 31#5 then v else s.get q := by
  unfold State.set State.get
  by_cases hr : r = 31#5
  · simp [hr]
  · by_cases hq : q = r
    · simp [hq, hr]
    · simp [hq, hr]

theorem get_set_of_ne (h : q ≠ r) : (s.set r v).get q = s.get q := by
  rw [get_set, if_neg (by simp [h])]

@[simp] theorem set_sp (s : State) (r : BitVec 5) (v : BitVec 64) : (s.set r v).sp = s.sp := by
  unfold State.set
  split <;> rfl

@[simp] theorem set_pc (s : State) (r : BitVec 5) (v : BitVec 64) : (s.set r v).pc = s.pc := by
  unfold State.set
  split <;> rfl

@[simp] theorem set_memory (s : State) (r : BitVec 5) (v : BitVec 64) :
    (s.set r v).memory = s.memory := by
  unfold State.set
  split <;> rfl

@[simp] theorem next_get (s : State) (r : BitVec 5) : s.next.get r = s.get r := rfl
@[simp] theorem next_sp (s : State) : s.next.sp = s.sp := rfl
@[simp] theorem next_pc (s : State) : s.next.pc = s.pc + 4 := rfl
@[simp] theorem next_memory (s : State) : s.next.memory = s.memory := rfl

end

end Foundations.Arm64

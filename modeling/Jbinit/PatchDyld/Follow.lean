import Jbinit.PatchDyld.Macho
import Jbinit.PatchDyld.Plooshfinder

/-!
# Following instructions

`pf_find_next` and `pf_find_prev` look for an instruction near a place, and return a null pointer,
here `none`, when there is none. `pf_follow_branch` and `pf_follow_xref` return the pointer an
instruction stands for, or a null pointer for another instruction; here their result is `none` when
they follow a null pointer themselves. An instruction is at a word and a pointer is the address of a
byte.
-/

namespace Jbinit.PatchDyld

open Foundations Arm64 Words

variable (m : Memory 32)

/-! ## Searches -/

def pfFindNext (stream count : ℕ) (word mask : Word) : Option ℕ :=
  ((List.range count).map (stream + ·)).find? fun a => pfMaskmatch32 (m a) word mask

def pfFindPrev (stream count : ℕ) (word mask : Word) : Option ℕ :=
  ((List.range count).map (stream - ·)).find? fun a => pfMaskmatch32 (m a) word mask

/-! ## Addresses -/

def pfSignextend64 (val : BitVec 64) (bits : ℕ) : BitVec 64 :=
  (val <<< (64 - bits)).sshiftRight (64 - bits)

def pfSignextend32 (val : BitVec 32) (bits : ℕ) : BitVec 32 :=
  (val <<< (32 - bits)).sshiftRight (32 - bits)

def pfAdrpOffset (adrp : Word) : BitVec 64 :=
  if pfMaskmatch32 adrp 0x90000000 0x9f000000 then
    let immhi := ((adrp.setWidth 64 >>> 5) &&& 0x7ffff#64) <<< 2
    let immlo := (adrp.setWidth 64 >>> 29) &&& 0x3#64
    pfSignextend64 ((immhi ||| immlo) <<< 12) 33
  else 0

/-- The words of a veneer: `adrp x16`, `ldr x16` and `br x16`. -/
def isVeneer (stream : ℕ) : Bool :=
  pfMaskmatch32 (m stream) 0x90000010 0x9f00001f &&
    pfMaskmatch32 (m (stream + 1)) 0xf9400210 0xffc003ff &&
    pfMaskmatch32 (m (stream + 2)) 0xd61f0200 0xffffffff

/-- The address a veneer loads. -/
def veneerAddr (buf stream : ℕ) : BitVec 64 :=
  let bufOffset := BitVec.ofNat 64 buf &&& 0xfff#64
  let unalignedStream := BitVec.ofNat 64 (4 * stream) - bufOffset
  let streamAddr := (unalignedStream &&& ~~~0xfff#64) + bufOffset
  let adrpAddr := streamAddr + pfAdrpOffset (m stream)
  let ldrOffset := ((m (stream + 1) >>> 10) &&& 0xfff#32) <<< 3
  u64 (bytes m) (adrpAddr + ldrOffset.setWidth 64).toNat

def pfFollowVeneer (buf stream : ℕ) : Option ℕ :=
  if isVeneer m stream then
    (machoVaToPtr (bytes m) buf (veneerAddr m buf stream)).map fun ptr =>
      if ptr = null then 4 * stream else ptr
  else some (4 * stream)

/-- How many bits of a branch are its offset. -/
def branchImm (branch : Word) : Option ℕ :=
  if pfMaskmatch32 branch 0x54000000 0xff000010 then some 19
  else if pfMaskmatch32 branch 0x14000000 0x7c000000 then some 26
  else none

/-- The word a branch goes to. -/
def branchTarget (stream : ℕ) (imm : ℕ) : ℕ :=
  (BitVec.ofNat 64 (4 * stream) + BitVec.ofInt 64 (4 * (pfSignextend32 (m stream) imm).toInt)).toNat / 4

def pfFollowBranch (buf stream : ℕ) : Option ℕ :=
  match branchImm (m stream) with
  | none => some null
  | some imm => pfFollowVeneer m buf (branchTarget m stream imm)

/-- The words of a reference: `adrp` and `add`. -/
def isXref (stream : ℕ) : Bool :=
  pfMaskmatch32 (m stream) 0x90000000 0x9f000000 &&
    pfMaskmatch32 (m (stream + 1)) 0x91000000 0xff800000

/-- The address a reference at `streamVa` stands for. -/
def xrefAddr (stream : ℕ) (streamVa : BitVec 64) : BitVec 64 :=
  let adrpAddr := pfAdrpOffset (m stream)
  let addOffset := (m (stream + 1) >>> 10) &&& 0xfff#32
  let streamAddr := streamVa &&& ~~~0xfff#64
  streamAddr + adrpAddr + addOffset.setWidth 64

def pfFollowXref (buf stream : ℕ) : Option ℕ :=
  if isXref m stream then
    (machoPtrToVa (bytes m) buf (4 * stream)).bind fun streamVa =>
      machoVaToPtr (bytes m) buf (xrefAddr m stream streamVa)
  else some null

/-! ## Null pointers -/

/-- The section of a reference is there, and that of the address it stands for. -/
def XrefInSection (buf stream : ℕ) : Prop :=
  isXref m stream = true → PtrInSection (bytes m) buf (4 * stream) ∧
    ∀ streamVa, machoPtrToVa (bytes m) buf (4 * stream) = some streamVa →
      VaInSection (bytes m) buf (xrefAddr m stream streamVa)

/-- The section of the address a veneer loads is there. -/
def BranchInSection (buf stream : ℕ) : Prop :=
  ∀ imm, branchImm (m stream) = some imm → isVeneer m (branchTarget m stream imm) = true →
    VaInSection (bytes m) buf (veneerAddr m buf (branchTarget m stream imm))

variable {m} {buf stream count a : ℕ} {word mask : Word}

theorem pfFollowXref_isSome : (pfFollowXref m buf stream).isSome = true ↔
    XrefInSection m buf stream := by
  unfold pfFollowXref XrefInSection
  cases isXref m stream with
  | false => simp
  | true =>
    rw [if_pos rfl, ← machoPtrToVa_isSome]
    cases machoPtrToVa (bytes m) buf (4 * stream) with
    | none => simp
    | some streamVa => simp [machoVaToPtr_isSome]

theorem pfFollowVeneer_isSome : (pfFollowVeneer m buf stream).isSome = true ↔
    (isVeneer m stream = true → VaInSection (bytes m) buf (veneerAddr m buf stream)) := by
  unfold pfFollowVeneer
  cases isVeneer m stream with
  | false => simp
  | true => simp [machoVaToPtr_isSome]

theorem pfFollowBranch_isSome : (pfFollowBranch m buf stream).isSome = true ↔
    BranchInSection m buf stream := by
  unfold pfFollowBranch BranchInSection
  cases branchImm (m stream) with
  | none => simp
  | some imm => simp [pfFollowVeneer_isSome]

/-! ## Where an instruction is found -/

/-- The first of some addresses, of which each has an index. -/
theorem exists_index_of_find? {address : ℕ → ℕ} {p : ℕ → Bool}
    (h : ((List.range count).map address).find? p = some a) :
    ∃ i < count, a = address i ∧ p a = true := by
  obtain ⟨i, hi, rfl⟩ := List.mem_map.mp (List.mem_of_find?_eq_some h)
  exact ⟨i, List.mem_range.mp hi, rfl, List.find?_some h⟩

theorem pfFindNext_eq_some (h : pfFindNext m stream count word mask = some a) :
    (stream ≤ a ∧ a < stream + count) ∧ pfMaskmatch32 (m a) word mask = true := by
  obtain ⟨i, hi, rfl, hword⟩ := exists_index_of_find? h
  exact ⟨⟨by omega, by omega⟩, hword⟩

theorem pfFindPrev_eq_some (h : pfFindPrev m stream count word mask = some a) :
    (a ≤ stream ∧ stream < a + count) ∧ pfMaskmatch32 (m a) word mask = true := by
  obtain ⟨i, hi, rfl, hword⟩ := exists_index_of_find? h
  exact ⟨⟨by omega, by omega⟩, hword⟩

end Jbinit.PatchDyld

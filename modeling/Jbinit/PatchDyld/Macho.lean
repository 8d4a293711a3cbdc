import Jbinit.PatchDyld.Slices

/-!
# Lookups in a Mach-O image

Segments, sections and symbols are looked up by the addresses of their headers; a lookup that finds
nothing returns a null pointer, here `none`. `macho_va_to_ptr` and `macho_ptr_to_va` follow the
pointer to a section without a look at it: their result is `none` when it is null. Addresses that
are computed wrap around.
-/

namespace Jbinit.PatchDyld

open Foundations Words

variable (m : Memory 8)

/-- The bytes are at an address. -/
def bytesAt (a : ℕ) (needle : List (BitVec 8)) : Bool :=
  needle.zipIdx.all fun ⟨c, i⟩ => m (a + i) == c

/-- `strcmp` finds no difference between the string at an address and `name`. -/
def strEq (a : ℕ) (name : List (BitVec 8)) : Bool :=
  bytesAt m a name && m (a + name.length) == 0

/-- The bytes of a string. -/
def cbytes (s : String) : List (BitVec 8) := s.toUTF8.data.toList.map UInt8.toBitVec

/-- `strlen`, for a string of at most `n` bytes. -/
def strlenUpTo (a : ℕ) : ℕ → ℕ
  | 0 => 0
  | n + 1 => if m a = 0 then 0 else strlenUpTo (a + 1) n + 1

def strlen (a : ℕ) : ℕ := strlenUpTo m a (2 ^ 64)

/-- Whether `memmem` finds the bytes; `none` when a null pointer is followed. -/
def memmem (a size : ℕ) (needle : List (BitVec 8)) : Option Bool :=
  if size < needle.length then some false
  else if a = null then none
  else some ((List.range (size - needle.length + 1)).any fun i => bytesAt m (a + i) needle)

/-! ## Load commands -/

def lcSegment64 : BitVec 32 := 0x19

def lcSymtab : BitVec 32 := 0x2

/-- The first of `n` load commands from `afterHeader` on with a property. -/
def firstCommand (p : ℕ → Bool) : ℕ → ℕ → Option ℕ
  | 0, _ => none
  | n + 1, afterHeader =>
    if p afterHeader then some afterHeader
    else firstCommand p n (afterHeader + (u32 m (afterHeader + 4)).toNat)

/-- The first load command of the image with a property. -/
def findCommand (buf : ℕ) (p : ℕ → Bool) : Option ℕ :=
  if machoCheck m buf then firstCommand m p (u32 m (buf + 16)).toNat (buf + 32) else none

/-- The first section of a segment with a property. -/
def sectionOf (segment : ℕ) (p : ℕ → Bool) : Option ℕ :=
  ((List.range (u32 m (segment + 64)).toNat).map (segment + 72 + 80 * ·)).find? p

/-! ## Names -/

/-- The first segment with a name, among the commands before the first that is none. -/
def getSegment (name : List (BitVec 8)) : ℕ → ℕ → Option ℕ
  | 0, _ => none
  | n + 1, afterHeader =>
    if u32 m afterHeader = lcSegment64 then
      if strEq m (afterHeader + 8) name then some afterHeader
      else getSegment name n (afterHeader + (u32 m (afterHeader + 4)).toNat)
    else none

def machoGetSegment (buf : ℕ) (name : String) : Option ℕ :=
  if machoCheck m buf then getSegment m (cbytes name) (u32 m (buf + 16)).toNat (buf + 32) else none

def machoFindSection (buf : ℕ) (segmentName sectionName : String) : Option ℕ :=
  (machoGetSegment m buf segmentName).bind fun segment =>
    sectionOf m segment fun sect => strEq m sect (cbytes sectionName)

/-! ## Virtual addresses -/

def machoGetSegmentForVa (buf : ℕ) (addr : BitVec 64) : Option ℕ :=
  findCommand m buf fun segment =>
    u32 m segment == lcSegment64 &&
      let segmentStart := u64 m (segment + 24)
      let segmentEnd := segmentStart + u64 m (segment + 32)
      decide (segmentStart ≤ addr) && decide (addr < segmentEnd)

def machoGetSectionForVa (segment : ℕ) (addr : BitVec 64) : Option ℕ :=
  sectionOf m segment fun sect =>
    let sectionStart := u64 m (sect + 32)
    let sectionEnd := sectionStart + u64 m (sect + 40)
    decide (sectionStart ≤ addr) && decide (addr < sectionEnd)

/-- `none` when a null pointer is followed. -/
def machoVaToPtr (buf : ℕ) (addr : BitVec 64) : Option ℕ :=
  if machoCheck m buf then
    match machoGetSegmentForVa m buf addr with
    | none => some null
    | some segment =>
      if u64 m (segment + 24) = addr then
        some (BitVec.ofNat 64 buf + u64 m (segment + 40)).toNat
      else
        (machoGetSectionForVa m segment addr).map fun sect =>
          let offset := addr - u64 m (sect + 32)
          (BitVec.ofNat 64 buf + (u32 m (sect + 48)).setWidth 64 + offset).toNat
  else some null

/-! ## Pointers -/

def machoGetSegmentForPtr (buf ptr : ℕ) : Option ℕ :=
  findCommand m buf fun segment =>
    u32 m segment == lcSegment64 &&
      let segmentStart := BitVec.ofNat 64 buf + u64 m (segment + 40)
      let segmentEnd := segmentStart + u64 m (segment + 48)
      decide (segmentStart ≤ BitVec.ofNat 64 ptr) && decide (BitVec.ofNat 64 ptr < segmentEnd)

def machoGetSectionForPtr (segment buf ptr : ℕ) : Option ℕ :=
  sectionOf m segment fun sect =>
    let sectionStart := BitVec.ofNat 64 buf + (u32 m (sect + 48)).setWidth 64
    let sectionEnd := sectionStart + u64 m (sect + 40)
    decide (sectionStart ≤ BitVec.ofNat 64 ptr) && decide (BitVec.ofNat 64 ptr < sectionEnd)

def machoFindSectionForPtr (buf ptr : ℕ) : Option ℕ :=
  (machoGetSegmentForPtr m buf ptr).bind fun segment => machoGetSectionForPtr m segment buf ptr

/-- `none` when a null pointer is followed. -/
def machoPtrToVa (buf ptr : ℕ) : Option (BitVec 64) :=
  if machoCheck m buf then
    (machoFindSectionForPtr m buf ptr).map fun sect =>
      let offset := BitVec.ofNat 64 ptr - BitVec.ofNat 64 buf - (u32 m (sect + 48)).setWidth 64
      u64 m (sect + 32) + offset
  else some 0

/-! ## Symbols -/

/-- `macho_find_symbol_f`, for a classifier of the address of a name. -/
def machoFindSymbolF (buf : ℕ) (classifier : ℕ → Bool) : Option ℕ :=
  (findCommand m buf fun command => u32 m command == lcSymtab).bind fun symtabCmd =>
    let symtab := buf + (u32 m (symtabCmd + 8)).toNat
    let strtab := buf + (u32 m (symtabCmd + 16)).toNat
    ((List.range (u32 m (symtabCmd + 12)).toNat).map (symtab + 16 * ·)).find? fun symbol =>
      classifier (strtab + (u32 m symbol).toNat)

def machoFindSymbol (buf : ℕ) (name : String) : Option ℕ :=
  machoFindSymbolF m buf fun symName => strEq m symName (cbytes name)

/-- The `offset` of a symbol. -/
def symbolOffset (symbol : ℕ) : BitVec 64 := u64 m (symbol + 8)

/-- How far it is to the next symbol of the table. -/
def machoGetSymbolSize (symbol : ℕ) : BitVec 64 :=
  if symbolOffset m (symbol + 16) < symbolOffset m symbol then 0
  else symbolOffset m (symbol + 16) - symbolOffset m symbol

/-! ## Null pointers -/

/-- An address in a segment is where the segment begins, or in one of its sections. -/
def VaInSection (buf : ℕ) (addr : BitVec 64) : Prop :=
  ∀ segment, machoGetSegmentForVa m buf addr = some segment →
    u64 m (segment + 24) = addr ∨ (machoGetSectionForVa m segment addr).isSome = true

/-- The place is in a section. -/
def PtrInSection (buf ptr : ℕ) : Prop :=
  machoCheck m buf = true → (machoFindSectionForPtr m buf ptr).isSome = true

variable {m} {buf ptr : ℕ} {addr : BitVec 64}

/-- An image that is none has no load commands. -/
theorem findCommand_of_not_check (h : machoCheck m buf = false) (p : ℕ → Bool) :
    findCommand m buf p = none := by
  rw [findCommand, h]
  rfl

/-- **The address is not looked up in a section that is not there.** -/
theorem machoVaToPtr_isSome : (machoVaToPtr m buf addr).isSome = true ↔ VaInSection m buf addr := by
  unfold machoVaToPtr VaInSection
  cases hcheck : machoCheck m buf with
  | false =>
    have hnone : machoGetSegmentForVa m buf addr = none := findCommand_of_not_check hcheck _
    simp [hnone]
  | true =>
    cases machoGetSegmentForVa m buf addr with
    | none => simp
    | some segment =>
      by_cases hstart : u64 m (segment + 24) = addr
      · simp [hstart]
      · simp [hstart]

theorem machoPtrToVa_isSome : (machoPtrToVa m buf ptr).isSome = true ↔ PtrInSection m buf ptr := by
  unfold machoPtrToVa PtrInSection
  cases machoCheck m buf <;> simp

end Jbinit.PatchDyld

import Jbinit.Foundations.FirstMatch
import Jbinit.PatchDyld.Macho

/-!
# Images that are laid out

In an image that is laid out no two segments share an address or a byte of the file, the sections
are in their segments, and all bytes of a segment are as far from its beginning in the file as in
memory. There `macho_va_to_ptr` and `macho_ptr_to_va` are inverse to each other, between the
addresses and the bytes of the sections (`machoVaToPtr_iff`). A section whose offset is 0 is one of
zeros and has no bytes in the file.
-/

namespace Jbinit.PatchDyld

open Foundations Words

/-! ## Extents -/

/-- A run of addresses. -/
structure Extent where
  start : ℕ
  size : ℕ

namespace Extent

def stop (e : Extent) : ℕ := e.start + e.size

def Has (e : Extent) (a : ℕ) : Prop := e.start ≤ a ∧ a < e.stop

def Within (e e' : Extent) : Prop := e'.start ≤ e.start ∧ e.stop ≤ e'.stop

def Apart (e e' : Extent) : Prop := e.stop ≤ e'.start ∨ e'.stop ≤ e.start

instance (e : Extent) (a : ℕ) : Decidable (e.Has a) := inferInstanceAs (Decidable (_ ∧ _))

instance (e e' : Extent) : Decidable (e.Within e') := inferInstanceAs (Decidable (_ ∧ _))

instance (e e' : Extent) : Decidable (e.Apart e') := inferInstanceAs (Decidable (_ ∨ _))

variable {e e' : Extent} {a : ℕ}

theorem Within.has (h : e.Within e') (ha : e.Has a) : e'.Has a :=
  ⟨h.1.trans ha.1, ha.2.trans_le h.2⟩

theorem Apart.not_has (h : e.Apart e') (ha : e.Has a) : ¬e'.Has a := by
  unfold Apart at h
  unfold Has at *
  omega

/-- The comparisons of the code, when the end does not wrap around. -/
theorem has_iff {start size addr : BitVec 64} (h : start.toNat + size.toNat < 2 ^ 64) :
    (decide (start ≤ addr) && decide (addr < start + size)) = true ↔
      (Extent.mk start.toNat size.toNat).Has addr.toNat := by
  rw [Bool.and_eq_true, decide_eq_true_iff, decide_eq_true_iff, BitVec.le_def, BitVec.lt_def,
    BitVec.toNat_add, Nat.mod_eq_of_lt h]
  exact Iff.rfl

/-- The same for what is at an offset of an image. -/
theorem has_file_iff {buf ptr : ℕ} {offset size : BitVec 64} (hptr : ptr < 2 ^ 64)
    (h : (Extent.mk (buf + offset.toNat) size.toNat).stop < 2 ^ 64) :
    (decide (BitVec.ofNat 64 buf + offset ≤ BitVec.ofNat 64 ptr) &&
        decide (BitVec.ofNat 64 ptr < BitVec.ofNat 64 buf + offset + size)) = true ↔
      (Extent.mk (buf + offset.toNat) size.toNat).Has ptr := by
  replace h : buf + offset.toNat + size.toNat < 2 ^ 64 := h
  have hstart : (BitVec.ofNat 64 buf + offset).toNat = buf + offset.toNat := by
    rw [BitVec.toNat_add, BitVec.toNat_ofNat]
    omega
  rw [has_iff (by rwa [hstart]), hstart, BitVec.toNat_ofNat, Nat.mod_eq_of_lt hptr]

end Extent

/-- No two of the items share an address. -/
def AllApart (extent : ℕ → Extent) (items : List ℕ) : Prop :=
  ∀ x ∈ items, ∀ y ∈ items, x = y ∨ (extent x).Apart (extent y)

instance (extent : ℕ → Extent) (items : List ℕ) : Decidable (AllApart extent items) :=
  inferInstanceAs (Decidable (∀ x ∈ items, ∀ y ∈ items, _))

/-! ## Segments and sections -/

variable (m : Memory 8) (buf : ℕ)

/-- The addresses of `n` load commands from `afterHeader` on. -/
def commandsFrom : ℕ → ℕ → List ℕ
  | 0, _ => []
  | n + 1, afterHeader =>
    afterHeader :: commandsFrom n (afterHeader + (u32 m (afterHeader + 4)).toNat)

def segments : List ℕ :=
  (commandsFrom m (u32 m (buf + 16)).toNat (buf + 32)).filter (u32 m · == lcSegment64)

def sections (segment : ℕ) : List ℕ :=
  (List.range (u32 m (segment + 64)).toNat).map (segment + 72 + 80 * ·)

/-- The section has bytes in the file. -/
def Filled (sect : ℕ) : Prop := u32 m (sect + 48) ≠ 0

instance (sect : ℕ) : Decidable (Filled m sect) := inferInstanceAs (Decidable (_ ≠ _))

/-- The addresses of a segment. -/
def segmentVa (segment : ℕ) : Extent :=
  ⟨(u64 m (segment + 24)).toNat, (u64 m (segment + 32)).toNat⟩

/-- Where the bytes of a segment are. -/
def segmentFile (segment : ℕ) : Extent :=
  ⟨buf + (u64 m (segment + 40)).toNat, (u64 m (segment + 48)).toNat⟩

def sectionVa (sect : ℕ) : Extent := ⟨(u64 m (sect + 32)).toNat, (u64 m (sect + 40)).toNat⟩

def sectionFile (sect : ℕ) : Extent :=
  ⟨buf + (u32 m (sect + 48)).toNat, (u64 m (sect + 40)).toNat⟩

/-- A section is where its segment is. -/
structure Placed (segment sect : ℕ) : Prop where
  va : (sectionVa m sect).Within (segmentVa m segment)
  file : Filled m sect → (sectionFile m buf sect).Within (segmentFile m buf segment)
  /-- As far from the beginning of the segment in the file as in memory. -/
  offset : Filled m sect → (sectionVa m sect).start + (segmentFile m buf segment).start =
    (sectionFile m buf sect).start + (segmentVa m segment).start
  zeros : ¬Filled m sect → (sectionFile m buf sect).stop ≤ (segmentFile m buf segment).start

theorem placed_iff (segment sect : ℕ) : Placed m buf segment sect ↔
    (sectionVa m sect).Within (segmentVa m segment) ∧
      (Filled m sect → (sectionFile m buf sect).Within (segmentFile m buf segment)) ∧
      (Filled m sect → (sectionVa m sect).start + (segmentFile m buf segment).start =
        (sectionFile m buf sect).start + (segmentVa m segment).start) ∧
      (¬Filled m sect → (sectionFile m buf sect).stop ≤ (segmentFile m buf segment).start) :=
  ⟨fun h => ⟨h.va, h.file, h.offset, h.zeros⟩, fun h => ⟨h.1, h.2.1, h.2.2.1, h.2.2.2⟩⟩

instance (segment sect : ℕ) : Decidable (Placed m buf segment sect) :=
  decidable_of_iff _ (placed_iff m buf segment sect).symm

structure LaidOut : Prop where
  check : machoCheck m buf = true
  /-- No end wraps around. -/
  fits : ∀ segment ∈ segments m buf,
    (segmentVa m segment).stop < 2 ^ 64 ∧ (segmentFile m buf segment).stop < 2 ^ 64
  vaApart : AllApart (segmentVa m) (segments m buf)
  fileApart : AllApart (segmentFile m buf) (segments m buf)
  placed : ∀ segment ∈ segments m buf, ∀ sect ∈ sections m segment, Placed m buf segment sect
  sectionsApart : ∀ segment ∈ segments m buf, AllApart (sectionVa m) (sections m segment)

/-- An address of a section with bytes in the file. -/
def InSection (addr : BitVec 64) : Prop :=
  ∃ segment ∈ segments m buf, ∃ sect ∈ sections m segment,
    Filled m sect ∧ (sectionVa m sect).Has addr.toNat

instance (addr : BitVec 64) : Decidable (InSection m buf addr) :=
  inferInstanceAs (Decidable (∃ segment ∈ segments m buf, ∃ sect ∈ sections m segment, _))

/-! ## The lookups -/

variable {m buf} {segment sect ptr : ℕ} {addr : BitVec 64}

theorem firstCommand_eq (p : ℕ → Bool) (n afterHeader : ℕ) :
    firstCommand m p n afterHeader = (commandsFrom m n afterHeader).find? p := by
  induction n generalizing afterHeader with
  | zero => rfl
  | succ n ih =>
    rw [firstCommand, commandsFrom, List.find?_cons, ih]
    cases p afterHeader <;> rfl

/-- A search among the segments. -/
theorem findCommand_segment (h : machoCheck m buf = true) (p : ℕ → Bool) :
    findCommand m buf (fun segment => u32 m segment == lcSegment64 && p segment) =
      (segments m buf).find? p := by
  rw [findCommand, if_pos h, firstCommand_eq, segments, List.find?_filter]
  congr 1
  funext a
  rw [Bool.eq_iff_iff]
  simp

/-- What is found is the only item with the address. -/
theorem find?_has {extent : ℕ → Extent} {items : List ℕ} (hapart : AllApart extent items) {a : ℕ}
    {p : ℕ → Bool} (hp : ∀ x ∈ items, p x = true ↔ (extent x).Has a) {x : ℕ} :
    items.find? p = some x ↔ x ∈ items ∧ (extent x).Has a := by
  rw [FirstMatch.find?_eq_some_iff_of_unique]
  · exact and_congr_right (hp x)
  · intro y hy z hz hpy hpz
    refine (hapart y hy z hz).resolve_right fun hyz => ?_
    exact hyz.not_has ((hp y hy).mp hpy) ((hp z hz).mp hpz)

theorem machoGetSegmentForVa_eq_some (h : LaidOut m buf) :
    machoGetSegmentForVa m buf addr = some segment ↔
      segment ∈ segments m buf ∧ (segmentVa m segment).Has addr.toNat := by
  rw [machoGetSegmentForVa, findCommand_segment h.check]
  exact find?_has h.vaApart fun x hx => Extent.has_iff (h.fits x hx).1

theorem machoGetSectionForVa_eq_some (h : LaidOut m buf) (hsegment : segment ∈ segments m buf) :
    machoGetSectionForVa m segment addr = some sect ↔
      sect ∈ sections m segment ∧ (sectionVa m sect).Has addr.toNat := by
  refine find?_has (h.sectionsApart segment hsegment) fun x hx => Extent.has_iff ?_
  exact (h.placed segment hsegment x hx).va.2.trans_lt (h.fits segment hsegment).1

theorem machoGetSegmentForPtr_eq_some (h : LaidOut m buf) (hptr : ptr < 2 ^ 64) :
    machoGetSegmentForPtr m buf ptr = some segment ↔
      segment ∈ segments m buf ∧ (segmentFile m buf segment).Has ptr := by
  rw [machoGetSegmentForPtr, findCommand_segment h.check]
  refine find?_has h.fileApart fun x hx => ?_
  exact Extent.has_file_iff hptr (h.fits x hx).2

/-! ### The bytes of a section -/

theorem Placed.has_segment (h : Placed m buf segment sect) (hfilled : Filled m sect)
    (hptr : (sectionFile m buf sect).Has ptr) : (segmentFile m buf segment).Has ptr :=
  (h.file hfilled).has hptr

/-- A section of zeros is not where its segment is. -/
theorem Placed.filled (h : Placed m buf segment sect) (hptr : (segmentFile m buf segment).Has ptr)
    (hsect : (sectionFile m buf sect).Has ptr) : Filled m sect := by
  by_contra hzeros
  have hstop := h.zeros hzeros
  have hlt := hsect.2
  have hle := hptr.1
  omega

/-- The address of a byte of a section. -/
theorem Placed.has_va (h : Placed m buf segment sect) (hfilled : Filled m sect)
    (hptr : (sectionFile m buf sect).Has ptr) : (sectionVa m sect).Has
      (ptr + (segmentVa m segment).start - (segmentFile m buf segment).start) := by
  have hoffset := h.offset hfilled
  have hle := (h.has_segment hfilled hptr).1
  obtain ⟨hstart, hstop⟩ := hptr
  have hsize : (sectionFile m buf sect).stop - (sectionFile m buf sect).start =
      (sectionVa m sect).stop - (sectionVa m sect).start := by
    simp [sectionFile, sectionVa, Extent.stop]
  unfold Extent.Has
  omega

theorem machoGetSectionForPtr_eq_some (h : LaidOut m buf) (hsegment : segment ∈ segments m buf)
    (hptr : ptr < 2 ^ 64) (hin : (segmentFile m buf segment).Has ptr) :
    machoGetSectionForPtr m segment buf ptr = some sect ↔
      sect ∈ sections m segment ∧ (sectionFile m buf sect).Has ptr := by
  have hhas : ∀ x ∈ sections m segment, (decide (BitVec.ofNat 64 buf +
      (u32 m (x + 48)).setWidth 64 ≤ BitVec.ofNat 64 ptr) && decide (BitVec.ofNat 64 ptr <
        BitVec.ofNat 64 buf + (u32 m (x + 48)).setWidth 64 + u64 m (x + 40))) = true ↔
      (sectionFile m buf x).Has ptr := by
    intro x hx
    have hplaced := h.placed segment hsegment x hx
    have hstop : (sectionFile m buf x).stop < 2 ^ 64 := by
      have hfits := (h.fits segment hsegment).2
      by_cases hfilled : Filled m x
      · exact (hplaced.file hfilled).2.trans_lt hfits
      · exact (hplaced.zeros hfilled).trans_lt (hin.1.trans_lt hptr)
    have hoffset : ((u32 m (x + 48)).setWidth 64).toNat = (u32 m (x + 48)).toNat := by
      rw [BitVec.toNat_setWidth]
      omega
    rw [sectionFile, ← hoffset] at hstop ⊢
    exact Extent.has_file_iff hptr hstop
  refine (FirstMatch.find?_eq_some_iff_of_unique fun x hx y hy hpx hpy => ?_).trans
    (and_congr_right (hhas sect))
  have hplacedx := h.placed segment hsegment x hx
  have hplacedy := h.placed segment hsegment y hy
  have hptrx := (hhas x hx).mp hpx
  have hptry := (hhas y hy).mp hpy
  refine (h.sectionsApart segment hsegment x hx y hy).resolve_right fun hapart => ?_
  exact hapart.not_has (hplacedx.has_va (hplacedx.filled hin hptrx) hptrx)
    (hplacedy.has_va (hplacedy.filled hin hptry) hptry)

/-! ## The translations -/

/-- The place of an address of a section. -/
theorem machoVaToPtr_of_has (h : LaidOut m buf) (hsegment : segment ∈ segments m buf)
    (hsect : sect ∈ sections m segment) (hfilled : Filled m sect)
    (haddr : (sectionVa m sect).Has addr.toNat) : machoVaToPtr m buf addr =
      some ((sectionFile m buf sect).start + (addr.toNat - (sectionVa m sect).start)) := by
  have hplaced := h.placed segment hsegment sect hsect
  have hva := hplaced.va.has haddr
  have hoffset := hplaced.offset hfilled
  have hstop := (hplaced.file hfilled).2.trans_lt (h.fits segment hsegment).2
  have hfits := (h.fits segment hsegment).2
  have hstart := hplaced.va.1
  have hle := haddr.1
  have hlt := haddr.2
  unfold machoVaToPtr
  rw [if_pos h.check, (machoGetSegmentForVa_eq_some h).mpr ⟨hsegment, hva⟩]
  dsimp only
  simp only [sectionVa, sectionFile, segmentVa, segmentFile, Extent.stop] at *
  split
  case isTrue heq =>
    -- the section begins where the segment does
    subst heq
    rw [BitVec.toNat_add, BitVec.toNat_ofNat]
    congr 1
    omega
  case isFalse =>
    rw [(machoGetSectionForVa_eq_some h hsegment).mpr ⟨hsect, haddr⟩, Option.map_some,
      BitVec.toNat_add, BitVec.toNat_add, BitVec.toNat_ofNat, BitVec.toNat_setWidth,
      BitVec.toNat_sub_of_le (by rw [BitVec.le_def]; exact hle)]
    congr 1
    omega

/-- The address of a byte of a section. -/
theorem machoPtrToVa_of_has (h : LaidOut m buf) (hsegment : segment ∈ segments m buf)
    (hsect : sect ∈ sections m segment) (hfilled : Filled m sect)
    (hptr : (sectionFile m buf sect).Has ptr) : machoPtrToVa m buf ptr =
      some (BitVec.ofNat 64 ((sectionVa m sect).start + (ptr - (sectionFile m buf sect).start))) := by
  have hplaced := h.placed segment hsegment sect hsect
  have hin := hplaced.has_segment hfilled hptr
  have hlt : ptr < 2 ^ 64 := hin.2.trans (h.fits segment hsegment).2
  have hfind : machoFindSectionForPtr m buf ptr = some sect := by
    rw [machoFindSectionForPtr, (machoGetSegmentForPtr_eq_some h hlt).mpr ⟨hsegment, hin⟩,
      Option.bind_some, (machoGetSectionForPtr_eq_some h hsegment hlt hin).mpr ⟨hsect, hptr⟩]
  unfold machoPtrToVa
  rw [if_pos h.check, hfind, Option.map_some]
  congr 1
  apply BitVec.eq_of_toNat_eq
  have hle := hptr.1
  simp only [sectionVa, sectionFile] at *
  rw [BitVec.toNat_add, BitVec.toNat_sub, BitVec.toNat_sub, BitVec.toNat_setWidth,
    BitVec.toNat_ofNat, BitVec.toNat_ofNat, BitVec.toNat_ofNat]
  omega

theorem machoPtrToVa_of_machoVaToPtr (h : LaidOut m buf) (hin : InSection m buf addr)
    (hplace : machoVaToPtr m buf addr = some ptr) :
    ptr < 2 ^ 64 ∧ machoPtrToVa m buf ptr = some addr := by
  obtain ⟨segment, hsegment, sect, hsect, hfilled, haddr⟩ := hin
  rw [machoVaToPtr_of_has h hsegment hsect hfilled haddr, Option.some.injEq] at hplace
  have hptr : (sectionFile m buf sect).Has ptr := by
    have hlt := haddr.2
    simp only [Extent.Has, Extent.stop, sectionVa, sectionFile] at *
    omega
  have hfile := (h.placed segment hsegment sect hsect).has_segment hfilled hptr
  refine ⟨hfile.2.trans (h.fits segment hsegment).2, ?_⟩
  rw [machoPtrToVa_of_has h hsegment hsect hfilled hptr, ← hplace, Nat.add_sub_cancel_left,
    Nat.add_sub_cancel' haddr.1]
  exact congrArg some (BitVec.ofNat_toNat 64 addr)

theorem machoVaToPtr_of_machoPtrToVa (h : LaidOut m buf) (hlt : ptr < 2 ^ 64)
    (hva : machoPtrToVa m buf ptr = some addr) :
    InSection m buf addr ∧ machoVaToPtr m buf addr = some ptr := by
  obtain ⟨sect, hfind⟩ := Option.isSome_iff_exists.mp
    (machoPtrToVa_isSome.mp (by rw [hva]; rfl) h.check)
  obtain ⟨segment, hfindSegment, hfindSection⟩ := Option.bind_eq_some_iff.mp hfind
  obtain ⟨hsegment, hin⟩ := (machoGetSegmentForPtr_eq_some h hlt).mp hfindSegment
  obtain ⟨hsect, hptr⟩ := (machoGetSectionForPtr_eq_some h hsegment hlt hin).mp hfindSection
  have hplaced := h.placed segment hsegment sect hsect
  have hfilled := hplaced.filled hin hptr
  have hfits := hplaced.va.2.trans_lt (h.fits segment hsegment).1
  rw [machoPtrToVa_of_has h hsegment hsect hfilled hptr, Option.some.injEq] at hva
  obtain ⟨k, rfl⟩ := Nat.exists_eq_add_of_le hptr.1
  have hk : k < (u64 m (sect + 40)).toNat := Nat.add_lt_add_iff_left.mp hptr.2
  have haddr : addr.toNat = (sectionVa m sect).start + k := by
    rw [← hva, Nat.add_sub_cancel_left, BitVec.toNat_ofNat, Nat.mod_eq_of_lt]
    exact (Nat.add_lt_add_left hk _).trans hfits
  have hhas : (sectionVa m sect).Has addr.toNat := by
    rw [haddr]
    exact ⟨Nat.le_add_right _ _, Nat.add_lt_add_left hk _⟩
  refine ⟨⟨segment, hsegment, sect, hsect, hfilled, hhas⟩, ?_⟩
  rw [machoVaToPtr_of_has h hsegment hsect hfilled hhas, haddr, Nat.add_sub_cancel_left]

/-- A place with an address is behind the header. -/
theorem lt_of_machoPtrToVa (h : LaidOut m buf) (hlt : ptr < 2 ^ 64)
    (hva : machoPtrToVa m buf ptr = some addr) : buf < ptr := by
  obtain ⟨⟨segment, hsegment, sect, hsect, hfilled, haddr⟩, hplace⟩ :=
    machoVaToPtr_of_machoPtrToVa h hlt hva
  rw [machoVaToPtr_of_has h hsegment hsect hfilled haddr, Option.some.injEq] at hplace
  rw [← hplace]
  have hpos : 0 < (u32 m (sect + 48)).toNat := by
    refine Nat.pos_of_ne_zero fun hzero => hfilled ?_
    exact BitVec.eq_of_toNat_eq hzero
  exact (Nat.lt_add_of_pos_right hpos).trans_le (Nat.le_add_right _ _)

/-- **The translations are inverse to each other**, between the addresses and the bytes of the
sections. -/
theorem machoVaToPtr_iff (h : LaidOut m buf) (addr : BitVec 64) (ptr : ℕ) :
    (InSection m buf addr ∧ machoVaToPtr m buf addr = some ptr) ↔
      ptr < 2 ^ 64 ∧ machoPtrToVa m buf ptr = some addr := by
  constructor
  · rintro ⟨hin, hplace⟩
    exact machoPtrToVa_of_machoVaToPtr h hin hplace
  · rintro ⟨hlt, hva⟩
    exact machoVaToPtr_of_machoPtrToVa h hlt hva

/-! ## A small image -/

/-- A 64-bit number, as two words. -/
def dwords (v : BitVec 64) : List (BitVec 32) := [v.setWidth 32, v.extractLsb' 32 32]

def segmentWords (vmaddr vmsize fileoff filesize : BitVec 64) (sections : List (List (BitVec 32))) :
    List (BitVec 32) :=
  [lcSegment64, BitVec.ofNat 32 (72 + 80 * sections.length), 0, 0, 0, 0] ++ dwords vmaddr ++
    dwords vmsize ++ dwords fileoff ++ dwords filesize ++
      [0, 0, BitVec.ofNat 32 sections.length, 0] ++ sections.flatten

def sectionWords (addr size : BitVec 64) (offset : BitVec 32) : List (BitVec 32) :=
  List.replicate 8 0 ++ dwords addr ++ dwords size ++ [offset] ++ List.replicate 7 0

/-- Text at 0x200, data at 0x1000 and zeros at 0x2000, linked at 0x10000. -/
def smallHeader : List (BitVec 32) :=
  [machHeader64Magic, 0, 0, 0, 2, 0, 0, 0] ++
    segmentWords 0x10000 0x1000 0 0x1000 [sectionWords 0x10200 0x100 0x200] ++
    segmentWords 0x11000 0x2000 0x1000 0x1000
      [sectionWords 0x11000 0x10 0x1000, sectionWords 0x12000 0x100 0]

/-- A reference to the data, a `bl` to a veneer, the veneer, which goes to the `ret` behind it, and
a conditional branch. -/
def smallText : List (BitVec 32) :=
  [0xb0000001, 0x91002021, 0x94000001, 0xb0000010, 0xf9400210, 0xd61f0200, 0xd65f03c0, 0x54000041]

/-- The image, at 0x4000. -/
def smallImage : Memory 32 :=
  write (write (write (fun _ => 0) 0x1000 smallHeader) 0x1080 smallText) 0x1400 [0x10218, 0, 5, 6]

theorem smallImage_laidOut : LaidOut (bytes smallImage) 0x4000 where
  check := by decide +kernel
  fits := by decide +kernel
  vaApart := by decide +kernel
  fileApart := by decide +kernel
  placed := by decide +kernel
  sectionsApart := by decide +kernel

theorem machoVaToPtr_iff_small :
    (InSection (bytes smallImage) 0x4000 0x11008 ∧
      machoVaToPtr (bytes smallImage) 0x4000 0x11008 = some 0x5008) ↔
      0x5008 < 2 ^ 64 ∧ machoPtrToVa (bytes smallImage) 0x4000 0x5008 = some 0x11008 :=
  machoVaToPtr_iff smallImage_laidOut 0x11008 0x5008

/-- Where a segment begins without a section there is a place, whose address is asked of a null
pointer. -/
example : machoVaToPtr (bytes smallImage) 0x4000 0x10000 = some 0x4000 ∧
    machoPtrToVa (bytes smallImage) 0x4000 0x4000 = none := by decide +kernel

end Jbinit.PatchDyld

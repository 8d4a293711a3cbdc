import Jbinit.CString
import Jbinit.Foundations.Overwrite
import Jbinit.Foundations.Reads

/-!
# `clean_fakefs`

fakedyld looks for the snapshot `orig-fs` of the fakefs volume in one listing of 2048 bytes. It
reads the entries that are there without leaving the buffer (`findOrigFs_records`), but it does not
ask for those that do not fit, so it panics where `orig-fs` is behind the 2048 bytes
(`cleanFakefs_exact_iff`).
-/

namespace Jbinit.Fakedyld

open Foundations LittleEndian Reads

abbrev Bytes := List Byte

/-! ## The attributes of an entry -/

structure AttributeSet where
  commonattr : BitVec 32
  volattr : BitVec 32
  dirattr : BitVec 32
  fileattr : BitVec 32
  forkattr : BitVec 32

structure AttrReference where
  dataoffset : BitVec 32
  length : BitVec 32

def attrCmnName : BitVec 32 := 1

def attributeSetAt (abuf : Bytes) (p : ℤ) : Option AttributeSet := do
  let commonattr ← wordAt abuf p
  let volattr ← wordAt abuf (p + 4)
  let dirattr ← wordAt abuf (p + 8)
  let fileattr ← wordAt abuf (p + 12)
  let forkattr ← wordAt abuf (p + 16)
  return ⟨commonattr, volattr, dirattr, fileattr, forkattr⟩

def attrReferenceAt (abuf : Bytes) (p : ℤ) : Option AttrReference := do
  let dataoffset ← wordAt abuf p
  let length ← wordAt abuf (p + 4)
  return ⟨dataoffset, length⟩

/-! ## The walk over the entries -/

def origFs : Bytes := "orig-fs".toList.map fun c => BitVec.ofNat 8 c.toNat

/-- `strcmp`, of the characters before a NUL and of a pointer into the buffer. -/
def strcmp : Bytes → Bytes → ℤ → Option ℤ
  | [], abuf, p => do
    let c ← byteAt abuf p
    return 0 - c.toInt
  | c₁ :: s, abuf, p => do
    let c₂ ← byteAt abuf p
    if c₁ = c₂ then strcmp s abuf (p + 1) else return c₁.toInt - c₂.toInt

/-- The loop over `count` entries from `p` on; the result is `none` for a read outside of the
buffer. -/
def findOrigFs (abuf : Bytes) : ℕ → ℤ → Option Bool
  | 0, _ => some false
  | count + 1, p => do
    let len ← wordAt abuf p
    let attrs ← attributeSetAt abuf (p + 4)
    if attrs.commonattr &&& attrCmnName ≠ 0 then do
      let field := p + 24
      let ar ← attrReferenceAt abuf field
      let r ← strcmp origFs abuf (field + ar.dataoffset.toInt)
      if r = 0 then return true else findOrigFs abuf count (p + len.toNat)
    else findOrigFs abuf count (p + len.toNat)

/-! ## The listing -/

/-- An entry of a listing: it begins with its own length, and the name is at the offset that its
reference has. -/
structure Record where
  bytes : Bytes
  attrs : AttributeSet
  reference : AttrReference
  name : Bytes
  length_lt : bytes.length < 2 ^ 32
  length_at : wordAt bytes 0 = some (BitVec.ofNat 32 bytes.length)
  attrs_at : attributeSetAt bytes 4 = some attrs
  has_name : attrs.commonattr &&& attrCmnName ≠ 0
  reference_at : attrReferenceAt bytes 24 = some reference
  name_ne : 0#8 ∉ name
  name_at : bytesAt bytes (24 + reference.dataoffset.toInt) (name.length + 1) = some (name ++ [0#8])

/-- The snapshots of a volume, in the order of the listing. -/
structure Volume where
  snapshots : List Record
  distinct : (snapshots.map Record.name).Nodup

def size (records : List Record) : ℕ := (records.map fun r => r.bytes.length).sum

/-- As many entries as fit. -/
def fitting : ℕ → List Record → List Record
  | _, [] => []
  | bufsize, r :: records =>
    if r.bytes.length ≤ bufsize then r :: fitting (bufsize - r.bytes.length) records else []

/-- `getattrlistbulk` on a descriptor that has these entries left: how many it returns, the buffer,
and the entries that are left then. -/
def getattrlistbulk (left : List Record) (abuf : Bytes) (bufsize : ℕ) :
    ℤ × Bytes × List Record :=
  let returned := fitting bufsize left
  (returned.length, overwrite abuf 0 (returned.flatMap Record.bytes), left.drop returned.length)

/-! ## The function -/

/-- One try: whether the volume is mounted, and whether its `/private/` is there. -/
structure Attempt where
  mounted : Bool
  stat : Bool

/-- What the calls answer. -/
structure System where
  /-- The tries to mount a device, one after the other. -/
  attempts : CStr → List Attempt
  opened : Bool
  listed : Bool
  reverted : Bool
  unmounted : Bool

/-- `fs_snapshot_list`, on a descriptor of the volume. -/
def fsSnapshotList (system : System) (left : List Record) (abuf : Bytes) (bufsize flags : ℕ) :
    ℤ × Bytes × List Record :=
  if flags ≠ 0 then (-1, abuf, left)
  else if system.listed then getattrlistbulk left abuf bufsize
  else (-1, abuf, left)

/-- The loop of `retry_rootfs_mount`: whether it ends within these tries. -/
def retryRootfsMount : List Attempt → Bool
  | [] => false
  | a :: attempts =>
    if a.mounted then
      if a.stat then true else retryRootfsMount attempts
    else retryRootfsMount attempts

/-- How far it comes. A panic with the volume as it was is apart from one behind a revert that
succeeded. -/
inductive Outcome
  | retrying
  | outOfBounds
  | panicked (message : String)
  | reverted (result : Except String Unit)

/-- What is done behind `list_done`. -/
def listDone (system : System) (foundOrigFs : Bool) : Outcome :=
  if !foundOrigFs then .panicked
    "could not find orig-fs snapshot, this function can only be used with a new enough fakefs"
  else if !system.reverted then .panicked "could not revert orig-fs"
  else .reverted <|
    if !system.unmounted then .error "could not unmount test rootfs" else .ok ()

/-- `clean_fakefs`, with what is on the stack where the buffer is. -/
def cleanFakefs (system : System) (volume : Volume) (stack : Vector Byte 2048) (rootdev : CStr) :
    Outcome :=
  let devRootdev := CStr.snprintf 32 ("/dev/".toList ++ rootdev)
  if !retryRootfsMount (system.attempts devRootdev) then .retrying
  else if !system.opened then .panicked "could not open test rootfs"
  else
    let (count, abuf, _) := fsSnapshotList system volume.snapshots stack.toList 2048 0
    if count < 0 then .panicked "could not list snapshot on test rootfs"
    else if count = 0 then listDone system false
    else match findOrigFs abuf count.toNat 0 with
      | none => .outOfBounds
      | some foundOrigFs => listDone system foundOrigFs

/-! ## The walk stays inside the buffer -/

section Reads

variable {abuf : Bytes} {p : ℤ} (pre post : Bytes)

theorem attributeSetAt_append {attrs : AttributeSet} (h : attributeSetAt abuf p = some attrs) :
    attributeSetAt (pre ++ (abuf ++ post)) (pre.length + p) = some attrs := by
  simp only [attributeSetAt, Option.bind_eq_bind, Option.bind_eq_some_iff, Option.pure_def,
    Option.some.injEq, Int.add_assoc] at h ⊢
  obtain ⟨commonattr, h₁, volattr, h₂, dirattr, h₃, fileattr, h₄, forkattr, h₅, hattrs⟩ := h
  exact ⟨commonattr, wordAt_append pre post h₁, volattr, wordAt_append pre post h₂,
    dirattr, wordAt_append pre post h₃, fileattr, wordAt_append pre post h₄,
    forkattr, wordAt_append pre post h₅, hattrs⟩

theorem attrReferenceAt_append {ar : AttrReference} (h : attrReferenceAt abuf p = some ar) :
    attrReferenceAt (pre ++ (abuf ++ post)) (pre.length + p) = some ar := by
  simp only [attrReferenceAt, Option.bind_eq_bind, Option.bind_eq_some_iff, Option.pure_def,
    Option.some.injEq, Int.add_assoc] at h ⊢
  obtain ⟨dataoffset, h₁, length, h₂, har⟩ := h
  exact ⟨dataoffset, wordAt_append pre post h₁, length, wordAt_append pre post h₂, har⟩

end Reads

theorem toInt_sub_eq_zero (b c : Byte) : b.toInt - c.toInt = 0 ↔ b = c := by
  rw [Int.sub_eq_zero, BitVec.toInt_inj]

/-- `strcmp` is right for a string that ends inside the buffer. -/
theorem strcmp_iff {abuf s name : Bytes} {p : ℤ} (hs : 0#8 ∉ s) (hname : 0#8 ∉ name)
    (h : bytesAt abuf p (name.length + 1) = some (name ++ [0#8])) :
    ∃ r, strcmp s abuf p = some r ∧ (r = 0 ↔ s = name) := by
  induction s generalizing name p with
  | nil =>
    cases name with
    | nil =>
      rw [List.nil_append, List.length_nil, bytesAt_succ] at h
      exact ⟨0, by simp [strcmp, h.1], by simp⟩
    | cons b name =>
      rw [List.cons_append, bytesAt_succ] at h
      rw [List.mem_cons, not_or] at hname
      refine ⟨0 - b.toInt, by simp [strcmp, h.1], ?_⟩
      have hb := toInt_sub_eq_zero 0#8 b
      rw [BitVec.toInt_zero] at hb
      exact iff_of_false (fun h => hname.1 (hb.mp h)) (List.cons_ne_nil b name).symm
  | cons c s ih =>
    rw [List.mem_cons, not_or] at hs
    cases name with
    | nil =>
      rw [List.nil_append, List.length_nil, bytesAt_succ] at h
      have hc : c ≠ 0#8 := Ne.symm hs.1
      exact ⟨c.toInt - (0#8).toInt, by simp [strcmp, h.1, hc], by
        rw [toInt_sub_eq_zero]
        simp [hc]⟩
    | cons b name =>
      rw [List.cons_append, bytesAt_succ] at h
      rw [List.mem_cons, not_or] at hname
      by_cases hcb : c = b
      · obtain ⟨r, hr, hiff⟩ := ih hs.2 hname.2 h.2
        exact ⟨r, by simp [strcmp, h.1, hcb, hr], by simp [hiff, hcb]⟩
      · exact ⟨c.toInt - b.toInt, by simp [strcmp, h.1, hcb], by
          rw [toInt_sub_eq_zero]
          simp [hcb]⟩

theorem zero_notMem_origFs : 0#8 ∉ origFs := by
  unfold origFs
  decide

/-- One entry, anywhere in the buffer. -/
theorem findOrigFs_record (r : Record) (pre post : Bytes) (count : ℕ) :
    findOrigFs (pre ++ (r.bytes ++ post)) (count + 1) pre.length =
      if r.name = origFs then some true
      else findOrigFs (pre ++ (r.bytes ++ post)) count (pre ++ r.bytes).length := by
  have hlen := wordAt_append pre post r.length_at
  have hattrs := attributeSetAt_append pre post r.attrs_at
  have hreference := attrReferenceAt_append pre post r.reference_at
  have hname := bytesAt_append pre post r.name_at
  rw [← Int.add_assoc] at hname
  obtain ⟨result, hstrcmp, hiff⟩ := strcmp_iff zero_notMem_origFs r.name_ne hname
  have hmod : (BitVec.ofNat 32 r.bytes.length).toNat = r.bytes.length := by
    rw [BitVec.toNat_ofNat, Nat.mod_eq_of_lt r.length_lt]
  rw [Int.add_zero] at hlen
  rw [findOrigFs, hlen]
  simp only [Option.bind_eq_bind, Option.bind_some, hattrs, if_pos r.has_name, hreference, hstrcmp,
    hiff, hmod, List.length_append, Int.natCast_add, eq_comm (a := origFs)]
  rfl

/-- **The walk over entries that are in the buffer.** -/
theorem findOrigFs_records (records : List Record) (pre post : Bytes) :
    findOrigFs (pre ++ (records.flatMap Record.bytes ++ post)) records.length pre.length =
      some (records.any fun r => r.name = origFs) := by
  induction records generalizing pre with
  | nil => rfl
  | cons r records ih =>
    have hrest := ih (pre ++ r.bytes)
    rw [List.append_assoc] at hrest
    rw [List.length_cons, List.flatMap_cons, List.append_assoc, findOrigFs_record, hrest]
    by_cases hname : r.name = origFs <;> simp [hname]

/-! ## Which entries are in the buffer -/

@[simp] theorem size_nil : size [] = 0 := rfl

@[simp] theorem size_cons (r : Record) (records : List Record) :
    size (r :: records) = r.bytes.length + size records := by
  rw [size, List.map_cons, List.sum_cons, size]

/-- An entry is returned if all up to it fit. -/
theorem mem_fitting_iff {records : List Record} {bufsize : ℕ} {r : Record} :
    r ∈ fitting bufsize records ↔
      ∃ pre post, records = pre ++ r :: post ∧ size (pre ++ [r]) ≤ bufsize := by
  induction records generalizing bufsize with
  | nil => simp [fitting]
  | cons r' records ih =>
    rw [fitting]
    by_cases hle : r'.bytes.length ≤ bufsize
    · rw [if_pos hle, List.mem_cons, ih]
      constructor
      · rintro (rfl | ⟨pre, post, rfl, hsize⟩)
        · exact ⟨[], records, rfl, by simpa using hle⟩
        · refine ⟨r' :: pre, post, rfl, ?_⟩
          rw [List.cons_append, size_cons]
          omega
      · rintro ⟨pre, post, heq, hsize⟩
        cases pre with
        | nil => exact .inl (List.cons.inj heq).1.symm
        | cons first pre =>
          obtain ⟨rfl, rfl⟩ := List.cons.inj heq
          rw [List.cons_append, size_cons] at hsize
          exact .inr ⟨pre, post, rfl, by omega⟩
    · rw [if_neg hle]
      refine iff_of_false List.not_mem_nil ?_
      rintro ⟨pre, post, heq, hsize⟩
      cases pre with
      | nil =>
        obtain ⟨rfl, rfl⟩ := List.cons.inj heq
        rw [List.nil_append, size_cons] at hsize
        omega
      | cons first pre =>
        obtain ⟨rfl, rfl⟩ := List.cons.inj heq
        rw [List.cons_append, size_cons] at hsize
        omega

/-! ## The revert -/

/-- The volume is mounted and opened, and its snapshots are listed. -/
structure System.Ready (system : System) (rootdev : CStr) : Prop where
  mounts : retryRootfsMount (system.attempts (CStr.snprintf 32 ("/dev/".toList ++ rootdev))) = true
  opens : system.opened = true
  lists : system.listed = true

/-- The calls behind `list_done` succeed. -/
structure System.Reverts (system : System) : Prop where
  reverts : system.reverted = true
  unmounts : system.unmounted = true

/-- There is a snapshot with the name `orig-fs`. -/
def Volume.HasOrigFs (volume : Volume) : Prop := ∃ r ∈ volume.snapshots, r.name = origFs

/-- The volume is reverted, without a panic, if it has `orig-fs`; without it `clean_fakefs` panics
and does not revert. -/
def Exact (volume : Volume) (outcome : Outcome) : Prop :=
  (volume.HasOrigFs → outcome = .reverted (.ok ())) ∧
    (¬volume.HasOrigFs → ∃ message, outcome = .panicked message)

/-- No snapshot is `orig-fs`, or the entries up to it are no longer than the buffer. -/
def Volume.FitsUpToOrigFs (volume : Volume) : Prop :=
  ¬volume.HasOrigFs ∨ ∃ pre r post,
    volume.snapshots = pre ++ r :: post ∧ r.name = origFs ∧ size (pre ++ [r]) ≤ 2048

variable {system : System} {rootdev : CStr} {volume : Volume} {stack : Vector Byte 2048}

/-- What is in the buffer decides. -/
theorem cleanFakefs_eq (h : system.Ready rootdev) :
    cleanFakefs system volume stack rootdev =
      listDone system ((fitting 2048 volume.snapshots).any fun r => r.name = origFs) := by
  have hlist : fsSnapshotList system volume.snapshots stack.toList 2048 0 =
      getattrlistbulk volume.snapshots stack.toList 2048 := by
    simp [fsSnapshotList, h.lists]
  rw [cleanFakefs, h.mounts, h.opens, hlist, getattrlistbulk]
  generalize fitting 2048 volume.snapshots = returned
  have hwalk := findOrigFs_records returned []
    (stack.toList.drop (0 + (returned.flatMap Record.bytes).length))
  rw [List.nil_append, List.length_nil, Int.natCast_zero] at hwalk
  cases returned with
  | nil => rfl
  | cons r returned =>
    have hpos : ¬((r :: returned).length : ℤ) < 0 ∧ ¬((r :: returned).length : ℤ) = 0 := by
      rw [List.length_cons]
      omega
    simp only [overwrite, List.take_zero, List.nil_append, Bool.not_true, Bool.false_eq_true,
      if_false, if_neg hpos.1, if_neg hpos.2, Int.toNat_natCast]
    rw [hwalk]

variable (system) in
theorem listDone_false : ∃ message, listDone system false = .panicked message := ⟨_, rfl⟩

theorem listDone_true_iff : listDone system true = .reverted (.ok ()) ↔ system.Reverts := by
  rw [listDone]
  cases hreverted : system.reverted with
  | false => simpa using fun h : system.Reverts => absurd h.reverts (by simp [hreverted])
  | true =>
    cases hunmounted : system.unmounted with
    | false => simpa using fun h : system.Reverts => absurd h.unmounts (by simp [hunmounted])
    | true => simpa using System.Reverts.mk hreverted hunmounted

/-- **When `clean_fakefs` does what it is for.** -/
theorem cleanFakefs_exact_iff (h : system.Ready rootdev) :
    Exact volume (cleanFakefs system volume stack rootdev) ↔
      volume.FitsUpToOrigFs ∧ (volume.HasOrigFs → system.Reverts) := by
  have hfound : (fitting 2048 volume.snapshots).any (fun r => r.name = origFs) = true ↔
      ∃ pre r post, volume.snapshots = pre ++ r :: post ∧ r.name = origFs ∧
        size (pre ++ [r]) ≤ 2048 := by
    rw [List.any_eq_true]
    constructor
    · rintro ⟨r, hr, hname⟩
      obtain ⟨pre, post, heq, hsize⟩ := mem_fitting_iff.mp hr
      exact ⟨pre, r, post, heq, of_decide_eq_true hname, hsize⟩
    · rintro ⟨pre, r, post, heq, hname, hsize⟩
      exact ⟨r, mem_fitting_iff.mpr ⟨pre, post, heq, hsize⟩, decide_eq_true hname⟩
  rw [cleanFakefs_eq h, Volume.FitsUpToOrigFs, ← hfound, Exact]
  cases hany : (fitting 2048 volume.snapshots).any fun r => r.name = origFs with
  | true =>
    obtain ⟨pre, r, post, heq, hname, -⟩ := hfound.mp hany
    have hhas : volume.HasOrigFs := ⟨r, by simp [heq], hname⟩
    simp [listDone_true_iff, hhas]
  | false =>
    obtain ⟨message, hpanics⟩ := listDone_false system
    rw [hpanics]
    by_cases hhas : volume.HasOrigFs <;> simp [hhas]

/-! ## A listing that does not fit -/

/-- What is in front of the name of an entry. -/
def header (n : ℕ) : List ℕ := [33 + n, 0x80000001, 0, 0, 0, 0, 8, n + 1]

/-- An entry with nothing but a name. -/
def Record.ofName (name : Bytes) (hlength : name.length < 256) (hname : 0#8 ∉ name) : Record where
  bytes := (header name.length).flatMap (toBytes 4) ++ (name ++ [0#8])
  attrs := ⟨0x80000001#32, 0#32, 0#32, 0#32, 0#32⟩
  reference := ⟨8#32, BitVec.ofNat 32 (name.length + 1)⟩
  name := name
  length_lt := by
    simp only [header, List.flatMap_cons, List.flatMap_nil, List.length_append, length_toBytes,
      List.length_singleton, List.length_nil]
    omega
  length_at := by
    have h := wordAt_words (name ++ [0#8]) (header name.length) (i := 0) rfl (by omega)
    have hlength : ((header name.length).flatMap (toBytes 4) ++ (name ++ [0#8])).length =
        33 + name.length := by
      simp only [header, List.flatMap_cons, List.flatMap_nil, List.length_append, length_toBytes,
        List.length_singleton, List.length_nil]
      omega
    rw [hlength]
    exact h
  attrs_at := rfl
  has_name := by decide
  reference_at := by
    have hoffset : wordAt ((header name.length).flatMap (toBytes 4) ++ (name ++ [0#8])) 24 =
        some 8#32 := wordAt_words (name ++ [0#8]) (header name.length) (i := 6) rfl
          (by omega)
    have hlength : wordAt ((header name.length).flatMap (toBytes 4) ++ (name ++ [0#8])) (24 + 4) =
        some (BitVec.ofNat 32 (name.length + 1)) :=
      wordAt_words (name ++ [0#8]) (header name.length) (i := 7) rfl (by omega)
    rw [attrReferenceAt, hoffset, hlength]
    rfl
  name_ne := hname
  name_at := by
    have h := bytesAt_length ((header name.length).flatMap (toBytes 4)) [] (name ++ [0#8])
    rw [List.append_nil, List.length_append, List.length_singleton] at h
    exact h

/-- Names with 220 characters, of which the first is a letter. -/
def longName (i : Fin 26) : Bytes := BitVec.ofNat 8 (0x61 + i) :: List.replicate 219 0x61#8

theorem length_longName (i : Fin 26) : (longName i).length = 220 := by
  rw [longName, List.length_cons, List.length_replicate]

theorem zero_notMem_longName (i : Fin 26) : 0#8 ∉ longName i := by
  have hletter : ∀ i : Fin 26, 0#8 ≠ BitVec.ofNat 8 (0x61 + i) := by decide
  rw [longName, List.mem_cons, not_or]
  exact ⟨hletter i, fun h => absurd (List.eq_of_mem_replicate h) (by decide)⟩

def longRecord (i : Fin 26) : Record :=
  .ofName (longName i) (by rw [length_longName]; omega) (zero_notMem_longName i)

def origFsRecord : Record := .ofName origFs (by decide) zero_notMem_origFs

/-- Nine such snapshots, with 2277 bytes in the listing, and `orig-fs` behind them. -/
def crowdedVolume : Volume where
  snapshots := [0, 1, 2, 3, 4, 5, 6, 7, 8].map longRecord ++ [origFsRecord]
  distinct := by decide +kernel

def readySystem : System := ⟨fun _ => [⟨true, true⟩], true, true, true, true⟩

/-- A volume with `orig-fs` that is not reverted. -/
theorem cleanFakefs_crowded : ¬Exact crowdedVolume
    (cleanFakefs readySystem crowdedVolume (Vector.replicate 2048 0) "disk0s1s8".toList) := by
  have hready : readySystem.Ready "disk0s1s8".toList := ⟨rfl, rfl, rfl⟩
  have hhas : crowdedVolume.HasOrigFs := ⟨_, List.mem_of_getElem? (i := 9) rfl, rfl⟩
  have hfitting : (fitting 2048 crowdedVolume.snapshots).any (fun r => r.name = origFs) = false := by
    decide +kernel
  rw [cleanFakefs_eq hready, hfitting]
  rintro ⟨hreverts, -⟩
  cases hreverts hhas

/-- A volume that has `orig-fs` only. -/
def plainVolume : Volume where
  snapshots := [origFsRecord]
  distinct := by decide

theorem cleanFakefs_exact_iff_plain :
    Exact plainVolume
        (cleanFakefs readySystem plainVolume (Vector.replicate 2048 0) "disk0s1s8".toList) ↔
      plainVolume.FitsUpToOrigFs ∧ (plainVolume.HasOrigFs → readySystem.Reverts) :=
  cleanFakefs_exact_iff ⟨rfl, rfl, rfl⟩

end Jbinit.Fakedyld

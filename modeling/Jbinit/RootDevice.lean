import Jbinit.Palera1nd.Sys
import Jbinit.Foundations.Substrings

/-!
# The names of the root device

The volumes of an APFS container have its BSD name, an `s` and a number. `mountroot` derives the
name of the system volume from that of the root device, and `volume_prefix` the name without the
number from what is mounted at the root. `mountroot` replaces a character and not a number, so it is
right for numbers of one digit (`mountroot_derives_iff`). Of the two copies of `volume_prefix`, one
does not skip `/dev/` where there is no snapshot (`volumePrefix_agree_iff`).
-/

namespace Jbinit.RootDevice

open Foundations Substrings Palera1nd

def palerainOptionSetupRootful : Flags := 1#64 <<< 2

def palerainOptionBindMount : Flags := 1#64 <<< 22

def dev : CStr := "/dev/".toList

def atDev : CStr := "@/dev/".toList

/-! ## `mountroot.c` -/

def mntRdonly : BitVec 32 := 1

def mntUnion : BitVec 32 := 0x20

/-- What `mountroot` waits for, and what it mounts then. -/
structure RootMount where
  devRealfs : CStr
  devRootdev : CStr
  rootopts : BitVec 32

def mountroot (pinfo : Paleinfo) : RootMount :=
  let buf := CStr.snprintf 32 (dev ++ pinfo.rootdev)
  let devRealfs := buf.set (buf.length - 1) '1'
  { devRealfs
    devRootdev :=
      if pinfo.flags.has palerainOptionSetupRootful then CStr.snprintf 32 devRealfs
      else CStr.snprintf 32 (dev ++ pinfo.rootdev)
    rootopts := if pinfo.flags.has palerainOptionBindMount then mntRdonly
      else mntRdonly ||| mntUnion }

/-! ## `prepare_root.c` and `setup_fakefs.c` -/

structure Statfs where
  fstypename : CStr
  mntfromname : CStr

/-- `volume_prefix`, with the static buffer as it is before and with the number of characters that
are skipped where there is no snapshot; the result is in the static buffer afterwards. -/
def volumePrefixSkipping (skipped : ℕ) (statfsFailed : String) (buf : CStr)
    (rootfs : Option Statfs) : Except String CStr :=
  if buf ≠ [] then .ok buf
  else match rootfs with
    | none => .error statfsFailed
    | some st =>
      if st.fstypename ≠ "apfs".toList then .error "unexpected filesystem type of /"
      else
        let pBSDName := match search atDev st.mntfromname with
          | some found => found.drop 6
          | none => st.mntfromname.drop skipped
        .ok (CStr.snprintf 32 (pBSDName.take (afterLast 's' 0 0 pBSDName)))

def Fakedyld.volumePrefix : CStr → Option Statfs → Except String CStr :=
  volumePrefixSkipping 0 "statfs64(/) failed"

def Loader.volumePrefix : CStr → Option Statfs → Except String CStr :=
  volumePrefixSkipping 5 "statfs / failed"

/-- `container_name`, with what `volume_prefix` returns. -/
def Loader.containerName (buf volumePre : CStr) : CStr :=
  if buf ≠ [] then buf else (CStr.snprintf 32 volumePre).dropLast

/-! ## Names -/

/-- A number as it is written. -/
structure Decimal where
  digits : CStr
  ne_nil : digits ≠ []
  isDigit : ∀ c ∈ digits, c.isDigit = true

/-- A volume of an APFS container. -/
structure Volume where
  container : CStr
  index : Decimal
  noSlash : '/' ∉ container

def Volume.stem (v : Volume) : CStr := v.container ++ ['s']

def Volume.bsdName (v : Volume) : CStr := v.stem ++ v.index.digits

/-- What a volume is mounted from: the volume itself, or one of its snapshots. -/
inductive MountSource
  | plain
  | snapshot (name : CStr) (apart : ¬atDev <:+: name)

def MountSource.mntfromname (v : Volume) : MountSource → CStr
  | .plain => dev ++ v.bsdName
  | .snapshot name _ => name ++ (atDev ++ v.bsdName)

/-- The volume is mounted at the root. -/
def MountSource.rootfs (s : MountSource) (v : Volume) : Option Statfs :=
  some ⟨"apfs".toList, s.mntfromname v⟩

/-- `disk<c>s<n>`, or `disk<c>s<p>s<n>` with a partition. -/
structure Device where
  disk : Decimal
  partition : Option Decimal
  index : Decimal

def Device.stem (d : Device) : CStr :=
  "disk".toList ++ d.disk.digits ++ (match d.partition with
    | some partition => 's' :: partition.digits
    | none => []) ++ ['s']

def Device.bsdName (d : Device) : CStr := d.stem ++ d.index.digits

/-! ## The properties -/

/-- The system volume has the name of the root device with its last number replaced, and the root
device is the one that was asked for, unless the copy of the root is to be set up. -/
structure Derives (d : Device) (flags : Flags) (mount : RootMount) : Prop where
  realfs : mount.devRealfs = dev ++ d.stem ++ ['1']
  rootdev : flags.has palerainOptionSetupRootful = false → mount.devRootdev = dev ++ d.bsdName

/-- Both find the name of the volume without its number. -/
structure PrefixesAgree (v : Volume) (s : MountSource) : Prop where
  agree : Fakedyld.volumePrefix [] (s.rootfs v) = Loader.volumePrefix [] (s.rootfs v)
  bsdName : ∃ stem, Loader.volumePrefix [] (s.rootfs v) = .ok stem ∧
    stem ++ v.index.digits = v.bsdName

/-- A snapshot is mounted, and the prefix fits the buffer. -/
def FromSnapshot (v : Volume) (s : MountSource) : Prop :=
  s ≠ .plain ∧ v.stem.length < 32

/-! ## `mountroot` -/

theorem length_dev : dev.length = 5 := rfl

theorem set_last (l : CStr) (a b : Char) : (l ++ [a]).set ((l ++ [a]).length - 1) b = l ++ [b] := by
  simp

/-- The last character of the name is replaced. -/
theorem devRealfs_eq {d : Device} {pinfo : Paleinfo} (hrootdev : pinfo.rootdev = d.bsdName)
    (hfits : pinfo.rootdev.length < 16) :
    (mountroot pinfo).devRealfs = dev ++ d.stem ++ d.index.digits.dropLast ++ ['1'] := by
  have hlength : (dev ++ d.bsdName).length < 32 := by
    rw [← hrootdev, List.length_append, length_dev]
    omega
  have hname : dev ++ d.bsdName =
      dev ++ d.stem ++ d.index.digits.dropLast ++ [d.index.digits.getLast d.index.ne_nil] := by
    rw [Device.bsdName, List.append_assoc _ d.index.digits.dropLast,
      List.dropLast_append_getLast, List.append_assoc]
  simp only [mountroot, hrootdev]
  rw [CStr.snprintf_of_lt hlength, hname, set_last]

theorem devRootdev_eq {d : Device} {pinfo : Paleinfo} (hrootdev : pinfo.rootdev = d.bsdName)
    (hfits : pinfo.rootdev.length < 16) (hflags : pinfo.flags.has palerainOptionSetupRootful = false) :
    (mountroot pinfo).devRootdev = dev ++ d.bsdName := by
  have hlength : (dev ++ d.bsdName).length < 32 := by
    rw [← hrootdev, List.length_append, length_dev]
    omega
  simp only [mountroot, hrootdev, hflags]
  exact CStr.snprintf_of_lt hlength

/-- **The system volume**: its name is derived from that of the root device exactly when the number
of the volume has one digit. -/
theorem mountroot_derives_iff {d : Device} {pinfo : Paleinfo}
    (hrootdev : pinfo.rootdev = d.bsdName) (hfits : pinfo.rootdev.length < 16) :
    Derives d pinfo.flags (mountroot pinfo) ↔ d.index.digits.length = 1 := by
  constructor
  · intro h
    have hlength := congrArg List.length ((devRealfs_eq hrootdev hfits).symm.trans h.realfs)
    have hpos := List.length_pos_of_ne_nil d.index.ne_nil
    simp only [List.length_append, List.length_dropLast] at hlength
    omega
  · intro hdigit
    constructor
    case realfs =>
      have hnil : d.index.digits.dropLast = [] := by
        apply List.eq_nil_of_length_eq_zero
        rw [List.length_dropLast, hdigit]
      rw [devRealfs_eq hrootdev hfits, hnil, List.append_nil]
    case rootdev => exact devRootdev_eq hrootdev hfits

/-! ## `volume_prefix` -/

variable {v : Volume} {s : MountSource}

theorem s_not_mem_digits (n : Decimal) : 's' ∉ n.digits :=
  fun h => absurd (n.isDigit 's' h) (by decide)

theorem slash_not_mem_bsdName (v : Volume) : '/' ∉ v.bsdName := by
  have hdigits : '/' ∉ v.index.digits := fun h => absurd (v.index.isDigit '/' h) (by decide)
  simp [Volume.bsdName, Volume.stem, v.noSlash, hdigits]

/-- No snapshot is found where there is none. -/
theorem device_lacks_atDev (v : Volume) : ¬atDev <:+: dev ++ v.bsdName := by
  rintro ⟨pre, post, h⟩
  have hsplit : pre ++ atDev ++ post = pre ++ "@/dev".toList ++ '/' :: post := by
    rw [List.append_assoc, List.append_assoc]
    rfl
  have hlength : 5 ≤ (pre ++ "@/dev".toList).length := by
    rw [List.length_append]
    exact Nat.le_add_left 5 pre.length
  have hname := congrArg (List.drop 5) h
  rw [hsplit, List.drop_append_of_le_length hlength, ← length_dev, List.drop_left] at hname
  apply slash_not_mem_bsdName v
  rw [← hname]
  simp

/-- The scan cuts the number off. -/
theorem take_afterLast (pre : CStr) (v : Volume) :
    (pre ++ v.bsdName).take (afterLast 's' 0 0 (pre ++ v.bsdName)) = pre ++ v.stem := by
  have hname : pre ++ v.bsdName = pre ++ v.container ++ 's' :: v.index.digits := by
    simp [Volume.bsdName, Volume.stem]
  have hstem : pre ++ v.container ++ 's' :: v.index.digits =
      pre ++ v.stem ++ v.index.digits := by
    simp [Volume.stem]
  have hlength : 0 + (pre ++ v.container).length + 1 = (pre ++ v.stem).length := by
    simp [Volume.stem, Nat.add_assoc]
  rw [hname, afterLast_append (s_not_mem_digits v.index), hlength, hstem, List.take_left]

/-- What is left of `/dev/` when `k` characters are skipped, for a volume without a snapshot. -/
def MountSource.skips (k : ℕ) : MountSource → CStr
  | .plain => dev.drop k
  | .snapshot _ _ => []

theorem volumePrefixSkipping_eq {k : ℕ} (hk : k ≤ 5) (statfsFailed : String) (v : Volume)
    (s : MountSource) : volumePrefixSkipping k statfsFailed [] (s.rootfs v) =
      .ok (CStr.snprintf 32 (s.skips k ++ v.stem)) := by
  have hnil : ¬([] : CStr) ≠ [] := fun h => h rfl
  have hapfs : ¬"apfs".toList ≠ "apfs".toList := fun h => h rfl
  simp only [volumePrefixSkipping, MountSource.rootfs, if_neg hnil, if_neg hapfs]
  cases s with
  | plain =>
    have hdrop : (dev ++ v.bsdName).drop k = dev.drop k ++ v.bsdName := by
      rw [List.drop_append_of_le_length]
      simpa [length_dev] using hk
    simp only [MountSource.mntfromname, search_eq_none (device_lacks_atDev v), hdrop, take_afterLast,
      MountSource.skips]
  | snapshot name apart =>
    have hfound : search atDev (name ++ (atDev ++ v.bsdName)) = some (atDev ++ v.bsdName) :=
      search_append (by decide) apart v.bsdName
    have hdrop : (atDev ++ v.bsdName).drop 6 = [] ++ v.bsdName := rfl
    simp only [MountSource.mntfromname, hfound, hdrop, take_afterLast, MountSource.skips]

/-- The stem is not kept in the buffer when it does not fit. -/
theorem snprintf_stem_append_iff (v : Volume) :
    CStr.snprintf 32 v.stem ++ v.index.digits = v.bsdName ↔ v.stem.length < 32 := by
  constructor
  · intro h
    have hlength := congrArg List.length h
    simp only [Volume.bsdName, CStr.snprintf, List.length_append, List.length_take] at hlength
    omega
  · intro hfits
    rw [CStr.snprintf_of_lt hfits, Volume.bsdName]

/-- What is mounted without a snapshot has another beginning than the volume. -/
theorem snprintf_dev_ne (v : Volume) :
    CStr.snprintf 32 (dev ++ v.stem) ≠ CStr.snprintf 32 v.stem := by
  intro h
  have hslash : '/' ∈ CStr.snprintf 32 (dev ++ v.stem) := by
    simp [CStr.snprintf, dev]
  rw [h] at hslash
  have hstem : '/' ∈ v.bsdName := List.mem_append_left _ (List.mem_of_mem_take hslash)
  exact slash_not_mem_bsdName v hstem

/-- **The copies of `volume_prefix`** agree on the name of the volume without its number exactly when
a snapshot is mounted and the name fits the buffer; what they agree on is then the same for every
source of the volume. -/
theorem volumePrefix_agree_iff (v : Volume) (s : MountSource) :
    (PrefixesAgree v s ↔ FromSnapshot v s) ∧ ∀ s', PrefixesAgree v s → PrefixesAgree v s' →
      Fakedyld.volumePrefix [] (s'.rootfs v) = Fakedyld.volumePrefix [] (s.rootfs v) := by
  have hfakedyld : Fakedyld.volumePrefix [] (s.rootfs v) = _ :=
    volumePrefixSkipping_eq (Nat.zero_le 5) "statfs64(/) failed" v s
  have hloader (s : MountSource) :
      Loader.volumePrefix [] (s.rootfs v) = .ok (CStr.snprintf 32 v.stem) := by
    have hskips : s.skips 5 = [] := by
      cases s with
      | plain => rfl
      | snapshot name apart => rfl
    have h := volumePrefixSkipping_eq (Nat.le_refl 5) "statfs / failed" v s
    rwa [hskips, List.nil_append] at h
  refine ⟨⟨fun h => ?_, fun h => ?_⟩, fun s' h h' => ?_⟩
  · obtain ⟨stem, hstem, hname⟩ := h.bsdName
    rw [hloader, Except.ok.injEq] at hstem
    rw [← hstem] at hname
    refine ⟨?_, (snprintf_stem_append_iff v).mp hname⟩
    rintro rfl
    have hagree := h.agree
    rw [hfakedyld, hloader, Except.ok.injEq] at hagree
    exact snprintf_dev_ne v hagree
  · constructor
    case agree =>
      have hskips : s.skips 0 = [] := by
        cases s with
        | plain => exact absurd rfl h.1
        | snapshot name apart => rfl
      rw [hfakedyld, hloader, hskips, List.nil_append]
    case bsdName => exact ⟨_, hloader s, (snprintf_stem_append_iff v).mpr h.2⟩
  · rw [h'.agree, h.agree, hloader, hloader]

/-- The container is found with the volume. -/
theorem containerName_eq (hfits : v.stem.length < 32) :
    Loader.containerName [] v.stem = v.container := by
  have hnil : ¬([] : CStr) ≠ [] := fun h => h rfl
  rw [Loader.containerName, if_neg hnil, CStr.snprintf_of_lt hfits, Volume.stem,
    List.dropLast_concat]

/-! ## Devices -/

def Decimal.one : Decimal := ⟨['1'], by decide, by simp⟩

def Decimal.zero : Decimal := ⟨['0'], by decide, by simp⟩

/-- `disk0s1s1`. -/
def firstVolume : Volume := ⟨"disk0s1".toList, .one, by decide⟩

/-- The volume itself is mounted. -/
theorem not_volumePrefix_agree_plain :
    Fakedyld.volumePrefix [] (MountSource.plain.rootfs firstVolume) = .ok "/dev/disk0s1s".toList ∧
      Loader.volumePrefix [] (MountSource.plain.rootfs firstVolume) = .ok "disk0s1s".toList ∧
      ¬PrefixesAgree firstVolume .plain := by
  refine ⟨by decide, by decide, fun h => ?_⟩
  exact absurd h.agree (by decide)

/-- `disk0s1s8`, with the options of a rootless jailbreak. -/
def eighthVolume : Device where
  disk := .zero
  partition := some .one
  index := ⟨['8'], by decide, by simp⟩

def eighthPinfo : Paleinfo := ⟨0, 0, palerainOptionRootless, eighthVolume.bsdName⟩

theorem mountroot_derives_eighth :
    Derives eighthVolume palerainOptionRootless (mountroot eighthPinfo) :=
  have hfits : eighthPinfo.rootdev.length < 16 := by decide
  (mountroot_derives_iff rfl hfits).mpr rfl

/-- `disk0s1s12`. -/
def twelfthVolume : Device where
  disk := .zero
  partition := some .one
  index := ⟨['1', '2'], by decide, by simp⟩

def twelfthPinfo : Paleinfo := ⟨0, 0, palerainOptionRootless, twelfthVolume.bsdName⟩

/-- The system volume would be `disk0s1s11`. -/
theorem not_mountroot_derives_twelfth :
    (mountroot twelfthPinfo).devRealfs = "/dev/disk0s1s11".toList ∧
      ¬Derives twelfthVolume twelfthPinfo.flags (mountroot twelfthPinfo) := by
  refine ⟨by decide, fun h => ?_⟩
  exact absurd h.realfs (by decide)

end Jbinit.RootDevice

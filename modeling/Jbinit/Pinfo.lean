import Jbinit.Palera1nd.Sys
import Jbinit.Foundations.LittleEndian
import Jbinit.Foundations.Overwrite

/-!
# The record behind the ramdisk

`struct paleinfo` stands in `/dev/rmd0` at an offset that is the first word of the device. The boot
stage checks the record that it reads, the payload reads it without a check, and `set_pinfo` writes
it back in as many calls of `write` as it takes. No record that the boot stage accepts overlaps the
word (`four_le_of_accepted`), so writing back another changes nothing but the record
(`setPinfo_writesBack`).
-/

namespace Jbinit.Pinfo

open Foundations LittleEndian Palera1nd

/-! ## `paleinfo.h` -/

/-- `'PLSH'`. -/
def paleinfoMagic : BitVec 32 := 0x504c5348

def paleinfoVersion : BitVec 32 := 2

structure Paleinfo where
  magic : BitVec 32
  version : BitVec 32
  kbase : BitVec 64
  kslide : BitVec 64
  flags : BitVec 64
  rootdev : Fin 16 → Byte

/-- `sizeof(struct paleinfo)`. -/
def sizeofPaleinfo : ℕ := 48

/-- The bytes of the record in memory. -/
def Paleinfo.bytes (p : Paleinfo) : List Byte :=
  toBytes 4 p.magic.toNat ++ (toBytes 4 p.version.toNat ++ (toBytes 8 p.kbase.toNat ++
    (toBytes 8 p.kslide.toNat ++ (toBytes 8 p.flags.toNat ++ List.ofFn p.rootdev))))

/-- The record that bytes in memory are. -/
def paleinfo (bytes : List Byte) : Paleinfo where
  magic := .ofNat 32 (ofBytes (bytes.take 4))
  version := .ofNat 32 (ofBytes ((bytes.drop 4).take 4))
  kbase := .ofNat 64 (ofBytes ((bytes.drop 8).take 8))
  kslide := .ofNat 64 (ofBytes ((bytes.drop 16).take 8))
  flags := .ofNat 64 (ofBytes ((bytes.drop 24).take 8))
  rootdev i := (bytes.drop 32).getD i 0

/-! ## A device -/

/-- A descriptor of a device: its bytes, and where the next call reads or writes. -/
structure File where
  bytes : List Byte
  offset : ℕ

namespace File

def lseek (f : File) (offset : ℕ) : File := { f with offset }

/-- Fewer bytes than asked for are read at the end of the device only. -/
def read (f : File) (n : ℕ) : List Byte × File :=
  let data := (f.bytes.drop f.offset).take n
  (data, { f with offset := f.offset + data.length })

/-- The first bytes of the data are written, `split` of them where that is possible; at the end of
the device the call fails. -/
def write (f : File) (split : ℕ) (data : List Byte) : Option ℕ × File :=
  let room := f.bytes.length - f.offset
  if data ≠ [] ∧ room = 0 then (none, f)
  else
    let n := min (max 1 split) (min data.length room)
    (some n,
      { bytes := overwrite f.bytes f.offset (data.take n)
        offset := f.offset + n })

/-- A call that does not fail makes progress. -/
theorem write_pos {f f' : File} {split n : ℕ} {data : List Byte}
    (h : f.write split data = (some n, f')) (hdata : data ≠ []) : 0 < n := by
  have hlength := List.length_pos_of_ne_nil hdata
  rw [write] at h
  split at h
  case isTrue => cases h
  case isFalse hroom =>
    rw [not_and] at hroom
    have hpos := hroom hdata
    simp only [Prod.mk.injEq, Option.some.injEq] at h
    omega

end File

/-! ## `jailbreakd/main.c` and `payload/pinfo.c` -/

def intMax : ℕ := 2 ^ 31 - 1

/-- `write_fdout`, for the part of the data that is left: the number of bytes that are written, or
-1. `split i` is what the `i`-th call can write. -/
def writeFdout (split : ℕ → ℕ) (i : ℕ) (f : File) (buf : List Byte) (written : ℕ) : ℤ × File :=
  match h : f.write (split i) (buf.take intMax) with
  | (none, f) => (-1, f)
  | (some didWrite, f) =>
    if 0 < buf.length - didWrite then
      writeFdout split (i + 1) f (buf.drop didWrite) (written + didWrite)
    else (written + didWrite, f)
termination_by buf.length
decreasing_by
  have hne : buf.take intMax ≠ [] := by
    intro hnil
    rw [List.take_eq_nil_iff] at hnil
    rcases hnil with hzero | rfl
    · exact absurd hzero (by decide)
    · simp_all
  have hpos := File.write_pos h hne
  rw [List.length_drop]
  omega

/-- `/dev/rmd0`, if it can be opened. -/
abbrev Rmd0 := Option (List Byte)

/-- The word at the beginning, where `read` has filled the variable; what it has not is as before. -/
def readWord (uninit : BitVec 32) (data : List Byte) : ℕ :=
  ofBytes (data ++ (toBytes 4 uninit.toNat).drop data.length)

/-- `(int)lseek(fd, (off_t)ramdisk_size, SEEK_SET)`. -/
def seekResult (ramdiskSize : ℕ) : BitVec 32 := .ofNat 32 ramdiskSize

/-- The record, or the value of `errno`; `none` is that of a call. -/
def getPinfo (uninit : BitVec 32) : Rmd0 → Except (Option Errno) Paleinfo
  | none => .error none
  | some bytes =>
    let (word, fd) := (File.mk bytes 0).read 4
    let ramdiskSize := readWord uninit word
    if seekResult ramdiskSize = -1 then .error none
    else
      let (data, _) := (fd.lseek ramdiskSize).read sizeofPaleinfo
      if data.length ≠ sizeofPaleinfo then .error (some eagain) else .ok (paleinfo data)

/-- The value returned, and the device afterwards. -/
def setPinfo (split : ℕ → ℕ) (uninit : BitVec 32) (p : Paleinfo) : Rmd0 → ℤ × Rmd0
  | none => (-1, none)
  | some bytes =>
    let (word, fd) := (File.mk bytes 0).read 4
    let ramdiskSize := readWord uninit word
    if seekResult ramdiskSize = -1 then (-1, some bytes)
    else
      let (ret, fd) := writeFdout split 0 (fd.lseek ramdiskSize) p.bytes 0
      (ret, some fd.bytes)

/-! ## `fakedyld/main/pinfo.c` -/

/-- The panics of `get_pinfo`. -/
inductive Panic
  | couldNotGet
  | readWord (didRead : ℕ)
  | readPinfo (didRead : ℕ)
  | corrupted
  | unexpectedVersion (version : BitVec 32)

def Fakedyld.getPinfo : Rmd0 → Except Panic Paleinfo
  | none => .error .couldNotGet
  | some bytes =>
    let rmd0 := (File.mk bytes 0).lseek 0
    let (word, rmd0) := rmd0.read 4
    if word.length ≠ 4 then .error (.readWord word.length)
    else
      let (data, _) := (rmd0.lseek (ofBytes word)).read sizeofPaleinfo
      if data.length ≠ sizeofPaleinfo then .error (.readPinfo data.length)
      else
        let p := paleinfo data
        if p.magic ≠ paleinfoMagic then .error .corrupted
        else if p.version ≠ paleinfoVersion then .error (.unexpectedVersion p.version)
        else .ok p

/-! ## The property -/

/-- The word at the beginning of the device. -/
def headerWord (bytes : List Byte) : ℕ := ofBytes (bytes.take 4)

/-- A call of `set_pinfo` returns the size of the record, puts `p` in the place that the word says,
and changes nothing else; both stages then read it. -/
structure WritesBack (bytes : List Byte) (p : Paleinfo) (ret : ℤ) (bytes' : List Byte) : Prop where
  ret : ret = sizeofPaleinfo
  payload : ∀ uninit, getPinfo uninit (some bytes') = .ok p
  outside : ∀ i, i < headerWord bytes ∨ headerWord bytes + sizeofPaleinfo ≤ i →
    bytes'[i]? = bytes[i]?
  length : bytes'.length = bytes.length
  word : headerWord bytes' = headerWord bytes
  fakedyld : Fakedyld.getPinfo (some bytes') = .ok p

/-! ## The record -/

@[simp] theorem length_bytes (p : Paleinfo) : p.bytes.length = sizeofPaleinfo := by
  simp [Paleinfo.bytes, sizeofPaleinfo]

/-- What is written is what is read. -/
theorem paleinfo_bytes (p : Paleinfo) : paleinfo p.bytes = p := by
  have hdrop {n : ℕ} (k x : ℕ) {bytes rest : List Byte}
      (h : bytes.drop k = toBytes n x ++ rest) : bytes.drop (k + n) = rest := by
    rw [← List.drop_drop, h, List.drop_left' (length_toBytes n x)]
  have hversion : p.bytes.drop (0 + 4) = _ := hdrop 0 p.magic.toNat List.drop_zero
  have hkbase := hdrop 4 p.version.toNat hversion
  have hkslide := hdrop 8 p.kbase.toNat hkbase
  have hflags := hdrop 16 p.kslide.toNat hkslide
  have hrootdev := hdrop 24 p.flags.toNat hflags
  have htake (n x : ℕ) (rest : List Byte) : (toBytes n x ++ rest).take n = toBytes n x :=
    List.take_left' (length_toBytes n x)
  have hword (x : BitVec 32) : BitVec.ofNat 32 (ofBytes (toBytes 4 x.toNat)) = x :=
    ofNat_ofBytes_toBytes (n := 4) x
  have hdouble (x : BitVec 64) : BitVec.ofNat 64 (ofBytes (toBytes 8 x.toNat)) = x :=
    ofNat_ofBytes_toBytes (n := 8) x
  have hchars : (fun i : Fin 16 => (List.ofFn p.rootdev).getD i 0) = p.rootdev := by
    funext i
    have hi : i.val < (List.ofFn p.rootdev).length := by
      rw [List.length_ofFn]
      exact i.isLt
    rw [List.getD_eq_getElem?_getD, List.getElem?_eq_getElem hi, Option.getD_some,
      List.getElem_ofFn]
  rw [Nat.zero_add] at hversion
  simp only [paleinfo, hversion, hkbase, hkslide, hflags, hrootdev, htake, hword, hdouble, hchars]
  rw [Paleinfo.bytes, htake, hword]

/-! ## Writing -/

/-- Where there is room, a call writes some of the data. -/
theorem write_eq {f : File} {data : List Byte} (hroom : f.offset + data.length ≤ f.bytes.length)
    (split : ℕ) : f.write split data = (some (min (max 1 split) data.length),
      { bytes := overwrite f.bytes f.offset (data.take (min (max 1 split) data.length))
        offset := f.offset + min (max 1 split) data.length }) := by
  have hnot : ¬(data ≠ [] ∧ f.bytes.length - f.offset = 0) := by
    rintro ⟨hne, hzero⟩
    have hpos := List.length_pos_of_ne_nil hne
    omega
  have hmin : min data.length (f.bytes.length - f.offset) = data.length := by
    omega
  rw [File.write, if_neg hnot, hmin]

/-- **The loop** writes all of the data, however the calls split it. -/
theorem writeFdout_eq (split : ℕ → ℕ) (i : ℕ) (f : File) (buf : List Byte) (written : ℕ)
    (hroom : f.offset + buf.length ≤ f.bytes.length) :
    writeFdout split i f buf written = (((written + buf.length : ℕ) : ℤ),
      { bytes := overwrite f.bytes f.offset buf
        offset := f.offset + buf.length }) := by
  induction hn : buf.length using Nat.strongRecOn generalizing i f buf written with
  | ind n ih =>
    subst hn
    have hdata : f.offset + (buf.take intMax).length ≤ f.bytes.length := by
      rw [List.length_take]
      omega
    rw [writeFdout]
    split
    case h_1 f' hwrite =>
      rw [write_eq hdata] at hwrite
      cases hwrite
    case h_2 didWrite f' hwrite =>
      rw [write_eq hdata, Prod.mk.injEq, Option.some.injEq] at hwrite
      obtain ⟨hcount, rfl⟩ := hwrite
      have htake : (buf.take intMax).take didWrite = buf.take didWrite := by
        rw [List.take_take, Nat.min_eq_left]
        rw [← hcount, List.length_take]
        omega
      have hle : didWrite ≤ buf.length := by
        rw [← hcount, List.length_take]
        omega
      have hlength : (buf.take didWrite).length = didWrite := List.length_take_of_le hle
      have hfits : f.offset + (buf.take didWrite).length ≤ f.bytes.length := by
        omega
      rw [hcount, htake]
      split
      case isTrue hleft =>
        -- The rest is put behind what is written, and the two are one list.
        have hpos : 0 < didWrite := by
          have hne : 0 < (buf.take intMax).length := by
            rw [List.length_take]
            exact lt_min (by decide) (by omega)
          omega
        have hover := overwrite_overwrite hfits (buf.drop didWrite)
        rw [hlength, List.take_append_drop] at hover
        have hrest : f.offset + didWrite + (buf.drop didWrite).length ≤
            (overwrite f.bytes f.offset (buf.take didWrite)).length := by
          rw [length_overwrite hfits, List.length_drop]
          omega
        rw [ih _ (by rw [List.length_drop]; omega) _ _ _ _ hrest rfl]
        simp only [hover, List.length_drop, Nat.add_assoc, Nat.add_sub_cancel' hle]
      case isFalse hleft =>
        obtain rfl : didWrite = buf.length := by
          omega
        rw [List.take_length]
        rfl
/-! ## Where the record is -/

/-- The part of the device that the word points at. -/
def recordAt (bytes : List Byte) : List Byte :=
  (bytes.drop (headerWord bytes)).take sizeofPaleinfo

/-- The word and a record behind it are in the device. -/
def HasRecord (bytes : List Byte) : Prop :=
  4 ≤ bytes.length ∧ headerWord bytes + sizeofPaleinfo ≤ bytes.length

theorem length_recordAt {bytes : List Byte} (h : HasRecord bytes) :
    (recordAt bytes).length = sizeofPaleinfo := by
  obtain ⟨-, hroom⟩ := h
  rw [recordAt, List.length_take, List.length_drop]
  omega

theorem fakedyld_getPinfo_eq_ok_iff {bytes : List Byte} {p : Paleinfo} :
    Fakedyld.getPinfo (some bytes) = .ok p ↔ HasRecord bytes ∧ paleinfo (recordAt bytes) = p ∧
      p.magic = paleinfoMagic ∧ p.version = paleinfoVersion := by
  simp only [Fakedyld.getPinfo, File.lseek, File.read, List.drop_zero]
  constructor
  · intro h
    split at h
    case isTrue => cases h
    case isFalse hword =>
      split at h
      case isTrue => cases h
      case isFalse hdata =>
        split at h
        case isTrue => cases h
        case isFalse hmagic =>
          split at h
          case isTrue => cases h
          case isFalse hversion =>
            cases h
            rw [not_not, List.length_take] at hword
            rw [not_not, List.length_take, List.length_drop, sizeofPaleinfo] at hdata
            refine ⟨⟨by omega, ?_⟩, rfl, not_not.mp hmagic, not_not.mp hversion⟩
            rw [headerWord, sizeofPaleinfo]
            omega
  · rintro ⟨hrecord, rfl, hmagic, hversion⟩
    have hword : (bytes.take 4).length = 4 := List.length_take_of_le hrecord.1
    have hdata := length_recordAt hrecord
    rw [recordAt, headerWord] at *
    rw [if_neg (not_not.mpr hword), if_neg (not_not.mpr hdata), if_neg (not_not.mpr hmagic),
      if_neg (not_not.mpr hversion)]

/-- The word is filled by the call that reads it. -/
theorem readWord_eq {bytes : List Byte} (h : HasRecord bytes) (uninit : BitVec 32) :
    readWord uninit (bytes.take 4) = headerWord bytes := by
  have hlength : (bytes.take 4).length = 4 := List.length_take_of_le h.1
  rw [readWord, hlength, List.drop_eq_nil_of_le (by rw [length_toBytes]), List.append_nil,
    headerWord]

/-- An offset in a device of less than 2 GiB is no error as an `int`. -/
theorem seekResult_ne {bytes : List Byte} (h : HasRecord bytes) (hsize : bytes.length < 2 ^ 31) :
    seekResult (headerWord bytes) ≠ -1 := by
  obtain ⟨-, hroom⟩ := h
  intro hseek
  have hnat := congrArg BitVec.toNat hseek
  rw [seekResult, BitVec.toNat_ofNat] at hnat
  have hminus : (-1 : BitVec 32).toNat = 2 ^ 32 - 1 := rfl
  omega

/-- The payload finds the same record, without a check. -/
theorem getPinfo_eq {bytes : List Byte} (h : HasRecord bytes) (hsize : bytes.length < 2 ^ 31)
    (uninit : BitVec 32) : getPinfo uninit (some bytes) = .ok (paleinfo (recordAt bytes)) := by
  simp only [getPinfo, File.read, File.lseek, List.drop_zero, readWord_eq h uninit]
  rw [if_neg (seekResult_ne h hsize)]
  exact if_neg (not_not.mpr (length_recordAt h))

theorem setPinfo_eq {bytes : List Byte} (h : HasRecord bytes) (hsize : bytes.length < 2 ^ 31)
    (split : ℕ → ℕ) (uninit : BitVec 32) (p : Paleinfo) :
    setPinfo split uninit p (some bytes) =
      ((sizeofPaleinfo : ℤ), some (overwrite bytes (headerWord bytes) p.bytes)) := by
  have hroom : headerWord bytes + p.bytes.length ≤ bytes.length := by
    rw [length_bytes]
    exact h.2
  simp only [setPinfo, File.read, File.lseek, List.drop_zero, readWord_eq h uninit]
  rw [if_neg (seekResult_ne h hsize), writeFdout_eq split 0 _ p.bytes 0 hroom, length_bytes,
    Nat.zero_add]

/-- **The record does not overlap the word**: the first byte of the magic number would be one of the
word. -/
theorem four_le_of_accepted {bytes : List Byte} {p : Paleinfo}
    (h : Fakedyld.getPinfo (some bytes) = .ok p) : 4 ≤ headerWord bytes := by
  obtain ⟨⟨hfour, -⟩, rfl, hmagic, -⟩ := fakedyld_getPinfo_eq_ok_iff.mp h
  have hnat : (paleinfo (recordAt bytes)).magic.toNat = 0x504c5348 := congrArg BitVec.toNat hmagic
  simp only [paleinfo, BitVec.toNat_ofNat] at hnat
  rcases bytes with _ | ⟨b₀, _ | ⟨b₁, _ | ⟨b₂, _ | ⟨b₃, rest⟩⟩⟩⟩
  iterate 4 · simp at hfour
  have hword : headerWord (b₀ :: b₁ :: b₂ :: b₃ :: rest) =
      b₀.toNat + 256 * (b₁.toNat + 256 * (b₂.toNat + 256 * b₃.toNat)) := rfl
  have h₀ := b₀.isLt
  by_contra hlt
  -- The word is the number of one of its own four bytes, and that byte is the first of the magic.
  obtain hzero | hone | htwo | hthree : headerWord (b₀ :: b₁ :: b₂ :: b₃ :: rest) = 0 ∨
      headerWord (b₀ :: b₁ :: b₂ :: b₃ :: rest) = 1 ∨
      headerWord (b₀ :: b₁ :: b₂ :: b₃ :: rest) = 2 ∨
      headerWord (b₀ :: b₁ :: b₂ :: b₃ :: rest) = 3 := by
    omega
  · rw [recordAt, hzero, sizeofPaleinfo] at hnat
    simp only [List.drop_zero, List.take_succ_cons, ofBytes] at hnat
    omega
  · rw [recordAt, hone, sizeofPaleinfo] at hnat
    simp only [List.drop_succ_cons, List.drop_zero, List.take_succ_cons, ofBytes] at hnat
    omega
  · rw [recordAt, htwo, sizeofPaleinfo] at hnat
    simp only [List.drop_succ_cons, List.drop_zero, List.take_succ_cons, ofBytes] at hnat
    omega
  · rw [recordAt, hthree, sizeofPaleinfo] at hnat
    simp only [List.drop_succ_cons, List.drop_zero, List.take_succ_cons, ofBytes] at hnat
    omega

/-- **Writing a record back** changes the record and nothing else. -/
theorem setPinfo_writesBack {bytes : List Byte} {q p : Paleinfo} (hsize : bytes.length < 2 ^ 31)
    (haccepted : Fakedyld.getPinfo (some bytes) = .ok q) (hmagic : p.magic = q.magic)
    (hversion : p.version = q.version) (split : ℕ → ℕ) (uninit : BitVec 32) :
    ∃ ret bytes', setPinfo split uninit p (some bytes) = (ret, some bytes') ∧
      WritesBack bytes p ret bytes' := by
  obtain ⟨hrecord, -, hqmagic, hqversion⟩ := fakedyld_getPinfo_eq_ok_iff.mp haccepted
  have hfour := four_le_of_accepted haccepted
  have hroom : headerWord bytes + p.bytes.length ≤ bytes.length := by
    rw [length_bytes]
    exact hrecord.2
  have hlength : (overwrite bytes (headerWord bytes) p.bytes).length = bytes.length :=
    length_overwrite hroom
  have hword : headerWord (overwrite bytes (headerWord bytes) p.bytes) = headerWord bytes := by
    rw [headerWord, take_overwrite hroom hfour, headerWord]
  have hrecord' : HasRecord (overwrite bytes (headerWord bytes) p.bytes) := by
    rw [HasRecord, hword, hlength]
    exact hrecord
  have hread : paleinfo (recordAt (overwrite bytes (headerWord bytes) p.bytes)) = p := by
    have htake := take_drop_overwrite hroom
    rw [length_bytes] at htake
    rw [recordAt, hword, htake, paleinfo_bytes]
  refine ⟨_, _, setPinfo_eq hrecord hsize split uninit p, ?_⟩
  exact
    { ret := rfl
      payload := fun uninit' => by
        rw [getPinfo_eq hrecord' (by omega), hread]
      outside := fun i hi => getElem?_overwrite hroom (by rwa [length_bytes])
      length := hlength
      word := hword
      fakedyld := fakedyld_getPinfo_eq_ok_iff.mpr
        ⟨hrecord', hread, hmagic.trans hqmagic, hversion.trans hqversion⟩ }

/-- A record of the right kind that has only flags. -/
def flagsRecord (flags : BitVec 64) : Paleinfo where
  magic := paleinfoMagic
  version := paleinfoVersion
  kbase := 0
  kslide := 0
  flags := flags
  rootdev := fun _ => 0

/-- The record begins right behind the word, and is written seven bytes at a time. -/
theorem setPinfo_writesBack_flags :
    ∃ ret bytes', setPinfo (fun _ => 7) 0 (flagsRecord 2)
        (some (toBytes 4 4 ++ (flagsRecord 0).bytes)) = (ret, some bytes') ∧
      WritesBack (toBytes 4 4 ++ (flagsRecord 0).bytes) (flagsRecord 2) ret bytes' := by
  have hrecord : recordAt (toBytes 4 4 ++ (flagsRecord 0).bytes) = (flagsRecord 0).bytes := by
    decide
  have haccepted : Fakedyld.getPinfo (some (toBytes 4 4 ++ (flagsRecord 0).bytes)) =
      .ok (flagsRecord 0) := by
    rw [fakedyld_getPinfo_eq_ok_iff, hrecord]
    exact ⟨⟨by decide, by decide⟩, paleinfo_bytes _, rfl, rfl⟩
  exact setPinfo_writesBack (p := flagsRecord 2) (by decide) haccepted rfl rfl _ _

end Jbinit.Pinfo

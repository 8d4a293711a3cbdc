import Jbinit.Fakedyld.ExecveBuffer
import Jbinit.Fakedyld.SystemInfo
import Jbinit.Foundations.Calls
import Jbinit.Foundations.Overwrite
import Jbinit.PartialRoot
import Jbinit.PatchDyld.Patcher
import Jbinit.RootDevice

/-!
# The boot stage

`main` of fakedyld, up to its `execve`. A boot from the ramdisk holds the two files of the payload
in memory while the root is mounted over the ramdisk, and puts them into a new file system at
`/cores`, beside the patched dyld of that root. Any other boot has them there and replaces dyld
only. In both launchd is started with the files that were meant, and no other file is written
(`main_boots`). A boot from the ramdisk can come that far (`main_comes`).

`write_file` does not truncate: before XNU 7938 nothing says that the dyld in `/cores` has been
deleted, and the end of a longer one then stays behind the new one.

Messages, and what follows an `execve` that fails, are left out. A run that is still in one of the
loops of `mountroot` ends in `Stop.waiting`.
-/

namespace Jbinit.Fakedyld.BootStage

open Foundations LittleEndian Words Calls Palera1nd RootDevice PartialRoot

/-! ## Constants -/

def palerainOptionRootlessLivefs : Flags := 1#64 <<< 6
def palerainOptionCleanFakefs : Flags := 1#64 <<< 9
def palerainOptionDfuhelperOnly : Flags := 1#64 <<< 12
def palerainOptionPongoExit : Flags := 1#64 <<< 13
def palerainOptionDemote : Flags := 1#64 <<< 14
def palerainOptionPalerainVersion : Flags := 1#64 <<< 16
def palerainOptionExitRecovery : Flags := 1#64 <<< 17
def palerainOptionRebootDevice : Flags := 1#64 <<< 18
def palerainOptionEnterRecovery : Flags := 1#64 <<< 19
def palerainOptionDeviceInfo : Flags := 1#64 <<< 20
def palerainOptionVerboseBoot : Flags := 1#64 <<< 26

def mntUpdate : BitVec 32 := 0x10000

def hfs : CStr := "hfs".toList
def apfs : CStr := "apfs".toList
def tmpfs : CStr := "tmpfs".toList

def cores : CStr := "/cores".toList
def payloadPath : CStr := "/payload".toList
def payloadDylibPath : CStr := "/payload.dylib".toList
def dyldPath : CStr := "/usr/lib/dyld".toList
def coresPayload : CStr := "/cores/payload".toList
def coresPayloadDylib : CStr := "/cores/payload.dylib".toList
def coresDyld : CStr := "/cores/usr/lib/dyld".toList

/-! ## Calls -/

/-- A descriptor is given by the path that it was opened with. -/
inductive Call
  | openConsole
  | getPinfo
  /-- `statfs64("/")`. -/
  | statfs
  | cleanFakefs (rootdev : CStr)
  /-- The answer is the size. -/
  | stat (path : CStr)
  | openFile (path : CStr)
  | mmap (size : ℕ)
  | read (path : CStr) (size : ℕ)
  | openCreate (path : CStr)
  | write (path : CStr) (data : List Byte)
  | mount (fstype dir : CStr) (flags : BitVec 32) (data : CStr)
  | mkdir (path : CStr)
  | unlink (path : CStr)
  | getPagesize

abbrev Answer : Call → Type
  | .openConsole => Bool
  | .getPinfo => Option Paleinfo
  | .statfs => Option Statfs
  | .cleanFakefs _ => Bool
  | .stat _ => Option ℕ
  | .openFile _ => Bool
  | .mmap _ => Option ℕ
  | .read .. => Option (List Byte)
  | .openCreate _ => Bool
  | .write .. => Option ℕ
  | .mount .. => ℤ
  | .mkdir _ => ℤ
  | .unlink _ => ℤ
  | .getPagesize => ℤ

inductive Stop
  | panic (message : String)
  /-- A null pointer is followed. -/
  | fault
  | waiting

abbrev Io := Proc Answer Stop

def ask (c : Call) : Io (Answer c) := perform c

def checkError (message : String) (ret : ℤ) : Io Unit :=
  if ret ≠ 0 then throw (.panic message) else return ()

/-! ## `rw_file.c` -/

/-- `memory_file_handle_t`, with the bytes of the file. -/
structure MemoryFileHandle where
  fileP : ℕ
  bytes : List Byte

/-- The whole pages that a file is read into. -/
def mappedSize (size : ℕ) : ℕ := size / 0x4000 * 0x4000 + 0x4000

def readFile (path : CStr) : Io MemoryFileHandle := do
  let st ← ask (.stat path)
  match st with
  | none => throw (.panic "stat file failed")
  | some size =>
    let fd ← ask (.openFile path)
    if !fd then throw (.panic "open file failed")
    else do
      let mapped ← ask (.mmap (mappedSize size))
      match mapped with
      | none => throw (.panic "mmap memory for reading file failed")
      | some fileP =>
        let didRead ← ask (.read path size)
        match didRead with
        | none => throw (.panic "unexpected data size while reading file")
        | some data =>
          if data.length ≠ size then throw (.panic "unexpected data size while reading file")
          else return ⟨fileP, data⟩

def writeFile (path : CStr) (data : List Byte) : Io Unit := do
  let fd ← ask (.openCreate path)
  if !fd then throw (.panic "open file failed")
  else do
    let didWrite ← ask (.write path data)
    if didWrite ≠ some data.length then throw (.panic "unexpected data size while writing file")
    else return ()

/-! ## `pinfo_check.c` -/

/-- Flags that must not be set at the same time. -/
def disallowedCombinations : List (Flags × String) :=
  [(palerainOptionRootless ||| palerainOptionRootful,
      "cannot rootless and rootful at the same time"),
    (palerainOptionCleanFakefs ||| palerainOptionForceRevert,
      "cannot force revert and clean fakefs at the same time"),
    (palerainOptionRootlessLivefs ||| palerainOptionRootful,
      "cannot use rootless livefs option on rootful"),
    (palerainOptionCleanFakefs ||| palerainOptionSetupRootful,
      "canoot setup fakefs whlist cleaning fakefs")]

/-- Flags with which no ramdisk is booted. -/
def neverBooted : Flags :=
  palerainOptionDfuhelperOnly ||| palerainOptionPongoExit ||| palerainOptionDemote |||
    palerainOptionPalerainVersion ||| palerainOptionExitRecovery ||| palerainOptionRebootDevice |||
    palerainOptionEnterRecovery ||| palerainOptionDeviceInfo

def pinfoCheck (flags : Flags) : Io Unit :=
  match disallowedCombinations.find? fun c => flags &&& c.1 == c.1 with
  | some c => throw (.panic c.2)
  | none =>
    if flags &&& neverBooted ≠ 0 then
      throw (.panic "ramdisk should never be booted with the options specified")
    else return ()

/-! ## `mountroot.c` -/

def waitRealfs (devRealfs : CStr) : ℕ → Io Unit
  | 0 => throw .waiting
  | waits + 1 => do
    let st ← ask (.stat devRealfs)
    if st.isSome then return () else waitRealfs devRealfs waits

def retryRootfsMount (root : RootMount) : ℕ → Io Unit
  | 0 => throw .waiting
  | waits + 1 => do
    let ret ← ask (.mount apfs ['/'] root.rootopts root.devRootdev)
    if ret ≠ 0 then retryRootfsMount root waits
    else do
      let st ← ask (.stat "/private/".toList)
      if st.isSome then return () else retryRootfsMount root waits

def mountroot (waits : ℕ) (pinfo : Paleinfo) : Io Unit := do
  let root := RootDevice.mountroot pinfo
  waitRealfs root.devRealfs waits
  let st ← ask (.stat root.devRootdev)
  if st.isNone then throw (.panic "cannot find target fs")
  else do
    retryRootfsMount root waits
    checkError "failed to mount devfs"
      (← ask (.mount "devfs".toList "/dev".toList 0 "devfs".toList))

/-! ## `cores_init.c` -/

def mountTmpfsCores : Io Unit := do
  checkError "cannot get pagesize" (← ask .getPagesize)
  checkError "cannot mount tmpfs onto /cores" (← ask (.mount tmpfs cores 0 []))

def coresDirectories : List String :=
  ["/cores/usr", "/cores/usr/lib", "/cores/binpack", "/cores/fs", "/cores/fs/real",
    "/cores/fs/fake"]

def mkdirCores (path : String) : Io PUnit := do
  checkError ("mkdir " ++ path ++ " failed") (← ask (.mkdir path.toList))

def initCores (sysinfo : SystemInfo) (ramdiskBoot : Bool) : Io Unit :=
  if !ramdiskBoot then
    if sysinfo.xnuMajor < 7938 then return ()
    else do
      checkError "remount /cores failed"
        (← ask (.mount hfs cores mntUpdate "/dev/md0".toList))
      checkError "delete fakedyld failed" (← ask (.unlink coresDyld))
  else if sysinfo.osrelease.darwinMajor > 19 then do
    mountTmpfsCores
    coresDirectories.forM mkdirCores
  else throw (.panic "Don't know how to init cores on this OS")

/-! ## `prepare_root.c` -/

/-- A missing directory is only logged, before the mount fails. -/
def fbi (mnt : String) : Io PUnit := do
  let _ ← ask (.stat mnt.toList)
  checkError "cannot bind"
    (← ask (.mount "bindfs".toList mnt.toList mntRdonly ("/cores/fs/real" ++ mnt).toList))

def prepareRootfs (sysinfo : SystemInfo) (pinfo : Paleinfo) (platform : BitVec 32) : Io Unit := do
  let statbuf ← ask (.stat ioKit)
  if statbuf.isSome then return ()
  else if !pinfo.flags.has palerainOptionSsv then return ()
  else do
    let rootfs ← ask .statfs
    match Fakedyld.volumePrefix [] rootfs with
    | .error message => throw (.panic message)
    | .ok volumePre =>
      checkError "cannot mount realfs" (← ask (.mount apfs realfs mntRdonly
        (CStr.snprintf 32 (volumePre ++ ['1']))))
      (boundPaths platform.toNat sysinfo.osrelease.darwinMajor.toNat).forM fbi

/-! ## `fakedyld.c` -/

/-- What does not change, and what it is given. -/
structure Input where
  kernel : Kernel
  devBuild : Bool
  /-- The memory before a file is read into it. -/
  memory : Memory 8
  stack : ℕ → Char
  /-- Where `pinfo_buffer` is. -/
  pinfoBuffer : ℕ
  pinfoBuffer_ne : pinfoBuffer ≠ 0
  /-- How often a loop waits in a run. -/
  waits : ℕ

/-- The arguments of `execve`, as `fillExecveBuffer` puts them into memory (`Boots.buffer`). -/
structure Execve where
  path : CStr
  argv : List CStr
  envp : List CStr

/-- The memory when a file has been read. -/
def fileMemory (memory : Memory 8) (h : MemoryFileHandle) : Memory 8 := fun a =>
  if h.fileP ≤ a ∧ a < h.fileP + mappedSize h.bytes.length then h.bytes.getD (a - h.fileP) 0
  else memory a

/-- The same memory by words. -/
def words (m : Memory 8) : Memory 32 := fun a =>
  m (4 * a + 3) ++ m (4 * a + 2) ++ m (4 * a + 1) ++ m (4 * a)

def fileBytes (m : Memory 8) (h : MemoryFileHandle) : List Byte :=
  (List.range h.bytes.length).map fun i => m (h.fileP + i)

def cleanIfAsked (pinfo : Paleinfo) : Io Bool :=
  if pinfo.flags.has palerainOptionCleanFakefs then ask (.cleanFakefs pinfo.rootdev)
  else return true

def readPayloads (pinfo : Paleinfo) : Io (MemoryFileHandle × MemoryFileHandle) := do
  checkError "remount ramdisk failed" (← ask (.mount hfs ['/'] mntUpdate "/dev/md0".toList))
  let cleaned ← cleanIfAsked pinfo
  if !cleaned then throw (.panic "clean_fakefs")
  else do
    let payload ← readFile payloadPath
    let payloadDylib ← readFile payloadDylibPath
    return (payload, payloadDylib)

/-- The files of the payload, when the ramdisk is booted. -/
def leaveRamdisk (waits : ℕ) (pinfo : Paleinfo) (ramdiskBoot : Bool) :
    Io (Option (MemoryFileHandle × MemoryFileHandle)) :=
  if ramdiskBoot then do
    let payloads ← readPayloads pinfo
    mountroot waits pinfo
    return some payloads
  else return none

def readDyld (memory : Memory 8) : Io (MemoryFileHandle × BitVec 32) := do
  let dyld ← readFile dyldPath
  match PatchDyld.checkDyld (fileMemory memory dyld) dyld.fileP with
  | .error message => throw (.panic message)
  | .ok () =>
    match PatchDyld.getPlatform (fileMemory memory dyld) dyld.fileP with
    | .error message => throw (.panic message)
    | .ok platform => return (dyld, platform)

def placePayloads : Option (MemoryFileHandle × MemoryFileHandle) → Io Unit
  | some payloads => do
    writeFile coresPayload payloads.1.bytes
    writeFile coresPayloadDylib payloads.2.bytes
  | none => do
    let _ ← ask (.unlink coresDyld)
    return ()

def patchedDyld (input : Input) (dyld : MemoryFileHandle) (platform : BitVec 32) :
    Io (List Byte) :=
  match PatchDyld.patchDyld input.devBuild dyld.fileP platform
      (.fresh (words (fileMemory input.memory dyld))) with
  | .error (.panic message) => throw (.panic message)
  | .error .fault => throw .fault
  | .ok process => return fileBytes (bytes process.memory) dyld

/-- What launchd is started with. -/
def launchdArgs (input : Input) (flags : Flags) (hasVerboseBoot : Bool) : Io Execve :=
  match pinfoBufferText input.stack input.pinfoBuffer flags with
  | none => throw .fault
  | some pinfoBuffer => do
    let execveBuffer ← ask (.mmap execveBufferSize)
    if execveBuffer.isNone then throw (.panic "mmap for execve failed")
    else return ⟨sbinLaunchd, [sbinLaunchd], [insertDylibEnv, pinfoBuffer, jbRootPathEnvText flags,
      defaultTweakloader, hasVerboseBootEnvText hasVerboseBoot]⟩

/-- What `main` does when it knows its flags and whether the ramdisk is booted. -/
def boot (input : Input) (sysinfo : SystemInfo) (hasVerboseBoot : Bool) (pinfo : Paleinfo)
    (ramdiskBoot : Bool) : Io Execve := do
  pinfoCheck pinfo.flags
  let payloads ← leaveRamdisk input.waits pinfo ramdiskBoot
  let dyld ← readDyld input.memory
  initCores sysinfo ramdiskBoot
  prepareRootfs sysinfo pinfo dyld.2
  placePayloads payloads
  let patched ← patchedDyld input dyld.1 dyld.2
  writeFile coresDyld patched
  launchdArgs input pinfo.flags hasVerboseBoot

def main (input : Input) : Io Execve := do
  let consoleFd ← ask .openConsole
  if !consoleFd then throw (.panic "cannot open /dev/console")
  else
    match systeminfo input.kernel with
    | .error message => throw (.panic message)
    | .ok info => do
      let p ← ask .getPinfo
      match p with
      | none => throw (.panic "get_pinfo")
      | some pinfo =>
        let fst ← ask .statfs
        match fst with
        | none => throw (.panic "statfs64 failed")
        | some fst =>
          boot input info.1 (info.2 || pinfo.flags.has palerainOptionVerboseBoot) pinfo
            (decide (fst.fstypename = hfs))

/-! ## The machine -/

/-- What is mounted at the root. -/
inductive Mounted
  | ramdisk
  | volume (device : CStr) (opts : BitVec 32)

/-- The record behind the ramdisk, and the files that are seen below a root. -/
structure Machine where
  pinfo : Paleinfo
  view : Mounted → CStr → Option (List Byte)

structure Files where
  root : Mounted
  /-- The file system at `/cores`, without what is mounted in it. -/
  cores : CStr → Option (List Byte)

def Files.put (s : Files) (path : CStr) (content : Option (List Byte)) : Files :=
  { s with cores := Function.update s.cores path content }

/-- The bytes that a file has when it has been opened for writing. -/
def Files.old (s : Files) (path : CStr) : List Byte := (s.cores path).getD []

def Files.mount (s : Files) (fstype dir : CStr) (flags : BitVec 32) (data : CStr) : Files :=
  if fstype = tmpfs ∧ dir = BootStage.cores then { s with cores := fun _ => none }
  else if fstype = apfs ∧ dir = ['/'] then { s with root := .volume data flags }
  else s

/-- The system calls. A file is read from its beginning, and `write` may write less than it is
given. -/
def Step (m : Machine) (s : Files) : Event Answer → Files → Prop
  | ⟨.getPinfo, pinfo⟩, s' => s' = s ∧ ∀ p, pinfo = some p → p = m.pinfo
  | ⟨.statfs, st⟩, s' => s' = s ∧ ∀ r, st = some r → (r.fstypename = hfs ↔ s.root = .ramdisk)
  | ⟨.stat path, size⟩, s' => s' = s ∧ ∀ n content, size = some n →
      m.view s.root path = some content → n = content.length
  | ⟨.read path _, data⟩, s' => s' = s ∧ ∀ d, data = some d →
      ∃ content, m.view s.root path = some content ∧ d <+: content
  | ⟨.openCreate path, opened⟩, s' => s' = if opened then s.put path (some (s.old path)) else s
  | ⟨.write path data, n⟩, s' =>
      s' = n.elim s fun k => s.put path (some (overwrite (s.old path) 0 (data.take k)))
  | ⟨.mount fstype dir flags data, ret⟩, s' =>
      s' = if ret = 0 then s.mount fstype dir flags data else s
  | ⟨.unlink path, ret⟩, s' => s' = if ret = 0 then s.put path none else s
  | ⟨_, _⟩, s' => s' = s

/-! ## The property -/

/-- No flags that exclude each other, and none without a boot. -/
structure Consistent (flags : Flags) : Prop where
  combinations : ∀ c ∈ disallowedCombinations, flags &&& c.1 ≠ c.1
  booted : flags &&& neverBooted = 0

/-- The file that a dyld is patched to. -/
def Patched (input : Input) (content patched : List Byte) : Prop :=
  ∃ fileP platform process,
    PatchDyld.getPlatform (fileMemory input.memory ⟨fileP, content⟩) fileP = .ok platform ∧
    PatchDyld.patchDyld input.devBuild fileP platform
      (.fresh (words (fileMemory input.memory ⟨fileP, content⟩))) = .ok process ∧
    patched = fileBytes (bytes process.memory) ⟨fileP, content⟩

/-- What is in `/cores` of what was there before. -/
def kept (s : Files) : CStr → Option (List Byte) :=
  match s.root with
  | .ramdisk => fun _ => none
  | .volume .. => s.cores

/-- What is mounted at the root then. -/
def rootAfter (pinfo : Paleinfo) : Mounted → Mounted
  | .ramdisk => .volume (RootDevice.mountroot pinfo).devRootdev
      (RootDevice.mountroot pinfo).rootopts
  | .volume device opts => .volume device opts

/-- A boot has come to its `execve`. -/
structure Boots (m : Machine) (input : Input) (sysinfo : SystemInfo) (hasVerboseBoot : Bool)
    (s s' : Files) (args : Execve) : Prop where
  consistent : Consistent m.pinfo.flags
  root : s'.root = rootAfter m.pinfo s.root
  payload : s.root = .ramdisk → ∃ content, m.view .ramdisk payloadPath = some content ∧
    s'.cores coresPayload = some content
  payloadDylib : s.root = .ramdisk → ∃ content, m.view .ramdisk payloadDylibPath = some content ∧
    s'.cores coresPayloadDylib = some content
  /-- dyld is written over what is left of the old one. -/
  dyld : ∃ content patched old, m.view s'.root dyldPath = some content ∧
    Patched input content patched ∧ s'.cores coresDyld = some (overwrite old 0 patched) ∧
    (old = [] ∨ sysinfo.xnuMajor < 7938 ∧ kept s coresDyld = some old)
  others : ∀ path, path ≠ coresDyld → (s.root = .ramdisk → path ≠ coresPayload ∧
    path ≠ coresPayloadDylib) → s'.cores path = kept s path
  path : args.path = sbinLaunchd
  argv : args.argv = [sbinLaunchd]
  envp : args.envp = (launchdVars m.pinfo.flags hasVerboseBoot).map entry
  /-- They are what is found in the buffer. -/
  buffer : ∀ (mem : ℕ → Byte) (execveBuffer : ℕ) (sources : Sources),
    sources.Ready mem execveBuffer m.pinfo.flags hasVerboseBoot → 0 < execveBuffer →
      execveBuffer + execveBufferSize ≤ 2 ^ 64 →
        (fillExecveBuffer mem execveBuffer sources).Gives mem execveBuffer args.path args.argv
          args.envp

/-! ## The rules -/

section Rules

variable {m : Machine} {s : Files} {α β : Type}

/-- A procedure that ends in a state of which something is known, unless it stops. -/
def Ends (m : Machine) (s : Files) (x : Io α) (Q : α → Files → Prop) : Prop :=
  Triple (Step m) (· = s) x Q fun _ _ => True

namespace Ends

variable {x : Io α} {f : α → Io β} {Q : β → Files → Prop}

theorem pure {Q : α → Files → Prop} {a : α} (h : Q a s) : Ends m s (Pure.pure a) Q := by
  apply Triple.pure
  rintro s' rfl
  exact h

theorem throw {Q : α → Files → Prop} (e : Stop) : Ends m s (throw e : Io α) Q :=
  Triple.throw fun _ _ => trivial

theorem bind {M : α → Files → Prop} (hx : Ends m s x M)
    (hf : ∀ a s', M a s' → Ends m s' (f a) Q) : Ends m s (x >>= f) Q :=
  Triple.bind hx fun a s' hs' => hf a s' hs' s' rfl

theorem ask {c : Call} {f : Answer c → Io β}
    (hf : ∀ r s', Step m s ⟨c, r⟩ s' → Ends m s' (f r) Q) : Ends m s (BootStage.ask c >>= f) Q := by
  refine bind (M := fun r s' => Step m s ⟨c, r⟩ s') ?_ hf
  apply Triple.perform
  rintro s₁ r s' rfl hstep
  exact hstep

theorem weaken {Q' : α → Files → Prop} {Q : α → Files → Prop} (h : Ends m s x Q')
    (hQ : ∀ a s', Q' a s' → Q a s') : Ends m s x Q :=
  Triple.weaken h (fun _ hs => hs) hQ fun _ _ _ => trivial

theorem of_unseen (h : Unseen (Step m) x) : Ends m s x fun _ s' => s' = s :=
  h.triple_exit fun _ _ _ => trivial

theorem ite {Q : α → Files → Prop} {c : Prop} [Decidable c] {y : Io α} (hx : c → Ends m s x Q)
    (hy : ¬c → Ends m s y Q) : Ends m s (if c then x else y) Q := by
  split
  · exact hx ‹_›
  · exact hy ‹_›

end Ends

theorem checkError_spec (message : String) (ret : ℤ) :
    Ends m s (checkError message ret) fun _ s' => s' = s ∧ ret = 0 :=
  .ite (fun _ => .throw _) fun hret => .pure ⟨rfl, not_not.mp hret⟩

theorem put_cores (path : CStr) (content : Option (List Byte)) :
    (s.put path content).cores = Function.update s.cores path content := rfl

theorem put_put (path : CStr) (a b : Option (List Byte)) :
    (s.put path a).put path b = s.put path b := by
  rw [Files.put, Files.put, Function.update_idem]
  rfl

theorem old_put (path : CStr) (content : List Byte) :
    (s.put path (some content)).old path = content := by
  rw [Files.old, put_cores, Function.update_self, Option.getD_some]

theorem mount_root (flags : BitVec 32) (device : CStr) :
    s.mount apfs ['/'] flags device = { s with root := .volume device flags } := by
  rw [Files.mount, if_neg (by decide), if_pos ⟨rfl, rfl⟩]

/-- A mount in another place. -/
theorem mount_elsewhere {fstype dir data : CStr} {flags : BitVec 32}
    (hcores : ¬(fstype = tmpfs ∧ dir = cores)) (hroot : ¬(fstype = apfs ∧ dir = ['/'])) :
    s.mount fstype dir flags data = s := by
  rw [Files.mount, if_neg hcores, if_neg hroot]

theorem eq_of_mount {fstype dir data : CStr} {flags : BitVec 32} {ret : ℤ} {s' : Files}
    (hcores : ¬(fstype = tmpfs ∧ dir = cores)) (hroot : ¬(fstype = apfs ∧ dir = ['/']))
    (h : Step m s ⟨.mount fstype dir flags data, ret⟩ s') : s' = s := by
  have hmount : s' = if ret = 0 then s.mount fstype dir flags data else s := h
  rw [hmount, mount_elsewhere hcores hroot, ite_self]

/-- Behind a mount in another place that is checked. -/
theorem ends_mount {β : Type} {fstype dir data : CStr} {flags : BitVec 32} {message : String}
    {f : Unit → Io β} {Q : β → Files → Prop} (hcores : ¬(fstype = tmpfs ∧ dir = cores))
    (hroot : ¬(fstype = apfs ∧ dir = ['/'])) (hf : Ends m s (f ()) Q) :
    Ends m s (ask (.mount fstype dir flags data) >>= fun ret => checkError message ret >>= f)
      Q := by
  refine .ask fun ret s₁ hmount => .bind (checkError_spec _ ret) fun _ s₂ hs₂ => ?_
  obtain rfl : s₁ = s := eq_of_mount hcores hroot hmount
  rw [hs₂.1]
  exact hf

theorem unseen_ask {c : Call} (h : ∀ s r s', Step m s ⟨c, r⟩ s' → s' = s) :
    Unseen (Step m) (ask c) :=
  (Quiet.perform h).unseen

theorem unseen_checkError (message : String) (ret : ℤ) :
    Unseen (Step m) (checkError message ret) :=
  .ite (.throw _) (.pure _)

theorem unseen_forM {γ : Type} {f : γ → Io PUnit} {l : List γ}
    (h : ∀ a ∈ l, Unseen (Step m) (f a)) : Unseen (Step m) (l.forM f) := by
  induction l with
  | nil => exact .pure _
  | cons a l ih =>
    exact .bind (h a List.mem_cons_self) fun _ => ih fun b hb => h b (List.mem_cons_of_mem a hb)

end Rules

/-! ## The phases -/

section Phases

variable {m : Machine} {s : Files}

/-- The whole file is read. -/
theorem readFile_spec (path : CStr) :
    Ends m s (readFile path) fun h s' => s' = s ∧ m.view s.root path = some h.bytes := by
  refine .ask fun st s₁ hst => ?_
  obtain ⟨rfl, hsize⟩ := hst
  cases st with
  | none => exact .throw _
  | some size =>
    refine .ask fun fd s₂ hfd => .ite (fun _ => .throw _) fun _ => ?_
    obtain rfl : s₂ = s₁ := hfd
    refine .ask fun mapped s₃ hmapped => ?_
    obtain rfl : s₃ = s₂ := hmapped
    cases mapped with
    | none => exact .throw _
    | some fileP =>
      refine .ask fun didRead s₄ hread => ?_
      obtain ⟨rfl, hread⟩ := hread
      cases didRead with
      | none => exact .throw _
      | some data =>
        refine .ite (fun _ => .throw _) fun hlength => .pure ⟨rfl, ?_⟩
        obtain ⟨content, hview, hpre⟩ := hread data rfl
        have hcontent : size = content.length := hsize size content rfl hview
        have hdata : data = content := hpre.eq_of_length ((not_not.mp hlength).trans hcontent)
        rw [hview, hdata]

/-- What is written is over the beginning of what was there. -/
theorem writeFile_spec (path : CStr) (data : List Byte) :
    Ends m s (writeFile path data) fun _ s' =>
      s' = s.put path (some (overwrite (s.old path) 0 data)) := by
  refine .ask fun fd s₁ hfd => .ite (fun _ => .throw _) fun hopened => ?_
  have hs₁ : s₁ = s.put path (some (s.old path)) := by
    have hput : s₁ = if fd then s.put path (some (s.old path)) else s := hfd
    rw [hput, if_pos (by simpa using hopened)]
  refine .ask fun n s₂ hwrite => .ite (fun _ => .throw _) fun hn => .pure ?_
  obtain rfl : n = some data.length := not_not.mp hn
  have hs₂ : s₂ = s₁.put path (some (overwrite (s₁.old path) 0 (data.take data.length))) := hwrite
  rw [hs₂, hs₁, old_put, put_put, List.take_length]

theorem pinfoCheck_spec (flags : Flags) :
    Ends m s (pinfoCheck flags) fun _ s' => s' = s ∧ Consistent flags := by
  unfold pinfoCheck
  cases hfind : disallowedCombinations.find? fun c => flags &&& c.1 == c.1 with
  | some c => exact .throw _
  | none =>
    refine .ite (fun _ => .throw _) fun hbooted => .pure ⟨rfl, ?_, not_not.mp hbooted⟩
    intro c hc heq
    exact List.find?_eq_none.mp hfind c hc (beq_iff_eq.mpr heq)

theorem waitRealfs_spec (devRealfs : CStr) (waits : ℕ) :
    Ends m s (waitRealfs devRealfs waits) fun _ s' => s' = s := by
  induction waits with
  | zero => exact .throw _
  | succ waits ih =>
    rw [waitRealfs]
    refine .ask fun st s₁ hst => ?_
    obtain ⟨rfl, -⟩ := hst
    exact .ite (fun _ => .pure rfl) fun _ => ih

/-- It may be mounted more than once. -/
theorem retryRootfsMount_spec (root : RootMount) (waits : ℕ) :
    Ends m s (retryRootfsMount root waits) fun _ s' =>
      s' = { s with root := .volume root.devRootdev root.rootopts } := by
  induction waits generalizing s with
  | zero => exact .throw _
  | succ waits ih =>
    rw [retryRootfsMount]
    refine .ask fun ret s₁ hmount => ?_
    replace hmount : s₁ = if ret = 0 then s.mount apfs ['/'] root.rootopts root.devRootdev else s :=
      hmount
    refine .ite (fun hret => ?_) fun hret => ?_
    · rw [if_neg hret] at hmount
      rw [hmount]
      exact ih
    · rw [if_pos (not_not.mp hret), mount_root] at hmount
      refine .ask fun st s₂ hst => ?_
      obtain ⟨rfl, -⟩ := hst
      rw [hmount]
      exact .ite (fun _ => .pure rfl) fun _ => ih

theorem mountroot_spec (waits : ℕ) (pinfo : Paleinfo) :
    Ends m s (mountroot waits pinfo) fun _ s' =>
      s' = { s with root := rootAfter pinfo .ramdisk } := by
  refine .bind (waitRealfs_spec _ waits) fun _ s₁ hs₁ => ?_
  obtain rfl := hs₁
  refine .ask fun st s₂ hst => .ite (fun _ => .throw _) fun _ => ?_
  obtain ⟨rfl, -⟩ := hst
  refine .bind (retryRootfsMount_spec _ waits) fun _ s₃ hs₃ => ?_
  refine .ask fun ret s₄ hmount => (checkError_spec _ _).weaken fun _ s' hs' => ?_
  rw [hs'.1, eq_of_mount (by decide) (by decide) hmount, hs₃]
  rfl

theorem readPayloads_spec (pinfo : Paleinfo) :
    Ends m s (readPayloads pinfo) fun payloads s' => s' = s ∧
      m.view s.root payloadPath = some payloads.1.bytes ∧
      m.view s.root payloadDylibPath = some payloads.2.bytes := by
  refine ends_mount (by decide) (by decide) ?_
  have hcleaned : Unseen (Step m) (cleanIfAsked pinfo) :=
    .ite (unseen_ask fun _ _ _ h => h) (.pure _)
  refine .bind (.of_unseen hcleaned) fun cleaned s₃ hs₃ => ?_
  obtain rfl := hs₃
  refine .ite (fun _ => .throw _) fun _ => ?_
  refine .bind (readFile_spec _) fun payload s₄ hpayload => ?_
  obtain ⟨rfl, hpayload⟩ := hpayload
  refine .bind (readFile_spec _) fun payloadDylib s₅ hdylib => ?_
  obtain ⟨rfl, hdylib⟩ := hdylib
  exact .pure ⟨rfl, hpayload, hdylib⟩

theorem leaveRamdisk_spec (waits : ℕ) (pinfo : Paleinfo) {ramdiskBoot : Bool}
    (hramdisk : ramdiskBoot = true ↔ s.root = .ramdisk) :
    Ends m s (leaveRamdisk waits pinfo ramdiskBoot) fun payloads s' =>
      s' = { s with root := rootAfter pinfo s.root } ∧ payloads.isSome = ramdiskBoot ∧
      ∀ p ∈ payloads, m.view .ramdisk payloadPath = some p.1.bytes ∧
        m.view .ramdisk payloadDylibPath = some p.2.bytes := by
  refine .ite (fun hboot => ?_) fun hboot => .pure ⟨?_, ?_, ?_⟩
  · have hroot := hramdisk.mp hboot
    refine .bind (readPayloads_spec pinfo) fun payloads s₁ hs₁ => ?_
    obtain ⟨rfl, hpayload, hdylib⟩ := hs₁
    refine .bind (mountroot_spec waits pinfo) fun _ s₂ hs₂ => .pure ⟨?_, hboot.symm, ?_⟩
    · rw [hs₂, hroot]
    · rintro p hp
      obtain rfl := Option.mem_some.mp hp
      rw [← hroot]
      exact ⟨hpayload, hdylib⟩
  · cases hroot : s.root with
    | ramdisk => exact absurd (hramdisk.mpr hroot) hboot
    | volume device opts =>
      rw [rootAfter, ← hroot]
  · exact (Bool.eq_false_iff.mpr hboot).symm
  · exact fun p hp => absurd hp (Option.not_mem_none p)

theorem readDyld_spec (memory : Memory 8) :
    Ends m s (readDyld memory) fun dyld s' => s' = s ∧
      m.view s.root dyldPath = some dyld.1.bytes ∧
      PatchDyld.getPlatform (fileMemory memory dyld.1) dyld.1.fileP = .ok dyld.2 := by
  refine .bind (readFile_spec _) fun dyld s₁ hdyld => ?_
  obtain ⟨rfl, hview⟩ := hdyld
  cases PatchDyld.checkDyld (fileMemory memory dyld) dyld.fileP with
  | error message => exact .throw _
  | ok =>
    cases hplatform : PatchDyld.getPlatform (fileMemory memory dyld) dyld.fileP with
    | error message => exact .throw _
    | ok platform => exact .pure ⟨rfl, hview, hplatform⟩

/-- The file system at `/cores` when it is ready. -/
def coresAfter (sysinfo : SystemInfo) (ramdiskBoot : Bool) (s : Files) : Files :=
  if ramdiskBoot then { s with cores := fun _ => none }
  else if sysinfo.xnuMajor < 7938 then s
  else s.put coresDyld none

theorem initCores_spec (sysinfo : SystemInfo) (ramdiskBoot : Bool) :
    Ends m s (initCores sysinfo ramdiskBoot) fun _ s' => s' = coresAfter sysinfo ramdiskBoot s := by
  unfold initCores coresAfter
  cases ramdiskBoot with
  | false =>
    refine .ite (fun _ => .ite (fun hold => .pure ?_) fun hnew => ?_) fun h => absurd rfl h
    · exact (if_pos hold).symm
    · refine ends_mount (by decide) (by decide) ?_
      refine .ask fun ret s₁ hunlink => (checkError_spec _ ret).weaken fun _ s' hs' => ?_
      have hs₁ : s₁ = if ret = 0 then s.put coresDyld none else s := hunlink
      rw [hs'.1, hs₁, if_pos hs'.2]
      exact (if_neg hnew).symm
  | true =>
    refine .ite (fun h => absurd h (by decide)) fun _ => .ite (fun _ => ?_) fun _ => .throw _
    refine .bind (M := fun _ s' => s' = { s with cores := fun _ => none }) ?_ fun _ s₁ hs₁ => ?_
    · refine .ask fun ret s₁ hpagesize => ?_
      obtain rfl : s₁ = s := hpagesize
      refine .bind (checkError_spec _ ret) fun _ s₂ hs₂ => ?_
      obtain ⟨rfl, -⟩ := hs₂
      refine .ask fun ret s₃ hmount => (checkError_spec _ ret).weaken fun _ s' hs' => ?_
      have hs₃ : s₃ = if ret = 0 then s₂.mount tmpfs cores 0 [] else s₂ := hmount
      rw [hs'.1, hs₃, if_pos hs'.2, Files.mount, if_pos ⟨rfl, rfl⟩]
    · obtain rfl := hs₁
      have hmkdir (path : String) : Unseen (Step m) (mkdirCores path) :=
        .bind (unseen_ask fun _ _ _ h => h) fun ret => unseen_checkError _ ret
      exact .of_unseen (unseen_forM fun path _ => hmkdir path)

theorem fbi_unseen (mnt : String) : Unseen (Step m) (fbi mnt) := by
  refine .bind (unseen_ask fun _ _ _ h => h.1) fun _ => .bind (unseen_ask fun _ _ _ h => ?_)
    fun ret => unseen_checkError _ ret
  exact eq_of_mount (fun h => absurd h.1 (by decide)) (fun h => absurd h.1 (by decide)) h

theorem prepareRootfs_unseen (sysinfo : SystemInfo) (pinfo : Paleinfo) (platform : BitVec 32) :
    Unseen (Step m) (prepareRootfs sysinfo pinfo platform) := by
  refine .bind (unseen_ask fun _ _ _ h => h.1) fun statbuf => .ite (.pure _) (.ite (.pure _) ?_)
  refine .bind (unseen_ask fun _ _ _ h => h.1) fun rootfs => ?_
  cases Fakedyld.volumePrefix [] rootfs with
  | error message => exact .throw _
  | ok volumePre =>
    refine .bind (unseen_ask fun _ _ _ h => eq_of_mount (by decide) (by decide) h) fun ret => ?_
    exact .bind (unseen_checkError _ ret) fun _ => unseen_forM fun mnt _ => fbi_unseen mnt

theorem patchedDyld_spec (input : Input) (dyld : MemoryFileHandle) {platform : BitVec 32}
    (hplatform : PatchDyld.getPlatform (fileMemory input.memory dyld) dyld.fileP = .ok platform) :
    Ends m s (patchedDyld input dyld platform) fun patched s' =>
      s' = s ∧ Patched input dyld.bytes patched := by
  unfold patchedDyld
  cases hpatch : PatchDyld.patchDyld input.devBuild dyld.fileP platform
      (.fresh (words (fileMemory input.memory dyld))) with
  | error stop => cases stop <;> exact .throw _
  | ok process => exact .pure ⟨rfl, dyld.fileP, platform, process, hplatform, hpatch, rfl⟩

theorem launchdArgs_spec (input : Input) (flags : Flags) (hasVerboseBoot : Bool) :
    Ends m s (launchdArgs input flags hasVerboseBoot) fun args s' => s' = s ∧
      args = ⟨sbinLaunchd, [sbinLaunchd], (launchdVars flags hasVerboseBoot).map entry⟩ := by
  unfold launchdArgs
  rw [pinfoBufferText_eq input.stack input.pinfoBuffer_ne]
  refine .ask fun execveBuffer s₁ hs₁ => .ite (fun _ => .throw _) fun _ => .pure ⟨hs₁, ?_⟩
  have hroot : jbRootPathEnvText flags = entry (PayloadDylib.jbRootPathName,
      if flags.has palerainOptionRootful then "/".toList else "/var/jb".toList) := by
    rw [jbRootPathEnvText]
    split <;> rfl
  have hverbose : hasVerboseBootEnvText hasVerboseBoot = entry ("JB_HAS_VERBOSE_BOOT".toList,
      if hasVerboseBoot then "1".toList else "0".toList) := by
    rw [hasVerboseBootEnvText]
    split <;> rfl
  rw [hroot, hverbose]
  rfl

/-- Written into a new file. -/
theorem overwrite_eq_of_nil (content : List Byte) : overwrite [] 0 content = content := by
  rw [overwrite, List.take_nil, List.drop_nil, List.nil_append, List.append_nil]

/-- The two files are put into a file system that is empty. -/
theorem placePayloads_some (payloads : MemoryFileHandle × MemoryFileHandle)
    (hempty : s.cores = fun _ => none) :
    Ends m s (placePayloads (some payloads)) fun _ s' =>
      s' = (s.put coresPayload (some payloads.1.bytes)).put coresPayloadDylib
        (some payloads.2.bytes) := by
  refine .bind (writeFile_spec _ _) fun _ s₁ hs₁ => (writeFile_spec _ _).weaken fun _ s' hs' => ?_
  have hold : s.old coresPayload = [] := by rw [Files.old, hempty, Option.getD_none]
  rw [hold, overwrite_eq_of_nil] at hs₁
  have hold₁ : s₁.old coresPayloadDylib = [] := by
    rw [hs₁, Files.old, put_cores, Function.update_of_ne (by decide), hempty, Option.getD_none]
  rw [hs', hold₁, overwrite_eq_of_nil, hs₁]

/-- Whether dyld has been deleted is not looked at. -/
theorem placePayloads_none :
    Ends m s (placePayloads none) fun _ s' => s' = s ∨ s' = s.put coresDyld none := by
  refine .ask fun ret s₁ hunlink => .pure ?_
  have hs₁ : s₁ = if ret = 0 then s.put coresDyld none else s := hunlink
  rw [hs₁]
  split
  · exact .inr rfl
  · exact .inl rfl

/-! ## The boot -/

/-- What the last phases find: the root is mounted, and in `/cores` everything is there but dyld. -/
structure Prepared (m : Machine) (sysinfo : SystemInfo) (s s' : Files) : Prop where
  root : s'.root = rootAfter m.pinfo s.root
  payload : s.root = .ramdisk → ∃ content, m.view .ramdisk payloadPath = some content ∧
    s'.cores coresPayload = some content
  payloadDylib : s.root = .ramdisk → ∃ content, m.view .ramdisk payloadDylibPath = some content ∧
    s'.cores coresPayloadDylib = some content
  dyld : s'.old coresDyld = [] ∨ sysinfo.xnuMajor < 7938 ∧
    kept s coresDyld = some (s'.old coresDyld)
  others : ∀ path, path ≠ coresDyld → (s.root = .ramdisk → path ≠ coresPayload ∧
    path ≠ coresPayloadDylib) → s'.cores path = kept s path

theorem prepared_ramdisk (sysinfo : SystemInfo) (hroot : s.root = .ramdisk)
    {payloads : MemoryFileHandle × MemoryFileHandle}
    (hpayload : m.view .ramdisk payloadPath = some payloads.1.bytes)
    (hdylib : m.view .ramdisk payloadDylibPath = some payloads.2.bytes) :
    Ends m (coresAfter sysinfo true { s with root := rootAfter m.pinfo s.root })
      (placePayloads (some payloads)) fun _ s' => Prepared m sysinfo s s' := by
  refine (placePayloads_some payloads rfl).weaken fun _ s' hs' => ?_
  have hcores : s'.cores = Function.update (Function.update (fun _ => none) coresPayload
      (some payloads.1.bytes)) coresPayloadDylib (some payloads.2.bytes) := by
    rw [hs']
    rfl
  have hkept : kept s = fun _ => none := by rw [kept, hroot]
  refine ⟨?_, fun _ => ⟨_, hpayload, ?_⟩, fun _ => ⟨_, hdylib, ?_⟩, .inl ?_, fun path _ hne => ?_⟩
  · rw [hs']
    rfl
  · rw [hcores, Function.update_of_ne (by decide), Function.update_self]
  · rw [hcores, Function.update_self]
  · rw [Files.old, hcores, Function.update_of_ne (by decide), Function.update_of_ne (by decide),
      Option.getD_none]
  · rw [hcores, Function.update_of_ne (hne hroot).2, Function.update_of_ne (hne hroot).1, hkept]

theorem prepared_volume (sysinfo : SystemInfo) {device : CStr} {opts : BitVec 32}
    (hroot : s.root = .volume device opts) :
    Ends m (coresAfter sysinfo false { s with root := rootAfter m.pinfo s.root })
      (placePayloads none) fun _ s' => Prepared m sysinfo s s' := by
  have hsame : { s with root := rootAfter m.pinfo s.root } = s := by
    rw [hroot, rootAfter, ← hroot]
  have hne {p : Prop} (h : s.root = .ramdisk) : p := by
    rw [hroot] at h
    cases h
  have hkept : kept s = s.cores := by rw [kept, hroot]
  have hdeleted : Prepared m sysinfo s (s.put coresDyld none) := by
    refine ⟨?_, fun h => hne h, fun h => hne h, .inl ?_, fun path hpath _ => ?_⟩
    · exact (congrArg Files.root hsame).symm
    · rw [Files.old, put_cores, Function.update_self, Option.getD_none]
    · rw [put_cores, Function.update_of_ne hpath, hkept]
  have hleft (hold : sysinfo.xnuMajor < 7938) : Prepared m sysinfo s s := by
    refine ⟨(congrArg Files.root hsame).symm, fun h => hne h, fun h => hne h, ?_, ?_⟩
    · cases hcontent : s.cores coresDyld with
      | none => exact .inl (by rw [Files.old, hcontent, Option.getD_none])
      | some content => exact .inr ⟨hold, by rw [Files.old, hkept, hcontent, Option.getD_some]⟩
    · intro path _ _
      rw [hkept]
  rw [hsame]
  refine placePayloads_none.weaken fun _ s' hs' => ?_
  by_cases hold : sysinfo.xnuMajor < 7938
  · have hafter : coresAfter sysinfo false s = s := if_pos hold
    rw [hafter] at hs'
    rcases hs' with rfl | rfl
    · exact hleft hold
    · exact hdeleted
  · have hafter : coresAfter sysinfo false s = s.put coresDyld none := if_neg hold
    rw [hafter, put_put, or_self] at hs'
    rw [hs']
    exact hdeleted

/-- dyld is the last file that is written. -/
theorem Prepared.boots {input : Input} {sysinfo : SystemInfo} {s s' : Files}
    (h : Prepared m sysinfo s s') (hconsistent : Consistent m.pinfo.flags)
    {content patched : List Byte}
    (hview : m.view (rootAfter m.pinfo s.root) dyldPath = some content)
    (hpatched : Patched input content patched) (hasVerboseBoot : Bool) :
    Boots m input sysinfo hasVerboseBoot s
      (s'.put coresDyld (some (overwrite (s'.old coresDyld) 0 patched)))
      ⟨sbinLaunchd, [sbinLaunchd], (launchdVars m.pinfo.flags hasVerboseBoot).map entry⟩ where
  consistent := hconsistent
  root := h.root
  payload hroot := by
    obtain ⟨content, hcontent, hcores⟩ := h.payload hroot
    refine ⟨content, hcontent, ?_⟩
    rw [put_cores, Function.update_of_ne (by decide), hcores]
  payloadDylib hroot := by
    obtain ⟨content, hcontent, hcores⟩ := h.payloadDylib hroot
    refine ⟨content, hcontent, ?_⟩
    rw [put_cores, Function.update_of_ne (by decide), hcores]
  dyld := by
    refine ⟨content, patched, s'.old coresDyld, ?_, hpatched, ?_, h.dyld⟩
    · show m.view s'.root dyldPath = some content
      rw [h.root, hview]
    · rw [put_cores, Function.update_self]
  others path hpath hne := by
    rw [put_cores, Function.update_of_ne hpath, h.others path hpath hne]
  path := rfl
  argv := rfl
  envp := rfl
  buffer _ _ _ hready hpos hend := hready.gives hpos hend

theorem boot_spec (input : Input) (sysinfo : SystemInfo) (hasVerboseBoot : Bool)
    {ramdiskBoot : Bool} (hramdisk : ramdiskBoot = true ↔ s.root = .ramdisk) :
    Ends m s (boot input sysinfo hasVerboseBoot m.pinfo ramdiskBoot) fun args s' =>
      Boots m input sysinfo hasVerboseBoot s s' args := by
  refine .bind (pinfoCheck_spec _) fun _ s₁ hs₁ => ?_
  obtain ⟨rfl, hconsistent⟩ := hs₁
  refine .bind (leaveRamdisk_spec input.waits m.pinfo hramdisk) fun payloads s₂ hs₂ => ?_
  obtain ⟨hs₂, hsome, hpayloads⟩ := hs₂
  refine .bind (readDyld_spec input.memory) fun dyld s₃ hs₃ => ?_
  obtain ⟨rfl, hview, hplatform⟩ := hs₃
  refine .bind (initCores_spec sysinfo ramdiskBoot) fun _ s₄ hs₄ => ?_
  refine .bind (.of_unseen (prepareRootfs_unseen sysinfo m.pinfo dyld.2)) fun _ s₅ hs₅ => ?_
  obtain rfl := hs₅
  have hplace : Ends m s₅ (placePayloads payloads) fun _ s' => Prepared m sysinfo s₁ s' := by
    rw [hs₄, hs₂]
    cases payloads with
    | none =>
      obtain rfl : ramdiskBoot = false := hsome.symm
      cases hroot : s₁.root with
      | ramdisk => exact absurd (hramdisk.mpr hroot) (by decide)
      | volume device opts =>
        rw [← hroot]
        exact prepared_volume sysinfo hroot
    | some payloads =>
      obtain rfl : ramdiskBoot = true := hsome.symm
      obtain ⟨hpayload, hdylib⟩ := hpayloads payloads rfl
      exact prepared_ramdisk sysinfo (hramdisk.mp rfl) hpayload hdylib
  refine .bind hplace fun _ s₆ hprepared => ?_
  refine .bind (patchedDyld_spec input dyld.1 hplatform) fun patched s₇ hs₇ => ?_
  obtain ⟨rfl, hpatched⟩ := hs₇
  refine .bind (writeFile_spec coresDyld patched) fun _ s₈ hs₈ => ?_
  refine (launchdArgs_spec input m.pinfo.flags hasVerboseBoot).weaken fun args s' hs' => ?_
  rw [hs'.1, hs'.2, hs₈]
  rw [hs₂] at hview
  exact hprepared.boots hconsistent hview hpatched hasVerboseBoot

/-- **What launchd is started with**: whenever the boot stage comes to its `execve`, its files are
there. -/
theorem main_boots (m : Machine) (input : Input) (s : Files) :
    Ends m s (main input) fun args s' => ∃ sysinfo serial,
      systeminfo input.kernel = .ok (sysinfo, serial) ∧
      Boots m input sysinfo (serial || m.pinfo.flags.has palerainOptionVerboseBoot) s s' args := by
  refine .ask fun consoleFd s₁ hconsole => .ite (fun _ => .throw _) fun _ => ?_
  obtain rfl : s₁ = s := hconsole
  cases hsystem : systeminfo input.kernel with
  | error message => exact .throw _
  | ok info =>
    refine .ask fun p s₂ hpinfo => ?_
    obtain ⟨rfl, hpinfo⟩ := hpinfo
    cases p with
    | none => exact .throw _
    | some pinfo =>
      obtain rfl := hpinfo pinfo rfl
      refine .ask fun fst s₃ hfst => ?_
      obtain ⟨rfl, hfst⟩ := hfst
      cases fst with
      | none => exact .throw _
      | some fst =>
        refine (boot_spec input info.1 _ (decide_eq_true_iff.trans (hfst fst rfl))).weaken
          fun args s' hboots => ⟨info.1, info.2, rfl, hboots⟩

end Phases

/-! ## A boot that comes to its end -/

section Comes

variable {m : Machine} {s s₁ s₂ : Files} {α β : Type}

/-- A run to this result and this state is possible. -/
def Comes (m : Machine) (s : Files) (x : Io α) (a : α) (s' : Files) : Prop :=
  ∃ t, Run x.run t (.ok a) ∧ Steps (Step m) s t s'

namespace Comes

theorem pure (a : α) : Comes m s (Pure.pure a) a s := ⟨[], .done _, rfl⟩

theorem ask {c : Call} (r : Answer c) {f : Answer c → Io β} {b : β} (hstep : Step m s ⟨c, r⟩ s₁)
    (h : Comes m s₁ (f r) b s₂) : Comes m s (BootStage.ask c >>= f) b s₂ := by
  obtain ⟨t, hrun, hsteps⟩ := h
  exact ⟨⟨c, r⟩ :: t, .call r hrun, s₁, hstep, hsteps⟩

theorem bind {x : Io α} {f : α → Io β} {a : α} {b : β} (hx : Comes m s x a s₁)
    (hf : Comes m s₁ (f a) b s₂) : Comes m s (x >>= f) b s₂ := by
  have hbind (p : Prog Answer (Except Stop α)) (t : List (Event Answer)) (s : Files)
      (hrun : Run p t (.ok a)) (hsteps : Steps (Step m) s t s₁) :
      ∃ t, Run (p >>= ExceptT.bindCont f) t (.ok b) ∧ Steps (Step m) s t s₂ := by
    generalize hr : Except.ok a = r at hrun
    induction hrun generalizing s with
    | done =>
      subst hr
      obtain rfl := hsteps
      exact hf
    | call r hrun ih =>
      obtain ⟨s', hstep, hsteps⟩ := hsteps
      obtain ⟨t, hrun, hsteps⟩ := ih s' hsteps hr
      exact ⟨⟨_, r⟩ :: t, .call r hrun, s', hstep, hsteps⟩
  obtain ⟨t, hrun, hsteps⟩ := hx
  exact hbind x.run t s hrun hsteps

end Comes

/-- Of what is no file some size is told. -/
theorem comes_stat (path : CStr) {f : Option ℕ → Io β} {b : β}
    (h : ∀ size, Comes m s (f (some size)) b s₂) : Comes m s (ask (.stat path) >>= f) b s₂ := by
  have hstat : Step m s ⟨.stat path, some ((m.view s.root path).getD []).length⟩ s := by
    refine ⟨rfl, fun n content hn hview => ?_⟩
    rw [← Option.some.inj hn, hview, Option.getD_some]
  exact .ask _ hstat (h _)

theorem readFile_comes {path : CStr} {content : List Byte}
    (hview : m.view s.root path = some content) (fileP : ℕ) :
    Comes m s (readFile path) ⟨fileP, content⟩ s := by
  refine .ask (some content.length) ⟨rfl, fun n content' hn hview' => ?_⟩ ?_
  · rw [hview] at hview'
    rw [← Option.some.inj hn, Option.some.inj hview']
  dsimp only
  refine .ask true rfl ?_
  rw [if_neg (by decide)]
  refine .ask (some fileP) rfl ?_
  dsimp only
  refine .ask (some content) ⟨rfl, fun d hd => ⟨content, hview, ?_⟩⟩ ?_
  · rw [Option.some.inj hd]
  · dsimp only
    rw [if_neg (not_not.mpr rfl)]
    exact .pure _

theorem writeFile_comes (path : CStr) (data : List Byte) :
    ∃ s', s'.root = s.root ∧ Comes m s (writeFile path data) () s' := by
  let s₁ := s.put path (some (s.old path))
  let s₂ := s₁.put path (some (overwrite (s₁.old path) 0 (data.take data.length)))
  have hopen : Step m s ⟨.openCreate path, true⟩ s₁ := rfl
  have hwrite : Step m s₁ ⟨.write path data, some data.length⟩ s₂ := rfl
  refine ⟨s₂, rfl, .ask true hopen ?_⟩
  rw [if_neg (by decide)]
  refine .ask (some data.length) hwrite ?_
  rw [if_neg (not_not.mpr rfl)]
  exact .pure _

theorem pinfoCheck_comes {flags : Flags} (h : Consistent flags) :
    Comes m s (pinfoCheck flags) () s := by
  have hfind : (disallowedCombinations.find? fun c => flags &&& c.1 == c.1) = none :=
    List.find?_eq_none.mpr fun c hc heq => h.combinations c hc (beq_iff_eq.mp heq)
  unfold pinfoCheck
  rw [hfind]
  dsimp only
  rw [if_neg (not_not.mpr h.booted)]
  exact .pure _

theorem comes_checkError (message : String) : Comes m s (checkError message 0) () s := by
  unfold checkError
  rw [if_neg (not_not.mpr rfl)]
  exact .pure _

theorem step_mount (fstype dir : CStr) (flags : BitVec 32) (data : CStr) :
    Step m s ⟨.mount fstype dir flags data, (0 : ℤ)⟩ (s.mount fstype dir flags data) :=
  (if_pos rfl).symm

theorem step_elsewhere {fstype dir data : CStr} {flags : BitVec 32}
    (hcores : ¬(fstype = tmpfs ∧ dir = cores)) (hroot : ¬(fstype = apfs ∧ dir = ['/'])) :
    Step m s ⟨.mount fstype dir flags data, (0 : ℤ)⟩ s :=
  ((if_pos rfl).trans (mount_elsewhere hcores hroot)).symm

theorem mountroot_comes {waits : ℕ} (hwaits : 0 < waits) (pinfo : Paleinfo) :
    Comes m s (mountroot waits pinfo) () { s with root := rootAfter pinfo .ramdisk } := by
  obtain ⟨waits, rfl⟩ := Nat.exists_eq_add_of_lt hwaits
  rw [Nat.zero_add]
  have hwait : Comes m s (waitRealfs (RootDevice.mountroot pinfo).devRealfs (waits + 1)) () s := by
    rw [waitRealfs]
    refine comes_stat _ fun size => ?_
    rw [Option.isSome_some, if_pos rfl]
    exact .pure _
  have hmount : Comes m s (retryRootfsMount (RootDevice.mountroot pinfo) (waits + 1)) ()
      { s with root := rootAfter pinfo .ramdisk } := by
    rw [retryRootfsMount]
    refine .ask (0 : ℤ) (step_mount _ _ _ _) ?_
    rw [if_neg (not_not.mpr rfl), mount_root]
    refine comes_stat _ fun size => ?_
    rw [Option.isSome_some, if_pos rfl]
    exact .pure _
  refine .bind hwait (comes_stat _ fun size => ?_)
  rw [Option.isNone_some, if_neg (by decide)]
  exact .bind hmount (.ask (0 : ℤ) (step_elsewhere (by decide) (by decide)) (comes_checkError _))

theorem leaveRamdisk_comes {waits : ℕ} (hwaits : 0 < waits) (pinfo : Paleinfo)
    (hroot : s.root = .ramdisk) {payload payloadDylib : List Byte}
    (hpayload : m.view .ramdisk payloadPath = some payload)
    (hdylib : m.view .ramdisk payloadDylibPath = some payloadDylib) (fileP : ℕ) :
    Comes m s (leaveRamdisk waits pinfo true)
      (some (⟨fileP, payload⟩, ⟨fileP, payloadDylib⟩))
      { s with root := rootAfter pinfo .ramdisk } := by
  rw [← hroot] at hpayload hdylib
  have hcleaned : Comes m s (cleanIfAsked pinfo) true s := by
    unfold cleanIfAsked
    split
    · exact .ask true rfl (.pure _)
    · exact .pure _
  have hread : Comes m s (readPayloads pinfo) (⟨fileP, payload⟩, ⟨fileP, payloadDylib⟩) s := by
    refine .ask (0 : ℤ) (step_elsewhere (by decide) (by decide)) ?_
    refine .bind (comes_checkError _) (.bind hcleaned ?_)
    rw [if_neg (by decide)]
    exact .bind (readFile_comes hpayload fileP) (.bind (readFile_comes hdylib fileP) (.pure _))
  exact .bind hread (.bind (mountroot_comes hwaits pinfo) (.pure _))

theorem comes_forM {γ : Type} {f : γ → Io PUnit} {l : List γ}
    (h : ∀ a ∈ l, Comes m s (f a) () s) : Comes m s (l.forM f) () s := by
  induction l with
  | nil => exact .pure _
  | cons a l ih =>
    exact .bind (h a List.mem_cons_self) (ih fun b hb => h b (List.mem_cons_of_mem a hb))

theorem initCores_comes {sysinfo : SystemInfo} (h : 19 < sysinfo.osrelease.darwinMajor) :
    ∃ s', s'.root = s.root ∧ Comes m s (initCores sysinfo true) () s' := by
  let s' : Files := { s with cores := fun _ => none }
  have hmount : s.mount tmpfs cores 0 [] = s' := if_pos ⟨rfl, rfl⟩
  have htmpfs : Comes m s mountTmpfsCores () s' := by
    refine .ask (0 : ℤ) rfl (.bind (comes_checkError _) (.ask (0 : ℤ) (step_mount _ _ _ _) ?_))
    rw [hmount]
    exact comes_checkError _
  refine ⟨s', rfl, ?_⟩
  unfold initCores
  rw [if_neg (by decide), if_pos h]
  exact .bind htmpfs (comes_forM fun path _ => .ask (0 : ℤ) rfl (comes_checkError _))

theorem prepareRootfs_comes (sysinfo : SystemInfo) (pinfo : Paleinfo) (platform : BitVec 32) :
    Comes m s (prepareRootfs sysinfo pinfo platform) () s := by
  refine comes_stat _ fun size => ?_
  rw [Option.isSome_some, if_pos rfl]
  exact .pure _

/-- dyld is read, and can be patched. -/
structure Patches (input : Input) (fileP : ℕ) (content : List Byte) : Prop where
  check : PatchDyld.checkDyld (fileMemory input.memory ⟨fileP, content⟩) fileP = .ok ()
  patch : ∃ platform process,
    PatchDyld.getPlatform (fileMemory input.memory ⟨fileP, content⟩) fileP = .ok platform ∧
    PatchDyld.patchDyld input.devBuild fileP platform
      (.fresh (words (fileMemory input.memory ⟨fileP, content⟩))) = .ok process

theorem boot_comes {input : Input} {sysinfo : SystemInfo} (hasVerboseBoot : Bool)
    (hdarwin : 19 < sysinfo.osrelease.darwinMajor) (hwaits : 0 < input.waits)
    (hconsistent : Consistent m.pinfo.flags) (hroot : s.root = .ramdisk)
    {payload payloadDylib content : List Byte}
    (hpayload : m.view .ramdisk payloadPath = some payload)
    (hdylib : m.view .ramdisk payloadDylibPath = some payloadDylib)
    (hdyld : m.view (rootAfter m.pinfo .ramdisk) dyldPath = some content) {fileP : ℕ}
    (hpatches : Patches input fileP content) :
    ∃ args s', Comes m s (boot input sysinfo hasVerboseBoot m.pinfo true) args s' := by
  obtain ⟨platform, process, hplatform, hpatch⟩ := hpatches.patch
  let s₁ : Files := { s with root := rootAfter m.pinfo .ramdisk }
  have hread : Comes m s₁ (readDyld input.memory) (⟨fileP, content⟩, platform) s₁ := by
    refine .bind (readFile_comes hdyld fileP) ?_
    dsimp only
    rw [hpatches.check]
    dsimp only
    rw [hplatform]
    exact .pure _
  obtain ⟨s₂, -, hinit⟩ := initCores_comes (m := m) (s := s₁) hdarwin
  obtain ⟨s₃, -, hput⟩ := writeFile_comes (m := m) (s := s₂) coresPayload payload
  obtain ⟨s₄, -, hputDylib⟩ := writeFile_comes (m := m) (s := s₃) coresPayloadDylib payloadDylib
  have hpatched : Comes m s₄ (patchedDyld input ⟨fileP, content⟩ platform)
      (fileBytes (bytes process.memory) ⟨fileP, content⟩) s₄ := by
    unfold patchedDyld
    dsimp only
    rw [hpatch]
    exact .pure _
  obtain ⟨s₅, -, hputDyld⟩ := writeFile_comes (m := m) (s := s₄) coresDyld
    (fileBytes (bytes process.memory) ⟨fileP, content⟩)
  have hargs : ∃ args, Comes m s₅ (launchdArgs input m.pinfo.flags hasVerboseBoot) args s₅ := by
    unfold launchdArgs
    rw [pinfoBufferText_eq input.stack input.pinfoBuffer_ne]
    exact ⟨_, .ask (some 0) rfl (.pure _)⟩
  obtain ⟨args, hargs⟩ := hargs
  refine ⟨args, s₅, .bind (pinfoCheck_comes hconsistent) ?_⟩
  refine .bind (leaveRamdisk_comes hwaits m.pinfo hroot hpayload hdylib fileP) (.bind hread ?_)
  refine .bind hinit (.bind (prepareRootfs_comes sysinfo m.pinfo platform) ?_)
  exact .bind (.bind hput hputDylib) (.bind hpatched (.bind hputDyld hargs))

/-- **A boot from the ramdisk** can come to its `execve` where the flags are consistent, the files
are there, and dyld can be patched. -/
theorem main_comes {input : Input} {sysinfo : SystemInfo} {serial : Bool}
    (hsystem : systeminfo input.kernel = .ok (sysinfo, serial))
    (hdarwin : 19 < sysinfo.osrelease.darwinMajor) (hwaits : 0 < input.waits)
    (hconsistent : Consistent m.pinfo.flags) (hroot : s.root = .ramdisk)
    {payload payloadDylib content : List Byte}
    (hpayload : m.view .ramdisk payloadPath = some payload)
    (hdylib : m.view .ramdisk payloadDylibPath = some payloadDylib)
    (hdyld : m.view (rootAfter m.pinfo .ramdisk) dyldPath = some content) {fileP : ℕ}
    (hpatches : Patches input fileP content) : ∃ args s', Comes m s (main input) args s' := by
  obtain ⟨args, s', hboot⟩ := boot_comes (serial || m.pinfo.flags.has palerainOptionVerboseBoot)
    hdarwin hwaits hconsistent hroot hpayload hdylib hdyld hpatches
  refine ⟨args, s', .ask true rfl ?_⟩
  rw [if_neg (by decide), hsystem]
  refine .ask (some m.pinfo) ⟨rfl, fun p hp => (Option.some.inj hp).symm⟩ ?_
  have hstatfs : Step m s ⟨.statfs, some ⟨hfs, []⟩⟩ s := by
    refine ⟨rfl, fun r hr => ?_⟩
    rw [← Option.some.inj hr]
    exact ⟨fun _ => hroot, fun _ => rfl⟩
  refine .ask (some ⟨hfs, []⟩) hstatfs ?_
  exact hboot

end Comes

/-! ## A rootless boot -/

/-- A dyld with the symbol of the platform check. -/
def smallDyldWords : List (BitVec 32) :=
  [0xfeedfacf, 0, 0, 0, 3, 0, 0, 0, 0x19, 0x98, 0x45545f5f, 0x5458, 0, 0, 0, 0, 0x1000, 0, 0,
    0, 0x1000, 0, 0, 0, 1, 0, 0x73635f5f, 0x6e697274, 0x67, 0, 0x45545f5f, 0x5458, 0, 0, 0x13c,
    0, 8, 0, 0x13c, 0, 0, 0, 0, 0, 0, 0, 2, 0x18, 0xe8, 1, 0xf8, 0x3c, 0x32, 0x18, 2, 0, 0, 0,
    0, 0, 0x134, 0, 0x4e5a5f5f, 0x616d364b, 0x6f5f6863, 0x6f6c3931, 0x62616461, 0x6e49656c,
    0x72506f74, 0x7365636f, 0x534e4573, 0x6c50385f, 0x6f667461, 0x37456d72, 0x72745343,
    0x62676e69, 0, 0xd63f0100, 0xd65f03c0, 0, 0]

def smallDyld : List Byte := smallDyldWords.flatMap fun w => toBytes 4 w.toNat

def plainInput : Input where
  kernel := ⟨[], "Darwin Kernel Version 22.5.0: root:xnu-8796.1~2".toList⟩
  devBuild := false
  memory := fun _ => 0
  stack := fun _ => Printf.nul
  pinfoBuffer := 1
  pinfoBuffer_ne := Nat.one_ne_zero
  waits := 1

def plainMachine : Machine where
  pinfo := ⟨0, 0, palerainOptionRootless, "disk0s1s8".toList⟩
  view
    | .ramdisk, path =>
      if path = payloadPath then some [1] else if path = payloadDylibPath then some [2] else none
    | .volume _ _, path => if path = dyldPath then some smallDyld else none

theorem patches_smallDyld : Patches plainInput 0x1000 smallDyld := by
  have hcheck : PatchDyld.checkDyld (fileMemory (fun _ => 0) ⟨0x1000, smallDyld⟩) 0x1000 = .ok () ∧
      PatchDyld.getPlatform (fileMemory (fun _ => 0) ⟨0x1000, smallDyld⟩) 0x1000 = .ok 2 := by
    decide +kernel
  have hpatch : (PatchDyld.patchDyld false 0x1000 2
      (.fresh (words (fileMemory (fun _ => 0) ⟨0x1000, smallDyld⟩)))).isOk = true := by
    decide +kernel
  refine ⟨hcheck.1, 2, ?_⟩
  cases hrun : PatchDyld.patchDyld false 0x1000 2
      (.fresh (words (fileMemory (fun _ => 0) ⟨0x1000, smallDyld⟩))) with
  | ok process => exact ⟨process, hcheck.2, hrun⟩
  | error stop =>
    rw [hrun] at hpatch
    cases hpatch

theorem main_comes_plain :
    ∃ args s', Comes plainMachine ⟨.ramdisk, fun _ => none⟩ (main plainInput) args s' := by
  have hsystem : systeminfo plainInput.kernel = .ok (⟨[], plainInput.kernel.version, ⟨22, 5, 0⟩, 8796⟩,
      false) := rfl
  have hconsistent : Consistent plainMachine.pinfo.flags := ⟨by decide, by decide⟩
  exact main_comes hsystem (by decide) Nat.zero_lt_one hconsistent rfl rfl rfl rfl patches_smallDyld

end Jbinit.Fakedyld.BootStage

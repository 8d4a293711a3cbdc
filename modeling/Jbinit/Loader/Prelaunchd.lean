import Jbinit.RootDevice
import Jbinit.PartialRoot
import Jbinit.Foundations.Calls

/-!
# `prelaunchd`

What the payload does to the volumes before launchd starts. On a rootful device with a sealed system
volume a force revert deletes every volume that is found by the role of the recovery volume, after
it has asked for the role of each again; `setup_fakefs` makes such a volume where none is found,
copies the root onto it and takes the snapshot `orig-fs`. The name of the volume is in the NVRAM
variable `p1-fakefs-rootdev`.

Calls whose outcome the source neither checks nor uses are left out, but for those that change
volumes or NVRAM.
-/

namespace Jbinit.Loader

open Foundations Calls Palera1nd RootDevice PartialRoot

/-! ## Constants -/

def payloadOptionUserspaceRebooted : BitVec 32 := 1#32 <<< 0

def platformTvos : ℕ := 3

def platformBridgeos : ℕ := 5

def apfsVolRoleRecovery : BitVec 16 := 0x0004

/-- What `APFSVolumeRoleFind` returns when there is no volume with the role. -/
def roleNotFound : ℤ := 49245

def kIONVRAMDeletePropertyKey : CStr := "IONVRAM-DELETE-PROPERTY".toList

def kIONVRAMForceSyncNowPropertyKey : CStr := "IONVRAM-FORCESYNCNOW-PROPERTY".toList

def p1FakefsRootdev : CStr := "p1-fakefs-rootdev".toList

def minimumExtraSpace : BitVec 64 := 256 * 1024 * 1024

def fakefs : CStr := "/cores/fs/fake".toList

def apfsFstype : CStr := "apfs".toList

/-! ## Calls -/

/-- What `statfs` tells of the root. -/
structure RootStatfs extends Statfs where
  mntonname : CStr
  bavail : BitVec 64
  bsize : BitVec 32

inductive Call
  | getenv (name : CStr)
  | jailbreakGetPlatform
  | mountDmg (device fstype mnt : CStr) (isOverlay : Bool)
  | access (path : CStr)
  /-- `statfs("/")`. -/
  | statfs
  | getattrlist (path : CStr)
  | apfsVolumeRoleFind (container : CStr) (role : BitVec 16)
  | apfsVolumeRole (device : CStr)
  | apfsVolumeDelete (device : CStr)
  | apfsVolumeCreate (container : CStr) (role : BitVec 16) (name : CStr)
  /-- The answer is what is in the buffer then. -/
  | cfStringGetCString (s : CStr) (size : ℕ)
  | ioRegistryEntrySetCFProperty (key value : CStr)
  /-- Whether there is a value. -/
  | ioRegistryEntryCreateCFProperty (key : CStr)
  | dlopen (path : CStr)
  | runCommand (argv : List CStr)
  | mount (fstype dir : CStr) (flags : BitVec 32) (data : CStr)
  | copyfile (source destination : CStr)
  | openDirectory (path : CStr)
  /-- In the directory that was opened. -/
  | fsSnapshotCreate (name : CStr)
  | unmount (path : CStr)

abbrev Answer : Call → Type
  | .getenv _ => Option CStr
  | .jailbreakGetPlatform => ℤ
  | .mountDmg .. => ℤ
  | .access _ => ℤ
  | .statfs => Option RootStatfs
  | .getattrlist _ => Option (BitVec 64)
  | .apfsVolumeRoleFind .. => ℤ × List CStr
  | .apfsVolumeRole _ => Option (BitVec 16)
  | .apfsVolumeDelete _ => ℤ
  | .apfsVolumeCreate .. => ℤ × BitVec 32
  | .cfStringGetCString .. => CStr
  | .ioRegistryEntrySetCFProperty .. => ℤ
  | .ioRegistryEntryCreateCFProperty _ => Bool
  | .dlopen _ => Bool
  | .runCommand _ => ℤ
  | .mount .. => ℤ
  | .copyfile .. => ℤ
  | .openDirectory _ => ℤ
  | .fsSnapshotCreate _ => ℤ
  | .unmount _ => ℤ

/-- How the payload stops. -/
inductive Stop
  | panic (message : String)
  /-- `strcmp` with a null pointer. -/
  | segmentationFault

abbrev Io := Proc Answer Stop

abbrev Ev := Event Answer

/-- Make a call. -/
def ask (c : Call) : Io (Answer c) := perform c

/-- `CHECK_ERROR` that does not return. -/
def checkError (message : String) (ret : ℤ) : Io Unit :=
  if ret ≠ 0 then throw (.panic message) else return ()

/-! ## NVRAM and names -/

def nvram (key value : CStr) : Io Unit := do
  let _ ← ask (.ioRegistryEntrySetCFProperty key value)
  let _ ← ask (.ioRegistryEntrySetCFProperty kIONVRAMForceSyncNowPropertyKey key)
  return ()

/-- The static buffers of `volume_prefix` and `container_name`. -/
structure Names where
  volumePrefix : CStr
  containerName : CStr

/-- `volume_prefix`. -/
def getVolumePrefix (names : Names) : Io Names :=
  if names.volumePrefix ≠ [] then return names
  else do
    let rootfs ← ask .statfs
    match Loader.volumePrefix names.volumePrefix (rootfs.map RootStatfs.toStatfs) with
    | .error message => throw (.panic message)
    | .ok volumePre => return { names with volumePrefix := volumePre }

/-- `container_name`. -/
def getContainerName (names : Names) : Io Names :=
  if names.containerName ≠ [] then return names
  else do
    let names ← getVolumePrefix names
    return { names with
      containerName := Loader.containerName names.containerName names.volumePrefix }

/-! ## `setup_fakefs` -/

/-- `%d`. -/
def showInt (i : ℤ) : CStr :=
  if i < 0 then '-' :: Nat.toDigits 10 i.natAbs else Nat.toDigits 10 i.natAbs

/-- The commands that make the other volumes ready. -/
def mountPhases : Io Unit := do
  checkError "fsck failed" (← ask (.runCommand ["/sbin/fsck".toList, "-qL".toList]))
  checkError "mount-phase-1 failed"
    (← ask (.runCommand ["/sbin/mount".toList, "-P".toList, "1".toList]))
  checkError "init_data_protection failed"
    (← ask (.runCommand ["/usr/libexec/init_data_protection".toList]))
  checkError "mount-phase-2 failed"
    (← ask (.runCommand ["/sbin/mount".toList, "-P".toList, "2".toList]))

def statfsRoot : Io RootStatfs := do
  let rootfs ← ask .statfs
  match rootfs with
  | none => throw (.panic "statfs / failed")
  | some rootfs =>
    if rootfs.fstypename ≠ apfsFstype then throw (.panic "unexpected filesystem type of /")
    else return rootfs

def checkSpace (flags : Flags) (rootfs : RootStatfs) : Io Unit :=
  if flags.has palerainOptionSetupPartialRoot then return ()
  else do
    let attrbuf ← ask (.getattrlist rootfs.mntonname)
    match attrbuf with
    | none => throw (.panic "getattrlist(/) failed")
    | some spaceused =>
      if spaceused + minimumExtraSpace > rootfs.bavail * rootfs.bsize.setWidth 64 then
        throw (.panic "Not enough space!")
      else return ()

/-- Only where no volume has the role, the function goes on. -/
def checkNoFakefs (container : CStr) : Io Unit := do
  let found ← ask (.apfsVolumeRoleFind container apfsVolRoleRecovery)
  if found.1 ≠ 0 ∧ found.1 ≠ roleNotFound then throw (.panic "APFSVolumeRoleFind failed")
  else if found.1 = 0 then throw (.panic "fakefs already exists")
  else return ()

/-- `actual_fakefs_mntfromname`. -/
def createFakefs (names : Names) : Io CStr := do
  let created ← ask (.apfsVolumeCreate names.containerName apfsVolRoleRecovery "Xystem".toList)
  checkError "APFSVolumeCreate failed" created.1
  let names ← getVolumePrefix names
  return CStr.snprintf 50 (dev ++ (names.volumePrefix ++ showInt (created.2 + 1).toInt))

def copyRoot : Io Unit := do
  checkError "copyfile(): create fakefs failed!"
    (← ask (.copyfile "/cores/fs/real/.".toList fakefs))

def takeSnapshot : Io Unit := do
  let fdFakefs ← ask (.openDirectory fakefs)
  if fdFakefs = -1 then throw (.panic "cannot open fakefs fd")
  else do
    checkError "cannot create orig-fs snapshot on fakefs"
      (← ask (.fsSnapshotCreate "orig-fs".toList))

/-- What is done when the copy is there. -/
def finishSetup : Io Unit := do
  let _ ← ask (.unmount realfs)
  let _ ← ask (.unmount fakefs)
  let _ ← ask (.runCommand ["/usr/libexec/seputil".toList, "--gigalocker-shutdown".toList])
  let umount ← ask (.access "/sbin/umount".toList)
  if umount = 0 then do
    let _ ← ask (.runCommand ["/sbin/umount".toList, "-a".toList])
    nvram "auto-boot".toList "false".toList
  else nvram "auto-boot".toList "false".toList

def setupFakefs (flags : Flags) (names : Names) : Io Unit := do
  mountPhases
  let rootfs ← statfsRoot
  let names ← getContainerName names
  let names ← getVolumePrefix names
  checkNoFakefs names.containerName
  checkSpace flags rootfs
  checkError "mount_bindfs(/ -> /cores/fs/real) failed"
    (← ask (.mount "bindfs".toList realfs mntRdonly ['/']))
  let mntfromname ← createFakefs names
  nvram p1FakefsRootdev (mntfromname.drop 5)
  checkError "mount fakefs failed" (← ask (.mount apfsFstype fakefs 0 mntfromname))
  copyRoot
  takeSnapshot
  finishSetup

/-! ## `prelaunchd` -/

def mountLoader (platform : ℤ) : Io Unit :=
  if platform = platformIos then do
    checkError "mount loader failed" (← ask (.mountDmg "/cores/binpack/loader.dmg".toList
      "hfs".toList "/cores/binpack/Applications".toList false))
  else if platform = platformTvos then do
    checkError "mount loader failed" (← ask (.mountDmg "/cores/binpack/tvloader.dmg".toList
      "hfs".toList "/cores/binpack/Applications".toList false))
  else return ()

/-- A failure is only logged. -/
def mountStrap (platform : ℤ) : Io Unit :=
  if platform = platformBridgeos then do
    let strap ← ask (.access "/usr/share/palera1n-strap".toList)
    if strap = 0 then do
      let dmg ← ask (.access "/usr/share/palera1n-strap.dmg".toList)
      if dmg = 0 then do
        let _ ← ask (.mountDmg "/usr/share/palera1n-strap.dmg".toList "hfs".toList
          "/usr/share/palera1n-strap".toList false)
        return ()
      else return ()
    else return ()
  else return ()

def mountImages (payloadOptions : BitVec 32) (platform : ℤ) : Io Unit :=
  if payloadOptions &&& payloadOptionUserspaceRebooted = 0 then do
    checkError "mount binpack failed" (← ask (.mountDmg "ramfile://checkra1n".toList
      "hfs".toList "/cores/binpack".toList true))
    mountLoader platform
    mountStrap platform
  else return ()

/-- One round of the loop of a force revert. A volume whose role is not found has the role 0. -/
def deleteFakefs (path : CStr) : Io Unit := do
  let devRootdev ← ask (.cfStringGetCString path 32)
  let role ← ask (.apfsVolumeRole devRootdev)
  if role.getD 0 ≠ apfsVolRoleRecovery then
    throw (.panic "BUG: SAFETY: deleting non-recovery volume is not allowed\n")
  else do
    checkError "failed to delete fakefs" (← ask (.apfsVolumeDelete (devRootdev.drop 5)))

/-- A force revert deletes volumes. -/
def reverts (flags : Flags) : Bool :=
  flags &&& (palerainOptionRootful ||| palerainOptionForceRevert) ==
      palerainOptionRootful ||| palerainOptionForceRevert &&
    flags.has palerainOptionSsv

def revertFakefs (flags : Flags) (names : Names) : Io Names :=
  if reverts flags then do
    let names ← getContainerName names
    let found ← ask (.apfsVolumeRoleFind names.containerName apfsVolRoleRecovery)
    if found.1 ≠ 0 ∧ found.1 ≠ roleNotFound then throw (.panic "APFSVolumeRoleFind failed")
    else if found.1 = 0 then do
      found.2.forM deleteFakefs
      nvram kIONVRAMDeletePropertyKey p1FakefsRootdev
      return names
    else return names
  else return names

/-- A boot from the fakefs. -/
def remembers (flags : Flags) : Bool :=
  flags &&& (palerainOptionRootful ||| palerainOptionSsv) ==
      palerainOptionRootful ||| palerainOptionSsv &&
    !flags.has (palerainOptionForceRevert ||| palerainOptionSetupRootful)

/-- The variable is set to the root device where it is not there. -/
def rememberRootdev (pinfo : Paleinfo) : Io Unit :=
  if remembers pinfo.flags then do
    let fakefsVar ← ask (.ioRegistryEntryCreateCFProperty p1FakefsRootdev)
    if fakefsVar then return () else nvram p1FakefsRootdev pinfo.rootdev
  else return ()

def bindSubstrate : Io Unit := do
  let ellekitHandle ← ask (.dlopen "/cores/binpack/usr/lib/libellekit.dylib".toList)
  if ellekitHandle then return ()
  else do
    checkError "failed to bindfs" (← ask (.mount "bindfs".toList
      "/cores/binpack/Library/Frameworks/CydiaSubstrate.framework".toList mntRdonly
      "/cores/binpack/Library/Frameworks/CydiaSubstrateBridgeOS.framework".toList))

def checkEnvironment : Io ℤ := do
  let verboseBoot ← ask (.getenv "JB_HAS_VERBOSE_BOOT".toList)
  if verboseBoot = none then throw .segmentationFault
  else do
    let platform ← ask .jailbreakGetPlatform
    if platform = -1 then throw (.panic "failed to determine current platform\n")
    else return platform

def prelaunchd (payloadOptions : BitVec 32) (pinfo : Paleinfo) : Io Unit := do
  let platform ← checkEnvironment
  mountImages payloadOptions platform
  let names ← revertFakefs pinfo.flags ⟨[], []⟩
  rememberRootdev pinfo
  bindSubstrate
  if pinfo.flags.has palerainOptionSetupRootful then setupFakefs pinfo.flags names else return ()

end Jbinit.Loader

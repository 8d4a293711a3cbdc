import Jbinit.Palera1nd.Bootstrap

/-!
# The operations of palera1nd

`obliterate`, `perform_reboot3`, `overwrite_file` and `runcmd`, and `bootstrap` with its reply. Each
takes the reply to the request and returns it with what it has set. A use of a variable that was not
set is a fault, but for buffers of characters, which are read as they are.
-/

namespace Jbinit.Palera1nd

open Foundations Calls

/-- The sender of a request. -/
structure Peer where
  /-- `xpc_connection_copy_entitlement_value`. -/
  entitlements : Dict
  /-- `xpc_connection_get_pid`, which is -1 when it fails. -/
  pid : ℤ
  /-- `errno` after the failure. -/
  pidErrno : ℤ
  /-- The status that `csops_audittoken` reads, or `errno`. -/
  csops : Except ℤ (BitVec 32)
  deriving DecidableEq

/-- The check of an entitlement that most commands make. -/
def Peer.entitled (peer : Peer) (entitlement : String) : Bool :=
  match peer.entitlements.getValue entitlement with
  | some (.bool value) => value
  | _ => false

def enoentitlement : ℤ := 144
def enotplatform : ℤ := 154

/-- `xpc_dictionary_set_int64(xreply, "error", code)`. -/
def setError (reply : Dict) (code : ℤ) : Dict := reply.set "error" (.int64 code)

def setDescription (reply : Dict) (description : CStr) : Dict :=
  reply.set "errorDescription" (.string description)

/-- A call whose outcome is not looked at. -/
def perform_ (c : Call) : Handling Unit := do
  let _ ← sys c
  return ()

/-! ## Bootstrapping -/

def BootstrapRequest.ofDict (request : Dict) : BootstrapRequest where
  password := request.getString "password"
  path := request.getString "path"
  bootstrapperName := request.getString "bootstrapper-name"
  bootstrapperVersion := request.getString "bootstrapper-version"
  noPassword := request.getBool "no-password"

/-- `BOOTSTRAP_ERROR`. -/
def bootstrapError (reply : Dict) (failure : Failure) : Handling Dict := do
  let reply := setDescription reply failure.description
  match failure.code with
  | .val code => return if code ≠ -1 then setError reply code else reply
  | .errno =>
    let code : ℤ ← sys .readErrno
    return if code ≠ -1 then setError reply code else reply

def deployBootstrap (request reply : Dict) (pinfo : Paleinfo) : Handling Dict := do
  match ← attempt (bootstrap pinfo.flags (.ofDict request)) with
  | .error failure => bootstrapError reply failure
  | .ok (.error fault) => throw fault
  | .ok (.ok result) =>
    return (reply.set "bootstrapRootPath" (.string result.bootstrapRootPath)).set "message"
      (.string result.message)

/-! ## Removing the jailbreak -/

/-- The conversion to `int`. -/
def toInt (value : ℤ) : ℤ := (BitVec.ofInt 32 value).toInt

/-- A returned value other than 0. -/
def nonzero (ret : ℤ) : Bool := ret != 0

/-- `load_cmd` with `unload`. It releases the reply of launchd, which is not set when the message
cannot be sent. -/
def loadCmd (path : CStr) : Handling ℤ := do
  match ← sys (.unload path) with
  | some reply => return toInt (reply.getInt64 "error")
  | none => throw .uninitialized

/-- The loop over the directory `prebootPath`, and the removal of `/var/jb` after it. -/
def removeJbPaths (prebootPath : CStr) : List CStr → Handling ℤ
  | [] => do
    perform_ (.removefile varJb)
    return 0
  | name :: names =>
    let jbPaths := CStr.snprintf 150 (prebootPath ++ '/' :: name)
    if !isJbName name then removeJbPaths prebootPath names
    else if jbPaths = prebootPath then return -1
    else do
      perform_ (.removefile jbPaths)
      removeJbPaths prebootPath names

/-- `remove_jailbreak_files`. It does not look at the outcome of a removal. -/
def removeJailbreakFiles (flags : Flags) : Handling ℤ := do
  if flags.has palerainOptionRootful then
    perform_ (.removefile "/var/lib".toList)
    perform_ (.removefile "/var/cache".toList)
    return 0
  let (bmhash, success) ← sys .getBmhash
  if !success then return -1
  match ← sys (.readDirectory (prebootDirectory bmhash)) with
  | .error _ => return 0
  | .ok names => removeJbPaths (prebootDirectory bmhash) names

/-- `orig-fs` gets its name back, and the file system goes back to it. -/
def revertUpdate (dirfd : ℤ) (hash : BmHash) : Handling Unit := do
  let snapshotName := CStr.snprintf 150 ("com.apple.os.update-".toList ++ hash.chars)
  perform_ (.fsSnapshotRename dirfd "orig-fs".toList snapshotName)
  perform_ (.fsSnapshotRevert dirfd snapshotName)
  perform_ (.close dirfd)

/-- `revert_snapshot`, of the device behind the `@` if the root is a snapshot. -/
def revertSnapshot : Handling Unit := do
  let (hash, success) ← sys .getBmhash
  if !success then return ()
  match ← sys .statfsRoot with
  | .error _ => return ()
  | .ok mntfromname =>
    match mntfromname.dropWhile (· ≠ '@') with
    | [] =>
      let dirfd ← sys .openRoot
      revertUpdate dirfd hash
    | _ :: deviceName =>
      let ret : ℤ ← sys (.mountReal deviceName)
      if ret ≠ 0 then return ()
      let dirfd ← sys .openReal
      revertUpdate dirfd hash
      perform_ .unmountReal

def cleanFakefs : Handling Unit := do
  let dirfd ← sys .openRoot
  perform_ (.fsSnapshotRevert dirfd "orig-fs".toList)
  perform_ (.close dirfd)

def setUnloadAndRemove (reply : Dict) (unloadCmdRet removeRet : ℤ) : Dict :=
  (reply.set "unload_cmd_ret" (.int64 unloadCmdRet)).set "remove_ret" (.int64 removeRet)

def revertRootful (reply : Dict) (pinfo : Paleinfo) : Handling (Dict × ℤ) := do
  let unloadCmdRet ← loadCmd "/Library/LaunchDaemons".toList
  let removeRet ← removeJailbreakFiles pinfo.flags
  if !pinfo.flags.has palerainOptionForceRevert then
    if pinfo.flags.has palerainOptionSsv then cleanFakefs else revertSnapshot
  return (setUnloadAndRemove reply unloadCmdRet removeRet, removeRet)

def revertRootless (reply : Dict) (pinfo : Paleinfo) : Handling (Dict × ℤ) := do
  let unloadCmdRet ← loadCmd "/var/jb/Library/LaunchDaemons".toList
  let removeRet ← removeJailbreakFiles pinfo.flags
  return (setUnloadAndRemove reply unloadCmdRet removeRet, removeRet)

def revert (reply : Dict) (pinfo : Paleinfo) : Handling (Dict × ℤ) :=
  if pinfo.flags.has palerainOptionRootful then revertRootful reply pinfo
  else revertRootless reply pinfo

/-- What the reply says of the removal. -/
def setOutcome (reply : Dict) (pinfo : Paleinfo) (removeRet : ℤ) : Dict :=
  if removeRet ≠ 0 then
    setDescription reply "remove_jailbreak_files returned non-zero code".toList
  else if pinfo.flags.has palerainOptionRootful then
    reply.set "message" (.string "Success. Now rebooting.".toList)
  else reply.set "message" (.string "Success".toList)

def rbAutoboot : BitVec 64 := 0

def obliterate (request reply : Dict) (pinfo : Paleinfo) : Handling Dict := do
  if pinfo.flags.has palerainOptionRootful && pinfo.flags.has palerainOptionSsv &&
      !request.getBool "keep-fakefs" then
    return setError (setDescription reply
      "oblierating jailbreak while booted is not supported on rootful fakefs".toList) enotsup
  let (reply, removeRet) ← revert reply pinfo
  match ← reloadLaunchdEnv with
  | .error fault => throw fault
  | .ok () =>
    if pinfo.flags.has palerainOptionRootful then perform_ (.reboot3 rbAutoboot none)
    return setOutcome reply pinfo removeRet

/-! ## Rebooting -/

def csPlatformBinary : BitVec 32 := 0x04000000

def rb2Userreboot : BitVec 64 := 0x2000000000000000

def ithinkPurpose : BitVec 64 := 0x0100000000000000

def userspaceRebootEntitlement : String := "com.apple.private.xpc.launchd.userspace-reboot"

/-- The first checks of a reboot, of the peer; the exits of all checks are the reply with an
error. -/
def checkPlatform (peer : Peer) (reply : Dict) : Except Dict Unit :=
  if peer.pid = -1 then .error (setError reply peer.pidErrno)
  else
    match peer.csops with
    | .error code => .error (setError reply code)
    | .ok status =>
      if status &&& csPlatformBinary = 0 then .error (setError reply enotplatform) else .ok ()

/-- The entitlement for a userspace reboot may have any boolean value. -/
def checkRebootEntitlement (peer : Peer) (reply : Dict) (howto : BitVec 64) : Except Dict Unit :=
  if howto &&& rb2Userreboot ≠ 0 then
    match peer.entitlements.getValue userspaceRebootEntitlement with
    | some (.bool _) => .ok ()
    | _ => .error (setError reply enoentitlement)
  else .ok ()

def rebootPurpose (request reply : Dict) (howto : BitVec 64) :
    Except Dict (Option (BitVec 32)) :=
  if howto &&& ithinkPurpose ≠ 0 then
    match request.getValue "purpose" with
    | none => .error (setDescription (setError reply einval)
      "reboot flags included the purpose flag, but no purpose supplied in request".toList)
    | some xpcPurpose => .ok (some (xpcPurpose.uint64Value.setWidth 32))
  else .ok none

/-- `howto` and `purpose`, when all checks pass. -/
def checkReboot3 (peer : Peer) (request reply : Dict) :
    Except Dict (BitVec 64 × Option (BitVec 32)) := do
  checkPlatform peer reply
  match request.getValue "howto" with
  | none => .error (setDescription (setError reply einval) "howto not supplied".toList)
  | some xpcHowto =>
    let howto := xpcHowto.uint64Value
    checkRebootEntitlement peer reply howto
    let purpose ← rebootPurpose request reply howto
    return (howto, purpose)

def performReboot3 (peer : Peer) (request reply : Dict) : Handling Dict := do
  match checkReboot3 peer request reply with
  | .error reply => return reply
  | .ok (howto, purpose) =>
    perform_ .unmountDeveloper
    let ret : ℤ ← sys (.reboot3 howto purpose)
    return if ret ≠ 0 then setError reply ret else reply

/-! ## Overwriting a file -/

def overwriteAllowlist : List String :=
  ["/var/jb/etc/apt/sources.list.d", "/etc/apt/sources.list.d", "/.installed_",
    "/var/jb/.installed_"]

/-- The loop over the allowlist, which does not stop at a match. -/
def isAllowlisted (path : CStr) : List String → Bool → Handling Bool
  | [], found => return found
  | allowed :: rest, found => do
    let absolute ← sys (.realpath allowed.toList)
    isAllowlisted path rest (found || absolute.isPrefixOf path)

/-- `S_ISREG`. -/
def sIsreg (mode : ℕ) : Bool := mode / 4096 % 16 == 8

/-- An error reply whose code is `errno`. -/
def errnoReply (reply : Dict) (description : CStr) : Handling Dict := do
  let code ← sys .readErrno
  return setError (setDescription reply description) code

/-- The destination may be missing or a regular file; the result is an error reply or nothing. -/
def checkDestination (path : CStr) (reply : Dict) : Handling (Option Dict) := do
  match ← sys (.lstat path) with
  | .error errno =>
    if errno = enoent then return none
    else return some (setError (setDescription reply "failed to stat destination file".toList) errno)
  | .ok mode =>
    if sIsreg mode then return none
    else some <$> errnoReply reply "destination file exists and is not a regular file".toList

/-- The write. The descriptor is not closed when it fails. -/
def writeDestination (path : CStr) (mode : BitVec 64) (data : List UInt8) (reply : Dict) :
    Handling Dict := do
  match ← sys (.openWrite path mode) with
  | .error errno =>
    return setError (setDescription reply "failed to open destination file".toList) errno
  | .ok fd =>
    match ← sys (.write fd data) with
    | .error errno =>
      return setError (setDescription reply "Failed to write destination file".toList) errno
    | .ok didWrite =>
      perform_ (.close fd)
      return (reply.set "message" (.string "Success".toList)).set "bytes-written" (.int64 didWrite)

def overwriteFile (request reply : Dict) : Handling Dict := do
  let mode := match request.getValue "mode" with
    | some xpcMode => xpcMode.uint64Value
    | none => 0o644
  match request.getString "path" with
  | none => return setError (setDescription reply "Missing file path".toList) einval
  | some path =>
    if path.head? ≠ some '/' then
      return setError (setDescription reply
        "supplied destination path is not an absolute path".toList) einval
    let path ← sys (.realpath path)
    if !(← isAllowlisted path overwriteAllowlist false) then
      return setError (setDescription reply "requested file not in allowlist".toList) eperm
    match request.getData "data" with
    | none => return setError (setDescription reply "Missing file data".toList) einval
    | some data =>
      match ← checkDestination path reply with
      | some reply => return reply
      | none => writeDestination path mode data reply

/-! ## Running a command -/

/-- A use of a variable, which has been set or not. -/
def useOf (set : Bool) : Handling Unit :=
  if set then return () else throw .uninitialized

/-- The end of `runcmd`, when the command is spawned. Neither the calls of `pthread_create` nor
`waitpid` are checked. -/
def awaitCommand (stdoutFd stderrFd : ℤ) (reply : Dict) : Handling Dict := do
  let stdoutThr ← sys (.pthreadCreate .stdoutThr stdoutFd)
  let stderrThr ← sys (.pthreadCreate .stderrThr stderrFd)
  perform_ (.kill .command .sigcont)
  let status ← sys (.waitpid .command)
  useOf (ok stdoutThr)
  perform_ (.pthreadCancel .stdoutThr)
  useOf (ok stderrThr)
  perform_ (.pthreadCancel .stderrThr)
  perform_ (.close stdoutFd)
  perform_ (.close stderrFd)
  perform_ (.pthreadJoin .stdoutThr)
  perform_ (.pthreadJoin .stderrThr)
  match status with
  | .ok status => return reply.set "status" (.int64 status)
  | .error _ => throw .uninitialized

/-- The descriptors of a pipe that could not be made are used all the same. -/
def runcmd (request reply : Dict) : Handling Dict := do
  match request.getString "path" with
  | none => return setError reply einval
  | some path =>
    let pipeStdout ← sys (.pipe .pipeStdout)
    let pipeStderr ← sys (.pipe .pipeStderr)
    match pipeStdout, pipeStderr with
    | .ok pipeStdout, .ok pipeStderr =>
      let retval : ℤ ← sys (.spawnCommand path (request.getArray "argv") (request.getArray "envp"))
      perform_ (.close pipeStdout.2)
      perform_ (.close pipeStderr.2)
      let reply := reply.set "retval" (.int64 retval)
      if retval ≠ 0 then
        perform_ (.close pipeStdout.1)
        perform_ (.close pipeStderr.1)
        return reply
      else awaitCommand pipeStdout.1 pipeStderr.1 reply
    | _, _ => throw .uninitialized

/-! ## Worlds that do not notice an operation -/

section

variable {S : Type} {step : S → Event Answer → S → Prop}

theorem quiet_perform_ {c : Call} (h : Quiet step (sys c : Handling (Answer c))) :
    Quiet step (perform_ c) :=
  .bind h fun _ => .pure ()

theorem quiet_bootstrapError (hreadErrno : Quiet step (sys .readErrno : Handling _)) (reply : Dict)
    (failure : Failure) : Quiet step (bootstrapError reply failure) := by
  unfold bootstrapError
  cases failure.code with
  | val _ => exact .pure _
  | errno => exact .bind hreadErrno fun _ => .pure _

/-- The calls of `revert_snapshot` and `clean_fakefs`. -/
def isRevertCall : Call → Bool
  | .getBmhash | .statfsRoot | .mountReal _ | .openRoot | .openReal | .fsSnapshotRename _ _ _
  | .fsSnapshotRevert _ _ | .close _ | .unmountReal => true
  | _ => false

theorem quiet_revertUpdate (h : Ignores step isRevertCall) (dirfd : ℤ) (hash : BmHash) :
    Quiet step (revertUpdate dirfd hash) :=
  .bind (quiet_perform_ (h.quiet rfl)) fun _ => .bind (quiet_perform_ (h.quiet rfl)) fun _ =>
    quiet_perform_ (h.quiet rfl)

theorem quiet_revertSnapshot (h : Ignores step isRevertCall) : Quiet step revertSnapshot := by
  unfold revertSnapshot
  refine .bind (h.quiet rfl) fun ⟨hash, success⟩ => .ite (.pure _) ?_
  refine .bind (h.quiet rfl) fun r => ?_
  cases r with
  | error _ => exact .pure _
  | ok mntfromname =>
    dsimp only
    cases mntfromname.dropWhile (· ≠ '@') with
    | nil => exact .bind (h.quiet rfl) fun _ => quiet_revertUpdate h _ _
    | cons _ deviceName =>
      refine .bind (h.quiet rfl) fun ret => .ite (.pure _) (.bind (h.quiet rfl) fun _ => ?_)
      exact .bind (quiet_revertUpdate h _ _) fun _ => quiet_perform_ (h.quiet rfl)

theorem quiet_cleanFakefs (h : Ignores step isRevertCall) : Quiet step cleanFakefs :=
  .bind (h.quiet rfl) fun _ => .bind (quiet_perform_ (h.quiet rfl)) fun _ =>
    quiet_perform_ (h.quiet rfl)

variable (hremovefile : ∀ path, Quiet step (sys (.removefile path) : Handling _))
include hremovefile

theorem quiet_removeJbPaths (prebootPath : CStr) (names : List CStr) :
    Quiet step (removeJbPaths prebootPath names) := by
  induction names with
  | nil => exact .bind (quiet_perform_ (hremovefile _)) fun _ => .pure _
  | cons name names ih =>
    exact .ite ih (.ite (.pure _) (.bind (quiet_perform_ (hremovefile _)) fun _ => ih))

theorem quiet_removeJailbreakFiles (hgetBmhash : Quiet step (sys .getBmhash : Handling _))
    (hreadDirectory : ∀ path, Quiet step (sys (.readDirectory path) : Handling _))
    (flags : Flags) : Quiet step (removeJailbreakFiles flags) := by
  unfold removeJailbreakFiles
  refine .ite (.bind (quiet_perform_ (hremovefile _)) fun _ =>
    .bind (quiet_perform_ (hremovefile _)) fun _ => .pure _) ?_
  refine .bind hgetBmhash fun ⟨bmhash, success⟩ => .ite (.pure _) ?_
  refine .bind (hreadDirectory _) fun r => ?_
  cases r with
  | error _ => exact .pure _
  | ok names => exact quiet_removeJbPaths hremovefile _ names

end

end Jbinit.Palera1nd

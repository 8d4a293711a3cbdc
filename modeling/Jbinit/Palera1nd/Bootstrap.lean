import Jbinit.Palera1nd.PrebootPath

/-!
# Deploying a bootstrap

`bootstrap()` of `jailbreakd/bootstrap.c`, in the order of the source: the checks of the request,
the volume, the jailbreak directory, the extraction by `zstd` and `tar`, the moves into place,
`prep_bootstrap.sh`, the two runs of `pw`, and the last steps. `tarPath` is `/` when
`palerain_option_rootful` is set, and otherwise the directory that `mkdtemp` made; the later steps
look at `palerain_option_rootless` instead.

Each failure exit has its own cleanup, which are the macros of the source. The guard of
`REMOVE_TPATH` has an empty body, so that the removal after it is not guarded.
-/

namespace Jbinit.Palera1nd

open Foundations Calls

structure BootstrapRequest where
  password : Option CStr
  path : Option CStr
  bootstrapperName : Option CStr
  bootstrapperVersion : Option CStr
  noPassword : Bool
  deriving DecidableEq

/-- The fields of the reply on success. -/
structure BootstrapReply where
  bootstrapRootPath : CStr
  message : CStr
  deriving DecidableEq

/-- `%d` of a number that is not negative. -/
def showNat (n : ℕ) : CStr := Nat.toDigits 10 n

/-- `BOOTSTRAP_ASSURE`. -/
def assure (cond : Bool) (code : ErrorCode) (description : CStr) : Daemon Unit :=
  if cond then return () else throw ⟨code, description⟩

/-- `BOOTSTRAP_ASSURE_CLEANUP`. -/
def assureCleanup (cond : Bool) (cleanup : Daemon Unit) (code : ErrorCode) (description : CStr) :
    Daemon Unit :=
  if cond then return ()
  else do
    cleanup
    throw ⟨code, description⟩

/-- A call whose outcome is not looked at. -/
def run (c : Call) : Daemon Unit := do
  let _ ← sys c
  return ()

/-- `ret == 0 || errno == e`. -/
def okOr (ret : Except Errno Unit) (e : Errno) : Bool :=
  match ret with
  | .ok _ => true
  | .error errno => errno == e

def closePair (fds : ℤ × ℤ) : Daemon Unit := do
  run (.close fds.1)
  run (.close fds.2)

/-! ## Cleanups -/

/-- `REMOVE_TPATH`. The `if` in front of the removal ends in a semicolon. -/
def removeTpath (tarPath : CStr) : Daemon Unit := do
  run (.unlink tarPath)
  run (.rmdir tarPath)
  run (.removefile tarPath)

/-- `RM_STRAP`. -/
def rmStrap (tarPath : CStr) : Daemon Unit := do
  removeTpath tarPath
  run (.unlink varJb)

/-! ## Before the extraction -/

def checkNotBootstrapped (flags : Flags) : Daemon Unit := do
  if flags.has palerainOptionRootful then
    let strapped ← sys (.access "/.procursus_strapped".toList .fOk)
    assure (!ok strapped) (.val eexist) "Already Bootstrapped".toList
    match ← sys .statfsRoot with
    | .error _ => throw ⟨.errno, "statfs(/) failed".toList⟩
    | .ok mntfromname =>
      assure (!decide ("@/dev".toList <:+: mntfromname)) (.val enotsup)
        ("cannot bootstrap since we rooted from snapshot ".toList ++ mntfromname)
  else
    match ← jailbreakGetPrebootPath with
    | .ok _ => throw ⟨.val eexist, "Already Bootstrappped".toList⟩
    | .error e => assure (e == enoent) (.val e) "failed to check for existing strap".toList

/-- The checks of the request; the result is the path of the bootstrap file. -/
def checkRequest (request : BootstrapRequest) : Daemon CStr := do
  match request.path with
  | none => throw ⟨.val einval, "Missing bootstrap path".toList⟩
  | some path =>
    assure (request.password.isSome || request.noPassword) (.val einval)
      "Missing password and no-password is not specified".toList
    assure (path.head? == some '/') (.val einval) "path is not an absolute path".toList
    let st ← sys (.stat path)
    assure (ok st) .errno "could not access bootstrap file".toList
    return path

def remount (flags : Flags) : Daemon Unit := do
  if flags.has palerainOptionRootful then
    let ret ← sys .remountRootfs
    assure (ok ret) .errno "remount failed".toList
  else
    let ret ← sys .remountPreboot
    assure (ok ret) .errno "remount failed".toList

def renameSnapshot : Daemon Unit := do
  let (hash, read) ← sys .getBmhash
  assure read .errno "could not get boot-manifest-hash".toList
  let dirfd ← sys .openRoot
  let ret ← sys (.fsSnapshotRename dirfd
    (CStr.snprintf 150 ("com.apple.os.update-".toList ++ hash.chars)) "orig-fs".toList)
  assure (okOr ret enoent) .errno "fs_snapshot_rename failed".toList
  run (.close dirfd)

def prepareVolume (flags : Flags) : Daemon Unit := do
  let name ← sys .uname
  assure (ok name) .errno "uname failed".toList
  remount flags
  if !flags.has palerainOptionSsv then renameSnapshot

/-- `/var/jb` has to be absent or a link. -/
def checkVarJb : Daemon Unit := do
  match ← sys (.lstat varJb) with
  | .error e => assure (e == enoent) .errno "lstat /var/jb failed".toList
  | .ok mode =>
    assure (sIslnk mode) (.val (-1))
      ("/var/jb is exists not a link after cleaning up bogus directories. Mode: 0x".toList ++
        Nat.toDigits 16 mode)

def clearVarJb : Daemon Unit := do
  let _ ← removeBogusVarJb
  checkVarJb
  let ret ← sys (.unlink varJb)
  assure (okOr ret enoent) .errno "failed to remove /var/jb".toList

/-- The directory to extract into, which is `tarPath`. -/
def makeTarPath (flags : Flags) : Daemon CStr := do
  if flags.has palerainOptionRootful then return ['/']
  else
    let (bmhash, read) ← sys .getBmhash
    assure read .errno "could not get boot-manifest-hash".toList
    let template := CStr.snprintf 150
      ("/private/preboot/".toList ++ bmhash.chars ++ "/jb-XXXXXXXX".toList)
    match ← sys (.mkdtemp template) with
    | .error _ => throw ⟨.errno, "failed to create jailbreak directory".toList⟩
    | .ok suffix =>
      let prebootPath := fillTemplate template suffix
      let ret ← sys (.chmod prebootPath)
      assure (ok ret) .errno "failed to chmod jailbreak directory".toList
      clearVarJb
      return CStr.snprintf 150 prebootPath

/-! ## The extraction -/

/-- The pipes of the extraction. -/
structure TarPipes where
  stream : ℤ × ℤ
  tarStderr : ℤ × ℤ
  zstdStderr : ℤ × ℤ

/-- `SMFD_CLOSE`. -/
def smfdClose (stream : ℤ × ℤ) : Daemon Unit := closePair stream

/-- `TSDE_CLOSE`. It closes a descriptor of the stream pipe in the place of its own second one. -/
def tsdeClose (stream : ℤ × ℤ) (tarStderr : ℤ) : Daemon Unit := do
  run (.close tarStderr)
  run (.close stream.2)

/-- `ZSDE_CLOSE`. It closes the stream pipe. -/
def zsdeClose (stream : ℤ × ℤ) : Daemon Unit := closePair stream

def killTarZstd : Daemon Unit := do
  run (.kill .tar .sigkill)
  run (.kill .zstd .sigkill)

def joinTarZstd (fds : TarPipes) : Daemon Unit := do
  run (.pthreadCancel .zstdLog)
  run (.pthreadCancel .tarLog)
  run (.close fds.tarStderr.1)
  run (.close fds.zstdStderr.1)
  run (.pthreadJoin .zstdLog)
  run (.pthreadJoin .tarLog)

def openTarPipes : Daemon TarPipes := do
  match ← sys (.pipe .stream) with
  | .error _ => throw ⟨.errno, "pipe zstd -> tar failed".toList⟩
  | .ok stream =>
    match ← sys (.pipe .tarStderr) with
    | .error _ =>
      smfdClose stream
      throw ⟨.errno, "pipe tar -> jailbreakd failed".toList⟩
    | .ok tarStderr =>
      match ← sys (.pipe .zstdStderr) with
      | .error _ =>
        smfdClose stream
        tsdeClose stream tarStderr.1
        throw ⟨.errno, "pipe zstd -> jailbreakd failed".toList⟩
      | .ok zstdStderr => return ⟨stream, tarStderr, zstdStderr⟩

def closeTarPipes (fds : TarPipes) : Daemon Unit := do
  smfdClose fds.stream
  tsdeClose fds.stream fds.tarStderr.1
  zsdeClose fds.stream

/-- `ret` of a call that returns its error. -/
def retOf (r : Except Errno Unit) : ErrorCode :=
  match r with
  | .ok _ => .val 0
  | .error e => .val e

/-- Both processes are spawned suspended. -/
def spawnTarZstd (fds : TarPipes) (tarPath path : CStr) : Daemon Unit := do
  let ret ← sys (.spawn .tar ["/cores/binpack/usr/bin/tar".toList, "-C".toList, tarPath,
    "--preserve-permissions".toList, "-x".toList])
  assureCleanup (ok ret) (closeTarPipes fds) (retOf ret)
    "spawn /cores/binpack/usr/bin/tar failed".toList
  let ret ← sys (.spawn .zstd ["/cores/binpack/usr/bin/zstd".toList, "-dcT0".toList, path])
  assureCleanup (ok ret) (do closeTarPipes fds; run (.kill .tar .sigkill)) (retOf ret)
    "spawn /cores/binpack/usr/bin/zstd failed".toList
  smfdClose fds.stream
  run (.close fds.tarStderr.2)
  run (.close fds.zstdStderr.2)

/-- The wait statuses of `zstd` and `tar`. -/
def runTarZstd (fds : TarPipes) : Daemon (ℕ × ℕ) := do
  let ret ← sys (.pthreadCreate .zstdLog fds.zstdStderr.1)
  assureCleanup (ok ret) killTarZstd (retOf ret) "failed to create zstd log-reading thread".toList
  let ret ← sys (.pthreadCreate .tarLog fds.tarStderr.1)
  assureCleanup (ok ret) killTarZstd (retOf ret) "failed to create tar log-reading thread".toList
  let ret ← sys (.kill .tar .sigcont)
  assureCleanup (ok ret) killTarZstd .errno "failed to start tar".toList
  let ret ← sys (.kill .zstd .sigcont)
  assureCleanup (ok ret) killTarZstd .errno "failed to start zstd".toList
  match ← sys (.waitpid .zstd) with
  | .error _ =>
    joinTarZstd fds
    throw ⟨.errno, "failed to waitpid zstd".toList⟩
  | .ok statZstd =>
    match ← sys (.waitpid .tar) with
    | .error _ =>
      joinTarZstd fds
      throw ⟨.errno, "failed to waitpid tar".toList⟩
    | .ok statTar =>
      joinTarZstd fds
      return (statZstd, statTar)

def checkTarZstd (tarPath : CStr) (statZstd statTar : ℕ) : Daemon Unit := do
  assureCleanup (!(wifexited statZstd && wexitstatus statZstd != 0)) (removeTpath tarPath)
    (.val (-1)) ("zstd exited with status ".toList ++ showNat (wexitstatus statZstd))
  assureCleanup (!wifsignaled statZstd) (removeTpath tarPath)
    (.val (-1)) ("zstd is terminated by signal ".toList ++ showNat (wexitstatus statZstd))
  assureCleanup (!(wifexited statTar && wexitstatus statTar != 0)) (removeTpath tarPath)
    (.val (-1)) ("tar exited with status ".toList ++ showNat (wexitstatus statTar))
  assureCleanup (!wifsignaled statTar) (removeTpath tarPath)
    (.val (-1)) ("tar is terminated by signal ".toList ++ showNat (wexitstatus statTar))

def extract (tarPath path : CStr) : Daemon Unit := do
  let fds ← openTarPipes
  spawnTarZstd fds tarPath path
  let (statZstd, statTar) ← runTarZstd fds
  checkTarZstd tarPath statZstd statTar

/-! ## After the extraction -/

/-- `COPYFILE_WITH_CHECK`. -/
def copyfileWithCheck (tarPath src dst : CStr) : Daemon Unit := do
  let ret ← sys (.copyfile src dst)
  assureCleanup (ok ret) (rmStrap tarPath) .errno
    ("failed to copy ".toList ++ src ++ " to ".toList ++ dst)

def bootstrapExtractedPath (tarPath : CStr) : CStr := CStr.snprintf 150 (tarPath ++ "/var/jb".toList)

def finalBootstrapPath (tarPath : CStr) : CStr := CStr.snprintf 150 (tarPath ++ "/procursus".toList)

def extrationVarPath (tarPath : CStr) : CStr := CStr.snprintf 150 (tarPath ++ "/var".toList)

/-- What is left of the extracted `/var`. -/
def removeExtrationVar (tarPath : CStr) : Daemon Unit := do
  if "/jb-".toList <:+: tarPath then run (.rmdir (extrationVarPath tarPath))

/-- The moves of a rootless bootstrap. -/
def moveIntoPlace (flags : Flags) (tarPath : CStr) : Daemon Unit := do
  if flags.has palerainOptionRootless then
    let ret ← sys (.access (bootstrapExtractedPath tarPath) .wOk)
    assureCleanup (ok ret) (removeTpath tarPath) .errno
      ("failed to access path ".toList ++ bootstrapExtractedPath tarPath)
    let ret ← sys (.rename (bootstrapExtractedPath tarPath) (finalBootstrapPath tarPath))
    removeExtrationVar tarPath
    assureCleanup (ok ret) (removeTpath tarPath) .errno
      ("rename ".toList ++ bootstrapExtractedPath tarPath ++ " -> ".toList ++
        finalBootstrapPath tarPath ++ " failed".toList)
    let ret ← sys (.symlink (finalBootstrapPath tarPath) varJb)
    assureCleanup (ok ret) (removeTpath tarPath) .errno
      ("symlink /var/jb -> ".toList ++ finalBootstrapPath tarPath ++ " failed".toList)
    copyfileWithCheck tarPath "/etc/passwd".toList "/var/jb/etc/passwd".toList
    copyfileWithCheck tarPath "/etc/master.passwd".toList "/var/jb/etc/master.passwd".toList
    copyfileWithCheck tarPath "/etc/group".toList "/var/jb/etc/group".toList

/-- A path below `/var/jb` if rootless, else below `/`. -/
def underJb (flags : Flags) (path : CStr) : CStr :=
  if flags.has palerainOptionRootless then varJb ++ path else path

/-- `CL_PSTRAP_FD`. -/
def clPstrapFd (stdErr stdOut : ℤ × ℤ) : Daemon Unit := do
  closePair stdErr
  closePair stdOut

/-- `PSTRAP_END_C`. -/
def pstrapEndC (stdErr stdOut : ℤ × ℤ) : Daemon Unit := do
  run (.pthreadCancel .prepBootstrapStdErrLog)
  run (.pthreadCancel .prepBootstrapStdOutLog)
  run (.close stdOut.1)
  run (.close stdErr.1)
  run (.pthreadJoin .prepBootstrapStdErrLog)
  run (.pthreadJoin .prepBootstrapStdOutLog)

def openPrepPipes (tarPath : CStr) : Daemon ((ℤ × ℤ) × (ℤ × ℤ)) := do
  match ← sys (.pipe .prepBootstrapStdErr) with
  | .error _ =>
    rmStrap tarPath
    throw ⟨.errno, "pipe prep_bootstrap stderr failed".toList⟩
  | .ok stdErr =>
    match ← sys (.pipe .prepBootstrapStdOut) with
    | .error _ =>
      closePair stdErr
      rmStrap tarPath
      throw ⟨.errno, "pipe prep_bootstrap stderr failed".toList⟩
    | .ok stdOut => return (stdErr, stdOut)

/-- The thread of each stream is given the descriptor of the other. `ret` is not assigned by the
calls of `pthread_create`: it is 0 from the last successful step. -/
def createPrepThreads (tarPath : CStr) (stdErr stdOut : ℤ × ℤ) : Daemon Unit := do
  let r ← sys (.pthreadCreate .prepBootstrapStdErrLog stdOut.1)
  assureCleanup (ok r) (do clPstrapFd stdErr stdOut; rmStrap tarPath) (.val 0)
    "failed to create prep_bootstrap stderr-reading thread".toList
  let r ← sys (.pthreadCreate .prepBootstrapStdOutLog stdErr.1)
  assureCleanup (ok r) (do clPstrapFd stdErr stdOut; rmStrap tarPath) (.val 0)
    "failed to create prep_bootstrap stdout-reading thread".toList

/-- The wait status of `prep_bootstrap.sh`. -/
def runPrepBootstrap (flags : Flags) (tarPath : CStr) (stdErr stdOut : ℤ × ℤ) : Daemon ℕ := do
  let ret ← sys (.spawn .prepBootstrap
    [underJb flags "/bin/sh".toList, underJb flags "/prep_bootstrap.sh".toList])
  run (.close stdOut.2)
  run (.close stdErr.2)
  assureCleanup (ok ret) (do pstrapEndC stdErr stdOut; rmStrap tarPath) (retOf ret)
    "failed to spawn prep_bootstrap.sh".toList
  match ← sys (.waitpid .prepBootstrap) with
  | .error _ =>
    pstrapEndC stdErr stdOut
    rmStrap tarPath
    throw ⟨.val (-1), "failed to waitpid prep_bootstrap.sh".toList⟩
  | .ok status =>
    pstrapEndC stdErr stdOut
    return status

def prepBootstrap (flags : Flags) (tarPath : CStr) : Daemon Unit := do
  let ret ← sys (.access (underJb flags "/prep_bootstrap.sh".toList) .xOk)
  assureCleanup (ok ret) (rmStrap tarPath) .errno
    ("failed to access path ".toList ++ underJb flags "/prep_bootstrap.sh".toList)
  let (stdErr, stdOut) ← openPrepPipes tarPath
  createPrepThreads tarPath stdErr stdOut
  let status ← runPrepBootstrap flags tarPath stdErr stdOut
  assureCleanup (!(wifexited status && wexitstatus status != 0)) (rmStrap tarPath) (.val (-1))
    ("prep_bootstrap exited with status ".toList ++ showNat (wexitstatus status))
  assureCleanup (!wifsignaled status) (rmStrap tarPath) (.val (-1))
    ("prep_bootstrap is terminated by signal ".toList ++ showNat (wtermsig status))

/-! ## Setting the passwords -/

structure PwPipes where
  stdin : ℤ × ℤ
  stdout : ℤ × ℤ
  stderr : ℤ × ℤ

/-- `CL_PW_INFD`. -/
def clPwInfd (stdin : ℤ × ℤ) : Daemon Unit := closePair stdin

/-- `CL_PW_OUTFD` and `CL_PW_ERRFD`, which close `pw_pipe[1]` with the first descriptor of their
pipe. -/
def clPwOutfd (stdin fds : ℤ × ℤ) : Daemon Unit := do
  run (.close fds.1)
  run (.close stdin.2)

def clPwfds (fds : PwPipes) : Daemon Unit := do
  clPwInfd fds.stdin
  clPwOutfd fds.stdin fds.stdout
  clPwOutfd fds.stdin fds.stderr

/-- `PW_CLEAN`. -/
def pwClean (fds : PwPipes) : Daemon Unit := do
  run (.pthreadCancel .pwStderr)
  run (.pthreadCancel .pwStdout)
  run (.close fds.stderr.1)
  run (.close fds.stdout.1)
  run (.pthreadJoin .pwStdout)
  run (.pthreadJoin .pwStderr)

def openPwPipes (tarPath : CStr) : Daemon PwPipes := do
  match ← sys (.pipe .pwStdin) with
  | .error _ =>
    rmStrap tarPath
    throw ⟨.errno, "pipe pw stdin failed".toList⟩
  | .ok stdin =>
    match ← sys (.pipe .pwStdout) with
    | .error _ =>
      rmStrap tarPath
      clPwInfd stdin
      throw ⟨.errno, "pipe pw stdout failed".toList⟩
    | .ok stdout =>
      match ← sys (.pipe .pwStderr) with
      | .error _ =>
        rmStrap tarPath
        clPwInfd stdin
        clPwOutfd stdin stdout
        throw ⟨.errno, "pipe pw stderr failed".toList⟩
      | .ok stderr => return ⟨stdin, stdout, stderr⟩

def createPwThreads (tarPath : CStr) (fds : PwPipes) : Daemon Unit := do
  let ret ← sys (.pthreadCreate .pwStderr fds.stderr.1)
  assureCleanup (ok ret) (do clPwfds fds; rmStrap tarPath) (retOf ret)
    "failed to create pw stderr-reading thread".toList
  let ret ← sys (.pthreadCreate .pwStdout fds.stdout.1)
  assureCleanup (ok ret)
    (do run (.pthreadCancel .pwStderr); clPwfds fds; rmStrap tarPath; run (.pthreadJoin .pwStderr))
    (retOf ret) "failed to create pw stderr-reading thread".toList

def pwPath (flags : Flags) : CStr := underJb flags "/usr/sbin/pw".toList

/-- The exit when `pw` cannot be executed. It is the only one after the extraction that does not
remove the bootstrap. -/
def checkPwPath (flags : Flags) (fds : PwPipes) : Daemon Unit := do
  let ret ← sys (.access (pwPath flags) .xOk)
  assureCleanup (ok ret)
    (do
      run (.pthreadCancel .pwStderr)
      run (.pthreadCancel .pwStdout)
      clPwfds fds
      run (.pthreadJoin .pwStderr)
      run (.pthreadJoin .pwStdout))
    .errno ("failed to access ".toList ++ pwPath flags)

/-- The wait status of `pw`. -/
def runPw (flags : Flags) (tarPath : CStr) (fds : PwPipes) (input arg3 arg4 : CStr) : Daemon ℕ := do
  let ret ← sys (.spawn .pw
    [pwPath flags, "pw".toList, "usermod".toList, arg3, arg4, "0".toList])
  run (.close fds.stdin.1)
  run (.close fds.stderr.2)
  run (.close fds.stdout.2)
  assureCleanup (ok ret) (do run (.close fds.stdin.2); pwClean fds; rmStrap tarPath) (retOf ret)
    "failed to spawn pw".toList
  run (.dprintf fds.stdin.2 (input ++ ['\n']))
  run (.close fds.stdin.2)
  match ← sys (.waitpid .pw) with
  | .error _ =>
    pwClean fds
    rmStrap tarPath
    throw ⟨.val (-1), "failed to waitpid pw".toList⟩
  | .ok status =>
    pwClean fds
    return status

/-- `SPAWN_PW`. -/
def spawnPw (flags : Flags) (tarPath input arg3 arg4 : CStr) : Daemon Unit := do
  let fds ← openPwPipes tarPath
  createPwThreads tarPath fds
  checkPwPath flags fds
  let status ← runPw flags tarPath fds input arg3 arg4
  assureCleanup (!(wifexited status && wexitstatus status != 0 && wexitstatus status != 67))
    (rmStrap tarPath) (.val (-1)) ("pw exited with status ".toList ++ showNat (wexitstatus status))
  assureCleanup (!wifsignaled status) (rmStrap tarPath) (.val (-1))
    ("pw is terminated by signal ".toList ++ showNat (wtermsig status))

/-! ## The end -/

def markInstalled (flags : Flags) (tarPath : CStr) (request : BootstrapRequest) : Daemon Unit := do
  let installedFile := underJb flags "/.installed_palera1n".toList
  match ← sys (.openCreate installedFile) with
  | .error _ =>
    rmStrap tarPath
    throw ⟨.errno, "failed to open ".toList ++ installedFile ++ " file".toList⟩
  | .ok fd =>
    run (.lseekEnd fd)
    run (.dprintf fd ("Bootstrapper-Name=".toList ++
      request.bootstrapperName.getD "Unknown".toList ++ ['\n']))
    run (.dprintf fd ("Bootstrapper-Version=".toList ++
      request.bootstrapperVersion.getD "Unknown".toList ++ ['\n']))
    run (.close fd)

/-- A fault is not one of the failures of `bootstrap()`: nothing is cleaned up after it. -/
def bootstrapDaemons (launchPath : CStr) : Daemon (Except Fault Unit) := do
  match ← reloadLaunchdEnv with
  | .error fault => return .error fault
  | .ok () =>
    run (.bootstrapCmd launchPath)
    return .ok ()

theorem quiet_bootstrapDaemons {S : Type} {step : S → Event Answer → S → Prop}
    (hsend : ∀ message, Quiet step (sys (.sendLaunchdMessage message) : Daemon _))
    (hcmd : ∀ path, Quiet step (sys (.bootstrapCmd path) : Daemon _)) (launchPath : CStr) :
    Quiet step (bootstrapDaemons launchPath) := by
  unfold bootstrapDaemons
  refine .bind (quiet_reloadLaunchdEnv hsend) fun r => ?_
  cases r with
  | error _ => exact .pure _
  | ok _ => exact .bind (.bind (hcmd _) fun _ => .pure _) fun _ => .pure _

def loadDaemons (flags : Flags) (tarPath : CStr) : Daemon (Except Fault Unit) := do
  let launchPath := underJb flags "/Library/LaunchDaemons".toList
  let ret ← sys (.access launchPath .fOk)
  assureCleanup (ok ret) (rmStrap tarPath) .errno
    ("failed to find launch daemons path ".toList ++ launchPath)
  bootstrapDaemons launchPath

def setPasswords (flags : Flags) (tarPath : CStr) (request : BootstrapRequest) : Daemon Unit := do
  if request.noPassword then
    spawnPw flags tarPath ['!'] "501".toList "-H".toList
  else
    spawnPw flags tarPath (request.password.getD []) "501".toList "-h".toList
  spawnPw flags tarPath ['!'] "0".toList "-H".toList

/-- The steps from the extraction on. -/
def deploy (flags : Flags) (request : BootstrapRequest) (tarPath path : CStr) :
    Daemon (Except Fault BootstrapReply) := do
  extract tarPath path
  moveIntoPlace flags tarPath
  prepBootstrap flags tarPath
  setPasswords flags tarPath request
  markInstalled flags tarPath request
  match ← loadDaemons flags tarPath with
  | .error fault => return .error fault
  | .ok () =>
    if flags.has palerainOptionRootless then
      return .ok ⟨finalBootstrapPath tarPath, "Success".toList⟩
    else return .ok ⟨['/'], "Success".toList⟩

def bootstrap (flags : Flags) (request : BootstrapRequest) :
    Daemon (Except Fault BootstrapReply) := do
  assure (!flags.has palerainOptionForceRevert) (.val enotsup)
    "bootstrapping in force revert is not supported".toList
  checkNotBootstrapped flags
  let path ← checkRequest request
  prepareVolume flags
  let tarPath ← makeTarPath flags
  deploy flags request tarPath path

end Jbinit.Palera1nd

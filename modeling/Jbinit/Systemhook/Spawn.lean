import Jbinit.Systemhook.Envbuf
import Jbinit.Systemhook.PathString

/-!
# The spawn hook

`spawn_hook_common` of `common.c`, with `configForBinary`. It decides whether the new process gets
the jailbreak's environment, raises the jetsam limits if so, and hands the original `posix_spawn`
either the caller's environment or a rewritten copy of it.

What it learns from outside is a `Host`: `realpath`, the two uses of `access`, the version check
and whether `malloc` succeeds at a given size. A run ends in the call it makes to the original
`posix_spawn`, or in a `Stop`. The rewriting branch reads the caller's array only, so its calls to
`envbuf_setenv` and `envbuf_unsetenv` are the list of edits `rewriteEdits`, made in order on the
copy.
-/

namespace Jbinit.Systemhook

/-- The variables the hook reads or writes. -/
inductive EnvVar
  | dyldInsertLibraries
  | dyldLibraryPath
  | jbSandboxExtensions
  | jbRootPath
  | jbPinfoFlags
  | jbTweakLoaderPath
  | safeMode
  | msSafeMode
  deriving DecidableEq, Repr

def EnvVar.name : EnvVar → CStr
  | .dyldInsertLibraries => "DYLD_INSERT_LIBRARIES".toList
  | .dyldLibraryPath => "DYLD_LIBRARY_PATH".toList
  | .jbSandboxExtensions => "JB_SANDBOX_EXTENSIONS".toList
  | .jbRootPath => "JB_ROOT_PATH".toList
  | .jbPinfoFlags => "JB_PINFO_FLAGS".toList
  | .jbTweakLoaderPath => "JB_TWEAKLOADER_PATH".toList
  | .safeMode => "_SafeMode".toList
  | .msSafeMode => "_MSSafeMode".toList

/-- `HOOK_DYLIB_PATH`. -/
def hookDylibPath : CStr := "/cores/binpack/usr/lib/systemhook.dylib".toList

/-- `LIBROOT_DYLIB_DIRECTORY_PATH`. -/
def librootDylibDirectoryPath : CStr := "/cores/binpack/usr/lib/libroot".toList

/-- `JB_ENV_COUNT`. -/
def jbEnvCount : ℕ := 6

/-- `PATH_MAX`. -/
def pathMax : ℕ := 1024

/-- systemhook's strings, which its initializer copies from the variables of the same names. -/
structure Globals where
  jbSandboxExtensions : CStr
  jbRootPath : CStr
  jbPinfoFlags : CStr
  jbTweakLoaderPath : CStr
  deriving DecidableEq

/-- What the hook asks the system. -/
structure Host where
  /-- The buffer `realpath` leaves. -/
  realpath : CStr → CStr
  /-- `access(path, X_OK) == 0`. -/
  accessX : CStr → Bool
  /-- `access(path, F_OK) == 0`. -/
  accessF : CStr → Bool
  /-- The check for iOS 16 is available and succeeds. -/
  availableIos16 : Bool
  /-- `malloc` of this many bytes succeeds. -/
  malloc : ℕ → Bool

/-- The fields of a spawn attribute that the hook reads or writes. -/
structure SpawnAttr where
  proctype : Int
  memlimitActive : Int32
  memlimitInactive : Int32
  deriving DecidableEq

/-- The arguments of a spawn; `none` is NULL. An attribute object may itself be NULL. -/
structure SpawnArgs where
  path : Option CStr
  attrp : Option (Option SpawnAttr)
  argv : Option (List CStr)
  envp : Option (List CStr)
  deriving DecidableEq

/-! ## Which binaries are left alone -/

structure BinaryConfig where
  dontInject : Bool
  dontProcess : Bool
  deriving DecidableEq

def processBlacklist : List CStr :=
  ["/System/Library/Frameworks/GSS.framework/Helpers/GSSCred".toList,
    "/System/Library/PrivateFrameworks/IDSBlastDoorSupport.framework/XPCServices/".toList ++
      "IDSBlastDoorService.xpc/IDSBlastDoorService".toList,
    "/System/Library/PrivateFrameworks/MessagesBlastDoorSupport.framework/XPCServices/".toList ++
      "MessagesBlastDoorService.xpc/MessagesBlastDoorService".toList,
    "/System/Library/PrivateFrameworks/DataAccess.framework/Support/dataaccessd".toList,
    "/usr/sbin/wifid".toList]

/-- The services of `xpcproxy` that are never injected. -/
def crashServices : List CStr :=
  ["com.apple.ReportCrash".toList, "com.apple.ReportMemoryException".toList]

/-- The services of `xpcproxy` that are not injected from iOS 16 on. -/
def ios16Services : List CStr :=
  ["com.apple.logd".toList, "com.apple.notifyd".toList, "com.apple.mobile.usermanagerd".toList]

/-- The test on the service that `xpcproxy` is to run, its `argv[1]`. -/
def xpcproxyLeftAlone (h : Host) (argv : Option (List CStr)) : Bool :=
  match argv.bind (·[1]?) with
  | none => false
  | some service =>
    if crashServices.contains service then true
    else if ios16Services.contains service then h.availableIos16
    else if "com.apple.WebKit.WebContent".toList.isPrefixOf service then h.availableIos16
    else false

def configForBinary (h : Host) (path : CStr) (argv : Option (List CStr)) : BinaryConfig :=
  if path == "/usr/libexec/xpcproxy".toList && xpcproxyLeftAlone h argv then ⟨true, true⟩
  else if processBlacklist.contains path then ⟨true, true⟩
  else ⟨false, false⟩

/-- The macro `JB_ROOT_PATH`: `strlcpy` and `strlcat` into a buffer of `PATH_MAX` bytes. -/
def jbRootPathTo (g : Globals) (path : CStr) : CStr :=
  CStr.snprintf pathMax (CStr.snprintf pathMax g.jbRootPath ++ path)

def blacklistedPaths (g : Globals) : List CStr :=
  ["/private/etc/rc.d/libhooker".toList, "/private/etc/rc.d/substitute-launcher".toList,
    "/usr/libexec/ellekit/loader".toList, "/private/etc/rc.d/ellekit-loader".toList,
    jbRootPathTo g "/usr/libexec/ellekit/loader".toList,
    jbRootPathTo g "/etc/rc.d/ellekit-loader".toList, jbRootPathTo g "/etc/rc.d/libhooker".toList]

def truePath : CStr := "/cores/binpack/usr/bin/true".toList

/-- The blacklisted launchers that can be executed are replaced by `true`. -/
def redirectBlacklisted (h : Host) (g : Globals) (path : CStr) (argv : Option (List CStr)) :
    CStr × Option (List CStr) :=
  if (blacklistedPaths g).any (fun b => h.realpath b == h.realpath path) && h.accessX path then
    (truePath, some [truePath])
  else (path, argv)

/-! ## What the environment already holds -/

/-- The six items the hook looks for in the caller's environment. -/
structure JBEnv where
  existingLibraryInserts : Option CStr
  systemHookAlreadyInserted : Bool
  existingLibrarySearchPaths : Option CStr
  librootDirectoryPathAlreadySearched : Bool
  alreadyInsertedCount : ℕ
  deriving DecidableEq

/-- The four variables whose presence is counted. -/
def countedVars : List EnvVar := [.jbSandboxExtensions, .jbRootPath, .jbPinfoFlags, .jbTweakLoaderPath]

/-- The counting phase, from the result of each look-up. -/
def readJBEnvOf (value : EnvVar → Option CStr) : Except Stop JBEnv := do
  let inserts := value .dyldInsertLibraries
  let hookInserted ← alreadyListed inserts hookDylibPath
  let searchPaths := value .dyldLibraryPath
  let librootSearched ← alreadyListed searchPaths librootDylibDirectoryPath
  let present := countedVars.filter fun v => (value v).isSome
  return ⟨inserts, hookInserted, searchPaths, librootSearched,
    hookInserted.toNat + librootSearched.toNat + present.length⟩

def readJBEnv (envp : Option (List CStr)) : Except Stop JBEnv :=
  readJBEnvOf fun v => envbufGetenv envp v.name

structure Decision where
  shouldInsertJBEnv : Bool
  hasSafeModeVariable : Bool
  deriving DecidableEq

/-- `POSIX_SPAWN_PROC_TYPE_DRIVER`. -/
def procTypeDriver : Int := 0x700

/-- Whether the value of a variable asks for safe mode: it is `1`. -/
def asksSafeMode (value : Option CStr) : Bool := value == some ['1']

/-- The `do … while (0)` that looks for a reason not to insert; the first one found wins. -/
def decideInsertOf (h : Host) (path : CStr) (argv : Option (List CStr))
    (attrp : Option (Option SpawnAttr)) (value : EnvVar → Option CStr) : Decision :=
  if (configForBinary h path argv).dontInject then ⟨false, false⟩
  else if asksSafeMode (value .safeMode) then ⟨false, true⟩
  else if asksSafeMode (value .msSafeMode) then ⟨false, true⟩
  else if attrp.join.any fun attr => attr.proctype == procTypeDriver then ⟨false, false⟩
  else if !h.accessF hookDylibPath then ⟨false, false⟩
  else ⟨true, false⟩

def decideInsert (h : Host) (path : CStr) (argv : Option (List CStr))
    (attrp : Option (Option SpawnAttr)) (envp : Option (List CStr)) : Decision :=
  decideInsertOf h path argv attrp fun v => envbufGetenv envp v.name

/-- `JETSAM_MULTIPLIER`, without the address sanitizer. -/
def jetsamMultiplier : Int32 := 3

/-- A limit of `-1` is no limit. -/
def raiseLimit (limit : Int32) : Int32 := if limit != -1 then limit * jetsamMultiplier else limit

/-- The caller's attribute object is updated in place. -/
def raiseJetsam (attrp : Option (Option SpawnAttr)) : Option (Option SpawnAttr) :=
  attrp.map fun attr => attr.map fun a =>
    { a with memlimitActive := raiseLimit a.memlimitActive
             memlimitInactive := raiseLimit a.memlimitInactive }

/-! ## Rewriting the environment -/

/-- A call of `envbuf_setenv` or `envbuf_unsetenv` on the copy. -/
inductive EnvEdit
  | set (v : EnvVar) (value : CStr)
  | unset (v : EnvVar)
  deriving DecidableEq

def EnvEdit.apply (envc : Option (List CStr)) : EnvEdit → Option (List CStr)
  | .set v value => envbufSetenv envc v.name value
  | .unset v => envbufUnsetenv envc v.name

/-- The new value of a path variable that `path` is put in front of, built in an array of exactly
its size. -/
def prependPath (path : CStr) (existing : Option CStr) : Except Stop CStr :=
  match existing with
  | none => checked (CStr.strcpy (path.length + 1) path)
  | some paths => do
    let cap := path.length + (paths.length + 1) + 1
    let buf ← checked (CStr.strcpy cap path)
    let buf ← checked (CStr.strcat cap buf [':'])
    checked (CStr.strcat cap buf paths)

/-- The insertion of `path` into the variable `v`, unless it is there already. -/
def insertPath (v : EnvVar) (path : CStr) (existing : Option CStr) (already : Bool) :
    Except Stop (List EnvEdit) :=
  if already then return []
  else do
    let value ← prependPath path existing
    return [.set v value]

def insertEdits (g : Globals) (e : JBEnv) : Except Stop (List EnvEdit) := do
  let inserts ← insertPath .dyldInsertLibraries hookDylibPath e.existingLibraryInserts
    e.systemHookAlreadyInserted
  let searchPaths ← insertPath .dyldLibraryPath librootDylibDirectoryPath
    e.existingLibrarySearchPaths e.librootDirectoryPathAlreadySearched
  return inserts ++ searchPaths ++
    [.set .jbSandboxExtensions g.jbSandboxExtensions, .set .jbRootPath g.jbRootPath,
      .set .jbPinfoFlags g.jbPinfoFlags, .set .jbTweakLoaderPath g.jbTweakLoaderPath]

/-- The removal of `path` from the variable `v`, whose value is `existing`. The string that is
enumerated is a parameter of its own: see `removeEdits`. -/
def removePath (h : Host) (v : EnvVar) (path : CStr) (existing : Option CStr) (already : Bool)
    (enumerated : Option CStr) : Except Stop (List EnvEdit) :=
  match already, existing with
  | true, some paths =>
    if paths == path then return [.unset v]
    else if h.malloc (paths.length + 1) then do
      let value ← rebuild path (paths.length + 1) enumerated
      return [.set v value]
    else .error .enomem
  | _, _ => return []

/-- Both loops of the source enumerate `existingLibraryInserts`, also the one that rebuilds
`DYLD_LIBRARY_PATH`. The variables that are unset are five: `JB_TWEAKLOADER_PATH` is not one. -/
def removeEdits (h : Host) (e : JBEnv) : Except Stop (List EnvEdit) := do
  let inserts ← removePath h .dyldInsertLibraries hookDylibPath e.existingLibraryInserts
    e.systemHookAlreadyInserted e.existingLibraryInserts
  let searchPaths ← removePath h .dyldLibraryPath librootDylibDirectoryPath
    e.existingLibrarySearchPaths e.librootDirectoryPathAlreadySearched e.existingLibraryInserts
  return inserts ++ searchPaths ++
    [.unset .safeMode, .unset .msSafeMode, .unset .jbSandboxExtensions, .unset .jbRootPath,
      .unset .jbPinfoFlags]

def rewriteEdits (h : Host) (g : Globals) (d : Decision) (e : JBEnv) :
    Except Stop (List EnvEdit) :=
  if d.shouldInsertJBEnv then insertEdits g e else removeEdits h e

/-- The test for forwarding the caller's environment as it is. -/
def alreadyGood (d : Decision) (e : JBEnv) : Bool :=
  (d.shouldInsertJBEnv && e.alreadyInsertedCount == jbEnvCount) ||
    (!d.shouldInsertJBEnv && e.alreadyInsertedCount == 0 && !d.hasSafeModeVariable)

/-- The environment the rewriting branch hands over. -/
def rewriteEnvp (h : Host) (g : Globals) (d : Decision) (e : JBEnv) (envp : Option (List CStr)) :
    Except Stop (Option (List CStr)) := do
  let edits ← rewriteEdits h g d e
  return edits.foldl EnvEdit.apply (envbufMutcopy envp)

/-- The call that `spawn_hook_common` makes to the original `posix_spawn`. -/
def spawnHookCommon (h : Host) (g : Globals) (args : SpawnArgs) : Except Stop SpawnArgs :=
  match args.path with
  | none => .ok args
  | some path => do
    let (path, argv) := redirectBlacklisted h g path args.argv
    let e ← readJBEnv args.envp
    let d := decideInsert h path argv args.attrp args.envp
    let attrp := if d.shouldInsertJBEnv then raiseJetsam args.attrp else args.attrp
    if alreadyGood d e then return ⟨some path, attrp, argv, args.envp⟩
    else do
      let envc ← rewriteEnvp h g d e args.envp
      return ⟨some path, attrp, argv, envc⟩

/-- The decision `spawn_hook_common` takes for a spawn of `path`. -/
def spawnDecision (h : Host) (g : Globals) (args : SpawnArgs) (path : CStr) : Decision :=
  let (path, argv) := redirectBlacklisted h g path args.argv
  decideInsert h path argv args.attrp args.envp

end Jbinit.Systemhook

import Jbinit.PayloadDylib.Reexec
import Jbinit.Systemhook.PathString

/-!
# The initializer of systemhook

What `initializer` of `main.c` does in a process that systemhook has been inserted into: it copies
its four strings from the environment and hides its own variables, gives the process the sandbox
extensions, and loads what belongs into the process (`universalhooks.dylib`, the tweak loader).
`strdup` is taken to succeed; the part of the initializer that launchd depends on is also in
`PayloadDylib.initializer`, where it can fail, and the two agree (`initializer_vars`).
-/

namespace Jbinit.Systemhook

open Foundations Delimited
open Palera1nd (Flags palerainOptionRootful palerainOptionSafemode palerainOptionForceRevert)
open PayloadDylib (Environ)

def palerainOptionSetupRootful : Flags := 1#64 <<< 2

/-! ## `main.c` -/

/-- What the initializer asks the system. -/
structure Startup where
  /-- `realpath` of the executable. -/
  executablePath : Option CStr
  /-- `atoi(name.release)`, or 0 where `uname` fails. -/
  release : ℕ
  pid : ℕ
  uid : ℕ
  /-- `access(path, F_OK) == 0`. -/
  access : CStr → Bool

/-- A process in which systemhook is loaded. -/
structure Hooked where
  globals : Globals
  pflags : Flags
  inJailbreakd : Bool
  /-- The sandbox extensions that have been consumed. -/
  consumed : List CStr
  environ : Environ
  /-- The images that `dlopen` is called for. -/
  opened : List CStr

/-- `strdup(getenv(v))`. -/
def dupVar (environ : Environ) (v : EnvVar) : Except Stop CStr :=
  match environ v.name with
  | none => .error .nullString
  | some value => .ok value

/-- The tokens of the extensions, in order. -/
def unsandbox (jbSandboxExtensions : CStr) : List CStr := components '|' jbSandboxExtensions

def stringEndsWith (str : Option CStr) (suffix : CStr) : Bool :=
  match str with
  | none => false
  | some str => decide (suffix.length ≤ str.length) && str.drop (str.length - suffix.length) == suffix

/-! ### What is loaded -/

def universalhooksPath : CStr := "/cores/binpack/usr/lib/universalhooks.dylib".toList

def hookedServices : List CStr :=
  ["/usr/libexec/securityd".toList, "/usr/libexec/trustd".toList, "/usr/libexec/watchdogd".toList,
    "/usr/libexec/lsd".toList, "/System/Library/CoreServices/SpringBoard.app/SpringBoard".toList,
    "/usr/sbin/cfprefsd".toList, "/Applications/PineBoard.app/PineBoard".toList,
    "/Applications/HeadBoard.app/HeadBoard".toList]

/-- Each `dlopen` of `universalhooks.dylib`. -/
def openUniversalhooks (host : Startup) : List CStr :=
  match host.executablePath with
  | none => []
  | some path =>
    (if 20 ≤ host.release ∧ hookedServices.contains path then [universalhooksPath] else []) ++
    (if 24 ≤ host.release ∧
        stringEndsWith (some path) "/TrollStore.app/trollstorehelper".toList = true ∧ host.uid = 0
      then [universalhooksPath] else []) ++
    (if 24 ≤ host.release ∧ path = "/usr/sbin/BlueTool".toList then [universalhooksPath] else [])

def tweaksDisabledPathSuffixes : List CStr :=
  ["/usr/libexec/xpcproxy".toList, "Dopamine.app/Dopamine".toList]

def shouldEnableTweaks (host : Startup) (pflags : Flags) (environ : Environ) : Bool :=
  if pflags.has (palerainOptionSafemode ||| palerainOptionForceRevert |||
    palerainOptionSetupRootful) then false
  else if host.pid = 1 then false
  else if host.access "/cores/.safe_mode".toList then false
  else if environ "DISABLE_TWEAKS".toList = some ['1'] then false
  else if environ "XPC_NULL_BOOTSTRAP".toList ≠ none ∨
    environ "XPC_SERVICES_UNAVAILABLE".toList ≠ none then false
  else if tweaksDisabledPathSuffixes.any (stringEndsWith host.executablePath) then false
  else true

/-- The path of the tweak loader; the second candidate is taken where the first is not there. -/
def tweakLoaderPath (host : Startup) (pflags : Flags) (jbTweakLoaderPath : CStr) : CStr :=
  if jbTweakLoaderPath = "@default".toList then
    if pflags.has palerainOptionRootful then
      if host.access "/usr/lib/TweakLoader.dylib".toList then "/usr/lib/TweakLoader.dylib".toList
      else "/usr/lib/TweakInject.dylib".toList
    else if host.access "/var/jb/usr/lib/TweakLoader.dylib".toList then
      "/var/jb/usr/lib/TweakLoader.dylib".toList
    else "/var/jb/usr/lib/TweakInject.dylib".toList
  else jbTweakLoaderPath

def openTweakLoader (host : Startup) (pflags : Flags) (environ : Environ)
    (jbTweakLoaderPath : CStr) : List CStr :=
  let path := tweakLoaderPath host pflags jbTweakLoaderPath
  if shouldEnableTweaks host pflags environ && host.access path then [path] else []

/-! ### `initializer` -/

/-- The environment that the process sees then. -/
def hideVariables (environ : Environ) : Environ :=
  ((environ.unsetenv EnvVar.jbSandboxExtensions.name).unsetIf EnvVar.dyldInsertLibraries.name
    hookDylibPath).unsetIf EnvVar.dyldLibraryPath.name librootDylibDirectoryPath

def initializer (host : Startup) (environ : Environ) : Except Stop Hooked := do
  let jbSandboxExtensions ← dupVar environ .jbSandboxExtensions
  let jbRootPath ← dupVar environ .jbRootPath
  let jbPinfoFlags ← dupVar environ .jbPinfoFlags
  let jbTweakLoaderPath ← dupVar environ .jbTweakLoaderPath
  let pflags := PayloadDylib.strtoull jbPinfoFlags
  let inJailbreakd := environ "XPC_SERVICE_NAME".toList == some "in.palera.palera1nd".toList
  let environ := hideVariables environ
  return {
    globals := ⟨jbSandboxExtensions, jbRootPath, jbPinfoFlags, jbTweakLoaderPath⟩
    pflags, inJailbreakd, environ
    consumed := unsandbox jbSandboxExtensions
    opened := openUniversalhooks host ++ openTweakLoader host pflags environ jbTweakLoaderPath }

/-! ## What it needs, and what it keeps -/

/-- The values of the four variables. -/
def Globals.In (g : Globals) (environ : Environ) : Prop :=
  environ EnvVar.jbSandboxExtensions.name = some g.jbSandboxExtensions ∧
    environ EnvVar.jbRootPath.name = some g.jbRootPath ∧
    environ EnvVar.jbPinfoFlags.name = some g.jbPinfoFlags ∧
    environ EnvVar.jbTweakLoaderPath.name = some g.jbTweakLoaderPath

/-- The process agrees with its strings. -/
structure Hooked.Coherent (p : Hooked) : Prop where
  pflags : p.pflags = PayloadDylib.strtoull p.globals.jbPinfoFlags
  consumed : p.consumed = unsandbox p.globals.jbSandboxExtensions

theorem dupVar_eq_ok_iff {environ : Environ} {v : EnvVar} {value : CStr} :
    dupVar environ v = .ok value ↔ environ v.name = some value := by
  unfold dupVar
  cases environ v.name with
  | none => simp
  | some value' => simp

variable {host : Startup} {environ : Environ} {g : Globals}

/-- The initializer succeeds where the four variables are set. -/
theorem initializer_of_in (host : Startup) (h : g.In environ) :
    ∃ p, initializer host environ = .ok p ∧
      p.globals = g ∧ p.Coherent ∧ p.environ = hideVariables environ := by
  obtain ⟨hextensions, hroot, hflags, htweakLoader⟩ := h
  unfold initializer
  rw [dupVar_eq_ok_iff.mpr hextensions, dupVar_eq_ok_iff.mpr hroot, dupVar_eq_ok_iff.mpr hflags,
    dupVar_eq_ok_iff.mpr htweakLoader]
  exact ⟨_, rfl, rfl, ⟨rfl, rfl⟩, rfl⟩

/-- Where it does not crash, its strings are those of the environment. -/
theorem initializer_eq_ok {p : Hooked} (h : initializer host environ = .ok p) :
    p.globals.In environ ∧ p.Coherent ∧ p.environ = hideVariables environ := by
  cases hextensions : environ EnvVar.jbSandboxExtensions.name with
  | none => simp [initializer, dupVar, hextensions] at h
  | some extensions =>
    cases hroot : environ EnvVar.jbRootPath.name with
    | none => simp [initializer, dupVar, hextensions, hroot] at h
    | some root =>
      cases hflags : environ EnvVar.jbPinfoFlags.name with
      | none => simp [initializer, dupVar, hextensions, hroot, hflags] at h
      | some flags =>
        cases htweakLoader : environ EnvVar.jbTweakLoaderPath.name with
        | none => simp [initializer, dupVar, hextensions, hroot, hflags, htweakLoader] at h
        | some tweakLoader =>
          have hin : (Globals.mk extensions root flags tweakLoader).In environ :=
            ⟨hextensions, hroot, hflags, htweakLoader⟩
          obtain ⟨p', hp', hglobals, hcoherent, henviron⟩ := initializer_of_in host hin
          rw [h, Except.ok.injEq] at hp'
          subst hp'
          exact ⟨hglobals ▸ hin, hcoherent, henviron⟩

/-- What launchd finds in systemhook after the initializer. -/
theorem initializer_vars {launchd : PayloadDylib.Host} (hstrdup : launchd.strdup = true) {p : Hooked}
    (h : initializer host environ = .ok p) : PayloadDylib.initializer launchd environ =
      .ok (⟨some p.globals.jbRootPath, some p.globals.jbPinfoFlags, p.pflags⟩, p.environ) := by
  obtain ⟨⟨hextensions, hroot, hflags, htweakLoader⟩, hcoherent, henviron⟩ := initializer_eq_ok h
  have hdup (value : CStr) : PayloadDylib.strdupOf launchd (some value) = pure (some value) := by
    rw [PayloadDylib.strdupOf, hstrdup]
    rfl
  have hunset {name : CStr} (hne : name ≠ PayloadDylib.jbSandboxExtensionsName) :
      environ.unsetenv PayloadDylib.jbSandboxExtensionsName name = environ name :=
    Function.update_of_ne hne _ _
  have hextensions' : environ PayloadDylib.jbSandboxExtensionsName =
      some p.globals.jbSandboxExtensions := hextensions
  have hroot' : environ PayloadDylib.jbRootPathName = some p.globals.jbRootPath := hroot
  have hflags' : environ PayloadDylib.jbPinfoFlagsName = some p.globals.jbPinfoFlags := hflags
  have htweakLoader' : environ PayloadDylib.jbTweakloaderPathName =
      some p.globals.jbTweakLoaderPath := htweakLoader
  unfold PayloadDylib.initializer
  rw [hextensions']
  dsimp only
  rw [hunset (by decide), hunset (by decide), hunset (by decide), hroot', hflags', htweakLoader',
    hcoherent.pflags, henviron]
  simp only [hdup, pure_bind]
  rfl

end Jbinit.Systemhook

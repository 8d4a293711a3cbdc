import Jbinit.CString
import Mathlib.Data.Int.Basic

/-!
# The hooks that search PATH

`posix_spawnp_hook`, `execvp_hook`, `execvP_hook` and `execlp_hook` of systemhook's `main.c`, on
`resolvePath` of `common.c`. The four pass handlers with different conventions: the error, always 0,
or -1. Whether a candidate can be executed and whether it is there is a `World`; a process that is
replaced by another ends in the error of `HookM`.
-/

namespace Jbinit.Systemhook

/-! ## Errors -/

def enoent : ℤ := 2
def e2big : ℤ := 7
def enoexec : ℤ := 8
def enomem : ℤ := 12
def eacces : ℤ := 13
def enotdir : ℤ := 20
def etxtbsy : ℤ := 26
def eloop : ℤ := 62
def enametoolong : ℤ := 63

/-- The search stops at these. -/
def stopErrors : List ℤ := [e2big, enomem, etxtbsy, enoexec]

/-- The search goes on past these. -/
def searchErrors : List ℤ := [eloop, enametoolong, enoent, enotdir]

/-! ## Processes -/

/-- What the system does with a path. -/
structure World where
  /-- 0, or the error of an attempt to execute it. -/
  exec : CStr → ℕ
  /-- 0, or the error of `stat`. -/
  stat : CStr → ℕ

structure Process where
  /-- The paths that were tried, in order. -/
  attempts : List CStr
  errno : ℤ
  /-- The `__block` variable of `execvP_hook`. -/
  execveFailed : Bool
  deriving DecidableEq

/-- The error is the path that the process is replaced by. -/
abbrev HookM := EStateM CStr Process

variable (w : World)

def tryPath (path : CStr) : HookM Unit := modify fun s => { s with attempts := s.attempts ++ [path] }

def setErrno (errno : ℤ) : HookM Unit := modify fun s => { s with errno }

/-- `stat(path, &sb) == 0`. -/
def statPath (path : CStr) : HookM Bool := do
  if w.stat path = 0 then return true
  else
    setErrno (w.stat path)
    return false

/-- `spawn_hook_common` of a new process. -/
def spawnPath (path : CStr) : HookM ℤ := do
  tryPath path
  return w.exec path

/-- `spawn_hook_common` with `POSIX_SPAWN_SETEXEC`, which does not return when it succeeds. -/
def execveHook (path : CStr) : HookM ℤ := do
  tryPath path
  if w.exec path = 0 then throw path
  else
    setErrno (w.exec path)
    return -1

/-! ## The search -/

/-- `PATH_MAX`. -/
def pathBufSize : ℕ := 1024

/-- The path in a directory; `none` when it is too long. -/
def candidate (file dir : CStr) : Option CStr :=
  let p := if dir = [] then ['.'] else dir
  if p.length + file.length + 2 > pathBufSize then none else some (p ++ '/' :: file)

variable (attemptHandler : CStr → HookM ℤ)

/-- The loop of `resolvePath` over the candidates. -/
def resolveFrom : List (Option CStr) → Bool → HookM ℤ
  | [], accessDenied => return if accessDenied then eacces else enoent
  | none :: _, _ => return enametoolong
  | some bp :: rest, accessDenied => do
    let err ← attemptHandler bp
    if err ∈ stopErrors then return err
    else if err ∈ searchErrors then resolveFrom rest accessDenied
    else if !(← statPath w bp) then resolveFrom rest accessDenied
    else if err = eacces then resolveFrom rest true
    else return err

/-- `_PATH_DEFPATH`. -/
def pathDefpath : CStr := "/usr/bin:/bin".toList

/-- The candidates for a file; a path is its own. -/
def candidates (file searchPath : CStr) : List (Option CStr) :=
  if '/' ∈ file then [some file] else (searchPath.splitOn ':').map (candidate file)

/-- `getenvPath` is the variable `PATH`. -/
def resolvePath (getenvPath : Option CStr) (file : CStr) (searchPath : Option CStr) : HookM ℤ :=
  let envPath := searchPath.getD (getenvPath.getD pathDefpath)
  if file = [] then return enoent else resolveFrom w attemptHandler (candidates file envPath) false

/-! ## The hooks -/

variable (getenvPath : Option CStr) (file : CStr)

def posixSpawnpHook : HookM ℤ := resolvePath w (spawnPath w) getenvPath file none

def execlpHook : HookM ℤ := resolvePath w (execveHook w) getenvPath file none

/-- The handler of `execvP_hook`. -/
def execvPHandler (path : CStr) : HookM ℤ := do
  let _ ← execveHook w path
  modify fun s => { s with execveFailed := true }
  return 0

/-- The end of `execvP_hook`: `errno` is set when no candidate was tried. -/
def execvPEnd (err : ℤ) : HookM ℤ := do
  let s ← get
  if s.execveFailed then return -1
  else do
    setErrno err
    return -1

def execvPHook (searchPath : CStr) : HookM ℤ := do
  modify fun s => { s with execveFailed := false }
  let err ← resolvePath w (execvPHandler w) getenvPath file (some searchPath)
  execvPEnd err

def execvpHook : HookM ℤ := execvPHook w getenvPath file (getenvPath.getD pathDefpath)

/-! ## Agreement -/

/-- The candidate that is spawned. -/
def spawned (s : Process) : Option CStr := s.attempts.find? fun path => w.exec path = 0

/-- A hook executes the candidate that `posix_spawnp_hook` spawns, or tries the same candidates and
fails with the error that it returns. -/
def AgreesWith : EStateM.Result CStr Process ℤ → EStateM.Result CStr Process ℤ → Prop
  | .ok _ s, .error path s' => spawned w s = some path ∧ s'.attempts <+: s.attempts
  | .ok ret s, .ok r s' =>
    spawned w s = none ∧ s'.attempts = s.attempts ∧ r = -1 ∧ s'.errno = ret
  | .error _ _, _ => False

/-- The first candidate that can be executed or is there, with those before and after it. -/
def firstThere : List (Option CStr) → Option (List CStr × CStr × List (Option CStr))
  | [] => none
  | none :: _ => none
  | some c :: rest =>
    if w.exec c = 0 ∨ w.stat c = 0 then some ([], c, rest)
    else (firstThere rest).map fun r => (c :: r.1, r.2)

/-- When the hooks agree: there is a first candidate that can be executed or is there, none before
it makes `posix_spawnp_hook` stop, and it can be executed, makes `posix_spawnp_hook` stop, or is the
last one and fails with the error that `posix_spawnp_hook` returns at the end. -/
def SearchAgrees (candidates : List (Option CStr)) : Prop :=
  ∃ before c after, firstThere w candidates = some (before, c, after) ∧
    (∀ b ∈ before, (w.exec b : ℤ) ∉ stopErrors) ∧
    (w.exec c = 0 ∨ (w.exec c : ℤ) ∉ searchErrors ∧ (w.exec c : ℤ) ≠ eacces ∨
      after = [] ∧ ((w.exec c : ℤ) = eacces ∨ (w.exec c : ℤ) = enoent) ∨
      after.head? = some none ∧ (w.exec c : ℤ) = enametoolong)

end Jbinit.Systemhook

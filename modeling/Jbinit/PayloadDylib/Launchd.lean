import Jbinit.Palera1nd.PrebootPath
import Mathlib.Logic.Function.Basic

/-!
# The state that payload.dylib keeps in launchd

Its `pflags`, launchd's environment, and the variables of the systemhook that it has loaded, with
`load_bootstrapped_jailbreak_env`, which brings `JB_ROOT_PATH` up to date. A NULL pointer is `none`.
-/

namespace Jbinit.PayloadDylib

open Foundations Calls Palera1nd

/-- Why launchd does not survive. -/
inductive Fault
  /-- A function of libxpc is applied to NULL. -/
  | nullObject
  | nullPointer
  deriving DecidableEq, Repr

abbrev Handling (α : Type) := Except Fault α

/-- The environment of a process; `none` is a variable that is not set. -/
abbrev Environ := CStr → Option CStr

/-- The variables that systemhook exports. -/
structure SystemhookVars where
  jbRootPath : Option CStr
  jbPinfoFlags : Option CStr
  pflags : Flags
  deriving DecidableEq

structure Launchd where
  pflags : Flags
  environ : Environ
  systemhook : SystemhookVars
  bootUuid : List UInt8

inductive Symbol
  | jbRootPath
  | jbPinfoFlags
  | pflags
  deriving DecidableEq, Repr

/-- What the functions of payload.dylib learn from the system. -/
structure Host where
  /-- The answers to the calls of libjailbreak. -/
  system : ∀ c, Answer c
  /-- The `dlopen` of `HOOK_DYLIB_PATH` succeeds. -/
  dlopen : Bool
  /-- systemhook has the symbol. -/
  dlsym : Symbol → Bool
  malloc : Bool
  strdup : Bool
  setenv : Bool

/-- On this host everything succeeds. -/
def plainHost : Host := ⟨success, true, fun _ => true, true, true, true⟩

variable (host : Host)

def Host.jailbreakGetPrebootPath : Except Errno CStr :=
  match (drive host.system (Palera1nd.jailbreakGetPrebootPath (ε := Empty)).run).2 with
  | .ok ret => ret

/-- `setenv(name, value, 1)`, whose outcome is not looked at. -/
def Launchd.setenv (s : Launchd) (name value : CStr) : Launchd :=
  if host.setenv then { s with environ := Function.update s.environ name (some value) } else s

/-- `*pJB_RootPath = strdup(rootPath)`. -/
def Launchd.setRootPath (s : Launchd) (rootPath : CStr) : Launchd :=
  { s with systemhook.jbRootPath := if host.strdup then some rootPath else none }

def jbRootPathName : CStr := "JB_ROOT_PATH".toList

/-- What `load_bootstrapped_jailbreak_env` does with the `ret` and the path of
`jailbreak_get_prebootPath` when systemhook is loaded. -/
def updateRootPath (s : Launchd) : Except Errno CStr → Handling Launchd
  | .ok jbPath =>
    if host.dlsym .jbRootPath then
      return (s.setenv host jbRootPathName jbPath).setRootPath host jbPath
    else return s
  | .error ret =>
    if ret = enoent then
      -- the pointer is not checked here
      if host.dlsym .jbRootPath then
        return (s.setenv host jbRootPathName varJb).setRootPath host varJb
      else throw .nullPointer
    else return s

def loadBootstrappedJailbreakEnv (s : Launchd) : Handling Launchd :=
  match host.system .uname with
  | .error _ => return s
  | .ok major =>
    if major < 20 then return s
    else if host.dlopen then updateRootPath host s host.jailbreakGetPrebootPath
    else return s

/-- The host on which `load_bootstrapped_jailbreak_env` uses a symbol that `dlsym` has not found. -/
structure Host.LacksRootPath : Prop where
  uname : ∃ major, host.system .uname = .ok major ∧ 20 ≤ major
  dlopen : host.dlopen = true
  dlsym : host.dlsym .jbRootPath = false
  prebootPath : host.jailbreakGetPrebootPath = .error enoent

theorem updateRootPath_ok_iff (s : Launchd) (r : Except Errno CStr) :
    (∃ s', updateRootPath host s r = .ok s') ↔
      ¬(host.dlsym .jbRootPath = false ∧ r = .error enoent) := by
  unfold updateRootPath
  cases r with
  | ok jbPath =>
    refine ⟨fun _ h => (by cases h.2), fun _ => ?_⟩
    dsimp only
    split
    · exact ⟨_, rfl⟩
    · exact ⟨_, rfl⟩
  | error ret =>
    by_cases hret : ret = enoent
    · subst hret
      cases hdlsym : host.dlsym .jbRootPath with
      | false => exact ⟨fun ⟨_, h⟩ => (by cases h), fun h => absurd ⟨rfl, rfl⟩ h⟩
      | true => exact ⟨fun _ h => (by cases h.1), fun _ => ⟨_, rfl⟩⟩
    · refine ⟨fun _ h => hret (Except.error.inj h.2), fun _ => ⟨s, ?_⟩⟩
      exact if_neg hret

theorem loadBootstrappedJailbreakEnv_ok_iff (s : Launchd) :
    (∃ s', loadBootstrappedJailbreakEnv host s = .ok s') ↔ ¬host.LacksRootPath := by
  unfold loadBootstrappedJailbreakEnv
  cases huname : host.system .uname with
  | error e =>
    refine ⟨fun _ h => ?_, fun _ => ⟨s, rfl⟩⟩
    obtain ⟨major, hmajor, -⟩ := h.uname
    rw [huname] at hmajor
    cases hmajor
  | ok major =>
    dsimp only
    by_cases hmajor : major < 20
    · refine ⟨fun _ h => ?_, fun _ => ⟨s, if_pos hmajor⟩⟩
      obtain ⟨_, heq, hle⟩ := h.uname
      cases huname.symm.trans heq
      omega
    rw [if_neg hmajor]
    cases hdlopen : host.dlopen with
    | false => exact ⟨fun _ h => by simp [h.dlopen] at hdlopen, fun _ => ⟨s, rfl⟩⟩
    | true =>
      rw [if_pos rfl, updateRootPath_ok_iff]
      refine not_congr ⟨fun h => ?_, fun h => ⟨h.dlsym, h.prebootPath⟩⟩
      exact ⟨⟨major, huname, not_lt.mp hmajor⟩, hdlopen, h.1, h.2⟩

end Jbinit.PayloadDylib

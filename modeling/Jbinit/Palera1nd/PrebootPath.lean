import Jbinit.Palera1nd.Sys

/-!
# The jailbreak directory and `/var/jb`

`jailbreak_get_prebootPath` of `prebootpath.c` and `remove_bogus_var_jb` of `create_var_jb.c`, which
palera1nd shares with the boot stages.
-/

namespace Jbinit.Palera1nd

open Foundations Calls

def varJb : CStr := "/var/jb".toList

/-- `snprintf(jbPath, 150, "/private/preboot/%s", bmhash)`. -/
def prebootDirectory (bmhash : BmHash) : CStr :=
  CStr.snprintf 150 ("/private/preboot/".toList ++ bmhash.chars)

/-- `strncmp(d->d_name, "jb-", 3) == 0`. -/
def isJbName (name : CStr) : Bool := "jb-".toList.isPrefixOf name

/-- The loop over the directory: the one name that begins with `jb-`, or an error. -/
def findJbName : List CStr → Option CStr → Except Errno CStr
  | [], none => .error enoent
  | [], some jbPathName => .ok jbPathName
  | name :: names, found =>
    if isJbName name then
      match found with
      | some _ => .error eexist
      | none => findJbName names (some (CStr.snprintf 20 name))
    else findJbName names found

/-- The path on success, the returned value otherwise. -/
def jailbreakGetPrebootPath {ε : Type} : Proc Answer ε (Except Errno CStr) := do
  match ← sys .uname with
  | .error e => return .error e
  | .ok major =>
    if major < 20 then return .error enotsup
    let (bmhash, _) ← sys .getBmhash
    match ← sys (.readDirectory (prebootDirectory bmhash)) with
    | .error _ => return .error enoent
    | .ok names =>
      match findJbName names none with
      | .error e => return .error e
      | .ok jbPathName =>
        let jbPath := CStr.snprintf 150 ("/private/preboot/".toList ++ bmhash.chars ++
          '/' :: jbPathName ++ "/procursus".toList)
        match ← sys (.stat jbPath) with
        | .error _ => return .error enxio
        | .ok mode => if sIsdir mode then return .ok jbPath else return .error enotdir

/-- A world that does not notice its four calls does not notice it. -/
theorem quiet_jailbreakGetPrebootPath {S ε : Type} {step : S → Event Answer → S → Prop}
    (huname : Quiet step (sys .uname : Proc Answer ε _))
    (hgetBmhash : Quiet step (sys .getBmhash : Proc Answer ε _))
    (hreadDirectory : ∀ path, Quiet step (sys (.readDirectory path) : Proc Answer ε _))
    (hstat : ∀ path, Quiet step (sys (.stat path) : Proc Answer ε _)) :
    Quiet step (jailbreakGetPrebootPath : Proc Answer ε (Except Errno CStr)) := by
  unfold jailbreakGetPrebootPath
  refine .bind huname fun r => ?_
  cases r with
  | error _ => exact .pure _
  | ok major =>
    refine .ite (.pure _) (.bind hgetBmhash fun hash => .bind (hreadDirectory _) fun r => ?_)
    cases r with
    | error _ => exact .pure _
    | ok names =>
      dsimp only
      cases findJbName names none with
      | error _ => exact .pure _
      | ok jbPathName =>
        refine .bind (hstat _) fun r => ?_
        cases r with
        | error _ => exact .pure _
        | ok mode => exact .ite (.pure _) (.pure _)

/-- `access(path, F_OK) == 0`. -/
def pathExists {ε : Type} (path : String) : Proc Answer ε Bool := do
  let r ← sys (.access path.toList .fOk)
  return ok r

/-- `&&` over `access`: the first path that is missing ends it. -/
def allExist {ε : Type} : List String → Proc Answer ε Bool
  | [] => return true
  | path :: paths => do
    if ← pathExists path then allExist paths else return false

/-- `||` over `access`: the first path that is there ends it. -/
def anyExists {ε : Type} : List String → Proc Answer ε Bool
  | [] => return false
  | path :: paths => do
    if ← pathExists path then return true else anyExists paths

/-- The value returned is 0 or -1; -1 means that a call has failed. -/
def removeBogusVarJb {ε : Type} : Proc Answer ε ℤ := do
  match ← sys (.lstat varJb) with
  | .error _ => return 0
  | .ok mode =>
    if sIslnk mode then
      match ← sys (.readlink varJb) with
      | .error _ => return -1
      | .ok link =>
        if ["/jb".toList, "/jb/".toList].contains link.text then
          let r ← sys (.unlink varJb)
          return if ok r then 0 else -1
        else if ["/private/var/containers/Bundle/jb".toList,
            "/private/var/containers/Bundle/jb/".toList].contains link.text then
          if ← allExist ["/var/jb/etc/bash.ro", "/var/jb/usr/bin/ldid3", "/var/jb/etc/profile.ro",
              "/var/jb/etc/apt/sources.list.d/saurik.list"] then
            let r ← sys (.unlink varJb)
            return if ok r then 0 else -1
          else return 0
        else return 0
    else if sIsdir mode then
      if ← anyExists ["/var/jb/System", "/var/jb/boot", "/var/jb/usr", "/var/jb/mnt", "/var/jb/lib",
          "/var/jb/procursus", "/var/jb/.bootstrapped", "/var/jb/.procursus_strapped"] then
        return 0
      else if ← anyExists ["/var/jb/var/mobile/Library", "/var/jb/var/root/Library"] then
        let r ← sys (.removefile varJb)
        return if ok r then 0 else -1
      else return 0
    else return 0

end Jbinit.Palera1nd

import Jbinit.Systemhook.Search
import Jbinit.Systemhook.SpawnSpec
import Mathlib.Logic.Function.Iterate

/-!
# The jetsam limits of a search

`posix_spawnp_hook` calls `spawn_hook_common` on each candidate, and that raises the limits in the
attribute object of the caller. They are raised once for each candidate that is injected, and stay
so (`raisedBy_posixSpawnpHook`). The candidate that is spawned sees the limits of one raise, and the
caller has its own, only when there is nothing to raise (`raisedOnce_iff`).
-/

namespace Jbinit.Systemhook.Jetsam

open Search

/-! ## The hook -/

/-- A call of the original `posix_spawn` for a candidate. -/
structure Call where
  candidate : CStr
  args : SpawnArgs
  ret : ℤ
  deriving DecidableEq

/-- The attribute object of the caller, and the calls so far. -/
structure Spawns where
  attr : SpawnAttr
  calls : List Call
  deriving DecidableEq

variable (h : Host) (g : Globals) (posixSpawn : List Call → SpawnArgs → ℤ)
  (stat : List Call → CStr → Bool) (args : SpawnArgs)

def statPath (path : CStr) : StateM Spawns Bool := do
  let s ← get
  return stat s.calls path

/-- The block of `posix_spawnp_hook`: `spawn_hook_common`, and the original at its end. It stops
before that only while it removes variables: with `ENOMEM`, which ends the search, or with a fault,
which ends it as well. -/
def attemptHandler (path : CStr) : StateM Spawns ℤ := do
  let s ← get
  match spawnHookCommon h g { args with path := some path, attrp := some (some s.attr) } with
  | .error _ => return enomem
  | .ok call =>
    let ret := posixSpawn s.calls call
    set { attr := call.attrp.join.getD s.attr, calls := s.calls ++ [⟨path, call, ret⟩] : Spawns }
    return ret

def posixSpawnpHook (getenvPath : Option CStr) (file : CStr) (pathBuf : PathBuf) :
    StateM Spawns (Option ℤ) :=
  Search.resolvePath (statPath stat) (attemptHandler h g posixSpawn args) getenvPath file none pathBuf

/-! ## The property -/

/-- The hook injects into a candidate. -/
def injects (attr : SpawnAttr) (path : CStr) : Bool :=
  (spawnDecision h g { args with path := some path, attrp := some (some attr) }
    path).shouldInsertJBEnv

def limits (attr : SpawnAttr) : List Int32 := [attr.memlimitActive, attr.memlimitInactive]

/-- The limit times `JETSAM_MULTIPLIER`, as an integer; `-1` is no limit. -/
def raised (limit : Int32) : ℤ := if limit = -1 then -1 else 3 * limit.toInt

/-- The limits are raised once for a child that is injected, and the object of the caller is `after`
as it was. -/
structure RaisedOnce (attr : SpawnAttr) (call : Call) (after : SpawnAttr) : Prop where
  seen : ∃ seen, call.args.attrp = some (some seen) ∧
    if injects h g args attr call.candidate then
      (limits seen).map Int32.toInt = (limits attr).map raised
    else limits seen = limits attr
  kept : limits after = limits attr

/-! ## The calls -/

def raise (attr : SpawnAttr) : SpawnAttr where
  proctype := attr.proctype
  memlimitActive := raiseLimit attr.memlimitActive
  memlimitInactive := raiseLimit attr.memlimitInactive

theorem limits_raise (n : ℕ) (attr : SpawnAttr) :
    limits (raise^[n] attr) = (limits attr).map raiseLimit^[n] := by
  induction n with
  | zero => simp
  | succ n ih =>
    rw [Function.iterate_succ_apply']
    simp only [limits, List.map_cons, List.map_nil, List.cons.injEq, and_true] at ih ⊢
    rw [Function.iterate_succ_apply', Function.iterate_succ_apply', ← ih.1, ← ih.2]
    exact ⟨rfl, rfl⟩

/-- The decision does not look at the limits. -/
theorem injects_raise (n : ℕ) (attr : SpawnAttr) (path : CStr) :
    injects h g args (raise^[n] attr) path = injects h g args attr path := by
  induction n with
  | zero => rfl
  | succ n ih =>
    rw [Function.iterate_succ_apply', ← ih]
    rfl

/-- How many of the calls are for a candidate that is injected. -/
def raises (attr : SpawnAttr) (calls : List Call) : ℕ :=
  calls.countP fun call => injects h g args attr call.candidate

/-- The object was raised for each call that is injected, and the last call has seen it. -/
structure RaisedBy (attr : SpawnAttr) (s : Spawns) : Prop where
  attr : s.attr = raise^[raises h g args attr s.calls] attr
  last : ∀ call, s.calls.getLast? = some call → call.args.attrp = some (some s.attr)

variable {h g posixSpawn stat args}

theorem attrp_of_spawnHookCommon {path : CStr} {attr : SpawnAttr} {call : SpawnArgs}
    (hcall : spawnHookCommon h g { args with path := some path, attrp := some (some attr) } =
      .ok call) :
    call.attrp = some (some (if injects h g args attr path then raise attr else attr)) := by
  have hover (envp : Option (List CStr)) :
      (handOver h g { args with path := some path, attrp := some (some attr) } path envp).attrp =
        some (some (if injects h g args attr path then raise attr else attr)) := by
    unfold handOver injects
    split <;> rfl
  cases hgood : alreadyGood (spawnDecision h g
      { args with path := some path, attrp := some (some attr) } path) (jbEnvOf args.envp) with
  | true =>
    rw [spawnHookCommon_of_alreadyGood rfl hgood] at hcall
    rw [← Except.ok.inj hcall, hover]
  | false =>
    rw [spawnHookCommon_of_not_alreadyGood rfl hgood] at hcall
    cases henvp : rewriteEnvp h g (spawnDecision h g
        { args with path := some path, attrp := some (some attr) } path) (jbEnvOf args.envp)
        args.envp with
    | error e =>
      rw [henvp] at hcall
      cases hcall
    | ok envp =>
      rw [henvp] at hcall
      rw [← Except.ok.inj hcall, hover]

/-- One candidate. -/
theorem keeps_attemptHandler (attr : SpawnAttr) (path : CStr) :
    Keeps (RaisedBy h g args attr) (attemptHandler h g posixSpawn args path) := by
  intro s hs
  unfold attemptHandler
  simp only [StateT.run_bind, StateT.run_get, pure_bind]
  split
  · exact hs
  rename_i call hcall
  have hattr := attrp_of_spawnHookCommon hcall
  have hinjects : injects h g args s.attr path = injects h g args attr path := by
    rw [hs.attr, injects_raise]
  have hnew : call.attrp.join.getD s.attr =
      if injects h g args attr path then raise s.attr else s.attr := by
    rw [hattr, hinjects]
    rfl
  constructor
  case attr =>
    show call.attrp.join.getD s.attr =
      raise^[raises h g args attr (s.calls ++ [⟨path, call, posixSpawn s.calls call⟩])] attr
    rw [hnew, raises, List.countP_append, List.countP_singleton]
    split
    · rw [Function.iterate_succ_apply', hs.attr]
      rfl
    · exact hs.attr
  case last =>
    intro last hlast
    have hcalls : (s.calls ++ [Call.mk path call (posixSpawn s.calls call)]).getLast? = some last :=
      hlast
    rw [List.getLast?_concat] at hcalls
    obtain rfl := Option.some.inj hcalls
    show call.attrp = some (some (call.attrp.join.getD s.attr))
    rw [hattr]
    rfl

theorem raisedBy_posixSpawnpHook (attr : SpawnAttr) (getenvPath : Option CStr) (file : CStr)
    (pathBuf : PathBuf) : RaisedBy h g args attr
      ((posixSpawnpHook h g posixSpawn stat args getenvPath file pathBuf).run ⟨attr, []⟩).2 :=
  keeps_resolvePath (fun _ _ hs => hs) (keeps_attemptHandler attr) getenvPath file none pathBuf
    ⟨attr, []⟩ ⟨rfl, by simp⟩

/-! ## When the limits are raised once -/

theorem raised_iff {limit : Int32} : limit.toInt = raised limit ↔ limit = 0 ∨ limit = -1 := by
  unfold raised
  split
  case isTrue hnone => simp [hnone]
  case isFalse hsome =>
    constructor
    · intro hthree
      have hzero : limit.toInt = (0 : Int32).toInt := by
        show limit.toInt = 0
        omega
      exact .inl (Int32.toInt_inj.mp hzero)
    · rintro (rfl | rfl)
      · rfl
      · exact absurd rfl hsome

theorem iterate_raiseLimit {limit : Int32} (hlimit : limit = 0 ∨ limit = -1) (n : ℕ) :
    raiseLimit^[n] limit = limit := by
  refine Function.iterate_fixed ?_ n
  obtain rfl | rfl := hlimit <;> rfl

/-- **The limits of the child**: the last call, which is the one that succeeds if any does, sees
limits that were raised once, and the caller has its own, exactly when there are none to raise; a
child that is not injected also when the raises for the candidates before it have no effect modulo
2^32. -/
theorem raisedOnce_iff (attr : SpawnAttr) (getenvPath : Option CStr) (file : CStr)
    (pathBuf : PathBuf) {s : Spawns} {before : List Call} {call : Call}
    (hrun : ((posixSpawnpHook h g posixSpawn stat args getenvPath file pathBuf).run ⟨attr, []⟩).2 = s)
    (hcalls : s.calls = before ++ [call]) :
    RaisedOnce h g args attr call s.attr ↔
      if injects h g args attr call.candidate then ∀ limit ∈ limits attr, limit = 0 ∨ limit = -1
      else ∀ limit ∈ limits attr, raiseLimit^[raises h g args attr before] limit = limit := by
  have hs : RaisedBy h g args attr s := hrun ▸ raisedBy_posixSpawnpHook attr getenvPath file pathBuf
  have hseen := hs.last call (by rw [hcalls, List.getLast?_concat])
  have hlimits : limits s.attr =
      (limits attr).map raiseLimit^[raises h g args attr (before ++ [call])] := by
    conv_lhs => rw [hs.attr, hcalls, limits_raise]
  have hfixed (n : ℕ) : (limits attr).map raiseLimit^[n] = limits attr ↔
      ∀ limit ∈ limits attr, raiseLimit^[n] limit = limit := by
    conv_lhs => rhs; rw [← List.map_id (limits attr)]
    exact List.map_inj_left
  split
  case isTrue hinjects =>
    constructor
    · rintro ⟨⟨seen, hsome, hraised⟩, hkept⟩
      obtain rfl : s.attr = seen := Option.some.inj (Option.some.inj (hseen.symm.trans hsome))
      rw [if_pos hinjects, hkept, List.map_inj_left] at hraised
      exact fun limit hlimit => raised_iff.mp (hraised limit hlimit)
    · intro hnone
      have hkept : limits s.attr = limits attr := by
        rw [hlimits, hfixed]
        exact fun limit hlimit => iterate_raiseLimit (hnone limit hlimit) _
      refine ⟨⟨s.attr, hseen, ?_⟩, hkept⟩
      rw [if_pos hinjects, hkept, List.map_inj_left]
      exact fun limit hlimit => raised_iff.mpr (hnone limit hlimit)
  case isFalse hinjects =>
    have hraises : raises h g args attr (before ++ [call]) = raises h g args attr before := by
      simp [raises, hinjects]
    rw [hraises] at hlimits
    constructor
    · rintro ⟨-, hkept⟩
      rwa [hlimits, hfixed] at hkept
    · intro hsame
      have hkept : limits s.attr = limits attr := by rwa [hlimits, hfixed]
      exact ⟨⟨s.attr, hseen, by rwa [if_neg hinjects]⟩, hkept⟩

/-! ## Two candidates -/

def usrBinLs : CStr := "/usr/bin/ls".toList

/-- There is an `ls` in `/usr/bin` only. -/
def lsSpawn (_ : List Call) (args : SpawnArgs) : ℤ := if args.path = some usrBinLs then 0 else enoent

def lsStat (_ : List Call) (path : CStr) : Bool := path == usrBinLs

def lsArgs : SpawnArgs := ⟨none, none, some ["ls".toList], none⟩

/-- The environment that `ls` gets. -/
def lsEnv : List CStr :=
  ["DYLD_INSERT_LIBRARIES=".toList ++ hookDylibPath,
    "DYLD_LIBRARY_PATH=".toList ++ librootDylibDirectoryPath, "JB_SANDBOX_EXTENSIONS=ext".toList,
    "JB_ROOT_PATH=/var/jb".toList, "JB_PINFO_FLAGS=0x1".toList,
    "JB_TWEAKLOADER_PATH=@default".toList]

def lsCall (path : CStr) (limit : Int32) (ret : ℤ) : Call where
  candidate := path
  args := ⟨some path, some (some ⟨0, limit, limit⟩), some ["ls".toList], some lsEnv⟩
  ret := ret

/-- The search passes `/bin`, and `ls` is spawned with nine times its limits. -/
theorem posixSpawnpHook_ls :
    (posixSpawnpHook plainHost plainGlobals lsSpawn lsStat lsArgs (some "/bin:/usr/bin".toList)
      "ls".toList emptyBuf).run ⟨⟨0, 100, 100⟩, []⟩ =
      (some 0, ⟨⟨0, 900, 900⟩, [lsCall binLs 300 enoent, lsCall usrBinLs 900 0]⟩) := by
  rw [posixSpawnpHook, resolvePath_eq_searchList (by decide) (by decide), if_neg (by decide)]
  change @Eq (Option ℤ × Spawns) _ _
  decide +kernel

theorem raisedOnce_iff_ls :
    RaisedOnce plainHost plainGlobals lsArgs ⟨0, 100, 100⟩ (lsCall usrBinLs 900 0) ⟨0, 900, 900⟩ ↔
      if injects plainHost plainGlobals lsArgs ⟨0, 100, 100⟩ usrBinLs then
        ∀ limit ∈ limits ⟨0, 100, 100⟩, limit = 0 ∨ limit = -1
      else
        ∀ limit ∈ limits ⟨0, 100, 100⟩,
          raiseLimit^[raises plainHost plainGlobals lsArgs ⟨0, 100, 100⟩ [lsCall binLs 300 enoent]]
            limit = limit :=
  raisedOnce_iff ⟨0, 100, 100⟩ (some "/bin:/usr/bin".toList) "ls".toList emptyBuf
    (congrArg Prod.snd posixSpawnpHook_ls) rfl

theorem not_raisedOnce_ls :
    ((posixSpawnpHook plainHost plainGlobals lsSpawn lsStat lsArgs (some "/bin:/usr/bin".toList)
        "ls".toList emptyBuf).run ⟨⟨0, 100, 100⟩, []⟩).2 =
        ⟨⟨0, 900, 900⟩, [lsCall binLs 300 enoent, lsCall usrBinLs 900 0]⟩ ∧
      ¬ RaisedOnce plainHost plainGlobals lsArgs ⟨0, 100, 100⟩ (lsCall usrBinLs 900 0)
        ⟨0, 900, 900⟩ := by
  refine ⟨congrArg Prod.snd posixSpawnpHook_ls, fun h => ?_⟩
  exact absurd h.kept (by decide)

end Jbinit.Systemhook.Jetsam

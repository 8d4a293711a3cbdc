import Mathlib.Data.List.Nodup
import Jbinit.Systemhook.Spawn

/-!
# What the spawn hook computes

Spec lemmas for the pieces of `spawn_hook_common`. Nothing before the removal of a path can fault:
`readJBEnv_eq` and `insertEdits_eq` give their results outright, and `removePath_of_ne` says when a
removal stops. `spawnHookCommon_of_alreadyGood` and `spawnHookCommon_of_not_alreadyGood` are the two
ways a spawn ends. An edit touches the values of its own variable only, so that after a list of edits
of different variables the values of each one come from its own edit (`envValues_foldl_of_mem`).
-/

namespace Jbinit.Systemhook

open Foundations Delimited

/-! ## Variables -/

theorem EnvVar.eq_not_mem_name (v : EnvVar) : '=' ∉ v.name := by
  cases v <;> decide

theorem EnvVar.name_injective : Function.Injective EnvVar.name := by
  let vars : List EnvVar := [.dyldInsertLibraries, .dyldLibraryPath, .jbSandboxExtensions,
    .jbRootPath, .jbPinfoFlags, .jbTweakLoaderPath, .safeMode, .msSafeMode]
  have hmem (v : EnvVar) : v ∈ vars := by cases v <;> decide
  have hnodup : (vars.map EnvVar.name).Nodup := by decide +kernel
  exact fun v w h => List.inj_on_of_nodup_map hnodup (hmem v) (hmem w) h

theorem EnvVar.apart {v w : EnvVar} (h : v ≠ w) :
    FirstMatch.Apart (namedBy v.name) (namedBy w.name) :=
  namedBy_apart v.eq_not_mem_name w.eq_not_mem_name (EnvVar.name_injective.ne h)

/-- The variable an edit is about. -/
def EnvEdit.var : EnvEdit → EnvVar
  | .set v _ => v
  | .unset v => v

theorem envValues_apply_of_name_ne {e : EnvEdit} {name : CStr} (hname : '=' ∉ name)
    (h : e.var.name ≠ name) (envc : Option (List CStr)) :
    envValues (e.apply envc) name = envValues envc name := by
  have hapart := namedBy_apart e.var.eq_not_mem_name hname h
  cases e with
  | set w value => exact envValues_setenv_of_apart hapart envc value
  | unset w => exact envValues_unsetenv_of_apart hapart envc

/-- Edits of other variables do not change the values of a variable. -/
theorem envValues_foldl_of_name_ne {edits : List EnvEdit} {name : CStr} (hname : '=' ∉ name)
    (h : ∀ e ∈ edits, e.var.name ≠ name) (envc : Option (List CStr)) :
    envValues (edits.foldl EnvEdit.apply envc) name = envValues envc name := by
  induction edits generalizing envc with
  | nil => rfl
  | cons e edits ih =>
    rw [List.foldl_cons, ih fun e' he' => h e' (by simp [he']),
      envValues_apply_of_name_ne hname (h e (by simp))]

theorem envValues_foldl_of_ne {edits : List EnvEdit} {v : EnvVar} (h : ∀ e ∈ edits, e.var ≠ v)
    (envc : Option (List CStr)) :
    envValues (edits.foldl EnvEdit.apply envc) v.name = envValues envc v.name :=
  envValues_foldl_of_name_ne v.eq_not_mem_name
    (fun e he => EnvVar.name_injective.ne (h e he)) envc

@[simp] theorem envValues_apply_set (v : EnvVar) (value : CStr) (envc : Option (List CStr)) :
    envValues ((EnvEdit.set v value).apply envc) v.name = value :: (envValues envc v.name).tail :=
  envValues_setenv_self envc v.name value

@[simp] theorem envValues_apply_unset (v : EnvVar) (envc : Option (List CStr)) :
    envValues ((EnvEdit.unset v).apply envc) v.name = (envValues envc v.name).tail :=
  envValues_unsetenv_self envc v.name

/-- What an edit does to its own variable depends on the values of that variable only. -/
theorem envValues_apply_congr (e : EnvEdit) {envc envc' : Option (List CStr)}
    (h : envValues envc e.var.name = envValues envc' e.var.name) :
    envValues (e.apply envc) e.var.name = envValues (e.apply envc') e.var.name := by
  cases e with
  | set v value => simpa [EnvEdit.var] using congrArg List.tail h
  | unset v => simpa [EnvEdit.var] using congrArg List.tail h

/-- Among edits of different variables, the values of a variable come from its own edit. -/
theorem envValues_foldl_of_mem {edits : List EnvEdit} (hnd : (edits.map EnvEdit.var).Nodup)
    {e : EnvEdit} (he : e ∈ edits) (envc : Option (List CStr)) :
    envValues (edits.foldl EnvEdit.apply envc) e.var.name =
      envValues (e.apply envc) e.var.name := by
  obtain ⟨pre, post, rfl⟩ := List.append_of_mem he
  rw [List.map_append, List.map_cons, List.nodup_append, List.nodup_cons] at hnd
  obtain ⟨-, ⟨hpost, -⟩, hpre⟩ := hnd
  have hne_post : ∀ e' ∈ post, e'.var ≠ e.var := by
    intro e' he' heq
    exact hpost (heq ▸ List.mem_map_of_mem he')
  have hne_pre : ∀ e' ∈ pre, e'.var ≠ e.var := by
    intro e' he'
    exact hpre _ (List.mem_map_of_mem he') _ List.mem_cons_self
  rw [List.foldl_append, List.foldl_cons, envValues_foldl_of_ne hne_post]
  exact envValues_apply_congr e (envValues_foldl_of_ne hne_pre envc)

theorem getenv_foldl_of_ne {edits : List EnvEdit} {v : EnvVar} (h : ∀ e ∈ edits, e.var ≠ v)
    (envc : Option (List CStr)) :
    envbufGetenv (edits.foldl EnvEdit.apply envc) v.name = envbufGetenv envc v.name := by
  rw [envbufGetenv_eq_head?, envbufGetenv_eq_head?, envValues_foldl_of_ne h]

/-! ## Counting -/

theorem isComponent_hookDylibPath : IsComponent ':' hookDylibPath := ⟨by decide, by decide⟩

theorem isComponent_librootDylibDirectoryPath : IsComponent ':' librootDylibDirectoryPath :=
  ⟨by decide, by decide⟩

/-- What `readJBEnv` reads. -/
def jbEnvOf (envp : Option (List CStr)) : JBEnv where
  existingLibraryInserts := envbufGetenv envp EnvVar.dyldInsertLibraries.name
  systemHookAlreadyInserted :=
    (listedPaths (envbufGetenv envp EnvVar.dyldInsertLibraries.name)).contains hookDylibPath
  existingLibrarySearchPaths := envbufGetenv envp EnvVar.dyldLibraryPath.name
  librootDirectoryPathAlreadySearched :=
    (listedPaths (envbufGetenv envp EnvVar.dyldLibraryPath.name)).contains librootDylibDirectoryPath
  alreadyInsertedCount :=
    ((listedPaths (envbufGetenv envp EnvVar.dyldInsertLibraries.name)).contains
      hookDylibPath).toNat +
    ((listedPaths (envbufGetenv envp EnvVar.dyldLibraryPath.name)).contains
      librootDylibDirectoryPath).toNat +
    (countedVars.filter fun v => (envbufGetenv envp v.name).isSome).length

theorem readJBEnv_eq (envp : Option (List CStr)) : readJBEnv envp = .ok (jbEnvOf envp) := by
  simp only [readJBEnv, readJBEnvOf, alreadyListed_eq, ok_bind]
  rfl

/-- What is counted: the two flags, and the variables that are set. -/
theorem count_eq (envp : Option (List CStr)) : (jbEnvOf envp).alreadyInsertedCount =
    (jbEnvOf envp).systemHookAlreadyInserted.toNat +
      (jbEnvOf envp).librootDirectoryPathAlreadySearched.toNat +
      (countedVars.filter fun v => (envbufGetenv envp v.name).isSome).length := rfl

/-- Nothing is counted: neither path is listed and none of the four variables is set. -/
theorem count_eq_zero_iff (envp : Option (List CStr)) :
    (jbEnvOf envp).alreadyInsertedCount = 0 ↔
      (jbEnvOf envp).systemHookAlreadyInserted = false ∧
      (jbEnvOf envp).librootDirectoryPathAlreadySearched = false ∧
      ∀ v ∈ countedVars, envbufGetenv envp v.name = none := by
  rw [count_eq, Nat.add_eq_zero_iff, Nat.add_eq_zero_iff, Bool.toNat_eq_zero, Bool.toNat_eq_zero,
    List.length_eq_zero_iff, List.filter_eq_nil_iff, and_assoc]
  simp only [Bool.not_eq_true, Option.isSome_eq_false_iff, Option.isNone_iff_eq_none]

/-- All six items are counted. -/
theorem count_eq_jbEnvCount_iff (envp : Option (List CStr)) :
    (jbEnvOf envp).alreadyInsertedCount = jbEnvCount ↔
      (jbEnvOf envp).systemHookAlreadyInserted = true ∧
      (jbEnvOf envp).librootDirectoryPathAlreadySearched = true ∧
      ∀ v ∈ countedVars, (envbufGetenv envp v.name).isSome = true := by
  have hlen : countedVars.length = 4 := rfl
  have h₁ := Bool.toNat_le (jbEnvOf envp).systemHookAlreadyInserted
  have h₂ := Bool.toNat_le (jbEnvOf envp).librootDirectoryPathAlreadySearched
  have h₃ := List.length_filter_le (fun v => (envbufGetenv envp v.name).isSome) countedVars
  rw [← List.length_filter_eq_length_iff, ← Bool.toNat_eq_one, ← Bool.toNat_eq_one, count_eq]
  simp only [jbEnvCount]
  omega

/-! ## Inserting -/

/-- A path put in front of the value of a variable. -/
def prepended (path : CStr) (existing : Option CStr) : CStr :=
  match existing with
  | none => path
  | some paths => path ++ ':' :: paths

theorem prependPath_eq (path : CStr) (existing : Option CStr) :
    prependPath path existing = .ok (prepended path existing) := by
  cases existing with
  | none => simp [prependPath, prepended, checked_strcpy]
  | some paths =>
    have h₁ : path.length < path.length + (paths.length + 1) + 1 := by omega
    have h₂ : (path ++ [':']).length < path.length + (paths.length + 1) + 1 := by simp
    have h₃ : ((path ++ [':']) ++ paths).length < path.length + (paths.length + 1) + 1 := by
      simp only [List.length_append, List.length_cons, List.length_nil]
      omega
    simp only [prependPath, CStr.strcat, checked_strcpy, if_pos h₁, if_pos h₂, if_pos h₃, ok_bind]
    simp [prepended]

/-- The edits that put a path in front of a variable. -/
def pathInsertion (v : EnvVar) (path : CStr) (existing : Option CStr) (already : Bool) :
    List EnvEdit :=
  if already then [] else [.set v (prepended path existing)]

/-- The four variables that are counted, with the strings they are set to. -/
def Globals.values (g : Globals) : List (EnvVar × CStr) :=
  [(.jbSandboxExtensions, g.jbSandboxExtensions), (.jbRootPath, g.jbRootPath),
    (.jbPinfoFlags, g.jbPinfoFlags), (.jbTweakLoaderPath, g.jbTweakLoaderPath)]

/-- The edits that set the four variables. -/
def setEdits (g : Globals) : List EnvEdit := g.values.map fun p => .set p.1 p.2

theorem insertEdits_eq (g : Globals) (e : JBEnv) :
    insertEdits g e = .ok
      (pathInsertion .dyldInsertLibraries hookDylibPath e.existingLibraryInserts
          e.systemHookAlreadyInserted ++
        pathInsertion .dyldLibraryPath librootDylibDirectoryPath e.existingLibrarySearchPaths
          e.librootDirectoryPathAlreadySearched ++
        setEdits g) := by
  have hinsert : ∀ (v : EnvVar) (path : CStr) (existing : Option CStr) (already : Bool),
      insertPath v path existing already = .ok (pathInsertion v path existing already) := by
    intro v path existing already
    cases already with
    | true => rfl
    | false =>
      simp only [insertPath, prependPath_eq, ok_bind, pathInsertion]
      rfl
  simp only [insertEdits, hinsert, ok_bind]
  rfl

/-! ## Removing -/

/-- A path that is listed in a variable next to something else, so that the variable is rebuilt. -/
def NeedsRebuild (paths : Option CStr) (path : CStr) : Prop :=
  path ∈ listedPaths paths ∧ paths ≠ some path

theorem removePath_of_not_listed (h : Host) (v : EnvVar) (path : CStr) (existing enum : Option CStr) :
    removePath h v path existing false enum = .ok [] := rfl

theorem removePath_of_eq (h : Host) (v : EnvVar) (path : CStr) (enum : Option CStr) :
    removePath h v path (some path) true enum = .ok [.unset v] := by
  simp only [removePath, beq_self_eq_true, if_true]
  rfl

theorem removePath_of_ne (h : Host) (v : EnvVar) {path paths : CStr} (hne : paths ≠ path)
    (enum : Option CStr) :
    removePath h v path (some paths) true enum =
      if h.malloc (paths.length + 1) then
        (rebuild path (paths.length + 1) enum).map fun value => [.set v value]
      else .error .enomem := by
  simp only [removePath, beq_eq_false_iff_ne.mpr hne, Bool.false_eq_true, if_false]
  split
  · cases rebuild path (paths.length + 1) enum <;> rfl
  · rfl

/-! ## The whole hook -/

/-- The call to the original `posix_spawn`, up to the environment it is given. -/
def handOver (h : Host) (g : Globals) (args : SpawnArgs) (path : CStr)
    (envp : Option (List CStr)) : SpawnArgs where
  path := some (redirectBlacklisted h g path args.argv).1
  attrp := if (spawnDecision h g args path).shouldInsertJBEnv then raiseJetsam args.attrp
    else args.attrp
  argv := (redirectBlacklisted h g path args.argv).2
  envp := envp

section Cases

variable {h : Host} {g : Globals} {args : SpawnArgs} {path : CStr} (hpath : args.path = some path)
include hpath

/-- The fast path. -/
theorem spawnHookCommon_of_alreadyGood
    (good : alreadyGood (spawnDecision h g args path) (jbEnvOf args.envp) = true) :
    spawnHookCommon h g args = .ok (handOver h g args path args.envp) := by
  simp only [spawnDecision] at good
  simp only [spawnHookCommon, hpath, readJBEnv_eq, ok_bind, if_pos good]
  rfl

/-- The rewriting path. -/
theorem spawnHookCommon_of_not_alreadyGood
    (bad : alreadyGood (spawnDecision h g args path) (jbEnvOf args.envp) = false) :
    spawnHookCommon h g args =
      (rewriteEnvp h g (spawnDecision h g args path) (jbEnvOf args.envp) args.envp).map
        (handOver h g args path) := by
  simp only [spawnHookCommon, hpath, readJBEnv_eq, ok_bind]
  rw [if_neg]
  · change _ = Except.map _ (rewriteEnvp h g (decideInsert h
      (redirectBlacklisted h g path args.argv).1 (redirectBlacklisted h g path args.argv).2
      args.attrp args.envp) (jbEnvOf args.envp) args.envp)
    cases rewriteEnvp h g (decideInsert h (redirectBlacklisted h g path args.argv).1
      (redirectBlacklisted h g path args.argv).2 args.attrp args.envp) (jbEnvOf args.envp)
      args.envp <;> rfl
  · simp only [spawnDecision] at bad
    simp [bad]

end Cases

/-! ## Two spawns -/

/-- A system without symbolic links, where every access and every allocation succeeds. -/
def plainHost : Host where
  realpath := id
  accessX := fun _ => true
  accessF := fun _ => true
  availableIos16 := true
  malloc := fun _ => true

def plainGlobals : Globals where
  jbSandboxExtensions := "ext".toList
  jbRootPath := "/var/jb".toList
  jbPinfoFlags := "0x1".toList
  jbTweakLoaderPath := "@default".toList

def spawnOf (path : CStr) (envp : List CStr) : SpawnArgs where
  path := some path
  attrp := none
  argv := some [path]
  envp := some envp

/-- A binary that is never injected. -/
def wifid : CStr := "/usr/sbin/wifid".toList

/-- A binary that is injected. -/
def binLs : CStr := "/bin/ls".toList

/-- It is injected unless its environment asks for safe mode. -/
theorem spawnDecision_binLs (envp : List CStr)
    (hsafe : asksSafeMode (envbufGetenv (some envp) EnvVar.safeMode.name) = false)
    (hms : asksSafeMode (envbufGetenv (some envp) EnvVar.msSafeMode.name) = false) :
    spawnDecision plainHost plainGlobals (spawnOf binLs envp) binLs = ⟨true, false⟩ := by
  have hredirect : redirectBlacklisted plainHost plainGlobals binLs (some [binLs]) =
      (binLs, some [binLs]) := by decide +kernel
  have hconfig : configForBinary plainHost binLs (some [binLs]) = ⟨false, false⟩ := by
    decide +kernel
  simp only [spawnDecision, spawnOf, hredirect, decideInsert, decideInsertOf, hconfig, hsafe, hms]
  rfl

end Jbinit.Systemhook

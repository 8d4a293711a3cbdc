import Jbinit.Systemhook.SpawnClean

/-!
# The fast path against the rewriting path

When the counts say that the environment is already good, `spawn_hook_common` forwards it as it is.
The rewriting branch would have set the four variables to systemhook's current strings, or popped
one entry of each safe-mode variable. `spawn_fastPath_agrees_iff` says when this makes no difference
to any look-up: the four values are the current ones, or a safe-mode variable that is set has the
same value once more below (`FastPathAgrees`).
-/

namespace Jbinit.Systemhook

open Foundations

/-- Every variable has the same value, or none, in the two environments. -/
def SameLookups (envp envp' : Option (List CStr)) : Prop :=
  ∀ name, '=' ∉ name → envbufGetenv envp name = envbufGetenv envp' name

def safeModeVars : List EnvVar := [.safeMode, .msSafeMode]

/-- The caller's environments that need not be rewritten, among those that are forwarded. -/
def FastPathAgrees (g : Globals) (d : Decision) (envp : Option (List CStr)) : Prop :=
  if d.shouldInsertJBEnv then
    ∀ p ∈ g.values, envbufGetenv envp p.1.name = some p.2
  else
    ∀ v ∈ safeModeVars, envbufGetenv envp v.name = (envValues envp v.name).tail.head?

instance (g : Globals) (d : Decision) : DecidablePred (FastPathAgrees g d) := fun envp =>
  inferInstanceAs (Decidable (if d.shouldInsertJBEnv then
    ∀ p ∈ g.values, envbufGetenv envp p.1.name = some p.2
  else
    ∀ v ∈ safeModeVars, envbufGetenv envp v.name = (envValues envp v.name).tail.head?))

/-- Look-ups after a list of edits of different variables: only the variables of the edits can have
changed. -/
theorem sameLookups_foldl_iff {edits : List EnvEdit} (hnd : (edits.map EnvEdit.var).Nodup)
    (envp : Option (List CStr)) :
    SameLookups envp (edits.foldl EnvEdit.apply envp) ↔
      ∀ e ∈ edits, envbufGetenv envp e.var.name = envbufGetenv (e.apply envp) e.var.name := by
  have hself : ∀ e ∈ edits, envbufGetenv (edits.foldl EnvEdit.apply envp) e.var.name =
      envbufGetenv (e.apply envp) e.var.name := by
    intro e he
    rw [envbufGetenv_eq_head?, envbufGetenv_eq_head?, envValues_foldl_of_mem hnd he]
  constructor
  · intro hsame e he
    rw [← hself e he]
    exact hsame _ e.var.eq_not_mem_name
  · intro hedits name hname
    by_cases hvar : ∃ e ∈ edits, e.var.name = name
    · obtain ⟨e, he, rfl⟩ := hvar
      rw [hself e he]
      exact hedits e he
    · have hne : ∀ e ∈ edits, e.var.name ≠ name := by
        intro e he heq
        exact hvar ⟨e, he, heq⟩
      rw [envbufGetenv_eq_head?, envbufGetenv_eq_head?, envValues_foldl_of_name_ne hname hne]

/-! ## The edits that the fast path leaves out -/

/-- With all six items counted, the inserting branch sets the four variables and nothing else. -/
theorem insertEdits_of_counted (g : Globals) {envp : Option (List CStr)}
    (hcount : (jbEnvOf envp).alreadyInsertedCount = jbEnvCount) :
    insertEdits g (jbEnvOf envp) = .ok (setEdits g) := by
  obtain ⟨hhook, hlibroot, -⟩ := (count_eq_jbEnvCount_iff envp).mp hcount
  rw [insertEdits_eq, hhook, hlibroot]
  rfl

theorem pathRemoval_of_not_mem (v : EnvVar) {path : CStr} {existing : Option CStr}
    (h : path ∉ listedPaths existing) (value : CStr) : pathRemoval v path existing value = [] := by
  rw [pathRemoval, if_neg]
  intro hlist
  exact h (List.contains_iff_mem.mp hlist)

/-- With nothing counted, the removing branch unsets five variables and nothing else. -/
theorem removeEdits_of_cleanEnv (h : Host) {envp : Option (List CStr)} (hclean : CleanEnv envp) :
    removeEdits h (jbEnvOf envp) = .ok unsetEdits := by
  rw [removeEdits_of_fits h (not_allocationFails_of_cleanEnv h hclean)
    (removalClean_of_cleanEnv hclean).fits, removalOf, pathRemoval_of_not_mem _ hclean.1,
    pathRemoval_of_not_mem _ hclean.2.1]
  rfl

theorem sameLookups_setEdits_iff (g : Globals) (envp : Option (List CStr)) :
    SameLookups envp ((setEdits g).foldl EnvEdit.apply (envbufMutcopy envp)) ↔
      ∀ p ∈ g.values, envbufGetenv envp p.1.name = some p.2 := by
  have hnd : ((setEdits g).map EnvEdit.var).Nodup := by
    change [EnvVar.jbSandboxExtensions, .jbRootPath, .jbPinfoFlags, .jbTweakLoaderPath].Nodup
    decide
  rw [envbufMutcopy, sameLookups_foldl_iff hnd, setEdits, List.forall_mem_map]
  have hset : ∀ p : EnvVar × CStr,
      envbufGetenv ((EnvEdit.set p.1 p.2).apply envp) p.1.name = some p.2 := by
    intro p
    rw [envbufGetenv_eq_head?, envValues_apply_set, List.head?_cons]
  simp only [EnvEdit.var, hset]

theorem sameLookups_unsetEdits_iff {envp : Option (List CStr)} (hclean : CleanEnv envp) :
    SameLookups envp (unsetEdits.foldl EnvEdit.apply (envbufMutcopy envp)) ↔
      ∀ v ∈ safeModeVars, envbufGetenv envp v.name = (envValues envp v.name).tail.head? := by
  have hsplit : unsetEdits = (safeModeVars ++ unsetCounted).map EnvEdit.unset := rfl
  rw [envbufMutcopy, sameLookups_foldl_iff (by decide), hsplit, List.forall_mem_map,
    List.forall_mem_append]
  have hunset : ∀ v : EnvVar, envbufGetenv ((EnvEdit.unset v).apply envp) v.name =
      (envValues envp v.name).tail.head? := by
    intro v
    rw [envbufGetenv_eq_head?, envValues_apply_unset]
  simp only [EnvEdit.var, hunset]
  refine and_iff_left ?_
  -- the three counted variables are absent before and after
  intro v hv
  have hnone := hclean.2.2 v (by revert v; decide)
  have hnil : envValues envp v.name = [] := by
    rwa [envbufGetenv_eq_head?, List.head?_eq_none_iff] at hnone
  rw [hnone, hnil]
  rfl

/-- An environment in which all six items are counted. -/
def injectedEnv (flags : CStr) : List CStr :=
  ["DYLD_INSERT_LIBRARIES=/cores/binpack/usr/lib/systemhook.dylib".toList,
    "DYLD_LIBRARY_PATH=/cores/binpack/usr/lib/libroot".toList, "JB_SANDBOX_EXTENSIONS=ext".toList,
    "JB_ROOT_PATH=/var/jb".toList, "JB_PINFO_FLAGS=".toList ++ flags,
    "JB_TWEAKLOADER_PATH=@default".toList]

/-- **When the fast path agrees with the rewriting path**: the values it leaves in place are those
that the rewriting branch would set, or nothing that it would unset shows. -/
theorem spawn_fastPath_agrees_iff (h : Host) (g : Globals) (args : SpawnArgs) (path : CStr)
    (hpath : args.path = some path)
    (hgood : alreadyGood (spawnDecision h g args path) (jbEnvOf args.envp) = true) :
    HandsOver (fun envp => ∃ envc, rewriteEnvp h g (spawnDecision h g args path)
        (jbEnvOf args.envp) args.envp = .ok envc ∧ SameLookups envp envc)
      (spawnHookCommon h g args) ↔
      FastPathAgrees g (spawnDecision h g args path) args.envp := by
  rw [spawnHookCommon_of_alreadyGood hpath hgood]
  change (∃ envc, _ ∧ SameLookups args.envp envc) ↔ _
  cases hd : (spawnDecision h g args path).shouldInsertJBEnv with
  | true =>
    have hcount : (jbEnvOf args.envp).alreadyInsertedCount = jbEnvCount := by
      simpa [alreadyGood, hd] using hgood
    have hrewrite : rewriteEnvp h g (spawnDecision h g args path) (jbEnvOf args.envp) args.envp =
        .ok ((setEdits g).foldl EnvEdit.apply (envbufMutcopy args.envp)) := by
      rw [rewriteEnvp, rewriteEdits, if_pos hd, insertEdits_of_counted g hcount]
      rfl
    rw [FastPathAgrees, if_pos hd, ← sameLookups_setEdits_iff, hrewrite]
    simp
  | false =>
    have hclean : CleanEnv args.envp :=
      (cleanEnv_iff_count _).mpr ((alreadyGood_iff_of_not_insert hd _).mp hgood).1
    have hrewrite : rewriteEnvp h g (spawnDecision h g args path) (jbEnvOf args.envp) args.envp =
        .ok (unsetEdits.foldl EnvEdit.apply (envbufMutcopy args.envp)) := by
      rw [rewriteEnvp, rewriteEdits, if_neg (by simp [hd]), removeEdits_of_cleanEnv h hclean]
      rfl
    rw [FastPathAgrees, if_neg (by simp [hd]), ← sameLookups_unsetEdits_iff hclean, hrewrite]
    simp

/-- Forwarding is right when the flags of the caller's environment are the current ones. -/
theorem spawn_fastPath_agrees_current :
    HandsOver (fun envp => ∃ envc, rewriteEnvp plainHost plainGlobals
        (spawnDecision plainHost plainGlobals (spawnOf binLs (injectedEnv "0x1".toList)) binLs)
        (jbEnvOf (some (injectedEnv "0x1".toList))) (some (injectedEnv "0x1".toList)) = .ok envc ∧
        SameLookups envp envc)
      (spawnHookCommon plainHost plainGlobals (spawnOf binLs (injectedEnv "0x1".toList))) := by
  have hd := spawnDecision_binLs (injectedEnv "0x1".toList) (by decide +kernel) (by decide +kernel)
  refine (spawn_fastPath_agrees_iff plainHost plainGlobals
    (spawnOf binLs (injectedEnv "0x1".toList)) binLs rfl ?_).mpr ?_
  · rw [hd]
    decide +kernel
  · rw [hd]
    decide +kernel

/-- Flags that are not the current ones are forwarded where the rewriting branch would set them. -/
theorem spawn_fastPath_stale_flags :
    alreadyGood (spawnDecision plainHost plainGlobals (spawnOf binLs (injectedEnv "0x0".toList))
      binLs) (jbEnvOf (some (injectedEnv "0x0".toList))) = true ∧
    ¬ HandsOver (fun envp => ∃ envc, rewriteEnvp plainHost plainGlobals
        (spawnDecision plainHost plainGlobals (spawnOf binLs (injectedEnv "0x0".toList)) binLs)
        (jbEnvOf (some (injectedEnv "0x0".toList))) (some (injectedEnv "0x0".toList)) = .ok envc ∧
        SameLookups envp envc)
      (spawnHookCommon plainHost plainGlobals (spawnOf binLs (injectedEnv "0x0".toList))) := by
  have hd := spawnDecision_binLs (injectedEnv "0x0".toList) (by decide +kernel) (by decide +kernel)
  have hcount : (jbEnvOf (some (injectedEnv "0x0".toList))).alreadyInsertedCount = jbEnvCount := by
    decide +kernel
  have hgood : alreadyGood (spawnDecision plainHost plainGlobals
      (spawnOf binLs (injectedEnv "0x0".toList)) binLs)
      (jbEnvOf (some (injectedEnv "0x0".toList))) = true := by
    rw [hd, alreadyGood, hcount]
    rfl
  refine ⟨hgood, ?_⟩
  rw [spawnHookCommon_of_alreadyGood rfl hgood, hd]
  rintro ⟨envc, hrewrite, hsame⟩
  rw [rewriteEnvp, rewriteEdits, if_pos rfl, insertEdits_of_counted plainGlobals hcount] at hrewrite
  have hcurrent := (sameLookups_setEdits_iff plainGlobals _).mp (Except.ok.inj hrewrite ▸ hsame)
    (.jbPinfoFlags, "0x1".toList) (by simp [Globals.values, plainGlobals])
  exact absurd hcurrent (by decide +kernel)

end Jbinit.Systemhook

import Jbinit.Systemhook.SpawnRemove

/-!
# Exactly when a spawn that is not injected gets a clean environment

The environment handed to the original `posix_spawn` is clean (`CleanEnv`) when none of the six
items that the hook counts is in it. `handsOver_iff` reduces a property of what a spawn that is not
injected hands over to one of `removedEnv`, and `spawn_handsOver_clean_iff` gives the caller's
environments for which the result is clean.
-/

namespace Jbinit.Systemhook

open Foundations Delimited

/-- What a spawn hands over satisfies `P`. A spawn that returns `ENOMEM` hands nothing over; one
that faults fails. -/
def HandsOver (P : Option (List CStr) → Prop) (r : Except Stop SpawnArgs) : Prop :=
  match r with
  | .ok call => P call.envp
  | .error .enomem => True
  | .error _ => False

instance (P : Option (List CStr) → Prop) [DecidablePred P] (r : Except Stop SpawnArgs) :
    Decidable (HandsOver P r) :=
  match r with
  | .ok call => inferInstanceAs (Decidable (P call.envp))
  | .error .enomem => isTrue trivial
  | .error .nullString => isFalse id
  | .error .overflow => isFalse id
  | .error .invalidAccess => isFalse id

theorem handsOver_error_iff (P : Option (List CStr) → Prop) (stop : Stop) :
    HandsOver P (.error stop) ↔ stop = .enomem := by
  cases stop <;> simp [HandsOver]

/-- A spawn that is not injected hands over the caller's environment if that is already good, and
otherwise what is left of it after the removals. -/
theorem handsOver_iff (P : Option (List CStr) → Prop) (h : Host) (g : Globals) {args : SpawnArgs}
    {path : CStr} (hpath : args.path = some path)
    (hd : (spawnDecision h g args path).shouldInsertJBEnv = false) :
    HandsOver P (spawnHookCommon h g args) ↔
      if alreadyGood (spawnDecision h g args path) (jbEnvOf args.envp) then P args.envp
      else AllocationFails h args.envp ∨
        ¬ AllocationFails h args.envp ∧ RebuildFits args.envp ∧ P (removedEnv args.envp) := by
  cases hgood : alreadyGood (spawnDecision h g args path) (jbEnvOf args.envp) with
  | true =>
    rw [spawnHookCommon_of_alreadyGood hpath hgood, if_pos rfl]
    rfl
  | false =>
    rw [spawnHookCommon_of_not_alreadyGood hpath hgood, if_neg (by simp), rewriteEnvp, rewriteEdits,
      if_neg (by simp [hd])]
    by_cases ha : AllocationFails h args.envp
    · rw [removeEdits_of_allocationFails h ha]
      simp only [error_bind, ha, true_or, iff_true]
      exact trivial
    · by_cases hfit : RebuildFits args.envp
      · rw [removeEdits_of_fits h ha hfit]
        simp only [ok_bind, ha, false_or, not_false_eq_true, hfit, true_and]
        exact Iff.rfl
      · obtain ⟨stop, hstop, hedits⟩ := removeEdits_of_not_fits h ha hfit
        rw [hedits]
        simp only [error_bind, Except.map, handsOver_error_iff, hstop, ha, hfit, false_and,
          and_false, or_self]

/-- The caller's environment is already good: nothing of the jailbreak's is in it. -/
theorem alreadyGood_iff_of_not_insert {d : Decision} (hd : d.shouldInsertJBEnv = false)
    (envp : Option (List CStr)) :
    alreadyGood d (jbEnvOf envp) = true ↔
      (jbEnvOf envp).alreadyInsertedCount = 0 ∧ d.hasSafeModeVariable = false := by
  simp [alreadyGood, hd]

/-! ## A clean environment -/

/-- None of the six counted items is in the environment. -/
def CleanEnv (envp : Option (List CStr)) : Prop :=
  hookDylibPath ∉ listedPaths (envbufGetenv envp EnvVar.dyldInsertLibraries.name) ∧
  librootDylibDirectoryPath ∉ listedPaths (envbufGetenv envp EnvVar.dyldLibraryPath.name) ∧
  ∀ v ∈ countedVars, envbufGetenv envp v.name = none

instance : DecidablePred CleanEnv := fun envp =>
  inferInstanceAs (Decidable (
    hookDylibPath ∉ listedPaths (envbufGetenv envp EnvVar.dyldInsertLibraries.name) ∧
    librootDylibDirectoryPath ∉ listedPaths (envbufGetenv envp EnvVar.dyldLibraryPath.name) ∧
    ∀ v ∈ countedVars, envbufGetenv envp v.name = none))

theorem cleanEnv_iff_count (envp : Option (List CStr)) :
    CleanEnv envp ↔ (jbEnvOf envp).alreadyInsertedCount = 0 := by
  rw [count_eq_zero_iff]
  simp [CleanEnv, jbEnvOf]

/-- The counted variables that the removing branch unsets. -/
def unsetCounted : List EnvVar := [.jbSandboxExtensions, .jbRootPath, .jbPinfoFlags]

/-- The caller's environments that the removing branch leaves clean. -/
structure RemovalClean (envp : Option (List CStr)) : Prop where
  fits : RebuildFits envp
  tweakLoader : envbufGetenv envp EnvVar.jbTweakLoaderPath.name = none
  once : ∀ v ∈ unsetCounted, (envValues envp v.name).length ≤ 1
  insertsBelow : envbufGetenv envp EnvVar.dyldInsertLibraries.name = some hookDylibPath →
    hookDylibPath ∉ listedPaths (envValues envp EnvVar.dyldInsertLibraries.name).tail.head?
  searchPathsBelow : envbufGetenv envp EnvVar.dyldLibraryPath.name = some librootDylibDirectoryPath →
    librootDylibDirectoryPath ∉ listedPaths (envValues envp EnvVar.dyldLibraryPath.name).tail.head?

theorem envValues_unsetEdits {v : EnvVar} (hv : v ∈ unsetCounted) (envc : Option (List CStr)) :
    envValues (unsetEdits.foldl EnvEdit.apply envc) v.name = (envValues envc v.name).tail := by
  have hmem : ∀ v ∈ unsetCounted, EnvEdit.unset v ∈ unsetEdits := by decide
  have hval := envValues_foldl_of_mem (by decide) (hmem v hv) envc
  exact hval.trans (envValues_apply_unset v envc)

theorem getenv_pathEdits {v : EnvVar} (h₁ : v ≠ .dyldInsertLibraries) (h₂ : v ≠ .dyldLibraryPath)
    (envp : Option (List CStr)) (inserts searchPaths a b : Option CStr) (p q : CStr) :
    envValues ((pathRemoval .dyldInsertLibraries p inserts (withoutPath p a) ++
      pathRemoval .dyldLibraryPath q searchPaths (withoutPath q b)).foldl EnvEdit.apply envp)
        v.name = envValues envp v.name := by
  refine envValues_foldl_of_ne ?_ envp
  intro e he
  rcases List.mem_append.mp he with he | he
  · rw [var_of_mem_pathRemoval he]
    exact h₁.symm
  · rw [var_of_mem_pathRemoval he]
    exact h₂.symm

theorem envValues_removedEnv_unset {v : EnvVar} (hv : v ∈ unsetCounted)
    (envp : Option (List CStr)) :
    envValues (removedEnv envp) v.name = (envValues envp v.name).tail := by
  have hne : v ≠ .dyldInsertLibraries ∧ v ≠ .dyldLibraryPath := by
    constructor <;> rintro rfl <;> revert hv <;> decide
  rw [removedEnv, removalOf, List.foldl_append, envValues_unsetEdits hv,
    getenv_pathEdits hne.1 hne.2]
  rfl

theorem getenv_removedEnv_tweakLoader (envp : Option (List CStr)) :
    envbufGetenv (removedEnv envp) EnvVar.jbTweakLoaderPath.name =
      envbufGetenv envp EnvVar.jbTweakLoaderPath.name := by
  have hrest : ∀ e ∈ unsetEdits, e.var ≠ .jbTweakLoaderPath := by decide
  rw [removedEnv, removalOf, List.foldl_append, getenv_foldl_of_ne hrest, envbufGetenv_eq_head?,
    getenv_pathEdits (by decide) (by decide), envbufGetenv_eq_head?]
  rfl

/-- A variable that a path was removed from lists it exactly when the path was its whole value and
the entry below lists it. -/
theorem mem_listedPaths_removed {path : CStr} {existing below : Option CStr} {value : CStr}
    (hvalue : path ∉ listedPaths (some value)) :
    path ∉ listedPaths (if (listedPaths existing).contains path then
        if existing == some path then below else some value else existing) ↔
      (existing = some path → path ∉ listedPaths below) ∨
        (listedPaths existing).contains path = false := by
  cases hlist : (listedPaths existing).contains path with
  | false =>
    have : path ∉ listedPaths existing := by
      intro hmem
      rw [List.contains_iff_mem.mpr hmem] at hlist
      cases hlist
    simpa using this
  | true =>
    by_cases heq : existing = some path
    · simp [heq]
    · simp [heq, hvalue]

theorem not_mem_listedPaths_withoutPath (path : CStr) (paths : Option CStr) :
    path ∉ listedPaths (some (withoutPath path paths)) := by
  rw [listedPaths_withoutPath]
  simp

theorem listedPaths_self {path : CStr} (h : IsComponent ':' path) :
    (listedPaths (some path)).contains path = true := by
  have : listedPaths (some path) = [path] := components_of_isComponent h
  simp [this]

theorem cleanEnv_removedEnv_iff {envp : Option (List CStr)} (hfit : RebuildFits envp) :
    CleanEnv (removedEnv envp) ↔ RemovalClean envp := by
  have hins : hookDylibPath ∉ listedPaths
      (envbufGetenv (removedEnv envp) EnvVar.dyldInsertLibraries.name) ↔
      (envbufGetenv envp EnvVar.dyldInsertLibraries.name = some hookDylibPath → hookDylibPath ∉
        listedPaths (envValues envp EnvVar.dyldInsertLibraries.name).tail.head?) := by
    rw [getenv_removedEnv_inserts,
      mem_listedPaths_removed (not_mem_listedPaths_withoutPath _ _)]
    refine or_iff_left_of_imp fun hlist heq => ?_
    rw [heq, listedPaths_self isComponent_hookDylibPath] at hlist
    cases hlist
  have hpaths : librootDylibDirectoryPath ∉ listedPaths
      (envbufGetenv (removedEnv envp) EnvVar.dyldLibraryPath.name) ↔
      (envbufGetenv envp EnvVar.dyldLibraryPath.name = some librootDylibDirectoryPath →
        librootDylibDirectoryPath ∉
          listedPaths (envValues envp EnvVar.dyldLibraryPath.name).tail.head?) := by
    rw [getenv_removedEnv_searchPaths,
      mem_listedPaths_removed (not_mem_listedPaths_withoutPath _ _)]
    refine or_iff_left_of_imp fun hlist heq => ?_
    rw [heq, listedPaths_self isComponent_librootDylibDirectoryPath] at hlist
    cases hlist
  have hunset : ∀ v ∈ unsetCounted, envbufGetenv (removedEnv envp) v.name = none ↔
      (envValues envp v.name).length ≤ 1 := by
    intro v hv
    rw [envbufGetenv_eq_head?, envValues_removedEnv_unset hv, List.head?_eq_none_iff,
      ← List.length_eq_zero_iff, List.length_tail]
    omega
  have hcounted : (∀ v ∈ countedVars, envbufGetenv (removedEnv envp) v.name = none) ↔
      (∀ v ∈ unsetCounted, (envValues envp v.name).length ≤ 1) ∧
        envbufGetenv envp EnvVar.jbTweakLoaderPath.name = none := by
    have hsplit : countedVars = unsetCounted ++ [.jbTweakLoaderPath] := rfl
    rw [hsplit, List.forall_mem_append]
    refine and_congr (forall₂_congr hunset) ?_
    simp only [List.mem_singleton, forall_eq, getenv_removedEnv_tweakLoader]
  rw [CleanEnv, hins, hpaths, hcounted]
  constructor
  · rintro ⟨h₁, h₂, h₃, h₄⟩
    exact ⟨hfit, h₄, h₃, h₁, h₂⟩
  · intro hclean
    exact ⟨hclean.insertsBelow, hclean.searchPathsBelow, hclean.once, hclean.tweakLoader⟩

/-- Neither of the two variables is the jailbreak's path alone. -/
theorem CleanEnv.inserts_ne {envp : Option (List CStr)} (hclean : CleanEnv envp) :
    envbufGetenv envp EnvVar.dyldInsertLibraries.name ≠ some hookDylibPath := by
  intro heq
  have hins := hclean.1
  rw [heq] at hins
  exact absurd (List.contains_iff_mem.mp (listedPaths_self isComponent_hookDylibPath)) hins

theorem CleanEnv.searchPaths_ne {envp : Option (List CStr)} (hclean : CleanEnv envp) :
    envbufGetenv envp EnvVar.dyldLibraryPath.name ≠ some librootDylibDirectoryPath := by
  intro heq
  have hpaths := hclean.2.1
  rw [heq] at hpaths
  exact absurd (List.contains_iff_mem.mp
    (listedPaths_self isComponent_librootDylibDirectoryPath)) hpaths

/-- An environment that nothing is counted in is left clean by the removing branch as well. -/
theorem removalClean_of_cleanEnv {envp : Option (List CStr)} (hclean : CleanEnv envp) :
    RemovalClean envp := by
  have hpaths := hclean.2.1
  have hvars := hclean.2.2
  refine ⟨?_, hvars _ (by decide), ?_, fun heq => absurd heq hclean.inserts_ne,
    fun heq => absurd heq hclean.searchPaths_ne⟩
  · intro paths hget hn
    rw [hget] at hpaths
    exact absurd hn.1 hpaths
  · intro v hv
    have hnone := hvars v (by revert v; decide)
    rw [envbufGetenv_eq_head?, List.head?_eq_none_iff] at hnone
    simp [hnone]

/-- No allocation is asked for when neither path is listed. -/
theorem not_allocationFails_of_cleanEnv (h : Host) {envp : Option (List CStr)}
    (hclean : CleanEnv envp) : ¬ AllocationFails h envp := by
  rintro ⟨v, path, paths, hv, hget, hn, -⟩
  simp only [List.mem_cons, Prod.mk.injEq, List.not_mem_nil, or_false] at hv
  rcases hv with ⟨rfl, rfl⟩ | ⟨rfl, rfl⟩
  · have := hclean.1
    rw [hget] at this
    exact this hn.1
  · have := hclean.2.1
    rw [hget] at this
    exact this hn.1

/-- **When a spawn that is not injected gets a clean environment**: a buffer was refused, or the
removals leave the caller's environment clean. -/
theorem spawn_handsOver_clean_iff (h : Host) (g : Globals) (args : SpawnArgs) (path : CStr)
    (hpath : args.path = some path)
    (hd : (spawnDecision h g args path).shouldInsertJBEnv = false) :
    HandsOver CleanEnv (spawnHookCommon h g args) ↔
      AllocationFails h args.envp ∨ RemovalClean args.envp := by
  rw [handsOver_iff CleanEnv h g hpath hd]
  split_ifs with hgood
  · have hclean := (cleanEnv_iff_count _).mpr ((alreadyGood_iff_of_not_insert hd _).mp hgood).1
    simp only [hclean, removalClean_of_cleanEnv hclean, or_true]
  · by_cases ha : AllocationFails h args.envp
    · simp only [ha, true_or]
    · simp only [ha, false_or, not_false_eq_true, true_and]
      constructor
      · rintro ⟨hfit, hclean⟩
        exact (cleanEnv_removedEnv_iff hfit).mp hclean
      · intro hclean
        exact ⟨hclean.fits, (cleanEnv_removedEnv_iff hclean.fits).mpr hclean⟩

/-- Flags and a request for safe mode are removed. -/
theorem spawn_handsOver_clean_flags :
    HandsOver CleanEnv (spawnHookCommon plainHost plainGlobals
      (spawnOf wifid ["JB_PINFO_FLAGS=0x1".toList, "_SafeMode=1".toList])) := by
  refine (spawn_handsOver_clean_iff plainHost plainGlobals (spawnOf wifid _) wifid rfl
    (by decide +kernel)).mpr (Or.inr ⟨?_, ?_, ?_, ?_, ?_⟩)
  · intro paths hget
    have hnone : envbufGetenv (spawnOf wifid ["JB_PINFO_FLAGS=0x1".toList, "_SafeMode=1".toList]).envp
        EnvVar.dyldLibraryPath.name = none := by decide +kernel
    rw [hnone] at hget
    cases hget
  all_goals decide +kernel

/-- The path of the tweak loader is handed on to a binary that is not injected. -/
theorem spawn_leaks_tweakLoader :
    (spawnDecision plainHost plainGlobals
      (spawnOf wifid ["JB_TWEAKLOADER_PATH=@default".toList]) wifid).shouldInsertJBEnv = false ∧
    ¬ HandsOver CleanEnv (spawnHookCommon plainHost plainGlobals
      (spawnOf wifid ["JB_TWEAKLOADER_PATH=@default".toList])) := by
  decide +kernel

end Jbinit.Systemhook

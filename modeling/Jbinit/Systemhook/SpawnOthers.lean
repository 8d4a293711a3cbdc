import Jbinit.Systemhook.SpawnClean

/-!
# Exactly when a spawn that is not injected keeps the paths of others

The environment handed over keeps everyone else's paths (`KeepsOthers`) when each of the two path
variables has lost the jailbreak's path and nothing else. The new `DYLD_LIBRARY_PATH` is built from
the components of `DYLD_INSERT_LIBRARIES`, so that this is a condition on how the two variables
relate (`RemovalExact`). It bounds what is written: the components that stay are components of the
variable the buffer was sized for.
-/

namespace Jbinit.Systemhook

open Foundations Delimited

/-- The two path variables of `envp'` are those of `envp` without the jailbreak's paths. -/
def KeepsOthers (envp envp' : Option (List CStr)) : Prop :=
  listedPaths (envbufGetenv envp' EnvVar.dyldInsertLibraries.name) =
    (listedPaths (envbufGetenv envp EnvVar.dyldInsertLibraries.name)).filter (· != hookDylibPath) ∧
  listedPaths (envbufGetenv envp' EnvVar.dyldLibraryPath.name) =
    (listedPaths (envbufGetenv envp EnvVar.dyldLibraryPath.name)).filter
      (· != librootDylibDirectoryPath)

instance (envp : Option (List CStr)) : DecidablePred (KeepsOthers envp) := fun envp' =>
  inferInstanceAs (Decidable (
    listedPaths (envbufGetenv envp' EnvVar.dyldInsertLibraries.name) =
      (listedPaths (envbufGetenv envp EnvVar.dyldInsertLibraries.name)).filter (· != hookDylibPath) ∧
    listedPaths (envbufGetenv envp' EnvVar.dyldLibraryPath.name) =
      (listedPaths (envbufGetenv envp EnvVar.dyldLibraryPath.name)).filter
        (· != librootDylibDirectoryPath)))

/-- The caller's environments from which the removing branch takes the jailbreak's paths only. -/
structure RemovalExact (envp : Option (List CStr)) : Prop where
  insertsBelow : envbufGetenv envp EnvVar.dyldInsertLibraries.name = some hookDylibPath →
    listedPaths (envValues envp EnvVar.dyldInsertLibraries.name).tail.head? = []
  searchPathsBelow : envbufGetenv envp EnvVar.dyldLibraryPath.name = some librootDylibDirectoryPath →
    listedPaths (envValues envp EnvVar.dyldLibraryPath.name).tail.head? = []
  sameRest : NeedsRebuild (envbufGetenv envp EnvVar.dyldLibraryPath.name)
      librootDylibDirectoryPath →
    ∃ inserts, envbufGetenv envp EnvVar.dyldInsertLibraries.name = some inserts ∧
      (listedPaths (some inserts)).filter (· != librootDylibDirectoryPath) =
        (listedPaths (envbufGetenv envp EnvVar.dyldLibraryPath.name)).filter
          (· != librootDylibDirectoryPath)

/-- What is left of a list of paths in which `path` does not occur. -/
theorem filter_ne_of_not_mem {path : CStr} {paths : List CStr} (h : path ∉ paths) :
    paths.filter (· != path) = paths := by
  rw [List.filter_eq_self]
  intro c hc
  exact bne_iff_ne.mpr (ne_of_mem_of_not_mem hc h)

/-- A variable that a path was removed from has kept the rest exactly when a value that was the path
alone hides no other paths, and a rebuilt value lists the right ones. -/
theorem listedPaths_removed_iff {path value : CStr} (hpath : IsComponent ':' path)
    (existing below : Option CStr) :
    listedPaths (if (listedPaths existing).contains path then
        if existing == some path then below else some value else existing) =
        (listedPaths existing).filter (· != path) ↔
      (existing = some path → listedPaths below = []) ∧
        (NeedsRebuild existing path →
          listedPaths (some value) = (listedPaths existing).filter (· != path)) := by
  by_cases hmem : path ∈ listedPaths existing
  · rw [if_pos (List.contains_iff_mem.mpr hmem)]
    by_cases heq : existing = some path
    · subst heq
      have hself : listedPaths (some path) = [path] := components_of_isComponent hpath
      simp [NeedsRebuild, hself]
    · rw [if_neg (by simpa using heq)]
      constructor
      · intro hvalue
        exact ⟨fun h => absurd h heq, fun _ => hvalue⟩
      · rintro ⟨-, hvalue⟩
        exact hvalue ⟨hmem, heq⟩
  · have hnot : ¬ (listedPaths existing).contains path = true := by simpa using hmem
    rw [if_neg hnot, filter_ne_of_not_mem hmem]
    have hne : existing ≠ some path := by
      rintro rfl
      exact hnot (listedPaths_self hpath)
    exact ⟨fun _ => ⟨fun h => absurd h hne, fun hn => absurd hn.1 hmem⟩, fun _ => rfl⟩

/-- If the rest of the two variables is the same, the second rebuild fits. -/
theorem RemovalExact.fits {envp : Option (List CStr)} (hexact : RemovalExact envp) :
    RebuildFits envp := by
  intro paths hget hn
  obtain ⟨inserts, hins, hrest⟩ := hexact.sameRest (hget ▸ hn)
  refine ⟨inserts, hins, ?_⟩
  have hsame : withoutPath librootDylibDirectoryPath (some inserts) =
      withoutPath librootDylibDirectoryPath (some paths) := by
    rw [withoutPath, hrest, hget, withoutPath]
  rw [hsame]
  exact length_withoutPath_le _ paths

/-- The removals keep the paths of others under the condition on the caller's environment. -/
theorem keepsOthers_removedEnv_iff {envp : Option (List CStr)} (hfit : RebuildFits envp) :
    KeepsOthers envp (removedEnv envp) ↔ RemovalExact envp := by
  rw [KeepsOthers, getenv_removedEnv_inserts, getenv_removedEnv_searchPaths,
    listedPaths_removed_iff isComponent_hookDylibPath,
    listedPaths_removed_iff isComponent_librootDylibDirectoryPath]
  simp only [listedPaths_withoutPath, implies_true, and_true]
  constructor
  · rintro ⟨hins, hpaths, hrest⟩
    refine ⟨hins, hpaths, ?_⟩
    intro hn
    cases hget : envbufGetenv envp EnvVar.dyldLibraryPath.name with
    | none =>
      rw [hget] at hn
      exact absurd hn.1 (by simp [listedPaths])
    | some paths =>
      obtain ⟨inserts, hinserts, -⟩ := hfit paths hget (hget ▸ hn)
      have hsame := hrest hn
      rw [hinserts, hget] at hsame
      exact ⟨inserts, hinserts, hsame⟩
  · intro hexact
    refine ⟨hexact.insertsBelow, hexact.searchPathsBelow, ?_⟩
    intro hn
    obtain ⟨inserts, hinserts, hsame⟩ := hexact.sameRest hn
    rw [hinserts, hsame]

/-- Where neither path is listed there is nothing to remove. -/
theorem keepsOthers_self_of_cleanEnv {envp : Option (List CStr)} (hclean : CleanEnv envp) :
    KeepsOthers envp envp :=
  ⟨(filter_ne_of_not_mem hclean.1).symm, (filter_ne_of_not_mem hclean.2.1).symm⟩

theorem removalExact_of_cleanEnv {envp : Option (List CStr)} (hclean : CleanEnv envp) :
    RemovalExact envp where
  insertsBelow heq := absurd heq hclean.inserts_ne
  searchPathsBelow heq := absurd heq hclean.searchPaths_ne
  sameRest hn := absurd hn.1 hclean.2.1

/-- **When a spawn that is not injected keeps the paths of others**, without a fault: a buffer was
refused, or the two path variables relate as `RemovalExact` says. -/
theorem spawn_handsOver_keepsOthers_iff (h : Host) (g : Globals) (args : SpawnArgs) (path : CStr)
    (hpath : args.path = some path)
    (hd : (spawnDecision h g args path).shouldInsertJBEnv = false) :
    HandsOver (KeepsOthers args.envp) (spawnHookCommon h g args) ↔
      AllocationFails h args.envp ∨ RemovalExact args.envp := by
  rw [handsOver_iff (KeepsOthers args.envp) h g hpath hd]
  split_ifs with hgood
  · have hclean := (cleanEnv_iff_count _).mpr ((alreadyGood_iff_of_not_insert hd _).mp hgood).1
    simp only [keepsOthers_self_of_cleanEnv hclean, removalExact_of_cleanEnv hclean, or_true]
  · by_cases ha : AllocationFails h args.envp
    · simp only [ha, true_or]
    · simp only [ha, false_or, not_false_eq_true, true_and]
      constructor
      · rintro ⟨hfit, hkeeps⟩
        exact (keepsOthers_removedEnv_iff hfit).mp hkeeps
      · intro hexact
        exact ⟨hexact.fits, (keepsOthers_removedEnv_iff hexact.fits).mpr hexact⟩

/-- The libraries around the hook stay inserted, in order. -/
theorem spawn_handsOver_keepsOthers_inserts :
    HandsOver (KeepsOthers (some [("DYLD_INSERT_LIBRARIES=/a:" ++
        "/cores/binpack/usr/lib/systemhook.dylib:/b").toList]))
      (spawnHookCommon plainHost plainGlobals (spawnOf wifid [("DYLD_INSERT_LIBRARIES=/a:" ++
        "/cores/binpack/usr/lib/systemhook.dylib:/b").toList])) := by
  refine (spawn_handsOver_keepsOthers_iff plainHost plainGlobals (spawnOf wifid _) wifid rfl
    (by decide +kernel)).mpr (Or.inr ⟨?_, ?_, ?_⟩)
  · decide +kernel
  · decide +kernel
  · intro hn
    have hnot : librootDylibDirectoryPath ∉ listedPaths (envbufGetenv
        (spawnOf wifid [("DYLD_INSERT_LIBRARIES=/a:" ++
          "/cores/binpack/usr/lib/systemhook.dylib:/b").toList]).envp
        EnvVar.dyldLibraryPath.name) := by decide +kernel
    exact absurd hn.1 hnot

/-- With both variables set, the search path `/a` is replaced by the inserted library. -/
theorem spawn_loses_searchPath :
    (spawnDecision plainHost plainGlobals (spawnOf wifid ["DYLD_INSERT_LIBRARIES=/lib".toList,
      "DYLD_LIBRARY_PATH=/cores/binpack/usr/lib/libroot:/a".toList]) wifid).shouldInsertJBEnv =
      false ∧
    ¬ HandsOver (KeepsOthers (some ["DYLD_INSERT_LIBRARIES=/lib".toList,
        "DYLD_LIBRARY_PATH=/cores/binpack/usr/lib/libroot:/a".toList]))
      (spawnHookCommon plainHost plainGlobals (spawnOf wifid ["DYLD_INSERT_LIBRARIES=/lib".toList,
        "DYLD_LIBRARY_PATH=/cores/binpack/usr/lib/libroot:/a".toList])) := by
  decide +kernel

end Jbinit.Systemhook

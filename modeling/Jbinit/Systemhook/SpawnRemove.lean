import Jbinit.Systemhook.SpawnSpec

/-!
# Spawns that are not injected

When `spawn_hook_common` decides not to inject, the environment it hands over is to hold nothing of
the jailbreak's own (`CleanEnv`) and everything of everyone else's (`KeepsOthers`). The rewriting
branch does neither in all cases. It never unsets `JB_TWEAKLOADER_PATH`, `envbuf_unsetenv` uncovers
a second entry of the same name, and the new `DYLD_LIBRARY_PATH` is built from the components of
`DYLD_INSERT_LIBRARIES`, which may be unset and need not fit.

`removeEdits_of_fits`, `removeEdits_of_allocationFails` and `removeEdits_of_not_fits` say which
edits the branch makes and when it makes none; `getenv_pathRemoval` says what a removal leaves in
its variable.
-/

namespace Jbinit.Systemhook

open Foundations Delimited

/-! ## The edits of the branch -/

/-- A removal that needs a buffer and is refused one. -/
def AllocationFails (h : Host) (envp : Option (List CStr)) : Prop :=
  ∃ v path paths, (v, path) ∈ [(EnvVar.dyldInsertLibraries, hookDylibPath),
      (EnvVar.dyldLibraryPath, librootDylibDirectoryPath)] ∧
    envbufGetenv envp v.name = some paths ∧ NeedsRebuild (some paths) path ∧
    h.malloc (paths.length + 1) = false

/-- If `DYLD_LIBRARY_PATH` has to be rebuilt, then `DYLD_INSERT_LIBRARIES` is set and what is
written fits the buffer. -/
def RebuildFits (envp : Option (List CStr)) : Prop :=
  ∀ paths, envbufGetenv envp EnvVar.dyldLibraryPath.name = some paths →
    NeedsRebuild (some paths) librootDylibDirectoryPath →
    ∃ inserts, envbufGetenv envp EnvVar.dyldInsertLibraries.name = some inserts ∧
      (withoutPath librootDylibDirectoryPath (some inserts)).length ≤ paths.length

/-- The edits that remove `path` from a variable; `value` is what a rebuilt variable is set to. -/
def pathRemoval (v : EnvVar) (path : CStr) (existing : Option CStr) (value : CStr) :
    List EnvEdit :=
  if (listedPaths existing).contains path then
    if existing == some path then [.unset v] else [.set v value]
  else []

/-- The five variables the branch unsets. -/
def unsetEdits : List EnvEdit :=
  [.unset .safeMode, .unset .msSafeMode, .unset .jbSandboxExtensions, .unset .jbRootPath,
    .unset .jbPinfoFlags]

/-- All edits of the branch, where nothing goes wrong. -/
def removalOf (envp : Option (List CStr)) : List EnvEdit :=
  let inserts := envbufGetenv envp EnvVar.dyldInsertLibraries.name
  let searchPaths := envbufGetenv envp EnvVar.dyldLibraryPath.name
  pathRemoval .dyldInsertLibraries hookDylibPath inserts
      (withoutPath hookDylibPath inserts) ++
    pathRemoval .dyldLibraryPath librootDylibDirectoryPath searchPaths
      (withoutPath librootDylibDirectoryPath inserts) ++
    unsetEdits

theorem needsRebuild_iff {paths path : CStr} :
    NeedsRebuild (some paths) path ↔
      (listedPaths (some paths)).contains path = true ∧ paths ≠ path := by
  simp [NeedsRebuild]

/-- The removal of a path when its variable need not be rebuilt. -/
theorem removePath_of_not_needsRebuild (h : Host) (v : EnvVar) {path : CStr}
    {existing : Option CStr} (hn : ¬ NeedsRebuild existing path) (enum : Option CStr)
    (value : CStr) :
    removePath h v path existing ((listedPaths existing).contains path) enum =
      .ok (pathRemoval v path existing value) := by
  cases hlist : (listedPaths existing).contains path with
  | false =>
    rw [removePath_of_not_listed, pathRemoval, hlist]
    rfl
  | true =>
    have heq : existing = some path := by
      by_contra hne
      exact hn ⟨by simpa using hlist, hne⟩
    subst heq
    rw [removePath_of_eq, pathRemoval, hlist]
    simp

theorem pathRemoval_of_needsRebuild (v : EnvVar) {path : CStr} {existing : Option CStr}
    (hn : NeedsRebuild existing path) (value : CStr) :
    pathRemoval v path existing value = [.set v value] := by
  have hlist : (listedPaths existing).contains path = true := by simpa using hn.1
  rw [pathRemoval, if_pos hlist, if_neg (by simpa using hn.2)]

/-- The removal of a path from a variable that is rebuilt from `enum`. -/
theorem removePath_of_needsRebuild (h : Host) (v : EnvVar) {path paths : CStr}
    (hn : NeedsRebuild (some paths) path) (enum : Option CStr) :
    removePath h v path (some paths) ((listedPaths (some paths)).contains path) enum =
      if h.malloc (paths.length + 1) then
        (rebuild path (paths.length + 1) enum).map fun value => [.set v value]
      else .error .enomem := by
  obtain ⟨hlist, hne⟩ := needsRebuild_iff.mp hn
  rw [hlist, removePath_of_ne h v hne]

/-- The first removal enumerates its own variable: only an allocation can stop it. -/
theorem removePath_inserts (h : Host) {envp : Option (List CStr)} (ha : ¬ AllocationFails h envp) :
    removePath h .dyldInsertLibraries hookDylibPath (jbEnvOf envp).existingLibraryInserts
        (jbEnvOf envp).systemHookAlreadyInserted (jbEnvOf envp).existingLibraryInserts =
      .ok (pathRemoval .dyldInsertLibraries hookDylibPath
        (envbufGetenv envp EnvVar.dyldInsertLibraries.name)
        (withoutPath hookDylibPath (envbufGetenv envp EnvVar.dyldInsertLibraries.name))) := by
  simp only [jbEnvOf]
  by_cases hn : NeedsRebuild (envbufGetenv envp EnvVar.dyldInsertLibraries.name) hookDylibPath
  · rw [pathRemoval_of_needsRebuild _ hn]
    cases hget : envbufGetenv envp EnvVar.dyldInsertLibraries.name with
    | none =>
      rw [hget] at hn
      simp [NeedsRebuild, listedPaths] at hn
    | some paths =>
      rw [hget] at hn
      have hmalloc : h.malloc (paths.length + 1) = true := by
        by_contra hm
        exact ha ⟨_, _, paths, by simp, hget, hn, by simpa using hm⟩
      rw [removePath_of_needsRebuild h _ hn, if_pos hmalloc, rebuild_self]
      rfl
  · exact removePath_of_not_needsRebuild h _ hn _ _

/-- The edits of the branch, when no allocation fails and the second rebuild fits. -/
theorem removeEdits_of_fits (h : Host) {envp : Option (List CStr)}
    (ha : ¬ AllocationFails h envp) (hfit : RebuildFits envp) :
    removeEdits h (jbEnvOf envp) = .ok (removalOf envp) := by
  have hsecond : removePath h .dyldLibraryPath librootDylibDirectoryPath
        (jbEnvOf envp).existingLibrarySearchPaths (jbEnvOf envp).librootDirectoryPathAlreadySearched
        (jbEnvOf envp).existingLibraryInserts =
      .ok (pathRemoval .dyldLibraryPath librootDylibDirectoryPath
        (envbufGetenv envp EnvVar.dyldLibraryPath.name)
        (withoutPath librootDylibDirectoryPath
          (envbufGetenv envp EnvVar.dyldInsertLibraries.name))) := by
    simp only [jbEnvOf]
    by_cases hn : NeedsRebuild (envbufGetenv envp EnvVar.dyldLibraryPath.name)
        librootDylibDirectoryPath
    · rw [pathRemoval_of_needsRebuild _ hn]
      cases hget : envbufGetenv envp EnvVar.dyldLibraryPath.name with
      | none =>
        rw [hget] at hn
        simp [NeedsRebuild, listedPaths] at hn
      | some paths =>
        rw [hget] at hn
        obtain ⟨inserts, hins, hle⟩ := hfit paths hget hn
        have hmalloc : h.malloc (paths.length + 1) = true := by
          by_contra hm
          exact ha ⟨_, _, paths, by simp, hget, hn, by simpa using hm⟩
        have hlt : (withoutPath librootDylibDirectoryPath (some inserts)).length <
            paths.length + 1 := by
          omega
        rw [removePath_of_needsRebuild h _ hn, if_pos hmalloc, hins,
          rebuild_eq, if_pos hlt]
        rfl
    · exact removePath_of_not_needsRebuild h _ hn _ _
  rw [removeEdits, removePath_inserts h ha, hsecond]
  rfl

theorem removeEdits_of_allocationFails (h : Host) {envp : Option (List CStr)}
    (ha : AllocationFails h envp) : removeEdits h (jbEnvOf envp) = .error .enomem := by
  by_cases hfirst : ∃ paths, envbufGetenv envp EnvVar.dyldInsertLibraries.name = some paths ∧
      NeedsRebuild (some paths) hookDylibPath ∧ h.malloc (paths.length + 1) = false
  · obtain ⟨paths, hget, hn, hm⟩ := hfirst
    have hstop := removePath_of_needsRebuild h .dyldInsertLibraries hn (some paths)
    rw [if_neg (by simp [hm])] at hstop
    simp only [removeEdits, jbEnvOf, hget, hstop, error_bind]
  · -- the first removal goes through, so it is the second that is refused its buffer
    obtain ⟨v, path, paths, hv, hget, hn, hm⟩ := ha
    simp only [List.mem_cons, Prod.mk.injEq, List.not_mem_nil, or_false] at hv
    obtain ⟨rfl, rfl⟩ | ⟨rfl, rfl⟩ := hv
    · exact absurd ⟨paths, hget, hn, hm⟩ hfirst
    · have hstop : ∀ enum, removePath h .dyldLibraryPath librootDylibDirectoryPath (some paths)
          ((listedPaths (some paths)).contains librootDylibDirectoryPath) enum =
          .error .enomem := by
        intro enum
        rw [removePath_of_needsRebuild h _ hn, if_neg (by simp [hm])]
      have hok : ∃ edits, removePath h .dyldInsertLibraries hookDylibPath
          (jbEnvOf envp).existingLibraryInserts (jbEnvOf envp).systemHookAlreadyInserted
          (jbEnvOf envp).existingLibraryInserts = .ok edits := by
        simp only [jbEnvOf]
        by_cases hn' : NeedsRebuild (envbufGetenv envp EnvVar.dyldInsertLibraries.name)
            hookDylibPath
        · cases hget' : envbufGetenv envp EnvVar.dyldInsertLibraries.name with
          | none =>
            rw [hget'] at hn'
            simp [NeedsRebuild, listedPaths] at hn'
          | some paths' =>
            rw [hget'] at hn'
            have hmalloc : h.malloc (paths'.length + 1) = true := by
              by_contra hm'
              exact hfirst ⟨paths', hget', hn', by simpa using hm'⟩
            rw [removePath_of_needsRebuild h _ hn', if_pos hmalloc, rebuild_self]
            exact ⟨_, rfl⟩
        · exact ⟨_, removePath_of_not_needsRebuild h _ hn' _ []⟩
      obtain ⟨edits, hedits⟩ := hok
      rw [removeEdits, hedits]
      simp only [jbEnvOf, hget, hstop, ok_bind, error_bind]

/-- Otherwise the second rebuild faults, on a NULL string or past the end of its buffer. -/
theorem removeEdits_of_not_fits (h : Host) {envp : Option (List CStr)}
    (ha : ¬ AllocationFails h envp) (hfit : ¬ RebuildFits envp) :
    ∃ stop, stop ≠ Stop.enomem ∧ removeEdits h (jbEnvOf envp) = .error stop := by
  simp only [RebuildFits, not_forall] at hfit
  obtain ⟨paths, hget, hn, hnot⟩ := hfit
  have hmalloc : h.malloc (paths.length + 1) = true := by
    by_contra hm
    exact ha ⟨_, _, paths, by simp, hget, hn, by simpa using hm⟩
  have hsecond := removePath_of_needsRebuild h .dyldLibraryPath hn
    (envbufGetenv envp EnvVar.dyldInsertLibraries.name)
  rw [if_pos hmalloc] at hsecond
  cases hins : envbufGetenv envp EnvVar.dyldInsertLibraries.name with
  | none =>
    refine ⟨.nullString, by simp, ?_⟩
    rw [hins] at hsecond
    rw [removeEdits, removePath_inserts h ha]
    simp only [jbEnvOf, hget, hins, hsecond, ok_bind]
    rfl
  | some inserts =>
    have hlong : ¬ (withoutPath librootDylibDirectoryPath (some inserts)).length <
        paths.length + 1 := by
      intro hlt
      exact hnot ⟨inserts, hins, by omega⟩
    refine ⟨.overflow, by simp, ?_⟩
    rw [hins, rebuild_eq] at hsecond
    rw [removeEdits, removePath_inserts h ha]
    simp only [jbEnvOf, hget, hins, hsecond, ok_bind]
    rw [if_neg hlong]
    rfl

/-! ## What the edits leave -/

theorem var_of_mem_pathRemoval {v : EnvVar} {path value : CStr} {existing : Option CStr}
    {e : EnvEdit} (he : e ∈ pathRemoval v path existing value) : e.var = v := by
  unfold pathRemoval at he
  split_ifs at he
  · rw [List.mem_singleton.mp he]
    rfl
  · rw [List.mem_singleton.mp he]
    rfl
  · cases he

/-- The value of a variable that a path was removed from. -/
theorem getenv_pathRemoval (v : EnvVar) (path value : CStr) (envc : Option (List CStr)) :
    envbufGetenv ((pathRemoval v path (envbufGetenv envc v.name) value).foldl EnvEdit.apply envc)
        v.name =
      if (listedPaths (envbufGetenv envc v.name)).contains path then
        if envbufGetenv envc v.name == some path then (envValues envc v.name).tail.head?
        else some value
      else envbufGetenv envc v.name := by
  unfold pathRemoval
  split_ifs with hlist heq
  · simp only [List.foldl_cons, List.foldl_nil, envbufGetenv_eq_head?, envValues_apply_unset]
  · simp only [List.foldl_cons, List.foldl_nil, envbufGetenv_eq_head?, envValues_apply_set,
      List.head?_cons]
  · rfl

/-- The environment that the branch builds from a caller's environment. -/
def removedEnv (envp : Option (List CStr)) : Option (List CStr) :=
  (removalOf envp).foldl EnvEdit.apply (envbufMutcopy envp)

theorem getenv_removedEnv_inserts (envp : Option (List CStr)) :
    envbufGetenv (removedEnv envp) EnvVar.dyldInsertLibraries.name =
      if (listedPaths (envbufGetenv envp EnvVar.dyldInsertLibraries.name)).contains
          hookDylibPath then
        if envbufGetenv envp EnvVar.dyldInsertLibraries.name == some hookDylibPath then
          (envValues envp EnvVar.dyldInsertLibraries.name).tail.head?
        else some (withoutPath hookDylibPath (envbufGetenv envp EnvVar.dyldInsertLibraries.name))
      else envbufGetenv envp EnvVar.dyldInsertLibraries.name := by
  have hrest : ∀ e ∈ unsetEdits, e.var ≠ .dyldInsertLibraries := by decide
  simp only [removedEnv, removalOf, List.foldl_append]
  rw [getenv_foldl_of_ne hrest, getenv_foldl_of_ne fun e he => by
    rw [var_of_mem_pathRemoval he]
    decide]
  exact getenv_pathRemoval .dyldInsertLibraries _ _ (envbufMutcopy envp)

theorem getenv_removedEnv_searchPaths (envp : Option (List CStr)) :
    envbufGetenv (removedEnv envp) EnvVar.dyldLibraryPath.name =
      if (listedPaths (envbufGetenv envp EnvVar.dyldLibraryPath.name)).contains
          librootDylibDirectoryPath then
        if envbufGetenv envp EnvVar.dyldLibraryPath.name == some librootDylibDirectoryPath then
          (envValues envp EnvVar.dyldLibraryPath.name).tail.head?
        else some (withoutPath librootDylibDirectoryPath
          (envbufGetenv envp EnvVar.dyldInsertLibraries.name))
      else envbufGetenv envp EnvVar.dyldLibraryPath.name := by
  have hrest : ∀ e ∈ unsetEdits, e.var ≠ .dyldLibraryPath := by decide
  set inserts := envbufGetenv envp EnvVar.dyldInsertLibraries.name with hins
  have hfirst : ∀ e ∈ pathRemoval .dyldInsertLibraries hookDylibPath inserts
      (withoutPath hookDylibPath inserts), e.var ≠ .dyldLibraryPath := by
    intro e he
    rw [var_of_mem_pathRemoval he]
    decide
  simp only [removedEnv, removalOf, List.foldl_append]
  rw [getenv_foldl_of_ne hrest]
  have h := getenv_pathRemoval .dyldLibraryPath librootDylibDirectoryPath
    (withoutPath librootDylibDirectoryPath inserts) ((pathRemoval .dyldInsertLibraries
      hookDylibPath inserts (withoutPath hookDylibPath inserts)).foldl EnvEdit.apply envp)
  rw [getenv_foldl_of_ne hfirst envp, envValues_foldl_of_ne hfirst envp] at h
  exact h

end Jbinit.Systemhook

import Jbinit.Systemhook.SpawnHeap

/-!
# Spawns that are injected

When `spawn_hook_common` decides to inject, the new process finds everything systemhook's
initializer reads, and loses nothing of what it was given (`Injected`): both paths are listed, what
the two path variables listed is listed in the same order, the four variables are set, and apart
from the entries that a look-up of one of these six variables finds, the environment is the same
list of strings. `spawnHookCommon_injects` is about lists; `spawn_injects` is about the caller's
memory, which is not touched.
-/

namespace Jbinit.Systemhook

open Foundations Delimited Blocks

/-- The variables that an injection sets. -/
def injectedVars : List EnvVar := .dyldInsertLibraries :: .dyldLibraryPath :: countedVars

/-- The entries that remain when the first entry of each of the variables is taken out. -/
def otherEntries (vars : List EnvVar) (l : List CStr) : List CStr :=
  vars.foldl (fun l v => l.eraseP (namedBy v.name)) l

/-- The environment `envc` is `envp` with the jailbreak's state inserted. -/
structure Injected (envp envc : Option (List CStr)) : Prop where
  hook : hookDylibPath ∈ listedPaths (envbufGetenv envc EnvVar.dyldInsertLibraries.name)
  libroot : librootDylibDirectoryPath ∈ listedPaths (envbufGetenv envc EnvVar.dyldLibraryPath.name)
  inserts : (listedPaths (envbufGetenv envp EnvVar.dyldInsertLibraries.name)).Sublist
    (listedPaths (envbufGetenv envc EnvVar.dyldInsertLibraries.name))
  searchPaths : (listedPaths (envbufGetenv envp EnvVar.dyldLibraryPath.name)).Sublist
    (listedPaths (envbufGetenv envc EnvVar.dyldLibraryPath.name))
  counted : ∀ v ∈ countedVars, (envbufGetenv envc v.name).isSome = true
  others : otherEntries injectedVars (entries envc) = otherEntries injectedVars (entries envp)

/-! ## The other entries -/

/-- Setting one of the variables does not touch the other entries. -/
theorem otherEntries_put {v : EnvVar} (value : CStr) {vars : List EnvVar} (hv : v ∈ vars)
    (l : List CStr) :
    otherEntries vars (FirstMatch.put (namedBy v.name) (v.name ++ '=' :: value) l) =
      otherEntries vars l := by
  induction vars generalizing l with
  | nil => cases hv
  | cons w vars ih =>
    unfold otherEntries
    rw [List.foldl_cons, List.foldl_cons]
    by_cases hw : v = w
    · subst hw
      rw [FirstMatch.eraseP_put_self (namedBy_entry _ _)]
    · rw [FirstMatch.eraseP_put_of_apart (EnvVar.apart hw) (namedBy_entry _ _)]
      exact ih (List.mem_of_ne_of_mem hw hv) (l.eraseP (namedBy w.name))

theorem otherEntries_foldl {edits : List EnvEdit} {vars : List EnvVar}
    (hset : ∀ e ∈ edits, ∃ v ∈ vars, ∃ value, e = .set v value) (envc : Option (List CStr)) :
    otherEntries vars (entries (edits.foldl EnvEdit.apply envc)) =
      otherEntries vars (entries envc) := by
  induction edits generalizing envc with
  | nil => rfl
  | cons e edits ih =>
    obtain ⟨v, hv, value, rfl⟩ := hset e (by simp)
    rw [List.foldl_cons, ih fun e' he' => hset e' (by simp [he'])]
    simp only [EnvEdit.apply, entries_setenv, otherEntries_put value hv]

/-! ## The path variables -/

theorem listedPaths_prepended {path : CStr} (h : IsComponent ':' path) (existing : Option CStr) :
    listedPaths (some (prepended path existing)) = path :: listedPaths existing := by
  cases existing with
  | none => exact components_of_isComponent h
  | some paths =>
    have hsplit : pathComponents (path ++ ':' :: paths) =
        pathComponents path ++ pathComponents paths := components_append_cons path paths
    have hself : pathComponents path = [path] := components_of_isComponent h
    rw [hself] at hsplit
    exact hsplit

/-- A path that is not listed is put in front of what is. -/
theorem getenv_pathInsertion {v : EnvVar} {path : CStr} {edits : List EnvEdit}
    {envp : Option (List CStr)} (hpath : IsComponent ':' path)
    (hedits : if (listedPaths (envbufGetenv envp v.name)).contains path
      then ∀ e ∈ edits, e.var ≠ v
      else EnvEdit.set v (prepended path (envbufGetenv envp v.name)) ∈ edits)
    (hnd : (edits.map EnvEdit.var).Nodup) :
    path ∈ listedPaths (envbufGetenv (edits.foldl EnvEdit.apply envp) v.name) ∧
      (listedPaths (envbufGetenv envp v.name)).Sublist
        (listedPaths (envbufGetenv (edits.foldl EnvEdit.apply envp) v.name)) := by
  split_ifs at hedits with hlist
  · rw [getenv_foldl_of_ne hedits]
    exact ⟨List.contains_iff_mem.mp hlist, List.Sublist.refl _⟩
  · have hset := envValues_foldl_of_mem hnd hedits envp
    have hget : envbufGetenv (edits.foldl EnvEdit.apply envp) v.name =
        some (prepended path (envbufGetenv envp v.name)) := by
      rw [envbufGetenv_eq_head?]
      exact (congrArg List.head? hset).trans (by simp [EnvEdit.var])
    rw [hget, listedPaths_prepended hpath]
    exact ⟨List.mem_cons_self, List.sublist_cons_self _ _⟩

/-! ## The edits of an injection -/

/-- The edits of the inserting branch. -/
def insertionOf (g : Globals) (envp : Option (List CStr)) : List EnvEdit :=
  pathInsertion .dyldInsertLibraries hookDylibPath
      (envbufGetenv envp EnvVar.dyldInsertLibraries.name)
      ((listedPaths (envbufGetenv envp EnvVar.dyldInsertLibraries.name)).contains hookDylibPath) ++
    pathInsertion .dyldLibraryPath librootDylibDirectoryPath
      (envbufGetenv envp EnvVar.dyldLibraryPath.name)
      ((listedPaths (envbufGetenv envp EnvVar.dyldLibraryPath.name)).contains
        librootDylibDirectoryPath) ++
    setEdits g

theorem var_of_mem_pathInsertion {v : EnvVar} {path : CStr} {existing : Option CStr} {already : Bool}
    {e : EnvEdit} (he : e ∈ pathInsertion v path existing already) :
    already = false ∧ e = .set v (prepended path existing) := by
  unfold pathInsertion at he
  split_ifs at he with h
  · cases he
  · exact ⟨by simpa using h, List.mem_singleton.mp he⟩

theorem mem_setEdits {g : Globals} {e : EnvEdit} (he : e ∈ setEdits g) :
    ∃ v ∈ countedVars, ∃ value, e = .set v value := by
  obtain ⟨p, hp, rfl⟩ := List.mem_map.mp he
  have hvars : g.values.map Prod.fst = countedVars := rfl
  exact ⟨p.1, hvars ▸ List.mem_map_of_mem hp, p.2, rfl⟩

theorem exists_mem_setEdits (g : Globals) {v : EnvVar} (hv : v ∈ countedVars) :
    ∃ value, EnvEdit.set v value ∈ setEdits g := by
  have hvars : countedVars = g.values.map Prod.fst := rfl
  rw [hvars] at hv
  obtain ⟨p, hp, rfl⟩ := List.mem_map.mp hv
  exact ⟨p.2, List.mem_map_of_mem (f := fun p : EnvVar × CStr => EnvEdit.set p.1 p.2) hp⟩

theorem nodup_insertionOf (g : Globals) (envp : Option (List CStr)) :
    ((insertionOf g envp).map EnvEdit.var).Nodup := by
  have hmap : ∀ (v : EnvVar) (path : CStr) (existing : Option CStr) (already : Bool),
      (pathInsertion v path existing already).map EnvEdit.var = if already then [] else [v] := by
    intro v path existing already
    cases already <;> rfl
  have hset : (setEdits g).map EnvEdit.var = countedVars := rfl
  rw [insertionOf, List.map_append, List.map_append, hmap, hmap, hset]
  split_ifs <;> decide

theorem insertion_sets (g : Globals) (envp : Option (List CStr)) :
    ∀ e ∈ insertionOf g envp, ∃ v ∈ injectedVars, ∃ value, e = .set v value := by
  intro e he
  rw [insertionOf, List.mem_append, List.mem_append] at he
  obtain (he | he) | he := he
  · exact ⟨_, by decide, _, (var_of_mem_pathInsertion he).2⟩
  · exact ⟨_, by decide, _, (var_of_mem_pathInsertion he).2⟩
  · obtain ⟨v, hv, value, rfl⟩ := mem_setEdits he
    exact ⟨v, by simp [injectedVars, hv], value, rfl⟩

/-- A path that is listed is not inserted. -/
theorem inserts_edit (g : Globals) (envp : Option (List CStr)) :
    if (listedPaths (envbufGetenv envp EnvVar.dyldInsertLibraries.name)).contains hookDylibPath
    then ∀ e ∈ insertionOf g envp, e.var ≠ .dyldInsertLibraries
    else EnvEdit.set .dyldInsertLibraries (prepended hookDylibPath
      (envbufGetenv envp EnvVar.dyldInsertLibraries.name)) ∈ insertionOf g envp := by
  have hcounted : ∀ v ∈ countedVars, v ≠ .dyldInsertLibraries := by decide
  split_ifs with hlist
  · intro e he
    rw [insertionOf, hlist, List.mem_append, List.mem_append] at he
    obtain (he | he) | he := he
    · cases he
    · rw [(var_of_mem_pathInsertion he).2]
      exact EnvVar.noConfusion
    · obtain ⟨v, hv, value, rfl⟩ := mem_setEdits he
      exact hcounted v hv
  · rw [insertionOf, pathInsertion, if_neg hlist]
    simp

theorem searchPaths_edit (g : Globals) (envp : Option (List CStr)) :
    if (listedPaths (envbufGetenv envp EnvVar.dyldLibraryPath.name)).contains
      librootDylibDirectoryPath
    then ∀ e ∈ insertionOf g envp, e.var ≠ .dyldLibraryPath
    else EnvEdit.set .dyldLibraryPath (prepended librootDylibDirectoryPath
      (envbufGetenv envp EnvVar.dyldLibraryPath.name)) ∈ insertionOf g envp := by
  have hcounted : ∀ v ∈ countedVars, v ≠ .dyldLibraryPath := by decide
  split_ifs with hlist
  · intro e he
    rw [insertionOf, hlist, List.mem_append, List.mem_append] at he
    obtain (he | he) | he := he
    · rw [(var_of_mem_pathInsertion he).2]
      exact EnvVar.noConfusion
    · cases he
    · obtain ⟨v, hv, value, rfl⟩ := mem_setEdits he
      exact hcounted v hv
  · rw [insertionOf]
    refine List.mem_append_left _ (List.mem_append_right _ ?_)
    rw [pathInsertion, if_neg hlist]
    exact List.mem_singleton.mpr rfl

/-- The environment of the inserting branch. -/
theorem injected_insertion (g : Globals) (envp : Option (List CStr)) :
    Injected envp ((insertionOf g envp).foldl EnvEdit.apply (envbufMutcopy envp)) := by
  have hnd := nodup_insertionOf g envp
  obtain ⟨hhook, hinserts⟩ :=
    getenv_pathInsertion isComponent_hookDylibPath (inserts_edit g envp) hnd
  obtain ⟨hlibroot, hpaths⟩ :=
    getenv_pathInsertion isComponent_librootDylibDirectoryPath (searchPaths_edit g envp) hnd
  refine ⟨hhook, hlibroot, hinserts, hpaths, ?_, otherEntries_foldl (insertion_sets g envp) _⟩
  intro v hv
  obtain ⟨value, hmem⟩ := exists_mem_setEdits g hv
  have hset := envValues_foldl_of_mem hnd (List.mem_append_right _ hmem) (envbufMutcopy envp)
  rw [envbufGetenv_eq_head?]
  have hhead := congrArg List.head? hset
  rw [EnvEdit.var, envValues_apply_set, List.head?_cons] at hhead
  exact Option.isSome_of_mem hhead

/-- An environment in which all six items are counted need not be changed. -/
theorem injected_self {envp : Option (List CStr)}
    (hcount : (jbEnvOf envp).alreadyInsertedCount = jbEnvCount) : Injected envp envp := by
  obtain ⟨hhook, hlibroot, hcounted⟩ := (count_eq_jbEnvCount_iff envp).mp hcount
  exact ⟨List.contains_iff_mem.mp hhook, List.contains_iff_mem.mp hlibroot, List.Sublist.refl _,
    List.Sublist.refl _, hcounted, rfl⟩

/-- A spawn that is injected hands over an environment with the jailbreak's state inserted. -/
theorem spawnHookCommon_injects (h : Host) (g : Globals) {args : SpawnArgs} {path : CStr}
    (hpath : args.path = some path)
    (hd : (spawnDecision h g args path).shouldInsertJBEnv = true) :
    ∃ call, spawnHookCommon h g args = .ok call ∧ Injected args.envp call.envp := by
  cases hgood : alreadyGood (spawnDecision h g args path) (jbEnvOf args.envp) with
  | true =>
    have hcount : (jbEnvOf args.envp).alreadyInsertedCount = jbEnvCount := by
      simpa [alreadyGood, hd] using hgood
    exact ⟨_, spawnHookCommon_of_alreadyGood hpath hgood, injected_self hcount⟩
  | false =>
    have hrewrite : rewriteEnvp h g (spawnDecision h g args path) (jbEnvOf args.envp) args.envp =
        .ok ((insertionOf g args.envp).foldl EnvEdit.apply (envbufMutcopy args.envp)) := by
      rw [rewriteEnvp, rewriteEdits, if_pos hd, insertEdits_eq]
      rfl
    refine ⟨handOver h g args path _, ?_, injected_insertion g args.envp⟩
    rw [spawnHookCommon_of_not_alreadyGood hpath hgood, hrewrite]
    rfl

/-- **An injected spawn**: the original `posix_spawn` is called with a pointer to an environment
that has the jailbreak's state inserted and everything else as it was; the caller's blocks are
unchanged at the call, and the memory after it is the caller's. -/
theorem spawn_injects (A : Allocator Block) (h : Host) (g : Globals) (args : HeapSpawnArgs)
    (path : CStr) (m : CMem) (envp : Option (List CStr)) (hpath : args.path = some path)
    (hread : EnvPtr m args.envp envp)
    (hd : (spawnDecision h g ⟨args.path, args.attrp, args.argv, envp⟩ path).shouldInsertJBEnv =
      true) :
    ∃ call envc, spawnHookCommonMem A h g args m = .ok (call, m) ∧
      EnvPtr call.mem call.envp envc ∧ Injected envp envc ∧
      ∀ a b, m.lookup a = some b → call.mem.lookup a = some b := by
  obtain ⟨call, hcall, hinjected⟩ := spawnHookCommon_injects h g hpath hd
  have hrefines := spawnHookCommonMem_refines (A := A) h g hread
  rw [hcall] at hrefines
  obtain ⟨mcall, hrun, -, -, -, henvp, hframe⟩ := hrefines
  exact ⟨mcall, call.envp, hrun, henvp, hinjected, hframe⟩

/-- A memory with an environment at address 0 that names the inserted libraries twice. -/
def twiceMem : CMem :=
  ((Finmap.singleton 0 (.arr [.ptr 1, .ptr 2, .ptr 3, .null])).insert 1
    (.str "DYLD_INSERT_LIBRARIES=/a".toList)).insert 2
      (.str "DYLD_INSERT_LIBRARIES=/b".toList) |>.insert 3 (.str "novalue".toList)

/-- Of a variable that occurs twice, the first entry is changed. -/
theorem spawn_injects_twice :
    ∃ call envc, spawnHookCommonMem Allocator.next plainHost plainGlobals
        ⟨some binLs, none, some [binLs], some 0⟩ twiceMem = .ok (call, twiceMem) ∧
      EnvPtr call.mem call.envp envc ∧
      Injected (some ["DYLD_INSERT_LIBRARIES=/a".toList, "DYLD_INSERT_LIBRARIES=/b".toList,
        "novalue".toList]) envc ∧
      ∀ a b, twiceMem.lookup a = some b → call.mem.lookup a = some b := by
  refine spawn_injects Allocator.next plainHost plainGlobals
    ⟨some binLs, none, some [binLs], some 0⟩ binLs twiceMem (some _) rfl ?_ ?_
  · refine ⟨[1, 2, 3], [], rfl, ?_⟩
    exact .cons rfl (.cons rfl (.cons rfl .nil))
  · exact congrArg Decision.shouldInsertJBEnv
      (spawnDecision_binLs _ (by decide +kernel) (by decide +kernel))

end Jbinit.Systemhook

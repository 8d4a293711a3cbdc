import Jbinit.Systemhook.EnvbufHeapSpec
import Jbinit.Systemhook.SpawnSpec

/-!
# The spawn hook in memory

`spawn_hook_common` on the caller's memory: the environment is a pointer, the look-ups read it, and
the rewriting branch copies it with `envbuf_mutcopy`, edits the copy, calls the original
`posix_spawn` with the copy and frees it.

`spawnHookCommonMem_refines` connects it to the hook on lists of strings: the original is called
with a pointer to the environment that the hook on lists hands over, the blocks of the caller's
memory are as they were, and after the call the memory is the caller's again.
-/

namespace Jbinit.Systemhook

open Foundations Blocks

/-- The arguments of a spawn, with the environment in memory. -/
structure HeapSpawnArgs where
  path : Option CStr
  attrp : Option (Option SpawnAttr)
  argv : Option (List CStr)
  envp : Option ℕ
  deriving DecidableEq

/-- A call of the original `posix_spawn` and the memory at that time. -/
structure SpawnCall extends HeapSpawnArgs where
  mem : CMem

/-- The eight look-ups in the caller's environment. -/
def lookups (envp : Option ℕ) : MemM (EnvVar → Option CStr) := do
  let inserts ← envbufGetenvMem envp EnvVar.dyldInsertLibraries.name
  let searchPaths ← envbufGetenvMem envp EnvVar.dyldLibraryPath.name
  let sandboxExtensions ← envbufGetenvMem envp EnvVar.jbSandboxExtensions.name
  let rootPath ← envbufGetenvMem envp EnvVar.jbRootPath.name
  let pinfoFlags ← envbufGetenvMem envp EnvVar.jbPinfoFlags.name
  let tweakLoaderPath ← envbufGetenvMem envp EnvVar.jbTweakLoaderPath.name
  let safeMode ← envbufGetenvMem envp EnvVar.safeMode.name
  let msSafeMode ← envbufGetenvMem envp EnvVar.msSafeMode.name
  return fun
    | .dyldInsertLibraries => inserts
    | .dyldLibraryPath => searchPaths
    | .jbSandboxExtensions => sandboxExtensions
    | .jbRootPath => rootPath
    | .jbPinfoFlags => pinfoFlags
    | .jbTweakLoaderPath => tweakLoaderPath
    | .safeMode => safeMode
    | .msSafeMode => msSafeMode

variable (A : Allocator Block)

def EnvEdit.applyMem (envc : Option ℕ) : EnvEdit → MemM (Option ℕ)
  | .set v value => envbufSetenvMem A envc v.name value
  | .unset v => envbufUnsetenvMem A envc v.name

def applyEdits : List EnvEdit → Option ℕ → MemM (Option ℕ)
  | [], envc => return envc
  | e :: edits, envc => do
    let envc ← e.applyMem A envc
    applyEdits edits envc

/-- The rewriting branch: the copy, its edits, the call and `envbuf_free`. -/
def spawnRewritten (h : Host) (g : Globals) (d : Decision) (e : JBEnv) (args : HeapSpawnArgs) :
    MemM SpawnCall := do
  let envc ← envbufMutcopyMem A args.envp
  let edits ← rewriteEdits h g d e
  let envc ← applyEdits A edits envc
  let mem ← get
  envbufFreeMem envc
  return { args with envp := envc, mem := mem }

def spawnHookCommonMem (h : Host) (g : Globals) (args : HeapSpawnArgs) : MemM SpawnCall :=
  match args.path with
  | none => do
    let mem ← get
    return { args with mem := mem }
  | some path => do
    let (path, argv) := redirectBlacklisted h g path args.argv
    let value ← lookups args.envp
    let e ← readJBEnvOf value
    let d := decideInsertOf h path argv args.attrp value
    let attrp := if d.shouldInsertJBEnv then raiseJetsam args.attrp else args.attrp
    if alreadyGood d e then do
      let mem ← get
      return ⟨⟨some path, attrp, argv, args.envp⟩, mem⟩
    else spawnRewritten A h g d e ⟨some path, attrp, argv, args.envp⟩

/-! ## Refinement -/

variable {A} {base m : CMem}

theorem lookups_run {envp : Option ℕ} {l : Option (List CStr)} (h : EnvPtr m envp l) :
    lookups envp m = .ok (fun v => envbufGetenv l v.name, m) := by
  have hget := fun v : EnvVar => getenvMem_run h v.name
  unfold lookups
  rw [bind_run (hget .dyldInsertLibraries), bind_run (hget .dyldLibraryPath),
    bind_run (hget .jbSandboxExtensions), bind_run (hget .jbRootPath),
    bind_run (hget .jbPinfoFlags), bind_run (hget .jbTweakLoaderPath), bind_run (hget .safeMode),
    bind_run (hget .msSafeMode)]
  change Except.ok (_, m) = _
  congr 2
  funext v
  cases v <;> rfl

/-- An edit of a copy in memory is the edit of the list of its strings. -/
theorem applyMem_total (e : EnvEdit) (envc : Option ℕ) (l : Option (List CStr)) :
    Total (OwnsEnv base envc l) (e.applyMem A envc) fun q => OwnsEnv base q (e.apply l) := by
  cases e with
  | set v value => exact setenvMem_total envc l v.name value
  | unset v => exact unsetenvMem_total envc l v.name

theorem applyEdits_total (edits : List EnvEdit) (envc : Option ℕ) (l : Option (List CStr)) :
    Total (OwnsEnv base envc l) (applyEdits A edits envc) fun q =>
      OwnsEnv base q (edits.foldl EnvEdit.apply l) := by
  induction edits generalizing envc l with
  | nil => exact Total.pure fun m hm => hm
  | cons e edits ih => exact Total.bind (applyMem_total e envc l) fun q => ih q (e.apply l)

/-- What the original `posix_spawn` is called with, on lists and in memory. -/
def CallRefines (m : CMem) (call : SpawnArgs) (mcall : SpawnCall) : Prop :=
  mcall.path = call.path ∧ mcall.attrp = call.attrp ∧ mcall.argv = call.argv ∧
    EnvPtr mcall.mem mcall.envp call.envp ∧
    ∀ a b, m.lookup a = some b → mcall.mem.lookup a = some b

theorem spawnRewritten_refines (h : Host) (g : Globals) (d : Decision) (e : JBEnv)
    (args : HeapSpawnArgs) {envp : Option (List CStr)} (hread : EnvPtr m args.envp envp) :
    match rewriteEnvp h g d e envp with
    | .ok envc => ∃ mcall, spawnRewritten A h g d e args m = .ok (mcall, m) ∧
        CallRefines m ⟨args.path, args.attrp, args.argv, envc⟩ mcall
    | .error stop => spawnRewritten A h g d e args m = .error stop := by
  obtain ⟨q, m₁, hcopy, hown⟩ := mutcopyMem_total (A := A) hread m (Owns.nil m)
  have hrun : spawnRewritten A h g d e args m = _ := bind_run hcopy
  rw [rewriteEnvp, hrun]
  cases hedits : rewriteEdits h g d e with
  | error stop => rfl
  | ok edits =>
    obtain ⟨q', m₂, happly, hown'⟩ := applyEdits_total (A := A) edits q _ m₁ hown
    obtain ⟨_, m₃, hfree, rfl⟩ := freeMem_total q' _ m₂ hown'
    refine ⟨{ args with envp := q', mem := m₂ }, ?_, rfl, rfl, rfl, hown'.envPtr, ?_⟩
    · rw [bind_run (lift_run rfl m₁), bind_run happly]
      refine (bind_run (x := get) (r := m₂) rfl).trans ?_
      exact bind_run hfree
    · intro a b hb
      exact hown'.lookup_base hb

/-- The hook in memory, with its look-ups made. -/
theorem spawnHookCommonMem_run (h : Host) (g : Globals) {args : HeapSpawnArgs} {path : CStr}
    {envp : Option (List CStr)} (hpath : args.path = some path) (hread : EnvPtr m args.envp envp) :
    spawnHookCommonMem A h g args m =
      if alreadyGood (spawnDecision h g ⟨some path, args.attrp, args.argv, envp⟩ path)
          (jbEnvOf envp) then
        .ok (⟨⟨some (redirectBlacklisted h g path args.argv).1,
          (handOver h g ⟨some path, args.attrp, args.argv, envp⟩ path envp).attrp,
          (redirectBlacklisted h g path args.argv).2, args.envp⟩, m⟩, m)
      else spawnRewritten A h g (spawnDecision h g ⟨some path, args.attrp, args.argv, envp⟩ path)
        (jbEnvOf envp) ⟨some (redirectBlacklisted h g path args.argv).1,
          (handOver h g ⟨some path, args.attrp, args.argv, envp⟩ path envp).attrp,
          (redirectBlacklisted h g path args.argv).2, args.envp⟩ m := by
  have hjb : readJBEnvOf (fun v => envbufGetenv envp v.name) = .ok (jbEnvOf envp) :=
    readJBEnv_eq envp
  simp only [spawnHookCommonMem, hpath]
  rw [bind_run (lookups_run hread), bind_run (lift_run hjb m)]
  change (if alreadyGood (spawnDecision h g ⟨some path, args.attrp, args.argv, envp⟩ path)
    (jbEnvOf envp) then _ else _ : MemM SpawnCall) m = _
  cases alreadyGood (spawnDecision h g ⟨some path, args.attrp, args.argv, envp⟩ path)
    (jbEnvOf envp) <;> rfl

/-- **The hook in memory refines the hook on lists**: it calls the original with the same arguments,
the caller's blocks are unchanged at the call, and the memory after it is the caller's. -/
theorem spawnHookCommonMem_refines (h : Host) (g : Globals) {args : HeapSpawnArgs}
    {envp : Option (List CStr)} (hread : EnvPtr m args.envp envp) :
    match spawnHookCommon h g ⟨args.path, args.attrp, args.argv, envp⟩ with
    | .ok call => ∃ mcall, spawnHookCommonMem A h g args m = .ok (mcall, m) ∧
        CallRefines m call mcall
    | .error stop => spawnHookCommonMem A h g args m = .error stop := by
  cases hpath : args.path with
  | none =>
    simp only [spawnHookCommon, spawnHookCommonMem, hpath]
    exact ⟨_, rfl, hpath, rfl, rfl, hread, fun _ _ hb => hb⟩
  | some path =>
    rw [spawnHookCommonMem_run h g hpath hread]
    cases hgood : alreadyGood (spawnDecision h g ⟨some path, args.attrp, args.argv, envp⟩ path)
        (jbEnvOf envp) with
    | true =>
      rw [spawnHookCommon_of_alreadyGood rfl hgood, if_pos rfl]
      exact ⟨_, rfl, rfl, rfl, rfl, hread, fun _ _ hb => hb⟩
    | false =>
      rw [spawnHookCommon_of_not_alreadyGood rfl hgood, if_neg (by simp)]
      have hrefines := spawnRewritten_refines (A := A) h g
        (spawnDecision h g ⟨some path, args.attrp, args.argv, envp⟩ path) (jbEnvOf envp)
        ⟨some (redirectBlacklisted h g path args.argv).1,
          (handOver h g ⟨some path, args.attrp, args.argv, envp⟩ path envp).attrp,
          (redirectBlacklisted h g path args.argv).2, args.envp⟩ hread
      cases hrewrite : rewriteEnvp h g
          (spawnDecision h g ⟨some path, args.attrp, args.argv, envp⟩ path) (jbEnvOf envp) envp with
      | ok envc =>
        rw [hrewrite] at hrefines
        exact hrefines
      | error stop =>
        rw [hrewrite] at hrefines
        exact hrefines

end Jbinit.Systemhook

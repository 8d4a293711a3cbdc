import Jbinit.Systemhook.Initializer
import Jbinit.Systemhook.SpawnInject
import Jbinit.Foundations.Transitions

/-!
# Generations of processes

A process in which systemhook is loaded spawns another one, and the hook sees to it that systemhook
is loaded there as well. The strings and the flags that the initializer of launchd found are those
of every later generation, exactly when no environment that already has everything has it with other
values (`generations_iff`). Where each process passes its own environment on, they are, and all
generations see the same environment (`generations_inherit`).
-/

namespace Jbinit.Systemhook

open Foundations Transitions Delimited
open PayloadDylib (Environ)

/-! ## Spawns -/

/-- What a spawn is asked for, and what its two sides learn from the system. -/
structure Birth where
  host : Host
  args : SpawnArgs
  path : CStr
  startup : Startup

/-- A process spawns one that is injected: systemhook is loaded in it, and its initializer runs. -/
structure Spawns (p : Hooked) (b : Birth) (q : Hooked) : Prop where
  path : b.args.path = some b.path
  injects : (spawnDecision b.host p.globals b.args b.path).shouldInsertJBEnv = true
  initializes : ∃ call, spawnHookCommon b.host p.globals b.args = .ok call ∧
    initializer b.startup (envbufGetenv call.envp) = .ok q

/-- An environment in which all six items are counted has the values that are current. -/
def KeepsValues (p : Hooked) (b : Birth) : Prop :=
  (jbEnvOf b.args.envp).alreadyInsertedCount = jbEnvCount →
    p.globals.In (envbufGetenv b.args.envp)

variable {p q : Hooked} {b : Birth}

/-- The environment of the new process. -/
def handedOver (p : Hooked) (b : Birth) : Option (List CStr) :=
  if (jbEnvOf b.args.envp).alreadyInsertedCount = jbEnvCount then b.args.envp
  else (insertionOf p.globals b.args.envp).foldl EnvEdit.apply (envbufMutcopy b.args.envp)

theorem spawnHookCommon_handedOver (hpath : b.args.path = some b.path)
    (hd : (spawnDecision b.host p.globals b.args b.path).shouldInsertJBEnv = true) :
    ∃ call, spawnHookCommon b.host p.globals b.args = .ok call ∧ call.envp = handedOver p b := by
  have hgood : alreadyGood (spawnDecision b.host p.globals b.args b.path) (jbEnvOf b.args.envp) =
      ((jbEnvOf b.args.envp).alreadyInsertedCount == jbEnvCount) := by
    simp [alreadyGood, hd]
  by_cases hcount : (jbEnvOf b.args.envp).alreadyInsertedCount = jbEnvCount
  · rw [beq_iff_eq.mpr hcount] at hgood
    refine ⟨_, spawnHookCommon_of_alreadyGood hpath hgood, ?_⟩
    exact (if_pos hcount).symm
  · rw [beq_eq_false_iff_ne.mpr hcount] at hgood
    have hrewrite : rewriteEnvp b.host p.globals (spawnDecision b.host p.globals b.args b.path)
        (jbEnvOf b.args.envp) b.args.envp =
        .ok ((insertionOf p.globals b.args.envp).foldl EnvEdit.apply
          (envbufMutcopy b.args.envp)) := by
      rw [rewriteEnvp, rewriteEdits, if_pos hd, insertEdits_eq]
      rfl
    refine ⟨handOver b.host p.globals b.args b.path _, ?_, (if_neg hcount).symm⟩
    rw [spawnHookCommon_of_not_alreadyGood hpath hgood, hrewrite]
    rfl

/-- What the inserting branch sets is found. -/
theorem getenv_insertionOf (g : Globals) (envp : Option (List CStr)) {v : EnvVar} {value : CStr}
    (h : EnvEdit.set v value ∈ setEdits g) :
    envbufGetenv ((insertionOf g envp).foldl EnvEdit.apply (envbufMutcopy envp)) v.name =
      some value := by
  have hset := envValues_foldl_of_mem (nodup_insertionOf g envp) (List.mem_append_right _ h)
    (envbufMutcopy envp)
  rw [EnvEdit.var, envValues_apply_set] at hset
  rw [envbufGetenv_eq_head?, hset, List.head?_cons]

theorem globals_in_insertion (g : Globals) (envp : Option (List CStr)) :
    g.In (envbufGetenv ((insertionOf g envp).foldl EnvEdit.apply (envbufMutcopy envp))) := by
  refine ⟨getenv_insertionOf g envp ?_, getenv_insertionOf g envp ?_, getenv_insertionOf g envp ?_,
    getenv_insertionOf g envp ?_⟩ <;> simp [setEdits, Globals.values]

/-- The four variables are set in every environment that is handed over. -/
theorem exists_globals_in (p : Hooked) (b : Birth) :
    ∃ g : Globals, g.In (envbufGetenv (handedOver p b)) := by
  unfold handedOver
  split
  case isTrue hcount =>
    obtain ⟨-, -, hcounted⟩ := (count_eq_jbEnvCount_iff b.args.envp).mp hcount
    have hset (v : EnvVar) (hv : v ∈ countedVars) :
        ∃ value, envbufGetenv b.args.envp v.name = some value :=
      Option.isSome_iff_exists.mp (hcounted v hv)
    obtain ⟨extensions, hextensions⟩ := hset .jbSandboxExtensions (by decide)
    obtain ⟨root, hroot⟩ := hset .jbRootPath (by decide)
    obtain ⟨flags, hflags⟩ := hset .jbPinfoFlags (by decide)
    obtain ⟨tweakLoader, htweakLoader⟩ := hset .jbTweakLoaderPath (by decide)
    exact ⟨⟨extensions, root, flags, tweakLoader⟩, hextensions, hroot, hflags, htweakLoader⟩
  case isFalse => exact ⟨p.globals, globals_in_insertion _ _⟩

/-- A process that is injected comes through the initializer. -/
theorem exists_spawns (p : Hooked) (hpath : b.args.path = some b.path)
    (hd : (spawnDecision b.host p.globals b.args b.path).shouldInsertJBEnv = true) :
    ∃ q, Spawns p b q := by
  obtain ⟨call, hcall, henvp⟩ := spawnHookCommon_handedOver hpath hd
  obtain ⟨g, hg⟩ := exists_globals_in p b
  rw [← henvp] at hg
  obtain ⟨q, hq, -⟩ := initializer_of_in b.startup hg
  exact ⟨q, hpath, hd, call, hcall, hq⟩

/-- What is known of the new process. -/
theorem Spawns.inherits (h : Spawns p b q) : q.globals.In (envbufGetenv (handedOver p b)) ∧
    q.Coherent ∧ q.environ = hideVariables (envbufGetenv (handedOver p b)) := by
  obtain ⟨call, hcall, hq⟩ := h.initializes
  obtain ⟨call', hcall', henvp⟩ := spawnHookCommon_handedOver h.path h.injects
  rw [hcall, Except.ok.injEq] at hcall'
  subst hcall'
  rw [henvp] at hq
  exact initializer_eq_ok hq

theorem Globals.In.unique {g g' : Globals} {environ : Environ} (h : g.In environ)
    (h' : g'.In environ) : g = g' := by
  obtain ⟨extensions, root, flags, tweakLoader⟩ := g
  obtain ⟨extensions', root', flags', tweakLoader'⟩ := g'
  obtain ⟨h₁, h₂, h₃, h₄⟩ := h
  obtain ⟨h₁', h₂', h₃', h₄'⟩ := h'
  cases h₁.symm.trans h₁'
  cases h₂.symm.trans h₂'
  cases h₃.symm.trans h₃'
  cases h₄.symm.trans h₄'
  rfl

/-- The new process has the strings of the old one exactly when the environment has no others. -/
theorem Spawns.globals_eq_iff (h : Spawns p b q) : q.globals = p.globals ↔ KeepsValues p b := by
  obtain ⟨hin, -, -⟩ := h.inherits
  unfold handedOver at hin
  unfold KeepsValues
  by_cases hcount : (jbEnvOf b.args.envp).alreadyInsertedCount = jbEnvCount
  · rw [if_pos hcount] at hin
    constructor
    · intro heq _
      rwa [← heq]
    · exact fun hkeeps => hin.unique (hkeeps hcount)
  · rw [if_neg hcount] at hin
    refine ⟨fun _ h => absurd h hcount, fun _ => hin.unique (globals_in_insertion _ _)⟩

/-! ## Generations -/

/-- The process has what another one has from the initializer. -/
structure SameJailbreak (p q : Hooked) : Prop where
  globals : q.globals = p.globals
  pflags : q.pflags = p.pflags
  consumed : q.consumed = p.consumed

theorem sameJailbreak_iff (hp : p.Coherent) (hq : q.Coherent) :
    SameJailbreak p q ↔ q.globals = p.globals := by
  refine ⟨fun h => h.globals, fun h => ⟨h, ?_, ?_⟩⟩
  · rw [hq.pflags, hp.pflags, h]
  · rw [hq.consumed, hp.consumed, h]

/-- **The strings of all generations**: along every line of descent each process has the strings,
the flags and the sandbox extensions of the first one, exactly when each environment that already
has all of the jailbreak's variables has the current values. An injected spawn never fails. -/
theorem generations_iff {run : List (Birth × Hooked)} (hp : p.Coherent) (hrun : IsRun Spawns p run) :
    ((∀ x ∈ run, SameJailbreak p x.2) ↔ Meets KeepsValues p run) ∧
      ∀ b : Birth, b.args.path = some b.path →
        (spawnDecision b.host (final p run).globals b.args b.path).shouldInsertJBEnv = true →
          ∃ q, Spawns (final p run) b q := by
  have hcoherent : ∀ x ∈ run, x.2.Coherent :=
    hrun.invariant (fun _ _ _ _ _ h => h.inherits.2.1) hp (meets_true p run)
  have hstep (p' : Hooked) (b : Birth) (q : Hooked) (hp' : p'.globals = p.globals)
      (h : Spawns p' b q) : q.globals = p.globals ↔ KeepsValues p' b := by
    rw [← hp']
    exact h.globals_eq_iff
  refine ⟨?_, fun b => exists_spawns (final p run)⟩
  rw [← hrun.invariant_iff hstep rfl]
  exact forall₂_congr fun x hx => sameJailbreak_iff hp (hcoherent x hx)

/-- What a process sees after the initializer. -/
def plainEnvp : List CStr :=
  ["JB_ROOT_PATH=/var/jb".toList, "JB_PINFO_FLAGS=0x1".toList,
    "JB_TWEAKLOADER_PATH=@default".toList]

def plainProcess : Hooked where
  globals := plainGlobals
  pflags := 1
  inJailbreakd := false
  consumed := ["ext".toList]
  environ := envbufGetenv (some plainEnvp)
  opened := []

theorem plainProcess_coherent : plainProcess.Coherent := ⟨by decide, by decide⟩

def plainStartup : Startup := ⟨some binLs, 21, 100, 501, fun _ => false⟩

def lsBirth : Birth := ⟨plainHost, spawnOf binLs plainEnvp, binLs, plainStartup⟩

theorem lsBirth_injects :
    (spawnDecision plainHost plainGlobals (spawnOf binLs plainEnvp) binLs).shouldInsertJBEnv =
      true := by
  rw [spawnDecision_binLs plainEnvp (by decide +kernel) (by decide +kernel)]

theorem lsBirth_keepsValues : KeepsValues plainProcess lsBirth := by
  have hcount : (jbEnvOf (some plainEnvp)).alreadyInsertedCount ≠ jbEnvCount := by decide +kernel
  exact fun h => absurd h hcount

theorem generations_iff_ls :
    ∃ q, Spawns plainProcess lsBirth q ∧ SameJailbreak plainProcess q := by
  obtain ⟨q, hq⟩ := exists_spawns plainProcess (b := lsBirth) rfl lsBirth_injects
  have hrun : IsRun Spawns plainProcess [(lsBirth, q)] := ⟨hq, trivial⟩
  have hall := (generations_iff plainProcess_coherent hrun).1.mpr ⟨lsBirth_keepsValues, trivial⟩
  exact ⟨q, hq, hall (lsBirth, q) (by simp)⟩

/-! ## Environments that are passed on -/

/-- The new process is given the environment that the old one sees. -/
def PassesOn (p : Hooked) (b : Birth) : Prop :=
  ∀ name, '=' ∉ name → envbufGetenv b.args.envp name = p.environ name

/-- The path variables, with what the initializer looks for in them. -/
def hiddenPaths : List (EnvVar × CStr) :=
  [(.dyldInsertLibraries, hookDylibPath), (.dyldLibraryPath, librootDylibDirectoryPath)]

/-- What the environment of a process is that has been injected (`Spawns.settled`). -/
structure Settled (p : Hooked) : Prop where
  extensions : p.environ EnvVar.jbSandboxExtensions.name = none
  root : p.environ EnvVar.jbRootPath.name = some p.globals.jbRootPath
  flags : p.environ EnvVar.jbPinfoFlags.name = some p.globals.jbPinfoFlags
  tweakLoader : p.environ EnvVar.jbTweakLoaderPath.name = some p.globals.jbTweakLoaderPath
  paths : ∀ x ∈ hiddenPaths, p.environ x.1.name ≠ some x.2 ∧
    (p.environ x.1.name = none ∨ x.2 ∈ listedPaths (p.environ x.1.name))

/-- Without the extensions not everything is there. -/
theorem count_ne_of_passesOn (hp : Settled p) (hb : PassesOn p b) :
    (jbEnvOf b.args.envp).alreadyInsertedCount ≠ jbEnvCount := by
  intro hcount
  obtain ⟨-, -, hcounted⟩ := (count_eq_jbEnvCount_iff b.args.envp).mp hcount
  have hset := hcounted .jbSandboxExtensions (by decide)
  rw [hb _ (EnvVar.eq_not_mem_name _), hp.extensions] at hset
  cases hset

theorem keepsValues_of_passesOn (hp : Settled p) (hb : PassesOn p b) : KeepsValues p b :=
  fun hcount => absurd hcount (count_ne_of_passesOn hp hb)

/-- A variable that the insertion does not set. -/
theorem getenv_insertionOf_of_ne (g : Globals) (envp : Option (List CStr)) {name : CStr}
    (hname : '=' ∉ name) (h : ∀ v ∈ injectedVars, v.name ≠ name) :
    envbufGetenv ((insertionOf g envp).foldl EnvEdit.apply (envbufMutcopy envp)) name =
      envbufGetenv envp name := by
  have hedits : ∀ e ∈ insertionOf g envp, e.var.name ≠ name := by
    intro e he
    obtain ⟨v, hv, value, rfl⟩ := insertion_sets g envp e he
    exact h v hv
  rw [envbufGetenv_eq_head?, envbufGetenv_eq_head?, envValues_foldl_of_name_ne hname hedits,
    envbufMutcopy]

/-- A path variable is set when it was not, and is left when it lists the path. -/
theorem getenv_insertionOf_path (g : Globals) (envp : Option (List CStr)) {x : EnvVar × CStr}
    (hx : x ∈ hiddenPaths) (h : envbufGetenv envp x.1.name = none ∨
      x.2 ∈ listedPaths (envbufGetenv envp x.1.name)) :
    envbufGetenv ((insertionOf g envp).foldl EnvEdit.apply (envbufMutcopy envp)) x.1.name =
      if envbufGetenv envp x.1.name = none then some x.2 else envbufGetenv envp x.1.name := by
  have hedit : if (listedPaths (envbufGetenv envp x.1.name)).contains x.2
      then ∀ e ∈ insertionOf g envp, e.var ≠ x.1
      else EnvEdit.set x.1 (prepended x.2 (envbufGetenv envp x.1.name)) ∈ insertionOf g envp := by
    simp only [hiddenPaths, List.mem_cons, List.not_mem_nil, or_false] at hx
    rcases hx with rfl | rfl
    · exact inserts_edit g envp
    · exact searchPaths_edit g envp
  split_ifs at hedit with hlist
  · have hne : envbufGetenv envp x.1.name ≠ none := by
      intro hnone
      rw [hnone] at hlist
      cases hlist
    rw [if_neg hne, getenv_foldl_of_ne hedit, envbufMutcopy]
  · have hnone : envbufGetenv envp x.1.name = none :=
      h.resolve_right fun hmem => hlist (List.contains_iff_mem.mpr hmem)
    have hset := envValues_foldl_of_mem (nodup_insertionOf g envp) hedit (envbufMutcopy envp)
    rw [EnvEdit.var, envValues_apply_set, hnone] at hset
    rw [if_pos hnone, envbufGetenv_eq_head?, hset, List.head?_cons]
    rfl

/-! ### What the initializer hides -/

theorem hideVariables_extensions (environ : Environ) :
    hideVariables environ EnvVar.jbSandboxExtensions.name = none := by
  rw [hideVariables, PayloadDylib.unsetIf_apply_of_ne _ (by decide),
    PayloadDylib.unsetIf_apply_of_ne _ (by decide)]
  exact Function.update_self _ _ _

theorem unsetIf_self (environ : Environ) (name value : CStr) :
    environ.unsetIf name value name =
      if environ name = some value then none else environ name := by
  unfold Environ.unsetIf Environ.unsetenv
  split
  · exact Function.update_self _ _ _
  · rfl

theorem hideVariables_path (environ : Environ) {x : EnvVar × CStr} (hx : x ∈ hiddenPaths) :
    hideVariables environ x.1.name =
      if environ x.1.name = some x.2 then none else environ x.1.name := by
  have hunset {v : EnvVar} (hv : v.name ≠ EnvVar.jbSandboxExtensions.name) :
      environ.unsetenv EnvVar.jbSandboxExtensions.name v.name = environ v.name :=
    Function.update_of_ne hv _ _
  simp only [hiddenPaths, List.mem_cons, List.not_mem_nil, or_false] at hx
  rcases hx with rfl | rfl
  · rw [hideVariables, PayloadDylib.unsetIf_apply_of_ne _ (by decide), unsetIf_self,
      hunset (by decide)]
  · rw [hideVariables, unsetIf_self, PayloadDylib.unsetIf_apply_of_ne _ (by decide),
      hunset (by decide)]

theorem hideVariables_of_ne (environ : Environ) {name : CStr}
    (h : ∀ v ∈ [EnvVar.jbSandboxExtensions, .dyldInsertLibraries, .dyldLibraryPath],
      name ≠ v.name) : hideVariables environ name = environ name := by
  rw [hideVariables, PayloadDylib.unsetIf_apply_of_ne _ (h _ (by simp)),
    PayloadDylib.unsetIf_apply_of_ne _ (h _ (by simp))]
  exact Function.update_of_ne (h _ (by simp)) _ _

/-! ### A generation -/

/-- The environment that a process sees when it is given one that is passed on. -/
theorem Spawns.environ_eq (h : Spawns p b q) (hp : Settled p) (hb : PassesOn p b) {name : CStr}
    (hname : '=' ∉ name) : q.environ name = p.environ name := by
  obtain ⟨-, -, henviron⟩ := h.inherits
  rw [handedOver, if_neg (count_ne_of_passesOn hp hb)] at henviron
  rw [henviron]
  have hget := hb name hname
  by_cases hextensions : name = EnvVar.jbSandboxExtensions.name
  · rw [hextensions, hideVariables_extensions, hp.extensions]
  by_cases hpath : ∃ x ∈ hiddenPaths, name = x.1.name
  · obtain ⟨x, hx, rfl⟩ := hpath
    obtain ⟨hne, hlisted⟩ := hp.paths x hx
    rw [← hget] at hne hlisted ⊢
    rw [hideVariables_path _ hx, getenv_insertionOf_path p.globals b.args.envp hx hlisted]
    by_cases hnone : envbufGetenv b.args.envp x.1.name = none
    · rw [if_pos hnone, if_pos rfl, hnone]
    · rw [if_neg hnone, if_neg hne]
  · have hapart : ∀ v ∈ [EnvVar.jbSandboxExtensions, .dyldInsertLibraries, .dyldLibraryPath],
        name ≠ v.name := by
      intro v hv heq
      simp only [List.mem_cons, List.not_mem_nil, or_false] at hv
      rcases hv with rfl | rfl | rfl
      · exact hextensions heq
      · exact hpath ⟨_, List.mem_cons_self, heq⟩
      · exact hpath ⟨_, List.mem_cons_of_mem _ List.mem_cons_self, heq⟩
    obtain ⟨-, hroot, hflags, htweakLoader⟩ := globals_in_insertion p.globals b.args.envp
    rw [hideVariables_of_ne _ hapart]
    by_cases hcounted : ∃ v ∈ injectedVars, v.name = name
    · obtain ⟨v, hv, rfl⟩ := hcounted
      simp only [injectedVars, countedVars, List.mem_cons, List.not_mem_nil, or_false] at hv
      rcases hv with rfl | rfl | rfl | rfl | rfl | rfl
      · exact absurd rfl (hapart .dyldInsertLibraries (by simp))
      · exact absurd rfl (hapart .dyldLibraryPath (by simp))
      · exact absurd rfl hextensions
      · rw [hroot, hp.root]
      · rw [hflags, hp.flags]
      · rw [htweakLoader, hp.tweakLoader]
    · rw [getenv_insertionOf_of_ne _ _ hname fun v hv heq => hcounted ⟨v, hv, heq⟩, hget]

theorem injected_handedOver (p : Hooked) (b : Birth) : Injected b.args.envp (handedOver p b) := by
  unfold handedOver
  split
  case isTrue hcount => exact injected_self hcount
  case isFalse => exact injected_insertion p.globals b.args.envp

/-- Every process that has been injected is settled. -/
theorem Spawns.settled (h : Spawns p b q) : Settled q := by
  obtain ⟨⟨-, hroot, hflags, htweakLoader⟩, -, henviron⟩ := h.inherits
  have hinjected := injected_handedOver p b
  have hlists (x : EnvVar × CStr) (hx : x ∈ hiddenPaths) :
      x.2 ∈ listedPaths (envbufGetenv (handedOver p b) x.1.name) := by
    simp only [hiddenPaths, List.mem_cons, List.not_mem_nil, or_false] at hx
    rcases hx with rfl | rfl
    · exact hinjected.hook
    · exact hinjected.libroot
  refine ⟨?_, ?_, ?_, ?_, fun x hx => ?_⟩
  · rw [henviron, hideVariables_extensions]
  · rw [henviron, hideVariables_of_ne _ (by decide), hroot]
  · rw [henviron, hideVariables_of_ne _ (by decide), hflags]
  · rw [henviron, hideVariables_of_ne _ (by decide), htweakLoader]
  · rw [henviron, hideVariables_path _ hx]
    split
    case isTrue => exact ⟨(Option.some_ne_none _).symm, .inl rfl⟩
    case isFalse hne => exact ⟨hne, .inr (hlists x hx)⟩

/-- **An environment that is passed on** is the environment of all generations, and all of them have
the strings of the first. -/
theorem generations_inherit {run : List (Birth × Hooked)} (hcoherent : p.Coherent) (hp : Settled p)
    (hrun : IsRun Spawns p run) (hpass : Meets PassesOn p run) :
    ∀ x ∈ run, SameJailbreak p x.2 ∧ ∀ name, '=' ∉ name → x.2.environ name = p.environ name := by
  let I (q : Hooked) : Prop := Settled q ∧ (q.Coherent ∧ q.globals = p.globals) ∧
    ∀ name, '=' ∉ name → q.environ name = p.environ name
  have hstep (q : Hooked) (b : Birth) (r : Hooked) (hq : I q) (hb : PassesOn q b)
      (h : Spawns q b r) : I r := by
    obtain ⟨hsettled, ⟨-, hglobals⟩, henviron⟩ := hq
    refine ⟨h.settled, ⟨h.inherits.2.1, ?_⟩, fun name hname => ?_⟩
    · rw [h.globals_eq_iff.mpr (keepsValues_of_passesOn hsettled hb), hglobals]
    · rw [h.environ_eq hsettled hb hname, henviron name hname]
  intro x hx
  obtain ⟨-, ⟨hx', hglobals⟩, henviron⟩ :=
    hrun.invariant hstep ⟨hp, ⟨hcoherent, rfl⟩, fun _ _ => rfl⟩ hpass x hx
  exact ⟨(sameJailbreak_iff hcoherent hx').mpr hglobals, henviron⟩

theorem plainProcess_settled : Settled plainProcess := by
  have hpaths : ∀ x ∈ hiddenPaths, envbufGetenv (some plainEnvp) x.1.name = none := by
    decide +kernel
  refine ⟨by decide +kernel, by decide +kernel, by decide +kernel, by decide +kernel,
    fun x hx => ⟨?_, .inl (hpaths x hx)⟩⟩
  show envbufGetenv (some plainEnvp) x.1.name ≠ some x.2
  rw [hpaths x hx]
  exact (Option.some_ne_none _).symm

theorem generations_inherit_ls : ∃ q, Spawns plainProcess lsBirth q ∧ SameJailbreak plainProcess q ∧
    ∀ name, '=' ∉ name → q.environ name = plainProcess.environ name := by
  obtain ⟨q, hq⟩ := exists_spawns plainProcess (b := lsBirth) rfl lsBirth_injects
  have hrun : IsRun Spawns plainProcess [(lsBirth, q)] := ⟨hq, trivial⟩
  have hpass : Meets PassesOn plainProcess [(lsBirth, q)] := ⟨fun _ _ => rfl, trivial⟩
  obtain ⟨hsame, henviron⟩ := generations_inherit plainProcess_coherent plainProcess_settled hrun
    hpass (lsBirth, q) (by simp)
  exact ⟨q, hq, hsame, henviron⟩

end Jbinit.Systemhook

import Jbinit.Systemhook.EnvbufHeapSpec

/-!
# The environment buffer is a finite map

An environment in which no name occurs twice is a map from names to values (`bindings`). A copy on
which `envbuf_setenv` and `envbuf_unsetenv` are called holds the map after the same operations, and
the entries of other names are where they were (`envbuf_map`).
-/

namespace Jbinit.Systemhook

open Foundations Blocks

/-! ## The map -/

/-- The name of an entry, if it has one. -/
def nameOf (env : CStr) : Option CStr := if '=' ∈ env then some (env.takeWhile (· != '=')) else none

/-- The name and the value of an entry. -/
def bindingOf (env : CStr) : Option (CStr × CStr) :=
  (nameOf env).map fun name => (name, env.drop (name.length + 1))

/-- The map that the entries stand for. -/
def bindings (l : List CStr) : CStr → Option CStr := fun name => (l.filterMap bindingOf).lookup name

/-- No two entries carry the same name. -/
def UniqueNames (l : List CStr) : Prop := (l.filterMap nameOf).Nodup

/-- A call of `envbuf_setenv` or `envbuf_unsetenv`. -/
inductive EnvOp
  | set (name value : CStr)
  | unset (name : CStr)
  deriving DecidableEq

namespace EnvOp

def name : EnvOp → CStr
  | .set name _ => name
  | .unset name => name

def apply (envp : Option (List CStr)) : EnvOp → Option (List CStr)
  | .set name value => envbufSetenv envp name value
  | .unset name => envbufUnsetenv envp name

def applyMem (A : Allocator Block) (envp : Option ℕ) : EnvOp → MemM (Option ℕ)
  | .set name value => envbufSetenvMem A envp name value
  | .unset name => envbufUnsetenvMem A envp name

/-- What the operation is to do to a map. -/
def applyMap (f : CStr → Option CStr) : EnvOp → CStr → Option CStr
  | .set name value => Function.update f name (some value)
  | .unset name => Function.update f name none

end EnvOp

def applyOps (A : Allocator Block) : List EnvOp → Option ℕ → MemM (Option ℕ)
  | [], envp => return envp
  | op :: ops, envp => do
    let envp ← op.applyMem A envp
    applyOps A ops envp

/-- `envbuf_mutcopy` and the operations on the copy. -/
def copyAndApply (A : Allocator Block) (ops : List EnvOp) (envp : Option ℕ) : MemM (Option ℕ) := do
  let envc ← envbufMutcopyMem A envp
  applyOps A ops envc

/-- No operation has the name of the entry. -/
def untouched (ops : List EnvOp) (env : CStr) : Bool :=
  ops.all fun op => decide (nameOf env ≠ some op.name)

/-! ## Names and stacks -/

theorem nameOf_entry {name : CStr} (hname : '=' ∉ name) (value : CStr) :
    nameOf (name ++ '=' :: value) = some name := by
  unfold nameOf
  rw [if_pos (by simp), takeWhile_name hname]

/-- An entry has no `=`, or it is a name with a value. -/
theorem nameOf_eq_none_or (env : CStr) :
    nameOf env = none ∧ '=' ∉ env ∨ ∃ name value, '=' ∉ name ∧ env = name ++ '=' :: value := by
  by_cases hmem : '=' ∈ env
  · obtain ⟨name, value, henv, hname⟩ := List.eq_append_cons_of_mem hmem
    exact .inr ⟨name, value, hname, henv⟩
  · exact .inl ⟨if_neg hmem, hmem⟩

theorem nameOf_eq_some_iff {env name : CStr} (hname : '=' ∉ name) :
    nameOf env = some name ↔ namedBy name env = true := by
  rw [namedBy_iff]
  constructor
  · intro h
    rcases nameOf_eq_none_or env with ⟨hnone, -⟩ | ⟨name', value, hname', rfl⟩
    · rw [hnone] at h
      cases h
    · rw [nameOf_entry hname'] at h
      exact ⟨value, by rw [Option.some.inj h]⟩
  · rintro ⟨value, rfl⟩
    exact nameOf_entry hname value

theorem not_mem_of_nameOf {env name : CStr} (h : nameOf env = some name) : '=' ∉ name := by
  rcases nameOf_eq_none_or env with ⟨hnone, -⟩ | ⟨name', value, hname', rfl⟩
  · rw [hnone] at h
    cases h
  · rw [nameOf_entry hname'] at h
    exact Option.some.inj h ▸ hname'

theorem envValues_cons_of_pos {name env : CStr} (h : namedBy name env = true) (l : List CStr) :
    envValues (some (env :: l)) name = env.drop (name.length + 1) :: envValues (some l) name := by
  simp [envValues, h]

theorem envValues_cons_of_neg {name env : CStr} (h : namedBy name env = false) (l : List CStr) :
    envValues (some (env :: l)) name = envValues (some l) name := by
  simp [envValues, h]

theorem count_nameOf (l : List CStr) {name : CStr} (hname : '=' ∉ name) :
    (l.filterMap nameOf).count name = (envValues (some l) name).length := by
  induction l with
  | nil => rfl
  | cons env l ih =>
    cases h : namedBy name env with
    | true =>
      have hnameOf := (nameOf_eq_some_iff hname).mpr h
      rw [List.filterMap_cons_some hnameOf, List.count_cons_self, ih, envValues_cons_of_pos h,
        List.length_cons]
    | false =>
      have hne : nameOf env ≠ some name := fun hn => by simp [(nameOf_eq_some_iff hname).mp hn] at h
      rw [envValues_cons_of_neg h, ← ih]
      cases hn : nameOf env with
      | none => rw [List.filterMap_cons_none hn]
      | some name' =>
        rw [List.filterMap_cons_some hn, List.count_cons_of_ne]
        rintro rfl
        exact hne hn

/-- The names are unique when every stack of values has at most one. -/
theorem uniqueNames_iff (l : List CStr) :
    UniqueNames l ↔ ∀ name, '=' ∉ name → (envValues (some l) name).length ≤ 1 := by
  unfold UniqueNames
  rw [List.nodup_iff_count_le_one]
  constructor
  · intro h name hname
    rw [← count_nameOf l hname]
    exact h name
  · intro h name
    by_cases hmem : name ∈ l.filterMap nameOf
    · obtain ⟨env, -, henv⟩ := List.mem_filterMap.mp hmem
      have hname := not_mem_of_nameOf henv
      rw [count_nameOf l hname]
      exact h name hname
    · rw [List.count_eq_zero_of_not_mem hmem]
      omega

/-- The map has the first value of a name. -/
theorem bindings_eq_head? (l : List CStr) {name : CStr} (hname : '=' ∉ name) :
    bindings l name = (envValues (some l) name).head? := by
  induction l with
  | nil => rfl
  | cons env l ih =>
    unfold bindings at ih ⊢
    cases h : namedBy name env with
    | true =>
      have hbinding : bindingOf env = some (name, env.drop (name.length + 1)) := by
        rw [bindingOf, (nameOf_eq_some_iff hname).mpr h]
        rfl
      rw [List.filterMap_cons_some hbinding, List.lookup_cons_self, envValues_cons_of_pos h,
        List.head?_cons]
    | false =>
      have hne : nameOf env ≠ some name := fun hn => by simp [(nameOf_eq_some_iff hname).mp hn] at h
      rw [envValues_cons_of_neg h, ← ih]
      cases hn : nameOf env with
      | none =>
        have hbinding : bindingOf env = none := by rw [bindingOf, hn, Option.map_none]
        rw [List.filterMap_cons_none hbinding]
      | some name' =>
        have hbinding : bindingOf env = some (name', env.drop (name'.length + 1)) := by
          rw [bindingOf, hn, Option.map_some]
        have hname' : (name == name') = false := by
          refine beq_eq_false_iff_ne.mpr ?_
          rintro rfl
          exact hne hn
        rw [List.filterMap_cons_some hbinding, List.lookup_cons, hname']

/-! ## One operation -/

theorem EnvOp.applyMap_of_ne (op : EnvOp) {f : CStr → Option CStr} {name : CStr}
    (hne : name ≠ op.name) : op.applyMap f name = f name := by
  cases op with
  | set name' value => exact Function.update_of_ne hne _ _
  | unset name' => exact Function.update_of_ne hne _ _

theorem EnvOp.applyMap_self (op : EnvOp) (f g : CStr → Option CStr) :
    op.applyMap f op.name = op.applyMap g op.name := by
  cases op <;> simp [EnvOp.applyMap, EnvOp.name]

section Step

variable {op : EnvOp} (hop : '=' ∉ op.name)
include hop

theorem envValues_apply_of_ne (envp : Option (List CStr)) {name : CStr} (hname : '=' ∉ name)
    (hne : op.name ≠ name) : envValues (op.apply envp) name = envValues envp name := by
  cases op with
  | set name' value => exact envValues_setenv_of_apart (namedBy_apart hop hname hne) envp value
  | unset name' => exact envValues_unsetenv_of_apart (namedBy_apart hop hname hne) envp

theorem uniqueNames_apply {envp : Option (List CStr)} (h : UniqueNames (entries envp)) :
    UniqueNames (entries (op.apply envp)) := by
  rw [uniqueNames_iff] at h ⊢
  intro name hname
  have hstack := h name hname
  show (envValues (op.apply envp) name).length ≤ 1
  by_cases hne : op.name = name
  · subst hne
    cases op with
    | set name' value =>
      rw [EnvOp.apply, EnvOp.name, envValues_setenv_self, List.length_cons, List.length_tail]
      exact Nat.succ_le_succ (Nat.sub_le_of_le_add hstack)
    | unset name' =>
      rw [EnvOp.apply, EnvOp.name, envValues_unsetenv_self, List.length_tail]
      exact (Nat.sub_le _ _).trans hstack
  · rw [envValues_apply_of_ne hop envp hname hne]
    exact hstack

/-- An operation does to the entries what it is to do to the map. -/
theorem bindings_apply {envp : Option (List CStr)} (h : UniqueNames (entries envp)) {name : CStr}
    (hname : '=' ∉ name) :
    bindings (entries (op.apply envp)) name = op.applyMap (bindings (entries envp)) name := by
  rw [bindings_eq_head? _ hname]
  show (envValues (op.apply envp) name).head? = _
  by_cases hne : op.name = name
  · subst hne
    cases op with
    | set name' value =>
      rw [EnvOp.apply, EnvOp.name, envValues_setenv_self, EnvOp.applyMap, Function.update_self,
        List.head?_cons]
    | unset name' =>
      have hstack := (uniqueNames_iff _).mp h name' hname
      have htail : (envValues (some (entries envp)) name').tail = [] := by
        refine List.length_eq_zero_iff.mp ?_
        rw [List.length_tail]
        omega
      rw [EnvOp.apply, EnvOp.name, envValues_unsetenv_self, EnvOp.applyMap, Function.update_self,
        List.head?_eq_none_iff]
      exact htail
  · rw [envValues_apply_of_ne hop envp hname hne, op.applyMap_of_ne (Ne.symm hne),
      bindings_eq_head? _ hname]
    rfl

/-- Entries of other names stay where they are. -/
theorem filter_apply {keep : CStr → Bool} (hkeep : ∀ env, keep env = true → nameOf env ≠ some op.name)
    (envp : Option (List CStr)) :
    (entries (op.apply envp)).filter keep = (entries envp).filter keep := by
  have hapart : FirstMatch.Apart (namedBy op.name) keep := by
    intro env henv
    by_contra hk
    exact hkeep env (by simpa using hk) ((nameOf_eq_some_iff hop).mpr henv)
  cases op with
  | set name value =>
    rw [EnvOp.apply, entries_setenv]
    exact FirstMatch.filter_put_of_apart hapart (namedBy_entry name value) _
  | unset name =>
    rw [EnvOp.apply, entries_unsetenv]
    exact FirstMatch.filter_eraseP_of_apart hapart _

end Step

/-! ## A sequence of operations -/

/-- NULL and the empty array are the same to every operation. -/
theorem entries_foldl_apply (ops : List EnvOp) {envp envp' : Option (List CStr)}
    (h : entries envp = entries envp') :
    entries (ops.foldl EnvOp.apply envp) = entries (ops.foldl EnvOp.apply envp') := by
  induction ops generalizing envp envp' with
  | nil => exact h
  | cons op ops ih =>
    refine ih ?_
    cases op with
    | set name value => rw [EnvOp.apply, EnvOp.apply, entries_setenv, entries_setenv, h]
    | unset name => rw [EnvOp.apply, EnvOp.apply, entries_unsetenv, entries_unsetenv, h]

section Run

variable {ops : List EnvOp} (hops : ∀ op ∈ ops, '=' ∉ op.name)
include hops

theorem uniqueNames_foldl {envp : Option (List CStr)} (h : UniqueNames (entries envp)) :
    UniqueNames (entries (ops.foldl EnvOp.apply envp)) := by
  induction ops generalizing envp with
  | nil => exact h
  | cons op ops ih =>
    rw [List.forall_mem_cons] at hops
    exact ih hops.2 (uniqueNames_apply hops.1 h)

theorem applyMap_foldl_congr {f g : CStr → Option CStr} (h : ∀ name, '=' ∉ name → f name = g name)
    {name : CStr} (hname : '=' ∉ name) :
    ops.foldl EnvOp.applyMap f name = ops.foldl EnvOp.applyMap g name := by
  induction ops generalizing f g with
  | nil => exact h name hname
  | cons op ops ih =>
    rw [List.forall_mem_cons] at hops
    refine ih hops.2 fun name' hname' => ?_
    by_cases hne : name' = op.name
    · subst hne
      exact op.applyMap_self f g
    · rw [op.applyMap_of_ne hne, op.applyMap_of_ne hne, h name' hname']

theorem bindings_foldl {envp : Option (List CStr)} (h : UniqueNames (entries envp)) {name : CStr}
    (hname : '=' ∉ name) :
    bindings (entries (ops.foldl EnvOp.apply envp)) name =
      ops.foldl EnvOp.applyMap (bindings (entries envp)) name := by
  induction ops generalizing envp with
  | nil => rfl
  | cons op ops ih =>
    rw [List.forall_mem_cons] at hops
    rw [List.foldl_cons, List.foldl_cons, ih hops.2 (uniqueNames_apply hops.1 h)]
    exact applyMap_foldl_congr hops.2 (fun name' hname' => bindings_apply hops.1 h hname') hname

theorem filter_foldl (envp : Option (List CStr)) {keep : CStr → Bool}
    (hkeep : ∀ op ∈ ops, ∀ env, keep env = true → nameOf env ≠ some op.name) :
    (entries (ops.foldl EnvOp.apply envp)).filter keep = (entries envp).filter keep := by
  induction ops generalizing envp with
  | nil => rfl
  | cons op ops ih =>
    rw [List.forall_mem_cons] at hops hkeep
    rw [List.foldl_cons, ih hops.2 (op.apply envp) hkeep.2, filter_apply hops.1 hkeep.1]

end Run

variable {A : Allocator Block} {base : CMem}

theorem applyOps_total (ops : List EnvOp) (envp : Option ℕ) (l : Option (List CStr)) :
    Total (OwnsEnv base envp l) (applyOps A ops envp) fun q =>
      OwnsEnv base q (ops.foldl EnvOp.apply l) := by
  induction ops generalizing envp l with
  | nil => exact Total.pure fun m hm => hm
  | cons op ops ih =>
    refine Total.bind (R := fun q => OwnsEnv base q (op.apply l)) ?_ fun q => ih q (op.apply l)
    cases op with
    | set name value => exact setenvMem_total envp l name value
    | unset name => exact unsetenvMem_total envp l name

/-- The copy `envc` in the memory `m` holds the strings `l'`, which are the map `f` and keep the
entries `l` that no operation names. -/
structure HoldsMap (base m : CMem) (envc : Option ℕ) (ops : List EnvOp) (l : List CStr)
    (l' : Option (List CStr)) (f : CStr → Option CStr) : Prop where
  owns : OwnsEnv base envc l' m
  unique : UniqueNames (entries l')
  getenv : ∀ name, '=' ∉ name → envbufGetenvMem envc name m = .ok (f name, m)
  others : (entries l').filter (untouched ops) = l.filter (untouched ops)

/-- **The environment buffer is a finite map**: after any operations on a copy, a look-up finds what
the map has after the same operations, and the entries of other names and the source are as they
were. From NULL it is as from the empty array. -/
theorem envbuf_map (A : Allocator Block) {envp : Option ℕ} {l : Option (List CStr)}
    (hsource : EnvPtr base envp l) (hunique : UniqueNames (entries l)) (ops : List EnvOp)
    (hops : ∀ op ∈ ops, '=' ∉ op.name) :
    ∃ envc m l', copyAndApply A ops envp base = .ok (envc, m) ∧
      HoldsMap base m envc ops (entries l) l' (ops.foldl EnvOp.applyMap (bindings (entries l))) ∧
      (∀ a block, base.lookup a = some block → m.lookup a = some block) ∧
      entries l' = entries (ops.foldl EnvOp.apply (some (entries l))) := by
  have htotal : Total (Owns base []) (copyAndApply A ops envp) fun q =>
      OwnsEnv base q (ops.foldl EnvOp.apply l) :=
    Total.bind (mutcopyMem_total hsource) fun q => applyOps_total ops q l
  obtain ⟨envc, m, hrun, howns⟩ := htotal base (Owns.nil base)
  refine ⟨envc, m, _, hrun, ⟨howns, uniqueNames_foldl hops hunique, fun name hname => ?_, ?_⟩,
    fun a block hblock => howns.lookup_base hblock, entries_foldl_apply ops rfl⟩
  · rw [getenvMem_run howns.envPtr, envbufGetenv_eq_head?, ← bindings_foldl hops hunique hname,
      bindings_eq_head? _ hname]
    rfl
  · refine filter_foldl hops l fun op hop env henv => ?_
    exact of_decide_eq_true (List.all_eq_true.mp henv op hop)

/-! ## An environment with an entry without a name -/

def plainEnv : List CStr := ["A=1".toList, "PLAIN".toList, "B=".toList]

def plainMem : CMem :=
  Finmap.insert 3 (.str "B=".toList) <| Finmap.insert 2 (.str "PLAIN".toList) <|
    Finmap.insert 1 (.str "A=1".toList) <| Finmap.singleton 0 (.arr [.ptr 1, .ptr 2, .ptr 3, .null])

theorem plainMem_envPtr : EnvPtr plainMem (some 0) (some plainEnv) := by
  have hA : plainMem.lookup 1 = some (.str "A=1".toList) := by
    rw [plainMem, Finmap.lookup_insert_of_ne _ (by decide), Finmap.lookup_insert_of_ne _ (by decide),
      Finmap.lookup_insert]
  have hplain : plainMem.lookup 2 = some (.str "PLAIN".toList) := by
    rw [plainMem, Finmap.lookup_insert_of_ne _ (by decide), Finmap.lookup_insert]
  have hB : plainMem.lookup 3 = some (.str "B=".toList) := Finmap.lookup_insert _
  refine ⟨[1, 2, 3], [], ?_, .cons hA (.cons hplain (.cons hB .nil))⟩
  rw [plainMem, Finmap.lookup_insert_of_ne _ (by decide), Finmap.lookup_insert_of_ne _ (by decide),
    Finmap.lookup_insert_of_ne _ (by decide), Finmap.lookup_singleton_eq]
  rfl

theorem plainEnv_uniqueNames : UniqueNames plainEnv := by
  have hnames : plainEnv.filterMap nameOf = [['A'], ['B']] := rfl
  rw [UniqueNames, hnames]
  decide

/-- `A` gets another value, `C` is new, and `B` goes. -/
def plainOps : List EnvOp :=
  [.set "A".toList "22".toList, .set "C".toList "".toList, .unset "B".toList]

theorem envbuf_map_plain :
    ∃ envc m l', copyAndApply Allocator.next plainOps (some 0) plainMem = .ok (envc, m) ∧
      HoldsMap plainMem m envc plainOps plainEnv l'
        (plainOps.foldl EnvOp.applyMap (bindings plainEnv)) ∧
      (∀ a block, plainMem.lookup a = some block → m.lookup a = some block) ∧
      entries l' = entries (plainOps.foldl EnvOp.apply (some plainEnv)) :=
  envbuf_map Allocator.next plainMem_envPtr plainEnv_uniqueNames plainOps (by decide)

end Jbinit.Systemhook

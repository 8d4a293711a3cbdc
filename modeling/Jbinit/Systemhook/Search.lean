import Jbinit.Foundations.Buffers
import Jbinit.Foundations.Delimited
import Jbinit.Systemhook.ExecHooks
import Mathlib.Data.List.TakeWhile

/-!
# The search along PATH

`resolvePath` of `common.c` with its cursor, which `strsep` moves over a copy of the search path,
and its buffer `path_buf`, which the candidates are put together in. It never writes outside of the
buffer and tries the candidates of the list (`searchLoop_eq`), so the hooks that search PATH are
those of `ExecHooks` (`resolvePath_eq`). On handlers that answer for each path, it is the search of
POSIX (`resolvePath_posix`).
-/

namespace Jbinit.Systemhook.Search

open Foundations Delimited

/-! ## The function -/

abbrev PathBuf := Buffer Char pathBufSize

/-- `strsep(&cur, ":")`: the token, and the cursor after it. -/
def strsep : Option CStr → Option (CStr × Option CStr)
  | none => none
  | some cur =>
    some (cur.takeWhile (· != ':'),
      if ':' ∈ cur then some (cur.dropWhile (· != ':')).tail else none)

/-- What the `switch` on an error goes to. -/
inductive Next
  | done (err : ℤ)
  | search (accessDenied : Bool)

section

variable {m : Type → Type} [Monad m] (statPath : CStr → m Bool) (attemptHandler : CStr → m ℤ)

/-- From the label `retry` on. -/
def retry (bp : CStr) (accessDenied : Bool) : m Next := do
  let err ← attemptHandler bp
  if err ∈ stopErrors then return .done err
  else if err ∈ searchErrors then return .search accessDenied
  else if !(← statPath bp) then return .search accessDenied
  else if err = eacces then return .search true
  else return .done err

/-- The candidate in `path_buf`; `none` when a character is written outside of it. -/
def fillPathBuf (p file : CStr) (pathBuf : PathBuf) : Option PathBuf := do
  let pathBuf ← pathBuf.write 0 p
  let pathBuf ← pathBuf.write p.length ['/']
  let pathBuf ← pathBuf.write (p.length + 1) file
  pathBuf.write (p.length + file.length + 1) ['\x00']

theorem strsep_lt {cur : Option CStr} {p : CStr} {cur' : Option CStr}
    (h : strsep cur = some (p, cur')) : (cur'.elim 0 (·.length + 1)) < cur.elim 0 (·.length + 1) := by
  cases cur with
  | none => cases h
  | some s =>
    obtain ⟨rfl, rfl⟩ := Prod.mk.inj (Option.some.inj h)
    split
    · have hdrop : (s.dropWhile (· != ':')).length ≤ s.length := (List.dropWhile_suffix _).length_le
      have hmem : 0 < s.length := List.length_pos_of_mem ‹_›
      simp only [Option.elim_some, List.length_tail]
      omega
    · simp

/-- The loop, from its head on; `none` when a character is written outside of the buffer. -/
def searchLoop (file : CStr) (cur : Option CStr) (accessDenied : Bool) (pathBuf : PathBuf) :
    m (Option ℤ) :=
  match _h : strsep cur with
  | none => return some (if accessDenied then eacces else enoent)
  | some (p, cur') =>
    let p := if p = [] then ['.'] else p
    if p.length + file.length + 2 > pathBufSize then return some enametoolong
    else
      match fillPathBuf p file pathBuf with
      | none => return none
      | some pathBuf => do
        match ← retry statPath attemptHandler (pathBuf.text '\x00') accessDenied with
        | .done err => return some err
        | .search accessDenied => searchLoop file cur' accessDenied pathBuf
termination_by cur.elim 0 (·.length + 1)
decreasing_by exact strsep_lt _h

/-- The search path that is used. -/
def envPathOf (getenvPath searchPath : Option CStr) : CStr :=
  searchPath.getD (getenvPath.getD pathDefpath)

/-- `pathBuf` is what the buffer has in it before. -/
def resolvePath (getenvPath : Option CStr) (file : CStr) (searchPath : Option CStr)
    (pathBuf : PathBuf) : m (Option ℤ) :=
  if '/' ∈ file then do
    match ← retry statPath attemptHandler file false with
    | .done err => return some err
    -- the loop goes on with a null cursor
    | .search accessDenied => searchLoop statPath attemptHandler file none accessDenied pathBuf
  else if file = [] then return some enoent
  else
    searchLoop statPath attemptHandler file (some (envPathOf getenvPath searchPath)) false pathBuf

/-! ## The candidates -/

/-- The search over a list of candidates, without the buffer. -/
def searchList : List (Option CStr) → Bool → m ℤ
  | [], accessDenied => return if accessDenied then eacces else enoent
  | none :: _, _ => return enametoolong
  | some bp :: rest, accessDenied => do
    match ← retry statPath attemptHandler bp accessDenied with
    | .done err => return err
    | .search accessDenied => searchList rest accessDenied

end

section

variable {m : Type → Type} [Monad m] {statPath : CStr → m Bool} {attemptHandler : CStr → m ℤ}
  {file : CStr}

theorem strsep_of_not_mem {c : CStr} (h : ':' ∉ c) : strsep (some c) = some (c, none) := by
  have hall : ∀ x ∈ c, (x != ':') = true := fun x hx => bne_iff_ne.mpr (ne_of_mem_of_not_mem hx h)
  rw [strsep, if_neg h, List.takeWhile_eq_self_iff.mpr hall]

theorem strsep_append_cons {c : CStr} (h : ':' ∉ c) (l : CStr) :
    strsep (some (c ++ ':' :: l)) = some (c, some l) := by
  have hall : ∀ x ∈ c, (x != ':') = true := fun x hx => bne_iff_ne.mpr (ne_of_mem_of_not_mem hx h)
  rw [strsep, if_pos (by simp), List.takeWhile_append_of_pos hall, List.dropWhile_append_of_pos hall]
  simp

/-- A candidate that is not too long is put together inside of the buffer. -/
theorem fillPathBuf_text {p : CStr} (hp : '\x00' ∉ p) (hfile : '\x00' ∉ file)
    (hfits : p.length + file.length + 2 ≤ pathBufSize) (pathBuf : PathBuf) :
    ∃ pathBuf', fillPathBuf p file pathBuf = some pathBuf' ∧
      pathBuf'.text '\x00' = p ++ '/' :: file := by
  obtain ⟨b₁, hb₁, h₁⟩ := (Buffer.begins_nil pathBuf).write p (by simp; omega)
  obtain ⟨b₂, hb₂, h₂⟩ := h₁.write ['/'] (by simp; omega)
  obtain ⟨b₃, hb₃, h₃⟩ := h₂.write file (by simp; omega)
  obtain ⟨b₄, hb₄, h₄⟩ := h₃.write ['\x00'] (by simp; omega)
  have hlength : p.length + file.length + 1 = p.length + 1 + file.length := by omega
  simp only [List.nil_append, List.length_nil, List.length_append, List.length_singleton]
    at hb₁ hb₂ hb₃ hb₄
  refine ⟨b₄, ?_, ?_⟩
  · simp [fillPathBuf, hb₁, hb₂, hb₃, hb₄, hlength]
  · rw [h₄.text (by simp [hp, hfile])]
    simp

variable [LawfulMonad m]

/-- One pass of the loop. -/
theorem searchLoop_of_strsep (hfile : '\x00' ∉ file) {cur : Option CStr} {p : CStr}
    {cur' : Option CStr} (hsep : strsep cur = some (p, cur')) (hp : '\x00' ∉ p) (ps : List CStr)
    (hrest : ∀ accessDenied pathBuf,
      searchLoop statPath attemptHandler file cur' accessDenied pathBuf =
        some <$> searchList statPath attemptHandler (ps.map (candidate file)) accessDenied)
    (accessDenied : Bool) (pathBuf : PathBuf) :
    searchLoop statPath attemptHandler file cur accessDenied pathBuf =
      some <$> searchList statPath attemptHandler ((p :: ps).map (candidate file)) accessDenied := by
  rw [searchLoop]
  split
  case h_1 hnone =>
    rw [hsep] at hnone
    cases hnone
  case h_2 p' cur'' hsome =>
    obtain ⟨rfl, rfl⟩ : p = p' ∧ cur' = cur'' := by
      rw [hsep] at hsome
      exact ⟨congrArg Prod.fst (Option.some.inj hsome), congrArg Prod.snd (Option.some.inj hsome)⟩
    have hp' : '\x00' ∉ if p = [] then ['.'] else p := by
      split
      · decide
      · exact hp
    rw [List.map_cons, candidate]
    dsimp only
    generalize (if p = [] then ['.'] else p) = q at hp'
    by_cases hlong : q.length + file.length + 2 > pathBufSize
    · rw [if_pos hlong, if_pos hlong, searchList, map_pure]
    · obtain ⟨pathBuf', hfill, htext⟩ := fillPathBuf_text hp' hfile (by omega) pathBuf
      rw [if_neg hlong, if_neg hlong, hfill, searchList, map_bind]
      dsimp only
      rw [htext]
      congr 1
      funext next
      cases next with
      | done err => rw [map_pure]
      | search accessDenied' => exact hrest accessDenied' pathBuf'

/-- **The candidates are the components**, and the buffer holds them. -/
theorem searchLoop_eq (hfile : '\x00' ∉ file) (cur : CStr) (hcur : '\x00' ∉ cur)
    (accessDenied : Bool) (pathBuf : PathBuf) :
    searchLoop statPath attemptHandler file (some cur) accessDenied pathBuf =
      some <$> searchList statPath attemptHandler ((cur.splitOn ':').map (candidate file))
        accessDenied := by
  have hend (accessDenied : Bool) (pathBuf : PathBuf) :
      searchLoop statPath attemptHandler file none accessDenied pathBuf =
        some <$> searchList statPath attemptHandler ([].map (candidate file)) accessDenied := by
    rw [searchLoop, List.map_nil, searchList, map_pure]
    rfl
  induction cur using split_induction ':' generalizing accessDenied pathBuf with
  | base c hc =>
    rw [List.splitOn_eq_singleton hc]
    exact searchLoop_of_strsep hfile (strsep_of_not_mem hc) hcur [] hend accessDenied pathBuf
  | step c l hc ih =>
    rw [List.splitOn_append_cons_self, List.splitOn_eq_singleton hc, List.singleton_append]
    refine searchLoop_of_strsep hfile (strsep_append_cons hc l) (fun h => hcur (by simp [h])) _ ?_
      accessDenied pathBuf
    exact ih fun h => hcur (by simp [h])

/-- **The search is inside of its buffer**: it is the search over the list of candidates. -/
theorem resolvePath_eq_searchList (hfile : '\x00' ∉ file) {getenvPath searchPath : Option CStr}
    (hpath : '\x00' ∉ envPathOf getenvPath searchPath) (pathBuf : PathBuf) :
    resolvePath statPath attemptHandler getenvPath file searchPath pathBuf =
      if file = [] then return some enoent
      else
        some <$> searchList statPath attemptHandler
          (candidates file (envPathOf getenvPath searchPath)) false := by
  unfold resolvePath candidates
  by_cases hslash : '/' ∈ file
  · have hne : file ≠ [] := List.ne_nil_of_mem hslash
    rw [if_pos hslash, if_neg hne, if_pos hslash, searchList, map_bind]
    congr 1
    funext next
    cases next with
    | done err => rw [map_pure]
    | search accessDenied =>
      dsimp only
      rw [searchLoop, searchList, map_pure]
      rfl
  · rw [if_neg hslash, if_neg hslash]
    split
    · rfl
    · exact searchLoop_eq hfile _ hpath false pathBuf

end

/-! ## The hooks -/

section

variable {w : World} {attemptHandler : CStr → HookM ℤ}

theorem resolveFrom_eq (cs : List (Option CStr)) (accessDenied : Bool) :
    resolveFrom w attemptHandler cs accessDenied =
      searchList (statPath w) attemptHandler cs accessDenied := by
  induction cs generalizing accessDenied with
  | nil => rfl
  | cons c cs ih =>
    cases c with
    | none => rfl
    | some bp =>
      rw [resolveFrom, searchList, retry, bind_assoc]
      congr 1
      funext err
      split
      · rw [pure_bind]
      split
      · rw [pure_bind, ih]
      rw [bind_assoc]
      congr 1
      funext there
      cases there with
      | false => simp [ih]
      | true =>
        simp only [Bool.not_true, Bool.false_eq_true, if_false]
        split
        · rw [pure_bind, ih]
        · rw [pure_bind]

/-- The hooks that search PATH are on this search. -/
theorem resolvePath_eq {file : CStr} (hfile : '\x00' ∉ file) {getenvPath searchPath : Option CStr}
    (hpath : '\x00' ∉ envPathOf getenvPath searchPath) (pathBuf : PathBuf) :
    resolvePath (statPath w) attemptHandler getenvPath file searchPath pathBuf =
      some <$> Systemhook.resolvePath w attemptHandler getenvPath file searchPath := by
  rw [resolvePath_eq_searchList hfile hpath, Systemhook.resolvePath]
  split
  · rfl
  · rw [resolveFrom_eq]
    rfl

end

/-! ## Invariants -/

/-- A stateful program preserves an invariant. -/
def Keeps {σ α : Type} (I : σ → Prop) (x : StateM σ α) : Prop := ∀ s, I s → I (x.run s).2

section

variable {σ α β : Type} {I : σ → Prop}

theorem keeps_pure (a : α) : Keeps I (pure a : StateM σ α) := fun _ h => h

theorem Keeps.bind {x : StateM σ α} {f : α → StateM σ β} (hx : Keeps I x)
    (hf : ∀ a, Keeps I (f a)) : Keeps I (x >>= f) :=
  fun s h => hf (x.run s).1 (x.run s).2 (hx s h)

variable {statPath : CStr → StateM σ Bool} {attemptHandler : CStr → StateM σ ℤ}
  (hstat : ∀ c, Keeps I (statPath c)) (hattempt : ∀ c, Keeps I (attemptHandler c))
include hstat hattempt

theorem keeps_retry (bp : CStr) (accessDenied : Bool) :
    Keeps I (retry statPath attemptHandler bp accessDenied) := by
  refine (hattempt bp).bind fun err => ?_
  split
  · exact keeps_pure _
  split
  · exact keeps_pure _
  refine (hstat bp).bind fun there => ?_
  split
  · exact keeps_pure _
  split <;> exact keeps_pure _

theorem keeps_searchLoop (file : CStr) (cur : Option CStr) (accessDenied : Bool)
    (pathBuf : PathBuf) :
    Keeps I (searchLoop statPath attemptHandler file cur accessDenied pathBuf) := by
  induction hn : cur.elim 0 (·.length + 1) using Nat.strongRecOn
    generalizing cur accessDenied pathBuf with
  | ind n ih =>
    rw [searchLoop]
    split
    case h_1 => exact keeps_pure _
    case h_2 p cur' hsep =>
      dsimp only
      generalize (if p = [] then ['.'] else p) = q
      split
      · exact keeps_pure _
      cases fillPathBuf q file pathBuf with
      | none => exact keeps_pure _
      | some pathBuf' =>
        refine (keeps_retry hstat hattempt (pathBuf'.text '\x00') accessDenied).bind fun next => ?_
        cases next with
        | done err => exact keeps_pure _
        | search accessDenied' =>
          exact ih _ (hn ▸ strsep_lt hsep) cur' accessDenied' pathBuf' rfl

/-- What the handler and `stat` preserve, the search does. -/
theorem keeps_resolvePath (getenvPath : Option CStr) (file : CStr) (searchPath : Option CStr)
    (pathBuf : PathBuf) :
    Keeps I (resolvePath statPath attemptHandler getenvPath file searchPath pathBuf) := by
  unfold resolvePath
  split
  · refine (keeps_retry hstat hattempt file false).bind fun next => ?_
    cases next with
    | done err => exact keeps_pure _
    | search accessDenied => exact keeps_searchLoop hstat hattempt file none accessDenied pathBuf
  split
  · exact keeps_pure _
  · exact keeps_searchLoop hstat hattempt file _ false pathBuf

end

/-! ## The search of POSIX -/

section

variable (attempt : CStr → ℤ) (there : CStr → Bool)

/-- An attempt that the search ends with: it succeeds, or its error is no answer to where the file
is. -/
def Stops (c : CStr) : Prop :=
  attempt c = 0 ∨ attempt c ∈ stopErrors ∨
    attempt c ≠ eacces ∧ attempt c ∉ searchErrors ∧ there c = true

/-- A search over paths: which are tried, and the answer. `fits` is about their length. -/
inductive PosixSearch (fits : CStr → Prop) (cs : List CStr) : List CStr → ℤ → Prop
  | stopped {before rest : List CStr} {c : CStr} (hcs : cs = before ++ c :: rest)
      (hfits : ∀ b ∈ before ++ [c], fits b) (hbefore : ∀ b ∈ before, ¬ Stops attempt there b)
      (hstops : Stops attempt there c) : PosixSearch fits cs (before ++ [c]) (attempt c)
  | tooLong {before rest : List CStr} {c : CStr} (hcs : cs = before ++ c :: rest)
      (hfits : ∀ b ∈ before, fits b) (hbefore : ∀ b ∈ before, ¬ Stops attempt there b)
      (hlong : ¬ fits c) : PosixSearch fits cs before enametoolong
  | exhausted (hfits : ∀ b ∈ cs, fits b) (hcs : ∀ b ∈ cs, ¬ Stops attempt there b) :
      PosixSearch fits cs cs
        (if ∃ c ∈ cs, attempt c = eacces ∧ there c = true then eacces else enoent)

/-- The paths of a file in the components of a search path; an empty one is `.`. -/
def paths (file searchPath : CStr) : List CStr :=
  (searchPath.splitOn ':').map fun dir => (if dir = [] then ['.'] else dir) ++ '/' :: file

/-- A handler that notes the paths it is called on. -/
def noting (path : CStr) : StateM (List CStr) ℤ := do
  modify (· ++ [path])
  return attempt path

end

variable {attempt : CStr → ℤ} {there : CStr → Bool}

/-- One attempt. -/
theorem retry_run (hthere : ∀ c, attempt c = 0 → there c = true) (bp : CStr) (accessDenied : Bool)
    (tried : List CStr) : ∃ next,
      (retry (fun c => pure (there c)) (noting attempt) bp accessDenied).run tried =
        (next, tried ++ [bp]) ∧
      (Stops attempt there bp ∧ next = .done (attempt bp) ∨
        ¬ Stops attempt there bp ∧
          next = .search (accessDenied || (attempt bp == eacces && there bp))) := by
  have hzero : (0 : ℤ) ∉ stopErrors ∧ (0 : ℤ) ∉ searchErrors ∧ (0 : ℤ) ≠ eacces := by decide
  have heacces : eacces ∉ stopErrors ∧ eacces ∉ searchErrors ∧ eacces ≠ 0 := by decide
  by_cases hstop : attempt bp ∈ stopErrors
  · refine ⟨.done (attempt bp), ?_, .inl ⟨.inr (.inl hstop), rfl⟩⟩
    simp [retry, noting, hstop]
    rfl
  by_cases hsearch : attempt bp ∈ searchErrors
  · have hne : attempt bp ≠ eacces := fun h => heacces.2.1 (h ▸ hsearch)
    have hne0 : attempt bp ≠ 0 := fun h => hzero.2.1 (h ▸ hsearch)
    refine ⟨.search accessDenied, ?_, .inr ⟨?_, by simp [hne]⟩⟩
    · simp [retry, noting, hstop, hsearch]
      rfl
    · rintro (h | h | h)
      · exact hne0 h
      · exact hstop h
      · exact h.2.1 hsearch
  cases hthere' : there bp with
  | false =>
    refine ⟨.search accessDenied, ?_, .inr ⟨?_, by simp⟩⟩
    · simp [retry, noting, hstop, hthere']
      rfl
    · rintro (h | h | h)
      · rw [hthere bp h] at hthere'
        cases hthere'
      · exact hstop h
      · rw [h.2.2] at hthere'
        cases hthere'
  | true =>
    by_cases heq : attempt bp = eacces
    · refine ⟨.search true, ?_, .inr ⟨?_, by simp [heq]⟩⟩
      · simp [retry, noting, hthere', heq, heacces]
        rfl
      · rintro (h | h | h)
        · exact heacces.2.2 (heq.symm.trans h)
        · exact hstop h
        · exact h.1 heq
    · refine ⟨.done (attempt bp), ?_, .inl ⟨.inr (.inr ⟨heq, hsearch, hthere'⟩), rfl⟩⟩
      simp [retry, noting, hstop, hsearch, hthere', heq]
      rfl

theorem searchList_done {σ : Type} {statPath : CStr → StateM σ Bool}
    {attemptHandler : CStr → StateM σ ℤ} {bp : CStr} {rest : List (Option CStr)}
    {accessDenied : Bool} {s s' : σ} {err : ℤ}
    (h : (retry statPath attemptHandler bp accessDenied).run s = (.done err, s')) :
    (searchList statPath attemptHandler (some bp :: rest) accessDenied).run s = (err, s') := by
  rw [searchList, StateT.run_bind, h]
  rfl

theorem searchList_search {σ : Type} {statPath : CStr → StateM σ Bool}
    {attemptHandler : CStr → StateM σ ℤ} {bp : CStr} {rest : List (Option CStr)}
    {accessDenied accessDenied' : Bool} {s s' : σ}
    (h : (retry statPath attemptHandler bp accessDenied).run s = (.search accessDenied', s')) :
    (searchList statPath attemptHandler (some bp :: rest) accessDenied).run s =
      (searchList statPath attemptHandler rest accessDenied').run s' := by
  rw [searchList, StateT.run_bind, h]
  rfl

/-- The search over the candidates `cs`, when `before` were tried already. -/
theorem searchList_posix (hthere : ∀ c, attempt c = 0 → there c = true) (fits : CStr → Prop)
    [DecidablePred fits] (cs before : List CStr) (accessDenied : Bool)
    (hfits : ∀ b ∈ before, fits b) (hbefore : ∀ b ∈ before, ¬ Stops attempt there b)
    (hdenied : accessDenied = true ↔ ∃ b ∈ before, attempt b = eacces ∧ there b = true) :
    ∃ tried ret, (searchList (fun c => pure (there c)) (noting attempt)
        (cs.map fun c => if fits c then some c else none) accessDenied).run before = (ret, tried) ∧
      PosixSearch attempt there fits (before ++ cs) tried ret := by
  induction cs generalizing before accessDenied with
  | nil =>
    refine ⟨before, _, rfl, ?_⟩
    rw [List.append_nil]
    simp only [hdenied]
    exact .exhausted hfits hbefore
  | cons c cs ih =>
    by_cases hc : fits c
    · have hfits' : ∀ b ∈ before ++ [c], fits b := by
        intro b hb
        rcases List.mem_append.mp hb with hb | hb
        · exact hfits b hb
        · rwa [List.mem_singleton.mp hb]
      obtain ⟨next, hrun, hnext⟩ := retry_run hthere c accessDenied before
      obtain ⟨hstops, rfl⟩ | ⟨hgoes, rfl⟩ := hnext
      · refine ⟨_, _, ?_, .stopped rfl hfits' hbefore hstops⟩
        rw [List.map_cons, if_pos hc, searchList_done hrun]
      · have hbefore' : ∀ b ∈ before ++ [c], ¬ Stops attempt there b := by
          intro b hb
          rcases List.mem_append.mp hb with hb | hb
          · exact hbefore b hb
          · rwa [List.mem_singleton.mp hb]
        have hdenied' : (accessDenied || (attempt c == eacces && there c)) = true ↔
            ∃ b ∈ before ++ [c], attempt b = eacces ∧ there b = true := by
          simp [hdenied, or_and_right, exists_or]
        obtain ⟨tried, ret, hsearch, hposix⟩ := ih _ _ hfits' hbefore' hdenied'
        rw [List.append_assoc, List.singleton_append] at hposix
        refine ⟨tried, ret, ?_, hposix⟩
        rw [List.map_cons, if_pos hc, searchList_search hrun, hsearch]
    · refine ⟨before, enametoolong, ?_, .tooLong rfl hfits hbefore hc⟩
      rw [List.map_cons, if_neg hc]
      rfl

theorem paths_candidates (file searchPath : CStr) :
    ((paths file searchPath).map fun c => if c.length ≤ pathBufSize - 1 then some c else none) =
      (searchPath.splitOn ':').map (candidate file) := by
  rw [paths, List.map_map]
  congr 1
  funext dir
  simp only [Function.comp_apply, candidate, List.length_append, List.length_cons]
  generalize (if dir = [] then ['.'] else dir) = p
  have hsize : pathBufSize = 1024 := rfl
  by_cases h : p.length + file.length + 2 > pathBufSize
  · rw [if_pos h, if_neg (by omega)]
  · rw [if_neg h, if_pos (by omega)]

/-- **The search of POSIX**: a name without a slash is looked for in the components of the search
path, in order, up to the first attempt that ends the search; a path is tried as it is. -/
theorem resolvePath_posix (hthere : ∀ c, attempt c = 0 → there c = true) {file : CStr}
    (hfile : '\x00' ∉ file) {getenvPath searchPath : Option CStr}
    (hpath : '\x00' ∉ envPathOf getenvPath searchPath) (hne : file ≠ []) (pathBuf : PathBuf) :
    ∃ tried ret, (resolvePath (fun c => pure (there c)) (noting attempt) getenvPath file searchPath
        pathBuf).run [] = (some ret, tried) ∧
      if '/' ∈ file then PosixSearch attempt there (fun _ => True) [file] tried ret
      else
        PosixSearch attempt there (fun c => c.length ≤ pathBufSize - 1)
          (paths file (envPathOf getenvPath searchPath)) tried ret := by
  rw [resolvePath_eq_searchList hfile hpath, if_neg hne, candidates]
  split
  · obtain ⟨tried, ret, hrun, hposix⟩ := searchList_posix hthere (fun _ => True) [file] [] false
      (by simp) (by simp) (by simp)
    refine ⟨tried, ret, ?_, hposix⟩
    rw [List.map_singleton, if_pos trivial] at hrun
    rw [StateT.run_map, hrun]
    rfl
  · obtain ⟨tried, ret, hrun, hposix⟩ := searchList_posix hthere
      (fun c => c.length ≤ pathBufSize - 1) (paths file (envPathOf getenvPath searchPath)) [] false
      (by simp) (by simp) (by simp)
    refine ⟨tried, ret, ?_, hposix⟩
    rw [paths_candidates] at hrun
    rw [StateT.run_map, hrun]
    rfl

def lsThere (c : CStr) : Bool := c == "/bin/ls".toList

def lsAttempt (c : CStr) : ℤ := if lsThere c then 0 else enoent

def emptyBuf : PathBuf := ⟨List.replicate pathBufSize '\x00', List.length_replicate⟩

theorem resolvePath_posix_ls : ∃ tried ret,
    (resolvePath (fun c => pure (lsThere c)) (noting lsAttempt) (some ":/bin".toList) "ls".toList none
      emptyBuf).run [] = (some ret, tried) ∧
      if '/' ∈ "ls".toList then PosixSearch lsAttempt lsThere (fun _ => True) ["ls".toList] tried ret
      else
        PosixSearch lsAttempt lsThere (fun c => c.length ≤ pathBufSize - 1)
          (paths "ls".toList (envPathOf (some ":/bin".toList) none)) tried ret := by
  refine resolvePath_posix (fun c h => ?_) (by decide) (by decide) (by decide) emptyBuf
  cases hthere : lsThere c with
  | true => rfl
  | false =>
    rw [lsAttempt, hthere] at h
    cases h

end Jbinit.Systemhook.Search

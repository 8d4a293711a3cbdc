import Jbinit.CString
import Jbinit.Foundations.FirstMatch

/-!
# The environment buffer

`envbuf.c`: a NULL-terminated array of `NAME=value` strings, read by first match and rewritten in
place. Here the array is the list of its strings (`none` is the NULL array); `EnvbufHeap` models the
same functions on memory blocks and proves that they compute these.

Each function is one of the operations of a first-match table whose keys are the names:
`envbufGetenv_eq`, `envbufSetenv_eq`, `envbufUnsetenv_eq`. Names without `=` are apart
(`namedBy_apart`), so that operations on different variables do not interfere.
-/

namespace Jbinit.Systemhook

open Foundations

/-- The test of `envbuf_find` on one entry: it is longer than the name, starts with it, and has
`=` right after it. -/
def namedBy (name env : CStr) : Bool :=
  decide (name.length < env.length) && env.take name.length == name &&
    env[name.length]? == some '='

/-- The loop of `envbuf_find` from index `k` on. -/
def envbufFindFrom (name : CStr) : List CStr → ℕ → Option ℕ
  | [], _ => none
  | env :: rest, k => if namedBy name env then some k else envbufFindFrom name rest (k + 1)

def envbufFind (envp : Option (List CStr)) (name : CStr) : Option ℕ :=
  match envp with
  | none => none
  | some l => envbufFindFrom name l 0

/-- A copy of the array and of every string in it. -/
def envbufMutcopy (envp : Option (List CStr)) : Option (List CStr) := envp

def envbufGetenv (envp : Option (List CStr)) (name : CStr) : Option CStr :=
  match envp with
  | none => none
  | some l => (envbufFind envp name).bind fun i => (l[i]?).map fun env => env.drop (name.length + 1)

def envbufSetenv (envp : Option (List CStr)) (name value : CStr) : Option (List CStr) :=
  -- the NULL array is treated as the empty one
  let l := envp.getD []
  let envToSet := name ++ '=' :: value
  match envbufFind (some l) name with
  | some i => some (l.set i envToSet)
  | none => some (l ++ [envToSet])

def envbufUnsetenv (envp : Option (List CStr)) (name : CStr) : Option (List CStr) :=
  match envp with
  | none => none
  | some l =>
    match envbufFind envp name with
    | some i => some (l.eraseIdx i)
    | none => some l

/-! ## Entries and names -/

theorem namedBy_iff {name env : CStr} :
    namedBy name env = true ↔ ∃ value, env = name ++ '=' :: value := by
  simp only [namedBy, Bool.and_eq_true, decide_eq_true_eq, beq_iff_eq]
  constructor
  · rintro ⟨⟨hlen, htake⟩, hget⟩
    refine ⟨env.drop (name.length + 1), ?_⟩
    obtain ⟨hlt, hc⟩ := List.getElem?_eq_some_iff.mp hget
    calc env = env.take name.length ++ env.drop name.length := (List.take_append_drop ..).symm
      _ = name ++ '=' :: env.drop (name.length + 1) := by
        rw [htake, List.drop_eq_getElem_cons hlt, hc]
  · rintro ⟨value, rfl⟩
    simp

theorem namedBy_entry (name value : CStr) : namedBy name (name ++ '=' :: value) = true :=
  namedBy_iff.mpr ⟨value, rfl⟩

theorem takeWhile_name {name : CStr} (h : '=' ∉ name) (value : CStr) :
    (name ++ '=' :: value).takeWhile (· != '=') = name := by
  have hname : ∀ c ∈ name, (c != '=') = true := fun c hc => bne_iff_ne.mpr (ne_of_mem_of_not_mem hc h)
  rw [List.takeWhile_append_of_pos hname]
  simp

/-- Different names without `=` name different entries. -/
theorem namedBy_apart {name name' : CStr} (h : '=' ∉ name) (h' : '=' ∉ name') (hne : name ≠ name') :
    FirstMatch.Apart (namedBy name) (namedBy name') := by
  intro env he
  by_contra he'
  obtain ⟨v, rfl⟩ := namedBy_iff.mp he
  obtain ⟨v', hv⟩ := namedBy_iff.mp (by simpa using he')
  rw [← takeWhile_name h v, hv, takeWhile_name h' v'] at hne
  exact hne rfl

theorem envbufFindFrom_eq (name : CStr) (l : List CStr) (k : ℕ) :
    envbufFindFrom name l k = (l.findIdx? (namedBy name)).map (· + k) := by
  induction l generalizing k with
  | nil => rfl
  | cons env l ih =>
    rw [envbufFindFrom, List.findIdx?_cons, ih]
    split
    · simp
    · simp [Option.map_map, Function.comp_def, Nat.add_assoc, Nat.add_comm 1]

theorem envbufFind_some (l : List CStr) (name : CStr) :
    envbufFind (some l) name = l.findIdx? (namedBy name) := by
  simp [envbufFind, envbufFindFrom_eq]

/-! ## The operations of a first-match table -/

theorem getElem?_findIdx? (p : CStr → Bool) (l : List CStr) :
    (l.findIdx? p).bind (l[·]?) = l.find? p := by
  induction l with
  | nil => rfl
  | cons a l ih =>
    rw [List.findIdx?_cons, List.find?_cons]
    cases p a
    · simpa [Option.bind_map, Function.comp_def] using ih
    · simp

theorem envbufGetenv_eq (l : List CStr) (name : CStr) :
    envbufGetenv (some l) name =
      (l.find? (namedBy name)).map fun env => env.drop (name.length + 1) := by
  rw [envbufGetenv, envbufFind_some, ← getElem?_findIdx?]
  cases l.findIdx? (namedBy name) <;> rfl

theorem envbufSetenv_eq (envp : Option (List CStr)) (name value : CStr) :
    envbufSetenv envp name value =
      some (FirstMatch.put (namedBy name) (name ++ '=' :: value) (envp.getD [])) := by
  simp only [envbufSetenv, envbufFind_some, FirstMatch.put_eq_findIdx?]
  cases (envp.getD []).findIdx? (namedBy name) <;> rfl

theorem envbufUnsetenv_eq (envp : Option (List CStr)) (name : CStr) :
    envbufUnsetenv envp name = envp.map fun l => l.eraseP (namedBy name) := by
  cases envp with
  | none => rfl
  | some l =>
    simp only [envbufUnsetenv, envbufFind_some, Option.map_some, List.eraseP_eq_eraseIdx]
    cases l.findIdx? (namedBy name) <;> rfl

/-! ## The values of a variable -/

/-- The strings of an environment; the NULL array has none. -/
abbrev entries (envp : Option (List CStr)) : List CStr := envp.getD []

/-- The values of all entries of a name, in order. A look-up sees the first. -/
def envValues (envp : Option (List CStr)) (name : CStr) : List CStr :=
  ((entries envp).filter (namedBy name)).map fun env => env.drop (name.length + 1)

theorem envbufGetenv_eq_head? (envp : Option (List CStr)) (name : CStr) :
    envbufGetenv envp name = (envValues envp name).head? := by
  rw [envValues, List.head?_map, List.head?_filter]
  cases envp with
  | none => rfl
  | some l => exact envbufGetenv_eq l name

@[simp] theorem entries_setenv (envp : Option (List CStr)) (name value : CStr) :
    entries (envbufSetenv envp name value) =
      FirstMatch.put (namedBy name) (name ++ '=' :: value) (entries envp) := by
  rw [envbufSetenv_eq]
  rfl

@[simp] theorem entries_unsetenv (envp : Option (List CStr)) (name : CStr) :
    entries (envbufUnsetenv envp name) = (entries envp).eraseP (namedBy name) := by
  rw [envbufUnsetenv_eq]
  cases envp <;> rfl

theorem envValues_setenv_self (envp : Option (List CStr)) (name value : CStr) :
    envValues (envbufSetenv envp name value) name = value :: (envValues envp name).tail := by
  rw [envValues, entries_setenv, FirstMatch.filter_put_self (namedBy_entry name value)]
  simp [envValues, List.map_tail]

theorem envValues_unsetenv_self (envp : Option (List CStr)) (name : CStr) :
    envValues (envbufUnsetenv envp name) name = (envValues envp name).tail := by
  rw [envValues, entries_unsetenv, FirstMatch.filter_eraseP_self, envValues, List.map_tail]

section Apart

variable {name name' : CStr} (h : FirstMatch.Apart (namedBy name) (namedBy name'))
include h

theorem envValues_setenv_of_apart (envp : Option (List CStr)) (value : CStr) :
    envValues (envbufSetenv envp name value) name' = envValues envp name' := by
  rw [envValues, entries_setenv, FirstMatch.filter_put_of_apart h (namedBy_entry name value),
    envValues]

theorem envValues_unsetenv_of_apart (envp : Option (List CStr)) :
    envValues (envbufUnsetenv envp name) name' = envValues envp name' := by
  rw [envValues, entries_unsetenv, FirstMatch.filter_eraseP_of_apart h, envValues]

end Apart

/-! ## Removal -/

/-- A removal takes the variable away, and keeps the entries of other names in order. -/
structure Removes (envp : Option (List CStr)) (name : CStr) : Prop where
  gone : envbufGetenv (envbufUnsetenv envp name) name = none
  others : (entries (envbufUnsetenv envp name)).filter (fun env => !namedBy name env) =
    (entries envp).filter fun env => !namedBy name env

/-- **Removals**: only the first entry of a name is taken away, so a name that occurs more than once
comes back into view. -/
theorem removes_iff (envp : Option (List CStr)) (name : CStr) :
    Removes envp name ↔ (envValues envp name).length ≤ 1 := by
  have hgone : envbufGetenv (envbufUnsetenv envp name) name = none ↔
      (envValues envp name).length ≤ 1 := by
    rw [envbufGetenv_eq_head?, envValues_unsetenv_self]
    match envValues envp name with
    | [] => simp
    | [value] => simp
    | value :: value' :: values => simp
  have hothers : FirstMatch.Apart (namedBy name) fun env => !namedBy name env := by
    intro env henv
    simp [henv]
  constructor
  · exact fun h => hgone.mp h.gone
  · intro h
    exact ⟨hgone.mpr h, by rw [entries_unsetenv, FirstMatch.filter_eraseP_of_apart hothers]⟩

theorem not_removes_repeated : ¬ Removes (some ["JB_ROOT_PATH=/a".toList, "JB_ROOT_PATH=/b".toList])
    "JB_ROOT_PATH".toList := by
  intro h
  exact absurd h.gone (by decide)

end Jbinit.Systemhook

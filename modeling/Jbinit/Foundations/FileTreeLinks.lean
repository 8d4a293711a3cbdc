import Jbinit.Foundations.FileTree

/-!
# Following links

`Leads tree l names d k` says that the names lead from the directory `l` to `d` over `k` links. It
is the resolution of a path without its limit: a path is resolved exactly when it leads somewhere
over no more links than the limit (`resolveFrom_eq_found_iff`). What leads somewhere still does so
when there is more in the tree (`Leads.mono`), as after `insert`, which puts a node where none is;
`erase` takes one away that is not a directory.
-/

namespace Foundations.FileTree

open Delimited

variable {tree tree' : Tree} {keepLast : Bool} {budget k k' : ℕ} {l d d' : Location}
  {names rest : List Name} {n : Name} {node : Node} {target : List Char}

inductive Leads (tree : Tree) : Location → List Name → Location → ℕ → Prop
  | nil (l : Location) : Leads tree l [] l 0
  | here {l d : Location} {rest : List Name} {k : ℕ} (h : Leads tree l rest d k) :
      Leads tree l (dot :: rest) d k
  | up {l d : Location} {rest : List Name} {k : ℕ} (h : Leads tree l.dropLast rest d k) :
      Leads tree l (dotdot :: rest) d k
  | enter {l d : Location} {n : Name} {rest : List Name} {k : ℕ} {node : Node} (hdot : n ≠ dot)
      (hdotdot : n ≠ dotdot) (hnode : tree.node (l ++ [n]) = some node)
      (hlink : ∀ target, node ≠ .link target) (h : Leads tree (l ++ [n]) rest d k) :
      Leads tree l (n :: rest) d k
  | link {l d : Location} {n : Name} {rest : List Name} {k : ℕ} {target : List Char}
      (hdot : n ≠ dot) (hdotdot : n ≠ dotdot) (hnode : tree.node (l ++ [n]) = some (.link target))
      (h : Leads tree (linkStart l target) (components '/' target ++ rest) d k) :
      Leads tree l (n :: rest) d (k + 1)

namespace Leads

/-- More in the tree does not lead elsewhere. -/
theorem mono (hsub : ∀ l node, tree.node l = some node → tree'.node l = some node)
    (h : Leads tree l names d k) : Leads tree' l names d k := by
  induction h with
  | nil l => exact .nil l
  | here _ ih => exact .here ih
  | up _ ih => exact .up ih
  | enter hdot hdotdot hnode hlink _ ih => exact .enter hdot hdotdot (hsub _ _ hnode) hlink ih
  | link hdot hdotdot hnode _ ih => exact .link hdot hdotdot (hsub _ _ hnode) ih

theorem append (h : Leads tree l names d k) (h' : Leads tree d rest d' k') :
    Leads tree l (names ++ rest) d' (k + k') := by
  induction h with
  | nil l => rwa [List.nil_append, Nat.zero_add]
  | here _ ih => exact .here (ih h')
  | up _ ih => exact .up (ih h')
  | enter hdot hdotdot hnode hlink _ ih => exact .enter hdot hdotdot hnode hlink (ih h')
  | link hdot hdotdot hnode _ ih =>
    have hrest := ih h'
    rw [List.append_assoc] at hrest
    rw [Nat.add_right_comm]
    exact .link hdot hdotdot hnode hrest

/-- The names that follow go on from where the first ones lead. -/
theorem of_append (h : Leads tree l names d k) (h' : Leads tree l (names ++ rest) d' k') :
    ∃ k₁, Leads tree d rest d' k₁ ∧ k' = k + k₁ := by
  induction h generalizing k' with
  | nil l => exact ⟨k', h', (Nat.zero_add k').symm⟩
  | here _ ih =>
    cases h' with
    | here h' => exact ih h'
    | enter hdot => exact absurd rfl hdot
    | link hdot => exact absurd rfl hdot
  | up _ ih =>
    cases h' with
    | up h' => exact ih h'
    | enter _ hdotdot => exact absurd rfl hdotdot
    | link _ hdotdot => exact absurd rfl hdotdot
  | enter hdot hdotdot hnode hlink _ ih =>
    cases h' with
    | here => exact absurd rfl hdot
    | up => exact absurd rfl hdotdot
    | enter _ _ _ _ h' => exact ih h'
    | link _ _ hnode' =>
      rw [hnode, Option.some.injEq] at hnode'
      exact absurd hnode' (hlink _)
  | link hdot hdotdot hnode _ ih =>
    cases h' with
    | here => exact absurd rfl hdot
    | up => exact absurd rfl hdotdot
    | enter _ _ hnode' hlink =>
      rw [hnode, Option.some.injEq] at hnode'
      exact absurd hnode'.symm (hlink _)
    | link _ _ hnode' h' =>
      rw [hnode, Option.some.injEq, Node.link.injEq] at hnode'
      subst hnode'
      obtain ⟨k₁, h₁, rfl⟩ := ih (by rw [List.append_assoc]; exact h')
      exact ⟨k₁, h₁, by omega⟩

/-- The names determine where they lead, and over how many links. -/
theorem unique (h : Leads tree l names d k) (h' : Leads tree l names d' k') : d = d' ∧ k = k' := by
  rw [← List.append_nil names] at h'
  obtain ⟨k₁, hrest, rfl⟩ := h.of_append h'
  cases hrest
  exact ⟨rfl, rfl⟩

end Leads

/-! ## Resolution -/

theorem resolveFrom_nil (tree : Tree) (keepLast : Bool) (budget : ℕ) (l : Location) :
    resolveFrom tree keepLast budget l [] = .found l := by
  cases budget <;> rfl

theorem resolveFrom_here (l : Location) (rest : List Name) :
    resolveFrom tree keepLast budget l (dot :: rest) =
      resolveFrom tree keepLast budget l rest := by
  cases budget <;> rfl

theorem resolveFrom_up (l : Location) (rest : List Name) :
    resolveFrom tree keepLast budget l (dotdot :: rest) =
      resolveFrom tree keepLast budget l.dropLast rest := by
  cases budget <;> rfl

theorem resolveFrom_enter (hdot : n ≠ dot) (hdotdot : n ≠ dotdot)
    (hnode : tree.node (l ++ [n]) = some node) (hlink : ∀ target, node ≠ .link target)
    (rest : List Name) : resolveFrom tree keepLast budget l (n :: rest) =
      resolveFrom tree keepLast budget (l ++ [n]) rest := by
  cases budget <;> cases node <;> simp_all [resolveFrom, walk]

theorem resolveFrom_missing_name (hdot : n ≠ dot) (hdotdot : n ≠ dotdot)
    (hnode : tree.node (l ++ [n]) = none) (rest : List Name) :
    resolveFrom tree keepLast budget l (n :: rest) = .missing (l ++ [n]) rest := by
  cases budget <;> simp [resolveFrom, walk, hdot, hdotdot, hnode]

/-- A link that is followed takes one from the limit. -/
theorem resolveFrom_link (hdot : n ≠ dot) (hdotdot : n ≠ dotdot)
    (hnode : tree.node (l ++ [n]) = some (.link target))
    (hfollow : (keepLast && rest.isEmpty) = false) :
    resolveFrom tree keepLast budget l (n :: rest) = match budget with
      | 0 => .loop (l ++ [n])
      | budget + 1 => resolveFrom tree keepLast budget (linkStart l target)
          (components '/' target ++ rest) := by
  cases budget <;> simp [resolveFrom, walk, hdot, hdotdot, hnode, hfollow]

/-- The resolution goes on from where the first names lead. -/
theorem resolveFrom_append (h : Leads tree l names d k) (hk : k ≤ budget)
    (hrest : (keepLast && rest.isEmpty) = false) :
    resolveFrom tree keepLast budget l (names ++ rest) =
      resolveFrom tree keepLast (budget - k) d rest := by
  induction h generalizing budget with
  | nil l => rfl
  | here _ ih => exact (resolveFrom_here _ _).trans (ih hk)
  | up _ ih => exact (resolveFrom_up _ _).trans (ih hk)
  | enter hdot hdotdot hnode hlink _ ih =>
    exact (resolveFrom_enter hdot hdotdot hnode hlink _).trans (ih hk)
  | @link l d n rest' k target hdot hdotdot hnode _ ih =>
    have hfollow : (keepLast && (rest' ++ rest).isEmpty) = false := by
      cases keepLast with
      | false => rfl
      | true =>
        have hne : rest ≠ [] := by simpa using hrest
        simp [hne]
    obtain ⟨budget, rfl⟩ : ∃ b, budget = b + 1 := ⟨budget - 1, by omega⟩
    rw [List.cons_append, resolveFrom_link hdot hdotdot hnode hfollow]
    dsimp only
    rw [← List.append_assoc, ih (by omega), Nat.add_sub_add_right]

theorem leads_of_resolveFrom (h : resolveFrom tree false budget l names = .found d) :
    ∃ k ≤ budget, Leads tree l names d k := by
  induction budget using Nat.strongRecOn generalizing l names with
  | ind budget ih =>
    induction names generalizing l with
    | nil =>
      rw [resolveFrom_nil, Resolution.found.injEq] at h
      exact ⟨0, Nat.zero_le budget, h ▸ .nil l⟩
    | cons n rest ihrest =>
      by_cases hdot : n = dot
      · subst hdot
        rw [resolveFrom_here] at h
        obtain ⟨k, hk, h⟩ := ihrest h
        exact ⟨k, hk, .here h⟩
      by_cases hdotdot : n = dotdot
      · subst hdotdot
        rw [resolveFrom_up] at h
        obtain ⟨k, hk, h⟩ := ihrest h
        exact ⟨k, hk, .up h⟩
      cases hnode : tree.node (l ++ [n]) with
      | none =>
        rw [resolveFrom_missing_name hdot hdotdot hnode] at h
        cases h
      | some node =>
        by_cases hlink : ∃ target, node = .link target
        · obtain ⟨target, rfl⟩ := hlink
          rw [resolveFrom_link hdot hdotdot hnode rfl] at h
          cases budget with
          | zero => cases h
          | succ budget =>
            obtain ⟨k, hk, h⟩ := ih budget (Nat.lt_succ_self budget) h
            exact ⟨k + 1, Nat.succ_le_succ hk, .link hdot hdotdot hnode h⟩
        · have hnot : ∀ target, node ≠ .link target := fun target heq => hlink ⟨target, heq⟩
          rw [resolveFrom_enter hdot hdotdot hnode hnot] at h
          obtain ⟨k, hk, h⟩ := ihrest h
          exact ⟨k, hk, .enter hdot hdotdot hnode hnot h⟩

/-- **Resolution is following links**, no more than the limit. -/
theorem resolveFrom_eq_found_iff :
    resolveFrom tree false budget l names = .found d ↔ ∃ k ≤ budget, Leads tree l names d k := by
  constructor
  · exact leads_of_resolveFrom
  · rintro ⟨k, hk, h⟩
    have hend : resolveFrom tree false budget l (names ++ []) = _ := resolveFrom_append h hk rfl
    rwa [List.append_nil, resolveFrom_nil] at hend

theorem resolve_eq_found_iff {path : List Char} : tree.resolve path = .found d ↔
    ∃ k ≤ maxSymlinks, Leads tree [] (components '/' path) d k :=
  resolveFrom_eq_found_iff

/-- The last name is looked up in the directory that the names before it lead to. -/
theorem lookup_eq_of_leads {path : List Char} (h : Leads tree [] names d k) (hk : k ≤ maxSymlinks)
    (hpath : components '/' path = names ++ [n]) (hdot : n ≠ dot) (hdotdot : n ≠ dotdot) :
    tree.lookup path = match tree.node (d ++ [n]) with
      | some _ => .found (d ++ [n])
      | none => .missing (d ++ [n]) [] := by
  rw [Tree.lookup, hpath, resolveFrom_append h hk (by simp)]
  cases hnode : tree.node (d ++ [n]) with
  | none => exact resolveFrom_missing_name hdot hdotdot hnode []
  | some node =>
    cases maxSymlinks - k <;> cases node <;> simp [resolveFrom, walk, hdot, hdotdot, hnode]

/-! ## Changes -/

/-- Take away a node that is not a directory. -/
def Tree.erase (tree : Tree) (l : Location) (h : tree.node l ≠ some .directory) : Tree where
  node := Function.update tree.node l none
  root := by
    have hne : [] ≠ l := by
      rintro rfl
      exact h tree.root
    rw [Function.update_of_ne hne, tree.root]
  parent := by
    intro m n hn
    by_cases hl : m ++ [n] = l
    · subst hl
      simp at hn
    · rw [Function.update_of_ne hl] at hn
      have hparent := tree.parent m n hn
      have hne : m ≠ l := by
        rintro rfl
        exact h hparent
      rw [Function.update_of_ne hne, hparent]
  names := by
    intro m n hn
    by_cases hl : m ++ [n] = l
    · subst hl
      simp at hn
    · rw [Function.update_of_ne hl] at hn
      exact tree.names m n hn

/-- Put a node that has nothing below it where there is none. -/
def Tree.insert (tree : Tree) (l : Location) (n : Name) (node : Node)
    (hl : tree.node l = some .directory) (hn : IsName n) (habsent : tree.node (l ++ [n]) = none) :
    Tree where
  node := Function.update tree.node (l ++ [n]) (some node)
  root := by
    rw [Function.update_of_ne (by simp), tree.root]
  parent := by
    intro m n' hn'
    by_cases heq : m ++ [n'] = l ++ [n]
    · obtain ⟨rfl, -⟩ := List.append_inj' heq rfl
      rw [Function.update_of_ne (by simp), hl]
    · rw [Function.update_of_ne heq] at hn'
      have hparent := tree.parent m n' hn'
      have hne : m ≠ l ++ [n] := by
        rintro rfl
        rw [habsent] at hparent
        cases hparent
      rw [Function.update_of_ne hne, hparent]
  names := by
    intro m n' hn'
    by_cases heq : m ++ [n'] = l ++ [n]
    · obtain ⟨-, hname⟩ := List.append_inj' heq rfl
      rw [List.cons.injEq] at hname
      rw [hname.1]
      exact hn
    · rw [Function.update_of_ne heq] at hn'
      exact tree.names m n' hn'

end Foundations.FileTree

import Mathlib.Data.List.Infix
import Mathlib.Data.List.Induction
import Jbinit.Foundations.Delimited

/-!
# File trees

What is at each location of a file system, a location being the names that lead to it from the root.
A path is resolved from left to right: links are followed, up to a number of them, and the first
name that is missing ends it (`Tree.resolve`). The walk goes through canonical locations only, in
which no name is a link, so that the text of a resolved location resolves to the location
(`resolve_text_found`, `resolve_text_missing`), and a location is below another exactly when its
text continues that of the other by a separator (`asDirectory_prefix_iff`).

A separator at the end of a path is not looked at.
-/

namespace Foundations.FileTree

open Delimited

abbrev Name := List Char

/-- The names from the root. -/
abbrev Location := List Name

inductive Node
  | directory
  | file
  | link (target : List Char)
  | special
  deriving DecidableEq

def dot : Name := ['.']

def dotdot : Name := ['.', '.']

/-- A name of a directory entry. -/
structure IsName (n : Name) : Prop where
  component : IsComponent '/' n
  ne_dot : n ≠ dot
  ne_dotdot : n ≠ dotdot

instance (n : Name) : Decidable (IsName n) :=
  decidable_of_iff ((n ≠ [] ∧ '/' ∉ n) ∧ n ≠ dot ∧ n ≠ dotdot)
    ⟨fun h => ⟨h.1, h.2.1, h.2.2⟩, fun h => ⟨h.component, h.ne_dot, h.ne_dotdot⟩⟩

@[ext]
structure Tree where
  node : Location → Option Node
  root : node [] = some .directory
  parent : ∀ l n, (node (l ++ [n])).isSome = true → node l = some .directory
  names : ∀ l n, (node (l ++ [n])).isSome = true → IsName n

/-- The nodes of a list below the root. -/
def nodeOf (entries : List (Location × Node)) (l : Location) : Option Node :=
  if l = [] then some .directory else entries.lookup l

theorem mem_of_nodeOf {entries : List (Location × Node)} {l : Location} {n : Name}
    (h : (nodeOf entries (l ++ [n])).isSome = true) : ∃ node, (l ++ [n], node) ∈ entries := by
  rw [nodeOf, if_neg (by simp)] at h
  obtain ⟨node, hnode⟩ := Option.isSome_iff_exists.mp h
  obtain ⟨before, after, rfl, -⟩ := List.lookup_eq_some_iff.mp hnode
  exact ⟨node, by simp⟩

/-- The tree with these nodes. -/
def Tree.ofEntries (entries : List (Location × Node))
    (hparent : ∀ e ∈ entries, nodeOf entries e.1.dropLast = some .directory)
    (hnames : ∀ e ∈ entries, ∀ n ∈ e.1.getLast?, IsName n) : Tree where
  node := nodeOf entries
  root := rfl
  parent := by
    intro l n h
    obtain ⟨node, hmem⟩ := mem_of_nodeOf h
    have hdirectory := hparent _ hmem
    rwa [List.dropLast_concat] at hdirectory
  names := by
    intro l n h
    obtain ⟨node, hmem⟩ := mem_of_nodeOf h
    exact hnames _ hmem n (by simp)

/-! ## Resolution -/

inductive Resolution
  | found (l : Location)
  /-- The location of the first name that is not there, and the names after it. -/
  | missing (l : Location) (rest : List Name)
  /-- The link at which there are too many. -/
  | loop (l : Location)
  deriving DecidableEq

def Resolution.location : Resolution → Location
  | .found l => l
  | .missing l _ => l
  | .loop l => l

/-- Where the target of a link in the directory `l` starts. -/
def linkStart (l : Location) (target : List Char) : Location :=
  if target.head? = some '/' then [] else l

section

variable (tree : Tree) (follow : Location → Location → List Name → Resolution) (keepLast : Bool)

/-- The walk along names, beginning in the directory `l`. With `keepLast`, a link is not followed
when it is the last name. -/
def walk : Location → List Name → Resolution
  | l, [] => .found l
  | l, n :: rest =>
    if n = dot then walk l rest
    else if n = dotdot then walk l.dropLast rest
    else
      match tree.node (l ++ [n]) with
      | none => .missing (l ++ [n]) rest
      | some (.link target) =>
        if keepLast && rest.isEmpty then .found (l ++ [n])
        else follow (l ++ [n]) (linkStart l target) (components '/' target ++ rest)
      | some _ => walk (l ++ [n]) rest

/-- The walk that follows at most `budget` links. -/
def resolveFrom : ℕ → Location → List Name → Resolution
  | 0 => walk tree (fun link _ _ => .loop link) keepLast
  | budget + 1 => walk tree (fun _ l names => resolveFrom budget l names) keepLast

end

def maxSymlinks : ℕ := 32

/-- Resolve an absolute path, the last name included. -/
def Tree.resolve (tree : Tree) (path : List Char) : Resolution :=
  resolveFrom tree false maxSymlinks [] (components '/' path)

/-- Resolve an absolute path, but do not follow a link that is the last name. -/
def Tree.lookup (tree : Tree) (path : List Char) : Resolution :=
  resolveFrom tree true maxSymlinks [] (components '/' path)

/-- The text of a location. -/
def text (l : Location) : List Char := '/' :: join '/' l

/-- The file that is opened, or made, at a path. -/
def Tree.opened (tree : Tree) (path : List Char) : Option Location :=
  match tree.resolve path with
  | .found l => if tree.node l = some .directory then none else some l
  | .missing l [] => if tree.node l.dropLast = some .directory then some l else none
  | _ => none

/-! ## Canonical locations -/

/-- No name on the way is a link. -/
inductive Canonical (tree : Tree) : Location → Prop
  | root : Canonical tree []
  | snoc {l : Location} {n : Name} {node : Node} (h : Canonical tree l) (hname : IsName n)
      (hnode : tree.node (l ++ [n]) = some node) (hlink : ∀ target, node ≠ .link target) :
      Canonical tree (l ++ [n])

variable {tree : Tree} {follow : Location → Location → List Name → Resolution} {keepLast : Bool}

theorem Canonical.dropLast {l : Location} (h : Canonical tree l) : Canonical tree l.dropLast := by
  cases h with
  | root => exact .root
  | snoc h _ _ _ => rwa [List.dropLast_concat]

theorem Canonical.isName {l : Location} (h : Canonical tree l) : ∀ n ∈ l, IsName n := by
  induction h with
  | root => simp
  | snoc h hname _ _ ih =>
    intro m hm
    rcases List.mem_append.mp hm with hm | hm
    · exact ih m hm
    · rwa [List.mem_singleton.mp hm]

theorem Canonical.node_ne_none {l : Location} (h : Canonical tree l) : tree.node l ≠ none := by
  cases h with
  | root => rw [tree.root]; exact Option.some_ne_none _
  | snoc _ _ hnode _ => rw [hnode]; exact Option.some_ne_none _

/-- A name in a canonical location. -/
inductive Entry (tree : Tree) : Location → Prop
  | concat {l : Location} {n : Name} (h : Canonical tree l) (hname : IsName n) :
      Entry tree (l ++ [n])

theorem Entry.isName {l : Location} (h : Entry tree l) : ∀ n ∈ l, IsName n := by
  obtain ⟨h, hname⟩ := h
  intro m hm
  rcases List.mem_append.mp hm with hm | hm
  · exact h.isName m hm
  · rwa [List.mem_singleton.mp hm]

/-- What a resolution that follows all links ends in. -/
def Settled (tree : Tree) : Resolution → Prop
  | .found l => Canonical tree l
  | .missing l _ => Entry tree l ∧ tree.node l = none
  | .loop l => Entry tree l ∧ ∃ target, tree.node l = some (.link target)

theorem walk_name {n : Name} (hname : IsName n) (l : Location) (rest : List Name) :
    walk tree follow keepLast l (n :: rest) =
      match tree.node (l ++ [n]) with
      | none => .missing (l ++ [n]) rest
      | some (.link target) =>
        if keepLast && rest.isEmpty then .found (l ++ [n])
        else follow (l ++ [n]) (linkStart l target) (components '/' target ++ rest)
      | some _ => walk tree follow keepLast (l ++ [n]) rest := by
  rw [walk, if_neg hname.ne_dot, if_neg hname.ne_dotdot]

theorem walk_present {n : Name} (hname : IsName n) {l : Location} {node : Node}
    (hnode : tree.node (l ++ [n]) = some node) (hlink : ∀ target, node ≠ .link target)
    (rest : List Name) : walk tree follow keepLast l (n :: rest) =
      walk tree follow keepLast (l ++ [n]) rest := by
  rw [walk_name hname, hnode]
  cases node with
  | link target => exact absurd rfl (hlink target)
  | _ => rfl

/-- One walk: what it ends in, when this holds of the links it follows. -/
theorem settled_walk
    (hfollow : ∀ link target l names, Entry tree link → tree.node link = some (.link target) →
      Canonical tree l → (∀ n ∈ names, IsComponent '/' n) → Settled tree (follow link l names))
    {l : Location} (hl : Canonical tree l) {names : List Name}
    (hnames : ∀ n ∈ names, IsComponent '/' n) : Settled tree (walk tree follow false l names) := by
  induction names generalizing l with
  | nil => exact hl
  | cons n rest ih =>
    obtain ⟨hn, hrest⟩ := List.forall_mem_cons.mp hnames
    by_cases hdot : n = dot
    · rw [walk, if_pos hdot]
      exact ih hl hrest
    by_cases hdotdot : n = dotdot
    · rw [walk, if_neg hdot, if_pos hdotdot]
      exact ih hl.dropLast hrest
    have hname : IsName n := ⟨hn, hdot, hdotdot⟩
    cases hnode : tree.node (l ++ [n]) with
    | none =>
      rw [walk_name hname, hnode]
      exact ⟨.concat hl hname, hnode⟩
    | some node =>
      by_cases hlink : ∃ target, node = .link target
      · obtain ⟨target, rfl⟩ := hlink
        rw [walk_name hname, hnode]
        refine hfollow _ target _ _ (.concat hl hname) hnode ?_ fun m hm => ?_
        · unfold linkStart
          split
          · exact .root
          · exact hl
        · rcases List.mem_append.mp hm with hm | hm
          · exact isComponent_of_mem hm
          · exact hrest m hm
      · have hpresent : ∀ target, node ≠ .link target := fun target heq => hlink ⟨target, heq⟩
        rw [walk_present hname hnode hpresent]
        exact ih (hl.snoc hname hnode hpresent) hrest

theorem settled_resolveFrom (budget : ℕ) {l : Location} (hl : Canonical tree l)
    {names : List Name} (hnames : ∀ n ∈ names, IsComponent '/' n) :
    Settled tree (resolveFrom tree false budget l names) := by
  induction budget generalizing l names with
  | zero =>
    refine settled_walk (fun link target _ _ hentry hnode _ _ => ?_) hl hnames
    exact ⟨hentry, target, hnode⟩
  | succ budget ih =>
    exact settled_walk (fun _ _ _ _ _ _ hl' hnames' => ih hl' hnames') hl hnames

theorem settled_resolve (tree : Tree) (path : List Char) : Settled tree (tree.resolve path) :=
  settled_resolveFrom _ .root fun _ => isComponent_of_mem

/-! ## Texts -/

theorem components_text {l : Location} (h : ∀ n ∈ l, IsComponent '/' n) :
    components '/' (text l) = l := by
  have hsplit : components '/' ([] ++ '/' :: join '/' l) = _ := components_append_cons [] _
  rw [components_nil, List.nil_append, List.nil_append, components_join h] at hsplit
  exact hsplit

theorem text_injective {l l' : Location} (hl : ∀ n ∈ l, IsComponent '/' n)
    (hl' : ∀ n ∈ l', IsComponent '/' n) (h : text l = text l') : l = l' := by
  rw [← components_text hl, h, components_text hl']

/-- The text, with a separator at its end. -/
def asDirectory (path : List Char) : List Char := if path = ['/'] then path else path ++ ['/']

/-- The text of a location, name after name. -/
theorem text_append {l : Location} (hne : l ≠ []) (l' : Location) :
    text (l ++ l') = text l ++ l'.flatMap fun n => '/' :: n := by
  induction l' using List.reverseRecOn with
  | nil => simp
  | append_singleton l' n ih =>
    have hjoin : text (l ++ (l' ++ [n])) = text (l ++ l') ++ '/' :: n := by
      rw [← List.append_assoc, text, join_concat (by simp [hne])]
      rfl
    rw [hjoin, ih]
    simp

theorem text_eq_root_iff {l : Location} (h : ∀ n ∈ l, IsComponent '/' n) :
    text l = ['/'] ↔ l = [] :=
  ⟨fun heq => text_injective h (by simp) heq, fun heq => by rw [heq]; rfl⟩

theorem text_concat {l : Location} (h : ∀ n ∈ l, IsComponent '/' n) (n : Name) :
    text (l ++ [n]) = asDirectory (text l) ++ n := by
  unfold asDirectory
  by_cases hl : l = []
  · rw [hl]
    rfl
  · rw [if_neg (mt (text_eq_root_iff h).mp hl), text, join_concat hl]
    simp [text]

/-! ## Resolving the text of a location -/

/-- The walk along a canonical location comes to it. -/
theorem walk_canonical {l : Location} (h : Canonical tree l) (names : List Name) :
    walk tree follow keepLast [] (l ++ names) = walk tree follow keepLast l names := by
  induction h generalizing names with
  | root => rfl
  | @snoc l n node h hname hnode hlink ih =>
    rw [List.append_assoc, List.singleton_append, ih, walk_present hname hnode hlink]

theorem resolveFrom_canonical {l : Location} (h : Canonical tree l) (budget : ℕ)
    (names : List Name) : resolveFrom tree keepLast budget [] (l ++ names) =
      resolveFrom tree keepLast budget l names := by
  cases budget with
  | zero => exact walk_canonical h names
  | succ budget => exact walk_canonical h names

theorem resolveFrom_found {l : Location} (h : Canonical tree l) (budget : ℕ) :
    resolveFrom tree keepLast budget [] l = .found l := by
  rw [← List.append_nil l, resolveFrom_canonical h, List.append_nil]
  cases budget <;> rfl

theorem resolveFrom_missing {l : Location} (h : Entry tree l) (hnode : tree.node l = none)
    (budget : ℕ) : resolveFrom tree keepLast budget [] l = .missing l [] := by
  obtain ⟨h, hname⟩ := h
  rw [resolveFrom_canonical h]
  cases budget <;> exact (walk_name hname _ _).trans (by rw [hnode])

theorem components_text_names {l : Location} (h : ∀ n ∈ l, IsName n) :
    components '/' (text l) = l :=
  components_text fun n hn => (h n hn).component

theorem resolve_text_found {l : Location} (h : Canonical tree l) :
    tree.resolve (text l) = .found l := by
  rw [Tree.resolve, components_text_names h.isName, resolveFrom_found h]

theorem resolve_text_missing {l : Location} (h : Entry tree l) (hnode : tree.node l = none) :
    tree.resolve (text l) = .missing l [] := by
  rw [Tree.resolve, components_text_names h.isName, resolveFrom_missing h hnode]

theorem lookup_text_found {l : Location} (h : Canonical tree l) :
    tree.lookup (text l) = .found l := by
  rw [Tree.lookup, components_text_names h.isName, resolveFrom_found h]

theorem lookup_text_missing {l : Location} (h : Entry tree l) (hnode : tree.node l = none) :
    tree.lookup (text l) = .missing l [] := by
  rw [Tree.lookup, components_text_names h.isName, resolveFrom_missing h hnode]

theorem lookup_text_link {l : Location} (h : Entry tree l) {target : List Char}
    (hnode : tree.node l = some (.link target)) : tree.lookup (text l) = .found l := by
  rw [Tree.lookup, components_text_names h.isName]
  obtain ⟨h, hname⟩ := h
  rw [resolveFrom_canonical h]
  exact (walk_name hname _ _).trans (by rw [hnode]; rfl)

/-! ## Texts of locations below each other -/

/-- The text of a location, with a separator after each name. -/
def spell (l : Location) : List Char := l.flatMap fun n => n ++ ['/']

theorem join_append_slash {l : Location} (h : l ≠ []) : join '/' l ++ ['/'] = spell l := by
  induction l with
  | nil => exact absurd rfl h
  | cons n l ih =>
    cases l with
    | nil => simp [spell]
    | cons m l =>
      rw [join_cons_cons, List.append_assoc, List.cons_append, ih (by simp)]
      simp [spell]

theorem asDirectory_text {l : Location} (h : ∀ n ∈ l, IsComponent '/' n) :
    asDirectory (text l) = '/' :: spell l := by
  unfold asDirectory
  by_cases hl : l = []
  · rw [hl]
    rfl
  · rw [if_neg (mt (text_eq_root_iff h).mp hl), text, List.cons_append, join_append_slash hl]

/-- The first separator is in the same place. -/
theorem append_slash_inj {n m : Name} (hn : '/' ∉ n) (hm : '/' ∉ m) {s t : List Char}
    (h : n ++ '/' :: s = m ++ '/' :: t) : n = m ∧ s = t := by
  induction n generalizing m with
  | nil =>
    cases m with
    | nil => exact ⟨rfl, (List.cons.inj h).2⟩
    | cons c m => exact absurd ((List.cons.inj h).1 ▸ List.mem_cons_self) hm
  | cons c n ih =>
    cases m with
    | nil => exact absurd ((List.cons.inj h).1 ▸ List.mem_cons_self) hn
    | cons c' m =>
      obtain ⟨rfl, htail⟩ := List.cons.inj h
      obtain ⟨rfl, rfl⟩ := ih (fun hmem => hn (by simp [hmem])) (fun hmem => hm (by simp [hmem]))
        htail
      exact ⟨rfl, rfl⟩

theorem spell_prefix_iff {d l : Location} (hd : ∀ n ∈ d, IsComponent '/' n)
    (hl : ∀ n ∈ l, IsComponent '/' n) (hne : l ≠ []) :
    spell d <+: join '/' l ↔ d <+: l ∧ d ≠ l := by
  induction d generalizing l with
  | nil => simpa [spell] using Ne.symm hne
  | cons n d ih =>
    obtain ⟨hn, hd⟩ := List.forall_mem_cons.mp hd
    obtain ⟨m, l, rfl⟩ := List.exists_cons_of_ne_nil hne
    obtain ⟨hm, hl⟩ := List.forall_mem_cons.mp hl
    have hspell : spell (n :: d) = n ++ '/' :: spell d := by simp [spell]
    cases l with
    | nil =>
      rw [hspell, join_singleton]
      refine iff_of_false (fun hpre => ?_) fun h => ?_
      · exact hm.2 (hpre.subset (by simp))
      · obtain ⟨rfl, hnil⟩ := List.cons_prefix_cons.mp h.1
        exact h.2 (by rw [List.prefix_nil.mp hnil])
    | cons m' l =>
      rw [hspell, join_cons_cons, List.cons_prefix_cons, Ne, List.cons.injEq]
      have hrest := ih hd hl (by simp)
      constructor
      · rintro ⟨t, ht⟩
        rw [List.append_assoc, List.cons_append] at ht
        obtain ⟨rfl, hjoin⟩ := append_slash_inj hn.2 hm.2 ht
        obtain ⟨hpre, hne⟩ := hrest.mp ⟨t, hjoin⟩
        exact ⟨⟨rfl, hpre⟩, fun h => hne h.2⟩
      · rintro ⟨⟨rfl, hpre⟩, hne⟩
        obtain ⟨t, ht⟩ := hrest.mpr ⟨hpre, fun h => hne ⟨rfl, h⟩⟩
        exact ⟨t, by rw [List.append_assoc, List.cons_append, ht]⟩

/-- **Being below, in the tree and in the text.** -/
theorem asDirectory_prefix_iff {d l : Location} (hd : ∀ n ∈ d, IsComponent '/' n)
    (hl : ∀ n ∈ l, IsComponent '/' n) (hne : l ≠ []) :
    asDirectory (text d) <+: text l ↔ d <+: l ∧ d ≠ l := by
  rw [asDirectory_text hd, text, List.cons_prefix_cons, spell_prefix_iff hd hl hne]
  exact and_iff_right rfl

/-- The text of an entry of a directory is that of the directory and a name. -/
theorem text_eq_iff {d l : Location} (hd : ∀ n ∈ d, IsComponent '/' n)
    (hl : ∀ n ∈ l, IsComponent '/' n) {n : Name} (hn : IsComponent '/' n) :
    text l = asDirectory (text d) ++ n ↔ l = d ++ [n] := by
  rw [← text_concat hd]
  refine ⟨text_injective hl fun m hm => ?_, fun h => by rw [h]⟩
  rcases List.mem_append.mp hm with hm | hm
  · exact hd m hm
  · rwa [List.mem_singleton.mp hm]

/-! ## Parts of trees -/

section

variable {keep keep' : Location → Bool} {l d m : Location} {n : Name}

/-- The location and the directories above it are kept; the root always is. -/
def kept (keep : Location → Bool) (l : Location) : Bool :=
  l.inits.all fun p => p.isEmpty || keep p

@[simp] theorem kept_nil (keep : Location → Bool) : kept keep [] = true := rfl

@[simp] theorem kept_concat (keep : Location → Bool) (l : Location) (n : Name) :
    kept keep (l ++ [n]) = (kept keep l && keep (l ++ [n])) := by
  have hne : (l ++ [n]).isEmpty = false := by simp
  simp [kept, List.inits_append, hne]

theorem kept_congr (h : ∀ p, p <+: l → keep p = keep' p) : kept keep l = kept keep' l := by
  induction l using List.reverseRecOn with
  | nil => rfl
  | append_singleton l n ih =>
    rw [kept_concat, kept_concat, h _ List.prefix_rfl,
      ih fun p hp => h p (hp.trans (List.prefix_append l [n]))]

/-- The first location on the way that is not kept. -/
theorem exists_first_of_not_kept (h : kept keep l = false) :
    ∃ p n, p ++ [n] <+: l ∧ kept keep p = true ∧ keep (p ++ [n]) = false := by
  induction l using List.reverseRecOn with
  | nil => simp at h
  | append_singleton l n ih =>
    cases hl : kept keep l with
    | true => exact ⟨l, n, List.prefix_rfl, hl, by simpa [hl] using h⟩
    | false =>
      obtain ⟨p, m, hpre, hp⟩ := ih hl
      exact ⟨p, m, hpre.trans (List.prefix_append l [n]), hp⟩

/-- The tree without what is not kept, and what is below that. -/
def Tree.restrict (tree : Tree) (keep : Location → Bool) : Tree where
  node l := if kept keep l then tree.node l else none
  root := tree.root
  parent := by
    intro l n h
    split at h
    case isTrue hkept =>
      rw [kept_concat, Bool.and_eq_true] at hkept
      rw [if_pos hkept.1]
      exact tree.parent l n h
    case isFalse => cases h
  names := by
    intro l n h
    split at h
    · exact tree.names l n h
    · cases h

theorem Tree.restrict_node (tree : Tree) (keep : Location → Bool) (l : Location) :
    (tree.restrict keep).node l = if kept keep l then tree.node l else none := rfl

/-- What is in a directory. -/
def Tree.below (tree : Tree) (d : Location) (h : tree.node d = some .directory) : Tree where
  node l := tree.node (d ++ l)
  root := by rwa [List.append_nil]
  parent := fun l n hn => tree.parent (d ++ l) n (by rwa [List.append_assoc])
  names := fun l n hn => tree.names (d ++ l) n (by rwa [List.append_assoc])

/-- Another tree is mounted at a location, if that is there. -/
def Tree.graft (tree : Tree) (m : Location) (sub : Tree) : Tree where
  node l := if m <+: l ∧ (tree.node m).isSome then sub.node (l.drop m.length) else tree.node l
  root := by
    split
    case isTrue h =>
      rw [List.drop_nil]
      exact sub.root
    case isFalse => exact tree.root
  parent := by
    intro l n h
    by_cases hm : m <+: l ∧ (tree.node m).isSome
    · rw [if_pos ⟨hm.1.trans (List.prefix_append l [n]), hm.2⟩,
        List.drop_append_of_le_length hm.1.length_le] at h
      rw [if_pos hm]
      exact sub.parent _ n h
    · rw [if_neg hm]
      split at h
      case isTrue hbelow =>
        obtain rfl : m = l ++ [n] := by
          rcases List.prefix_concat_iff.mp hbelow.1 with heq | hpre
          · exact heq
          · exact absurd ⟨hpre, hbelow.2⟩ hm
        exact tree.parent l n hbelow.2
      case isFalse => exact tree.parent l n h
  names := by
    intro l n h
    split at h
    case isTrue hbelow =>
      rcases List.prefix_concat_iff.mp hbelow.1 with heq | hpre
      · exact tree.names l n (heq ▸ hbelow.2)
      · rw [List.drop_append_of_le_length hpre.length_le] at h
        exact sub.names _ n h
    case isFalse => exact tree.names l n h

theorem Tree.graft_node_of_not_prefix {tree : Tree} (sub : Tree) (h : ¬m <+: l) :
    (tree.graft m sub).node l = tree.node l :=
  if_neg fun hm => h hm.1

theorem mem_of_ofEntries {entries : List (Location × Node)} {l : Location}
    (h : (nodeOf entries l).isSome = true) : l ∈ [] :: entries.map Prod.fst := by
  induction l using List.reverseRecOn with
  | nil => exact List.mem_cons_self
  | append_singleton l n _ =>
    obtain ⟨node, hmem⟩ := mem_of_nodeOf h
    exact List.mem_cons_of_mem _ (List.mem_map_of_mem hmem)

/-- Every name of a location that is there is a name. -/
theorem Tree.isName (tree : Tree) (h : (tree.node l).isSome = true) : ∀ n ∈ l, IsName n := by
  induction l using List.reverseRecOn with
  | nil => simp
  | append_singleton l n ih =>
    intro m hm
    rcases List.mem_append.mp hm with hm | hm
    · exact ih (by rw [tree.parent l n h]; rfl) m hm
    · rw [List.mem_singleton.mp hm]
      exact tree.names l n h

theorem Tree.present_of_prefix (tree : Tree) {p : Location} (h : p <+: l)
    (hl : (tree.node l).isSome = true) : (tree.node p).isSome = true := by
  induction l using List.reverseRecOn with
  | nil => rwa [List.prefix_nil.mp h]
  | append_singleton l n ih =>
    rcases List.prefix_concat_iff.mp h with rfl | h
    · exact hl
    · exact ih h (by rw [tree.parent l n hl]; rfl)

/-- What is below a directory is reached through directories. -/
theorem canonical_of_directory (h : tree.node l = some .directory) : Canonical tree l := by
  induction l using List.reverseRecOn with
  | nil => exact .root
  | append_singleton l n ih =>
    have hsome : (tree.node (l ++ [n])).isSome = true := by rw [h]; rfl
    exact (ih (tree.parent l n hsome)).snoc (tree.names l n hsome) h (by simp)

end

end Foundations.FileTree

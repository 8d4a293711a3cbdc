import Jbinit.Palera1nd.BogusVarJb
import Jbinit.Foundations.FileTreeLinks

/-!
# Repairing `/var/jb`

The rootless boot stage calls `remove_bogus_var_jb` and then `create_var_jb`. `access` follows a
link and `symlink` does not replace one, so a link whose target is missing is neither kept as it is
good nor replaced, unless the first function has unlinked it (`repaired_iff`).

The calls are answered by a file tree, and change it. What is not in the tree is taken as given: the
version of the kernel, the boot manifest hash, the order in which directories are listed, and what
is on the stack.
-/

namespace Jbinit.Palera1nd

open Foundations Calls FileTree Delimited

/-! ## `create_var_jb.c` and `sysstatuscheck.c` -/

def createVarJb : Proc Answer Empty ℤ := do
  let r ← sys (.access varJb .fOk)
  if ok r then return 0
  match ← jailbreakGetPrebootPath with
  | .error e => return if e = enotsup ∨ e = enoent then 0 else -1
  | .ok prebootPath =>
    let r ← sys (.symlink prebootPath varJb)
    return if ok r then 0 else -1

/-- What `sysstatuscheck` does with `/var/jb` when the jailbreak is rootless. -/
def repairVarJb : Proc Answer Empty Unit := do
  let _ ← removeBogusVarJb
  let _ ← createVarJb
  return ()

/-! ## The system -/

/-- `st_mode`. -/
def modeOf : Option Node → ℕ
  | some .directory => 0o40755
  | some .file => 0o100644
  | some (.link _) => 0o120755
  | _ => 0o20666

/-- The location that a path was resolved to. -/
def found : Resolution → Except Errno Location
  | .found l => .ok l
  | .missing _ _ => .error enoent
  | .loop _ => .error eloop

/-- `unlink` of what is at a location. -/
def unlinkAt (tree : Tree) (l : Location) : Except Errno Unit × Tree :=
  if h : tree.node l ≠ some .directory then (.ok (), tree.erase l h) else (.error eperm, tree)

/-- `symlink` with the name `n` in the directory `l`. -/
def symlinkAt (tree : Tree) (target : CStr) (l : Location) (n : Name) : Except Errno Unit × Tree :=
  if h : tree.node l = some .directory ∧ IsName n ∧ tree.node (l ++ [n]) = none then
    (.ok (), tree.insert l n (.link target) h.1 h.2.1 h.2.2)
  else (.error enoent, tree)

/-- The rest of the system. -/
structure Device where
  stack : Stack
  major : ℕ
  bmhash : BmHash
  listing : CStr → Except Errno (List CStr)

def Device.respond (d : Device) (tree : Tree) : ∀ c, Answer c × Tree
  | .uname => (.ok d.major, tree)
  | .getBmhash => ((d.bmhash, true), tree)
  | .readDirectory path => (d.listing path, tree)
  | .access path _ => ((found (tree.resolve path)).map fun _ => (), tree)
  | .stat path => ((found (tree.resolve path)).map fun l => modeOf (tree.node l), tree)
  | .lstat path => ((found (tree.lookup path)).map fun l => modeOf (tree.node l), tree)
  | .readlink path =>
    (do
      let l ← found (tree.lookup path)
      match tree.node l with
      | some (.link target) => .ok (linkRead d.stack target)
      | _ => .error einval, tree)
  | .unlink path =>
    match found (tree.lookup path) with
    | .ok l => unlinkAt tree l
    | .error e => (.error e, tree)
  | .removefile path =>
    match found (tree.lookup path) with
    | .ok l => (.ok (), tree.restrict fun m => !l.isPrefixOf m)
    | .error e => (.error e, tree)
  | .symlink target path =>
    match tree.lookup path with
    | .missing l [] =>
      match l.getLast? with
      | some n => symlinkAt tree target l.dropLast n
      | none => (.error enoent, tree)
    | .missing _ _ => (.error enoent, tree)
    | .found _ => (.error eexist, tree)
    | .loop _ => (.error eloop, tree)
  | c => (success c, tree)

/-- A file system in which `/var` is a directory, without `/var/jb`. -/
structure Disk where
  base : Tree
  var : Location
  resolves : base.resolve "/var".toList = .found var
  directory : base.node var = some .directory
  absent : base.node (var ++ ["jb".toList]) = none

namespace Disk

theorem isName_jb : IsName "jb".toList := by decide

/-- The file system with `/var/jb` as a link. -/
def linked (s : Disk) (target : CStr) : Tree :=
  s.base.insert s.var "jb".toList (.link target) s.directory isName_jb s.absent

/-- The file system in a state of `/var/jb`: it is absent, or a link. -/
def tree (s : Disk) : Option CStr → Tree
  | none => s.base
  | some target => s.linked target

/-! ## The property -/

variable (s : Disk) (d : Device) (link : Option CStr) (prebootPath : CStr)

/-- The file system that `create_var_jb` finds. -/
def removed : Tree := (execute d.respond (s.tree link) removeBogusVarJb).2

/-- The file system afterwards. -/
def repaired : Tree := (execute d.respond (s.tree link) repairVarJb).2

/-- `/var/jb` leads to a directory, and to the preboot path if it has led nowhere before. -/
structure Repaired : Prop where
  directory : ∃ l, (s.repaired d link).resolve varJb = .found l ∧
    (s.repaired d link).node l = some .directory
  preboot : (∀ l, (s.tree link).resolve varJb ≠ .found l) →
    ∃ l, (s.repaired d link).resolve varJb = .found l ∧
      (s.repaired d link).resolve prebootPath = .found l

/-- Whether `remove_bogus_var_jb` unlinks the link. -/
def unlinks (target : CStr) : Bool :=
  unc0verLinks.contains (linkPath d.stack target) ||
    bundleLinks.contains (linkPath d.stack target) && unc0verMarkers.all fun path =>
      ok (found ((s.linked target).resolve path.toList))

/-- The links on the way to `/var` and to the preboot path, and the new one, are not too many. -/
def FewLinks : Prop :=
  ∃ l j k, Leads s.base [] ["var".toList] s.var j ∧
    Leads s.base [] (components '/' prebootPath) l k ∧ j + 1 + k ≤ maxSymlinks

/-- `/var/jb` is absent or a link that is unlinked, and a path can go through a new one, or it is a
link to a directory that is not unlinked. -/
def Mends : Prop :=
  match link with
  | none => s.FewLinks prebootPath
  | some target =>
    if s.unlinks d target then s.FewLinks prebootPath
    else ∃ l, (s.linked target).resolve varJb = .found l ∧
      (s.linked target).node l = some .directory

/-! ## The file system -/

variable {s d link prebootPath} {target : CStr}

theorem components_varJb : components '/' varJb = ["var".toList] ++ ["jb".toList] := by decide

theorem leads_var (s : Disk) : ∃ j ≤ maxSymlinks, Leads s.base [] ["var".toList] s.var j := by
  have hcomponents : components '/' "/var".toList = ["var".toList] := by decide
  rw [← hcomponents]
  exact resolve_eq_found_iff.mp s.resolves

theorem linked_node_of_base (target : CStr) (l : Location) (node : Node)
    (h : s.base.node l = some node) : (s.linked target).node l = some node := by
  have hne : l ≠ s.var ++ ["jb".toList] := by
    rintro rfl
    rw [s.absent] at h
    cases h
  exact (Function.update_of_ne hne _ _).trans h

theorem linked_node (s : Disk) (target : CStr) :
    (s.linked target).node (s.var ++ ["jb".toList]) = some (.link target) :=
  Function.update_self _ _ _

theorem leads_var_tree (s : Disk) (link : Option CStr) :
    ∃ j ≤ maxSymlinks, Leads (s.tree link) [] ["var".toList] s.var j := by
  obtain ⟨j, hj, h⟩ := s.leads_var
  cases link with
  | none => exact ⟨j, hj, h⟩
  | some target => exact ⟨j, hj, h.mono (linked_node_of_base target)⟩

theorem lookup_varJb (s : Disk) (link : Option CStr) : (s.tree link).lookup varJb =
    match (s.tree link).node (s.var ++ ["jb".toList]) with
    | some _ => .found (s.var ++ ["jb".toList])
    | none => .missing (s.var ++ ["jb".toList]) [] := by
  obtain ⟨j, hj, h⟩ := s.leads_var_tree link
  exact lookup_eq_of_leads h hj components_varJb isName_jb.ne_dot isName_jb.ne_dotdot

theorem lookup_base (s : Disk) :
    s.base.lookup varJb = .missing (s.var ++ ["jb".toList]) [] := by
  have h := s.lookup_varJb none
  rwa [tree, s.absent] at h

theorem lookup_linked (s : Disk) (target : CStr) :
    (s.linked target).lookup varJb = .found (s.var ++ ["jb".toList]) := by
  have h := s.lookup_varJb (some target)
  rwa [tree, linked_node] at h

theorem erase_linked (s : Disk) (target : CStr)
    (h : (s.linked target).node (s.var ++ ["jb".toList]) ≠ some .directory) :
    (s.linked target).erase (s.var ++ ["jb".toList]) h = s.base := by
  ext1
  show Function.update (Function.update s.base.node _ _) _ _ = s.base.node
  rw [Function.update_idem, ← s.absent, Function.update_eq_self]

/-- What leads somewhere from `/var/jb` leads there from its target. -/
theorem resolve_linked_iff {l : Location} (htarget : target.head? = some '/') :
    (s.linked target).resolve varJb = .found l ↔ ∃ j k, Leads s.base [] ["var".toList] s.var j ∧
      Leads (s.linked target) [] (components '/' target) l k ∧ j + 1 + k ≤ maxSymlinks := by
  obtain ⟨j, -, hvar⟩ := s.leads_var
  have hvar' := hvar.mono (linked_node_of_base target)
  have hstart : linkStart s.var target = [] := if_pos htarget
  rw [resolve_eq_found_iff, components_varJb]
  constructor
  · rintro ⟨k', hk', h⟩
    obtain ⟨k₁, hjb, rfl⟩ := hvar'.of_append h
    cases hjb with
    | enter _ _ hnode hlink =>
      rw [linked_node, Option.some.injEq] at hnode
      exact absurd hnode.symm (hlink target)
    | @link _ _ _ _ k _ _ _ hnode h =>
      rw [linked_node, Option.some.injEq, Node.link.injEq] at hnode
      subst hnode
      rw [hstart, List.append_nil] at h
      exact ⟨j, k, hvar, h, by omega⟩
  · rintro ⟨j', k, hj', h, hk⟩
    obtain ⟨-, rfl⟩ := hvar.unique hj'
    refine ⟨j + (k + 1), by omega, hvar'.append (.link isName_jb.ne_dot isName_jb.ne_dotdot
      (linked_node s target) ?_)⟩
    rwa [hstart, List.append_nil]

theorem resolve_base_ne (s : Disk) (l : Location) : s.base.resolve varJb ≠ .found l := by
  intro h
  obtain ⟨k, -, h⟩ := resolve_eq_found_iff.mp h
  obtain ⟨j, -, hvar⟩ := s.leads_var
  rw [components_varJb] at h
  obtain ⟨k₁, hjb, -⟩ := hvar.of_append h
  cases hjb with
  | enter _ _ hnode =>
    rw [s.absent] at hnode
    cases hnode
  | link _ _ hnode =>
    rw [s.absent] at hnode
    cases hnode

/-! ## The calls -/

theorem execute_sys (d : Device) (t : Tree) (c : Call) :
    execute d.respond t (sys c) = d.respond t c := rfl

theorem execute_allExist (d : Device) (t : Tree) (paths : List String) :
    execute d.respond t (allExist paths) =
      (paths.all fun path => ok (found (t.resolve path.toList)), t) := by
  induction paths with
  | nil => rfl
  | cons path paths ih =>
    have hexists : execute d.respond t (pathExists path) =
        (ok (found (t.resolve path.toList)), t) := by
      rw [pathExists, execute_bind, execute_sys]
      cases h : found (t.resolve path.toList) with
      | ok l => simp [Device.respond, h, Except.map, ok, Except.isOk, Except.toBool, execute_pure]
      | error e => simp [Device.respond, h, Except.map, ok, Except.isOk, Except.toBool, execute_pure]
    rw [allExist, execute_bind, hexists, List.all_cons]
    cases ok (found (t.resolve path.toList)) with
    | false => rfl
    | true => simpa using ih

theorem removed_none (s : Disk) (d : Device) : s.removed d none = s.base := by
  have hlstat : d.respond s.base (.lstat varJb) = (.error enoent, s.base) := by
    show (Except.map _ (found (s.base.lookup varJb)), s.base) = _
    rw [lookup_base]
    rfl
  unfold removed removeBogusVarJb
  rw [execute_bind, execute_sys, tree, hlstat]
  rfl

/-! What the calls say of the link. -/

theorem respond_lstat_linked (s : Disk) (d : Device) (target : CStr) :
    d.respond (s.linked target) (.lstat varJb) = (.ok 0o120755, s.linked target) := by
  show (Except.map _ (found ((s.linked target).lookup varJb)), s.linked target) = _
  rw [lookup_linked]
  show (Except.ok (modeOf ((s.linked target).node _)), _) = _
  rw [linked_node]
  rfl

theorem respond_readlink_linked (s : Disk) (d : Device) (target : CStr) :
    d.respond (s.linked target) (.readlink varJb) =
      (.ok (linkRead d.stack target), s.linked target) := by
  show ((do
    let l ← found ((s.linked target).lookup varJb)
    match (s.linked target).node l with
    | some (.link target) => .ok (linkRead d.stack target)
    | _ => .error einval : Except Errno LinkPath), s.linked target) = _
  rw [lookup_linked]
  show ((match (s.linked target).node (s.var ++ ["jb".toList]) with
    | some (.link target) => .ok (linkRead d.stack target)
    | _ => .error einval : Except Errno LinkPath), s.linked target) = _
  rw [linked_node]
  rfl

theorem respond_unlink_linked (s : Disk) (d : Device) (target : CStr) :
    d.respond (s.linked target) (.unlink varJb) = (.ok (), s.base) := by
  have hnode : (s.linked target).node (s.var ++ ["jb".toList]) ≠ some .directory := by
    rw [linked_node]
    simp
  show (match found ((s.linked target).lookup varJb) with
    | .ok l => unlinkAt (s.linked target) l
    | .error e => (.error e, s.linked target)) = _
  rw [lookup_linked]
  show unlinkAt (s.linked target) _ = _
  rw [unlinkAt, dif_pos hnode, erase_linked]
  rfl

theorem removed_some (s : Disk) (d : Device) (target : CStr) : s.removed d (some target) =
    if s.unlinks d target then s.base else s.linked target := by
  have hlink : sIslnk 0o120755 = true := by decide
  unfold removed removeBogusVarJb unlinks
  rw [execute_bind, execute_sys, tree, respond_lstat_linked]
  dsimp only
  rw [if_pos hlink, execute_bind, execute_sys, respond_readlink_linked]
  dsimp only
  change (execute d.respond (s.linked target)
    (VarJb.unlinkBogus (linkPath d.stack target))).2 = _
  rw [VarJb.unlinkBogus]
  cases unc0verLinks.contains (linkPath d.stack target) with
  | true =>
    simp only [if_true, execute_bind, execute_sys, respond_unlink_linked]
    rfl
  | false =>
    cases bundleLinks.contains (linkPath d.stack target) with
    | false => rfl
    | true =>
      simp only [Bool.false_eq_true, if_false, if_true, execute_bind, execute_allExist]
      cases unc0verMarkers.all fun path => ok (found ((s.linked target).resolve path.toList)) with
      | false => rfl
      | true =>
        simp only [if_true, execute_bind, execute_sys, respond_unlink_linked]
        rfl

theorem sIsdir_modeOf {node : Option Node} (h : sIsdir (modeOf node) = true) :
    node = some .directory := by
  cases node with
  | none => exact absurd h (by decide)
  | some node =>
    cases node with
    | directory => rfl
    | file => exact absurd h (by decide)
    | link target => exact absurd h (show ¬sIsdir 0o120755 = true by decide)
    | special => exact absurd h (by decide)

/-- The file system is not changed, and the path that is returned leads to a directory. -/
theorem execute_getPrebootPath (d : Device) (t : Tree) :
    (execute d.respond t jailbreakGetPrebootPath).2 = t ∧
      ∀ path, (execute d.respond t jailbreakGetPrebootPath).1 = .ok path →
        path.head? = some '/' ∧ ∃ l, t.resolve path = .found l ∧ t.node l = some .directory := by
  have huname : d.respond t .uname = (.ok d.major, t) := rfl
  have hbmhash : d.respond t .getBmhash = ((d.bmhash, true), t) := rfl
  have hlist (path : CStr) : d.respond t (.readDirectory path) = (d.listing path, t) := rfl
  have hstat (path : CStr) : d.respond t (.stat path) =
      ((found (t.resolve path)).map fun l => modeOf (t.node l), t) := rfl
  have herror (e : Errno) :
      let r := execute d.respond t (pure (Except.error e) : Proc Answer Empty (Except Errno CStr))
      r.2 = t ∧ ∀ path, r.1 = .ok path →
        path.head? = some '/' ∧ ∃ l, t.resolve path = .found l ∧ t.node l = some .directory :=
    ⟨rfl, fun path h => by cases h⟩
  unfold jailbreakGetPrebootPath
  simp only [execute_bind, execute_sys, huname]
  split
  · exact herror enotsup
  simp only [execute_bind, execute_sys, hbmhash, hlist]
  cases d.listing (prebootDirectory d.bmhash) with
  | error e => exact herror enoent
  | ok names =>
    dsimp only
    cases findJbName names none with
    | error e => exact herror e
    | ok jbPathName =>
      simp only [execute_bind, execute_sys, hstat]
      generalize hjbPath : CStr.snprintf 150 ("/private/preboot/".toList ++ d.bmhash.chars ++
        '/' :: jbPathName ++ "/procursus".toList) = jbPath
      have habsolute : jbPath.head? = some '/' := by
        rw [← hjbPath]
        rfl
      cases hresolve : t.resolve jbPath with
      | missing l rest => exact herror enxio
      | loop l => exact herror enxio
      | found l =>
        dsimp only [found, Except.map]
        cases hdir : sIsdir (modeOf (t.node l)) with
        | false => exact herror enotdir
        | true =>
          refine ⟨rfl, fun path hpath => ?_⟩
          obtain rfl : jbPath = path := Except.ok.inj hpath
          exact ⟨habsolute, l, hresolve, sIsdir_modeOf hdir⟩

theorem createVarJb_of_found {t : Tree} {l : Location} (h : t.resolve varJb = .found l) :
    (execute d.respond t createVarJb).2 = t := by
  have haccess : d.respond t (.access varJb .fOk) = (.ok (), t) := by
    show (Except.map _ (found (t.resolve varJb)), t) = _
    rw [h]
    rfl
  rw [createVarJb, execute_bind, execute_sys, haccess]
  rfl

theorem createVarJb_of_not_found {t : Tree} (h : ∀ l, t.resolve varJb ≠ .found l)
    (hpreboot : (execute d.respond t jailbreakGetPrebootPath).1 = .ok prebootPath) :
    (execute d.respond t createVarJb).2 = (d.respond t (.symlink prebootPath varJb)).2 := by
  obtain ⟨e, haccess⟩ : ∃ e, d.respond t (.access varJb .fOk) = (.error e, t) := by
    show ∃ e, (Except.map _ (found (t.resolve varJb)), t) = _
    cases hresolve : t.resolve varJb with
    | found l => exact absurd hresolve (h l)
    | missing l rest => exact ⟨enoent, rfl⟩
    | loop l => exact ⟨eloop, rfl⟩
  rw [createVarJb, execute_bind, execute_sys, haccess]
  dsimp only
  rw [if_neg (by simp [ok, Except.isOk, Except.toBool]), execute_bind, hpreboot,
    (execute_getPrebootPath d t).1]
  rfl

theorem symlink_base (s : Disk) (d : Device) (path : CStr) :
    (d.respond s.base (.symlink path varJb)).2 = s.linked path := by
  have hfits : s.base.node s.var = some .directory ∧ IsName "jb".toList ∧
      s.base.node (s.var ++ ["jb".toList]) = none := ⟨s.directory, isName_jb, s.absent⟩
  have hsymlink : symlinkAt s.base path s.var "jb".toList = (.ok (), s.linked path) :=
    dif_pos hfits
  show (match s.base.lookup varJb with
    | .missing l [] =>
      match l.getLast? with
      | some n => symlinkAt s.base path l.dropLast n
      | none => (.error enoent, s.base)
    | .missing _ _ => (.error enoent, s.base)
    | .found _ => (.error eexist, s.base)
    | .loop _ => (.error eloop, s.base)).2 = _
  rw [lookup_base]
  dsimp only
  rw [List.getLast?_concat, List.dropLast_concat]
  dsimp only
  rw [hsymlink]

/-- A link is not replaced. -/
theorem symlink_linked (s : Disk) (d : Device) (target path : CStr) :
    (d.respond (s.linked target) (.symlink path varJb)).2 = s.linked target := by
  show (match (s.linked target).lookup varJb with
    | .missing l [] =>
      match l.getLast? with
      | some n => symlinkAt (s.linked target) path l.dropLast n
      | none => (.error enoent, s.linked target)
    | .missing _ _ => (.error enoent, s.linked target)
    | .found _ => (.error eexist, s.linked target)
    | .loop _ => (.error eloop, s.linked target)).2 = _
  rw [lookup_linked]

theorem repaired_eq (s : Disk) (d : Device) (link : Option CStr) :
    s.repaired d link = (execute d.respond (s.removed d link) createVarJb).2 := by
  unfold repaired repairVarJb removed
  rw [execute_bind, execute_bind]
  rfl

/-! ## The link that is made -/

/-- A new link leads to the preboot path unless there are too many on the way. -/
theorem repaired_of_removed (hremoved : s.removed d link = s.base)
    (hpreboot : (execute d.respond s.base jailbreakGetPrebootPath).1 = .ok prebootPath) :
    s.Repaired d link prebootPath ↔ s.FewLinks prebootPath := by
  obtain ⟨habsolute, e, he, hdirectory⟩ := (execute_getPrebootPath d s.base).2 _ hpreboot
  obtain ⟨k, hk, hleads⟩ := resolve_eq_found_iff.mp he
  have hlinked : s.repaired d link = s.linked prebootPath := by
    rw [repaired_eq, hremoved, createVarJb_of_not_found s.resolve_base_ne hpreboot, symlink_base]
  constructor
  · intro h
    obtain ⟨l, hl, -⟩ := h.directory
    rw [hlinked] at hl
    obtain ⟨j, k', hj, hk', hfew⟩ := (resolve_linked_iff habsolute).mp hl
    obtain ⟨-, rfl⟩ := (hleads.mono (linked_node_of_base prebootPath)).unique hk'
    exact ⟨e, j, k, hj, hleads, hfew⟩
  · rintro ⟨l, j, k', hj, hl, hfew⟩
    obtain ⟨rfl, rfl⟩ := hleads.unique hl
    have hleads' := hleads.mono (linked_node_of_base prebootPath)
    have hvar : (s.linked prebootPath).resolve varJb = .found e :=
      (resolve_linked_iff habsolute).mpr ⟨j, k, hj, hleads', hfew⟩
    constructor
    case directory =>
      rw [hlinked]
      exact ⟨e, hvar, linked_node_of_base prebootPath e _ hdirectory⟩
    case preboot =>
      intro _
      rw [hlinked]
      exact ⟨e, hvar, resolve_eq_found_iff.mpr ⟨k, hk, hleads'⟩⟩

/-- A link that is not unlinked stays as it is, whether it leads somewhere or not. -/
theorem repaired_of_kept {target : CStr} (hremoved : s.removed d (some target) = s.linked target)
    (hpreboot : (execute d.respond (s.linked target) jailbreakGetPrebootPath).1 =
      .ok prebootPath) : s.repaired d (some target) = s.linked target := by
  rw [repaired_eq, hremoved]
  by_cases hresolves : ∃ l, (s.linked target).resolve varJb = .found l
  · obtain ⟨l, hl⟩ := hresolves
    exact createVarJb_of_found hl
  · rw [createVarJb_of_not_found (not_exists.mp hresolves) hpreboot, symlink_linked]

/-- **`/var/jb`** is repaired exactly when it is absent or its link is unlinked, or when its link
leads to a directory. -/
theorem repaired_iff
    (hpreboot : (execute d.respond (s.removed d link) jailbreakGetPrebootPath).1 =
      .ok prebootPath) :
    s.Repaired d link prebootPath ↔ s.Mends d link prebootPath := by
  cases link with
  | none =>
    rw [removed_none] at hpreboot
    exact repaired_of_removed (s.removed_none d) hpreboot
  | some target =>
    have hremoved := s.removed_some d target
    unfold Mends
    dsimp only
    cases hunlinks : s.unlinks d target with
    | true =>
      rw [hunlinks, if_pos rfl] at hremoved
      rw [hremoved] at hpreboot
      rw [if_pos rfl]
      exact repaired_of_removed hremoved hpreboot
    | false =>
      rw [hunlinks, if_neg (by simp)] at hremoved
      rw [hremoved] at hpreboot
      have hkept := repaired_of_kept hremoved hpreboot
      rw [if_neg (by simp)]
      constructor
      · intro h
        have hdirectory := h.directory
        rwa [hkept] at hdirectory
      · rintro ⟨l, hl, hdirectory⟩
        constructor
        case directory =>
          rw [hkept]
          exact ⟨l, hl, hdirectory⟩
        case preboot =>
          intro hnot
          exact absurd hl (hnot l)

/-! ## A device -/

/-- The entries of a file system with a jailbreak directory. -/
def prebootEntries : List (Location × Node) :=
  [(["private".toList], .directory), (["private".toList, "var".toList], .directory),
    (["var".toList], .link "private/var".toList),
    (["private".toList, "preboot".toList], .directory),
    (["private".toList, "preboot".toList, "0123".toList], .directory),
    (["private".toList, "preboot".toList, "0123".toList, "jb-abcdefgh".toList], .directory),
    (["private".toList, "preboot".toList, "0123".toList, "jb-abcdefgh".toList,
      "procursus".toList], .directory)]

def plainDisk : Disk where
  base := .ofEntries prebootEntries (by decide +kernel) (by decide +kernel)
  var := ["private".toList, "var".toList]
  resolves := by decide +kernel
  directory := by decide +kernel
  absent := by decide +kernel

def plainDevice : Device where
  stack := ⟨List.replicate pathMax nul, List.length_replicate⟩
  major := 22
  bmhash := plainHash
  listing _ := .ok [dot, dotdot, "jb-abcdefgh".toList]

def plainPrebootPath : CStr := "/private/preboot/0123/jb-abcdefgh/procursus".toList

/-- A device on which `/var/jb` is absent. -/
theorem repaired_absent : plainDisk.Repaired plainDevice none plainPrebootPath := by
  have hpreboot : (execute plainDevice.respond (plainDisk.removed plainDevice none)
      jailbreakGetPrebootPath).1 = .ok plainPrebootPath := by
    rw [removed_none]
    decide +kernel
  apply (repaired_iff hpreboot).mpr
  obtain ⟨j, hj, hvar⟩ := resolveFrom_eq_found_iff.mp
    (by decide +kernel : resolveFrom plainDisk.base false 1 [] ["var".toList] = .found plainDisk.var)
  obtain ⟨k, hk, hleads⟩ := resolveFrom_eq_found_iff.mp
    (by decide +kernel : resolveFrom plainDisk.base false 0 [] (components '/' plainPrebootPath) =
      .found (components '/' plainPrebootPath))
  have hmax : maxSymlinks = 32 := rfl
  exact ⟨_, j, k, hvar, hleads, by omega⟩

/-- The target of a link that an earlier jailbreak has made. -/
def oldPrebootPath : CStr := "/private/preboot/0123/jb-ijklmnop/procursus".toList

/-- A link whose target is missing stays. -/
theorem not_repaired_dangling :
    (execute plainDevice.respond (plainDisk.removed plainDevice (some oldPrebootPath))
      jailbreakGetPrebootPath).1 = .ok plainPrebootPath ∧
    (∀ l, (plainDisk.tree (some oldPrebootPath)).resolve varJb ≠ .found l) ∧
    ¬plainDisk.Repaired plainDevice (some oldPrebootPath) plainPrebootPath := by
  have hresolve : (plainDisk.linked oldPrebootPath).resolve varJb =
      .missing (components '/' "/private/preboot/0123/jb-ijklmnop".toList) ["procursus".toList] := by
    decide +kernel
  have hremoved : plainDisk.removed plainDevice (some oldPrebootPath) =
      plainDisk.linked oldPrebootPath := by
    rw [removed_some, if_neg (by decide +kernel)]
  have hpreboot : (execute plainDevice.respond (plainDisk.linked oldPrebootPath)
      jailbreakGetPrebootPath).1 = .ok plainPrebootPath := by
    decide +kernel
  refine ⟨by rw [hremoved, hpreboot], fun l hl => ?_, fun h => ?_⟩
  · rw [tree, hresolve] at hl
    cases hl
  · obtain ⟨l, hl, -⟩ := h.directory
    rw [repaired_of_kept hremoved hpreboot, hresolve] at hl
    cases hl

end Disk

end Jbinit.Palera1nd

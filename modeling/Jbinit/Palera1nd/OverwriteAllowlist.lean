import Jbinit.Foundations.FileTree
import Jbinit.Palera1nd.Operations

/-!
# Where `overwrite_file` writes

The request's path and the allowlist go through `realpath`, whose failure is not looked at, and are
compared as texts. `overwriteFile_inside_iff` says for which paths and file systems a file outside
of the allowlist can be opened: those where the comparison succeeds although the path goes on in the
middle of a name, or an entry of the allowlist is not there.

Of `realpath` it is assumed that its buffer holds the canonical path or, when it fails, the resolved
path up to and including the component at which it does.
-/

namespace Jbinit.Palera1nd

open Foundations Calls FileTree

/-! ## The system -/

/-- What `realpath` leaves in its buffer. -/
def realpathText (tree : Tree) (path : CStr) : CStr := text (tree.resolve path).location

/-- What `lstat` can answer: it may fail, but a file that is there is not missing. -/
def lstatAllows (tree : Tree) (path : CStr) : Except Errno ℕ → Bool
  | .ok mode =>
    match tree.lookup path with
    | .found l => sIsreg mode == (tree.node l == some .file)
    | _ => false
  | .error e =>
    match tree.lookup path with
    | .missing _ _ => true
    | _ => e != enoent

/-- What the system can answer when the file system is `tree`. -/
def answersOf (tree : Tree) : Event Answer → Bool
  | ⟨.realpath path, buffer⟩ => (show CStr from buffer) == realpathText tree path
  | ⟨.lstat path, r⟩ => lstatAllows tree path r
  | ⟨.openWrite path _, .ok _⟩ => (tree.opened path).isSome
  | _ => true

/-! ## The property -/

def sourcesDirectories : List CStr :=
  ["/var/jb/etc/apt/sources.list.d".toList, "/etc/apt/sources.list.d".toList]

def installedDirectories : List CStr := ["/".toList, varJb]

/-- A file in one of the two directories, or one directly in `/` or `/var/jb` whose name begins with
`.installed_`. -/
inductive Inside (tree : Tree) (l : Location) : Prop
  | source {directory : CStr} {d : Location} (hmem : directory ∈ sourcesDirectories)
      (hd : tree.resolve directory = .found d) (hdirectory : tree.node d = some .directory)
      (hbelow : d <+: l ∧ d ≠ l)
  | installed {directory : CStr} {d : Location} {rest : CStr}
      (hmem : directory ∈ installedDirectories) (hd : tree.resolve directory = .found d)
      (hdirectory : tree.node d = some .directory) (hl : l = d ++ [".installed_".toList ++ rest])

/-- The path that an event opens for writing. -/
def openedPath : Event Answer → Option CStr
  | ⟨.openWrite path _, .ok _⟩ => some path
  | _ => none

/-- Every file that is opened for writing is inside. -/
def OpensInside (tree : Tree) (t : List (Event Answer)) : Prop :=
  ∀ e ∈ t, ∀ path, openedPath e = some path → ∃ l, tree.opened path = some l ∧ Inside tree l

/-- The request has all it needs, and there is a regular file at its path or a place for one. -/
structure Openable (tree : Tree) (request : Dict) (path : CStr) : Prop where
  requested : request.getString "path" = some path
  absolute : path.head? = some '/'
  data : (request.getData "data").isSome = true
  destination : tree.node (tree.resolve path).location = some .file ∨
    tree.node (tree.resolve path).location = none ∧
      tree.node (tree.resolve path).location.dropLast = some .directory

/-- The comparison with an entry of the allowlist. -/
def comparesWith (tree : Tree) (path : CStr) (allowed : String) : Bool :=
  (realpathText tree allowed.toList).isPrefixOf (realpathText tree path)

/-- The path goes on where a name ends, and the entry is there. -/
inductive GoesOn (tree : Tree) (path : CStr) : Prop
  | source {directory : CStr} {d : Location} (hmem : directory ∈ sourcesDirectories)
      (hd : tree.resolve directory = .found d) (hdirectory : tree.node d = some .directory)
      (htext : asDirectory (text d) <+: realpathText tree path)
  | installed {directory : CStr} {d : Location} {rest : CStr}
      (hmem : directory ∈ installedDirectories) (hd : tree.resolve directory = .found d)
      (hdirectory : tree.node d = some .directory) (hrest : '/' ∉ rest)
      (htext : realpathText tree path = asDirectory (text d) ++ ".installed_".toList ++ rest)

/-! ## The tree and the texts -/

section

variable {tree : Tree} {request reply : Dict} {path : CStr} {t : List (Event Answer)}

theorem isComponent_of_resolve {d : Location} {directory : CStr}
    (hd : tree.resolve directory = .found d) : ∀ n ∈ d, Delimited.IsComponent '/' n := by
  have hsettled := settled_resolve tree directory
  rw [hd] at hsettled
  exact fun n hn => (hsettled.isName n hn).component

theorem isName_location (tree : Tree) (path : CStr) :
    ∀ n ∈ (tree.resolve path).location, IsName n := by
  have hsettled := settled_resolve tree path
  cases hr : tree.resolve path with
  | found l =>
    rw [hr] at hsettled
    exact hsettled.isName
  | missing l rest =>
    rw [hr] at hsettled
    exact hsettled.1.isName
  | loop l =>
    rw [hr] at hsettled
    exact hsettled.1.isName

theorem isComponent_location (tree : Tree) (path : CStr) :
    ∀ n ∈ (tree.resolve path).location, Delimited.IsComponent '/' n :=
  fun n hn => (isName_location tree path n hn).component

theorem Openable.ne_root (h : Openable tree request path) : (tree.resolve path).location ≠ [] := by
  intro hroot
  have hdestination := h.destination
  rw [hroot, tree.root] at hdestination
  simp at hdestination

/-- The text that `realpath` leaves leads to where it stopped. -/
theorem opened_realpathText (h : Openable tree request path) :
    tree.opened (realpathText tree path) = some (tree.resolve path).location := by
  have hsettled := settled_resolve tree path
  have hdestination := h.destination
  unfold realpathText
  cases hr : tree.resolve path with
  | found l =>
    rw [hr] at hsettled hdestination
    rcases hdestination with hfile | ⟨hnone, -⟩
    · have hnot : tree.node l ≠ some .directory := by
        rw [show tree.node l = some .file from hfile]
        decide
      simp only [Tree.opened, resolve_text_found hsettled, Resolution.location]
      exact if_neg hnot
    · exact absurd hnone hsettled.node_ne_none
  | missing l rest =>
    rw [hr] at hsettled hdestination
    rcases hdestination with hfile | ⟨-, hparent⟩
    · exact absurd (hsettled.2.symm.trans hfile) (by simp)
    · simp only [Tree.opened, resolve_text_missing hsettled.1 hsettled.2, Resolution.location]
      exact if_pos hparent
  | loop l =>
    rw [hr] at hsettled hdestination
    obtain ⟨-, target, htarget⟩ := hsettled
    simp [Resolution.location, htarget] at hdestination

theorem lookup_realpathText (tree : Tree) (path : CStr) :
    tree.lookup (realpathText tree path) =
      if tree.node (tree.resolve path).location = none then
        .missing (tree.resolve path).location []
      else .found (tree.resolve path).location := by
  have hsettled := settled_resolve tree path
  unfold realpathText
  cases hr : tree.resolve path with
  | found l =>
    rw [hr] at hsettled
    exact (lookup_text_found hsettled).trans (if_neg hsettled.node_ne_none).symm
  | missing l rest =>
    rw [hr] at hsettled
    exact (lookup_text_missing hsettled.1 hsettled.2).trans (if_pos hsettled.2).symm
  | loop l =>
    rw [hr] at hsettled
    obtain ⟨hentry, target, htarget⟩ := hsettled
    have hne : tree.node l ≠ none := by simp [htarget]
    exact (lookup_text_link hentry htarget).trans (if_neg hne).symm

/-- Nothing but a file can be opened, or made in a directory that is there. -/
theorem parent_of_opened (hopened : (tree.opened (realpathText tree path)).isSome = true)
    (hnode : tree.node (tree.resolve path).location = none) :
    tree.node (tree.resolve path).location.dropLast = some .directory := by
  have hsettled := settled_resolve tree path
  unfold realpathText at hopened
  cases hr : tree.resolve path with
  | found l =>
    rw [hr] at hsettled hnode
    exact absurd hnode hsettled.node_ne_none
  | missing l rest =>
    rw [hr] at hsettled hopened
    by_contra hparent
    simp only [Tree.opened, Resolution.location,
      resolve_text_missing hsettled.1 hsettled.2] at hopened hparent
    rw [if_neg hparent] at hopened
    cases hopened
  | loop l =>
    rw [hr] at hsettled hnode
    obtain ⟨-, target, htarget⟩ := hsettled
    exact absurd (htarget.symm.trans hnode) (by simp)

theorem isComponent_installed {rest : CStr} (hrest : '/' ∉ rest) :
    Delimited.IsComponent '/' (".installed_".toList ++ rest) := by
  refine ⟨by simp, fun hmem => ?_⟩
  rcases List.mem_append.mp hmem with hmem | hmem
  · exact absurd hmem (by decide)
  · exact hrest hmem

/-- Being inside, in the tree and in the text. -/
theorem inside_iff (h : Openable tree request path) :
    Inside tree (tree.resolve path).location ↔ GoesOn tree path := by
  have hl := isComponent_location tree path
  constructor
  · rintro (⟨hmem, hd, hdirectory, hbelow⟩ | ⟨hmem, hd, hdirectory, heq⟩)
    · exact .source hmem hd hdirectory
        ((asDirectory_prefix_iff (isComponent_of_resolve hd) hl h.ne_root).mpr hbelow)
    · rename_i directory d rest
      refine GoesOn.installed hmem hd hdirectory (fun hslash : '/' ∈ rest => ?_) ?_
      · have hname := hl (".installed_".toList ++ rest) (by simp [heq])
        exact hname.2 (List.mem_append_right _ hslash)
      · rw [realpathText, heq, text_concat (isComponent_of_resolve hd), List.append_assoc]
  · rintro (⟨hmem, hd, hdirectory, htext⟩ | ⟨hmem, hd, hdirectory, hrest, htext⟩)
    · exact .source hmem hd hdirectory
        ((asDirectory_prefix_iff (isComponent_of_resolve hd) hl h.ne_root).mp htext)
    · rw [List.append_assoc] at htext
      exact .installed hmem hd hdirectory
        ((text_eq_iff (isComponent_of_resolve hd) hl (isComponent_installed hrest)).mp htext)

/-! ## The runs -/

/-- The world of the events that are `possible`, which keeps what has been opened. -/
def opening (possible : Event Answer → Prop) (opened : List CStr) (e : Event Answer)
    (opened' : List CStr) : Prop :=
  possible e ∧ opened' = (openedPath e).toList ++ opened

theorem steps_opening {possible : Event Answer → Prop} (h : ∀ e ∈ t, possible e)
    (opened : List CStr) : ∃ opened', Steps (opening possible) opened t opened' ∧
      ∀ path, path ∈ opened' ↔ path ∈ opened ∨ ∃ e ∈ t, openedPath e = some path := by
  induction t generalizing opened with
  | nil => exact ⟨opened, rfl, by simp⟩
  | cons e t ih =>
    obtain ⟨he, ht⟩ := List.forall_mem_cons.mp h
    obtain ⟨opened', hsteps, hmem⟩ := ih ht ((openedPath e).toList ++ opened)
    refine ⟨opened', ⟨_, ⟨he, rfl⟩, hsteps⟩, fun path => ?_⟩
    rw [hmem, List.mem_append, Option.mem_toList]
    simp only [List.mem_cons, exists_eq_or_imp]
    tauto

variable {possible : Event Answer → Prop}

/-- A call that opens nothing. -/
theorem sys_opening {ε : Type} {c : Call} (hc : ∀ r, openedPath ⟨c, r⟩ = none)
    (P : List CStr → Prop) {E : ε → List CStr → Prop} :
    Triple (opening possible) P (sys c : Proc Answer ε (Answer c))
      (fun r opened => possible ⟨c, r⟩ ∧ P opened) E :=
  Triple.perform fun opened r _ hP hstep => by
    rw [hstep.2, hc]
    exact ⟨hstep.1, hP⟩

theorem quiet_opening {c : Call} (hc : ∀ r, openedPath ⟨c, r⟩ = none) :
    Quiet (opening possible) (sys c : Handling (Answer c)) :=
  .perform fun opened r _ hstep => by
    rw [hstep.2, hc]
    rfl

section

variable (hrealpath : ∀ path buffer, possible ⟨.realpath path, buffer⟩ →
  buffer = realpathText tree path)

include hrealpath

theorem isAllowlisted_spec (path : CStr) (allowlist : List String) (found : Bool)
    (P : List CStr → Prop) {E : Fault → List CStr → Prop} :
    Triple (opening possible) P (isAllowlisted (realpathText tree path) allowlist found)
      (fun allowed opened => allowed = (found || allowlist.any (comparesWith tree path)) ∧ P opened)
      E := by
  induction allowlist generalizing found with
  | nil => exact Triple.pure fun _ hP => ⟨(Bool.or_false _).symm, hP⟩
  | cons allowed rest ih =>
    refine Triple.bind (sys_opening (fun _ => rfl) P) fun absolute =>
      Triple.of_and fun habsolute => ?_
    obtain rfl := hrealpath _ _ habsolute
    refine (ih _).weaken (fun _ hP => hP) (fun b opened hb => ⟨?_, hb.2⟩) fun _ _ hE => hE
    rw [hb.1, List.any_cons, ← Bool.or_assoc]
    rfl

end

/-! ### What can be opened -/

/-- The events that the file system allows. -/
abbrev Allowed (tree : Tree) (e : Event Answer) : Prop := answersOf tree e = true

theorem allowed_realpath (path buffer : CStr) (h : Allowed tree ⟨.realpath path, buffer⟩) :
    buffer = realpathText tree path := by
  simpa [Allowed, answersOf] using h

/-- A destination that passes the checks is missing, or a regular file. -/
theorem checkDestination_allowed (path : CStr) (reply : Dict) (P : List CStr → Prop)
    {E : Fault → List CStr → Prop} :
    Triple (opening (Allowed tree)) P (checkDestination (realpathText tree path) reply)
      (fun error opened => (error = none → tree.node (tree.resolve path).location = some .file ∨
        tree.node (tree.resolve path).location = none) ∧ P opened) E := by
  unfold checkDestination
  refine Triple.bind (sys_opening (fun _ => rfl) P) fun r => Triple.of_and fun hlstat => ?_
  cases r with
  | error e =>
    dsimp only
    split
    case isTrue he =>
      refine Triple.pure fun opened hP => ⟨fun _ => .inr ?_, hP⟩
      by_contra hpresent
      have hallows : lstatAllows tree (realpathText tree path) (.error e) = true := hlstat
      simp [lstatAllows, lookup_realpathText, hpresent, he] at hallows
    case isFalse => exact Triple.pure fun opened hP => ⟨fun h => absurd h (by simp), hP⟩
  | ok mode =>
    dsimp only
    split
    case isTrue hregular =>
      refine Triple.pure fun opened hP => ⟨fun _ => .inl ?_, hP⟩
      have hallows : lstatAllows tree (realpathText tree path) (.ok mode) = true := hlstat
      by_cases hnone : tree.node (tree.resolve path).location = none
      · simp [lstatAllows, lookup_realpathText, hnone] at hallows
      · simpa [lstatAllows, lookup_realpathText, hnone, hregular] using hallows
    case isFalse =>
      refine Triple.bind (M := fun _ => P) ?_ fun _ =>
        Triple.pure fun opened hP => ⟨fun h => absurd h (by simp), hP⟩
      exact (Quiet.bind (quiet_opening fun _ => rfl) fun _ => .pure _).triple P

theorem writeDestination_allowed (path : CStr) (mode : BitVec 64) (data : List UInt8)
    (reply : Dict) {E : Fault → List CStr → Prop} :
    Triple (opening (Allowed tree)) (· = [])
      (writeDestination (realpathText tree path) mode data reply)
      (fun _ opened => opened = [] ∨ opened = [realpathText tree path] ∧
        (tree.opened (realpathText tree path)).isSome = true) E := by
  unfold writeDestination
  refine Triple.bind (M := fun r opened => match r with
    | .error _ => opened = []
    | .ok _ => opened = [realpathText tree path] ∧
      (tree.opened (realpathText tree path)).isSome = true) (Triple.perform ?_) fun r => ?_
  · rintro opened r opened' rfl ⟨hallowed, rfl⟩
    cases r with
    | error _ => rfl
    | ok _ => exact ⟨rfl, hallowed⟩
  cases r with
  | error _ => exact Triple.pure fun _ h => .inl h
  | ok fd =>
    refine Triple.bind ((quiet_opening fun _ => rfl).triple _) fun r => ?_
    cases r with
    | error _ => exact Triple.pure fun _ h => .inr h
    | ok _ =>
      refine Triple.bind (Quiet.triple (.bind (quiet_opening fun _ => rfl) fun _ => .pure _) _)
        fun _ => Triple.pure fun _ h => .inr h

/-- What has been opened could be, and the comparison has succeeded. -/
theorem overwriteFile_allowed (request reply : Dict) :
    Triple (opening (Allowed tree)) (· = []) (overwriteFile request reply)
      (fun _ opened => ∀ p ∈ opened, ∃ path, Openable tree request path ∧
        overwriteAllowlist.any (comparesWith tree path) = true ∧ p = realpathText tree path)
      (fun _ _ => False) := by
  have hnothing (opened : List CStr) (h : opened = []) : ∀ p ∈ opened, ∃ path,
      Openable tree request path ∧ overwriteAllowlist.any (comparesWith tree path) = true ∧
        p = realpathText tree path := by simp [h]
  unfold overwriteFile
  dsimp only
  cases hpath : request.getString "path" with
  | none => exact Triple.pure hnothing
  | some path =>
    dsimp only
    split
    · exact Triple.pure hnothing
    case isFalse habsolute =>
    refine Triple.bind (sys_opening (fun _ => rfl) _) fun buffer => Triple.of_and fun hbuffer => ?_
    obtain rfl := allowed_realpath _ _ hbuffer
    refine Triple.bind (isAllowlisted_spec allowed_realpath path overwriteAllowlist false _)
      fun allowed => Triple.of_and fun hallowed => ?_
    split
    · exact Triple.pure hnothing
    case isFalse hcompares =>
    cases hdata : request.getData "data" with
    | none => exact Triple.pure hnothing
    | some data =>
      refine Triple.bind (checkDestination_allowed path reply _) fun error =>
        Triple.of_and fun hdestination => ?_
      cases error with
      | some _ => exact Triple.pure hnothing
      | none =>
        refine (writeDestination_allowed path _ data reply (E := fun _ _ => False)).weaken
          (fun _ h => h) ?_ fun _ _ h => h
        rintro _ opened (rfl | ⟨rfl, hopened⟩)
        · simp
        intro p hp
        refine ⟨path, ⟨hpath, by simpa using habsolute, by simp [hdata], ?_⟩, ?_,
          List.mem_singleton.mp hp⟩
        · exact (hdestination rfl).imp_right fun hnone => ⟨hnone, parent_of_opened hopened hnone⟩
        · simpa [hallowed] using hcompares

/-! ### A run that opens the file -/

/-- The mode of a regular file. -/
def regularMode : ℕ := 0x81a4

def lstatAnswer (tree : Tree) (path : CStr) : Except Errno ℕ :=
  match tree.lookup path with
  | .found l => .ok (if tree.node l = some .file then regularMode else 0)
  | .missing _ _ => .error enoent
  | .loop _ => .error eloop

def openAnswer (tree : Tree) (path : CStr) : Except Errno ℤ :=
  if (tree.opened path).isSome then .ok 7 else .error eperm

/-- Every call does what the file system allows. -/
def answering (tree : Tree) : ∀ c, Answer c
  | .realpath path => realpathText tree path
  | .lstat path => lstatAnswer tree path
  | .openWrite path _ => openAnswer tree path
  | c => success c

theorem lstatAllows_lstatAnswer (tree : Tree) (path : CStr) :
    lstatAllows tree path (lstatAnswer tree path) = true := by
  cases hlookup : tree.lookup path with
  | found l =>
    by_cases hfile : tree.node l = some .file
    · simp [lstatAllows, lstatAnswer, hlookup, hfile, sIsreg, regularMode]
    · simp [lstatAllows, lstatAnswer, hlookup, hfile, sIsreg]
  | missing l rest => simp [lstatAllows, lstatAnswer, hlookup]
  | loop l => simp [lstatAllows, lstatAnswer, hlookup, eloop, enoent]

theorem answersOf_answering (tree : Tree) (c : Call) :
    answersOf tree ⟨c, answering tree c⟩ = true := by
  cases c with
  | realpath path => exact beq_self_eq_true _
  | lstat path => exact lstatAllows_lstatAnswer tree path
  | openWrite path mode =>
    show answersOf tree ⟨.openWrite path mode, openAnswer tree path⟩ = true
    unfold openAnswer
    split
    case isTrue hopened => exact hopened
    case isFalse => rfl
  | _ => rfl

/-- The events of a run on these answers. -/
abbrev AnsweredBy (tree : Tree) (e : Event Answer) : Prop := e.2 = answering tree e.1

theorem checkDestination_answered (h : Openable tree request path) (reply : Dict)
    (P : List CStr → Prop) {E : Fault → List CStr → Prop} :
    Triple (opening (AnsweredBy tree)) P (checkDestination (realpathText tree path) reply)
      (fun error opened => error = none ∧ P opened) E := by
  unfold checkDestination
  refine Triple.bind (sys_opening (fun _ => rfl) P) fun r => Triple.of_and fun hlstat => ?_
  rcases h.destination with hfile | ⟨hnone, -⟩
  · have hanswer : lstatAnswer tree (realpathText tree path) = .ok regularMode := by
      simp [lstatAnswer, lookup_realpathText, hfile]
    obtain rfl : r = .ok regularMode := hlstat.trans hanswer
    exact Triple.pure fun opened hP => ⟨rfl, hP⟩
  · have hanswer : lstatAnswer tree (realpathText tree path) = .error enoent := by
      simp [lstatAnswer, lookup_realpathText, hnone]
    obtain rfl : r = .error enoent := hlstat.trans hanswer
    exact Triple.pure fun opened hP => ⟨rfl, hP⟩

theorem writeDestination_answered (h : Openable tree request path) (mode : BitVec 64)
    (data : List UInt8) (reply : Dict) {E : Fault → List CStr → Prop} :
    Triple (opening (AnsweredBy tree)) (fun _ => True)
      (writeDestination (realpathText tree path) mode data reply)
      (fun _ opened => realpathText tree path ∈ opened) E := by
  unfold writeDestination
  refine Triple.bind (M := fun r opened => (∃ fd, r = .ok fd) ∧ realpathText tree path ∈ opened)
    (Triple.perform ?_) fun r => Triple.of_and ?_
  · rintro opened r opened' - ⟨hr, rfl⟩
    have hanswer : openAnswer tree (realpathText tree path) = .ok 7 := by
      simp [openAnswer, opened_realpathText h]
    obtain rfl : r = .ok 7 := hr.trans hanswer
    exact ⟨⟨7, rfl⟩, List.mem_append_left _ (by simp [openedPath])⟩
  rintro ⟨fd, rfl⟩
  refine Triple.bind ((quiet_opening fun _ => rfl).triple _) fun r => ?_
  cases r with
  | error _ => exact Triple.pure fun _ h => h
  | ok _ =>
    refine Triple.bind (Quiet.triple (.bind (quiet_opening fun _ => rfl) fun _ => .pure _) _)
      fun _ => Triple.pure fun _ h => h

/-- A request that passes the comparison opens its file, when every call does what it can. -/
theorem overwriteFile_answered (reply : Dict) (h : Openable tree request path)
    (hcompares : overwriteAllowlist.any (comparesWith tree path) = true) :
    Triple (opening (AnsweredBy tree)) (fun _ => True) (overwriteFile request reply)
      (fun _ opened => realpathText tree path ∈ opened) (fun _ _ => False) := by
  obtain ⟨data, hdata⟩ := Option.isSome_iff_exists.mp h.data
  unfold overwriteFile
  dsimp only
  rw [h.requested]
  dsimp only
  rw [if_neg (not_not.mpr h.absolute)]
  refine Triple.bind (sys_opening (fun _ => rfl) _) fun buffer => Triple.of_and fun hbuffer => ?_
  obtain rfl : buffer = realpathText tree path := hbuffer
  refine Triple.bind (isAllowlisted_spec (fun _ _ h => h) path overwriteAllowlist false _)
    fun allowed => Triple.of_and fun hallowed => ?_
  obtain rfl : allowed = true := hallowed.trans hcompares
  rw [if_neg (by simp), hdata]
  dsimp only
  refine Triple.bind (checkDestination_answered h reply _) fun error => Triple.of_and ?_
  rintro rfl
  exact writeDestination_answered h _ data reply

theorem mem_drive {answer : ∀ c, Answer c} {α : Type} {x : Prog Answer α} {e : Event Answer}
    (he : e ∈ (drive answer x).1) : e.2 = answer e.1 := by
  induction x with
  | done a => cases he
  | call c k ih =>
    rcases List.mem_cons.mp he with rfl | he
    · rfl
    · exact ih _ he

/-- The path is opened in a run of the system. -/
theorem exists_run_opens (reply : Dict) (h : Openable tree request path)
    (hcompares : overwriteAllowlist.any (comparesWith tree path) = true) :
    ∃ t r, Run (overwriteFile request reply).run t r ∧ (∀ e ∈ t, answersOf tree e = true) ∧
      ∃ e ∈ t, openedPath e = some (realpathText tree path) := by
  have hrun := run_drive (answering tree) (overwriteFile request reply).run
  have hanswered : ∀ e ∈ (drive (answering tree) (overwriteFile request reply).run).1,
      AnsweredBy tree e := fun e he => mem_drive he
  obtain ⟨opened, hsteps, hmem⟩ := steps_opening hanswered []
  refine ⟨_, _, hrun, fun e he => ?_, ?_⟩
  · have hallowed := answersOf_answering tree e.1
    rwa [← hanswered e he] at hallowed
  · have hend := overwriteFile_answered reply h hcompares [] trivial _ opened _ hrun hsteps
    cases hr : (drive (answering tree) (overwriteFile request reply).run).2 with
    | error _ =>
      rw [hr] at hend
      exact hend.elim
    | ok _ =>
      rw [hr] at hend
      exact ((hmem _).mp hend).resolve_left List.not_mem_nil

/-- **Where `overwrite_file` writes**: inside the allowlist, in every run, exactly when the path
goes on where a name ends whenever the comparison succeeds for a path that can be opened. -/
theorem overwriteFile_inside_iff (tree : Tree) (request reply : Dict) :
    (∀ t r, Run (overwriteFile request reply).run t r → (∀ e ∈ t, answersOf tree e = true) →
      OpensInside tree t) ↔
    ∀ path, Openable tree request path →
      overwriteAllowlist.any (comparesWith tree path) = true → GoesOn tree path := by
  constructor
  · intro hinside path hopenable hcompares
    obtain ⟨t, r, hrun, hanswers, e, he, hopened⟩ := exists_run_opens reply hopenable hcompares
    obtain ⟨l, hl, hin⟩ := hinside t r hrun hanswers e he _ hopened
    obtain rfl := Option.some.inj ((opened_realpathText hopenable).symm.trans hl)
    exact (inside_iff hopenable).mp hin
  · intro hgoesOn t r hrun hanswers e he p hp
    have hallowed : ∀ e ∈ t, Allowed tree e := hanswers
    obtain ⟨opened, hsteps, hopened⟩ := steps_opening hallowed []
    have hend := overwriteFile_allowed request reply [] rfl t opened r hrun hsteps
    cases r with
    | error _ => exact hend.elim
    | ok _ =>
      obtain ⟨path, hopenable, hcompares, rfl⟩ := hend p ((hopened p).mpr (.inr ⟨e, he, hp⟩))
      exact ⟨_, opened_realpathText hopenable,
        (inside_iff hopenable).mpr (hgoesOn path hopenable hcompares)⟩

end

/-! ## A path that shares the name -/

/-- `/etc` is a link, and the second directory of the allowlist is there. -/
def aptTree : Tree := .ofEntries
  [(["etc".toList], .link "private/etc".toList), (["private".toList], .directory),
    (["private".toList, "etc".toList], .directory),
    (["private".toList, "etc".toList, "apt".toList], .directory),
    (["private".toList, "etc".toList, "apt".toList, "sources.list.d".toList], .directory)]
  (by decide +kernel) (by decide +kernel)

def besideRequest : Dict :=
  (Dict.set [] "path" (.string "/etc/apt/sources.list.d-evil".toList)).set "data" (.data [])

def besideLocation : Location :=
  ["private".toList, "etc".toList, "apt".toList, "sources.list.d-evil".toList]

theorem resolve_beside : aptTree.resolve "/etc/apt/sources.list.d-evil".toList =
    .missing besideLocation [] := by decide +kernel

theorem openable_beside :
    Openable aptTree besideRequest "/etc/apt/sources.list.d-evil".toList where
  requested := by decide +kernel
  absolute := by decide
  data := by decide +kernel
  destination := by
    rw [resolve_beside]
    decide +kernel

theorem not_inside_beside : ¬Inside aptTree besideLocation := by
  have hvarJb : ∀ d, aptTree.resolve varJb ≠ .found d := by
    have hresolve : aptTree.resolve varJb = .missing ["var".toList] ["jb".toList] := by
      decide +kernel
    simp [hresolve]
  have hjbSources : aptTree.resolve "/var/jb/etc/apt/sources.list.d".toList =
      .missing ["var".toList]
        ["jb".toList, "etc".toList, "apt".toList, "sources.list.d".toList] := by decide +kernel
  have hsources : aptTree.resolve "/etc/apt/sources.list.d".toList =
      .found ["private".toList, "etc".toList, "apt".toList, "sources.list.d".toList] := by
    decide +kernel
  have hroot : aptTree.resolve "/".toList = .found [] := by decide +kernel
  rintro (⟨hmem, hd, -, hbelow⟩ | ⟨hmem, hd, -, hl⟩)
  · rcases List.mem_pair.mp hmem with rfl | rfl
    · rw [hjbSources] at hd
      cases hd
    · obtain rfl := Resolution.found.inj (hsources.symm.trans hd)
      exact absurd hbelow.1 (by decide)
  · rcases List.mem_pair.mp hmem with rfl | rfl
    · obtain rfl := Resolution.found.inj (hroot.symm.trans hd)
      exact absurd (congrArg List.length hl) (by simp [besideLocation])
    · exact hvarJb _ hd

/-- A file beside the directory is opened, because its name begins with that of the directory. -/
theorem overwriteFile_opens_beside :
    ∃ t r, Run (overwriteFile besideRequest []).run t r ∧
      (∀ e ∈ t, answersOf aptTree e = true) ∧ ¬OpensInside aptTree t := by
  obtain ⟨t, r, hrun, hanswers, e, he, hopened⟩ :=
    exists_run_opens [] openable_beside (by decide +kernel)
  refine ⟨t, r, hrun, hanswers, fun hinside => ?_⟩
  obtain ⟨l, hl, hin⟩ := hinside e he _ hopened
  obtain rfl := Option.some.inj ((opened_realpathText openable_beside).symm.trans hl)
  rw [resolve_beside] at hin
  exact not_inside_beside hin

end Jbinit.Palera1nd

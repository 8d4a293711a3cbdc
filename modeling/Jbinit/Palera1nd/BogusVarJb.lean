import Jbinit.Palera1nd.PrebootPath
import Jbinit.Foundations.Buffers
import Mathlib.Data.List.TakeWhile

/-!
# The target of a bogus `/var/jb`

`remove_bogus_var_jb` reads the target of the link into a buffer on the stack and compares the
buffer with strings. `readlink` writes no terminator, so what is compared is the target with what
was in the buffer behind it, up to a NUL. What the function does depends on the file system only
exactly when the target does not begin one of the strings (`dependsOnFileSystem_iff`).
-/

namespace Jbinit.Palera1nd

open Foundations Calls

def pathMax : ℕ := 1024

def nul : Char := '\x00'

abbrev Stack := Buffer Char pathMax

/-- What is compared after `readlink("/var/jb", link_path, PATH_MAX)`. -/
def linkPath (stack : Stack) (target : CStr) : CStr :=
  match stack.write 0 (target.take pathMax) with
  | some buf => buf.text nul
  | none => []

/-- What `readlink` leaves for the comparisons. -/
def linkRead (stack : Stack) (target : CStr) : LinkPath where
  target := target.take pathMax
  text := linkPath stack target

def unc0verLinks : List CStr := ["/jb".toList, "/jb/".toList]

def bundleLinks : List CStr :=
  ["/private/var/containers/Bundle/jb".toList, "/private/var/containers/Bundle/jb/".toList]

def unc0verMarkers : List String :=
  ["/var/jb/etc/bash.ro", "/var/jb/usr/bin/ldid3", "/var/jb/etc/profile.ro",
    "/var/jb/etc/apt/sources.list.d/saurik.list"]

/-- What the file system says of `/var/jb`. -/
structure VarJb where
  lstat : Except Errno ℕ
  readlink : Except Errno CStr
  noNul : ∀ target, readlink = .ok target → nul ∉ target
  access : CStr → Except Errno Unit
  unlink : Except Errno Unit
  removefile : Except Errno Unit

namespace VarJb

def answer (v : VarJb) (stack : Stack) : ∀ c, Answer c
  | .lstat _ => v.lstat
  | .readlink _ => v.readlink.map (linkRead stack)
  | .access path _ => v.access path
  | .unlink _ => v.unlink
  | .removefile _ => v.removefile
  | c => success c

/-- The value returned, and the calls that are made. -/
def removes (v : VarJb) (stack : Stack) : ℤ × List Call :=
  execute (logging (v.answer stack)) [] removeBogusVarJb

/-- `/var/jb` is a link with this target. -/
def LinksTo (v : VarJb) (target : CStr) : Prop :=
  v.readlink = .ok target ∧ ∃ mode, v.lstat = .ok mode ∧ sIslnk mode = true

/-- A link that unc0ver has made. -/
def IsBogus (v : VarJb) (target : CStr) : Prop :=
  target ∈ unc0verLinks ∨
    target ∈ bundleLinks ∧ ∀ path ∈ unc0verMarkers, ok (v.access path.toList) = true

/-- What is done and returned does not depend on what was on the stack, and a link is unlinked
exactly when it is bogus. -/
structure DependsOnFileSystem (v : VarJb) : Prop where
  same : ∀ stack stack', v.removes stack = v.removes stack'
  unlinks : ∀ target, v.LinksTo target → ∀ stack,
    .unlink varJb ∈ (v.removes stack).2 ↔ v.IsBogus target

/-- The target begins one of the strings it is compared with. -/
def BeginsBogus (target : CStr) : Prop := ∃ link ∈ unc0verLinks ++ bundleLinks, target <+: link

/-! ## The buffer -/

variable {v : VarJb} {stack : Stack} {target link : CStr}

theorem linkPath_eq (stack : Stack) (target : CStr) : linkPath stack target =
    (target.take pathMax ++ stack.cells.drop (target.take pathMax).length).takeWhile (· != nul) := by
  have hfits : 0 + (target.take pathMax).length ≤ pathMax := by
    rw [Nat.zero_add]
    exact List.length_take_le pathMax target
  rw [linkPath, Buffer.write, dif_pos hfits]
  simp [Buffer.text]

/-- What is compared begins with the target. -/
theorem linkPath_eq_append (hnul : nul ∉ target) (stack : Stack) : linkPath stack target =
    target.take pathMax ++ (stack.cells.drop (target.take pathMax).length).takeWhile (· != nul) := by
  rw [linkPath_eq, List.takeWhile_append_of_pos]
  intro c hc
  exact bne_iff_ne.mpr (ne_of_mem_of_not_mem (List.mem_of_mem_take hc) hnul)

/-- Only a beginning of a short string can be read as the string. -/
theorem prefix_of_linkPath_eq (hnul : nul ∉ target) (hlink : link.length < pathMax)
    (h : linkPath stack target = link) : target <+: link := by
  rw [linkPath_eq_append hnul] at h
  have hprefix : target.take pathMax <+: link := by
    rw [← h]
    exact List.prefix_append _ _
  have hlength := hprefix.length_le
  rw [List.length_take] at hlength
  rwa [List.take_of_length_le (by omega)] at hprefix

/-- The stack can hold the rest of the string. -/
theorem exists_linkPath_eq (hnul : nul ∉ link) (hlink : link.length < pathMax)
    (h : target <+: link) : ∃ stack, linkPath stack target = link := by
  obtain ⟨rest, rfl⟩ := h
  have hlength : (target ++ rest ++ List.replicate (pathMax - (target ++ rest).length) nul).length =
      pathMax := by
    rw [List.length_append, List.length_replicate]
    omega
  refine ⟨⟨_, hlength⟩, ?_⟩
  have htake : target.take pathMax = target := by
    apply List.take_of_length_le
    rw [List.length_append] at hlink
    omega
  rw [linkPath_eq, htake]
  dsimp only
  rw [List.append_assoc target, List.drop_left, ← List.append_assoc, List.takeWhile_append_of_pos]
  · have hpos : pathMax - (target ++ rest).length =
        (pathMax - (target ++ rest).length - 1) + 1 := by
      omega
    rw [hpos, List.replicate_succ, List.takeWhile_cons_of_neg (by simp [nul]), List.append_nil]
  · intro c hc
    exact bne_iff_ne.mpr (ne_of_mem_of_not_mem hc hnul)

/-- The stack can hold no NUL at all. -/
theorem exists_length_linkPath (hnul : nul ∉ target) :
    ∃ stack, (linkPath stack target).length = pathMax := by
  refine ⟨⟨List.replicate pathMax 'x', List.length_replicate⟩, ?_⟩
  have hx : ∀ c ∈ (List.replicate pathMax 'x').drop (target.take pathMax).length,
      (c != nul) = true := by
    intro c hc
    rw [List.eq_of_mem_replicate (List.mem_of_mem_drop hc)]
    decide
  rw [linkPath_eq_append hnul]
  dsimp only
  rw [List.takeWhile_eq_self_iff.mpr hx]
  simp only [List.length_append, List.length_drop, List.length_replicate, List.length_take]
  omega

/-! ## The calls -/

/-- The files that are looked for until one is there, or one is not. -/
def accessed (v : VarJb) (stop : Bool) : List String → List Call
  | [] => []
  | path :: paths =>
    .access path.toList .fOk ::
      if ok (v.access path.toList) = stop then [] else accessed v stop paths

variable {log : List Call}

theorem execute_pathExists (path : String) :
    execute (logging (v.answer stack)) log (pathExists path) =
      (ok (v.access path.toList), log ++ [.access path.toList .fOk]) := rfl

theorem execute_allExist (paths : List String) :
    execute (logging (v.answer stack)) log (allExist paths) =
      (paths.all fun path => ok (v.access path.toList), log ++ v.accessed false paths) := by
  induction paths generalizing log with
  | nil => simp [allExist, accessed, execute_pure]
  | cons path paths ih =>
    rw [allExist, execute_bind, execute_pathExists]
    cases hok : ok (v.access path.toList) with
    | false => simp [accessed, hok, execute_pure]
    | true => simp [accessed, hok, ih]

theorem execute_anyExists (paths : List String) :
    execute (logging (v.answer stack)) log (anyExists paths) =
      (paths.any fun path => ok (v.access path.toList), log ++ v.accessed true paths) := by
  induction paths generalizing log with
  | nil => simp [anyExists, accessed, execute_pure]
  | cons path paths ih =>
    rw [anyExists, execute_bind, execute_pathExists]
    cases hok : ok (v.access path.toList) with
    | false => simp [accessed, hok, ih]
    | true => simp [accessed, hok, execute_pure]

/-- What is done with a link, from the comparison on. -/
def unlinkBogus (path : CStr) : Proc Answer Empty ℤ := do
  if unc0verLinks.contains path then
    let r ← sys (.unlink varJb)
    return if ok r then 0 else -1
  else if bundleLinks.contains path then
    if ← allExist unc0verMarkers then
      let r ← sys (.unlink varJb)
      return if ok r then 0 else -1
    else return 0
  else return 0

theorem removes_of_linksTo (h : v.LinksTo target) (stack : Stack) : v.removes stack =
    execute (logging (v.answer stack)) [.lstat varJb, .readlink varJb]
      (unlinkBogus (linkPath stack target)) := by
  obtain ⟨hreadlink, mode, hlstat, hlink⟩ := h
  have hlstat' : logging (v.answer stack) [] (.lstat varJb) = (.ok mode, [.lstat varJb]) :=
    congrArg (·, [Call.lstat varJb]) hlstat
  have hreadlink' : logging (v.answer stack) [.lstat varJb] (.readlink varJb) =
      (.ok (linkRead stack target), [.lstat varJb, .readlink varJb]) :=
    congrArg (·, [Call.lstat varJb, Call.readlink varJb])
      (congrArg (Except.map (linkRead stack)) hreadlink)
  unfold removes removeBogusVarJb sys
  rw [execute_bind, execute_perform, hlstat']
  dsimp only
  rw [if_pos hlink, execute_bind, execute_perform, hreadlink']
  rfl

/-- Another target is left alone. -/
theorem execute_unlinkBogus_of_not_mem {path : CStr} (h : path ∉ unc0verLinks ++ bundleLinks) :
    execute (logging (v.answer stack)) log (unlinkBogus path) = (0, log) := by
  rw [List.mem_append, not_or] at h
  have hunc0ver : ¬unc0verLinks.contains path = true := by
    simpa using h.1
  have hbundle : ¬bundleLinks.contains path = true := by
    simpa using h.2
  rw [unlinkBogus, if_neg hunc0ver, if_neg hbundle, execute_pure]

/-- One of the strings leads to a further call. -/
theorem length_unlinkBogus_of_mem {path : CStr} (h : path ∈ unc0verLinks ++ bundleLinks) :
    log.length < (execute (logging (v.answer stack)) log (unlinkBogus path)).2.length := by
  have hcall (c : Call) (log : List Call) :
      execute (logging (v.answer stack)) log (sys c) = logging (v.answer stack) log c := rfl
  rw [unlinkBogus]
  by_cases hunc0ver : unc0verLinks.contains path = true
  · rw [if_pos hunc0ver, execute_bind, hcall]
    simp [execute_pure, logging]
  · have hbundle : bundleLinks.contains path = true := by
      rw [List.mem_append] at h
      simpa using h.resolve_left (by simpa using hunc0ver)
    rw [if_neg hunc0ver, if_pos hbundle, execute_bind, execute_allExist]
    have haccess : 0 < (v.accessed false unc0verMarkers).length := Nat.succ_pos _
    cases unc0verMarkers.all fun path => ok (v.access path.toList) with
    | false => simpa [execute_pure] using haccess
    | true =>
      simp only [if_true, execute_bind, hcall]
      simp [execute_pure, logging]

/-- Where no link is read, the buffer is not used. -/
theorem removes_of_not_linksTo (h : ∀ target, ¬v.LinksTo target) (stack stack' : Stack) :
    v.removes stack = v.removes stack' := by
  have hcall (stack : Stack) (c : Call) (log : List Call) :
      execute (logging (v.answer stack)) log (sys c) = logging (v.answer stack) log c := rfl
  have hlstat (stack : Stack) : logging (v.answer stack) [] (.lstat varJb) =
      (v.lstat, [.lstat varJb]) := rfl
  have hreadlink (stack : Stack) (log : List Call) : logging (v.answer stack) log (.readlink varJb) =
      (v.readlink.map (linkRead stack), log ++ [.readlink varJb]) := rfl
  have hremovefile (stack : Stack) (log : List Call) :
      logging (v.answer stack) log (.removefile varJb) =
        (v.removefile, log ++ [.removefile varJb]) := rfl
  unfold removes removeBogusVarJb
  simp only [execute_bind, hcall, hlstat]
  cases hmode : v.lstat with
  | error e => rfl
  | ok mode =>
    dsimp only
    by_cases hlink : sIslnk mode = true
    · cases htarget : v.readlink with
      | error e =>
        simp only [if_pos hlink, execute_bind, hcall, hreadlink, htarget]
        rfl
      | ok target => exact absurd ⟨htarget, mode, hmode, hlink⟩ (h target)
    · rw [if_neg hlink]
      cases sIsdir mode with
      | false => rfl
      | true =>
        simp only [if_true, execute_bind, execute_anyExists]
        split
        · rfl
        · simp only [execute_bind, execute_anyExists]
          split
          · simp only [execute_bind, hcall, hremovefile]
            rfl
          · rfl

theorem length_lt_of_mem {path : CStr} (h : path ∈ unc0verLinks ++ bundleLinks) :
    path.length < pathMax ∧ nul ∉ path := by
  have hlinks : ∀ path ∈ unc0verLinks ++ bundleLinks, path.length < pathMax ∧ nul ∉ path := by
    decide
  exact hlinks path h

/-- **The stack**: nothing depends on it, and the bogus links are those that are unlinked, exactly
when the target of a link does not begin one of the strings. -/
theorem dependsOnFileSystem_iff (v : VarJb) :
    v.DependsOnFileSystem ↔ ∀ target, v.LinksTo target → ¬BeginsBogus target := by
  constructor
  · rintro h target hlinks ⟨link, hmem, hprefix⟩
    obtain ⟨hlength, hnul⟩ := length_lt_of_mem hmem
    obtain ⟨stack, hstack⟩ := exists_linkPath_eq hnul hlength hprefix
    obtain ⟨stack', hstack'⟩ := exists_length_linkPath (v.noNul target hlinks.1)
    have hother : linkPath stack' target ∉ unc0verLinks ++ bundleLinks := by
      intro hmem'
      have hshort := (length_lt_of_mem hmem').1
      omega
    have hsame := congrArg (fun r => r.2.length) (h.same stack stack')
    simp only [removes_of_linksTo hlinks, hstack, execute_unlinkBogus_of_not_mem hother] at hsame
    have hmore : [Call.lstat varJb, .readlink varJb].length <
        (execute (logging (v.answer stack)) [.lstat varJb, .readlink varJb]
          (unlinkBogus link)).2.length := length_unlinkBogus_of_mem hmem
    omega
  · intro h
    have hremoves {target : CStr} (hlinks : v.LinksTo target) (stack : Stack) :
        v.removes stack = (0, [.lstat varJb, .readlink varJb]) := by
      have hother : linkPath stack target ∉ unc0verLinks ++ bundleLinks := by
        intro hmem
        exact h target hlinks ⟨_, hmem,
          prefix_of_linkPath_eq (v.noNul target hlinks.1) (length_lt_of_mem hmem).1 rfl⟩
      rw [removes_of_linksTo hlinks, execute_unlinkBogus_of_not_mem hother]
    constructor
    case same =>
      intro stack stack'
      by_cases hlinks : ∃ target, v.LinksTo target
      · obtain ⟨target, hlinks⟩ := hlinks
        rw [hremoves hlinks, hremoves hlinks]
      · exact removes_of_not_linksTo (not_exists.mp hlinks) stack stack'
    case unlinks =>
      intro target hlinks stack
      rw [hremoves hlinks]
      apply iff_of_false
      · simp
      · intro hbogus
        refine h target hlinks ⟨target, ?_, List.prefix_rfl⟩
        rcases hbogus with hmem | ⟨hmem, -⟩
        · exact List.mem_append_left _ hmem
        · exact List.mem_append_right _ hmem

/-- A link to `/j`. -/
def shortLink : VarJb where
  lstat := .ok 0o120755
  readlink := .ok "/j".toList
  noNul := by
    intro target htarget
    cases htarget
    decide
  access _ := .ok ()
  unlink := .ok ()
  removefile := .ok ()

/-- The link is unlinked when the stack has the rest of the string. -/
theorem not_dependsOnFileSystem_short : ∃ stack stack',
    linkPath stack "/j".toList = "/jb".toList ∧ linkPath stack' "/j".toList = "/j".toList ∧
    shortLink.removes stack = (0, [.lstat varJb, .readlink varJb, .unlink varJb]) ∧
    shortLink.removes stack' = (0, [.lstat varJb, .readlink varJb]) := by
  obtain ⟨stack, hstack⟩ : ∃ stack, linkPath stack "/j".toList = "/jb".toList :=
    exists_linkPath_eq (by decide) (by decide) (by decide)
  obtain ⟨stack', hstack'⟩ : ∃ stack, linkPath stack "/j".toList = "/j".toList :=
    exists_linkPath_eq (by decide) (by decide) (by decide)
  have hlinks : shortLink.LinksTo "/j".toList := ⟨rfl, 0o120755, rfl, by decide⟩
  refine ⟨stack, stack', hstack, hstack', ?_, ?_⟩
  · rw [removes_of_linksTo hlinks, hstack]
    rfl
  · rw [removes_of_linksTo hlinks, hstack']
    rfl

end VarJb

end Jbinit.Palera1nd

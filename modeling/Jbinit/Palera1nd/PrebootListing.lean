import Jbinit.Palera1nd.PrebootPath
import Jbinit.Foundations.FileTree

/-!
# Listings of the preboot directory

What `jailbreak_get_prebootPath` returns for a directory as a whole, in whatever order it is listed.
The name that it finds is copied into a buffer of 20 bytes. A longer one is cut there, and the path
then leads nowhere (`getPrebootPath_getsPath_iff`).
-/

namespace Jbinit.Palera1nd

open Foundations Calls FileTree

/-- The preboot directory of a system that has one, and what `stat` says of the `procursus` of its
entries. -/
structure Preboot where
  major : ℕ
  supported : 20 ≤ major
  bmhash : BmHash
  entries : List CStr
  procursus : CStr → Except Errno ℕ

namespace Preboot

def procursusPath (bmhash : BmHash) (name : CStr) : CStr :=
  "/private/preboot/".toList ++ bmhash.chars ++ '/' :: name ++ "/procursus".toList

variable (p : Preboot)

/-- Of an entry there is what there is; what is not listed is not there. -/
def stat (path : CStr) : Except Errno ℕ :=
  match p.entries.find? fun name => path == procursusPath p.bmhash name with
  | some name => p.procursus name
  | none => .error enoent

def answer : ∀ c, Answer c
  | .uname => .ok p.major
  | .getBmhash => (p.bmhash, true)
  | .readDirectory path => if path = prebootDirectory p.bmhash then .ok p.entries else .error enoent
  | .stat path => p.stat path
  | c => success c

def respond (_ : Unit) (c : Call) : Answer c × Unit := (p.answer c, ())

/-- The path on success, the returned value otherwise. -/
def getPrebootPath : Except Errno CStr := (execute p.respond () jailbreakGetPrebootPath).1

/-- What `procursus` is a directory in. -/
def HasProcursus (name : CStr) : Prop := ∃ mode, p.procursus name = .ok mode ∧ sIsdir mode = true

/-- The only entry that begins with `jb-`. -/
def Only (name : CStr) : Prop := p.entries.filter isJbName = [name]

/-- The only jailbreak directory is found, under its whole name, in whatever order the entries are
listed. -/
structure GetsPath : Prop where
  succeeds : (∃ path, p.getPrebootPath = .ok path) ↔ ∃ name, p.Only name ∧ p.HasProcursus name
  path : ∀ path, p.getPrebootPath = .ok path →
    ∃ name, p.Only name ∧ path = procursusPath p.bmhash name
  order : ∀ entries, entries.Perm p.entries →
    getPrebootPath { p with entries := entries } = p.getPrebootPath

/-- The only jailbreak directory has a name that the buffer does not hold. -/
def Truncated : Prop := ∃ name, p.Only name ∧ p.HasProcursus name ∧ 20 ≤ name.length

/-! ## The scan -/

/-- After a first name any other is one too many. -/
theorem findJbName_some (names : List CStr) (found : CStr) : findJbName names (some found) =
    if names.filter isJbName = [] then .ok found else .error eexist := by
  induction names with
  | nil => rfl
  | cons name names ih =>
    by_cases hname : isJbName name = true
    · simp [findJbName, hname]
    · simp [findJbName, hname, ih]

theorem findJbName_none (names : List CStr) : findJbName names none =
    match names.filter isJbName with
    | [] => .error enoent
    | [name] => .ok (CStr.snprintf 20 name)
    | _ :: _ :: _ => .error eexist := by
  induction names with
  | nil => rfl
  | cons name names ih =>
    by_cases hname : isJbName name = true
    · rw [findJbName, if_pos hname, findJbName_some, List.filter_cons_of_pos hname]
      cases names.filter isJbName with
      | nil => rfl
      | cons other others => rfl
    · rw [findJbName, if_neg hname, ih, List.filter_cons_of_neg hname]

/-! ## Paths -/

variable {p} {name other : CStr}

theorem procursusPath_inj (bmhash : BmHash) :
    procursusPath bmhash name = procursusPath bmhash other ↔ name = other := by
  constructor
  · intro h
    exact (List.cons.inj (List.append_cancel_left (List.append_cancel_right h))).2
  · rintro rfl
    rfl

theorem length_procursusPath (bmhash : BmHash) (name : CStr) :
    (procursusPath bmhash name).length = 28 + bmhash.chars.length + name.length := by
  unfold procursusPath
  rw [List.length_append, List.length_append, List.length_append, List.length_cons]
  show 17 + _ + (_ + 1) + 10 = _
  omega

theorem snprintf_procursusPath (bmhash : BmHash) (name : CStr) :
    CStr.snprintf 150 (procursusPath bmhash (CStr.snprintf 20 name)) =
      procursusPath bmhash (CStr.snprintf 20 name) := by
  have hhash := bmhash.fits
  have hname : (CStr.snprintf 20 name).length ≤ 19 := List.length_take_le 19 name
  have hlength := length_procursusPath bmhash (CStr.snprintf 20 name)
  apply CStr.snprintf_of_lt
  omega

theorem stat_of_mem (h : name ∈ p.entries) :
    p.stat (procursusPath p.bmhash name) = p.procursus name := by
  rw [stat]
  cases hfind : p.entries.find? fun other =>
      procursusPath p.bmhash name == procursusPath p.bmhash other with
  | none => simpa using List.find?_eq_none.mp hfind name h
  | some other =>
    have hsame := List.find?_some hfind
    rw [beq_iff_eq, procursusPath_inj] at hsame
    rw [hsame]

theorem stat_of_not_mem (h : name ∉ p.entries) :
    p.stat (procursusPath p.bmhash name) = .error enoent := by
  have hfind : (p.entries.find? fun other =>
      procursusPath p.bmhash name == procursusPath p.bmhash other) = none := by
    apply List.find?_eq_none.mpr
    intro other hother
    rw [beq_iff_eq, procursusPath_inj]
    rintro rfl
    exact h hother
  rw [stat, hfind]

/-! ## The result -/

theorem getPrebootPath_eq (p : Preboot) : p.getPrebootPath =
    match p.entries.filter isJbName with
    | [] => .error enoent
    | [name] =>
      match p.stat (procursusPath p.bmhash (CStr.snprintf 20 name)) with
      | .error _ => .error enxio
      | .ok mode => if sIsdir mode then
          .ok (procursusPath p.bmhash (CStr.snprintf 20 name)) else .error enotdir
    | _ :: _ :: _ => .error eexist := by
  have hmajor : ¬p.major < 20 := Nat.not_lt.mpr p.supported
  have huname : p.respond () .uname = (.ok p.major, ()) := rfl
  have hbmhash : p.respond () .getBmhash = ((p.bmhash, true), ()) := rfl
  have hlist : p.respond () (.readDirectory (prebootDirectory p.bmhash)) = (.ok p.entries, ()) :=
    congrArg (·, ()) (if_pos rfl)
  unfold getPrebootPath jailbreakGetPrebootPath sys
  rw [execute_bind, execute_perform, huname]
  dsimp only
  rw [if_neg hmajor, execute_bind, execute_perform, hbmhash]
  dsimp only
  rw [execute_bind, execute_perform, hlist]
  dsimp only
  rw [findJbName_none]
  cases p.entries.filter isJbName with
  | nil => rfl
  | cons name others =>
    cases others with
    | cons other others => rfl
    | nil =>
      dsimp only
      rw [execute_bind, execute_perform]
      have hpath : CStr.snprintf 150 ("/private/preboot/".toList ++ p.bmhash.chars ++
          '/' :: CStr.snprintf 20 name ++ "/procursus".toList) =
          procursusPath p.bmhash (CStr.snprintf 20 name) := snprintf_procursusPath p.bmhash name
      have hstat (path : CStr) : p.respond () (.stat path) = (p.stat path, ()) := rfl
      simp only [hpath, hstat]
      cases p.stat (procursusPath p.bmhash (CStr.snprintf 20 name)) with
      | error _ => rfl
      | ok mode =>
        dsimp only
        cases sIsdir mode <;> rfl

/-- A name that fits the buffer leads to the entry. -/
theorem stat_of_fits (honly : p.Only name) (hfits : name.length < 20) :
    p.stat (procursusPath p.bmhash (CStr.snprintf 20 name)) = p.procursus name := by
  have hmem : name ∈ p.entries.filter isJbName := by
    rw [honly]
    exact List.mem_singleton_self name
  rw [CStr.snprintf_of_lt hfits, stat_of_mem (List.mem_of_mem_filter hmem)]

/-- A name that does not fit is cut to one that is not listed: it begins with `jb-` as well. -/
theorem stat_of_truncated (honly : p.Only name) (hlength : 20 ≤ name.length) :
    p.stat (procursusPath p.bmhash (CStr.snprintf 20 name)) = .error enoent := by
  apply stat_of_not_mem
  intro hlisted
  have hname : isJbName name = true := by
    have hmem : name ∈ p.entries.filter isJbName := by
      rw [honly]
      exact List.mem_singleton_self name
    exact (List.mem_filter.mp hmem).2
  have hjb : isJbName (CStr.snprintf 20 name) = true := by
    have hprefix := List.isPrefixOf_iff_prefix.mp hname
    have hshort : "jb-".toList.length ≤ (CStr.snprintf 20 name).length := by
      have htake : (CStr.snprintf 20 name).length = 19 := List.length_take_of_le (by omega)
      rw [htake]
      decide
    exact List.isPrefixOf_iff_prefix.mpr
      (List.prefix_of_prefix_length_le hprefix (List.take_prefix 19 name) hshort)
  have hmem : CStr.snprintf 20 name ∈ p.entries.filter isJbName :=
    List.mem_filter.mpr ⟨hlisted, hjb⟩
  rw [honly, List.mem_singleton] at hmem
  have hsame := congrArg List.length hmem
  rw [CStr.snprintf, List.length_take] at hsame
  omega

/-- What is returned when `names` are the entries that begin with `jb-`. -/
def ofNames (bmhash : BmHash) (procursus : CStr → Except Errno ℕ) : List CStr → Except Errno CStr
  | [] => .error enoent
  | [name] =>
    if name.length < 20 then
      match procursus name with
      | .error _ => .error enxio
      | .ok mode => if sIsdir mode then .ok (procursusPath bmhash name) else .error enotdir
    else .error enxio
  | _ :: _ :: _ => .error eexist

theorem getPrebootPath_eq_ofNames (p : Preboot) :
    p.getPrebootPath = ofNames p.bmhash p.procursus (p.entries.filter isJbName) := by
  rw [getPrebootPath_eq]
  cases hentries : p.entries.filter isJbName with
  | nil => rfl
  | cons name others =>
    cases others with
    | cons other others => rfl
    | nil =>
      have honly : p.Only name := hentries
      rw [ofNames]
      dsimp only
      by_cases hfits : name.length < 20
      · rw [if_pos hfits, stat_of_fits honly hfits, CStr.snprintf_of_lt hfits]
      · rw [if_neg hfits, stat_of_truncated honly (Nat.not_lt.mp hfits)]

theorem ofNames_perm {names names' : List CStr} (h : names.Perm names') (bmhash : BmHash)
    (procursus : CStr → Except Errno ℕ) :
    ofNames bmhash procursus names = ofNames bmhash procursus names' := by
  match names, names' with
  | [], [] => rfl
  | [name], [other] =>
    rw [List.singleton_perm_singleton.mp h]
  | _ :: _ :: _, _ :: _ :: _ => rfl
  | [], _ :: _ | _ :: _, [] | [_], _ :: _ :: _ | _ :: _ :: _, [_] =>
    have hlength := h.length_eq
    simp at hlength

/-- Which path is found. -/
theorem getPrebootPath_eq_ok_iff {path : CStr} : p.getPrebootPath = .ok path ↔
    ∃ name, p.Only name ∧ p.HasProcursus name ∧ name.length < 20 ∧
      path = procursusPath p.bmhash name := by
  rw [getPrebootPath_eq_ofNames]
  unfold Only HasProcursus
  cases p.entries.filter isJbName with
  | nil => simp [ofNames]
  | cons name others =>
    cases others with
    | cons other others => simp [ofNames]
    | nil =>
      simp only [ofNames, List.cons.injEq, and_true, exists_eq_left']
      by_cases hfits : name.length < 20
      · cases p.procursus name with
        | error e => simp [hfits]
        | ok mode =>
          cases hdir : sIsdir mode with
          | false => simp [hfits, hdir]
          | true => simpa [hfits, hdir] using Eq.comm
      · simp [hfits]

/-- **The jailbreak directory** is found as it should be exactly when its name is not cut. -/
theorem getPrebootPath_getsPath_iff (p : Preboot) : p.GetsPath ↔ ¬p.Truncated := by
  constructor
  · rintro h ⟨name, honly, hprocursus, hlength⟩
    obtain ⟨path, hpath⟩ := h.succeeds.mpr ⟨name, honly, hprocursus⟩
    obtain ⟨other, hother, -, hfits, -⟩ := getPrebootPath_eq_ok_iff.mp hpath
    obtain rfl : other = name := by
      have hsame := hother.symm.trans honly
      exact (List.cons.inj hsame).1
    omega
  · intro h
    constructor
    case succeeds =>
      constructor
      · rintro ⟨path, hpath⟩
        obtain ⟨name, honly, hprocursus, -, -⟩ := getPrebootPath_eq_ok_iff.mp hpath
        exact ⟨name, honly, hprocursus⟩
      · rintro ⟨name, honly, hprocursus⟩
        have hfits : name.length < 20 :=
          Nat.lt_of_not_le fun hlength => h ⟨name, honly, hprocursus, hlength⟩
        exact ⟨_, getPrebootPath_eq_ok_iff.mpr ⟨name, honly, hprocursus, hfits, rfl⟩⟩
    case path =>
      intro path hpath
      obtain ⟨name, honly, -, -, heq⟩ := getPrebootPath_eq_ok_iff.mp hpath
      exact ⟨name, honly, heq⟩
    case order =>
      intro entries hperm
      rw [getPrebootPath_eq_ofNames, getPrebootPath_eq_ofNames]
      exact ofNames_perm (hperm.filter isJbName) p.bmhash p.procursus

def longName : CStr := "jb-0123456789abcdefg".toList

def longListing : Preboot where
  major := 22
  supported := by decide
  bmhash := plainHash
  entries := [dot, dotdot, longName]
  procursus name := if name = longName then .ok 0o40755 else .error enoent

/-- The name of the only jailbreak directory has 20 characters, and `stat` is asked of another. -/
theorem not_getPrebootPath_getsPath_long :
    longListing.Only longName ∧ longListing.HasProcursus longName ∧
      longListing.getPrebootPath = .error enxio ∧ ¬longListing.GetsPath := by
  have honly : longListing.Only longName := by
    unfold Only
    decide
  have hprocursus : longListing.HasProcursus longName := ⟨0o40755, rfl, by decide⟩
  have hresult : longListing.getPrebootPath = .error enxio := by
    rw [getPrebootPath_eq_ofNames, honly]
    rfl
  refine ⟨honly, hprocursus, hresult, fun h => ?_⟩
  obtain ⟨path, hpath⟩ := h.succeeds.mpr ⟨_, honly, hprocursus⟩
  rw [hresult] at hpath
  cases hpath

end Preboot

end Jbinit.Palera1nd

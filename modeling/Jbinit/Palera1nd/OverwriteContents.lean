import Jbinit.Palera1nd.OverwriteAllowlist

/-!
# What `overwrite_file` leaves in the file

The file is truncated when it is opened, before anything is written, and a write of fewer bytes is
answered as a success. `overwriteFile_allOrNothing_iff` says for which outcomes of the write, and
for which paths, the request is all or nothing nevertheless.
-/

namespace Jbinit.Palera1nd

open Foundations Calls FileTree

/-! ## Contents -/

/-- The contents of the regular files, and the file that each descriptor writes to. -/
structure Files where
  content : Location → Option (List UInt8)
  target : ℤ → Option Location

/-- What a call does to the files. Descriptors are at the end of their files. -/
def Files.step (tree : Tree) (s : Files) : Event Answer → Files
  | ⟨.openWrite path _, .ok fd⟩ =>
    match tree.opened path with
    | some l =>
      { content := Function.update s.content l (some [])
        target := Function.update s.target fd (some l) }
    | none => s
  | ⟨.write fd data, .ok n⟩ =>
    match s.target fd with
    | some l =>
      { s with content := Function.update s.content l ((s.content l).map (· ++ data.take n)) }
    | none => s
  | _ => s

/-- The contents after a run. -/
def contentAfter (tree : Tree) (content : Location → Option (List UInt8))
    (t : List (Event Answer)) : Location → Option (List UInt8) :=
  (t.foldl (Files.step tree) ⟨content, fun _ => none⟩).content

/-! ## The property -/

def carriesError (reply : Dict) : Bool :=
  (reply.getValue "error").isSome || (reply.getValue "errorDescription").isSome

def saysSuccess (reply : Dict) : Bool := reply.getString "message" == some "Success".toList

/-- The parent directory of a path is there. -/
def ParentExists (tree : Tree) (path : CStr) : Prop :=
  ∃ d, tree.resolve (text (Delimited.components '/' path).dropLast) = .found d ∧
    tree.node d = some .directory

structure AllOrNothing (tree : Tree) (before after : Location → Option (List UInt8))
    (request reply : Dict) : Prop where
  nothing : carriesError reply = true → after = before
  all : saysSuccess reply = true → ∀ path, request.getString "path" = some path →
    ParentExists tree path → ∀ data, request.getData "data" = some data →
      ∃ l, tree.opened path = some l ∧ after l = some data

/-- A write that fails finds the file empty, and another is complete; the path does not lead through
a link to where the parent directory is missing. -/
def WritesWell (tree : Tree) (before : Location → Option (List UInt8)) (path : CStr) :
    Event Answer → Prop
  | ⟨.write _ _, .error _⟩ => before (tree.resolve path).location = some []
  | ⟨.write _ data, .ok n⟩ =>
    ParentExists tree path → data.length ≤ n ∧ (tree.opened path).isSome = true
  | _ => True

/-! ## The runs -/

/-- A file is opened, or written to. -/
def touches : Event Answer → Bool
  | ⟨.openWrite _ _, .ok _⟩ => true
  | ⟨.write _ _, _⟩ => true
  | _ => false

/-- What a run of a request does to the files. -/
inductive Overwrites (tree : Tree) (request : Dict) (t : List (Event Answer)) (reply : Dict) : Prop
  | refused (hquiet : ∀ e ∈ t, touches e = false) (herror : carriesError reply = true)
      (hsuccess : saysSuccess reply = false)
  | opened {path : CStr} {data : List UInt8} {mode : BitVec 64} {fd : ℤ} {r : Except Errno ℕ}
      {t₁ t₂ : List (Event Answer)} (hpath : request.getString "path" = some path)
      (hdata : request.getData "data" = some data)
      (hopened : tree.opened (realpathText tree path) = some (tree.resolve path).location)
      (ht : t = t₁ ++
        ⟨.openWrite (realpathText tree path) mode, .ok fd⟩ :: ⟨.write fd data, r⟩ :: t₂)
      (hquiet₁ : ∀ e ∈ t₁, touches e = false) (hquiet₂ : ∀ e ∈ t₂, touches e = false)
      (herror : carriesError reply = !r.isOk) (hsuccess : saysSuccess reply = r.isOk)

section

variable {tree : Tree} {request reply : Dict} {path : CStr} {t : List (Event Answer)}

theorem carriesError_setError (code : ℤ) : carriesError (setError reply code) = true := by
  simp [carriesError, setError]

theorem untouched_isAllowlisted {allowlist : List String} {found allowed : Bool}
    (hrun : Run (isAllowlisted path allowlist found).run t (.ok allowed)) :
    ∀ e ∈ t, touches e = false := by
  induction allowlist generalizing found t with
  | nil =>
    obtain ⟨rfl, -⟩ := run_pure_ok hrun
    simp
  | cons entry rest ih =>
    obtain ⟨absolute, t, rfl, hrest⟩ := run_perform_bind hrun
    exact List.forall_mem_cons.mpr ⟨rfl, ih hrest⟩

/-- An error reply of the checks. -/
structure Refuses (reply : Dict) : Prop where
  error : carriesError reply = true
  success : saysSuccess reply = false

theorem refuses_set (description : CStr) (code : ℤ) :
    Refuses (setError (setDescription [] description) code) where
  error := carriesError_setError code
  success := rfl

theorem checkDestination_run {error : Option Dict}
    (hrun : Run (checkDestination path []).run t (.ok error)) :
    (∀ e ∈ t, touches e = false) ∧ ∀ reply, error = some reply → Refuses reply := by
  obtain ⟨r, t, rfl, hrest⟩ := run_perform_bind hrun
  cases r with
  | error e =>
    dsimp only at hrest
    split at hrest
    all_goals
      obtain ⟨rfl, rfl⟩ := run_pure_ok hrest
      refine ⟨by simp [touches], fun reply hreply => ?_⟩
    · cases hreply
    · obtain rfl := Option.some.inj hreply
      exact refuses_set _ _
  | ok mode =>
    dsimp only at hrest
    split at hrest
    · obtain ⟨rfl, rfl⟩ := run_pure_ok hrest
      exact ⟨by simp [touches], by simp⟩
    · obtain ⟨code, t, rfl, hcode⟩ := run_perform_bind hrest
      have hend : Run (pure (some (setError (setDescription []
          "destination file exists and is not a regular file".toList) code)) :
          Handling (Option Dict)).run t (.ok error) := hcode
      obtain ⟨rfl, rfl⟩ := run_pure_ok hend
      refine ⟨by simp [touches], fun reply hreply => ?_⟩
      obtain rfl := Option.some.inj hreply
      exact refuses_set _ _

/-- The write, after the checks. -/
theorem writeDestination_run {mode : BitVec 64} {data : List UInt8}
    (hrun : Run (writeDestination path mode data []).run t (.ok reply)) :
    (∀ e ∈ t, touches e = false) ∧ Refuses reply ∨
      ∃ fd r t₂, t = ⟨.openWrite path mode, .ok fd⟩ :: ⟨.write fd data, r⟩ :: t₂ ∧
        (∀ e ∈ t₂, touches e = false) ∧ carriesError reply = !r.isOk ∧ saysSuccess reply = r.isOk := by
  obtain ⟨r, t, rfl, hrest⟩ := run_perform_bind hrun
  cases r with
  | error e =>
    obtain ⟨rfl, rfl⟩ := run_pure_ok hrest
    exact .inl ⟨by simp [touches], refuses_set _ _⟩
  | ok fd =>
    obtain ⟨r, t, rfl, hwrite⟩ := run_perform_bind hrest
    refine .inr ⟨fd, r, t, rfl, ?_⟩
    cases r with
    | error e =>
      obtain ⟨rfl, rfl⟩ := run_pure_ok hwrite
      exact ⟨by simp, carriesError_setError _, rfl⟩
    | ok didWrite =>
      obtain ⟨t₁, u, t₂, rfl, hclose, hend⟩ := run_bind_ok hwrite
      obtain ⟨rfl, rfl⟩ := run_pure_ok hend
      obtain ⟨r, t, rfl, hdone⟩ := run_perform_bind hclose
      obtain ⟨rfl, -⟩ := run_pure_ok hdone
      exact ⟨by simp [touches], rfl, rfl⟩

/-- **The runs**: a request is refused before its file is opened, or opens it and writes once. -/
theorem overwriteFile_run (hrun : Run (overwriteFile request []).run t (.ok reply))
    (hanswers : ∀ e ∈ t, answersOf tree e = true) : Overwrites tree request t reply := by
  unfold overwriteFile at hrun
  dsimp only at hrun
  split at hrun
  case h_1 =>
    obtain ⟨rfl, rfl⟩ := run_pure_ok hrun
    exact .refused (by simp) (carriesError_setError _) rfl
  case h_2 path hpath =>
    split at hrun
    case isTrue =>
      obtain ⟨rfl, rfl⟩ := run_pure_ok hrun
      exact .refused (by simp) (carriesError_setError _) rfl
    case isFalse habsolute =>
    obtain ⟨buffer, t, rfl, hrest⟩ := run_perform_bind hrun
    obtain ⟨hbuffer, htail⟩ := List.forall_mem_cons.mp hanswers
    obtain rfl := allowed_realpath _ _ hbuffer
    obtain ⟨t₁, allowed, t₂, rfl, hallow, hrest₂⟩ := run_bind_ok hrest
    have hquiet : ∀ e ∈ ⟨.realpath path, realpathText tree path⟩ :: t₁, touches e = false :=
      List.forall_mem_cons.mpr ⟨rfl, untouched_isAllowlisted hallow⟩
    split at hrest₂
    case isTrue =>
      obtain ⟨rfl, rfl⟩ := run_pure_ok hrest₂
      exact .refused (by rwa [List.append_nil]) (carriesError_setError _) rfl
    case isFalse =>
    split at hrest₂
    case h_1 =>
      obtain ⟨rfl, rfl⟩ := run_pure_ok hrest₂
      exact .refused (by rwa [List.append_nil]) (carriesError_setError _) rfl
    case h_2 data hdata =>
    obtain ⟨t₂, error, t₃, rfl, hcheck, hrest₃⟩ := run_bind_ok hrest₂
    obtain ⟨hquiet₂, hrefuses⟩ := checkDestination_run hcheck
    have hquiet' : ∀ e ∈ ⟨.realpath path, realpathText tree path⟩ :: t₁ ++ t₂, touches e = false :=
      fun e he => (List.mem_append.mp he).elim (hquiet e) (hquiet₂ e)
    have hassoc (u : List (Event Answer)) : ⟨.realpath path, realpathText tree path⟩ ::
        (t₁ ++ (t₂ ++ u)) = ⟨.realpath path, realpathText tree path⟩ :: t₁ ++ t₂ ++ u := by simp
    rw [hassoc]
    cases error with
    | some refusal =>
      obtain ⟨rfl, rfl⟩ := run_pure_ok hrest₃
      have hrefusal := hrefuses reply rfl
      exact .refused (by rwa [List.append_nil]) hrefusal.error hrefusal.success
    | none =>
    rcases writeDestination_run hrest₃ with ⟨hquiet₃, hrefusal⟩ | ⟨fd, r, t₄, rfl, hquiet₄, hreply⟩
    · refine .refused (fun e he => ?_) hrefusal.error hrefusal.success
      exact (List.mem_append.mp he).elim (hquiet' e) (hquiet₃ e)
    · have hallowed : ∀ e ∈ t₂, Allowed tree e := fun e he => htail e (by simp [he])
      obtain ⟨opened, hsteps, -⟩ := steps_opening hallowed []
      have hdestination := (checkDestination_allowed path [] (fun _ => True)
        (E := fun _ _ => False) [] trivial t₂ opened _ hcheck hsteps).1 rfl
      have hsome : (tree.opened (realpathText tree path)).isSome = true :=
        htail _ (List.mem_append_right _ (List.mem_append_right _ List.mem_cons_self))
      have hopenable : Openable tree request path :=
        ⟨hpath, not_not.mp habsolute, by rw [hdata]; rfl, hdestination.imp_right fun hnone =>
          ⟨hnone, parent_of_opened hsome hnone⟩⟩
      exact .opened hpath hdata (opened_realpathText hopenable) rfl hquiet' hquiet₄ hreply.1
        hreply.2

/-! ## The contents after a run -/

variable {content : Location → Option (List UInt8)}

theorem step_of_quiet {s : Files} {e : Event Answer} (h : touches e = false) :
    s.step tree e = s := by
  unfold Files.step
  split
  · cases h
  · cases h
  · rfl

theorem foldl_of_quiet (h : ∀ e ∈ t, touches e = false) (s : Files) :
    t.foldl (Files.step tree) s = s := by
  induction t generalizing s with
  | nil => rfl
  | cons e t ih =>
    obtain ⟨he, ht⟩ := List.forall_mem_cons.mp h
    rw [List.foldl_cons, step_of_quiet he, ih ht]

/-- The file that is opened has what was written, and nothing when the write has failed. -/
theorem contentAfter_opened {p : CStr} {mode : BitVec 64} {fd : ℤ} {data : List UInt8}
    {l : Location} {t₁ t₂ : List (Event Answer)} (hopened : tree.opened p = some l)
    (h₁ : ∀ e ∈ t₁, touches e = false) (h₂ : ∀ e ∈ t₂, touches e = false) (r : Except Errno ℕ) :
    contentAfter tree content
        (t₁ ++ ⟨.openWrite p mode, .ok fd⟩ :: ⟨.write fd data, r⟩ :: t₂) =
      Function.update content l (some (match r with | .error _ => [] | .ok n => data.take n)) := by
  unfold contentAfter
  rw [List.foldl_append, foldl_of_quiet h₁, List.foldl_cons, List.foldl_cons, foldl_of_quiet h₂]
  have hopen : (Files.mk content fun _ => none).step tree ⟨.openWrite p mode, .ok fd⟩ =
      ⟨Function.update content l (some []), Function.update (fun _ => none) fd (some l)⟩ := by
    simp only [Files.step, hopened]
  rw [hopen]
  cases r with
  | error e => rfl
  | ok n => simp [Files.step]

theorem location_of_opened {l : Location} (h : tree.opened path = some l) :
    l = (tree.resolve path).location := by
  unfold Tree.opened at h
  split at h
  case h_1 hr =>
    split at h
    · cases h
    · rw [hr, ← Option.some.inj h]
      rfl
  case h_2 hr =>
    split at h
    · rw [hr, ← Option.some.inj h]
      rfl
    · cases h
  case h_3 => cases h

theorem writesWell_of_quiet {e : Event Answer} (h : touches e = false) :
    WritesWell tree content path e := by
  unfold WritesWell
  split
  · cases h
  · cases h
  · trivial

/-- Of the calls of a run, only the write matters. -/
theorem forall_writesWell_iff {p : CStr} {mode : BitVec 64} {fd : ℤ} {data : List UInt8}
    {r : Except Errno ℕ} {t₁ t₂ : List (Event Answer)} (h₁ : ∀ e ∈ t₁, touches e = false)
    (h₂ : ∀ e ∈ t₂, touches e = false) :
    (∀ e ∈ t₁ ++ ⟨.openWrite p mode, .ok fd⟩ :: ⟨.write fd data, r⟩ :: t₂,
      WritesWell tree content path e) ↔ WritesWell tree content path ⟨.write fd data, r⟩ := by
  constructor
  · exact fun h => h _ (by simp)
  · intro h e he
    simp only [List.mem_append, List.mem_cons] at he
    rcases he with he | rfl | rfl | he
    · exact writesWell_of_quiet (h₁ e he)
    · trivial
    · exact h
    · exact writesWell_of_quiet (h₂ e he)

theorem allOrNothing_of_error {l : Location} (herror : carriesError reply = true)
    (hsuccess : saysSuccess reply = false) :
    AllOrNothing tree content (Function.update content l (some [])) request reply ↔
      content l = some [] := by
  constructor
  · intro h
    have hsame := congrFun (h.nothing herror) l
    rw [Function.update_self] at hsame
    exact hsame.symm
  · intro hempty
    refine ⟨fun _ => Function.update_eq_self_iff.mpr hempty.symm, fun hsays => ?_⟩
    rw [hsuccess] at hsays
    cases hsays

theorem allOrNothing_of_success {data : List UInt8} {n : ℕ}
    (hpath : request.getString "path" = some path) (hdata : request.getData "data" = some data)
    (herror : carriesError reply = false) (hsuccess : saysSuccess reply = true) :
    AllOrNothing tree content
        (Function.update content (tree.resolve path).location (some (data.take n))) request reply ↔
      (ParentExists tree path → data.length ≤ n ∧ (tree.opened path).isSome = true) := by
  constructor
  · intro h hparent
    obtain ⟨l, hl, hcontent⟩ := h.all hsuccess path hpath hparent data hdata
    obtain rfl := location_of_opened hl
    rw [Function.update_self, Option.some.injEq, List.take_eq_self_iff] at hcontent
    exact ⟨hcontent, by rw [hl]; rfl⟩
  · intro h
    refine ⟨fun herror' => ?_, fun _ path' hpath' hparent data' hdata' => ?_⟩
    · rw [herror] at herror'
      cases herror'
    · obtain rfl := Option.some.inj (hpath.symm.trans hpath')
      obtain rfl := Option.some.inj (hdata.symm.trans hdata')
      obtain ⟨hcomplete, hsome⟩ := h hparent
      obtain ⟨l, hl⟩ := Option.isSome_iff_exists.mp hsome
      refine ⟨l, hl, ?_⟩
      rw [location_of_opened hl, Function.update_self]
      exact congrArg some (List.take_of_length_le hcomplete)

/-- **All or nothing**: a failed write has to find the file empty, and with a parent directory that
is there a write has to be complete and at the requested path. -/
theorem overwriteFile_allOrNothing_iff (content : Location → Option (List UInt8))
    (hrun : Run (overwriteFile request []).run t (.ok reply))
    (hanswers : ∀ e ∈ t, answersOf tree e = true) :
    AllOrNothing tree content (contentAfter tree content t) request reply ↔
      ∀ path, request.getString "path" = some path → ∀ e ∈ t, WritesWell tree content path e := by
  cases overwriteFile_run hrun hanswers with
  | refused hquiet herror hsuccess =>
    have hafter : contentAfter tree content t = content := by
      rw [contentAfter, foldl_of_quiet hquiet]
    refine ⟨fun _ path _ e he => writesWell_of_quiet (hquiet e he), fun _ =>
      ⟨fun _ => hafter, fun h => ?_⟩⟩
    rw [hsuccess] at h
    cases h
  | @opened path data mode fd r t₁ t₂ hpath hdata hopened ht hquiet₁ hquiet₂ herror hsuccess =>
    subst ht
    have hwrites : (∀ path', request.getString "path" = some path' → ∀ e ∈ t₁ ++
        ⟨.openWrite (realpathText tree path) mode, .ok fd⟩ :: ⟨.write fd data, r⟩ :: t₂,
          WritesWell tree content path' e) ↔ WritesWell tree content path ⟨.write fd data, r⟩ := by
      simp only [hpath, Option.some.injEq, forall_eq', forall_writesWell_iff hquiet₁ hquiet₂]
    rw [hwrites, contentAfter_opened hopened hquiet₁ hquiet₂ r]
    cases r with
    | error e => exact allOrNothing_of_error herror hsuccess
    | ok n => exact allOrNothing_of_success hpath hdata herror hsuccess

end

/-! ## A disk that is full -/

def aList : Location := ["etc".toList, "apt".toList, "sources.list.d".toList, "a.list".toList]

def listTree : Tree := .ofEntries
  [(["etc".toList], .directory), (["etc".toList, "apt".toList], .directory),
    (["etc".toList, "apt".toList, "sources.list.d".toList], .directory), (aList, .file)]
  (by decide +kernel) (by decide +kernel)

def listContent (l : Location) : Option (List UInt8) := if l = aList then some [7] else none

def listRequest : Dict :=
  (Dict.set [] "path" (.string (text aList))).set "data" (.data [1, 2])

/-- Every call does what it can, except for the write. -/
def listAnswers (written : Except Errno ℕ) : ∀ c, Answer c
  | .write _ _ => written
  | c => answering listTree c

theorem answersOf_listAnswers (written : Except Errno ℕ) {e : Event Answer}
    (he : e ∈ (drive (listAnswers written) (overwriteFile listRequest []).run).1) :
    answersOf listTree e = true := by
  have hanswer := mem_drive he
  obtain ⟨c, r⟩ := e
  obtain rfl : r = listAnswers written c := hanswer
  cases c with
  | write fd data => rfl
  | _ => exact answersOf_answering listTree _

theorem overwriteFile_allOrNothing_iff_list : ∃ t reply,
    Run (overwriteFile listRequest []).run t (.ok reply) ∧ (∀ e ∈ t, answersOf listTree e = true) ∧
      (AllOrNothing listTree listContent (contentAfter listTree listContent t) listRequest reply ↔
        ∀ path, listRequest.getString "path" = some path →
          ∀ e ∈ t, WritesWell listTree listContent path e) := by
  have hrun := run_drive (listAnswers (.ok 2)) (overwriteFile listRequest []).run
  have hreply : (drive (listAnswers (.ok 2)) (overwriteFile listRequest []).run).2 =
      .ok (((Dict.set [] "message" (.string "Success".toList)).set "bytes-written" (.int64 2))) := by
    decide +kernel
  rw [hreply] at hrun
  have hanswers := fun e => answersOf_listAnswers (.ok 2) (e := e)
  exact ⟨_, _, hrun, hanswers, overwriteFile_allOrNothing_iff listContent hrun hanswers⟩

/-- `ENOSPC`. -/
def enospc : Errno := 28

/-- The write fails, and what was in the file is gone. -/
theorem not_allOrNothing_full : ∃ t reply, Run (overwriteFile listRequest []).run t (.ok reply) ∧
    (∀ e ∈ t, answersOf listTree e = true) ∧
      ¬AllOrNothing listTree listContent (contentAfter listTree listContent t) listRequest reply := by
  have hrun := run_drive (listAnswers (.error enospc)) (overwriteFile listRequest []).run
  have hreply : (drive (listAnswers (.error enospc)) (overwriteFile listRequest []).run).2 =
      .ok (setError (setDescription [] "Failed to write destination file".toList) enospc) := by
    decide +kernel
  have hempty : contentAfter listTree listContent
      (drive (listAnswers (.error enospc)) (overwriteFile listRequest []).run).1 aList = some [] := by
    decide +kernel
  rw [hreply] at hrun
  refine ⟨_, _, hrun, fun e => answersOf_listAnswers _, fun h => ?_⟩
  have hsame := congrFun (h.nothing (carriesError_setError _)) aList
  rw [hempty] at hsame
  exact absurd hsame (by decide)

end Jbinit.Palera1nd

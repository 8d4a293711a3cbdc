import Jbinit.Palera1nd.BootstrapRemovals

/-!
# Whether a failed bootstrap can be tried again

The initial check of `bootstrap()` rejects a request when preboot holds a directory whose name
begins with `jb-`. A failed run leaves none if its exit removes the one that it has made, which the
exits before the end of the extraction and the one for a missing `pw` do not
(`bootstrap_retryable_iff`).
-/

namespace Jbinit.Palera1nd

open Foundations Calls

/-- What the initial check sees of a file system, on a kernel that is not too old. -/
def Fs.shows (fs : Fs) : Ev → Prop
  | ⟨.uname, r⟩ => ∃ major, r = .ok major ∧ 20 ≤ major
  | ⟨.readDirectory path, .ok names⟩ =>
    ∀ name ∈ names, isJbName name = true → path ++ '/' :: name ∈ fs.jbDirs
  | _ => True

/-- Nothing of the failed run is left, and the initial check passes again. -/
structure Retryable (flags : Flags) (fs : Fs) : Prop where
  noDirectory : fs.jbDirs = []
  noLink : fs.madeLink = none
  noPrebootPath : ∀ t r, Run (jailbreakGetPrebootPath (ε := Failure)).run t r →
    (∀ e ∈ t, fs.shows e) → r = .ok (.error enoent)
  passes : ∀ t r, Run (checkNotBootstrapped flags).run t r → (∀ e ∈ t, fs.shows e) → r = .ok ()

theorem findJbName_eq_enoent {names : List CStr} (h : ∀ name ∈ names, isJbName name = false) :
    findJbName names none = .error enoent := by
  induction names with
  | nil => rfl
  | cons name names ih =>
    have hname := h name List.mem_cons_self
    simp only [findJbName, hname, Bool.false_eq_true, if_false]
    exact ih fun n hn => h n (List.mem_cons_of_mem _ hn)

/-- The world that shows a file system. -/
def showing (fs : Fs) (s : Unit) (e : Ev) (s' : Unit) : Prop := s' = s ∧ fs.shows e

theorem steps_showing {fs : Fs} {t : List Ev} (h : ∀ e ∈ t, fs.shows e) :
    Steps (showing fs) () t () := by
  induction t with
  | nil => rfl
  | cons e t ih =>
    exact ⟨(), ⟨rfl, h e List.mem_cons_self⟩, ih fun e he => h e (List.mem_cons_of_mem _ he)⟩

/-- What an answer says of the file system, as a fact. -/
theorem sys_showing {fs : Fs} (c : Call) {E : Failure → Unit → Prop} :
    Triple (showing fs) (fun _ => True) (sys c) (fun r _ => fs.shows ⟨c, r⟩ ∧ True) E :=
  Triple.perform fun _ _ _ _ hstep => ⟨hstep.2, trivial⟩

theorem jailbreakGetPrebootPath_spec (fs : Fs) (h : fs.jbDirs = []) {E : Failure → Unit → Prop} :
    Triple (showing fs) (fun _ => True) jailbreakGetPrebootPath
      (fun r _ => r = .error enoent) E := by
  unfold jailbreakGetPrebootPath
  refine Triple.bind (sys_showing _) fun r => Triple.of_and ?_
  rintro ⟨major, rfl, hmajor⟩
  have hnew : ¬major < 20 := by omega
  simp only [hnew, if_false]
  refine Triple.bind (sys_showing _) fun hash => Triple.of_and fun _ => ?_
  refine Triple.bind (sys_showing _) fun r => Triple.of_and fun hnames => ?_
  cases r with
  | error _ => exact Triple.pure fun _ _ => rfl
  | ok names =>
    have hnone : ∀ name ∈ names, isJbName name = false := by
      intro name hmem
      by_contra hname
      have hdir := hnames name hmem (by simpa using hname)
      simp [h] at hdir
    simp only [findJbName_eq_enoent hnone]
    exact Triple.pure fun _ _ => rfl

theorem checkNotBootstrapped_spec {flags : Flags} (fs : Fs)
    (hrootful : flags.has palerainOptionRootful = false) (h : fs.jbDirs = []) :
    Triple (showing fs) (fun _ => True) (checkNotBootstrapped flags) (fun _ _ => True)
      (fun _ _ => False) := by
  unfold checkNotBootstrapped
  rw [hrootful]
  refine Triple.bind (M := fun r _ => r = .error enoent ∧ True)
    ((jailbreakGetPrebootPath_spec fs h).weaken (fun _ h => h) (fun _ _ h => ⟨h, trivial⟩)
      fun _ _ h => h) fun r => Triple.of_and ?_
  rintro rfl
  exact Triple.pure fun _ _ => trivial

/-- An empty preboot passes the check. -/
theorem retryable_iff {flags : Flags} (hrootful : flags.has palerainOptionRootful = false)
    (fs : Fs) : Retryable flags fs ↔ fs = ⟨[], none⟩ := by
  refine ⟨fun h => ?_, ?_⟩
  · rw [← h.noDirectory, ← h.noLink]
  · rintro rfl
    refine ⟨rfl, rfl, fun t r hrun ht => ?_, fun t r hrun ht => ?_⟩
    · have hend := jailbreakGetPrebootPath_spec ⟨[], none⟩ rfl (E := fun _ _ => False) () trivial
        t () r hrun (steps_showing ht)
      cases r with
      | ok r => exact congrArg _ hend
      | error e => exact hend.elim
    · have hend := checkNotBootstrapped_spec ⟨[], none⟩ hrootful rfl () trivial t () r hrun
        (steps_showing ht)
      cases r with
      | ok r => rfl
      | error e => exact hend.elim

/-! ## The end of a failed run -/

theorem Exited.ended_of_made {flags : Flags} {g : Ledger} {directory : CStr} (hexit : Exited flags g)
    (hmade : directory ∈ g.made) :
    ∃ tarPath, flags.has palerainOptionRootful = false ∧ Ended flags tarPath g := by
  rcases hexit with hfresh | ⟨tarPath, -, hended⟩
  · rw [hfresh.made] at hmade
    simp at hmade
  · have hown : g.made = ownDirectories flags tarPath := by
      rcases hended with hremoved | hleft
      · exact hremoved.made
      · exact hleft.made
    rw [hown] at hmade
    unfold ownDirectories at hmade
    split at hmade
    case isTrue => simp at hmade
    case isFalse hrootful =>
      exact ⟨tarPath, by simpa using hrootful, hended⟩

/-- The file system is as before exactly after the exits that remove. -/
theorem Ended.fs_eq_iff {flags : Flags} {tarPath : CStr} {g : Ledger}
    (hrootful : flags.has palerainOptionRootful = false) (hended : Ended flags tarPath g)
    (hstuck : g.stuck = false) :
    g.fs = ⟨[], none⟩ ↔ g.waited = true ∧ g.pwFailed = false := by
  rcases hended with hremoved | hleft
  · simp [hremoved.fs hstuck, hremoved.waited, hremoved.pwFailed]
  · have hdirs : g.fs.jbDirs = [tarPath] := by
      rw [hleft.dirs]
      exact if_neg (by simp [hrootful])
    have hne : g.fs ≠ ⟨[], none⟩ := by
      intro heq
      simp [heq] at hdirs
    rcases hleft.cause with hwaited | ⟨-, hpw⟩
    · simp [hne, hwaited]
    · simp [hne, hpw]

/-- **When a failed bootstrap can be tried again**: exactly when `tar` has been waited for and the
failure is not that `pw` cannot be executed. -/
theorem bootstrap_retryable_iff {flags : Flags} {request : BootstrapRequest} {t : List Ev}
    {failure : Failure} (hrun : Run (bootstrap flags request).run t (.error failure))
    {directory : CStr} (hmade : ∃ e ∈ t, madeDirectory e = some directory)
    (hremovals : RemovalsSucceed ⟨[], none⟩ t) :
    Retryable flags (Fs.after ⟨[], none⟩ t) ↔
      t.any tarWaited = true ∧ t.any (pwMissing flags) = false := by
  have hstuck : (Ledger.start.after flags t).stuck = false :=
    (after_stuck flags Ledger.start t).mpr ⟨rfl, hremovals⟩
  obtain ⟨tarPath, hrootful, hended⟩ := (exited_after hrun).ended_of_made
    ((after_made flags Ledger.start t directory).mpr (.inr hmade))
  have hfs := hended.fs_eq_iff hrootful hstuck
  rw [after_fs, after_waited, after_pwFailed] at hfs
  exact (retryable_iff hrootful _).trans hfs

/-! ## A directory that is left behind -/

/-- The directory that the runs below make. -/
def plainDirectory : CStr := "/private/preboot/0123/jb-abcdefgh".toList

/-- The run in which every call is answered by `answer` fails, after it has made the directory. -/
theorem run_drive_error (answer : ∀ c, Answer c) (flags : Flags)
    (h : (drive answer (bootstrap flags plainRequest).run).2.isOk = false) :
    ∃ failure, Run (bootstrap flags plainRequest).run
      (drive answer (bootstrap flags plainRequest).run).1 (.error failure) := by
  have hrun := run_drive answer (bootstrap flags plainRequest).run
  cases hr : (drive answer (bootstrap flags plainRequest).run).2 with
  | ok reply => simp [hr, Except.isOk, Except.toBool] at h
  | error failure => exact ⟨failure, hr ▸ hrun⟩

theorem madeDirectory_drive (answer : ∀ c, Answer c) (flags : Flags)
    (h : (Ledger.start.after flags (drive answer (bootstrap flags plainRequest).run).1).made =
      [plainDirectory]) :
    ∃ e ∈ (drive answer (bootstrap flags plainRequest).run).1,
      madeDirectory e = some plainDirectory := by
  rcases (after_made flags Ledger.start _ plainDirectory).mp (h ▸ List.mem_cons_self)
    with hstart | hmade
  · exact absurd hstart List.not_mem_nil
  · exact hmade

theorem removalsSucceed_drive (answer : ∀ c, Answer c) (flags : Flags)
    (h : (Ledger.start.after flags (drive answer (bootstrap flags plainRequest).run).1).stuck =
      false) :
    RemovalsSucceed ⟨[], none⟩ (drive answer (bootstrap flags plainRequest).run).1 :=
  ((after_stuck flags Ledger.start _).mp h).2

theorem bootstrap_retryable_extraction :
    Retryable palerainOptionRootless
      (Fs.after ⟨[], none⟩ (extraction palerainOptionRootless 256).1) := by
  obtain ⟨failure, hrun⟩ := run_drive_error (extracting 256) palerainOptionRootless
    (by decide +kernel)
  refine (bootstrap_retryable_iff hrun
    (madeDirectory_drive _ palerainOptionRootless (by decide +kernel))
    (removalsSucceed_drive _ palerainOptionRootless (by decide +kernel))).mpr ?_
  decide +kernel

/-- Every step succeeds, but the directory that has been made cannot be `chmod`ed. -/
def chmodFails : ∀ c, Answer c
  | .chmod _ => .error eperm
  | c => extracting 0 c

/-- A directory that cannot be `chmod`ed is left behind, and all that is asked to be removed is. -/
theorem bootstrap_leaves_directory :
    ∃ t failure, Run (bootstrap palerainOptionRootless plainRequest).run t (.error failure) ∧
      (∃ e ∈ t, madeDirectory e = some plainDirectory) ∧ RemovalsSucceed ⟨[], none⟩ t ∧
      (Fs.after ⟨[], none⟩ t).jbDirs = [plainDirectory] ∧
      ¬Retryable palerainOptionRootless (Fs.after ⟨[], none⟩ t) := by
  obtain ⟨failure, hrun⟩ := run_drive_error chmodFails palerainOptionRootless (by decide +kernel)
  have hdirs : (Fs.after ⟨[], none⟩ (drive chmodFails
      (bootstrap palerainOptionRootless plainRequest).run).1).jbDirs = [plainDirectory] := by
    decide +kernel
  refine ⟨_, failure, hrun, madeDirectory_drive _ palerainOptionRootless (by decide +kernel),
    removalsSucceed_drive _ palerainOptionRootless (by decide +kernel), hdirs, fun h => ?_⟩
  rw [h.noDirectory] at hdirs
  exact absurd hdirs (by simp)

end Jbinit.Palera1nd

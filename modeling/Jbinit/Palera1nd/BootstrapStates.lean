import Jbinit.Palera1nd.BootstrapTrace

/-!
# The states of a run of `bootstrap()`

Most steps leave the ledger of a run alone (`silent`). The others lead through the states `Going`,
from the directory that has just been made to the installed bootstrap, and end an unsuccessful run
in one of three ways: before the directory is made (`Fresh`), with everything removed (`Removed`),
or with the directory left behind (`Left`). `removeTpath_spec` and `rmStrap_spec` say what the two
cleanup macros do.
-/

namespace Jbinit.Palera1nd

open Foundations Calls

/-- The world that keeps the ledger. -/
def keep (flags : Flags) (g : Ledger) (e : Ev) (g' : Ledger) : Prop := g' = g.next flags e

section

variable {flags : Flags} {α β : Type}

/-! ## Steps that leave the ledger alone -/

/-- The calls that no reading of the trace looks at. -/
def silent (flags : Flags) : Call → Bool
  | .access path mode => mode == .fOk && path != underJb flags "/Library/LaunchDaemons".toList
  | .pipe which => [.stream, .tarStderr, .zstdStderr].contains which
  | .spawn child _ => [.tar, .zstd].contains child
  | .pthreadCreate thread _ => [.zstdLog, .tarLog].contains thread
  | .mkdtemp _ | .unlink _ | .rmdir _ | .removefile _ | .waitpid _ | .rename _ _ | .symlink _ _
  | .copyfile _ _ | .openCreate _ => false
  | _ => true

/-- An event that none of the readings looks at. -/
theorem next_eq_self {g : Ledger} {e : Ev} (hmade : madeDirectory e = none)
    (hremoval : removalTarget e.1 = none) (hwaited : tarWaited e = false)
    (hlate : lateFailure flags e = false) (hpw : pwMissing flags e = false)
    (hfs : g.fs.next e = g.fs) (hstuck : g.fs.stuck e = false) : g.next flags e = g := by
  simp [Ledger.next, foreignRemoval, hmade, hremoval, hwaited, hlate, hpw, hfs, hstuck]

theorem next_silent {c : Call} (h : silent flags c = true) (g : Ledger) (r : Answer c) :
    g.next flags ⟨c, r⟩ = g := by
  cases c with
  | access path mode =>
    obtain ⟨hmode, hpath⟩ : mode = .fOk ∧ path ≠ underJb flags "/Library/LaunchDaemons".toList := by
      simpa [silent] using h
    subst hmode
    cases r with
    | ok _ => exact next_eq_self rfl rfl rfl rfl rfl rfl rfl
    | error _ =>
      refine next_eq_self rfl rfl rfl ?_ rfl rfl rfl
      show (path == underJb flags "/Library/LaunchDaemons".toList) = false
      exact beq_eq_false_iff_ne.mpr hpath
  | pipe which =>
    cases which <;> first
      | exact absurd h Bool.false_ne_true
      | cases r <;> exact next_eq_self rfl rfl rfl rfl rfl rfl rfl
  | spawn child argv =>
    cases child <;> first
      | exact absurd h Bool.false_ne_true
      | cases r <;> exact next_eq_self rfl rfl rfl rfl rfl rfl rfl
  | pthreadCreate thread fd =>
    cases thread <;> first
      | exact absurd h Bool.false_ne_true
      | cases r <;> exact next_eq_self rfl rfl rfl rfl rfl rfl rfl
  | mkdtemp | unlink | rmdir | removefile | waitpid | rename | symlink | copyfile | openCreate =>
    exact absurd h Bool.false_ne_true
  | _ => exact next_eq_self rfl rfl rfl rfl rfl rfl rfl

/-- A procedure that leaves the ledger alone. -/
abbrev Silent (flags : Flags) {ε α : Type} (x : Proc Answer ε α) : Prop := Unseen (keep flags) x

theorem quiet_sys {ε : Type} {c : Call} (h : silent flags c = true) :
    Quiet (keep flags) (sys c : Proc Answer ε (Answer c)) :=
  .perform fun g r _ hstep => hstep.trans (next_silent h g r)

theorem silent_sys {ε : Type} {c : Call} (h : silent flags c = true) :
    Silent flags (sys c : Proc Answer ε (Answer c)) :=
  (quiet_sys h).unseen

theorem quiet_run {c : Call} (h : silent flags c = true) : Quiet (keep flags) (run c) :=
  .bind (quiet_sys h) fun _ => .pure ()

theorem silent_assure (cond : Bool) (code : ErrorCode) (description : CStr) :
    Silent flags (assure cond code description) :=
  .ite (.pure ()) (.throw _)

theorem silent_assureCleanup {cleanup : Daemon Unit} (h : Quiet (keep flags) cleanup)
    (cond : Bool) (code : ErrorCode) (description : CStr) :
    Silent flags (assureCleanup cond cleanup code description) :=
  .ite (.pure ()) (.bind h.unseen fun _ => .throw _)

theorem quiet_closePair (fds : ℤ × ℤ) : Quiet (keep flags) (closePair fds) :=
  .bind (quiet_run rfl) fun _ => quiet_run rfl

theorem quiet_tsdeClose (stream : ℤ × ℤ) (tarStderr : ℤ) :
    Quiet (keep flags) (tsdeClose stream tarStderr) :=
  .bind (quiet_run rfl) fun _ => quiet_run rfl

theorem quiet_closeTarPipes (fds : TarPipes) : Quiet (keep flags) (closeTarPipes fds) :=
  .bind (quiet_closePair _) fun _ => .bind (quiet_tsdeClose _ _) fun _ => quiet_closePair _

theorem quiet_killTarZstd : Quiet (keep flags) killTarZstd :=
  .bind (quiet_run rfl) fun _ => quiet_run rfl

theorem quiet_joinTarZstd (fds : TarPipes) : Quiet (keep flags) (joinTarZstd fds) :=
  .bind (quiet_run rfl) fun _ => .bind (quiet_run rfl) fun _ => .bind (quiet_run rfl) fun _ =>
    .bind (quiet_run rfl) fun _ => .bind (quiet_run rfl) fun _ => quiet_run rfl

theorem silent_openTarPipes : Silent flags openTarPipes := by
  unfold openTarPipes
  refine .bind (silent_sys rfl) fun r => ?_
  cases r with
  | error _ => exact .throw _
  | ok stream =>
    refine .bind (silent_sys rfl) fun r => ?_
    cases r with
    | error _ => exact .bind (quiet_closePair _).unseen fun _ => .throw _
    | ok tarStderr =>
      refine .bind (silent_sys rfl) fun r => ?_
      cases r with
      | error _ =>
        exact .bind (quiet_closePair _).unseen fun _ => .bind (quiet_tsdeClose _ _).unseen
          fun _ => .throw _
      | ok zstdStderr => exact .pure _

theorem silent_spawnTarZstd (fds : TarPipes) (tarPath path : CStr) :
    Silent flags (spawnTarZstd fds tarPath path) := by
  unfold spawnTarZstd
  refine .bind (silent_sys rfl) fun ret => ?_
  refine .bind (silent_assureCleanup (quiet_closeTarPipes fds) _ _ _) fun _ => ?_
  refine .bind (silent_sys rfl) fun ret => ?_
  refine .bind (silent_assureCleanup
    (.bind (quiet_closeTarPipes fds) fun _ => quiet_run rfl) _ _ _) fun _ => ?_
  exact (Quiet.bind (quiet_closePair _) fun _ => .bind (quiet_run rfl) fun _ =>
    quiet_run rfl).unseen

/-! ### Before the directory is made -/

theorem silent_pathExists {ε : Type} {path : String}
    (h : path.toList ≠ underJb flags "/Library/LaunchDaemons".toList) :
    Silent flags (pathExists path : Proc Answer ε Bool) :=
  .bind (silent_sys (by simpa [silent] using h)) fun _ => .pure _

theorem silent_allExist {ε : Type} {paths : List String}
    (h : ∀ path ∈ paths, path.toList ≠ underJb flags "/Library/LaunchDaemons".toList) :
    Silent flags (allExist paths : Proc Answer ε Bool) := by
  induction paths with
  | nil => exact .pure _
  | cons path paths ih =>
    exact .bind (silent_pathExists (h path List.mem_cons_self)) fun _ =>
      .ite (ih fun p hp => h p (List.mem_cons_of_mem _ hp)) (.pure _)

theorem silent_anyExists {ε : Type} {paths : List String}
    (h : ∀ path ∈ paths, path.toList ≠ underJb flags "/Library/LaunchDaemons".toList) :
    Silent flags (anyExists paths : Proc Answer ε Bool) := by
  induction paths with
  | nil => exact .pure _
  | cons path paths ih =>
    exact .bind (silent_pathExists (h path List.mem_cons_self)) fun _ =>
      .ite (.pure _) (ih fun p hp => h p (List.mem_cons_of_mem _ hp))

theorem silent_jailbreakGetPrebootPath {ε : Type} :
    Silent flags (jailbreakGetPrebootPath : Proc Answer ε (Except Errno CStr)) :=
  (quiet_jailbreakGetPrebootPath (quiet_sys rfl) (quiet_sys rfl) (fun _ => quiet_sys rfl)
    fun _ => quiet_sys rfl).unseen

theorem silent_checkNotBootstrapped : Silent flags (checkNotBootstrapped flags) := by
  unfold checkNotBootstrapped
  refine .ite ?_ ?_
  · refine .bind (silent_sys (c := .access "/.procursus_strapped".toList .fOk) ?_) fun _ =>
      .bind (silent_assure _ _ _) fun _ => .bind (silent_sys rfl) fun r => ?_
    · have hpath : "/.procursus_strapped".toList ≠
          underJb flags "/Library/LaunchDaemons".toList := by
        unfold underJb varJb
        split <;> decide
      simpa [silent] using hpath
    · cases r with
      | error _ => exact .throw _
      | ok _ => exact silent_assure _ _ _
  · refine .bind silent_jailbreakGetPrebootPath fun r => ?_
    cases r with
    | ok _ => exact .throw _
    | error _ => exact silent_assure _ _ _

theorem silent_checkRequest (request : BootstrapRequest) :
    Silent flags (checkRequest request) := by
  unfold checkRequest
  cases request.path with
  | none => exact .throw _
  | some path =>
    exact .bind (silent_assure _ _ _) fun _ => .bind (silent_assure _ _ _) fun _ =>
      .bind (silent_sys rfl) fun _ => .bind (silent_assure _ _ _) fun _ => .pure _

theorem silent_remount : Silent flags (remount flags) :=
  .ite (.bind (silent_sys rfl) fun _ => silent_assure _ _ _)
    (.bind (silent_sys rfl) fun _ => silent_assure _ _ _)

theorem silent_renameSnapshot : Silent flags renameSnapshot := by
  unfold renameSnapshot
  refine .bind (silent_sys rfl) fun hash => .bind (silent_assure _ _ _) fun _ => ?_
  exact .bind (silent_sys rfl) fun dirfd => .bind (silent_sys rfl) fun ret =>
    .bind (silent_assure _ _ _) fun _ => (quiet_run rfl).unseen

theorem silent_prepareVolume : Silent flags (prepareVolume flags) := by
  unfold prepareVolume
  exact .bind (silent_sys rfl) fun _ => .bind (silent_assure _ _ _) fun _ =>
    .bind silent_remount fun _ => .ite silent_renameSnapshot (.pure _)

/-! ## The states of a run -/

/-- The directories that a run with this `tarPath` has made. -/
def ownDirectories (flags : Flags) (tarPath : CStr) : List CStr :=
  if flags.has palerainOptionRootful then [] else [tarPath]

/-- What `makeTarPath` returns. -/
structure IsTarPath (flags : Flags) (tarPath : CStr) : Prop where
  rootful : flags.has palerainOptionRootful = true → tarPath = ['/']
  ne_varJb : tarPath ≠ varJb
  length_le : tarPath.length ≤ 125

inductive Stage
  | making
  | extracted
  | linked
  deriving DecidableEq

/-- Nothing has happened yet that has to be undone. -/
structure Fresh (g : Ledger) : Prop where
  made : g.made = []
  fs : g.fs = ⟨[], none⟩
  foreign : g.foreign = false
  waited : g.waited = false
  failed : g.failed = false
  pwFailed : g.pwFailed = false

/-- The directory is there, and a failure has happened or not. -/
structure Going (flags : Flags) (tarPath : CStr) (stage : Stage) (failed : Bool) (g : Ledger) :
    Prop where
  made : g.made = ownDirectories flags tarPath
  dirs : g.fs.jbDirs = ownDirectories flags tarPath
  link : stage ≠ .linked → g.fs.madeLink = none
  foreign : g.foreign = false
  waited : g.waited = (stage != .making)
  failed : g.failed = failed
  pwFailed : g.pwFailed = false

/-- A late failure has been cleaned up after, with `/` removed if that was `tarPath`. -/
structure Removed (flags : Flags) (tarPath : CStr) (g : Ledger) : Prop where
  made : g.made = ownDirectories flags tarPath
  foreign : g.foreign = flags.has palerainOptionRootful
  waited : g.waited = true
  failed : g.failed = true
  pwFailed : g.pwFailed = false
  fs : g.stuck = false → g.fs = ⟨[], none⟩

/-- The directory is left behind: `tar` has not been waited for, or `pw` is missing. -/
structure Left (flags : Flags) (tarPath : CStr) (g : Ledger) : Prop where
  made : g.made = ownDirectories flags tarPath
  dirs : g.fs.jbDirs = ownDirectories flags tarPath
  foreign : g.foreign = false
  cause : g.waited = false ∨ g.failed = false ∧ g.pwFailed = true

/-- The states at an error exit after the directory has been made. -/
def Ended (flags : Flags) (tarPath : CStr) (g : Ledger) : Prop :=
  Removed flags tarPath g ∨ Left flags tarPath g

/-! ## Removals -/

/-- What the removal of a path can do. -/
structure RemovalStep (path : CStr) (g g' : Ledger) : Prop where
  made : g'.made = g.made
  dirs : g'.fs.jbDirs = g.fs.jbDirs ∨ g'.fs.jbDirs = g.fs.jbDirs.filter (· != path)
  link : g'.fs.madeLink = g.fs.madeLink ∨ path = varJb ∧ g'.fs.madeLink = none
  foreign : g'.foreign = (g.foreign || !ownPath g.made path)
  waited : g'.waited = g.waited
  failed : g'.failed = g.failed
  pwFailed : g'.pwFailed = g.pwFailed

theorem RemovalStep.of_unlink (flags : Flags) (g : Ledger) (path : CStr) (r : Except Errno Unit) :
    RemovalStep path g (g.next flags ⟨.unlink path, r⟩) where
  made := rfl
  dirs := by
    cases r with
    | ok _ => exact .inr rfl
    | error _ => exact .inl rfl
  link := by
    cases r with
    | ok _ =>
      show (if path == varJb then none else _) = _ ∨ _ ∧ (if path == varJb then none else _) = _
      by_cases h : path = varJb <;> simp [h]
    | error _ => exact .inl rfl
  foreign := rfl
  waited := Bool.or_false _
  failed := Bool.or_false _
  pwFailed := Bool.or_false _

theorem RemovalStep.of_rmdir (flags : Flags) (g : Ledger) (path : CStr) (r : Except Errno Unit) :
    RemovalStep path g (g.next flags ⟨.rmdir path, r⟩) where
  made := rfl
  dirs := by
    cases r with
    | ok _ => exact .inr rfl
    | error _ => exact .inl rfl
  link := by cases r <;> exact .inl rfl
  foreign := rfl
  waited := Bool.or_false _
  failed := Bool.or_false _
  pwFailed := Bool.or_false _

/-- `removefile` of a path leaves the same files as `unlink`. -/
theorem fs_next_removefile (flags : Flags) (g : Ledger) (path : CStr) (r : Except Errno Unit) :
    (g.next flags ⟨.removefile path, r⟩).fs = (g.next flags ⟨.unlink path, r⟩).fs := by
  cases r <;> rfl

theorem RemovalStep.of_removefile (flags : Flags) (g : Ledger) (path : CStr)
    (r : Except Errno Unit) : RemovalStep path g (g.next flags ⟨.removefile path, r⟩) where
  made := rfl
  dirs := by
    rw [fs_next_removefile]
    exact (RemovalStep.of_unlink flags g path r).dirs
  link := by
    rw [fs_next_removefile]
    exact (RemovalStep.of_unlink flags g path r).link
  foreign := rfl
  waited := Bool.or_false _
  failed := Bool.or_false _
  pwFailed := Bool.or_false _

theorem stuck_of_next {g : Ledger} {e : Ev} (h : (g.next flags e).stuck = false) :
    g.stuck = false := by
  simp only [Ledger.next, Bool.or_eq_false_iff] at h
  exact h.1

theorem stuck_eq_false {g : Ledger} {e : Ev} (h : (g.next flags e).stuck = false) :
    g.fs.stuck e = false := by
  simp only [Ledger.next, Bool.or_eq_false_iff] at h
  exact h.2

theorem removefile_clears {g : Ledger} {path : CStr} {r : Except Errno Unit}
    (h : (g.next flags ⟨.removefile path, r⟩).stuck = false) :
    path ∉ (g.next flags ⟨.removefile path, r⟩).fs.jbDirs := by
  have hstuck := stuck_eq_false h
  cases r with
  | ok _ =>
    show path ∉ g.fs.jbDirs.filter (· != path)
    simp
  | error _ =>
    show path ∉ g.fs.jbDirs
    exact fun hmem => Bool.false_ne_true (hstuck.symm.trans (List.contains_iff_mem.mpr hmem))

theorem unlink_clears {g : Ledger} {r : Except Errno Unit}
    (h : (g.next flags ⟨.unlink varJb, r⟩).stuck = false) :
    (g.next flags ⟨.unlink varJb, r⟩).fs.madeLink = none := by
  have hstuck := stuck_eq_false h
  cases r with
  | ok _ => rfl
  | error _ =>
    change (varJb == varJb && g.fs.madeLink.isSome) = false at hstuck
    show g.fs.madeLink = none
    simpa using hstuck

theorem ownPath_varJb (made : List CStr) : ownPath made varJb = true := by
  simp [ownPath]

variable {tarPath : CStr} {stage : Stage} {failed : Bool}

/-- Removing a path of one's own that is not the directory itself. -/
theorem Going.removal {g g' : Ledger} {path : CStr} (h : Going flags tarPath stage failed g)
    (hstep : RemovalStep path g g') (hown : ownPath g.made path = true) (hne : path ≠ tarPath) :
    Going flags tarPath stage failed g' where
  made := hstep.made.trans h.made
  dirs := by
    rcases hstep.dirs with hdirs | hdirs
    · rw [hdirs, h.dirs]
    · rw [hdirs, h.dirs, List.filter_eq_self]
      intro directory hmem
      unfold ownDirectories at hmem
      split at hmem
      · simp at hmem
      · simp [List.mem_singleton.mp hmem, hne.symm]
  link := fun hstage => by
    rcases hstep.link with hlink | hlink
    · rw [hlink, h.link hstage]
    · exact hlink.2
  foreign := by rw [hstep.foreign, h.foreign, hown]; rfl
  waited := hstep.waited.trans h.waited
  failed := hstep.failed.trans h.failed
  pwFailed := hstep.pwFailed.trans h.pwFailed

/-- The directory that is removed is one's own unless it is `/`. -/
theorem ownPath_tarPath (htar : IsTarPath flags tarPath) :
    ownPath (ownDirectories flags tarPath) tarPath = !flags.has palerainOptionRootful := by
  unfold ownDirectories
  cases h : flags.has palerainOptionRootful with
  | true =>
    rw [htar.rootful h]
    decide
  | false => simp [ownPath, within]

/-- Between the removals of `REMOVE_TPATH`. -/
structure Removing (flags : Flags) (tarPath : CStr) (stage : Stage) (foreign : Bool)
    (g : Ledger) : Prop where
  made : g.made = ownDirectories flags tarPath
  dirs : ∀ directory ∈ g.fs.jbDirs, directory = tarPath
  link : stage ≠ .linked → g.fs.madeLink = none
  foreign : g.foreign = foreign
  waited : g.waited = true
  failed : g.failed = true
  pwFailed : g.pwFailed = false

theorem Going.removing {g : Ledger} (h : Going flags tarPath stage true g)
    (hstage : stage ≠ .making) : Removing flags tarPath stage false g where
  made := h.made
  dirs := by
    intro directory hmem
    rw [h.dirs] at hmem
    unfold ownDirectories at hmem
    split at hmem
    · simp at hmem
    · exact List.mem_singleton.mp hmem
  link := h.link
  foreign := h.foreign
  waited := h.waited.trans (by simpa using hstage)
  failed := h.failed
  pwFailed := h.pwFailed

theorem Removing.removal {g g' : Ledger} {path : CStr} {foreign : Bool}
    (h : Removing flags tarPath stage foreign g) (hstep : RemovalStep path g g') :
    Removing flags tarPath stage (foreign || !ownPath (ownDirectories flags tarPath) path) g' where
  made := hstep.made.trans h.made
  dirs := by
    intro directory hmem
    rcases hstep.dirs with hdirs | hdirs
    · exact h.dirs directory (hdirs ▸ hmem)
    · exact h.dirs directory (List.mem_of_mem_filter (hdirs ▸ hmem))
  link := fun hstage => by
    rcases hstep.link with hlink | hlink
    · rw [hlink, h.link hstage]
    · exact hlink.2
  foreign := by rw [hstep.foreign, h.foreign, h.made]
  waited := hstep.waited.trans h.waited
  failed := hstep.failed.trans h.failed
  pwFailed := hstep.pwFailed.trans h.pwFailed

/-- A call whose outcome is not looked at. -/
theorem Triple.run {c : Call} {P Q : Ledger → Prop} {E : Failure → Ledger → Prop}
    (h : ∀ g r, P g → Q (g.next flags ⟨c, r⟩)) :
    Triple (keep flags) P (run c) (fun _ => Q) E :=
  Triple.bind (M := fun _ => Q) (Triple.perform fun g r _ hg hstep => hstep ▸ h g r hg)
    fun _ => Triple.pure fun _ hg => hg

/-- After `REMOVE_TPATH`. -/
structure TreeRemoved (flags : Flags) (tarPath : CStr) (stage : Stage) (g : Ledger) : Prop extends
    Removing flags tarPath stage (flags.has palerainOptionRootful) g where
  gone : g.stuck = false → g.fs.jbDirs = []

theorem removeTpath_spec (htar : IsTarPath flags tarPath) (hstage : stage ≠ .making)
    {E : Failure → Ledger → Prop} :
    Triple (keep flags) (Going flags tarPath stage true) (removeTpath tarPath)
      (fun _ => TreeRemoved flags tarPath stage) E := by
  have hforeign : ∀ foreign g g', Removing flags tarPath stage foreign g →
      RemovalStep tarPath g g' →
      Removing flags tarPath stage (foreign || flags.has palerainOptionRootful) g' := by
    intro foreign g g' h hstep
    simpa [ownPath_tarPath htar] using h.removal hstep
  unfold removeTpath
  refine Triple.bind (Triple.run fun g r h =>
    hforeign _ _ _ (h.removing hstage) (.of_unlink flags g _ r)) fun _ => ?_
  refine Triple.bind (Triple.run fun g r h => hforeign _ _ _ h (.of_rmdir flags g _ r)) fun _ => ?_
  refine Triple.run fun g r h => ?_
  have hnext := hforeign _ _ _ h (.of_removefile flags g _ r)
  refine ⟨by simpa using hnext, fun hstuck => ?_⟩
  exact List.eq_nil_iff_forall_not_mem.mpr fun directory hmem =>
    removefile_clears hstuck (hnext.dirs directory hmem ▸ hmem)

theorem TreeRemoved.removed {g : Ledger} (h : TreeRemoved flags tarPath stage g)
    (hstage : stage ≠ .linked) : Removed flags tarPath g where
  made := h.made
  foreign := h.foreign
  waited := h.waited
  failed := h.failed
  pwFailed := h.pwFailed
  fs := fun hstuck => by
    rw [← h.gone hstuck, ← h.link hstage]

theorem rmStrap_spec (htar : IsTarPath flags tarPath) (hstage : stage ≠ .making)
    {E : Failure → Ledger → Prop} :
    Triple (keep flags) (Going flags tarPath stage true) (rmStrap tarPath)
      (fun _ => Removed flags tarPath) E := by
  unfold rmStrap
  refine Triple.bind (removeTpath_spec htar hstage) fun _ => Triple.run fun g r h => ?_
  have hstep := RemovalStep.of_unlink flags g varJb r
  have hnext := h.removal hstep
  refine ⟨hnext.made, by simpa [ownPath_varJb] using hnext.foreign, hnext.waited, hnext.failed,
    hnext.pwFailed, fun hstuck => ?_⟩
  have hgone := h.gone (stuck_of_next hstuck)
  have hdirs : (g.next flags ⟨.unlink varJb, r⟩).fs.jbDirs = [] := by
    rcases hstep.dirs with hdirs | hdirs <;> simp [hdirs, hgone]
  rw [← hdirs, ← unlink_clears hstuck]

end

end Jbinit.Palera1nd

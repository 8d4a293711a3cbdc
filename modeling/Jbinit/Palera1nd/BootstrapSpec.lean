import Jbinit.Palera1nd.BootstrapStates

/-!
# What the steps of `bootstrap()` do to the ledger

One specification for each phase of the source, from `makeTarPath_spec` to `loadDaemons_spec`. They
are put together in `bootstrap_spec`.
-/

namespace Jbinit.Palera1nd

open Foundations Calls

section

variable {flags : Flags} {α : Type} {tarPath : CStr} {stage : Stage} {failed : Bool}

/-! ## Making the directory -/

theorem isTarPath_fillTemplate (hrootful : flags.has palerainOptionRootful = false)
    (bmhash : BmHash) (suffix : Suffix) :
    IsTarPath flags (fillTemplate (CStr.snprintf 150
      ("/private/preboot/".toList ++ bmhash.chars ++ "/jb-XXXXXXXX".toList)) suffix) := by
  have hhash := bmhash.fits
  have hsuffix := suffix.eight
  have htemplate : ("/private/preboot/".toList ++ bmhash.chars ++ "/jb-XXXXXXXX".toList).length =
      bmhash.chars.length + 29 := by
    simp only [List.length_append]
    show 17 + _ + 12 = _
    omega
  rw [CStr.snprintf_of_lt (by omega)]
  have hlength : (fillTemplate ("/private/preboot/".toList ++ bmhash.chars ++
      "/jb-XXXXXXXX".toList) suffix).length = bmhash.chars.length + 29 := by
    unfold fillTemplate
    rw [List.length_append, List.length_take, htemplate]
    omega
  refine ⟨by simp [hrootful], fun heq => ?_, by omega⟩
  have hvarJb : varJb.length = 7 := by decide
  rw [heq] at hlength
  omega

theorem going_of_fresh_rootful (hrootful : flags.has palerainOptionRootful = true) {g : Ledger}
    (h : Fresh g) : IsTarPath flags ['/'] ∧ Going flags ['/'] .making false g := by
  have hown : ownDirectories flags ['/'] = [] := if_pos hrootful
  refine ⟨⟨fun _ => rfl, by decide, by decide⟩, ?_⟩
  exact ⟨by rw [h.made, hown], by rw [h.fs, hown], fun _ => by rw [h.fs], h.foreign, h.waited,
    h.failed, h.pwFailed⟩

theorem going_of_mkdtemp (hrootful : flags.has palerainOptionRootful = false) {g : Ledger}
    {template : CStr} {suffix : Suffix} (h : Fresh g) :
    Going flags (fillTemplate template suffix) .making false
      (g.next flags ⟨.mkdtemp template, .ok suffix⟩) := by
  constructor <;>
    simp [Ledger.next, Fs.next, madeDirectory, foreignRemoval, removalTarget, tarWaited,
      lateFailure, pwMissing, ownDirectories, hrootful, h.made, h.fs, h.foreign, h.waited,
      h.failed, h.pwFailed]

/-- A removal of `/var/jb` that is looked at for its outcome only. -/
theorem removeVarJb_spec {c : Call} (hc : c = .unlink varJb ∨ c = .removefile varJb)
    (htar : IsTarPath flags tarPath) {E : Failure → Ledger → Prop} :
    Triple (keep flags) (Going flags tarPath stage failed) (sys c)
      (fun _ => Going flags tarPath stage failed) E := by
  refine Triple.perform fun g r g' hg hstep => ?_
  obtain rfl : g' = g.next flags ⟨c, r⟩ := hstep
  have hown := ownPath_varJb g.made
  rcases hc with rfl | rfl
  · exact hg.removal (.of_unlink flags g varJb r) hown htar.ne_varJb.symm
  · exact hg.removal (.of_removefile flags g varJb r) hown htar.ne_varJb.symm

theorem removeBogusVarJb_spec (htar : IsTarPath flags tarPath) :
    Triple (keep flags) (Going flags tarPath stage failed) removeBogusVarJb
      (fun _ => Going flags tarPath stage failed)
      (fun _ : Failure => Going flags tarPath stage failed) := by
  unfold removeBogusVarJb
  refine Triple.bind ((quiet_sys rfl).triple _) fun r => ?_
  cases r with
  | error _ => exact (Unseen.pure _).triple _
  | ok mode =>
    dsimp only
    split
    · refine Triple.bind ((quiet_sys rfl).triple _) fun r => ?_
      cases r with
      | error _ => exact (Unseen.pure _).triple _
      | ok link =>
        dsimp only
        split
        · exact Triple.bind (removeVarJb_spec (.inl rfl) htar) fun _ => (Unseen.pure _).triple _
        split
        · refine Triple.bind ((silent_allExist ?_).triple _) fun found => ?_
          · unfold underJb varJb
            split <;> decide
          split
          · exact Triple.bind (removeVarJb_spec (.inl rfl) htar) fun _ => (Unseen.pure _).triple _
          · exact (Unseen.pure _).triple _
        · exact (Unseen.pure _).triple _
    split
    · refine Triple.bind ((silent_anyExists ?_).triple _) fun found => ?_
      · unfold underJb varJb
        split <;> decide
      split
      · exact (Unseen.pure _).triple _
      refine Triple.bind ((silent_anyExists ?_).triple _) fun found => ?_
      · unfold underJb varJb
        split <;> decide
      split
      · exact Triple.bind (removeVarJb_spec (.inr rfl) htar) fun _ => (Unseen.pure _).triple _
      · exact (Unseen.pure _).triple _
    · exact (Unseen.pure _).triple _

theorem silent_checkVarJb : Silent flags checkVarJb := by
  unfold checkVarJb
  refine .bind (silent_sys rfl) fun r => ?_
  cases r with
  | error _ => exact silent_assure _ _ _
  | ok _ => exact silent_assure _ _ _

theorem clearVarJb_spec (htar : IsTarPath flags tarPath) :
    Triple (keep flags) (Going flags tarPath stage failed) clearVarJb
      (fun _ => Going flags tarPath stage failed) (fun _ => Going flags tarPath stage failed) := by
  unfold clearVarJb
  refine Triple.bind (removeBogusVarJb_spec htar) fun _ => ?_
  refine Triple.bind (silent_checkVarJb.triple _) fun _ => ?_
  exact Triple.bind (removeVarJb_spec (.inl rfl) htar) fun ret => (silent_assure _ _ _).triple _

/-- The states at an error exit. -/
def Exited (flags : Flags) (g : Ledger) : Prop :=
  Fresh g ∨ ∃ tarPath, IsTarPath flags tarPath ∧ Ended flags tarPath g

theorem Going.left {g : Ledger} (h : Going flags tarPath .making failed g) :
    Left flags tarPath g :=
  ⟨h.made, h.dirs, h.foreign, .inl h.waited⟩

theorem mkdtemp_spec (hrootful : flags.has palerainOptionRootful = false) (template : CStr)
    {E : Failure → Ledger → Prop} :
    Triple (keep flags) Fresh (sys (.mkdtemp template))
      (fun r g => (∀ suffix, r = .ok suffix →
        Going flags (fillTemplate template suffix) .making false g) ∧ ∀ e, r = .error e → Fresh g)
      E := by
  refine Triple.perform fun g r g' hg hstep => ?_
  obtain rfl : g' = g.next flags ⟨.mkdtemp template, r⟩ := hstep
  refine ⟨?_, ?_⟩
  · rintro suffix rfl
    exact going_of_mkdtemp hrootful hg
  · rintro e rfl
    rwa [next_eq_self rfl rfl rfl rfl rfl rfl rfl]

theorem makeTarPath_spec :
    Triple (keep flags) Fresh (makeTarPath flags)
      (fun tarPath g => IsTarPath flags tarPath ∧ Going flags tarPath .making false g)
      (fun _ => Exited flags) := by
  unfold makeTarPath
  split
  case isTrue hrootful => exact Triple.pure fun g hg => going_of_fresh_rootful hrootful hg
  case isFalse hrootful =>
    rw [Bool.not_eq_true] at hrootful
    refine Triple.bind ((silent_sys rfl).triple_exit fun _ _ => .inl) fun hash => ?_
    refine Triple.bind ((silent_assure _ _ _).triple_exit fun _ _ => .inl) fun _ => ?_
    refine Triple.bind (mkdtemp_spec hrootful _) fun r => ?_
    cases r with
    | error _ => exact Triple.throw fun g hg => .inl (hg.2 _ rfl)
    | ok suffix =>
      refine Triple.pre ?_ fun g hg => hg.1 suffix rfl
      have htar := isTarPath_fillTemplate hrootful hash.1 suffix
      dsimp only
      generalize fillTemplate _ suffix = tarPath at htar ⊢
      have hexit : ∀ (_ : Failure) g, Going flags tarPath .making false g → Exited flags g :=
        fun _ g hg => .inr ⟨tarPath, htar, .inr hg.left⟩
      refine Triple.bind ((quiet_sys rfl).triple _) fun ret => ?_
      refine Triple.bind ((silent_assure _ _ _).triple_exit hexit) fun _ => ?_
      refine Triple.bind ((clearVarJb_spec htar).exit hexit) fun _ => ?_
      have hlength := htar.length_le
      rw [CStr.snprintf_of_lt (by omega)]
      exact Triple.pure fun g hg => ⟨htar, hg⟩

/-! ## The extraction -/

/-- A check whose cleanup removes the directory, `rest` being what is left to check. -/
theorem assureCleanup_or_spec {cond rest : Bool} {cleanup : Daemon Unit} {code : ErrorCode}
    {description : CStr}
    (hcleanup : Triple (keep flags) (Going flags tarPath stage true) cleanup
      (fun _ => Removed flags tarPath) (fun _ => Ended flags tarPath)) :
    Triple (keep flags) (Going flags tarPath stage (!cond || rest))
      (assureCleanup cond cleanup code description)
      (fun _ => Going flags tarPath stage rest) (fun _ => Ended flags tarPath) := by
  unfold assureCleanup
  cases cond with
  | true => exact Triple.pure fun _ hg => hg
  | false => exact Triple.bind hcleanup fun _ => Triple.throw fun _ => .inl

/-- A check of the failure that the ledger holds. -/
theorem assureCleanup_spec {cond : Bool} {cleanup : Daemon Unit} {code : ErrorCode}
    {description : CStr} (hcond : failed = !cond)
    (hcleanup : Triple (keep flags) (Going flags tarPath stage true) cleanup
      (fun _ => Removed flags tarPath) (fun _ => Ended flags tarPath)) :
    Triple (keep flags) (Going flags tarPath stage failed)
      (assureCleanup cond cleanup code description)
      (fun _ => Going flags tarPath stage false) (fun _ => Ended flags tarPath) := by
  rw [hcond, ← Bool.or_false (!cond)]
  exact assureCleanup_or_spec hcleanup

theorem removeTpath_ended (htar : IsTarPath flags tarPath) :
    Triple (keep flags) (Going flags tarPath .extracted true) (removeTpath tarPath)
      (fun _ => Removed flags tarPath) (fun _ => Ended flags tarPath) :=
  (removeTpath_spec htar (by decide)).weaken (fun _ h => h) (fun _ _ h => h.removed (by decide))
    fun _ _ h => h

theorem Going.ended {g : Ledger} (h : Going flags tarPath .making failed g) :
    Ended flags tarPath g :=
  .inr h.left

/-- Before `tar` has been waited for, nothing is removed at an exit. -/
theorem Silent.making {x : Daemon α} (h : Silent flags x) (tarPath : CStr) (failed : Bool) :
    Triple (keep flags) (Going flags tarPath .making failed) x
      (fun _ => Going flags tarPath .making failed) (fun _ => Ended flags tarPath) :=
  h.triple_exit fun _ _ => Going.ended

theorem waitpid_tar_spec {E : Failure → Ledger → Prop} :
    Triple (keep flags) (Going flags tarPath .making failed) (sys (.waitpid .tar))
      (fun r g => (∀ status, r = .ok status →
        Going flags tarPath .extracted (failed || badStatus status) g) ∧
        ∀ e, r = .error e → Going flags tarPath .making failed g) E := by
  refine Triple.perform fun g r g' hg hstep => ?_
  obtain rfl : g' = g.next flags ⟨.waitpid .tar, r⟩ := hstep
  refine ⟨?_, ?_⟩
  · rintro status rfl
    constructor <;>
      simp [Ledger.next, Fs.next, madeDirectory, foreignRemoval, removalTarget, tarWaited,
        lateFailure, pwMissing, hg.made, hg.dirs, hg.link, hg.foreign, hg.failed, hg.pwFailed]
  · rintro e rfl
    rwa [next_eq_self rfl rfl rfl rfl rfl rfl rfl]

/-- The calls of which the ledger keeps nothing but a late failure. -/
def onlyLate (flags : Flags) : Call → Bool
  | .access path mode => mode != .xOk || path != pwPath flags
  | .waitpid child => child != .tar
  | .pipe _ | .spawn _ _ | .pthreadCreate _ _ | .rename _ _ | .copyfile _ _ | .openCreate _ => true
  | _ => false

theorem next_onlyLate {c : Call} (h : onlyLate flags c = true) (g : Ledger) (r : Answer c) :
    g.next flags ⟨c, r⟩ = { g with failed := g.failed || lateFailure flags ⟨c, r⟩ } := by
  cases c with
  | access path mode =>
    cases r <;> cases mode <;>
      simp_all [onlyLate, Ledger.next, madeDirectory, foreignRemoval, removalTarget, tarWaited,
        pwMissing, Fs.next, Fs.stuck]
  | waitpid child =>
    cases r <;> cases child <;>
      simp_all [onlyLate, Ledger.next, madeDirectory, foreignRemoval, removalTarget, tarWaited,
        pwMissing, Fs.next, Fs.stuck]
  | pipe | spawn | pthreadCreate | rename | copyfile | openCreate =>
    cases r <;>
      simp [Ledger.next, madeDirectory, foreignRemoval, removalTarget, tarWaited, pwMissing,
        Fs.next, Fs.stuck]
  | _ => simp [onlyLate] at h

theorem onlyLate_spec {c : Call} (h : onlyLate flags c = true) {E : Failure → Ledger → Prop} :
    Triple (keep flags) (Going flags tarPath stage failed) (sys c)
      (fun r => Going flags tarPath stage (failed || lateFailure flags ⟨c, r⟩)) E := by
  refine Triple.perform fun g r g' hg hstep => ?_
  obtain rfl : g' = g.next flags ⟨c, r⟩ := hstep
  rw [next_onlyLate h]
  exact ⟨hg.made, hg.dirs, hg.link, hg.foreign, hg.waited, by rw [hg.failed], hg.pwFailed⟩

theorem runTarZstd_spec (fds : TarPipes) :
    Triple (keep flags) (Going flags tarPath .making false) (runTarZstd fds)
      (fun status => Going flags tarPath .extracted (badStatus status.1 || badStatus status.2))
      (fun _ => Ended flags tarPath) := by
  have hkill {cond : Bool} {code : ErrorCode} {description : CStr} :=
    Silent.making (silent_assureCleanup (@quiet_killTarZstd flags) cond code description) tarPath
      false
  unfold runTarZstd
  refine Triple.bind ((quiet_sys rfl).triple _) fun ret => Triple.bind hkill fun _ => ?_
  refine Triple.bind ((quiet_sys rfl).triple _) fun ret => Triple.bind hkill fun _ => ?_
  refine Triple.bind ((quiet_sys rfl).triple _) fun ret => Triple.bind hkill fun _ => ?_
  refine Triple.bind ((quiet_sys rfl).triple _) fun ret => Triple.bind hkill fun _ => ?_
  refine Triple.bind (onlyLate_spec rfl) fun r => ?_
  cases r with
  | error _ =>
    exact Triple.bind ((quiet_joinTarZstd fds).triple _)
      fun _ => Triple.throw fun _ => Going.ended
  | ok statZstd =>
    refine Triple.bind waitpid_tar_spec fun r => ?_
    cases r with
    | error _ =>
      refine Triple.pre ?_ fun g hg => hg.2 _ rfl
      exact Triple.bind ((quiet_joinTarZstd fds).triple _)
        fun _ => Triple.throw fun _ => Going.ended
    | ok statTar =>
      refine Triple.pre ?_ fun g hg => hg.1 _ rfl
      refine Triple.bind ((quiet_joinTarZstd fds).triple _) fun _ => ?_
      exact Triple.pure fun _ hg => hg

theorem checkTarZstd_spec (htar : IsTarPath flags tarPath) (statZstd statTar : ℕ) :
    Triple (keep flags)
      (Going flags tarPath .extracted (badStatus statZstd || badStatus statTar))
      (checkTarZstd tarPath statZstd statTar)
      (fun _ => Going flags tarPath .extracted false) (fun _ => Ended flags tarPath) := by
  have hchecks : (badStatus statZstd || badStatus statTar) =
      (!!(wifexited statZstd && wexitstatus statZstd != 0) || (!!wifsignaled statZstd ||
        (!!(wifexited statTar && wexitstatus statTar != 0) || !!wifsignaled statTar))) := by
    simp [badStatus, Bool.or_assoc]
  have hclean := removeTpath_ended htar
  rw [hchecks]
  unfold checkTarZstd
  exact Triple.bind (assureCleanup_or_spec hclean) fun _ =>
    Triple.bind (assureCleanup_or_spec hclean) fun _ =>
    Triple.bind (assureCleanup_or_spec hclean) fun _ => assureCleanup_spec (by simp) hclean

theorem extract_spec (htar : IsTarPath flags tarPath) (path : CStr) :
    Triple (keep flags) (Going flags tarPath .making false) (extract tarPath path)
      (fun _ => Going flags tarPath .extracted false) (fun _ => Ended flags tarPath) := by
  unfold extract
  refine Triple.bind (Silent.making silent_openTarPipes _ _) fun fds => ?_
  refine Triple.bind (Silent.making (silent_spawnTarZstd fds tarPath path) _ _) fun _ => ?_
  exact Triple.bind (runTarZstd_spec fds) fun status => checkTarZstd_spec htar _ _

/-! ## The moves into place -/

/-- The link may be there or not. -/
theorem Going.linked {g : Ledger} (h : Going flags tarPath .extracted failed g) :
    Going flags tarPath .linked failed g :=
  ⟨h.made, h.dirs, fun hne => absurd rfl hne, h.foreign, h.waited, h.failed, h.pwFailed⟩

theorem rmStrap_ended (htar : IsTarPath flags tarPath) :
    Triple (keep flags) (Going flags tarPath .linked true) (rmStrap tarPath)
      (fun _ => Removed flags tarPath) (fun _ => Ended flags tarPath) :=
  rmStrap_spec htar (by decide)

theorem removeExtrationVar_spec (htar : IsTarPath flags tarPath) {E : Failure → Ledger → Prop} :
    Triple (keep flags) (Going flags tarPath stage failed) (removeExtrationVar tarPath)
      (fun _ => Going flags tarPath stage failed) E := by
  unfold removeExtrationVar
  split
  case isFalse => exact Triple.pure fun _ hg => hg
  case isTrue hjb =>
    have hrootful : flags.has palerainOptionRootful = false := by
      by_contra hrootful
      rw [htar.rootful (by simpa using hrootful)] at hjb
      exact absurd hjb (by decide)
    have hpath : extrationVarPath tarPath = tarPath ++ "/var".toList := by
      have hlength := htar.length_le
      exact CStr.snprintf_of_lt (by rw [List.length_append]; show _ + 4 < 150; omega)
    refine Triple.run fun g r hg => hg.removal (.of_rmdir flags g _ r) ?_ ?_
    · rw [hg.made, hpath]
      simp [ownPath, within, ownDirectories, hrootful]
    · rw [hpath]
      intro heq
      have hlength := congrArg List.length heq
      simp at hlength

theorem symlink_spec (target : CStr) {E : Failure → Ledger → Prop} :
    Triple (keep flags) (Going flags tarPath .extracted false) (sys (.symlink target varJb))
      (fun ret g => (ok ret = true → Going flags tarPath .linked false g) ∧
        (ok ret = false → Going flags tarPath .extracted true g)) E := by
  refine Triple.perform fun g r g' hg hstep => ?_
  obtain rfl : g' = g.next flags ⟨.symlink target varJb, r⟩ := hstep
  cases r with
  | ok _ =>
    refine ⟨fun _ => ?_, fun hr => (by cases hr)⟩
    constructor <;>
      simp [Ledger.next, Fs.next, madeDirectory, foreignRemoval, removalTarget, tarWaited,
        lateFailure, pwMissing, hg.made, hg.dirs, hg.foreign, hg.waited, hg.failed, hg.pwFailed]
    decide
  | error _ =>
    refine ⟨fun hr => (by cases hr), fun _ => ?_⟩
    constructor <;>
      simp [Ledger.next, Fs.next, madeDirectory, foreignRemoval, removalTarget, tarWaited,
        lateFailure, pwMissing, hg.made, hg.dirs, hg.link, hg.foreign, hg.waited, hg.pwFailed]

theorem symlinkCheck_spec (htar : IsTarPath flags tarPath) (cond : Bool) (code : ErrorCode)
    (description : CStr) :
    Triple (keep flags) (fun g => (cond = true → Going flags tarPath .linked false g) ∧
        (cond = false → Going flags tarPath .extracted true g))
      (assureCleanup cond (removeTpath tarPath) code description)
      (fun _ => Going flags tarPath .linked false) (fun _ => Ended flags tarPath) := by
  unfold assureCleanup
  cases cond with
  | true => exact Triple.pure fun _ hg => hg.1 rfl
  | false =>
    refine Triple.pre ?_ fun _ hg => hg.2 rfl
    exact Triple.bind (removeTpath_ended htar) fun _ => Triple.throw fun _ => .inl

theorem copyfileWithCheck_spec (htar : IsTarPath flags tarPath) (src dst : CStr) :
    Triple (keep flags) (Going flags tarPath .linked false) (copyfileWithCheck tarPath src dst)
      (fun _ => Going flags tarPath .linked false) (fun _ => Ended flags tarPath) := by
  unfold copyfileWithCheck
  refine Triple.bind (onlyLate_spec rfl) fun ret => ?_
  exact assureCleanup_spec (by cases ret <;> rfl) (rmStrap_ended htar)

theorem moveIntoPlace_spec (htar : IsTarPath flags tarPath) :
    Triple (keep flags) (Going flags tarPath .extracted false) (moveIntoPlace flags tarPath)
      (fun _ => Going flags tarPath .linked false) (fun _ => Ended flags tarPath) := by
  unfold moveIntoPlace
  split
  case isFalse => exact Triple.pure fun _ hg => hg.linked
  case isTrue =>
    have hclean := removeTpath_ended htar
    refine Triple.bind (onlyLate_spec rfl) fun ret => ?_
    refine Triple.bind (assureCleanup_spec (by cases ret <;> rfl) hclean) fun _ => ?_
    refine Triple.bind (onlyLate_spec rfl) fun ret => ?_
    refine Triple.bind (removeExtrationVar_spec htar) fun _ => ?_
    refine Triple.bind (assureCleanup_spec (by cases ret <;> rfl) hclean) fun _ => ?_
    refine Triple.bind (symlink_spec _) fun ret => ?_
    refine Triple.bind (symlinkCheck_spec htar _ _ _) fun _ => ?_
    refine Triple.bind (copyfileWithCheck_spec htar _ _) fun _ => ?_
    refine Triple.bind (copyfileWithCheck_spec htar _ _) fun _ => ?_
    exact copyfileWithCheck_spec htar _ _

/-! ## `prep_bootstrap.sh` -/

theorem quiet_clPstrapFd (stdErr stdOut : ℤ × ℤ) :
    Quiet (keep flags) (clPstrapFd stdErr stdOut) :=
  .bind (quiet_closePair _) fun _ => quiet_closePair _

theorem quiet_pstrapEndC (stdErr stdOut : ℤ × ℤ) :
    Quiet (keep flags) (pstrapEndC stdErr stdOut) :=
  .bind (quiet_run rfl) fun _ => .bind (quiet_run rfl) fun _ => .bind (quiet_run rfl) fun _ =>
    .bind (quiet_run rfl) fun _ => .bind (quiet_run rfl) fun _ => quiet_run rfl

/-- `RM_STRAP` after a failure, and the exit. -/
theorem rmStrap_throw (htar : IsTarPath flags tarPath) (failure : Failure)
    {Q : α → Ledger → Prop} :
    Triple (keep flags) (Going flags tarPath .linked true)
      (do rmStrap tarPath; throw failure : Daemon α) Q (fun _ => Ended flags tarPath) :=
  Triple.bind (rmStrap_ended htar) fun _ => Triple.throw fun _ => .inl

theorem openPrepPipes_spec (htar : IsTarPath flags tarPath) :
    Triple (keep flags) (Going flags tarPath .linked false) (openPrepPipes tarPath)
      (fun _ => Going flags tarPath .linked false) (fun _ => Ended flags tarPath) := by
  unfold openPrepPipes
  refine Triple.bind (onlyLate_spec rfl) fun r => ?_
  cases r with
  | error _ => exact rmStrap_throw htar _
  | ok stdErr =>
    refine Triple.bind (onlyLate_spec rfl) fun r => ?_
    cases r with
    | error _ => exact Triple.bind ((quiet_closePair _).triple _) fun _ => rmStrap_throw htar _
    | ok stdOut => exact Triple.pure fun _ hg => hg

theorem createPrepThreads_spec (htar : IsTarPath flags tarPath) (stdErr stdOut : ℤ × ℤ) :
    Triple (keep flags) (Going flags tarPath .linked false)
      (createPrepThreads tarPath stdErr stdOut)
      (fun _ => Going flags tarPath .linked false) (fun _ => Ended flags tarPath) := by
  have hclean : Triple (keep flags) (Going flags tarPath .linked true)
      (do clPstrapFd stdErr stdOut; rmStrap tarPath) (fun _ => Removed flags tarPath)
      (fun _ => Ended flags tarPath) :=
    Triple.bind ((quiet_clPstrapFd _ _).triple _) fun _ => rmStrap_ended htar
  unfold createPrepThreads
  refine Triple.bind (onlyLate_spec rfl) fun r => ?_
  refine Triple.bind (assureCleanup_spec (by cases r <;> rfl) hclean) fun _ => ?_
  refine Triple.bind (onlyLate_spec rfl) fun r => ?_
  exact assureCleanup_spec (by cases r <;> rfl) hclean

theorem runPrepBootstrap_spec (htar : IsTarPath flags tarPath) (stdErr stdOut : ℤ × ℤ) :
    Triple (keep flags) (Going flags tarPath .linked false)
      (runPrepBootstrap flags tarPath stdErr stdOut)
      (fun status => Going flags tarPath .linked (badStatus status))
      (fun _ => Ended flags tarPath) := by
  unfold runPrepBootstrap
  refine Triple.bind (onlyLate_spec rfl) fun ret => ?_
  refine Triple.bind ((quiet_run rfl).triple _) fun _ => ?_
  refine Triple.bind ((quiet_run rfl).triple _) fun _ => ?_
  refine Triple.bind (assureCleanup_spec (by cases ret <;> rfl)
    (Triple.bind ((quiet_pstrapEndC _ _).triple _) fun _ => rmStrap_ended htar)) fun _ => ?_
  refine Triple.bind (onlyLate_spec rfl) fun r => ?_
  cases r with
  | error _ => exact Triple.bind ((quiet_pstrapEndC _ _).triple _) fun _ => rmStrap_throw htar _
  | ok status =>
    exact Triple.bind ((quiet_pstrapEndC _ _).triple _) fun _ => Triple.pure fun _ hg => hg

theorem prepBootstrap_spec (htar : IsTarPath flags tarPath) :
    Triple (keep flags) (Going flags tarPath .linked false) (prepBootstrap flags tarPath)
      (fun _ => Going flags tarPath .linked false) (fun _ => Ended flags tarPath) := by
  have hclean := rmStrap_ended htar
  have hpath : onlyLate flags (.access (underJb flags "/prep_bootstrap.sh".toList) .xOk) = true := by
    have hne : underJb flags "/prep_bootstrap.sh".toList ≠ pwPath flags := by
      unfold pwPath underJb varJb
      split <;> decide
    simpa [onlyLate] using hne
  unfold prepBootstrap
  refine Triple.bind (onlyLate_spec hpath) fun ret => ?_
  refine Triple.bind (assureCleanup_spec ?_ hclean) fun _ => ?_
  · cases ret <;> simp [lateFailure, ok, Except.isOk, Except.toBool]
  refine Triple.bind (openPrepPipes_spec htar) fun fds => ?_
  refine Triple.bind (createPrepThreads_spec htar _ _) fun _ => ?_
  refine Triple.bind (runPrepBootstrap_spec htar _ _) fun status => ?_
  have hchecks : badStatus status =
      (!!(wifexited status && wexitstatus status != 0) || !!wifsignaled status) := by
    simp [badStatus]
  rw [hchecks]
  exact Triple.bind (assureCleanup_or_spec hclean) fun _ => assureCleanup_spec (by simp) hclean

/-! ## `pw` -/

theorem quiet_clPwOutfd (stdin fds : ℤ × ℤ) : Quiet (keep flags) (clPwOutfd stdin fds) :=
  .bind (quiet_run rfl) fun _ => quiet_run rfl

theorem quiet_clPwfds (fds : PwPipes) : Quiet (keep flags) (clPwfds fds) :=
  .bind (quiet_closePair _) fun _ => .bind (quiet_clPwOutfd _ _) fun _ => quiet_clPwOutfd _ _

theorem quiet_pwClean (fds : PwPipes) : Quiet (keep flags) (pwClean fds) :=
  .bind (quiet_run rfl) fun _ => .bind (quiet_run rfl) fun _ => .bind (quiet_run rfl) fun _ =>
    .bind (quiet_run rfl) fun _ => .bind (quiet_run rfl) fun _ => quiet_run rfl

theorem openPwPipes_spec (htar : IsTarPath flags tarPath) :
    Triple (keep flags) (Going flags tarPath .linked false) (openPwPipes tarPath)
      (fun _ => Going flags tarPath .linked false) (fun _ => Ended flags tarPath) := by
  have hclean := rmStrap_ended htar
  unfold openPwPipes
  refine Triple.bind (onlyLate_spec rfl) fun r => ?_
  cases r with
  | error _ => exact rmStrap_throw htar _
  | ok stdin =>
    refine Triple.bind (onlyLate_spec rfl) fun r => ?_
    cases r with
    | error _ =>
      exact Triple.bind hclean fun _ => Triple.bind ((quiet_closePair _).triple _) fun _ =>
        Triple.throw fun _ => .inl
    | ok stdout =>
      refine Triple.bind (onlyLate_spec rfl) fun r => ?_
      cases r with
      | error _ =>
        exact Triple.bind hclean fun _ => Triple.bind ((quiet_closePair _).triple _) fun _ =>
          Triple.bind ((quiet_clPwOutfd _ _).triple _) fun _ => Triple.throw fun _ => .inl
      | ok stderr => exact Triple.pure fun _ hg => hg

theorem createPwThreads_spec (htar : IsTarPath flags tarPath) (fds : PwPipes) :
    Triple (keep flags) (Going flags tarPath .linked false) (createPwThreads tarPath fds)
      (fun _ => Going flags tarPath .linked false) (fun _ => Ended flags tarPath) := by
  have hclean := rmStrap_ended htar
  unfold createPwThreads
  refine Triple.bind (onlyLate_spec rfl) fun ret => ?_
  refine Triple.bind (assureCleanup_spec (by cases ret <;> rfl)
    (Triple.bind ((quiet_clPwfds _).triple _) fun _ => hclean)) fun _ => ?_
  refine Triple.bind (onlyLate_spec rfl) fun ret => ?_
  exact assureCleanup_spec (by cases ret <;> rfl)
    (Triple.bind ((quiet_run rfl).triple _) fun _ => Triple.bind ((quiet_clPwfds _).triple _)
      fun _ => Triple.bind hclean fun _ => (quiet_run rfl).triple _)

/-- The exit when `pw` cannot be executed leaves the directory behind. -/
theorem checkPwPath_spec (fds : PwPipes) :
    Triple (keep flags) (Going flags tarPath .linked false) (checkPwPath flags fds)
      (fun _ => Going flags tarPath .linked false) (fun _ => Ended flags tarPath) := by
  have hprep : pwPath flags ≠ underJb flags "/prep_bootstrap.sh".toList := by
    unfold pwPath underJb varJb
    split <;> decide
  unfold checkPwPath
  refine Triple.bind (M := fun ret g => if ok ret then Going flags tarPath .linked false g
    else Left flags tarPath g) (Triple.perform fun g r g' hg hstep => ?_) fun ret => ?_
  · obtain rfl : g' = g.next flags ⟨.access (pwPath flags) .xOk, r⟩ := hstep
    cases r with
    | ok _ =>
      rw [next_eq_self rfl rfl rfl rfl rfl rfl rfl]
      exact hg
    | error _ =>
      refine ⟨hg.made, hg.dirs, ?_, .inr ⟨?_, ?_⟩⟩
      · simp [Ledger.next, foreignRemoval, removalTarget, hg.foreign]
      · simpa [Ledger.next, lateFailure, hg.failed] using hprep
      · simp [Ledger.next, pwMissing]
  · unfold assureCleanup
    cases ret with
    | ok _ => exact Triple.pure fun _ hg => hg
    | error _ =>
      refine Triple.bind (M := fun _ => Left flags tarPath) ?_ fun _ => Triple.throw fun _ => .inr
      exact Triple.bind ((quiet_run rfl).triple _) fun _ => Triple.bind ((quiet_run rfl).triple _)
        fun _ => Triple.bind ((quiet_clPwfds _).triple _) fun _ =>
        Triple.bind ((quiet_run rfl).triple _) fun _ => (quiet_run rfl).triple _

theorem runPw_spec (htar : IsTarPath flags tarPath) (fds : PwPipes) (input arg3 arg4 : CStr) :
    Triple (keep flags) (Going flags tarPath .linked false)
      (runPw flags tarPath fds input arg3 arg4)
      (fun status => Going flags tarPath .linked (badPwStatus status))
      (fun _ => Ended flags tarPath) := by
  unfold runPw
  refine Triple.bind (onlyLate_spec rfl) fun ret => ?_
  refine Triple.bind ((quiet_run rfl).triple _) fun _ => ?_
  refine Triple.bind ((quiet_run rfl).triple _) fun _ => ?_
  refine Triple.bind ((quiet_run rfl).triple _) fun _ => ?_
  refine Triple.bind (assureCleanup_spec (by cases ret <;> rfl)
    (Triple.bind ((quiet_run rfl).triple _) fun _ => Triple.bind ((quiet_pwClean _).triple _)
      fun _ => rmStrap_ended htar)) fun _ => ?_
  refine Triple.bind ((quiet_run rfl).triple _) fun _ => ?_
  refine Triple.bind ((quiet_run rfl).triple _) fun _ => ?_
  refine Triple.bind (onlyLate_spec rfl) fun r => ?_
  cases r with
  | error _ => exact Triple.bind ((quiet_pwClean _).triple _) fun _ => rmStrap_throw htar _
  | ok status => exact Triple.bind ((quiet_pwClean _).triple _) fun _ => Triple.pure fun _ hg => hg

theorem spawnPw_spec (htar : IsTarPath flags tarPath) (input arg3 arg4 : CStr) :
    Triple (keep flags) (Going flags tarPath .linked false)
      (spawnPw flags tarPath input arg3 arg4)
      (fun _ => Going flags tarPath .linked false) (fun _ => Ended flags tarPath) := by
  have hclean := rmStrap_ended htar
  unfold spawnPw
  refine Triple.bind (openPwPipes_spec htar) fun fds => ?_
  refine Triple.bind (createPwThreads_spec htar _) fun _ => ?_
  refine Triple.bind (checkPwPath_spec _) fun _ => ?_
  refine Triple.bind (runPw_spec htar _ _ _ _) fun status => ?_
  have hchecks : badPwStatus status =
      (!!(wifexited status && wexitstatus status != 0 && wexitstatus status != 67) ||
        !!wifsignaled status) := by
    simp [badPwStatus]
  rw [hchecks]
  exact Triple.bind (assureCleanup_or_spec hclean) fun _ => assureCleanup_spec (by simp) hclean

theorem setPasswords_spec (htar : IsTarPath flags tarPath) (request : BootstrapRequest) :
    Triple (keep flags) (Going flags tarPath .linked false) (setPasswords flags tarPath request)
      (fun _ => Going flags tarPath .linked false) (fun _ => Ended flags tarPath) := by
  unfold setPasswords
  split
  · exact Triple.bind (spawnPw_spec htar _ _ _) fun _ => spawnPw_spec htar _ _ _
  · exact Triple.bind (spawnPw_spec htar _ _ _) fun _ => spawnPw_spec htar _ _ _

/-! ## The end -/

theorem markInstalled_spec (htar : IsTarPath flags tarPath) (request : BootstrapRequest) :
    Triple (keep flags) (Going flags tarPath .linked false) (markInstalled flags tarPath request)
      (fun _ => Going flags tarPath .linked false) (fun _ => Ended flags tarPath) := by
  unfold markInstalled
  refine Triple.bind (onlyLate_spec rfl) fun r => ?_
  cases r with
  | error _ => exact rmStrap_throw htar _
  | ok fd =>
    exact (Quiet.bind (quiet_run rfl) fun _ => .bind (quiet_run rfl) fun _ =>
      .bind (quiet_run rfl) fun _ => quiet_run rfl).triple _

theorem loadDaemons_spec (htar : IsTarPath flags tarPath) :
    Triple (keep flags) (Going flags tarPath .linked false) (loadDaemons flags tarPath)
      (fun _ => Going flags tarPath .linked false) (fun _ => Ended flags tarPath) := by
  unfold loadDaemons
  refine Triple.bind (onlyLate_spec rfl) fun ret => ?_
  refine Triple.bind (assureCleanup_spec ?_ (rmStrap_ended htar)) fun _ => ?_
  · cases ret <;> simp [lateFailure, ok, Except.isOk, Except.toBool]
  exact (quiet_bootstrapDaemons (fun _ => quiet_sys rfl) (fun _ => quiet_sys rfl) _).triple _

theorem deploy_spec (htar : IsTarPath flags tarPath) (request : BootstrapRequest) (path : CStr) :
    Triple (keep flags) (Going flags tarPath .making false) (deploy flags request tarPath path)
      (fun _ => Going flags tarPath .linked false) (fun _ => Ended flags tarPath) := by
  unfold deploy
  refine Triple.bind (extract_spec htar path) fun _ => ?_
  refine Triple.bind (moveIntoPlace_spec htar) fun _ => ?_
  refine Triple.bind (prepBootstrap_spec htar) fun _ => ?_
  refine Triple.bind (setPasswords_spec htar request) fun _ => ?_
  refine Triple.bind (markInstalled_spec htar request) fun _ => ?_
  refine Triple.bind (loadDaemons_spec htar) fun ret => ?_
  cases ret with
  | error _ => exact Triple.pure fun _ hg => hg
  | ok _ =>
    dsimp only
    split
    · exact Triple.pure fun _ hg => hg
    · exact Triple.pure fun _ hg => hg

/-- **What a run of `bootstrap()` ends in**: the bootstrap is installed, or the run ends before the
directory is made, with everything removed, or with the directory left behind. -/
theorem bootstrap_spec (request : BootstrapRequest) :
    Triple (keep flags) Fresh (bootstrap flags request)
      (fun _ g => ∃ tarPath, Going flags tarPath .linked false g) (fun _ => Exited flags) := by
  have hfresh {α : Type} {x : Daemon α} (h : Silent flags x) :
      Triple (keep flags) Fresh x (fun _ => Fresh) (fun _ => Exited flags) :=
    h.triple_exit fun _ _ => .inl
  unfold bootstrap
  refine Triple.bind (hfresh (silent_assure _ _ _)) fun _ => ?_
  refine Triple.bind (hfresh silent_checkNotBootstrapped) fun _ => ?_
  refine Triple.bind (hfresh (silent_checkRequest request)) fun path => ?_
  refine Triple.bind (hfresh silent_prepareVolume) fun _ => ?_
  refine Triple.bind makeTarPath_spec fun tarPath => ?_
  refine Triple.of_and fun htar => ?_
  exact (deploy_spec htar request path).weaken (fun _ hg => hg) (fun _ _ hg => ⟨tarPath, hg⟩)
    fun _ _ hg => .inr ⟨tarPath, htar, hg⟩

end

end Jbinit.Palera1nd

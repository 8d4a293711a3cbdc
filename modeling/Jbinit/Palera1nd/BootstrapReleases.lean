import Jbinit.Palera1nd.BootstrapHeld
import Jbinit.Palera1nd.BootstrapRemovals

/-!
# What `bootstrap()` releases

One specification for each phase: it leaves what it was given and what the next phase needs, and at
an exit nothing is held or one of the failures `leaks` has happened. Put together, a run releases
everything exactly if none of them happens (`bootstrap_tidy_iff`).
-/

namespace Jbinit.Palera1nd

open Foundations Calls

namespace Held

/-! ## The macros -/

theorem makes_run (c : Call) : Makes [c] (.ok ()) (run c) := .perform c

theorem makes_closePair (fds : ℤ × ℤ) : Makes [.close fds.1, .close fds.2] (.ok ()) (closePair fds) :=
  (makes_run _).bind (makes_run _)

theorem makes_tsdeClose (stream : ℤ × ℤ) (tarStderr : ℤ) :
    Makes [.close tarStderr, .close stream.2] (.ok ()) (tsdeClose stream tarStderr) :=
  (makes_run _).bind (makes_run _)

theorem makes_closeTarPipes (fds : TarPipes) : Makes [.close fds.stream.1, .close fds.stream.2,
    .close fds.tarStderr.1, .close fds.stream.2, .close fds.stream.1, .close fds.stream.2] (.ok ())
      (closeTarPipes fds) :=
  (makes_closePair _).bind ((makes_tsdeClose _ _).bind (makes_closePair _))

theorem makes_killTarZstd : Makes [.kill .tar .sigkill, .kill .zstd .sigkill] (.ok ()) killTarZstd :=
  (makes_run _).bind (makes_run _)

theorem makes_joinTarZstd (fds : TarPipes) : Makes [.pthreadCancel .zstdLog,
    .pthreadCancel .tarLog, .close fds.tarStderr.1, .close fds.zstdStderr.1,
    .pthreadJoin .zstdLog, .pthreadJoin .tarLog] (.ok ()) (joinTarZstd fds) :=
  (makes_run _).bind ((makes_run _).bind ((makes_run _).bind ((makes_run _).bind
    ((makes_run _).bind (makes_run _)))))

theorem makes_removeTpath (tarPath : CStr) : Makes [.unlink tarPath, .rmdir tarPath,
    .removefile tarPath] (.ok ()) (removeTpath tarPath) :=
  (makes_run _).bind ((makes_run _).bind (makes_run _))

theorem makes_rmStrap (tarPath : CStr) : Makes [.unlink tarPath, .rmdir tarPath,
    .removefile tarPath, .unlink varJb] (.ok ()) (rmStrap tarPath) :=
  (makes_removeTpath tarPath).bind (makes_run _)

theorem makes_clPstrapFd (stdErr stdOut : ℤ × ℤ) : Makes [.close stdErr.1, .close stdErr.2,
    .close stdOut.1, .close stdOut.2] (.ok ()) (clPstrapFd stdErr stdOut) :=
  (makes_closePair _).bind (makes_closePair _)

theorem makes_pstrapEndC (stdErr stdOut : ℤ × ℤ) : Makes [.pthreadCancel .prepBootstrapStdErrLog,
    .pthreadCancel .prepBootstrapStdOutLog, .close stdOut.1, .close stdErr.1,
    .pthreadJoin .prepBootstrapStdErrLog, .pthreadJoin .prepBootstrapStdOutLog] (.ok ())
      (pstrapEndC stdErr stdOut) :=
  (makes_run _).bind ((makes_run _).bind ((makes_run _).bind ((makes_run _).bind
    ((makes_run _).bind (makes_run _)))))

theorem makes_clPwOutfd (stdin fds : ℤ × ℤ) :
    Makes [.close fds.1, .close stdin.2] (.ok ()) (clPwOutfd stdin fds) :=
  (makes_run _).bind (makes_run _)

theorem makes_clPwfds (fds : PwPipes) : Makes [.close fds.stdin.1, .close fds.stdin.2,
    .close fds.stdout.1, .close fds.stdin.2, .close fds.stderr.1, .close fds.stdin.2] (.ok ())
      (clPwfds fds) :=
  (makes_closePair _).bind ((makes_clPwOutfd _ _).bind (makes_clPwOutfd _ _))

theorem makes_pwClean (fds : PwPipes) : Makes [.pthreadCancel .pwStderr, .pthreadCancel .pwStdout,
    .close fds.stderr.1, .close fds.stdout.1, .pthreadJoin .pwStdout, .pthreadJoin .pwStderr] (.ok ())
      (pwClean fds) :=
  (makes_run _).bind ((makes_run _).bind ((makes_run _).bind ((makes_run _).bind
    ((makes_run _).bind (makes_run _)))))

/-! ## Calls -/

variable {flags : Flags} {α ε : Type} {m : Multiset Resource} {r : Resource} {calls : List Call}
  {cleanup : Daemon Unit}

section

variable {E : ε → Held × Bool → Prop}

/-- What is held after a call, by its outcome. -/
def Outcome (m m' : Multiset Resource) (leaked : Bool) : Except Errno Unit → Held × Bool → Prop
  | .ok _ => At m false
  | .error _ => At m' leaked

theorem pipe_spec (which : Pipe) :
    Triple (holding flags) (At m false) (sys (.pipe which))
      (fun ret s => match ret with
        | .ok fds => (IsNew ⟨m, false⟩ fds.1 ∧ IsNew ⟨.descriptor fds.1 ::ₘ m, false⟩ fds.2) ∧
            At (.descriptor fds.2 ::ₘ .descriptor fds.1 ::ₘ m) false s
        | .error e => At m (leaks flags ⟨.pipe which, .error e⟩) s) E := by
  refine sys_spec.weaken (fun _ hs => hs) (fun ret s hs => ?_) fun _ _ hs => hs
  cases ret with
  | ok fds => exact hs
  | error e => exact hs.2

theorem spawn_spec (child : Child) (argv : List CStr) :
    Triple (holding flags) (At m false) (sys (.spawn child argv))
      (Outcome (.child child ::ₘ m) m (child == .tar || child == .zstd)) E := by
  refine sys_spec.weaken (fun _ hs => hs) (fun ret s hs => ?_) fun _ _ hs => hs
  cases ret with
  | ok _ => exact hs.2
  | error _ => exact hs.2

theorem pthreadCreate_spec (thread : Thread) (fd : ℤ) :
    Triple (holding flags) (At m false) (sys (.pthreadCreate thread fd))
      (Outcome (.thread thread ::ₘ m) m (thread != .prepBootstrapStdErrLog)) E := by
  refine sys_spec.weaken (fun _ hs => hs) (fun ret s hs => ?_) fun _ _ hs => hs
  cases ret with
  | ok _ => exact hs.2
  | error _ => exact hs.2

theorem sigcont_spec (child : Child) :
    Triple (holding flags) (At m false) (sys (.kill child .sigcont)) (Outcome m m true) E := by
  refine sys_spec.weaken (fun _ hs => hs) (fun ret s hs => ?_) fun _ _ hs => hs
  cases ret with
  | ok _ => exact hs.2
  | error _ => exact hs.2

/-- `pw` has to be there, which is not so of what else is looked for in this way. -/
theorem accessX_spec (path : CStr) :
    Triple (holding flags) (At m false) (sys (.access path .xOk))
      (Outcome m m (path == pwPath flags)) E := by
  refine sys_spec.weaken (fun _ hs => hs) (fun ret s hs => ?_) fun _ _ hs => hs
  cases ret with
  | ok _ => exact hs.2
  | error _ => exact hs.2

theorem waitpid_spec (child : Child) (m : Multiset Resource) :
    Triple (holding flags) (At (.child child ::ₘ m) false) (sys (.waitpid child))
      (fun ret => match ret with
        | .ok _ => At m false
        | .error _ => At (.child child ::ₘ m) true) E := by
  refine sys_spec.weaken (fun _ hs => hs) (fun ret s hs => ?_) fun _ _ hs => hs
  cases ret with
  | ok _ =>
    rw [hs.2]
    simp [At, next, release, leaks]
  | error e => exact hs.2

end

/-- Closing a descriptor that is held. -/
theorem close_spec {fd : ℤ} (hfd : fd ≠ -1) {m' : Multiset Resource}
    (hm : m' = .descriptor fd ::ₘ m) {E : Failure → Held × Bool → Prop} :
    Triple (holding flags) (At m' false) (run (.close fd)) (fun _ => At m false) E := by
  refine cleanup_spec (makes_run _) ?_ (hm.trans (Multiset.singleton_add _ m).symm)
  simp [IsCleanup, hfd]

/-! ## Exits -/

/-- A check that fails. -/
theorem makes_assure {code : ErrorCode} {description : CStr} (h : Makes calls (.ok ()) cleanup) :
    Makes calls (.error ⟨code, description⟩) (assureCleanup false cleanup code description) :=
  calls.append_nil ▸ h.bind (.throw _)

theorem assure_ok {code : ErrorCode} {description : CStr} {E : Failure → Held × Bool → Prop} :
    Triple (holding flags) (At m false) (assureCleanup true cleanup code description)
      (fun _ => At m false) E :=
  Triple.pure fun _ hs => hs

/-- A check of the call before it. -/
theorem assure_spec {ret : Except Errno Unit} {code : ErrorCode} {description : CStr}
    {m' : Multiset Resource} {leaked : Bool}
    (hexit : Triple (holding flags) (At m' leaked) (assureCleanup false cleanup code description)
      (fun _ => At m false) (fun _ => Ended)) :
    Triple (holding flags) (Outcome m m' leaked ret)
      (assureCleanup (ok ret) cleanup code description) (fun _ => At m false) (fun _ => Ended) := by
  cases ret with
  | ok _ => exact assure_ok
  | error _ => exact hexit

/-- The steps that hold nothing and fail harmlessly. -/
theorem plain_spec {x : Daemon α} (h : Unseen (holding flags) x) :
    Triple (holding flags) (At 0 false) x (fun _ => At 0 false) (fun _ => Ended) :=
  h.triple_exit fun _ _ => .inl

/-! ## The volume -/

/-- What is held after `open` has returned `fd`. -/
def openedResources (fd : ℤ) : Multiset Resource := if fd = -1 then 0 else {.descriptor fd}

theorem opened_nothing (fd : ℤ) : opened ⟨0, false⟩ fd = ⟨openedResources fd, false⟩ := by
  rw [opened, openedResources]
  split <;> rfl

/-- `close(-1)` does nothing. -/
theorem close_opened (fd : ℤ) : Triple (holding flags) (At (openedResources fd) false)
    (run (.close fd)) (fun _ => At 0 false) (fun _ => Ended) := by
  rw [openedResources]
  split
  case isTrue hfd =>
    refine Triple.bind sys_spec fun ret => Triple.of_and fun _ => ?_
    refine Triple.pure fun s hs => ?_
    rw [hs, At, hfd]
    rfl
  case isFalse hfd =>
    exact close_spec hfd rfl

/-- The descriptor is not closed when the snapshot cannot be renamed. -/
theorem snapshot_throw {fd : ℤ} {e : Errno} (he : e ≠ enoent) (failure : Failure)
    {Q : Unit → Held × Bool → Prop} :
    Triple (holding flags) (At (openedResources fd) (fd != -1 && e != enoent))
      (throw failure : Daemon Unit) Q (fun _ => Ended) := by
  refine Triple.throw fun s hs => ?_
  rw [openedResources] at hs
  split at hs
  case isTrue hfd =>
    rw [hfd] at hs
    exact .inl hs
  case isFalse hfd =>
    rw [hs]
    exact .inr ⟨_, Multiset.mem_singleton_self _, by simp [hfd, he]⟩

theorem renameSnapshot_spec : Triple (holding flags) (At 0 false) renameSnapshot
    (fun _ => At 0 false) (fun _ => Ended) := by
  unfold renameSnapshot
  refine Triple.bind (plain_spec (ignores_plain.quiet rfl).unseen) fun hash => ?_
  refine Triple.bind (plain_spec (Ignores.assure _ _ _)) fun _ => ?_
  refine Triple.bind sys_spec fun (dirfd : ℤ) => Triple.of_and fun _ => ?_
  have hnext : next ⟨0, false⟩ ⟨.openRoot, dirfd⟩ = ⟨openedResources dirfd, false⟩ :=
    opened_nothing dirfd
  rw [hnext]
  refine Triple.bind sys_spec fun ret => Triple.of_and fun _ => ?_
  cases ret with
  | ok _ => exact Triple.bind (Triple.pure fun _ hs => hs) fun _ => close_opened dirfd
  | error e =>
    by_cases he : e = enoent
    · subst he
      have hleaks : leaks flags ⟨.fsSnapshotRename dirfd (CStr.snprintf 150
          ("com.apple.os.update-".toList ++ hash.1.chars)) "orig-fs".toList, .error enoent⟩ =
            false := by
        simp [leaks]
      rw [hleaks]
      exact Triple.bind (Triple.pure fun _ hs => hs) fun _ => close_opened dirfd
    · have hcheck : okOr (.error e) enoent = false := by
        simpa [okOr] using he
      rw [hcheck]
      exact Triple.bind (snapshot_throw he _) fun _ => close_opened dirfd

theorem prepareVolume_spec : Triple (holding flags) (At 0 false) (prepareVolume flags)
    (fun _ => At 0 false) (fun _ => Ended) := by
  unfold prepareVolume
  refine Triple.bind (plain_spec (ignores_plain.quiet rfl).unseen) fun name => ?_
  refine Triple.bind (plain_spec (Ignores.assure _ _ _)) fun _ => ?_
  refine Triple.bind (plain_spec (Ignores.remount ignores_plain)) fun _ => ?_
  split
  · exact renameSnapshot_spec
  · exact Triple.pure fun _ hs => hs

/-! ## The extraction -/

/-- What is held when the pipes of the extraction are open. -/
def tarDescriptors (fds : TarPipes) : Multiset Resource :=
  .descriptor fds.zstdStderr.2 ::ₘ .descriptor fds.zstdStderr.1 ::ₘ .descriptor fds.tarStderr.2 ::ₘ
    .descriptor fds.tarStderr.1 ::ₘ .descriptor fds.stream.2 ::ₘ {.descriptor fds.stream.1}

/-- No result of `pipe` is -1, and the second descriptor of the pipe of `tar` is not one of those
that the cleanups close. -/
structure NewTar (stream tarStderr : ℤ × ℤ) : Prop where
  stream₁ : stream.1 ≠ -1
  stream₂ : stream.2 ≠ -1
  tarStderr₁ : tarStderr.1 ≠ -1
  tarStderr₂ : tarStderr.2 ≠ -1
  kept : tarStderr.2 ≠ stream.1 ∧ tarStderr.2 ≠ stream.2 ∧ tarStderr.2 ≠ tarStderr.1

theorem isNew_ne {m : Multiset Resource} {fd : ℤ} (h : IsNew ⟨m, false⟩ fd) : fd ≠ -1 := by
  have hle := h.1
  omega

theorem isNew_ne_of_mem {m : Multiset Resource} {fd fd' : ℤ} (h : IsNew ⟨m, false⟩ fd)
    (hmem : Resource.descriptor fd' ∈ m) : fd ≠ fd' := by
  rintro rfl
  exact h.2 hmem

theorem openTarPipes_spec : Triple (holding flags) (At 0 false) openTarPipes
    (fun fds s => (NewTar fds.stream fds.tarStderr ∧ fds.zstdStderr.1 ≠ -1 ∧
      fds.zstdStderr.2 ≠ -1) ∧ At (tarDescriptors fds) false s) (fun _ => Ended) := by
  unfold openTarPipes
  refine Triple.bind (pipe_spec _) fun ret => ?_
  cases ret with
  | error _ => exact Triple.throw fun _ => .inl
  | ok stream =>
    refine Triple.of_and fun hstream => Triple.bind (pipe_spec _) fun ret => ?_
    have hne₁ := isNew_ne hstream.1
    have hne₂ := isNew_ne hstream.2
    cases ret with
    | error _ =>
      refine exit_cleanup (m := .descriptor stream.2 ::ₘ .descriptor stream.1 ::ₘ 0)
        ((makes_closePair stream).bind (.throw _)) ?_ ?_
      · simp [IsCleanup, hne₁, hne₂]
      · simp [← Multiset.singleton_add]
        abel
    | ok tarStderr =>
      refine Triple.of_and fun htar => Triple.bind (pipe_spec _) fun ret => ?_
      have hnew : NewTar stream tarStderr :=
        { stream₁ := hne₁
          stream₂ := hne₂
          tarStderr₁ := isNew_ne htar.1
          tarStderr₂ := isNew_ne htar.2
          kept := ⟨isNew_ne_of_mem htar.2 (by simp), isNew_ne_of_mem htar.2 (by simp),
            isNew_ne_of_mem htar.2 (by simp)⟩ }
      obtain ⟨hkept₁, hkept₂, hkept₃⟩ := hnew.kept
      cases ret with
      | error _ =>
        refine exit_keeps (r := .descriptor tarStderr.2)
          ((makes_closePair stream).bind ((makes_tsdeClose stream tarStderr.1).bind (.throw _)))
          (Multiset.mem_cons_self _ _) ?_
        simp [Spares, hkept₁, hkept₂, hkept₃]
      | ok zstdStderr =>
        refine Triple.of_and fun hzstd => Triple.pure fun s hs => ?_
        exact ⟨⟨hnew, isNew_ne hzstd.1, isNew_ne hzstd.2⟩, hs⟩

/-- What is held when both processes have been spawned. -/
def spawnedTar (fds : TarPipes) : Multiset Resource :=
  .child .zstd ::ₘ .child .tar ::ₘ .descriptor fds.zstdStderr.1 ::ₘ {.descriptor fds.tarStderr.1}

theorem spawnTarZstd_spec {fds : TarPipes} (hnew : NewTar fds.stream fds.tarStderr)
    (hzstd : fds.zstdStderr.2 ≠ -1) (tarPath path : CStr) :
    Triple (holding flags) (At (tarDescriptors fds) false) (spawnTarZstd fds tarPath path)
      (fun _ => At (spawnedTar fds) false) (fun _ => Ended) := by
  obtain ⟨hkept₁, hkept₂, hkept₃⟩ := hnew.kept
  have hends : Makes [.close fds.stream.1, .close fds.stream.2, .close fds.tarStderr.2,
      .close fds.zstdStderr.2] (.ok ()) (do
        smfdClose fds.stream
        run (.close fds.tarStderr.2)
        run (.close fds.zstdStderr.2)) :=
    (makes_closePair _).bind ((makes_run _).bind (makes_run _))
  unfold spawnTarZstd
  refine Triple.bind (spawn_spec _ _) fun ret => Triple.bind (assure_spec ?_) fun _ => ?_
  · refine exit_keeps (r := .descriptor fds.tarStderr.2) (makes_assure (makes_closeTarPipes fds))
      ?_ ?_
    · simp [tarDescriptors]
    · simp [Spares, hkept₁, hkept₂, hkept₃]
  refine Triple.bind (spawn_spec _ _) fun ret => Triple.bind (assure_spec ?_) fun _ => ?_
  · refine exit_keeps (r := .child .tar)
      (makes_assure ((makes_closeTarPipes fds).bind (makes_run _))) (Multiset.mem_cons_self _ _) ?_
    simp [Spares]
  · refine cleanup_spec hends ?_ ?_
    · simp [IsCleanup, hnew.stream₁, hnew.stream₂, hnew.tarStderr₂, hzstd]
    · simp [tarDescriptors, spawnedTar, ← Multiset.singleton_add]
      abel

theorem runTarZstd_spec {fds : TarPipes} (htar : fds.tarStderr.1 ≠ -1)
    (hzstd : fds.zstdStderr.1 ≠ -1) :
    Triple (holding flags) (At (spawnedTar fds) false) (runTarZstd fds) (fun _ => At 0 false)
      (fun _ => Ended) := by
  have hkill {m m' : Multiset Resource} {code : ErrorCode} {description : CStr}
      (hm : .child .tar ∈ m) : Triple (holding flags) (At m true)
        (assureCleanup false killTarZstd code description) (fun _ => At m' false)
          (fun _ => Ended) :=
    exit_keeps (makes_assure makes_killTarZstd) hm (by simp [Spares])
  have hjoin {child : Child} {m : Multiset Resource} {failure : Failure} (hm : .child child ∈ m) :
      Triple (holding flags) (At m true) (do joinTarZstd fds; throw failure)
        (fun _ : ℕ × ℕ => At 0 false) (fun _ => Ended) :=
    exit_keeps ((makes_joinTarZstd fds).bind (.throw _)) hm (by simp [Spares])
  unfold runTarZstd
  refine Triple.bind (pthreadCreate_spec _ _) fun ret =>
    Triple.bind (assure_spec (hkill (by simp [spawnedTar]))) fun _ => ?_
  refine Triple.bind (pthreadCreate_spec _ _) fun ret =>
    Triple.bind (assure_spec (hkill (by simp [spawnedTar]))) fun _ => ?_
  refine Triple.bind (sigcont_spec _) fun ret =>
    Triple.bind (assure_spec (hkill (by simp [spawnedTar]))) fun _ => ?_
  refine Triple.bind (sigcont_spec _) fun ret =>
    Triple.bind (assure_spec (hkill (by simp [spawnedTar]))) fun _ => ?_
  have horder : .thread .tarLog ::ₘ .thread .zstdLog ::ₘ spawnedTar fds =
      .child .zstd ::ₘ .child .tar ::ₘ .thread .tarLog ::ₘ .thread .zstdLog ::ₘ
        .descriptor fds.zstdStderr.1 ::ₘ {.descriptor fds.tarStderr.1} := by
    simp only [spawnedTar, ← Multiset.singleton_add]
    abel
  refine Triple.bind ((waitpid_spec .zstd _).pre fun s hs => horder ▸ hs) fun ret => ?_
  cases ret with
  | error _ => exact hjoin (Multiset.mem_cons_self _ _)
  | ok statZstd =>
    refine Triple.bind (waitpid_spec .tar _) fun ret => ?_
    cases ret with
    | error _ => exact hjoin (Multiset.mem_cons_self _ _)
    | ok statTar =>
      refine Triple.bind (cleanup_spec (makes_joinTarZstd fds) ?_ ?_) fun _ =>
        Triple.pure fun _ hs => hs
      · simp [IsCleanup, isPlainCall, isMoveCall, htar, hzstd]
      · simp [← Multiset.singleton_add]
        abel

theorem extract_spec (tarPath path : CStr) :
    Triple (holding flags) (At 0 false) (extract tarPath path) (fun _ => At 0 false)
      (fun _ => Ended) := by
  unfold extract
  refine Triple.bind openTarPipes_spec fun fds => Triple.of_and ?_
  rintro ⟨hnew, hzstd₁, hzstd₂⟩
  refine Triple.bind (spawnTarZstd_spec hnew hzstd₂ _ _) fun _ => ?_
  refine Triple.bind (runTarZstd_spec hnew.tarStderr₁ hzstd₁) fun status => ?_
  exact plain_spec (Ignores.checkTarZstd ignores_move _ _ _)

/-! ## `prep_bootstrap.sh` -/

/-- No descriptor of two pipes is -1. -/
def Valid (fds fds' : ℤ × ℤ) : Prop :=
  (fds.1 ≠ -1 ∧ fds.2 ≠ -1) ∧ fds'.1 ≠ -1 ∧ fds'.2 ≠ -1

/-- What is held when the pipes are open: first what is closed when the script has been spawned. -/
def prepDescriptors (stdErr stdOut : ℤ × ℤ) : Multiset Resource :=
  .descriptor stdOut.2 ::ₘ .descriptor stdErr.2 ::ₘ .descriptor stdOut.1 ::ₘ {.descriptor stdErr.1}

theorem openPrepPipes_spec (tarPath : CStr) :
    Triple (holding flags) (At 0 false) (openPrepPipes tarPath)
      (fun fds s => Valid fds.1 fds.2 ∧ At (prepDescriptors fds.1 fds.2) false s)
      (fun _ => Ended) := by
  unfold openPrepPipes
  refine Triple.bind (pipe_spec _) fun ret => ?_
  cases ret with
  | error _ =>
    refine exit_cleanup ((makes_rmStrap tarPath).bind (.throw _)) ?_ rfl
    simp [IsCleanup, isPlainCall, isMoveCall]
  | ok stdErr =>
    refine Triple.of_and fun hstdErr => Triple.bind (pipe_spec _) fun ret => ?_
    have hne₁ := isNew_ne hstdErr.1
    have hne₂ := isNew_ne hstdErr.2
    cases ret with
    | error _ =>
      refine exit_cleanup (m := .descriptor stdErr.2 ::ₘ .descriptor stdErr.1 ::ₘ 0)
        ((makes_closePair stdErr).bind ((makes_rmStrap tarPath).bind (.throw _))) ?_ ?_
      · simp [IsCleanup, isPlainCall, isMoveCall, hne₁, hne₂]
      · exact Multiset.cons_swap _ _ _
    | ok stdOut =>
      refine Triple.of_and fun hstdOut => Triple.pure fun s hs => ?_
      have horder : Resource.descriptor stdOut.2 ::ₘ .descriptor stdOut.1 ::ₘ
          .descriptor stdErr.2 ::ₘ .descriptor stdErr.1 ::ₘ 0 = prepDescriptors stdErr stdOut := by
        simp only [prepDescriptors, ← Multiset.singleton_add]
        abel
      exact ⟨⟨⟨hne₁, hne₂⟩, isNew_ne hstdOut.1, isNew_ne hstdOut.2⟩, horder ▸ hs⟩

/-- What is held when the threads run. -/
def prepThreads (stdErr stdOut : ℤ × ℤ) : Multiset Resource :=
  .thread .prepBootstrapStdOutLog ::ₘ .thread .prepBootstrapStdErrLog ::ₘ
    prepDescriptors stdErr stdOut

theorem createPrepThreads_spec {stdErr stdOut : ℤ × ℤ} (hvalid : Valid stdErr stdOut)
    (tarPath : CStr) :
    Triple (holding flags) (At (prepDescriptors stdErr stdOut) false)
      (createPrepThreads tarPath stdErr stdOut) (fun _ => At (prepThreads stdErr stdOut) false)
      (fun _ => Ended) := by
  obtain ⟨⟨hstdErr₁, hstdErr₂⟩, hstdOut₁, hstdOut₂⟩ := hvalid
  have hcleanup : Makes [.close stdErr.1, .close stdErr.2, .close stdOut.1, .close stdOut.2,
      .unlink tarPath, .rmdir tarPath, .removefile tarPath, .unlink varJb] (.ok ()) (do
        clPstrapFd stdErr stdOut
        rmStrap tarPath) :=
    (makes_clPstrapFd stdErr stdOut).bind (makes_rmStrap tarPath)
  unfold createPrepThreads
  refine Triple.bind (pthreadCreate_spec _ _) fun ret => Triple.bind (assure_spec ?_) fun _ => ?_
  · refine exit_cleanup (makes_assure hcleanup) ?_ ?_
    · simp [IsCleanup, isPlainCall, isMoveCall, *]
    · simp [prepDescriptors, ← Multiset.singleton_add]
      abel
  refine Triple.bind (pthreadCreate_spec _ _) fun ret => assure_spec ?_
  refine exit_keeps (makes_assure hcleanup) (Multiset.mem_cons_self _ _) ?_
  simp [Spares]

theorem runPrepBootstrap_spec {stdErr stdOut : ℤ × ℤ} (hvalid : Valid stdErr stdOut)
    (tarPath : CStr) :
    Triple (holding flags) (At (prepThreads stdErr stdOut) false)
      (runPrepBootstrap flags tarPath stdErr stdOut) (fun _ => At 0 false) (fun _ => Ended) := by
  obtain ⟨⟨hstdErr₁, hstdErr₂⟩, hstdOut₁, hstdOut₂⟩ := hvalid
  unfold runPrepBootstrap
  refine Triple.bind (spawn_spec _ _) fun ret => ?_
  cases ret with
  | error _ =>
    refine exit_cleanup ((makes_run _).bind ((makes_run _).bind ((makes_assure
      ((makes_pstrapEndC stdErr stdOut).bind (makes_rmStrap tarPath))).exits _))) ?_ ?_
    · simp [IsCleanup, isPlainCall, isMoveCall, *]
    · simp [prepThreads, prepDescriptors, ← Multiset.singleton_add]
      abel
  | ok _ =>
    have hends : .child .prepBootstrap ::ₘ prepThreads stdErr stdOut =
        .descriptor stdOut.2 ::ₘ .descriptor stdErr.2 ::ₘ .child .prepBootstrap ::ₘ
          .thread .prepBootstrapStdOutLog ::ₘ .thread .prepBootstrapStdErrLog ::ₘ
            .descriptor stdOut.1 ::ₘ {.descriptor stdErr.1} := by
      simp only [prepThreads, prepDescriptors, ← Multiset.singleton_add]
      abel
    refine Triple.bind (close_spec hstdOut₂ hends) fun _ => ?_
    refine Triple.bind (close_spec hstdErr₂ rfl) fun _ => ?_
    refine Triple.bind assure_ok fun _ => Triple.bind (waitpid_spec .prepBootstrap _) fun ret => ?_
    cases ret with
    | error _ =>
      refine exit_keeps ((makes_pstrapEndC stdErr stdOut).bind
        ((makes_rmStrap tarPath).bind (.throw _))) (Multiset.mem_cons_self _ _) ?_
      simp [Spares]
    | ok status =>
      refine Triple.bind (cleanup_spec (makes_pstrapEndC stdErr stdOut) ?_ ?_) fun _ =>
        Triple.pure fun _ hs => hs
      · simp [IsCleanup, isPlainCall, isMoveCall, *]
      · simp [← Multiset.singleton_add]
        abel

theorem prepPath_beq_pwPath (flags : Flags) :
    (underJb flags "/prep_bootstrap.sh".toList == pwPath flags) = false := by
  unfold pwPath underJb varJb
  split <;> decide

theorem prepBootstrap_spec (tarPath : CStr) : Triple (holding flags) (At 0 false)
    (prepBootstrap flags tarPath) (fun _ => At 0 false) (fun _ => Ended) := by
  have hplain : Quiet (holding flags) (rmStrap tarPath) := Ignores.rmStrap ignores_move tarPath
  unfold prepBootstrap
  refine Triple.bind (accessX_spec _) fun ret => Triple.bind (assure_spec ?_) fun _ => ?_
  · rw [prepPath_beq_pwPath]
    exact plain_spec (Ignores.assureCleanup hplain _ _ _)
  refine Triple.bind (openPrepPipes_spec tarPath) fun fds => Triple.of_and fun hvalid => ?_
  refine Triple.bind (createPrepThreads_spec hvalid tarPath) fun _ => ?_
  refine Triple.bind (runPrepBootstrap_spec hvalid tarPath) fun status => ?_
  refine Triple.bind (plain_spec (Ignores.assureCleanup hplain _ _ _)) fun _ => ?_
  exact plain_spec (Ignores.assureCleanup hplain _ _ _)

/-! ## Setting the passwords -/

/-- What is held when the pipes are open: first what is closed when `pw` has been spawned. -/
def pwDescriptors (fds : PwPipes) : Multiset Resource :=
  .descriptor fds.stdin.1 ::ₘ .descriptor fds.stderr.2 ::ₘ .descriptor fds.stdout.2 ::ₘ
    .descriptor fds.stdin.2 ::ₘ .descriptor fds.stderr.1 ::ₘ {.descriptor fds.stdout.1}

/-- No result of `pipe` is -1, and the second descriptor of the last pipe is not one of those that
`clPwfds` closes. -/
structure NewPw (fds : PwPipes) : Prop where
  stdin₁ : fds.stdin.1 ≠ -1
  stdin₂ : fds.stdin.2 ≠ -1
  stdout₁ : fds.stdout.1 ≠ -1
  stdout₂ : fds.stdout.2 ≠ -1
  stderr₁ : fds.stderr.1 ≠ -1
  stderr₂ : fds.stderr.2 ≠ -1
  kept : fds.stderr.2 ≠ fds.stdin.1 ∧ fds.stderr.2 ≠ fds.stdin.2 ∧ fds.stderr.2 ≠ fds.stdout.1 ∧
    fds.stderr.2 ≠ fds.stderr.1

theorem openPwPipes_spec (tarPath : CStr) :
    Triple (holding flags) (At 0 false) (openPwPipes tarPath)
      (fun fds s => NewPw fds ∧ At (pwDescriptors fds) false s) (fun _ => Ended) := by
  unfold openPwPipes
  refine Triple.bind (pipe_spec _) fun ret => ?_
  cases ret with
  | error _ =>
    refine exit_cleanup ((makes_rmStrap tarPath).bind (.throw _)) ?_ rfl
    simp [IsCleanup, isPlainCall, isMoveCall]
  | ok stdin =>
    refine Triple.of_and fun hstdin => Triple.bind (pipe_spec _) fun ret => ?_
    have hin₁ := isNew_ne hstdin.1
    have hin₂ := isNew_ne hstdin.2
    cases ret with
    | error _ =>
      refine exit_cleanup (m := .descriptor stdin.2 ::ₘ .descriptor stdin.1 ::ₘ 0)
        ((makes_rmStrap tarPath).bind ((makes_closePair stdin).bind (.throw _))) ?_ ?_
      · simp [IsCleanup, isPlainCall, isMoveCall, hin₁, hin₂]
      · simp [← Multiset.singleton_add]
        abel
    | ok stdout =>
      refine Triple.of_and fun hstdout => Triple.bind (pipe_spec _) fun ret => ?_
      have hkept₁ : stdout.2 ≠ stdin.1 := isNew_ne_of_mem hstdout.2 (by simp)
      have hkept₂ : stdout.2 ≠ stdin.2 := isNew_ne_of_mem hstdout.2 (by simp)
      have hkept₃ : stdout.2 ≠ stdout.1 := isNew_ne_of_mem hstdout.2 (by simp)
      cases ret with
      | error _ =>
        refine exit_keeps (r := .descriptor stdout.2) ((makes_rmStrap tarPath).bind
          ((makes_closePair stdin).bind ((makes_clPwOutfd stdin stdout).bind (.throw _))))
            (Multiset.mem_cons_self _ _) ?_
        simp [Spares, hkept₁, hkept₂, hkept₃]
      | ok stderr =>
        refine Triple.of_and fun hstderr => Triple.pure fun s hs => ?_
        have hnew : NewPw ⟨stdin, stdout, stderr⟩ :=
          { stdin₁ := hin₁
            stdin₂ := hin₂
            stdout₁ := isNew_ne hstdout.1
            stdout₂ := isNew_ne hstdout.2
            stderr₁ := isNew_ne hstderr.1
            stderr₂ := isNew_ne hstderr.2
            kept := ⟨isNew_ne_of_mem hstderr.2 (by simp), isNew_ne_of_mem hstderr.2 (by simp),
              isNew_ne_of_mem hstderr.2 (by simp), isNew_ne_of_mem hstderr.2 (by simp)⟩ }
        have horder : Resource.descriptor stderr.2 ::ₘ .descriptor stderr.1 ::ₘ
            .descriptor stdout.2 ::ₘ .descriptor stdout.1 ::ₘ .descriptor stdin.2 ::ₘ
              .descriptor stdin.1 ::ₘ 0 = pwDescriptors ⟨stdin, stdout, stderr⟩ := by
          simp only [pwDescriptors, ← Multiset.singleton_add]
          abel
        exact ⟨hnew, horder ▸ hs⟩

/-- What is held when the threads run. -/
def pwThreads (fds : PwPipes) : Multiset Resource :=
  .thread .pwStdout ::ₘ .thread .pwStderr ::ₘ pwDescriptors fds

theorem createPwThreads_spec {fds : PwPipes} (hnew : NewPw fds) (tarPath : CStr) :
    Triple (holding flags) (At (pwDescriptors fds) false) (createPwThreads tarPath fds)
      (fun _ => At (pwThreads fds) false) (fun _ => Ended) := by
  obtain ⟨hkept₁, hkept₂, hkept₃, hkept₄⟩ := hnew.kept
  unfold createPwThreads
  refine Triple.bind (pthreadCreate_spec _ _) fun ret => Triple.bind (assure_spec ?_) fun _ => ?_
  · refine exit_keeps (r := .descriptor fds.stderr.2)
      (makes_assure ((makes_clPwfds fds).bind (makes_rmStrap tarPath))) ?_ ?_
    · simp [pwDescriptors]
    · simp [Spares, hkept₁, hkept₂, hkept₃, hkept₄]
  refine Triple.bind (pthreadCreate_spec _ _) fun ret => assure_spec ?_
  refine exit_keeps (r := .descriptor fds.stderr.2) (makes_assure ((makes_run _).bind
    ((makes_clPwfds fds).bind ((makes_rmStrap tarPath).bind (makes_run _))))) ?_ ?_
  · simp [pwDescriptors]
  · simp [Spares, hkept₁, hkept₂, hkept₃, hkept₄]

theorem checkPwPath_spec {fds : PwPipes} (hnew : NewPw fds) :
    Triple (holding flags) (At (pwThreads fds) false) (checkPwPath flags fds)
      (fun _ => At (pwThreads fds) false) (fun _ => Ended) := by
  obtain ⟨hkept₁, hkept₂, hkept₃, hkept₄⟩ := hnew.kept
  unfold checkPwPath
  refine Triple.bind (accessX_spec _) fun ret => assure_spec ?_
  rw [beq_self_eq_true]
  refine exit_keeps (r := .descriptor fds.stderr.2) (makes_assure ((makes_run _).bind
    ((makes_run _).bind ((makes_clPwfds fds).bind ((makes_run _).bind (makes_run _)))))) ?_ ?_
  · simp [pwThreads, pwDescriptors]
  · simp [Spares, hkept₁, hkept₂, hkept₃, hkept₄]

theorem runPw_spec {fds : PwPipes} (hnew : NewPw fds) (tarPath input arg3 arg4 : CStr) :
    Triple (holding flags) (At (pwThreads fds) false) (runPw flags tarPath fds input arg3 arg4)
      (fun _ => At 0 false) (fun _ => Ended) := by
  obtain ⟨hin₁, hin₂, hout₁, hout₂, herr₁, herr₂, -⟩ := hnew
  unfold runPw
  refine Triple.bind (spawn_spec _ _) fun ret => ?_
  cases ret with
  | error _ =>
    refine exit_cleanup ((makes_run _).bind ((makes_run _).bind ((makes_run _).bind ((makes_assure
      ((makes_run _).bind ((makes_pwClean fds).bind (makes_rmStrap tarPath)))).exits _)))) ?_ ?_
    · simp [IsCleanup, isPlainCall, isMoveCall, *]
    · simp [pwThreads, pwDescriptors, ← Multiset.singleton_add]
      abel
  | ok _ =>
    have hends : .child .pw ::ₘ pwThreads fds = .descriptor fds.stdin.1 ::ₘ
        .descriptor fds.stderr.2 ::ₘ .descriptor fds.stdout.2 ::ₘ .descriptor fds.stdin.2 ::ₘ
          .child .pw ::ₘ .thread .pwStdout ::ₘ .thread .pwStderr ::ₘ
            .descriptor fds.stderr.1 ::ₘ {.descriptor fds.stdout.1} := by
      simp only [pwThreads, pwDescriptors, ← Multiset.singleton_add]
      abel
    refine Triple.bind (close_spec hin₁ hends) fun _ => ?_
    refine Triple.bind (close_spec herr₂ rfl) fun _ => ?_
    refine Triple.bind (close_spec hout₂ rfl) fun _ => ?_
    refine Triple.bind assure_ok fun _ => ?_
    refine Triple.bind ((Ignores.run ignores_plain rfl).triple _) fun _ => ?_
    refine Triple.bind (close_spec hin₂ rfl) fun _ => ?_
    refine Triple.bind (waitpid_spec .pw _) fun ret => ?_
    cases ret with
    | error _ =>
      refine exit_keeps ((makes_pwClean fds).bind ((makes_rmStrap tarPath).bind (.throw _)))
        (Multiset.mem_cons_self _ _) ?_
      simp [Spares]
    | ok status =>
      refine Triple.bind (cleanup_spec (makes_pwClean fds) ?_ ?_) fun _ =>
        Triple.pure fun _ hs => hs
      · simp [IsCleanup, isPlainCall, isMoveCall, *]
      · simp [← Multiset.singleton_add]
        abel

theorem spawnPw_spec (tarPath input arg3 arg4 : CStr) :
    Triple (holding flags) (At 0 false) (spawnPw flags tarPath input arg3 arg4)
      (fun _ => At 0 false) (fun _ => Ended) := by
  have hplain : Quiet (holding flags) (rmStrap tarPath) := Ignores.rmStrap ignores_move tarPath
  unfold spawnPw
  refine Triple.bind (openPwPipes_spec tarPath) fun fds => Triple.of_and fun hnew => ?_
  refine Triple.bind (createPwThreads_spec hnew tarPath) fun _ => ?_
  refine Triple.bind (checkPwPath_spec hnew) fun _ => ?_
  refine Triple.bind (runPw_spec hnew tarPath _ _ _) fun status => ?_
  refine Triple.bind (plain_spec (Ignores.assureCleanup hplain _ _ _)) fun _ => ?_
  exact plain_spec (Ignores.assureCleanup hplain _ _ _)

theorem setPasswords_spec (tarPath : CStr) (request : BootstrapRequest) :
    Triple (holding flags) (At 0 false) (setPasswords flags tarPath request)
      (fun _ => At 0 false) (fun _ => Ended) := by
  unfold setPasswords
  split
  · exact Triple.bind (spawnPw_spec _ _ _ _) fun _ => spawnPw_spec _ _ _ _
  · exact Triple.bind (spawnPw_spec _ _ _ _) fun _ => spawnPw_spec _ _ _ _

/-! ## The end -/

theorem markInstalled_spec (tarPath : CStr) (request : BootstrapRequest) :
    Triple (holding flags) (At 0 false) (markInstalled flags tarPath request)
      (fun _ => At 0 false) (fun _ => Ended) := by
  unfold markInstalled
  refine Triple.bind sys_spec fun ret => ?_
  cases ret with
  | error e =>
    refine Triple.of_and fun _ => exit_cleanup ((makes_rmStrap tarPath).bind (.throw _)) ?_ rfl
    simp [IsCleanup, isPlainCall, isMoveCall]
  | ok fd =>
    refine Triple.of_and fun hnew => ?_
    refine Triple.bind ((Ignores.run ignores_plain rfl).triple _) fun _ => ?_
    refine Triple.bind ((Ignores.run ignores_plain rfl).triple _) fun _ => ?_
    refine Triple.bind ((Ignores.run ignores_plain rfl).triple _) fun _ => ?_
    exact close_spec (isNew_ne hnew) rfl

theorem quiet_last {c : Call} (hc : c matches .sendLaunchdMessage _ | .bootstrapCmd _) :
    Quiet (holding flags) (sys c : Daemon (Answer c)) := by
  refine .perform fun s reply s' hstep => ?_
  rw [hstep.2]
  split at hc
  · simp [next, leaks]
  · simp [next, leaks]
  · cases hc

theorem loadDaemons_spec (tarPath : CStr) : Triple (holding flags) (At 0 false)
    (loadDaemons flags tarPath) (fun _ => At 0 false) (fun _ => Ended) :=
  (Ignores.loadDaemons ignores_move tarPath fun launchPath =>
    (quiet_bootstrapDaemons (fun _ => quiet_last rfl) (fun _ => quiet_last rfl) launchPath).triple
      _).exit fun _ _ => .inl

theorem deploy_spec (request : BootstrapRequest) (tarPath path : CStr) :
    Triple (holding flags) (At 0 false) (deploy flags request tarPath path) (fun _ => At 0 false)
      (fun _ => Ended) := by
  unfold deploy
  refine Triple.bind (extract_spec tarPath path) fun _ => ?_
  refine Triple.bind (plain_spec (Ignores.moveIntoPlace ignores_move tarPath)) fun _ => ?_
  refine Triple.bind (prepBootstrap_spec tarPath) fun _ => ?_
  refine Triple.bind (setPasswords_spec tarPath request) fun _ => ?_
  refine Triple.bind (markInstalled_spec tarPath request) fun _ => ?_
  refine Triple.bind (loadDaemons_spec tarPath) fun r => ?_
  cases r with
  | error _ => exact Triple.pure fun _ hs => hs
  | ok _ =>
    dsimp only
    split
    · exact Triple.pure fun _ hs => hs
    · exact Triple.pure fun _ hs => hs

theorem bootstrap_spec (request : BootstrapRequest) :
    Triple (holding flags) (At 0 false) (bootstrap flags request) (fun _ => At 0 false)
      (fun _ => Ended) := by
  unfold bootstrap
  refine Triple.bind (plain_spec (Ignores.assure _ _ _)) fun _ => ?_
  refine Triple.bind (plain_spec (Ignores.checkNotBootstrapped ignores_plain)) fun _ => ?_
  refine Triple.bind (plain_spec (Ignores.checkRequest ignores_plain request)) fun path => ?_
  refine Triple.bind prepareVolume_spec fun _ => ?_
  refine Triple.bind (plain_spec (Ignores.makeTarPath ignores_plain)) fun tarPath => ?_
  exact deploy_spec request tarPath path

end Held

/-- **A run of `bootstrap()` releases everything it has obtained, and every descriptor once, exactly
if none of the failures `leaks` happens.** -/
theorem bootstrap_tidy_iff {flags : Flags} {request : BootstrapRequest} {t : List Ev}
    {r : Except Failure (Except Fault BootstrapReply)}
    (hrun : Run (bootstrap flags request).run t r) (hgranted : Held.nothing.Granted t) :
    (Held.nothing.after t).Tidy ↔ t.any (leaks flags) = false := by
  have hsteps := steps_holding flags hgranted false
  have hend := Held.bootstrap_spec request _ rfl t _ r hrun hsteps
  have hended : Held.Ended (Held.nothing.after t, false || t.any (leaks flags)) := by
    cases r with
    | ok _ => exact .inl hend
    | error _ => exact hend
  exact hended.tidy_iff

/-! ## Runs -/

/-- Pipes that are open at the same time have different descriptors. -/
def pipeDescriptors : Pipe → ℤ × ℤ
  | .stream | .prepBootstrapStdErr | .pwStdin | .pipeStdout => (3, 4)
  | .tarStderr | .prepBootstrapStdOut | .pwStdout | .pipeStderr => (5, 6)
  | .zstdStderr | .pwStderr => (7, 8)

/-- Every step succeeds. -/
def installing : ∀ c, Answer c
  | .pipe which => .ok (pipeDescriptors which)
  | c => extracting 0 c

theorem bootstrap_tidy_installing :
    (Held.nothing.after
      (drive installing (bootstrap palerainOptionRootless plainRequest).run).1).Tidy :=
  (bootstrap_tidy_iff (run_drive _ _) (by decide +kernel)).mpr (by decide +kernel)

/-- Every step succeeds, but the third pipe cannot be opened. -/
def thirdPipeFails : ∀ c, Answer c
  | .pipe .zstdStderr => .error emfile
  | c => installing c

/-- The second descriptor of the pipe of `tar` is kept, and one of the stream closed twice. -/
theorem bootstrap_not_tidy :
    ∃ t r, Run (bootstrap palerainOptionRootless plainRequest).run t r ∧ Held.nothing.Granted t ∧
      Held.nothing.after t = ⟨{.descriptor 6}, true⟩ ∧ ¬(Held.nothing.after t).Tidy :=
  ⟨_, _, run_drive thirdPipeFails _, by decide +kernel, by decide +kernel, by decide +kernel⟩

end Jbinit.Palera1nd

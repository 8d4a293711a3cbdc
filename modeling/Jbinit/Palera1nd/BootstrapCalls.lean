import Jbinit.Palera1nd.Bootstrap

/-!
# The calls of `bootstrap()`

A world that does not notice the calls of the source (`isBootstrapCall`) notices of a bootstrap only
its last step, which every successful run ends with (`Ignores.bootstrap`). One lemma for each phase
leads there; the cleanups come to their end. The calls after the jailbreak directory is made are
fewer (`isDeployCall`).
-/

namespace Jbinit.Palera1nd

open Foundations Calls

/-- Calls that neither get nor release a descriptor, a child or a thread, and whose failure does not
keep any, from the extraction on. -/
def isMoveCall : Call → Bool
  | .access _ mode => mode != .xOk
  | .kill _ signal => signal == .sigkill
  | .unlink _ | .rmdir _ | .removefile _ | .pthreadCancel _ | .rename _ _ | .symlink _ _
  | .copyfile _ _ | .lseekEnd _ | .dprintf _ _ => true
  | _ => false

/-- The same for all of `bootstrap()`. -/
def isPlainCall : Call → Bool
  | .uname | .getBmhash | .readDirectory _ | .statfsRoot | .stat _ | .lstat _ | .readlink _
  | .remountRootfs | .remountPreboot | .mkdtemp _ | .chmod _ => true
  | c => isMoveCall c

/-- The calls of `bootstrap()` from the extraction on, but for its last step. -/
def isDeployCall : Call → Bool
  | .pipe .pipeStdout | .pipe .pipeStderr | .pthreadCreate .stdoutThr _
  | .pthreadCreate .stderrThr _ | .waitpid .command => false
  | .access _ _ | .close _ | .unlink _ | .rmdir _ | .removefile _ | .pipe _ | .spawn _ _ | .kill _ _
  | .pthreadCreate _ _ | .pthreadCancel _ | .pthreadJoin _ | .waitpid _ | .rename _ _ | .symlink _ _
  | .copyfile _ _ | .openCreate _ | .lseekEnd _ | .dprintf _ _ => true
  | _ => false

/-- The calls that `bootstrap()` makes, but for those of its last step. -/
def isBootstrapCall : Call → Bool
  | .openRoot | .fsSnapshotRename _ _ _ => true
  | c => isDeployCall c || isPlainCall c

theorem isPlainCall_of_move {c : Call} (h : isMoveCall c = true) : isPlainCall c = true := by
  cases c <;> first | exact h | rfl

theorem isDeployCall_of_move {c : Call} (h : isMoveCall c = true) : isDeployCall c = true := by
  cases c <;> first | rfl | cases h

theorem isBootstrapCall_of_deploy {c : Call} (h : isDeployCall c = true) :
    isBootstrapCall c = true := by
  cases c <;> first | exact h | rfl | exact Bool.or_eq_true_iff.mpr (.inl h)

theorem isBootstrapCall_of_plain {c : Call} (h : isPlainCall c = true) :
    isBootstrapCall c = true := by
  cases c <;> first | rfl | cases h

section

variable {S α ε : Type} {step : S → Event Answer → S → Prop} {flags : Flags}

namespace Ignores

section

variable {calls : Call → Bool} (h : Ignores step calls)

include h

theorem sys {c : Call} (hc : calls c = true) :
    Unseen step (sys c : Proc Answer ε (Answer c)) :=
  (h.quiet hc).unseen

theorem run {c : Call} (hc : calls c = true) : Quiet step (run c) :=
  .bind (h.quiet hc) fun _ => .pure ()

end

theorem assure (cond : Bool) (code : ErrorCode) (description : CStr) :
    Unseen step (assure cond code description) :=
  .ite (.pure ()) (.throw _)

theorem assureCleanup {cleanup : Daemon Unit} (hcleanup : Quiet step cleanup) (cond : Bool)
    (code : ErrorCode) (description : CStr) :
    Unseen step (assureCleanup cond cleanup code description) :=
  .ite (.pure ()) (.bind hcleanup.unseen fun _ => .throw _)

/-! ## Moves -/

section

variable (h : Ignores step isMoveCall)

include h

theorem removeTpath (tarPath : CStr) : Quiet step (removeTpath tarPath) :=
  .bind (run h rfl) fun _ => .bind (run h rfl) fun _ => run h rfl

theorem rmStrap (tarPath : CStr) : Quiet step (rmStrap tarPath) :=
  .bind (removeTpath h _) fun _ => run h rfl

theorem killTarZstd : Quiet step killTarZstd :=
  .bind (run h rfl) fun _ => run h rfl

theorem pathExists (path : String) : Unseen step (pathExists path : Proc Answer ε Bool) :=
  .bind (sys h rfl) fun _ => .pure _

theorem allExist (paths : List String) : Unseen step (allExist paths : Proc Answer ε Bool) := by
  induction paths with
  | nil => exact .pure _
  | cons path paths ih => exact .bind (pathExists h _) fun _ => .ite ih (.pure _)

theorem anyExists (paths : List String) : Unseen step (anyExists paths : Proc Answer ε Bool) := by
  induction paths with
  | nil => exact .pure _
  | cons path paths ih => exact .bind (pathExists h _) fun _ => .ite (.pure _) ih

theorem checkTarZstd (tarPath : CStr) (statZstd statTar : ℕ) :
    Unseen step (checkTarZstd tarPath statZstd statTar) :=
  .bind (assureCleanup (removeTpath h _) _ _ _) fun _ =>
    .bind (assureCleanup (removeTpath h _) _ _ _) fun _ =>
      .bind (assureCleanup (removeTpath h _) _ _ _) fun _ =>
        assureCleanup (removeTpath h _) _ _ _

theorem copyfileWithCheck (tarPath src dst : CStr) :
    Unseen step (copyfileWithCheck tarPath src dst) :=
  .bind (sys h rfl) fun _ => assureCleanup (rmStrap h _) _ _ _

theorem removeExtrationVar (tarPath : CStr) : Unseen step (removeExtrationVar tarPath) :=
  .ite (run h rfl).unseen (.pure _)

theorem moveIntoPlace (tarPath : CStr) : Unseen step (moveIntoPlace flags tarPath) := by
  unfold Palera1nd.moveIntoPlace
  refine .ite ?_ (.pure _)
  refine .bind (sys h rfl) fun _ => .bind (assureCleanup (removeTpath h _) _ _ _) fun _ => ?_
  refine .bind (sys h rfl) fun _ => .bind (removeExtrationVar h _) fun _ => ?_
  refine .bind (assureCleanup (removeTpath h _) _ _ _) fun _ => .bind (sys h rfl) fun _ => ?_
  refine .bind (assureCleanup (removeTpath h _) _ _ _) fun _ => ?_
  exact .bind (copyfileWithCheck h _ _ _) fun _ => .bind (copyfileWithCheck h _ _ _) fun _ =>
    copyfileWithCheck h _ _ _

theorem loadDaemons (tarPath : CStr) {P : S → Prop} {Q : Except Fault Unit → S → Prop}
    (hlast : ∀ launchPath, Triple step P (bootstrapDaemons launchPath) Q fun _ => P) :
    Triple step P (loadDaemons flags tarPath) Q (fun _ => P) := by
  unfold Palera1nd.loadDaemons
  exact .bind ((sys h rfl).triple P) fun ret =>
    .bind ((assureCleanup (rmStrap h _) _ _ _).triple P) fun _ => hlast _

end

/-! ## Plain steps -/

section

variable (h : Ignores step isPlainCall)

include h

theorem plainMove : Ignores step isMoveCall := fun c hc => h c (isPlainCall_of_move hc)

theorem checkNotBootstrapped : Unseen step (checkNotBootstrapped flags) := by
  unfold Palera1nd.checkNotBootstrapped
  refine .ite ?_ ?_
  · refine .bind (sys h rfl) fun _ => .bind (assure _ _ _) fun _ => .bind (sys h rfl) fun r => ?_
    cases r with
    | error _ => exact .throw _
    | ok _ => exact assure _ _ _
  · refine .bind (quiet_jailbreakGetPrebootPath (h.quiet rfl) (h.quiet rfl) (fun _ => h.quiet rfl)
      fun _ => h.quiet rfl).unseen fun r => ?_
    cases r with
    | ok _ => exact .throw _
    | error _ => exact assure _ _ _

theorem checkRequest (request : BootstrapRequest) : Unseen step (checkRequest request) := by
  unfold Palera1nd.checkRequest
  cases request.path with
  | none => exact .throw _
  | some path =>
    exact .bind (assure _ _ _) fun _ => .bind (assure _ _ _) fun _ => .bind (sys h rfl) fun _ =>
      .bind (assure _ _ _) fun _ => .pure _

theorem remount : Unseen step (remount flags) :=
  .ite (.bind (sys h rfl) fun _ => assure _ _ _) (.bind (sys h rfl) fun _ => assure _ _ _)

theorem removeBogusVarJb : Unseen step (removeBogusVarJb : Proc Answer ε ℤ) := by
  have hunlink : Unseen step (do
      let r ← Palera1nd.sys (.unlink varJb)
      return if ok r then 0 else -1 : Proc Answer ε ℤ) := .bind (sys h rfl) fun _ => .pure _
  unfold Palera1nd.removeBogusVarJb
  refine .bind (sys h rfl) fun r => ?_
  cases r with
  | error _ => exact .pure _
  | ok mode =>
    refine .ite ?_ (.ite ?_ (.pure _))
    · refine .bind (sys h rfl) fun r => ?_
      cases r with
      | error _ => exact .pure _
      | ok link =>
        exact .ite hunlink (.ite (.bind (allExist (plainMove h) _) fun _ => .ite hunlink (.pure _)) (.pure _))
    · refine .bind (anyExists (plainMove h) _) fun _ => .ite (.pure _) (.bind (anyExists (plainMove h) _) fun _ => ?_)
      exact .ite (.bind (sys h rfl) fun _ => .pure _) (.pure _)

theorem checkVarJb : Unseen step checkVarJb := by
  unfold Palera1nd.checkVarJb
  refine .bind (sys h rfl) fun r => ?_
  cases r with
  | error _ => exact assure _ _ _
  | ok _ => exact assure _ _ _

theorem clearVarJb : Unseen step clearVarJb :=
  .bind (removeBogusVarJb h) fun _ => .bind (checkVarJb h) fun _ => .bind (sys h rfl) fun _ =>
    assure _ _ _

theorem makeTarPath : Unseen step (makeTarPath flags) := by
  unfold Palera1nd.makeTarPath
  refine .ite (.pure _) (.bind (sys h rfl) fun _ => .bind (assure _ _ _) fun _ => ?_)
  refine .bind (sys h rfl) fun r => ?_
  cases r with
  | error _ => exact .throw _
  | ok _ =>
    exact .bind (sys h rfl) fun _ => .bind (assure _ _ _) fun _ => .bind (clearVarJb h) fun _ =>
      .pure _

end

/-! ## From the extraction on -/

section

variable (h : Ignores step isDeployCall)

include h

theorem move : Ignores step isMoveCall := fun c hc => h c (isDeployCall_of_move hc)

/-! ### Cleanups -/

theorem closePair (fds : ℤ × ℤ) : Quiet step (closePair fds) :=
  .bind (run h rfl) fun _ => run h rfl

theorem tsdeClose (stream : ℤ × ℤ) (tarStderr : ℤ) : Quiet step (tsdeClose stream tarStderr) :=
  .bind (run h rfl) fun _ => run h rfl

theorem closeTarPipes (fds : TarPipes) : Quiet step (closeTarPipes fds) :=
  .bind (closePair h _) fun _ => .bind (tsdeClose h _ _) fun _ => closePair h _

theorem joinTarZstd (fds : TarPipes) : Quiet step (joinTarZstd fds) :=
  .bind (run h rfl) fun _ => .bind (run h rfl) fun _ => .bind (run h rfl) fun _ =>
    .bind (run h rfl) fun _ => .bind (run h rfl) fun _ => run h rfl

theorem clPstrapFd (stdErr stdOut : ℤ × ℤ) : Quiet step (clPstrapFd stdErr stdOut) :=
  .bind (closePair h _) fun _ => closePair h _

theorem pstrapEndC (stdErr stdOut : ℤ × ℤ) : Quiet step (pstrapEndC stdErr stdOut) :=
  .bind (run h rfl) fun _ => .bind (run h rfl) fun _ => .bind (run h rfl) fun _ =>
    .bind (run h rfl) fun _ => .bind (run h rfl) fun _ => run h rfl

theorem clPwOutfd (stdin fds : ℤ × ℤ) : Quiet step (clPwOutfd stdin fds) :=
  .bind (run h rfl) fun _ => run h rfl

theorem clPwfds (fds : PwPipes) : Quiet step (clPwfds fds) :=
  .bind (closePair h _) fun _ => .bind (clPwOutfd h _ _) fun _ => clPwOutfd h _ _

theorem pwClean (fds : PwPipes) : Quiet step (pwClean fds) :=
  .bind (run h rfl) fun _ => .bind (run h rfl) fun _ => .bind (run h rfl) fun _ =>
    .bind (run h rfl) fun _ => .bind (run h rfl) fun _ => run h rfl

/-! ### The extraction -/

theorem openTarPipes : Unseen step openTarPipes := by
  unfold Palera1nd.openTarPipes
  refine .bind (sys h rfl) fun r => ?_
  cases r with
  | error _ => exact .throw _
  | ok stream =>
    refine .bind (sys h rfl) fun r => ?_
    cases r with
    | error _ => exact .bind (closePair h _).unseen fun _ => .throw _
    | ok tarStderr =>
      refine .bind (sys h rfl) fun r => ?_
      cases r with
      | error _ =>
        exact .bind (closePair h _).unseen fun _ => .bind (tsdeClose h _ _).unseen fun _ => .throw _
      | ok zstdStderr => exact .pure _

theorem spawnTarZstd (fds : TarPipes) (tarPath path : CStr) :
    Unseen step (spawnTarZstd fds tarPath path) :=
  .bind (sys h rfl) fun _ => .bind (assureCleanup (closeTarPipes h _) _ _ _) fun _ =>
    .bind (sys h rfl) fun _ =>
      .bind (assureCleanup (.bind (closeTarPipes h _) fun _ => run h rfl) _ _ _) fun _ =>
        .bind (closePair h _).unseen fun _ => .bind (run h rfl).unseen fun _ => (run h rfl).unseen

theorem runTarZstd (fds : TarPipes) : Unseen step (runTarZstd fds) := by
  unfold Palera1nd.runTarZstd
  refine .bind (sys h rfl) fun _ => .bind (assureCleanup (killTarZstd (move h)) _ _ _) fun _ => ?_
  refine .bind (sys h rfl) fun _ => .bind (assureCleanup (killTarZstd (move h)) _ _ _) fun _ => ?_
  refine .bind (sys h rfl) fun _ => .bind (assureCleanup (killTarZstd (move h)) _ _ _) fun _ => ?_
  refine .bind (sys h rfl) fun _ => .bind (assureCleanup (killTarZstd (move h)) _ _ _) fun _ => ?_
  refine .bind (sys h rfl) fun r => ?_
  cases r with
  | error _ => exact .bind (joinTarZstd h _).unseen fun _ => .throw _
  | ok statZstd =>
    refine .bind (sys h rfl) fun r => ?_
    cases r with
    | error _ => exact .bind (joinTarZstd h _).unseen fun _ => .throw _
    | ok statTar => exact .bind (joinTarZstd h _).unseen fun _ => .pure _

theorem extract (tarPath path : CStr) : Unseen step (extract tarPath path) :=
  .bind (openTarPipes h) fun _ => .bind (spawnTarZstd h _ _ _) fun _ =>
    .bind (runTarZstd h _) fun _ => checkTarZstd (move h) _ _ _

/-! ### `prep_bootstrap.sh` -/

theorem openPrepPipes (tarPath : CStr) : Unseen step (openPrepPipes tarPath) := by
  unfold Palera1nd.openPrepPipes
  refine .bind (sys h rfl) fun r => ?_
  cases r with
  | error _ => exact .bind (rmStrap (move h) _).unseen fun _ => .throw _
  | ok stdErr =>
    refine .bind (sys h rfl) fun r => ?_
    cases r with
    | error _ =>
      exact .bind (closePair h _).unseen fun _ => .bind (rmStrap (move h) _).unseen fun _ =>
        .throw _
    | ok stdOut => exact .pure _

theorem createPrepThreads (tarPath : CStr) (stdErr stdOut : ℤ × ℤ) :
    Unseen step (createPrepThreads tarPath stdErr stdOut) := by
  have hcleanup : Quiet step (do
      Palera1nd.clPstrapFd stdErr stdOut
      Palera1nd.rmStrap tarPath) := .bind (clPstrapFd h _ _) fun _ => rmStrap (move h) _
  exact .bind (sys h rfl) fun _ => .bind (assureCleanup hcleanup _ _ _) fun _ =>
    .bind (sys h rfl) fun _ => assureCleanup hcleanup _ _ _

theorem runPrepBootstrap (tarPath : CStr) (stdErr stdOut : ℤ × ℤ) :
    Unseen step (runPrepBootstrap flags tarPath stdErr stdOut) := by
  unfold Palera1nd.runPrepBootstrap
  refine .bind (sys h rfl) fun _ => .bind (run h rfl).unseen fun _ => ?_
  refine .bind (run h rfl).unseen fun _ =>
    .bind (assureCleanup (.bind (pstrapEndC h _ _) fun _ => rmStrap (move h) _) _ _ _) fun _ => ?_
  refine .bind (sys h rfl) fun r => ?_
  cases r with
  | error _ =>
    exact .bind (pstrapEndC h _ _).unseen fun _ => .bind (rmStrap (move h) _).unseen fun _ =>
      .throw _
  | ok status => exact .bind (pstrapEndC h _ _).unseen fun _ => .pure _

theorem prepBootstrap (tarPath : CStr) : Unseen step (prepBootstrap flags tarPath) :=
  .bind (sys h rfl) fun _ => .bind (assureCleanup (rmStrap (move h) _) _ _ _) fun _ =>
    .bind (openPrepPipes h _) fun _ => .bind (createPrepThreads h _ _ _) fun _ =>
      .bind (runPrepBootstrap h _ _ _) fun _ =>
        .bind (assureCleanup (rmStrap (move h) _) _ _ _) fun _ =>
          assureCleanup (rmStrap (move h) _) _ _ _

/-! ### Setting the passwords -/

theorem openPwPipes (tarPath : CStr) : Unseen step (openPwPipes tarPath) := by
  unfold Palera1nd.openPwPipes
  refine .bind (sys h rfl) fun r => ?_
  cases r with
  | error _ => exact .bind (rmStrap (move h) _).unseen fun _ => .throw _
  | ok stdin =>
    refine .bind (sys h rfl) fun r => ?_
    cases r with
    | error _ =>
      exact .bind (rmStrap (move h) _).unseen fun _ => .bind (closePair h _).unseen fun _ =>
        .throw _
    | ok stdout =>
      refine .bind (sys h rfl) fun r => ?_
      cases r with
      | error _ =>
        exact .bind (rmStrap (move h) _).unseen fun _ => .bind (closePair h _).unseen fun _ =>
          .bind (clPwOutfd h _ _).unseen fun _ => .throw _
      | ok stderr => exact .pure _

theorem createPwThreads (tarPath : CStr) (fds : PwPipes) :
    Unseen step (createPwThreads tarPath fds) :=
  .bind (sys h rfl) fun _ =>
    .bind (assureCleanup (.bind (clPwfds h _) fun _ => rmStrap (move h) _) _ _ _) fun _ =>
      .bind (sys h rfl) fun _ => assureCleanup (.bind (run h rfl) fun _ =>
        .bind (clPwfds h _) fun _ => .bind (rmStrap (move h) _) fun _ => run h rfl) _ _ _

theorem checkPwPath (fds : PwPipes) : Unseen step (checkPwPath flags fds) :=
  .bind (sys h rfl) fun _ => assureCleanup (.bind (run h rfl) fun _ => .bind (run h rfl) fun _ =>
    .bind (clPwfds h _) fun _ => .bind (run h rfl) fun _ => run h rfl) _ _ _

theorem runPw (tarPath : CStr) (fds : PwPipes) (input arg3 arg4 : CStr) :
    Unseen step (runPw flags tarPath fds input arg3 arg4) := by
  unfold Palera1nd.runPw
  refine .bind (sys h rfl) fun _ => .bind (run h rfl).unseen fun _ => ?_
  refine .bind (run h rfl).unseen fun _ => .bind (run h rfl).unseen fun _ => ?_
  refine .bind (assureCleanup (.bind (run h rfl) fun _ => .bind (pwClean h _) fun _ =>
    rmStrap (move h) _) _ _ _) fun _ => ?_
  refine .bind (run h rfl).unseen fun _ => .bind (run h rfl).unseen fun _ => ?_
  refine .bind (sys h rfl) fun r => ?_
  cases r with
  | error _ =>
    exact .bind (pwClean h _).unseen fun _ => .bind (rmStrap (move h) _).unseen fun _ => .throw _
  | ok status => exact .bind (pwClean h _).unseen fun _ => .pure _

theorem spawnPw (tarPath input arg3 arg4 : CStr) :
    Unseen step (spawnPw flags tarPath input arg3 arg4) :=
  .bind (openPwPipes h _) fun _ => .bind (createPwThreads h _ _) fun _ =>
    .bind (checkPwPath h _) fun _ => .bind (runPw h _ _ _ _ _) fun _ =>
      .bind (assureCleanup (rmStrap (move h) _) _ _ _) fun _ =>
        assureCleanup (rmStrap (move h) _) _ _ _

theorem setPasswords (tarPath : CStr) (request : BootstrapRequest) :
    Unseen step (setPasswords flags tarPath request) :=
  .ite (.bind (spawnPw h _ _ _ _) fun _ => spawnPw h _ _ _ _)
    (.bind (spawnPw h _ _ _ _) fun _ => spawnPw h _ _ _ _)

/-! ### The end -/

theorem markInstalled (tarPath : CStr) (request : BootstrapRequest) :
    Unseen step (markInstalled flags tarPath request) := by
  unfold Palera1nd.markInstalled
  refine .bind (sys h rfl) fun r => ?_
  cases r with
  | error _ => exact .bind (rmStrap (move h) _).unseen fun _ => .throw _
  | ok fd =>
    exact .bind (run h rfl).unseen fun _ => .bind (run h rfl).unseen fun _ =>
      .bind (run h rfl).unseen fun _ => (run h rfl).unseen

theorem deploy (request : BootstrapRequest) (tarPath path : CStr) {P : S → Prop}
    {Q : Except Fault Unit → S → Prop}
    (hlast : ∀ launchPath, Triple step P (bootstrapDaemons launchPath) Q fun _ => P) :
    Triple step P (deploy flags request tarPath path) (fun r => Q (r.map fun _ => ()))
      (fun _ => P) := by
  unfold Palera1nd.deploy
  refine .bind ((extract h _ _).triple P) fun _ => ?_
  refine .bind ((moveIntoPlace (move h) _).triple P) fun _ => ?_
  refine .bind ((prepBootstrap h _).triple P) fun _ => ?_
  refine .bind ((setPasswords h _ _).triple P) fun _ => ?_
  refine .bind ((markInstalled h _ _).triple P) fun _ => ?_
  refine .bind (loadDaemons (move h) _ hlast) fun r => ?_
  cases r with
  | error fault => exact Triple.pure fun _ hs => hs
  | ok _ =>
    dsimp only
    split
    · exact Triple.pure fun _ hs => hs
    · exact Triple.pure fun _ hs => hs

end

/-! ## The whole -/

variable (h : Ignores step isBootstrapCall)

include h

theorem plain : Ignores step isPlainCall := fun c hc => h c (isBootstrapCall_of_plain hc)

theorem deployCalls : Ignores step isDeployCall := fun c hc => h c (isBootstrapCall_of_deploy hc)

theorem renameSnapshot : Unseen step renameSnapshot :=
  .bind (sys h rfl) fun _ => .bind (assure _ _ _) fun _ => .bind (sys h rfl) fun _ =>
    .bind (sys h rfl) fun _ => .bind (assure _ _ _) fun _ => (run h rfl).unseen

theorem prepareVolume : Unseen step (prepareVolume flags) :=
  .bind (sys h rfl) fun _ => .bind (assure _ _ _) fun _ => .bind (remount (plain h)) fun _ =>
    .ite (renameSnapshot h) (.pure _)

/-- A failure leaves the state as it is; otherwise the last step has been taken. -/
theorem bootstrap (request : BootstrapRequest) {P : S → Prop} {Q : Except Fault Unit → S → Prop}
    (hlast : ∀ launchPath, Triple step P (bootstrapDaemons launchPath) Q fun _ => P) :
    Triple step P (bootstrap flags request) (fun r => Q (r.map fun _ => ())) (fun _ => P) := by
  unfold Palera1nd.bootstrap
  refine .bind ((assure _ _ _).triple P) fun _ => ?_
  refine .bind ((checkNotBootstrapped (plain h)).triple P) fun _ => ?_
  refine .bind ((checkRequest (plain h) _).triple P) fun path => ?_
  refine .bind ((prepareVolume h).triple P) fun _ => ?_
  refine .bind ((makeTarPath (plain h)).triple P) fun tarPath => ?_
  exact deploy (deployCalls h) request tarPath path hlast

end Ignores

end

end Jbinit.Palera1nd

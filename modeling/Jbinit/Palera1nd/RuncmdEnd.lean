import Jbinit.Palera1nd.Runcmd

/-!
# The end of a command

A command that writes more than a pipe holds waits until it is read, and palera1nd waits for the
command. No state is a deadlock, since both threads read until the command has exited
(`runcmd_finishes`). In the end the caller gets what `posix_spawn` and `waitpid` have returned, as
from the request handler (`runcmd_replies`).
-/

namespace Jbinit.Palera1nd.Runcmd

open Foundations Calls Transitions LittleEndian

/-- What palera1nd and its threads do, and the end of the command after the `write` that it is in. -/
def Label.Own (retval : ℤ) (status : ℕ) : Label → Prop
  | .palera1nd value => value = retval
  | .exit value => value = status
  | .enterRead _ | .readData _ _ | .log _ | .stop _ | .put _ _ => True
  | _ => False

variable {base : Dict} {s s' s'' : State} {capacity : ℕ} {retval : ℤ} {status : ℕ}

theorem Label.Own.ne_fail {l : Label} (h : l.Own retval status) : l ≠ .fail := by
  rintro rfl
  exact h

/-- Steps of palera1nd and its threads lead there. -/
def Reaches (capacity : ℕ) (retval : ℤ) (status : ℕ) (s s' : State) : Prop :=
  ∃ run, IsRun (Step capacity) s run ∧ (∀ p ∈ run, p.1.Own retval status) ∧ final s run = s'

namespace Reaches

theorem refl (s : State) : Reaches capacity retval status s s := ⟨[], trivial, by simp, rfl⟩

theorem single {l : Label} (hs : Step capacity s l s') (hl : l.Own retval status) :
    Reaches capacity retval status s s' :=
  ⟨[(l, s')], ⟨hs, trivial⟩, by simpa using hl, rfl⟩

theorem trans (h : Reaches capacity retval status s s') (h' : Reaches capacity retval status s' s'') :
    Reaches capacity retval status s s'' := by
  obtain ⟨run, hrun, hown, rfl⟩ := h
  obtain ⟨run', hrun', hown', rfl⟩ := h'
  refine ⟨run ++ run', isRun_append_iff.mpr ⟨hrun, hrun'⟩, fun p hp => ?_, final_append s run run'⟩
  rcases List.mem_append.mp hp with hp | hp
  · exact hown p hp
  · exact hown' p hp

end Reaches

theorem Inv.of_reaches (h : Inv base s) (hreaches : Reaches capacity retval status s s') :
    Inv base s' := by
  obtain ⟨run, hrun, hown, rfl⟩ := hreaches
  exact h.of_isRun hrun ((meets_succeeds_iff hrun).mp fun p hp => (hown p hp).ne_fail)

/-! ## Reading -/

/-- The thread reads. -/
structure Reading (k : Control) (c : Stream) : Prop where
  created : (k.ends c).created = true
  cancelled : (k.ends c).cancelled = false
  opened : (k.ends c).readEnd = .opened

/-- Only the pipes and the threads are changed. -/
structure Kept (s s' : State) : Prop where
  code : s'.code = s.code
  control : s'.control = s.control
  child : s'.child = s.child

theorem Kept.refl (s : State) : Kept s s := ⟨rfl, rfl, rfl⟩

theorem Kept.trans (h : Kept s s') (h' : Kept s' s'') : Kept s s'' :=
  ⟨h'.code.trans h.code, h'.control.trans h.control, h'.child.trans h.child⟩

theorem kept_setChannel (s : State) (c : Stream) (ch : Channel) : Kept s (s.setChannel c ch) :=
  ⟨rfl, rfl, rfl⟩

variable (capacity retval status) in
theorem exists_inRead (h : Inv base s) {c : Stream} (hc : Reading s.control c) :
    ∃ s', Reaches capacity retval status s s' ∧ Kept s s' ∧ (s'.channel c).logger = .inRead ∧
      (s'.channel c).pipe = (s.channel c).pipe := by
  have henter {s : State} (hlooping : (s.channel c).logger = .looping)
      (hcancelled : (s.control.ends c).cancelled = false) :
      Step capacity s (.enterRead c) (s.setChannel c { s.channel c with logger := .inRead }) :=
    if_pos ⟨hlooping, hcancelled⟩
  have hinRead (s : State) :
      ((s.setChannel c { s.channel c with logger := .inRead }).channel c).logger = .inRead ∧
        ((s.setChannel c { s.channel c with logger := .inRead }).channel c).pipe =
          (s.channel c).pipe := by
    rw [setChannel_channel_self]
    exact ⟨rfl, rfl⟩
  cases hlogger : (s.channel c).logger with
  | none =>
    have hcreated := (h.channels c).logger.mp hlogger
    rw [hc.created] at hcreated
    cases hcreated
  | exited => exact absurd hlogger ((h.channels c).alive hc.cancelled hc.opened)
  | inRead => exact ⟨s, .refl s, .refl s, hlogger, rfl⟩
  | looping =>
    exact ⟨_, .single (henter hlogger hc.cancelled) trivial, kept_setChannel _ _ _, hinRead s⟩
  | logging bytes =>
    have hlog : Step capacity s (.log c) (s.setChannel c { s.channel c with
        logger := .looping, reads := (s.channel c).reads ++ [bytes] }) := by
      simp only [Step, step, hlogger]
    refine ⟨_, .trans (.single hlog trivial) (.single (henter ?_ hc.cancelled) trivial),
      (kept_setChannel _ _ _).trans (kept_setChannel _ _ _), (hinRead _).1, (hinRead _).2.trans ?_⟩
    · rw [setChannel_channel_self]
    · rw [setChannel_channel_self]

variable (capacity retval status) in
/-- The thread can read all that there is in its pipe. -/
theorem exists_emptied (h : Inv base s) {c : Stream} (hc : Reading s.control c) :
    ∃ s', Reaches capacity retval status s s' ∧ Kept s s' ∧ (s'.channel c).pipe = [] := by
  induction hn : (s.channel c).pipe.length using Nat.strong_induction_on generalizing s with
  | h n ih =>
    by_cases hpipe : (s.channel c).pipe = []
    · exact ⟨s, .refl s, .refl s, hpipe⟩
    have hpos : 0 < (s.channel c).pipe.length := List.length_pos_of_ne_nil hpipe
    have hbufSize : 0 < bufSize := by decide
    obtain ⟨s₁, hreaches₁, hkept₁, hlogger, hsame⟩ := exists_inRead capacity retval status h hc
    have hopened : (s₁.control.ends c).readEnd = .opened := by
      rw [hkept₁.control]
      exact hc.opened
    have hread : Step capacity s₁ (.readData c (min n bufSize)) (s₁.setChannel c { s₁.channel c with
        pipe := (s₁.channel c).pipe.drop (min n bufSize)
        logger := .logging ((s₁.channel c).pipe.take (min n bufSize)) }) :=
      if_pos ⟨hlogger, hopened, by omega, Nat.min_le_right _ _, by rw [hsame]; omega⟩
    have hreaches₂ := hreaches₁.trans (.single hread trivial)
    obtain ⟨s₃, hreaches₃, hkept₃, hempty⟩ := ih (n - min n bufSize) (by omega)
      (h.of_reaches hreaches₂) (hkept₁.control ▸ hc)
      (by rw [setChannel_channel_self, List.length_drop, hsame, hn])
    exact ⟨s₃, hreaches₂.trans hreaches₃, (hkept₁.trans (kept_setChannel _ _ _)).trans hkept₃, hempty⟩

/-! ## The command -/

variable (retval status) in
/-- A command that is in `write` can end it. -/
theorem exists_running (h : Inv base s) (hcapacity : pipeBuf ≤ capacity)
    (hreading : ∀ c, Reading s.control c) {c : Stream} {w : Write} (hwriting : s.child = .writing c w) :
    ∃ s', Reaches capacity retval status s s' ∧ s'.code = s.code ∧ s'.child = .running := by
  induction hn : w.bytes.length using Nat.strong_induction_on generalizing s w with
  | h n ih =>
    obtain ⟨s₁, hreaches₁, hkept₁, hempty⟩ := exists_emptied capacity retval status h (hreading c)
    have hopened : (s₁.control.ends c).readEnd = .opened := by
      rw [hkept₁.control]
      exact (hreading c).opened
    have hpos : 0 < w.bytes.length := List.length_pos_of_ne_nil w.nonempty
    have hpipeBuf : 0 < pipeBuf := by decide
    have hatomic : w.atomic = true → min n capacity = w.bytes.length := by
      intro hatomic
      have hsmall := w.small hatomic
      omega
    have hput : Step capacity s₁ (.put c (min n capacity)) { s₁.setChannel c { s₁.channel c with
        pipe := (s₁.channel c).pipe ++ w.bytes.take (min n capacity)
        written := (s₁.channel c).written ++ w.bytes.take (min n capacity) } with
        child := .afterPut c w (min n capacity) } := by
      simp only [Step, step, hkept₁.child, hwriting]
      exact if_pos ⟨trivial, by omega, by omega, hatomic, hopened, by rw [hempty]; simp⟩
    have hreaches₂ := hreaches₁.trans (.single hput trivial)
    have hrest : w.rest (min n capacity) = none ∨ ∃ w', w.rest (min n capacity) = some w' ∧
        w'.bytes.length < n := by
      unfold Write.rest
      split
      · refine .inr ⟨_, rfl, ?_⟩
        rw [List.length_drop]
        omega
      · exact .inl rfl
    rcases hrest with hnone | ⟨w', hsome, hlt⟩
    · refine ⟨_, hreaches₂, hkept₁.code, ?_⟩
      show Child.afterPut c w (min n capacity) = .running
      rw [Child.afterPut, hnone]
    · have hchild : Child.afterPut c w (min n capacity) = .writing c w' := by
        rw [Child.afterPut, hsome]
      obtain ⟨s₃, hreaches₃, hcode, hrunning⟩ := ih w'.bytes.length hlt (h.of_reaches hreaches₂)
        (fun c => hkept₁.control ▸ hreading c) hchild rfl
      exact ⟨s₃, hreaches₂.trans hreaches₃, hcode.trans hkept₁.code, hrunning⟩

variable (retval status) in
/-- A command that is waited for can exit. -/
theorem Inv.exists_exited (h : Inv base s) (hcapacity : pipeBuf ≤ capacity) {next : Code}
    (hcode : s.code = .call .waitpid next) :
    ∃ s' status', Reaches capacity retval status s s' ∧ s'.code = s.code ∧
      s'.child = .exited status' := by
  have hsafe := h.safe
  rw [hcode] at hsafe
  simp only [Code.safe, Action.allowed, Action.drained, Bool.and_eq_true, Bool.not_eq_true',
    decide_eq_true_eq] at hsafe
  obtain ⟨⟨⟨⟨-, hbranch, -⟩, hresumed, hdrained⟩, -⟩, -⟩ := hsafe
  have hreading (c : Stream) : Reading s.control c := by
    have hc := allStreams_iff.mp hdrained c
    simp only [Bool.and_eq_true, Bool.not_eq_true', decide_eq_true_eq] at hc
    exact ⟨hc.1.1, hc.1.2, hc.2⟩
  have hexit {s : State} (hrunning : s.child = .running) :
      Step capacity s (.exit status) { s with child := .exited status } := if_pos hrunning
  cases hchild : s.child with
  | none =>
    have hspawned : s.control.spawned = true := by
      by_contra hspawned
      rw [h.order.1 (by simpa using hspawned)] at hbranch
      cases hbranch
    exact absurd hchild ((h.child hspawned).mp ((h.branch _ hbranch).mp rfl))
  | suspended => exact absurd hchild (h.resumed hresumed)
  | exited status' => exact ⟨s, status', .refl s, rfl, hchild⟩
  | running => exact ⟨_, status, .single (hexit hchild) rfl, rfl, rfl⟩
  | writing c w =>
    obtain ⟨s₁, hreaches, hcode₁, hrunning⟩ := exists_running retval status h hcapacity
      hreading hchild
    exact ⟨_, status, hreaches.trans (.single (hexit hrunning) rfl), hcode₁, rfl⟩

/-! ## palera1nd -/

theorem step_palera1nd (s : State) {a : Action} {next : Code} (hcode : s.code = .call a next)
    {s₁ : State} (hs : perform s retval a = some s₁) :
    Step capacity s (.palera1nd retval)
      { s₁ with code := next, control := a.effect s₁.control } := by
  show advance s retval = some _
  rw [advance, hcode]
  dsimp only
  rw [hs]
  rfl

variable (retval status) in
/-- In front of every action the command can exit, or a thread can end, so that palera1nd goes on. -/
theorem Inv.goes_on (h : Inv base s) (hcapacity : pipeBuf ≤ capacity) {a : Action} {next : Code}
    (hcode : s.code = .call a next) :
    ∃ s', Reaches capacity retval status s s' ∧ s'.code = next := by
  have hready {s : State} (hcode : s.code = .call a next)
      (hperform : ∃ s₁, perform s retval a = some s₁) :
      ∃ s', Reaches capacity retval status s s' ∧ s'.code = next := by
    obtain ⟨s₁, hs⟩ := hperform
    exact ⟨_, .single (step_palera1nd s hcode hs) rfl, rfl⟩
  cases a with
  | waitpid =>
    obtain ⟨s₁, status', hreaches₁, hcode₁, hexited⟩ :=
      h.exists_exited retval status hcapacity hcode
    have hwait : perform s₁ retval .waitpid = some { s₁ with status := status' } := by
      simp only [perform, hexited]
    obtain ⟨s₂, hreaches₂, hnext⟩ := hready (hcode₁.trans hcode) ⟨_, hwait⟩
    exact ⟨s₂, hreaches₁.trans hreaches₂, hnext⟩
  | join c =>
    by_cases hexited : (s.channel c).logger = .exited
    · exact hready hcode ⟨s, if_pos hexited⟩
    have hallowed := (h.allowed hcode).1
    have hsound := h.sound c
    simp only [Action.allowed, Bool.and_eq_true] at hallowed
    simp only [Ends.sound, hallowed.1, Bool.and_eq_true, Bool.not_true, Bool.false_or] at hsound
    have hnone : (s.channel c).logger ≠ .none := fun hnone => by
      rw [(h.channels c).logger.mp hnone] at hsound
      exact absurd hsound.1.2 (by decide)
    have hstop : Step capacity s (.stop c) (s.setChannel c { s.channel c with
        logger := .exited, lost := (s.channel c).logger.hand ++ (s.channel c).lost }) :=
      if_pos ⟨hallowed.1, hnone, hexited⟩
    have hjoin : perform (s.setChannel c { s.channel c with
        logger := .exited, lost := (s.channel c).logger.hand ++ (s.channel c).lost }) retval (.join c) =
        some _ := if_pos (by rw [setChannel_channel_self])
    obtain ⟨s₂, hreaches₂, hnext⟩ := hready (by exact hcode) ⟨_, hjoin⟩
    exact ⟨s₂, .trans (.single hstop trivial) hreaches₂, hnext⟩
  | _ => exact hready hcode ⟨_, rfl⟩

variable (retval status) in
/-- The rest of the code is done. -/
theorem exists_finish (code : Code) (h : Inv base s) (hcapacity : pipeBuf ≤ capacity)
    (hcode : s.code = code) : ∃ s', Reaches capacity retval status s s' ∧ s'.code = .ret := by
  induction code generalizing s with
  | ret => exact ⟨s, .refl s, hcode⟩
  | call a next ih =>
    obtain ⟨s₁, hreaches₁, hnext⟩ := h.goes_on retval status hcapacity hcode
    obtain ⟨s₂, hreaches₂, hret⟩ := ih (h.of_reaches hreaches₁) hnext
    exact ⟨s₂, hreaches₁.trans hreaches₂, hret⟩
  | ifRetval failed spawned ihFailed ihSpawned =>
    have hadvance : advance s retval =
        if s.retval ≠ 0 then some (s.take false failed) else some (s.take true spawned) := by
      rw [advance, hcode]
    by_cases hne : s.retval ≠ 0
    · rw [if_pos hne] at hadvance
      obtain ⟨s₂, hreaches₂, hret⟩ := ihFailed ((h.take hcode).1 hne) rfl
      exact ⟨s₂, .trans (.single (l := .palera1nd retval) hadvance rfl) hreaches₂, hret⟩
    · rw [if_neg hne] at hadvance
      obtain ⟨s₂, hreaches₂, hret⟩ := ihSpawned ((h.take hcode).2 (not_not.mp hne)) rfl
      exact ⟨s₂, .trans (.single (l := .palera1nd retval) hadvance rfl) hreaches₂, hret⟩

/-- **No state is a deadlock**: whatever the command has written, palera1nd and its threads can
finish, when the command exits after its last `write`. -/
theorem runcmd_finishes {run : List (Label × State)} (hcapacity : pipeBuf ≤ capacity)
    (hrun : IsRun (Step capacity) (start base) run) (hok : ∀ p ∈ run, p.1 ≠ .fail)
    (retval : ℤ) (status : ℕ) :
    ∃ run', IsRun (Step capacity) (start base) (run ++ run') ∧
      (∀ p ∈ run', p.1.Own retval status) ∧ (final (start base) (run ++ run')).code = .ret := by
  have hinv := (inv_start base).of_isRun hrun ((meets_succeeds_iff hrun).mp hok)
  obtain ⟨s', ⟨run', hrun', hown, rfl⟩, hret⟩ := exists_finish retval status _
    hinv hcapacity rfl
  exact ⟨run', isRun_append_iff.mpr ⟨hrun, hrun'⟩, hown, by rwa [final_append]⟩

def longOutput : List Byte := List.replicate 600 0x41

theorem longOutput_ne_nil : longOutput ≠ [] := List.cons_ne_nil _ _

def longLabels : List Label := List.replicate 10 (.palera1nd 0) ++ [.write .stdout longOutput]

/-- A command that writes more than there is room for. -/
def longRun : List (Label × State) := follow (step pipeBuf) (start []) longLabels

theorem longRun_succeeds : ∀ p ∈ longRun, p.1 ≠ .fail := by
  intro p hp
  have hmem : ∀ l ∈ longLabels, l ≠ .fail := by
    intro l hl
    rcases List.mem_append.mp hl with hl | hl
    · rw [List.eq_of_mem_replicate hl]
      simp
    · rw [List.mem_singleton.mp hl]
      simp
  exact hmem p.1 (mem_of_mem_follow hp)

theorem runcmd_finishes_long :
    pipeBuf < longOutput.length ∧
      (final (start []) longRun).child = .writing .stdout (.start longOutput longOutput_ne_nil) ∧
      ∃ run', IsRun (Step pipeBuf) (start []) (longRun ++ run') ∧
        (∀ p ∈ run', p.1.Own 0 7) ∧ (final (start []) (longRun ++ run')).code = .ret := by
  refine ⟨?_, rfl, runcmd_finishes (Nat.le_refl _) (isRun_follow _ _ _) longRun_succeeds 0 7⟩
  rw [longOutput, List.length_replicate]
  decide

/-! ## The reply -/

/-- What palera1nd asks the system while a command runs. -/
def spawnedTrace (stdoutFd stderrFd : ℤ) (status : ℕ) : List (Event Answer) :=
  [⟨.pthreadCreate .stdoutThr stdoutFd, .ok ()⟩, ⟨.pthreadCreate .stderrThr stderrFd, .ok ()⟩,
    ⟨.kill .command .sigcont, .ok ()⟩, ⟨.waitpid .command, .ok status⟩,
    ⟨.pthreadCancel .stdoutThr, .ok ()⟩, ⟨.pthreadCancel .stderrThr, .ok ()⟩,
    ⟨.close stdoutFd, .ok ()⟩, ⟨.close stderrFd, .ok ()⟩, ⟨.pthreadJoin .stdoutThr, .ok ()⟩,
    ⟨.pthreadJoin .stderrThr, .ok ()⟩]

/-- What it asks for a request, with these values of `posix_spawn` and `waitpid`. -/
def commandTrace (request : Dict) (path : CStr) (pipeStdout pipeStderr : ℤ × ℤ) (retval : ℤ)
    (status : ℕ) : List (Event Answer) :=
  [⟨.pipe .pipeStdout, .ok pipeStdout⟩, ⟨.pipe .pipeStderr, .ok pipeStderr⟩,
    ⟨.spawnCommand path (request.getArray "argv") (request.getArray "envp"), retval⟩,
    ⟨.close pipeStdout.2, .ok ()⟩, ⟨.close pipeStderr.2, .ok ()⟩] ++
    if retval = 0 then spawnedTrace pipeStdout.1 pipeStderr.1 status
    else [⟨.close pipeStdout.1, .ok ()⟩, ⟨.close pipeStderr.1, .ok ()⟩]

theorem run_commandTrace {request : Dict} {path : CStr} (hpath : request.getString "path" = some path)
    (base : Dict) (pipeStdout pipeStderr : ℤ × ℤ) (retval : ℤ) (status : ℕ) :
    Run (Palera1nd.runcmd request base).run
      (commandTrace request path pipeStdout pipeStderr retval status)
      (.ok (if retval = 0 then
          (base.set "retval" (.int64 retval)).set "status" (.int64 (status : ℤ))
        else base.set "retval" (.int64 retval))) := by
  unfold Palera1nd.runcmd commandTrace
  rw [hpath]
  refine .call _ (.call _ (.call _ (.call _ (.call _ ?_))))
  by_cases hzero : retval = 0
  · subst hzero
    exact .call _ (.call _ (.call _ (.call _ (.call _ (.call _ (.call _ (.call _ (.call _
      (.call _ (.done _))))))))))
  · dsimp only
    rw [if_neg hzero, if_neg hzero, if_pos hzero]
    exact .call _ (.call _ (.done _))

/-- **The caller gets what `posix_spawn` and `waitpid` have returned**, as from the request handler. -/
theorem runcmd_replies {run : List (Label × State)} (hrun : IsRun (Step capacity) (start base) run)
    (hok : ∀ p ∈ run, p.1 ≠ .fail) (hret : (final (start base) run).code = .ret) {request : Dict}
    {path : CStr} (hpath : request.getString "path" = some path) :
    ((final (start base) run).retval = 0 →
      (final (start base) run).child = .exited (final (start base) run).status) ∧
    ∀ pipeStdout pipeStderr, Run (Palera1nd.runcmd request base).run
      (commandTrace request path pipeStdout pipeStderr (final (start base) run).retval
        (final (start base) run).status)
      (.ok (final (start base) run).reply) := by
  have h := (inv_start base).of_isRun hrun ((meets_succeeds_iff hrun).mp hok)
  have hfinished := h.finished hret
  simp only [Control.finished, Bool.and_eq_true, Option.isSome_iff_exists, decide_eq_true_eq]
    at hfinished
  obtain ⟨⟨⟨-, hretvalSet⟩, ⟨b, hb⟩⟩, hstatusSet⟩ := hfinished
  have hbranch := h.branch b hb
  have hreply := h.reply
  have horder := h.order.2.2.2.1
  have hrunning (pipeStdout pipeStderr : ℤ × ℤ) := run_commandTrace hpath base pipeStdout pipeStderr
    (final (start base) run).retval (final (start base) run).status
  rw [hb] at hstatusSet
  cases b with
  | true =>
    have hzero := hbranch.mp rfl
    have hset : (final (start base) run).control.statusSet = true := by simpa using hstatusSet
    have hwaited : (final (start base) run).control.waited = true := by
      by_contra hwaited
      rw [horder (by simpa using hwaited)] at hset
      cases hset
    rw [replyOf, hretvalSet, hset, if_pos rfl, if_pos rfl] at hreply
    refine ⟨fun _ => h.waited hwaited, fun pipeStdout pipeStderr => ?_⟩
    have hend := hrunning pipeStdout pipeStderr
    rw [if_pos hzero, ← hreply] at hend
    exact hend
  | false =>
    have hne : (final (start base) run).retval ≠ 0 := fun hzero =>
      absurd (hbranch.mpr hzero) (by decide)
    have hset : (final (start base) run).control.statusSet = false := by simpa using hstatusSet
    rw [replyOf, hretvalSet, hset, if_pos rfl, if_neg (by decide)] at hreply
    refine ⟨fun hzero => absurd hzero hne, fun pipeStdout pipeStderr => ?_⟩
    have hend := hrunning pipeStdout pipeStderr
    rw [if_neg hne, ← hreply] at hend
    exact hend

theorem runcmd_replies_plain : (final (start []) plainRun).retval = 0 ∧
    (final (start []) plainRun).status = 7 ∧
    ((final (start []) plainRun).retval = 0 →
      (final (start []) plainRun).child = .exited (final (start []) plainRun).status) ∧
    ∀ pipeStdout pipeStderr,
      Run (Palera1nd.runcmd (Dict.set [] "path" (.string "/bin/ls".toList)) []).run
        (commandTrace (Dict.set [] "path" (.string "/bin/ls".toList)) "/bin/ls".toList pipeStdout
          pipeStderr (final (start []) plainRun).retval (final (start []) plainRun).status)
        (.ok (final (start []) plainRun).reply) := by
  have hpath : Dict.getString (Dict.set [] "path" (.string "/bin/ls".toList)) "path" =
      some "/bin/ls".toList := by decide
  exact ⟨rfl, rfl, runcmd_replies isRun_plainRun plainRun_succeeds rfl hpath⟩

end Jbinit.Palera1nd.Runcmd

import Jbinit.Foundations.Transitions
import Mathlib.Logic.Function.Basic

/-!
# The crash reporter and concurrent spawns

`posix_spawn_orig_wrapper` pauses the crash reporter, calls the original `posix_spawn` and resumes
the crash reporter. The pause is a state and not a count: the first thread that resumes makes the
reporter active again, also for a thread that has paused and not yet spawned. So a spawn can meet
the exception ports exactly after such an early resume (`spawn_while_paused`,
`spawn_while_active_of_early`).
-/

namespace Jbinit.PayloadDylib

open Foundations Transitions

inductive CrashReporterState
  | notActive
  | active
  | paused
  deriving DecidableEq, Repr

inductive NSExceptionHandler
  | nil
  /-- The handler that was there before. -/
  | original
  /-- `crashreporter_catch_objc`. -/
  | catchObjc
  deriving DecidableEq, Repr

structure CrashReporter where
  state : CrashReporterState
  /-- Whether the exception ports of the task are those of the crash reporter. -/
  ports : Bool
  /-- The handler that is set. -/
  exceptionHandler : NSExceptionHandler
  defaultNSExceptionHandler : NSExceptionHandler
  deriving DecidableEq, Repr

namespace CrashReporter

def initial : CrashReporter := ⟨.notActive, false, .original, .nil⟩

def pause (r : CrashReporter) : CrashReporter :=
  if r.state = .active then
    { state := .paused
      ports := false
      exceptionHandler := r.defaultNSExceptionHandler
      defaultNSExceptionHandler := .nil }
  else r

def resume (r : CrashReporter) : CrashReporter :=
  if r.state = .paused then
    { state := .active
      ports := true
      exceptionHandler := .catchObjc
      defaultNSExceptionHandler := r.exceptionHandler }
  else r

def start (r : CrashReporter) : CrashReporter :=
  if r.state = .notActive then { r with state := .paused }.resume else r

/-- It has been started, and the ports and the handler are set when it is active. -/
structure Started (r : CrashReporter) : Prop where
  started : r.state ≠ .notActive
  ports : r.ports = true ↔ r.state = .active
  handler : r.state = .active → r.exceptionHandler = .catchObjc

theorem start_initial : Started initial.start :=
  ⟨by decide, by decide, fun _ => rfl⟩

theorem state_pause {r : CrashReporter} (h : r.Started) : r.pause.state = .paused := by
  unfold pause
  split
  case isTrue => rfl
  case isFalse hne =>
    cases hstate : r.state with
    | notActive => exact absurd hstate h.started
    | active => exact absurd hstate hne
    | paused => rfl

theorem Started.pause {r : CrashReporter} (h : r.Started) : r.pause.Started := by
  have hstate := state_pause h
  refine ⟨by simp [hstate], ?_, by simp [hstate]⟩
  unfold CrashReporter.pause
  split
  · simp
  · exact h.ports

theorem state_resume {r : CrashReporter} (h : r.Started) : r.resume.state = .active := by
  unfold resume
  split
  case isTrue => rfl
  case isFalse hne =>
    cases hstate : r.state with
    | notActive => exact absurd hstate h.started
    | active => rfl
    | paused => exact absurd hstate hne

theorem Started.resume {r : CrashReporter} (h : r.Started) : r.resume.Started := by
  unfold CrashReporter.resume
  split
  · exact ⟨by simp, by simp, fun _ => rfl⟩
  · exact h

end CrashReporter

/-! ## Threads -/

/-- Where a thread is in `posix_spawn_orig_wrapper`. -/
inductive Phase
  | outside
  /-- Before the original `posix_spawn`. -/
  | paused
  /-- After it. -/
  | spawned
  deriving DecidableEq, Repr

inductive SpawnStep (T : Type)
  | pause (t : T)
  | spawn (t : T)
  | resume (t : T)
  deriving DecidableEq

structure Spawning (T : Type) where
  phase : T → Phase
  reporter : CrashReporter

section

variable {T : Type} [DecidableEq T]

inductive Spawning.Step : Spawning T → SpawnStep T → Spawning T → Prop
  | pause {s : Spawning T} {t : T} (h : s.phase t = .outside) :
    Step s (.pause t) ⟨Function.update s.phase t .paused, s.reporter.pause⟩
  | spawn {s : Spawning T} {t : T} (h : s.phase t = .paused) :
    Step s (.spawn t) { s with phase := Function.update s.phase t .spawned }
  | resume {s : Spawning T} {t : T} (h : s.phase t = .spawned) :
    Step s (.resume t) ⟨Function.update s.phase t .outside, s.reporter.resume⟩

/-- After `crashreporter_start`. -/
def startedSpawning (T : Type) : Spawning T := ⟨fun _ => .outside, CrashReporter.initial.start⟩

/-- A spawn finds the crash reporter paused. -/
def SpawnsPaused (s : Spawning T) (step : SpawnStep T) : Prop :=
  ∀ t, step = .spawn t → s.reporter.state ≠ .active ∧ s.reporter.ports = false

/-- When no thread is in the wrapper, the crash reporter is active. -/
def ActiveWhenIdle (s : Spawning T) : Prop :=
  (∀ t, s.phase t = .outside) →
    s.reporter.state = .active ∧ s.reporter.exceptionHandler = .catchObjc

/-- No thread resumes while another has paused and not yet spawned. -/
def NoEarlyResume (s : Spawning T) (step : SpawnStep T) : Prop :=
  ∀ t, step = .resume t → ∀ t', s.phase t' ≠ .paused

/-- What holds in every state of every run. -/
structure Calm (s : Spawning T) : Prop where
  started : s.reporter.Started
  idle : ActiveWhenIdle s

theorem Calm.step (s : Spawning T) (step : SpawnStep T) (s' : Spawning T) (hs : Calm s)
    (_ : True) (hstep : s.Step step s') : Calm s' := by
  cases hstep with
  | @pause t h =>
    refine ⟨hs.started.pause, fun hidle => ?_⟩
    have ht : Function.update s.phase t .paused t = .outside := hidle t
    rw [Function.update_self] at ht
    cases ht
  | @spawn t h =>
    refine ⟨hs.started, fun hidle => ?_⟩
    have ht : Function.update s.phase t .spawned t = .outside := hidle t
    rw [Function.update_self] at ht
    cases ht
  | @resume t h =>
    have hactive := CrashReporter.state_resume hs.started
    exact ⟨hs.started.resume, fun _ => ⟨hactive, hs.started.resume.handler hactive⟩⟩

/-- The crash reporter is paused while a thread is about to spawn. -/
structure Covered (s : Spawning T) : Prop where
  calm : Calm s
  paused : ∀ t, s.phase t = .paused → s.reporter.state = .paused

theorem Covered.step (s : Spawning T) (step : SpawnStep T) (s' : Spawning T) (hs : Covered s)
    (hresume : NoEarlyResume s step) (hstep : s.Step step s') : Covered s' := by
  refine ⟨hs.calm.step s step s' trivial hstep, ?_⟩
  cases hstep with
  | pause h => exact fun _ _ => CrashReporter.state_pause hs.calm.started
  | @spawn t h => exact fun _ _ => hs.paused t h
  | @resume t h =>
    intro t' ht'
    have hphase : Function.update s.phase t .outside t' = .paused := ht'
    by_cases heq : t' = t
    · rw [heq, Function.update_self] at hphase
      cases hphase
    · rw [Function.update_of_ne heq] at hphase
      exact absurd hphase (hresume t rfl t')

omit [DecidableEq T] in
theorem calm_start : Calm (startedSpawning T) := ⟨CrashReporter.start_initial, fun _ => ⟨rfl, rfl⟩⟩

/-- **Every spawn finds the crash reporter paused** in a run in which no thread resumes while
another has paused and not yet spawned. In every run the crash reporter is active when no thread is
in the wrapper. -/
theorem spawn_while_paused {run : List (SpawnStep T × Spawning T)}
    (hrun : IsRun Spawning.Step (startedSpawning T) run) :
    (Meets NoEarlyResume (startedSpawning T) run → Meets SpawnsPaused (startedSpawning T) run) ∧
      ∀ p ∈ run, ActiveWhenIdle p.2 := by
  refine ⟨fun hresume => ?_,
    fun p hp => (hrun.invariant Calm.step calm_start (meets_true _ _) p hp).idle⟩
  refine hrun.meets Covered.step (fun s step s' hs _ hstep => ?_)
    ⟨calm_start, fun _ h => by cases h⟩ hresume
  rintro t rfl
  cases hstep with
  | spawn h =>
    have hpaused := hs.paused t h
    have hne : s.reporter.state ≠ .active := by simp [hpaused]
    exact ⟨hne, by simpa using mt hs.calm.started.ports.mp hne⟩

/-! ## Early resumes -/

/-- After a resume that is too early another thread can spawn. -/
theorem exists_spawn_of_early {s s' : Spawning T} {step : SpawnStep T} (hs : Calm s)
    (hstep : s.Step step s') (hearly : ¬NoEarlyResume s step) :
    ∃ t s'', s'.Step (.spawn t) s'' ∧ s'.reporter.state = .active := by
  unfold NoEarlyResume at hearly
  push Not at hearly
  obtain ⟨t, rfl, t', ht'⟩ := hearly
  cases hstep with
  | resume h =>
    have hne : t' ≠ t := by
      rintro rfl
      cases ht'.symm.trans h
    have hphase : Function.update s.phase t .outside t' = .paused := by
      rw [Function.update_of_ne hne, ht']
    exact ⟨t', _, .spawn hphase, CrashReporter.state_resume hs.started⟩

/-- The condition is exact: a run that ends with a resume that is too early can go on with a spawn
while the crash reporter is active. -/
theorem spawn_while_active_of_early {run : List (SpawnStep T × Spawning T)} {s' : Spawning T}
    {step : SpawnStep T} (hrun : IsRun Spawning.Step (startedSpawning T) (run ++ [(step, s')]))
    (hearly : ¬NoEarlyResume (final (startedSpawning T) run) step) :
    ∃ p, IsRun Spawning.Step (startedSpawning T) (run ++ [(step, s')] ++ [p]) ∧
      ¬Meets SpawnsPaused (startedSpawning T) (run ++ [(step, s')] ++ [p]) := by
  obtain ⟨hbefore, hstep, -⟩ := isRun_append_iff.mp hrun
  have hcalm := hbefore.invariant_final Calm.step calm_start (meets_true _ _)
  have hlast : final (startedSpawning T) (run ++ [(step, s')]) = s' := final_append _ _ _
  obtain ⟨t, s'', hspawn, hactive⟩ := exists_spawn_of_early hcalm hstep hearly
  refine ⟨(.spawn t, s''), isRun_append_iff.mpr ⟨hrun, ?_, trivial⟩, fun hmeets => ?_⟩
  · rw [hlast]
    exact hspawn
  · have hpaused := (meets_append_iff.mp hmeets).2.1 t rfl
    rw [hlast] at hpaused
    exact hpaused.1 hactive

end

/-! ## Two threads -/

/-- The state after a step. -/
def Spawning.after (s : Spawning Bool) : SpawnStep Bool → Spawning Bool
  | .pause t => ⟨Function.update s.phase t .paused, s.reporter.pause⟩
  | .spawn t => ⟨Function.update s.phase t .spawned, s.reporter⟩
  | .resume t => ⟨Function.update s.phase t .outside, s.reporter.resume⟩

def spawningRun : Spawning Bool → List (SpawnStep Bool) → List (SpawnStep Bool × Spawning Bool)
  | _, [] => []
  | s, step :: steps => (step, s.after step) :: spawningRun (s.after step) steps

/-- Both threads pause before one of them resumes, and spawn before that as well. -/
def overlappingSteps : List (SpawnStep Bool) :=
  [.pause false, .pause true, .spawn true, .spawn false, .resume false, .resume true]

theorem spawn_while_paused_overlapping :
    Meets SpawnsPaused (startedSpawning Bool) (spawningRun (startedSpawning Bool) overlappingSteps) ∧
      ∀ p ∈ spawningRun (startedSpawning Bool) overlappingSteps, ActiveWhenIdle p.2 := by
  have hrun : IsRun Spawning.Step (startedSpawning Bool)
      (spawningRun (startedSpawning Bool) overlappingSteps) :=
    ⟨.pause rfl, .pause rfl, .spawn rfl, .spawn rfl, .resume rfl, .resume rfl, trivial⟩
  have hresume : Meets NoEarlyResume (startedSpawning Bool)
      (spawningRun (startedSpawning Bool) overlappingSteps) := by
    refine ⟨?_, ?_, ?_, ?_, fun t _ t' => ?_, fun t _ t' => ?_, trivial⟩
    any_goals exact fun t h => by cases h
    · cases t' <;> decide
    · cases t' <;> decide
  exact ⟨(spawn_while_paused hrun).1 hresume, (spawn_while_paused hrun).2⟩

/-- A thread resumes between the pause and the spawn of the other. -/
theorem spawn_while_active :
    ∃ run, IsRun Spawning.Step (startedSpawning Bool) run ∧
      ¬Meets SpawnsPaused (startedSpawning Bool) run := by
  refine ⟨spawningRun (startedSpawning Bool)
    [.pause false, .pause true, .spawn false, .resume false, .spawn true],
    ⟨.pause rfl, .pause rfl, .spawn rfl, .resume rfl, .spawn rfl, trivial⟩, fun hmeets => ?_⟩
  exact (hmeets.2.2.2.2.1 true rfl).1 rfl

end Jbinit.PayloadDylib

import Mathlib.Data.List.Basic
import Mathlib.Tactic.Common

/-!
# Runs of a transition system

A run is the list of its steps, each with its label and the state it leads to. A condition on the
steps (`Meets`) speaks of the state before the step and of its label. `IsRun.invariant` proves an
invariant of the runs that meet a condition, `IsRun.invariant_iff` that the condition is exact.
-/

namespace Foundations.Transitions

variable {S L : Type}

/-- The steps of `run` are steps of the system, beginning in `s`. -/
def IsRun (step : S → L → S → Prop) : S → List (L × S) → Prop
  | _, [] => True
  | s, (l, s') :: run => step s l s' ∧ IsRun step s' run

/-- Every step of a run meets a condition on its label and on the state before it. -/
def Meets (guard : S → L → Prop) : S → List (L × S) → Prop
  | _, [] => True
  | s, (l, s') :: run => guard s l ∧ Meets guard s' run

/-- The last state of a run. -/
def final : S → List (L × S) → S
  | s, [] => s
  | _, (_, s') :: run => final s' run

variable {step : S → L → S → Prop} {guard : S → L → Prop} {Inv : S → Prop}

theorem final_append (s : S) (run run' : List (L × S)) :
    final s (run ++ run') = final (final s run) run' := by
  induction run generalizing s with
  | nil => rfl
  | cons p run ih => exact ih p.2

/-- An invariant of the steps that meet the condition. -/
theorem IsRun.invariant (hstep : ∀ s l s', Inv s → guard s l → step s l s' → Inv s') {s : S}
    (hs : Inv s) {run : List (L × S)} (hrun : IsRun step s run) (hguard : Meets guard s run) :
    ∀ p ∈ run, Inv p.2 := by
  induction run generalizing s with
  | nil => simp
  | cons p run ih =>
    have hp : Inv p.2 := hstep s p.1 p.2 hs hguard.1 hrun.1
    intro q hq
    rcases List.mem_cons.mp hq with rfl | hq
    · exact hp
    · exact ih hp hrun.2 hguard.2 q hq

theorem IsRun.invariant_final (hstep : ∀ s l s', Inv s → guard s l → step s l s' → Inv s') {s : S}
    (hs : Inv s) {run : List (L × S)} (hrun : IsRun step s run) (hguard : Meets guard s run) :
    Inv (final s run) := by
  induction run generalizing s with
  | nil => exact hs
  | cons p run ih => exact ih (hstep s p.1 p.2 hs hguard.1 hrun.1) hrun.2 hguard.2

/-- What every step that starts in the invariant meets. -/
theorem IsRun.meets {guard' : S → L → Prop}
    (hstep : ∀ s l s', Inv s → guard s l → step s l s' → Inv s')
    (hmeets : ∀ s l s', Inv s → guard s l → step s l s' → guard' s l) {s : S} (hs : Inv s)
    {run : List (L × S)} (hrun : IsRun step s run) (hguard : Meets guard s run) :
    Meets guard' s run := by
  induction run generalizing s with
  | nil => trivial
  | cons p run ih =>
    exact ⟨hmeets s p.1 p.2 hs hguard.1 hrun.1,
      ih (hstep s p.1 p.2 hs hguard.1 hrun.1) hrun.2 hguard.2⟩

/-- What holds of the labels of the steps that start in an invariant and meet the condition. -/
theorem IsRun.labels {I : S → Prop} {P : L → Prop}
    (hstep : ∀ s l s', I s → guard s l → step s l s' → P l ∧ I s') {s : S} (hs : I s)
    {run : List (L × S)} (hrun : IsRun step s run) (hguard : Meets guard s run) :
    ∀ p ∈ run, P p.1 := by
  induction run generalizing s with
  | nil => simp
  | cons p run ih =>
    have hp := hstep s p.1 p.2 hs hguard.1 hrun.1
    rw [List.forall_mem_cons]
    exact ⟨hp.1, ih hp.2 hrun.2 hguard.2⟩

/-- What holds of a label exactly when its step meets the condition. -/
theorem IsRun.labels_iff {P : L → Prop} (hstep : ∀ s l s', step s l s' → (P l ↔ guard s l)) {s : S}
    {run : List (L × S)} (hrun : IsRun step s run) : (∀ p ∈ run, P p.1) ↔ Meets guard s run := by
  induction run generalizing s with
  | nil => simp [Meets]
  | cons p run ih =>
    rw [List.forall_mem_cons, hstep s p.1 p.2 hrun.1, ih hrun.2]
    rfl

/-- An invariant that a step keeps exactly when it meets the condition. -/
theorem IsRun.invariant_iff (hstep : ∀ s l s', Inv s → step s l s' → (Inv s' ↔ guard s l)) {s : S}
    (hs : Inv s) {run : List (L × S)} (hrun : IsRun step s run) :
    (∀ p ∈ run, Inv p.2) ↔ Meets guard s run := by
  induction run generalizing s with
  | nil => simp [Meets]
  | cons p run ih =>
    have hp := hstep s p.1 p.2 hs hrun.1
    rw [List.forall_mem_cons]
    exact ⟨fun h => ⟨hp.mp h.1, (ih h.1 hrun.2).mp h.2⟩,
      fun h => ⟨hp.mpr h.1, (ih (hp.mpr h.1) hrun.2).mpr h.2⟩⟩

theorem isRun_append_iff {s : S} {run run' : List (L × S)} :
    IsRun step s (run ++ run') ↔ IsRun step s run ∧ IsRun step (final s run) run' := by
  induction run generalizing s with
  | nil => exact ⟨fun h => ⟨trivial, h⟩, fun h => h.2⟩
  | cons p run ih =>
    show step s p.1 p.2 ∧ IsRun step p.2 (run ++ run') ↔
      (step s p.1 p.2 ∧ IsRun step p.2 run) ∧ IsRun step (final p.2 run) run'
    rw [ih, and_assoc]

theorem meets_append_iff {s : S} {run run' : List (L × S)} :
    Meets guard s (run ++ run') ↔ Meets guard s run ∧ Meets guard (final s run) run' := by
  induction run generalizing s with
  | nil => exact ⟨fun h => ⟨trivial, h⟩, fun h => h.2⟩
  | cons p run ih =>
    show guard s p.1 ∧ Meets guard p.2 (run ++ run') ↔
      (guard s p.1 ∧ Meets guard p.2 run) ∧ Meets guard (final p.2 run) run'
    rw [ih, and_assoc]

theorem meets_true (s : S) (run : List (L × S)) : Meets (fun _ _ => True) s run := by
  induction run generalizing s with
  | nil => trivial
  | cons p run ih => exact ⟨trivial, ih p.2⟩

/-- A run that does not meet the condition has a first part that ends where a step breaks it. -/
theorem exists_of_not_meets {s : S} {run : List (L × S)} (h : ¬Meets guard s run) :
    ∃ before p after, run = before ++ p :: after ∧ ¬guard (final s before) p.1 := by
  induction run generalizing s with
  | nil => exact absurd trivial h
  | cons p run ih =>
    by_cases hp : guard s p.1
    · obtain ⟨before, q, after, rfl, hq⟩ := ih fun hmeets => h ⟨hp, hmeets⟩
      exact ⟨p :: before, q, after, rfl, hq⟩
    · exact ⟨[], p, run, rfl, hp⟩

/-- The run with these labels, as far as it goes. -/
def follow (next : S → L → Option S) (s : S) : List L → List (L × S)
  | [] => []
  | l :: ls =>
    match next s l with
    | some s' => (l, s') :: follow next s' ls
    | none => []

theorem isRun_follow (next : S → L → Option S) (s : S) (ls : List L) :
    IsRun (fun s l s' => next s l = some s') s (follow next s ls) := by
  induction ls generalizing s with
  | nil => trivial
  | cons l ls ih =>
    rw [follow]
    split
    next s' hs => exact ⟨hs, ih s'⟩
    next => trivial

theorem mem_of_mem_follow {next : S → L → Option S} {s : S} {ls : List L} {p : L × S}
    (hp : p ∈ follow next s ls) : p.1 ∈ ls := by
  induction ls generalizing s with
  | nil => cases hp
  | cons l ls ih =>
    rw [follow] at hp
    split at hp
    next s' hs =>
      rcases List.mem_cons.mp hp with rfl | hp
      · exact List.mem_cons_self
      · exact List.mem_cons_of_mem l (ih hp)
    next => cases hp

/-- A run of a system that another one simulates step by step. -/
theorem IsRun.simulated {T K : Type} {step' : T → K → T → Prop} {kind : L → K} {R : S → T → Prop}
    (hstep : ∀ s l s' a, R s a → step s l s' → ∃ a', step' a (kind l) a' ∧ R s' a') {s : S} {a : T}
    (hs : R s a) {run : List (L × S)} (hrun : IsRun step s run) :
    ∃ run', IsRun step' a run' ∧
      List.Forall₂ (fun p q => q.1 = kind p.1 ∧ R p.2 q.2) run run' := by
  induction run generalizing s a with
  | nil => exact ⟨[], trivial, .nil⟩
  | cons p run ih =>
    obtain ⟨a', ha', hs'⟩ := hstep s p.1 p.2 a hs hrun.1
    obtain ⟨run', hrun', hall⟩ := ih hs' hrun.2
    exact ⟨(kind p.1, a') :: run', ⟨ha', hrun'⟩, .cons ⟨rfl, hs'⟩ hall⟩

end Foundations.Transitions

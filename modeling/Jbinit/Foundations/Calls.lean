import Mathlib.Data.List.Basic
import Mathlib.Tactic.Common

/-!
# Programs that make calls

A program that depends on its environment through calls only is a tree: at a `call c` it branches
on the answers of type `R c` (`Prog`). A run is a path through the tree, and its trace is the list
of calls with their answers (`Run`), so that a statement about every run is a statement about every
combination of outcomes. `Proc` adds an early exit.

A world says which answers are possible in a state and what they do to the state; `Steps` is a trace
in a world. `Triple` is the partial correctness of a procedure in a world, with one postcondition
for its normal end and one for its exits; its rules follow the structure of the procedure
(`Triple.perform`, `Triple.bind`, `Triple.throw`). What the state does not notice (`Unseen`, or
`Quiet` when there is no exit) keeps every condition. To run a program on chosen answers there is
`drive`.
-/

namespace Foundations.Calls

variable {C : Type} {R : C → Type} {α β ε S : Type}

/-- A program that makes calls `c : C` and goes on with an answer of type `R c`. -/
inductive Prog {C : Type} (R : C → Type) (α : Type) : Type
  | done (a : α)
  | call (c : C) (k : R c → Prog R α)

/-- A call with its answer. -/
abbrev Event {C : Type} (R : C → Type) := Σ c, R c

namespace Prog

def bind (p : Prog R α) (f : α → Prog R β) : Prog R β :=
  match p with
  | .done a => f a
  | .call c k => .call c fun r => (k r).bind f

instance : Monad (Prog R) where
  pure := .done
  bind := bind

end Prog

/-- A run of a program: its trace and its result. -/
inductive Run : Prog R α → List (Event R) → α → Prop
  | done (a : α) : Run (.done a) [] a
  | call {c : C} {k : R c → Prog R α} {t : List (Event R)} {a : α} (r : R c) (h : Run (k r) t a) :
      Run (.call c k) (⟨c, r⟩ :: t) a

/-- A run of a sequence is a run of each part. -/
theorem run_bind {p : Prog R α} {f : α → Prog R β} {t : List (Event R)} {b : β}
    (h : Run (p >>= f) t b) : ∃ t₁ a t₂, t = t₁ ++ t₂ ∧ Run p t₁ a ∧ Run (f a) t₂ b := by
  induction p generalizing t with
  | done a => exact ⟨[], a, t, rfl, .done a, h⟩
  | call c k ih =>
    cases h with
    | call r h =>
      obtain ⟨t₁, a, t₂, rfl, h₁, h₂⟩ := ih r h
      exact ⟨_, a, t₂, rfl, .call r h₁, h₂⟩

/-- The trace begins with a run of the program. -/
def Begins (p : Prog R α) (t : List (Event R)) (a : α) : Prop :=
  ∃ t₁ t₂, t = t₁ ++ t₂ ∧ Run p t₁ a

/-- The answers determine the run. -/
theorem Begins.unique {p : Prog R α} {t : List (Event R)} {a b : α} (ha : Begins p t a)
    (hb : Begins p t b) : a = b := by
  obtain ⟨t₁, t₂, rfl, ha⟩ := ha
  obtain ⟨u₁, u₂, heq, hb⟩ := hb
  induction p generalizing t₁ u₁ with
  | done c =>
    cases ha
    cases hb
    rfl
  | call c k ih =>
    cases ha with
    | call r ha =>
      cases hb with
      | call r' hb =>
        obtain ⟨hevent, htail⟩ := List.cons.inj heq
        obtain rfl := eq_of_heq (Sigma.mk.inj hevent).2
        exact ih r _ ha _ htail hb

theorem Begins.append {p : Prog R α} {t : List (Event R)} {a : α} (h : Begins p t a)
    (u : List (Event R)) : Begins p (t ++ u) a := by
  obtain ⟨t₁, t₂, rfl, h⟩ := h
  exact ⟨t₁, t₂ ++ u, List.append_assoc _ _ _, h⟩

/-- The run in which every call `c` is answered by `answer c`. -/
def drive (answer : ∀ c, R c) : Prog R α → List (Event R) × α
  | .done a => ([], a)
  | .call c k => (⟨c, answer c⟩ :: (drive answer (k (answer c))).1, (drive answer (k (answer c))).2)

theorem run_drive (answer : ∀ c, R c) (p : Prog R α) :
    Run p (drive answer p).1 (drive answer p).2 := by
  induction p with
  | done a => exact .done a
  | call c k ih => exact .call (answer c) (ih (answer c))

/-- The run in which `respond` answers the calls one after the other and keeps a state: its result
and the last state. -/
def runOn (respond : S → ∀ c, R c × S) (s : S) : Prog R α → α × S
  | .done a => (a, s)
  | .call c k => runOn respond (respond s c).2 (k (respond s c).1)

theorem runOn_bind (respond : S → ∀ c, R c × S) (s : S) (p : Prog R α) (f : α → Prog R β) :
    runOn respond s (p >>= f) =
      runOn respond (runOn respond s p).2 (f (runOn respond s p).1) := by
  induction p generalizing s with
  | done a => rfl
  | call c k ih => exact ih _ _

/-! ## Worlds -/

/-- A trace in a world: `step s e s'` says that the event `e` can happen in the state `s` and leads
to `s'`. -/
def Steps (step : S → Event R → S → Prop) : S → List (Event R) → S → Prop
  | s, [], s' => s' = s
  | s, e :: t, s' => ∃ s₁, step s e s₁ ∧ Steps step s₁ t s'

variable {step : S → Event R → S → Prop}

theorem steps_append {s s' : S} {t₁ t₂ : List (Event R)} (h : Steps step s (t₁ ++ t₂) s') :
    ∃ s₁, Steps step s t₁ s₁ ∧ Steps step s₁ t₂ s' := by
  induction t₁ generalizing s with
  | nil => exact ⟨s, rfl, h⟩
  | cons e t₁ ih =>
    obtain ⟨s₁, he, h⟩ := h
    obtain ⟨s₂, h₁, h₂⟩ := ih h
    exact ⟨s₂, ⟨s₁, he, h₁⟩, h₂⟩

/-- The world that folds a trace. -/
theorem steps_foldl (f : S → Event R → S) (s : S) (t : List (Event R)) :
    Steps (fun s e s' => s' = f s e) s t (t.foldl f s) := by
  induction t generalizing s with
  | nil => rfl
  | cons e t ih => exact ⟨f s e, rfl, ih (f s e)⟩

/-! ## Procedures -/

/-- A program with an early exit. -/
abbrev Proc {C : Type} (R : C → Type) (ε α : Type) := ExceptT ε (Prog R) α

/-- Make a call. -/
def perform (c : C) : Proc R ε (R c) := ExceptT.mk (.call c fun r => .done (.ok r))

/-- The run of a procedure without an exit. -/
def execute (respond : S → ∀ c, R c × S) (s : S) (x : Proc R Empty α) : α × S :=
  match runOn respond s x.run with
  | (.ok a, s') => (a, s')

/-- Answers that do not change, with the calls that are made as the state. -/
def logging (answer : ∀ c, R c) (log : List C) (c : C) : R c × List C := (answer c, log ++ [c])

section

variable {respond : S → ∀ c, R c × S} {s : S}

theorem execute_pure (a : α) : execute respond s (pure a) = (a, s) := rfl

theorem execute_perform (c : C) : execute respond s (perform c) = respond s c := rfl

theorem execute_bind (x : Proc R Empty α) (f : α → Proc R Empty β) : execute respond s (x >>= f) =
    execute respond (execute respond s x).2 (f (execute respond s x).1) := by
  have hrun : runOn respond s (x >>= f).run = runOn respond (runOn respond s x.run).2
      (ExceptT.bindCont f (runOn respond s x.run).1) := runOn_bind respond s x.run _
  rw [execute, hrun, execute.eq_def respond s x]
  cases runOn respond s x.run with
  | mk r s' =>
    cases r with
    | ok a => rfl
    | error e => cases e

end

theorem run_pure_ok {a b : α} {t : List (Event R)}
    (h : Run (Pure.pure a : Proc R ε α).run t (.ok b)) : t = [] ∧ b = a := by
  cases h
  exact ⟨rfl, rfl⟩

theorem run_perform {c : C} {t : List (Event R)} {r : Except ε (R c)}
    (h : Run (perform c : Proc R ε (R c)).run t r) : ∃ a, t = [⟨c, a⟩] ∧ r = .ok a := by
  cases h with
  | call a h =>
    cases h
    exact ⟨a, rfl, rfl⟩

/-- A sequence ends normally when both parts do. -/
theorem run_bind_ok {x : Proc R ε α} {f : α → Proc R ε β} {t : List (Event R)} {b : β}
    (h : Run (x >>= f).run t (.ok b)) :
    ∃ t₁ a t₂, t = t₁ ++ t₂ ∧ Run x.run t₁ (.ok a) ∧ Run (f a).run t₂ (.ok b) := by
  obtain ⟨t₁, r, t₂, rfl, h₁, h₂⟩ := run_bind h
  cases r with
  | ok a => exact ⟨t₁, a, t₂, rfl, h₁, h₂⟩
  | error e => cases h₂

/-- A sequence that begins with a call. -/
theorem run_perform_bind {c : C} {f : R c → Proc R ε β} {t : List (Event R)} {r : Except ε β}
    (h : Run (perform c >>= f).run t r) : ∃ a t', t = ⟨c, a⟩ :: t' ∧ Run (f a).run t' r := by
  obtain ⟨t₁, r₁, t₂, rfl, h₁, h₂⟩ := run_bind h
  obtain ⟨a, rfl, rfl⟩ := run_perform h₁
  exact ⟨a, t₂, rfl, h₂⟩

/-- Run a procedure to its end; its exit is an answer. -/
def attempt {ε' : Type} (x : Proc R ε α) : Proc R ε' (Except ε α) :=
  ExceptT.mk (x.run >>= fun r => Pure.pure (.ok r))

/-- Partial correctness of a procedure in a world. -/
def Triple (step : S → Event R → S → Prop) (P : S → Prop) (x : Proc R ε α) (Q : α → S → Prop)
    (E : ε → S → Prop) : Prop :=
  ∀ s, P s → ∀ t s' r, Run x.run t r → Steps step s t s' →
    match r with
    | .ok a => Q a s'
    | .error e => E e s'

variable {P : S → Prop} {Q : α → S → Prop} {E : ε → S → Prop}

theorem Triple.pure {a : α} (h : ∀ s, P s → Q a s) :
    Triple step P (Pure.pure a : Proc R ε α) Q E := by
  intro s hs t s' r hrun hsteps
  cases hrun
  obtain rfl := hsteps
  exact h s' hs

theorem Triple.throw {e : ε} (h : ∀ s, P s → E e s) :
    Triple step P (throw e : Proc R ε α) Q E := by
  intro s hs t s' r hrun hsteps
  cases hrun
  obtain rfl := hsteps
  exact h s' hs

theorem Triple.perform {c : C} {Q : R c → S → Prop}
    (h : ∀ s r s', P s → step s ⟨c, r⟩ s' → Q r s') :
    Triple step P (perform c : Proc R ε (R c)) Q E := by
  intro s hs t s' r hrun hsteps
  cases hrun with
  | call r hrun =>
    cases hrun
    obtain ⟨s₁, hstep, rfl⟩ := hsteps
    exact h s r s' hs hstep

theorem Triple.bind {x : Proc R ε α} {f : α → Proc R ε β} {M : α → S → Prop} {Q : β → S → Prop}
    (hx : Triple step P x M E) (hf : ∀ a, Triple step (M a) (f a) Q E) :
    Triple step P (x >>= f) Q E := by
  intro s hs t s' r hrun hsteps
  obtain ⟨t₁, r₁, t₂, rfl, h₁, h₂⟩ := run_bind hrun
  obtain ⟨s₁, hs₁, hs₂⟩ := steps_append hsteps
  have hmid := hx s hs t₁ s₁ r₁ h₁ hs₁
  cases r₁ with
  | ok a => exact hf a s₁ hmid t₂ s' r h₂ hs₂
  | error e =>
    cases h₂
    obtain rfl := hs₂
    exact hmid

theorem Triple.attempt {ε' : Type} {x : Proc R ε α} {E' : ε' → S → Prop}
    (h : Triple step P x Q E) :
    Triple step P (attempt x) (fun r s => match r with | .ok a => Q a s | .error e => E e s) E' := by
  intro s hs t s' r hrun hsteps
  obtain ⟨t₁, r₁, t₂, rfl, h₁, h₂⟩ := run_bind hrun
  obtain ⟨s₁, hs₁, hs₂⟩ := steps_append hsteps
  cases h₂
  obtain rfl := hs₂
  exact h s hs t₁ s' r₁ h₁ hs₁

theorem Triple.weaken {x : Proc R ε α} {P' : S → Prop} {Q' : α → S → Prop} {E' : ε → S → Prop}
    (h : Triple step P' x Q' E') (hP : ∀ s, P s → P' s) (hQ : ∀ a s, Q' a s → Q a s)
    (hE : ∀ e s, E' e s → E e s) : Triple step P x Q E := by
  intro s hs t s' r hrun hsteps
  have hmid := h s (hP s hs) t s' r hrun hsteps
  cases r with
  | ok a => exact hQ a s' hmid
  | error e => exact hE e s' hmid

theorem Triple.pre {x : Proc R ε α} {P' : S → Prop} (h : Triple step P' x Q E)
    (hP : ∀ s, P s → P' s) : Triple step P x Q E :=
  h.weaken hP (fun _ _ hs => hs) fun _ _ hs => hs

theorem Triple.exit {x : Proc R ε α} {E' : ε → S → Prop} (h : Triple step P x Q E')
    (hE : ∀ e s, E' e s → E e s) : Triple step P x Q E :=
  h.weaken (fun _ hs => hs) (fun _ _ hs => hs) hE

/-- A precondition that does not speak of the state is a hypothesis. -/
theorem Triple.of_and {x : Proc R ε α} {p : Prop} (h : p → Triple step P x Q E) :
    Triple step (fun s => p ∧ P s) x Q E :=
  fun s hs => h hs.1 s hs.2

/-- A triple about the state that folds the trace, for a run that ends normally. -/
theorem Triple.ok_foldl {f : S → Event R → S} {x : Proc R ε α}
    (h : Triple (fun s e s' => s' = f s e) P x Q E) {s : S} (hs : P s) {t : List (Event R)} {a : α}
    (hrun : Run x.run t (.ok a)) : Q a (t.foldl f s) :=
  h s hs t _ _ hrun (steps_foldl f s t)

theorem Triple.error_foldl {f : S → Event R → S} {x : Proc R ε α}
    (h : Triple (fun s e s' => s' = f s e) P x Q E) {s : S} (hs : P s) {t : List (Event R)} {e : ε}
    (hrun : Run x.run t (.error e)) : E e (t.foldl f s) :=
  h s hs t _ _ hrun (steps_foldl f s t)

/-- The world that notes whether a predicate has held of an event. -/
def noting (p : Event R → Bool) (noted : Bool) (e : Event R) (noted' : Bool) : Prop :=
  noted' = (noted || p e)

theorem foldl_noting (p : Event R → Bool) (noted : Bool) (t : List (Event R)) :
    t.foldl (fun noted e => noted || p e) noted = (noted || t.any p) := by
  induction t generalizing noted with
  | nil => exact (Bool.or_false _).symm
  | cons e t ih => rw [List.foldl_cons, ih, List.any_cons, Bool.or_assoc]

/-- Every run leaves the state as it is. -/
def Unseen (step : S → Event R → S → Prop) (x : Proc R ε α) : Prop :=
  ∀ s t s' r, Run x.run t r → Steps step s t s' → s' = s

namespace Unseen

theorem triple {x : Proc R ε α} (h : Unseen step x) (P : S → Prop) :
    Triple step P x (fun _ => P) (fun _ => P) := by
  intro s hs t s' r hrun hsteps
  obtain rfl := h s t s' r hrun hsteps
  cases r <;> exact hs

theorem triple_exit {x : Proc R ε α} (h : Unseen step x) (hE : ∀ e s, P s → E e s) :
    Triple step P x (fun _ => P) E :=
  (h.triple P).exit hE

/-- To be unseen is to keep every singleton. -/
theorem of_triple {x : Proc R ε α}
    (h : ∀ s, Triple step (· = s) x (fun _ => (· = s)) (fun _ => (· = s))) : Unseen step x := by
  intro s t s' r hrun hsteps
  have hend := h s s rfl t s' r hrun hsteps
  cases r <;> exact hend

theorem pure (a : α) : Unseen step (Pure.pure a : Proc R ε α) :=
  of_triple fun _ => Triple.pure fun _ h => h

theorem throw (e : ε) : Unseen step (throw e : Proc R ε α) :=
  of_triple fun _ => Triple.throw fun _ h => h

theorem bind {x : Proc R ε α} {f : α → Proc R ε β} (hx : Unseen step x)
    (hf : ∀ a, Unseen step (f a)) : Unseen step (x >>= f) :=
  of_triple fun _ => Triple.bind (hx.triple _) fun a => (hf a).triple _

theorem ite {c : Prop} [Decidable c] {x y : Proc R ε α} (hx : Unseen step x)
    (hy : Unseen step y) : Unseen step (if c then x else y) := by
  split
  · exact hx
  · exact hy

end Unseen

/-- What the noting world does not see does not happen. -/
theorem Unseen.any {p : Event R → Bool} {x : Proc R ε α} (h : Unseen (noting p) x)
    {t : List (Event R)} {r : Except ε α} (hrun : Run x.run t r) : t.any p = false := by
  have hfold := h false t _ r hrun (steps_foldl (fun noted e => noted || p e) false t)
  rwa [foldl_noting, Bool.false_or] at hfold

/-- The run of a sequence whose second part does not do what is noted. -/
theorem run_bind_any {p : Event R → Bool} {x : Proc R ε α} {f : α → Proc R ε β}
    {t : List (Event R)} {r : Except ε β} (hrun : Run (x >>= f).run t r)
    (hf : ∀ a, Unseen (noting p) (f a)) :
    ∃ t₁ r₁ t₂, t = t₁ ++ t₂ ∧ Run x.run t₁ r₁ ∧ t₂.any p = false := by
  obtain ⟨t₁, r₁, t₂, rfl, h₁, h₂⟩ := run_bind hrun
  refine ⟨t₁, r₁, t₂, rfl, h₁, ?_⟩
  cases r₁ with
  | ok a => exact (hf a).any h₂
  | error e =>
    cases h₂
    rfl

/-- Every run leaves the state as it is and ends normally. -/
def Quiet (step : S → Event R → S → Prop) (x : Proc R ε α) : Prop :=
  ∀ s t s' r, Run x.run t r → Steps step s t s' → s' = s ∧ ∃ a, r = .ok a

namespace Quiet

theorem unseen {x : Proc R ε α} (h : Quiet step x) : Unseen step x :=
  fun s t s' r hrun hsteps => (h s t s' r hrun hsteps).1

theorem triple {x : Proc R ε α} (h : Quiet step x) (P : S → Prop) :
    Triple step P x (fun _ => P) E := by
  intro s hs t s' r hrun hsteps
  obtain ⟨rfl, a, rfl⟩ := h s t s' r hrun hsteps
  exact hs

theorem of_triple {x : Proc R ε α}
    (h : ∀ s, Triple step (· = s) x (fun _ => (· = s)) (fun _ _ => False)) : Quiet step x := by
  intro s t s' r hrun hsteps
  have hend := h s s rfl t s' r hrun hsteps
  cases r with
  | ok a => exact ⟨hend, a, rfl⟩
  | error e => exact hend.elim

theorem pure (a : α) : Quiet step (Pure.pure a : Proc R ε α) :=
  of_triple fun _ => Triple.pure fun _ h => h

theorem perform {c : C} (h : ∀ s r s', step s ⟨c, r⟩ s' → s' = s) :
    Quiet step (perform c : Proc R ε (R c)) :=
  of_triple fun _ => Triple.perform fun s r s' hs hstep => (h s r s' hstep).trans hs

theorem bind {x : Proc R ε α} {f : α → Proc R ε β} (hx : Quiet step x)
    (hf : ∀ a, Quiet step (f a)) : Quiet step (x >>= f) :=
  of_triple fun _ => Triple.bind (hx.triple _) fun a => (hf a).triple _

theorem ite {c : Prop} [Decidable c] {x y : Proc R ε α} (hx : Quiet step x)
    (hy : Quiet step y) : Quiet step (if c then x else y) := by
  split
  · exact hx
  · exact hy

end Quiet

/-- The world does not notice the calls that `calls` holds of. -/
def Ignores (step : S → Event R → S → Prop) (calls : C → Bool) : Prop :=
  ∀ c, calls c = true → ∀ s r s', step s ⟨c, r⟩ s' → s' = s

theorem Ignores.quiet {calls : C → Bool} (h : Ignores step calls) {c : C} (hc : calls c = true) :
    Quiet step (Calls.perform c : Proc R ε (R c)) :=
  .perform (h c hc)

/-! ## Procedures that make given calls -/

/-- The procedure makes these calls, whatever their answers are, and ends in this way. -/
def Makes (calls : List C) (r : Except ε α) (x : Proc R ε α) : Prop :=
  ∀ t r', Run x.run t r' → r' = r ∧ t.map Sigma.fst = calls

namespace Makes

variable {calls calls' : List C} {r : Except ε α} {x : Proc R ε α}

theorem perform (c : C) :
    Makes [c] (.ok ()) (do
      let _ ← perform c
      return () : Proc R ε Unit) := by
  intro t r hrun
  obtain ⟨a, t', rfl, hend⟩ := run_perform_bind hrun
  cases hend
  exact ⟨rfl, rfl⟩

theorem throw (e : ε) : Makes [] (.error e) (throw e : Proc R ε α) := by
  intro t r hrun
  cases hrun
  exact ⟨rfl, rfl⟩

theorem bind {b : β} {y : Proc R ε β} {f : β → Proc R ε α} (hy : Makes calls (.ok b) y)
    (hf : Makes calls' r (f b)) : Makes (calls ++ calls') r (y >>= f) := by
  intro t r' hrun
  obtain ⟨t₁, r₁, t₂, rfl, h₁, h₂⟩ := run_bind hrun
  obtain ⟨rfl, hcalls⟩ := hy t₁ r₁ h₁
  obtain ⟨hr, hcalls'⟩ := hf t₂ r' h₂
  exact ⟨hr, by rw [List.map_append, hcalls, hcalls']⟩

/-- Nothing is run after an exit. -/
theorem exits {e : ε} {y : Proc R ε β} (hy : Makes calls (.error e) y) (f : β → Proc R ε α) :
    Makes calls (.error e) (y >>= f) := by
  intro t r' hrun
  obtain ⟨t₁, r₁, t₂, rfl, h₁, h₂⟩ := run_bind hrun
  obtain ⟨rfl, hcalls⟩ := hy t₁ r₁ h₁
  cases h₂
  exact ⟨rfl, by rw [List.append_nil, hcalls]⟩

/-- A condition on the state and on the calls that are left. -/
theorem run {I : List C → S → Prop} (h : Makes calls r x)
    (hcall : ∀ c calls s a s', I (c :: calls) s → step s ⟨c, a⟩ s' → I calls s') {s s' : S}
    (hs : I calls s) {t : List (Event R)} {r' : Except ε α} (hrun : Run x.run t r')
    (hsteps : Steps step s t s') : r' = r ∧ I [] s' := by
  obtain ⟨rfl, rfl⟩ := h t r' hrun
  refine ⟨rfl, ?_⟩
  clear h hrun
  induction t generalizing s with
  | nil =>
    obtain rfl := hsteps
    exact hs
  | cons e t ih =>
    obtain ⟨s₁, hstep, hsteps⟩ := hsteps
    exact ih hsteps (hcall e.1 _ s e.2 s₁ hs hstep)

theorem triple {I : List C → S → Prop} {a : α} (h : Makes calls (.ok a) x)
    (hcall : ∀ c calls s a s', I (c :: calls) s → step s ⟨c, a⟩ s' → I calls s') :
    Triple step (I calls) x (fun _ => I []) E := by
  intro s hs t s' r' hrun hsteps
  obtain ⟨rfl, hend⟩ := h.run hcall hs hrun hsteps
  exact hend

theorem exit {I : List C → S → Prop} {e : ε} (h : Makes calls (.error e) x)
    (hcall : ∀ c calls s a s', I (c :: calls) s → step s ⟨c, a⟩ s' → I calls s') :
    Triple step (I calls) x Q (fun _ => I []) := by
  intro s hs t s' r' hrun hsteps
  obtain ⟨rfl, hend⟩ := h.run hcall hs hrun hsteps
  exact hend

end Makes

end Foundations.Calls

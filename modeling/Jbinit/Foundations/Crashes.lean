import Jbinit.Foundations.Calls

/-!
# Programs that can stop at any call

Power can be lost between any two calls. What a program has done then is a trace of it up to some
place (`Cut`), and the next start finds the state that this trace has led to. So the specification
of a procedure has a condition for where it ends normally and one for wherever it stops
(`CrashTriple`); an exit is one of these places. The rules follow the structure of the procedure, as
those of `Triple` do. A procedure keeps what each of the calls keeps that it can make (`Uses`).
-/

namespace Foundations.Calls

variable {C : Type} {R : C → Type} {α β ε S : Type}

/-- The trace of a run up to a place where it stops. -/
inductive Cut : Prog R α → List (Event R) → Prop
  | stop (p : Prog R α) : Cut p []
  | call {c : C} {k : R c → Prog R α} {t : List (Event R)} (r : R c) (h : Cut (k r) t) :
      Cut (.call c k) (⟨c, r⟩ :: t)

theorem Run.cut {p : Prog R α} {t : List (Event R)} {a : α} (h : Run p t a) : Cut p t := by
  induction h with
  | done a => exact .stop _
  | call r _ ih => exact .call r ih

theorem eq_nil_of_cut_done {a : α} {t : List (Event R)} (h : Cut (.done a : Prog R α) t) :
    t = [] := by
  cases h
  rfl

/-- A sequence stops in its first part, or in the second after the end of the first. -/
theorem cut_bind {p : Prog R α} {f : α → Prog R β} {t : List (Event R)} (h : Cut (p >>= f) t) :
    Cut p t ∨ ∃ t₁ a t₂, t = t₁ ++ t₂ ∧ Run p t₁ a ∧ Cut (f a) t₂ := by
  induction p generalizing t with
  | done a => exact .inr ⟨[], a, t, rfl, .done a, h⟩
  | call c k ih =>
    cases h with
    | stop => exact .inl (.stop _)
    | call r h =>
      rcases ih r h with h | ⟨t₁, a, t₂, rfl, h₁, h₂⟩
      · exact .inl (.call r h)
      · exact .inr ⟨_, a, t₂, rfl, .call r h₁, h₂⟩

/-- The specification of a procedure in a world: `Q` holds where it ends normally, and `D` wherever
it stops. -/
structure CrashTriple (step : S → Event R → S → Prop) (P : S → Prop) (x : Proc R ε α)
    (Q : α → S → Prop) (D : S → Prop) : Prop where
  ends : Triple step P x Q fun _ => D
  stops : ∀ s, P s → ∀ t s', Cut x.run t → Steps step s t s' → D s'

namespace CrashTriple

variable {step : S → Event R → S → Prop} {P : S → Prop} {Q : α → S → Prop} {D : S → Prop}

theorem pure {a : α} (hQ : ∀ s, P s → Q a s) (hD : ∀ s, P s → D s) :
    CrashTriple step P (Pure.pure a : Proc R ε α) Q D where
  ends := Triple.pure hQ
  stops s hs t s' hcut hsteps := by
    obtain rfl := eq_nil_of_cut_done hcut
    obtain rfl := hsteps
    exact hD s' hs

theorem throw {e : ε} (hD : ∀ s, P s → D s) :
    CrashTriple step P (throw e : Proc R ε α) Q D where
  ends := Triple.throw hD
  stops s hs t s' hcut hsteps := by
    obtain rfl := eq_nil_of_cut_done hcut
    obtain rfl := hsteps
    exact hD s' hs

theorem perform {c : C} {Q : R c → S → Prop} (hP : ∀ s, P s → D s) (hQ : ∀ r s, Q r s → D s)
    (h : ∀ s r s', P s → step s ⟨c, r⟩ s' → Q r s') :
    CrashTriple step P (perform c : Proc R ε (R c)) Q D where
  ends := Triple.perform h
  stops s hs t s' hcut hsteps := by
    cases hcut with
    | stop =>
      obtain rfl := hsteps
      exact hP s' hs
    | call r hcut =>
      obtain rfl := eq_nil_of_cut_done hcut
      obtain ⟨s₁, hstep, rfl⟩ := hsteps
      exact hQ r s' (h s r s' hs hstep)

theorem bind {x : Proc R ε α} {f : α → Proc R ε β} {M : α → S → Prop} {Q : β → S → Prop}
    (hx : CrashTriple step P x M D) (hf : ∀ a, CrashTriple step (M a) (f a) Q D) :
    CrashTriple step P (x >>= f) Q D where
  ends := Triple.bind hx.ends fun a => (hf a).ends
  stops s hs t s' hcut hsteps := by
    rcases cut_bind hcut with hcut | ⟨t₁, r, t₂, rfl, h₁, h₂⟩
    · exact hx.stops s hs t s' hcut hsteps
    · obtain ⟨s₁, hs₁, hs₂⟩ := steps_append hsteps
      have hmid := hx.ends s hs t₁ s₁ r h₁ hs₁
      cases r with
      | ok a => exact (hf a).stops s₁ hmid t₂ s' h₂ hs₂
      | error e =>
        obtain rfl := eq_nil_of_cut_done h₂
        obtain rfl := hs₂
        exact hmid

theorem ite {c : Prop} [Decidable c] {x y : Proc R ε α} (hx : c → CrashTriple step P x Q D)
    (hy : ¬c → CrashTriple step P y Q D) : CrashTriple step P (if c then x else y) Q D := by
  split
  case isTrue h => exact hx h
  case isFalse h => exact hy h

theorem weaken {x : Proc R ε α} {P' : S → Prop} {Q' : α → S → Prop} {D' : S → Prop}
    (h : CrashTriple step P' x Q' D') (hP : ∀ s, P s → P' s) (hQ : ∀ a s, Q' a s → Q a s)
    (hD : ∀ s, D' s → D s) : CrashTriple step P x Q D where
  ends := h.ends.weaken hP hQ fun _ => hD
  stops s hs t s' hcut hsteps := hD s' (h.stops s (hP s hs) t s' hcut hsteps)

/-- A precondition that does not speak of the state is a hypothesis. -/
theorem of_and {x : Proc R ε α} {p : Prop} (h : p → CrashTriple step P x Q D) :
    CrashTriple step (fun s => p ∧ P s) x Q D where
  ends := Triple.of_and fun hp => (h hp).ends
  stops s hs := (h hs.1).stops s hs.2

theorem of_exists {γ : Type} {x : Proc R ε α} {I : γ → S → Prop}
    (h : ∀ a, CrashTriple step (I a) x Q D) : CrashTriple step (fun s => ∃ a, I a s) x Q D where
  ends s hs := by
    obtain ⟨a, ha⟩ := hs
    exact (h a).ends s ha
  stops s hs := by
    obtain ⟨a, ha⟩ := hs
    exact (h a).stops s ha

/-- A loop over a list, by what holds before each of its rounds. -/
theorem forM {γ : Type} {f : γ → Proc R ε PUnit} {I : List γ → S → Prop}
    (hf : ∀ a l, CrashTriple step (I (a :: l)) (f a) (fun _ => I l) D)
    (hnil : ∀ s, I [] s → D s) (l : List γ) :
    CrashTriple step (I l) (l.forM f) (fun _ => I []) D := by
  induction l with
  | nil => exact pure (fun _ h => h) hnil
  | cons a l ih => exact bind (hf a l) fun _ => ih

end CrashTriple

/-! ## Procedures that make calls of one kind -/

/-- Wherever the procedure stops, it has made no other calls than these. -/
def Uses (calls : C → Prop) (x : Proc R ε α) : Prop :=
  ∀ t, Cut x.run t → ∀ e ∈ t, calls e.1

namespace Uses

variable {calls : C → Prop}

theorem mono {calls' : C → Prop} {x : Proc R ε α} (h : Uses calls x)
    (hcalls : ∀ c, calls c → calls' c) : Uses calls' x :=
  fun t hcut e he => hcalls e.1 (h t hcut e he)

theorem pure (a : α) : Uses calls (Pure.pure a : Proc R ε α) := by
  intro t hcut
  rw [eq_nil_of_cut_done hcut]
  simp

theorem throw (e : ε) : Uses calls (throw e : Proc R ε α) := by
  intro t hcut
  rw [eq_nil_of_cut_done hcut]
  simp

theorem perform {c : C} (hc : calls c) : Uses calls (perform c : Proc R ε (R c)) := by
  intro t hcut
  cases hcut with
  | stop => simp
  | call r hcut =>
    rw [eq_nil_of_cut_done hcut]
    simpa using hc

theorem bind {x : Proc R ε α} {f : α → Proc R ε β} (hx : Uses calls x)
    (hf : ∀ a, Uses calls (f a)) : Uses calls (x >>= f) := by
  intro t hcut
  rcases cut_bind hcut with hcut | ⟨t₁, r, t₂, rfl, h₁, h₂⟩
  · exact hx t hcut
  · intro e he
    rcases List.mem_append.mp he with he | he
    · exact hx t₁ h₁.cut e he
    · cases r with
      | ok a => exact hf a t₂ h₂ e he
      | error err =>
        rw [eq_nil_of_cut_done h₂] at he
        exact absurd he List.not_mem_nil

theorem ite {c : Prop} [Decidable c] {x y : Proc R ε α} (hx : Uses calls x) (hy : Uses calls y) :
    Uses calls (if c then x else y) := by
  split
  · exact hx
  · exact hy

variable {step : S → Event R → S → Prop} {I : S → Prop}

theorem steps (hstep : ∀ c, calls c → ∀ s r s', I s → step s ⟨c, r⟩ s' → I s') {s s' : S}
    (hs : I s) {t : List (Event R)} (ht : ∀ e ∈ t, calls e.1) (h : Steps step s t s') : I s' := by
  induction t generalizing s with
  | nil =>
    obtain rfl := h
    exact hs
  | cons e t ih =>
    obtain ⟨s₁, he, h⟩ := h
    have hs₁ := hstep e.1 (ht e List.mem_cons_self) s e.2 s₁ hs he
    exact ih hs₁ (fun e' he' => ht e' (List.mem_cons_of_mem e he')) h

/-- What each of the calls keeps, the procedure keeps. -/
theorem triple {D : S → Prop} {x : Proc R ε α} (h : Uses calls x)
    (hstep : ∀ c, calls c → ∀ s r s', I s → step s ⟨c, r⟩ s' → I s') (hD : ∀ s, I s → D s) :
    CrashTriple step I x (fun _ => I) D where
  ends s hs t s' r hrun hsteps := by
    have hend : I s' := steps hstep hs (h t hrun.cut) hsteps
    cases r with
    | ok a => exact hend
    | error e => exact hD s' hend
  stops s hs t s' hcut hsteps := hD s' (steps hstep hs (h t hcut) hsteps)

end Uses

end Foundations.Calls

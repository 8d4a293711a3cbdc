import Mathlib.Data.Finmap
import Mathlib.Order.Lattice.Nat

/-!
# Memory made of blocks

A memory is a finite map from addresses to blocks. `alloc` takes an address that is not in use, by
any policy (`Allocator`), so that addresses that were freed may come back; an access to an address
that is not allocated is an error.

`Owns base own m` says that `m` is the memory `base` with the blocks `own` beside it: it is an
assertion and its frame in one. `Total P x Q` is total correctness; the rules `Total.alloc`,
`Total.store` and `Total.free` say what the operations do to `own`, a computation that only reads is
run (`Total.read`), and `Owns.eq_base` says that nothing is left behind when `own` is empty.
-/

namespace Foundations.Blocks

/-- A finite map from addresses to blocks. -/
abbrev Mem (β : Type) := Finmap fun _ : ℕ => β

variable {β ε α γ : Type}

/-- A policy that finds an address that is not in use. -/
structure Allocator (β : Type) where
  fresh : Mem β → ℕ
  fresh_not_mem : ∀ m, fresh m ∉ m

/-- The policy that takes the address after the last one. -/
def Allocator.next : Allocator β where
  fresh := fun m => m.keys.sup id + 1
  fresh_not_mem := by
    intro m hmem
    have hle : m.keys.sup id + 1 ≤ m.keys.sup id := Finset.le_sup (f := id) (Finmap.mem_keys.mpr hmem)
    omega

/-- Computations on a memory that may fail with an error. -/
abbrev M (β ε : Type) := StateT (Mem β) (Except ε)

def load (fault : ε) (a : ℕ) : M β ε β := fun m =>
  match m.lookup a with
  | some b => .ok (b, m)
  | none => .error fault

def store (fault : ε) (a : ℕ) (b : β) : M β ε Unit := fun m =>
  match m.lookup a with
  | some _ => .ok ((), m.insert a b)
  | none => .error fault

def alloc (A : Allocator β) (b : β) : M β ε ℕ := fun m => .ok (A.fresh m, m.insert (A.fresh m) b)

def free (fault : ε) (a : ℕ) : M β ε Unit := fun m =>
  match m.lookup a with
  | some _ => .ok ((), m.erase a)
  | none => .error fault

/-! ## Owned blocks -/

/-- `m` is `base` with the blocks `own` beside it. -/
structure Owns (base : Mem β) (own : List (ℕ × β)) (m : Mem β) : Prop where
  nodup : (own.map Prod.fst).Nodup
  apart : ∀ p ∈ own, p.1 ∉ base
  holds : ∀ p ∈ own, m.lookup p.1 = some p.2
  frame : ∀ a, a ∉ own.map Prod.fst → m.lookup a = base.lookup a

variable {base m : Mem β} {own own' : List (ℕ × β)} {a : ℕ} {b : β}

theorem Owns.nil (base : Mem β) : Owns base [] base :=
  ⟨List.nodup_nil, by simp, by simp, fun _ _ => rfl⟩

/-- With no block left over, the memory is what it was. -/
theorem Owns.eq_base (h : Owns base [] m) : m = base :=
  Finmap.ext_lookup fun a => h.frame a (by simp)

theorem Owns.perm (h : Owns base own m) (hp : own.Perm own') : Owns base own' m where
  nodup := (hp.map Prod.fst).nodup_iff.mp h.nodup
  apart := fun p hmem => h.apart p (hp.mem_iff.mpr hmem)
  holds := fun p hmem => h.holds p (hp.mem_iff.mpr hmem)
  frame := fun a ha => h.frame a fun hmem => ha ((hp.map Prod.fst).mem_iff.mp hmem)

/-- What is in the base is in the memory. -/
theorem Owns.lookup_base (h : Owns base own m) (hb : base.lookup a = some b) :
    m.lookup a = some b := by
  rw [h.frame a, hb]
  intro hmem
  obtain ⟨p, hp, rfl⟩ := List.mem_map.mp hmem
  exact h.apart p hp (Finmap.mem_of_lookup_eq_some hb)

theorem Owns.insert (h : Owns base own m) (ha : a ∉ m) (b : β) :
    Owns base ((a, b) :: own) (m.insert a b) := by
  have hbase : a ∉ base := by
    intro hmem
    obtain ⟨b', hb'⟩ := Finmap.mem_iff.mp hmem
    exact ha (Finmap.mem_of_lookup_eq_some (h.lookup_base hb'))
  have hown : a ∉ own.map Prod.fst := by
    intro hmem
    obtain ⟨p, hp, rfl⟩ := List.mem_map.mp hmem
    exact ha (Finmap.mem_of_lookup_eq_some (h.holds p hp))
  refine ⟨List.nodup_cons.mpr ⟨hown, h.nodup⟩, ?_, ?_, ?_⟩
  · intro p hp
    rcases List.mem_cons.mp hp with rfl | hp
    · exact hbase
    · exact h.apart p hp
  · intro p hp
    rcases List.mem_cons.mp hp with rfl | hp
    · exact Finmap.lookup_insert m
    · have hne : p.1 ≠ a := ne_of_mem_of_not_mem (List.mem_map_of_mem hp) hown
      rw [Finmap.lookup_insert_of_ne m hne, h.holds p hp]
  · intro a' ha'
    rw [List.map_cons, List.mem_cons, not_or] at ha'
    rw [Finmap.lookup_insert_of_ne m ha'.1, h.frame a' ha'.2]

theorem Owns.update (h : Owns base ((a, b) :: own) m) (b' : β) :
    Owns base ((a, b') :: own) (m.insert a b') := by
  have hnd := List.nodup_cons.mp h.nodup
  refine ⟨h.nodup, ?_, ?_, ?_⟩
  · intro p hp
    rcases List.mem_cons.mp hp with rfl | hp
    · exact h.apart (a, b) (by simp)
    · exact h.apart p (by simp [hp])
  · intro p hp
    rcases List.mem_cons.mp hp with rfl | hp
    · exact Finmap.lookup_insert m
    · have hne : p.1 ≠ a := ne_of_mem_of_not_mem (List.mem_map_of_mem hp) hnd.1
      rw [Finmap.lookup_insert_of_ne m hne, h.holds p (by simp [hp])]
  · intro a' ha'
    have hne : a' ≠ a := by
      rintro rfl
      exact ha' (by simp)
    rw [Finmap.lookup_insert_of_ne m hne, h.frame a' ha']

theorem Owns.erase (h : Owns base ((a, b) :: own) m) : Owns base own (m.erase a) := by
  have hnd := List.nodup_cons.mp h.nodup
  refine ⟨hnd.2, ?_, ?_, ?_⟩
  · intro p hp
    exact h.apart p (by simp [hp])
  · intro p hp
    have hne : p.1 ≠ a := ne_of_mem_of_not_mem (List.mem_map_of_mem hp) hnd.1
    rw [Finmap.lookup_erase_ne hne, h.holds p (by simp [hp])]
  · intro a' ha'
    by_cases hne : a' = a
    · subst hne
      have hbase := h.apart (a', b) (by simp)
      rw [Finmap.lookup_erase, (Finmap.lookup_eq_none.mpr hbase)]
    · rw [Finmap.lookup_erase_ne hne, h.frame a' (by simp [hne, ha'])]

/-! ## Running a computation -/

theorem load_run (fault : ε) (h : m.lookup a = some b) : load fault a m = .ok (b, m) := by
  rw [load, h]

theorem bind_run {x : M β ε γ} {f : γ → M β ε α} {r : γ} {m' : Mem β} (h : x m = .ok (r, m')) :
    (x >>= f) m = f r m' := by
  change (x m >>= fun p => f p.1 p.2) = _
  rw [h]
  rfl

theorem lift_run {x : Except ε α} {r : α} (h : x = .ok r) (m : Mem β) :
    (liftM x : M β ε α) m = .ok (r, m) := by
  rw [h]
  rfl

/-! ## Total correctness -/

/-- From every memory in `P`, the computation succeeds with a result and a memory in `Q`. -/
def Total (P : Mem β → Prop) (x : M β ε α) (Q : α → Mem β → Prop) : Prop :=
  ∀ m, P m → ∃ r m', x m = .ok (r, m') ∧ Q r m'

variable {P : Mem β → Prop} {Q : α → Mem β → Prop}

theorem Total.pure {r : α} (h : ∀ m, P m → Q r m) : Total P (Pure.pure r : M β ε α) Q :=
  fun m hm => ⟨r, m, rfl, h m hm⟩

theorem Total.bind {x : M β ε γ} {f : γ → M β ε α} {R : γ → Mem β → Prop} (hx : Total P x R)
    (hf : ∀ r, Total (R r) (f r) Q) : Total P (x >>= f) Q := by
  intro m hm
  obtain ⟨r, m₁, hrun, hr⟩ := hx m hm
  obtain ⟨r', m₂, hrun', hr'⟩ := hf r m₁ hr
  exact ⟨r', m₂, (bind_run hrun).trans hrun', hr'⟩

theorem Total.weaken {x : M β ε α} {P' : Mem β → Prop} {Q' : α → Mem β → Prop} (h : Total P' x Q')
    (hP : ∀ m, P m → P' m) (hQ : ∀ r m, Q' r m → Q r m) : Total P x Q := by
  intro m hm
  obtain ⟨r, m', hrun, hr⟩ := h m (hP m hm)
  exact ⟨r, m', hrun, hQ r m' hr⟩

/-- A first step that only reads. -/
theorem Total.read {x : M β ε γ} {f : γ → M β ε α} {r : γ} (hx : ∀ m, P m → x m = .ok (r, m))
    (hf : Total P (f r) Q) : Total P (x >>= f) Q := by
  intro m hm
  obtain ⟨r', m', hrun, hr⟩ := hf m hm
  exact ⟨r', m', (bind_run (hx m hm)).trans hrun, hr⟩

theorem Total.perm {x : M β ε α} (hp : own.Perm own') (h : Total (Owns base own') x Q) :
    Total (Owns base own) x Q :=
  h.weaken (fun _ hm => hm.perm hp) fun _ _ hr => hr

/-- A precondition that does not speak of the memory is a hypothesis. -/
theorem Total.of_and {x : M β ε α} {p : Prop} (h : p → Total P x Q) :
    Total (fun m => p ∧ P m) x Q :=
  fun m hm => h hm.1 m hm.2

theorem Total.of_exists {ι : Type} {x : M β ε α} {P : ι → Mem β → Prop}
    (h : ∀ i, Total (P i) x Q) : Total (fun m => ∃ i, P i m) x Q :=
  fun m ⟨i, hm⟩ => h i m hm

theorem Total.alloc (A : Allocator β) (b : β) :
    Total (Owns base own) (alloc A b : M β ε ℕ) fun a => Owns base ((a, b) :: own) :=
  fun m hm => ⟨A.fresh m, _, rfl, hm.insert (A.fresh_not_mem m) b⟩

theorem Total.store (fault : ε) (b' : β) :
    Total (Owns base ((a, b) :: own)) (store fault a b') fun _ => Owns base ((a, b') :: own) := by
  intro m hm
  refine ⟨(), m.insert a b', ?_, hm.update b'⟩
  rw [Blocks.store, hm.holds (a, b) (by simp)]

theorem Total.free (fault : ε) :
    Total (Owns base ((a, b) :: own)) (free fault a) fun _ => Owns base own := by
  intro m hm
  refine ⟨(), m.erase a, ?_, hm.erase⟩
  rw [Blocks.free, hm.holds (a, b) (by simp)]

end Foundations.Blocks

import Jbinit.Palera1nd.BootstrapCalls
import Jbinit.Palera1nd.BootstrapTrace
import Mathlib.Algebra.Order.Group.Multiset
import Mathlib.Tactic.Abel

/-!
# What `bootstrap()` holds

The descriptors, children and threads that a run has and has not released. Up to eight pipes, four
children and six threads are released by macros, of which some close a descriptor of another pipe
in the place of their own. A run releases everything, each descriptor once, unless one of the
failures `leaks` happens (`bootstrap_tidy_iff`).

A call of `close` or `pthread_join` releases whatever it answers, and `waitpid` when it succeeds.
-/

namespace Jbinit.Palera1nd

open Foundations Calls

inductive Resource
  | descriptor (fd : ℤ)
  | child (child : Child)
  | thread (thread : Thread)
  deriving DecidableEq

/-- What is held, and whether a descriptor that is not held has been closed. -/
structure Held where
  resources : Multiset Resource
  closedTwice : Bool
  deriving DecidableEq

namespace Held

def get (h : Held) (r : Resource) : Held := { h with resources := r ::ₘ h.resources }

def release (h : Held) (r : Resource) : Held := { h with resources := h.resources.erase r }

def close (h : Held) (fd : ℤ) : Held :=
  if .descriptor fd ∈ h.resources then h.release (.descriptor fd) else { h with closedTwice := true }

/-- The result of `open`, which is -1 when it fails. -/
def opened (h : Held) (fd : ℤ) : Held := if fd = -1 then h else h.get (.descriptor fd)

/-- What an event does. -/
def next (h : Held) : Ev → Held
  | ⟨.openRoot, fd⟩ => h.opened fd
  | ⟨.openCreate _, .ok fd⟩ => h.get (.descriptor fd)
  | ⟨.pipe _, .ok fds⟩ => (h.get (.descriptor fds.1)).get (.descriptor fds.2)
  | ⟨.close fd, _⟩ => if fd = -1 then h else h.close fd
  | ⟨.spawn child _, .ok _⟩ => h.get (.child child)
  | ⟨.waitpid child, .ok _⟩ => h.release (.child child)
  | ⟨.pthreadCreate thread _, .ok _⟩ => h.get (.thread thread)
  | ⟨.pthreadJoin thread, _⟩ => h.release (.thread thread)
  | _ => h

def after (h : Held) (t : List Ev) : Held := t.foldl next h

/-- A descriptor that the system can give out. -/
def IsNew (h : Held) (fd : ℤ) : Prop := 0 ≤ fd ∧ .descriptor fd ∉ h.resources

/-- What `open` can return. -/
def IsResult (h : Held) (fd : ℤ) : Prop := fd = -1 ∨ h.IsNew fd

/-- The descriptors of an event are new. -/
def Grants (h : Held) : Ev → Prop
  | ⟨.openRoot, fd⟩ => h.IsResult fd
  | ⟨.openCreate _, .ok fd⟩ => h.IsNew fd
  | ⟨.pipe _, .ok fds⟩ => h.IsNew fds.1 ∧ (h.get (.descriptor fds.1)).IsNew fds.2
  | _ => True

/-- Every descriptor of a trace is new when it is given out. -/
def Granted (h : Held) : List Ev → Prop
  | [] => True
  | e :: t => h.Grants e ∧ (h.next e).Granted t

/-- Everything has been released, and every descriptor once. -/
def Tidy (h : Held) : Prop := h.resources = 0 ∧ h.closedTwice = false

instance (h : Held) (fd : ℤ) : Decidable (h.IsNew fd) := inferInstanceAs (Decidable (_ ∧ _))

instance decidableIsResult (h : Held) (fd : ℤ) : Decidable (h.IsResult fd) :=
  inferInstanceAs (Decidable (_ ∨ _))

instance (h : Held) : DecidablePred h.Grants := fun e => by
  unfold Grants
  split
  case h_1 fd => exact decidableIsResult h fd
  all_goals infer_instance

instance decidableGranted : ∀ h t, Decidable (Granted h t)
  | _, [] => .isTrue trivial
  | h, e :: t =>
    have := decidableGranted (h.next e) t
    inferInstanceAs (Decidable (h.Grants e ∧ (h.next e).Granted t))

instance (h : Held) : Decidable h.Tidy := inferInstanceAs (Decidable (_ ∧ _))

end Held

def Held.nothing : Held := ⟨0, false⟩

/-- The failures after which something is kept. -/
def leaks (flags : Flags) : Ev → Bool
  | ⟨.fsSnapshotRename dirfd _ _, .error e⟩ => dirfd != -1 && e != enoent
  | ⟨.pipe which, .error _⟩ => which == .zstdStderr || which == .pwStderr
  | ⟨.spawn child _, .error _⟩ => child == .tar || child == .zstd
  | ⟨.pthreadCreate thread _, .error _⟩ => thread != .prepBootstrapStdErrLog
  | ⟨.kill _ .sigcont, .error _⟩ => true
  | ⟨.waitpid _, .error _⟩ => true
  | ⟨.access path .xOk, .error _⟩ => path == pwPath flags
  | _ => false

/-! ## The world -/

/-- The state is what is held, with whether one of `leaks` has happened. -/
def holding (flags : Flags) (s : Held × Bool) (e : Ev) (s' : Held × Bool) : Prop :=
  s.1.Grants e ∧ s' = (s.1.next e, s.2 || leaks flags e)

theorem steps_holding (flags : Flags) {h : Held} {t : List Ev} (hgranted : h.Granted t)
    (leaked : Bool) :
    Steps (holding flags) (h, leaked) t (h.after t, leaked || t.any (leaks flags)) := by
  induction t generalizing h leaked with
  | nil =>
    rw [List.any_nil, Bool.or_false]
    rfl
  | cons e t ih =>
    refine ⟨_, ⟨hgranted.1, rfl⟩, ?_⟩
    rw [List.any_cons, ← Bool.or_assoc]
    exact ih hgranted.2 _

namespace Held

/-- The resources `m` are held, and no descriptor has been closed twice. -/
def At (m : Multiset Resource) (leaked : Bool) (s : Held × Bool) : Prop := s = (⟨m, false⟩, leaked)

/-- The states at an exit. -/
def Ended (s : Held × Bool) : Prop := At 0 false s ∨ ∃ r, r ∈ s.1.resources ∧ s.2 = true

/-- Everything is released exactly if none of `leaks` has happened. -/
theorem Ended.tidy_iff {s : Held × Bool} (h : Ended s) : s.1.Tidy ↔ s.2 = false := by
  rcases h with rfl | ⟨r, hr, hleaked⟩
  · exact ⟨fun _ => rfl, fun _ => ⟨rfl, rfl⟩⟩
  · rw [hleaked]
    refine ⟨fun htidy => ?_, fun h => (by cases h)⟩
    rw [htidy.1] at hr
    exact absurd hr (Multiset.notMem_zero r)

variable {flags : Flags} {α ε : Type} {m : Multiset Resource} {leaked : Bool} {r : Resource}
  {E : ε → Held × Bool → Prop}

theorem ignores_plain : Ignores (holding flags) isPlainCall := by
  rintro c hc s r s' ⟨-, rfl⟩
  have hnext : s.1.next ⟨c, r⟩ = s.1 := by
    cases c <;> first | rfl | cases hc
  have hleaks : leaks flags ⟨c, r⟩ = false := by
    cases c with
    | access path mode => cases mode <;> first | rfl | cases hc
    | kill child signal => cases signal <;> first | rfl | cases hc
    | _ => first | rfl | cases hc
  rw [hnext, hleaks, Bool.or_false]

theorem ignores_move : Ignores (holding flags) isMoveCall := Ignores.plainMove ignores_plain

/-- What a call leads to. -/
theorem sys_spec {c : Call} : Triple (holding flags) (At m false) (sys c : Proc Answer ε (Answer c))
    (fun a s => Grants ⟨m, false⟩ ⟨c, a⟩ ∧ s = (next ⟨m, false⟩ ⟨c, a⟩, leaks flags ⟨c, a⟩)) E := by
  refine Triple.perform fun s a s' hs hstep => ?_
  obtain rfl := hs
  exact hstep

/-! ## Cleanups -/

/-- What a call of a cleanup releases. -/
@[simp] def released : Call → Option Resource
  | .close fd => some (.descriptor fd)
  | .pthreadJoin thread => some (.thread thread)
  | _ => none

/-- The calls of a cleanup. -/
def IsCleanup (c : Call) : Prop :=
  match c with
  | .close fd => fd ≠ -1
  | .pthreadJoin _ => True
  | c => isPlainCall c = true

/-- The resources that the calls of a cleanup release. -/
def releasedBy (calls : List Call) : Multiset Resource := calls.filterMap released

@[simp] theorem releasedBy_nil : releasedBy [] = 0 := rfl

@[simp] theorem releasedBy_cons (c : Call) (calls : List Call) :
    releasedBy (c :: calls) = (released c).elim (releasedBy calls) (· ::ₘ releasedBy calls) := by
  rw [releasedBy, List.filterMap_cons]
  cases released c <;> rfl

/-- Releasing a resource that is held. -/
theorem next_cleanup {c : Call} (hc : IsCleanup c) (a : Answer c) :
    next ⟨(released c).elim m (· ::ₘ m), false⟩ ⟨c, a⟩ = ⟨m, false⟩ := by
  cases c with
  | close fd =>
    have hfd : fd ≠ -1 := hc
    simp [released, next, close, hfd, release]
  | pthreadJoin thread => simp [released, next, release]
  | _ => first | rfl | cases hc

theorem leaks_cleanup {c : Call} (hc : IsCleanup c) (a : Answer c) :
    leaks flags ⟨c, a⟩ = false := by
  cases c with
  | access path mode => cases mode <;> first | rfl | cases hc
  | kill child signal => cases signal <;> first | rfl | cases hc
  | _ => first | rfl | cases hc

/-- What is left to be released on the way through a cleanup. -/
def Releasing (m : Multiset Resource) (leaked : Bool) (calls : List Call) (s : Held × Bool) : Prop :=
  (∀ c ∈ calls, IsCleanup c) ∧ At (releasedBy calls + m) leaked s

theorem Releasing.step {c : Call} {calls : List Call} {s s' : Held × Bool} {a : Answer c}
    (h : Releasing m leaked (c :: calls) s) (hstep : holding flags s ⟨c, a⟩ s') :
    Releasing m leaked calls s' := by
  obtain ⟨hcalls, rfl⟩ := h
  obtain ⟨-, rfl⟩ := hstep
  rw [List.forall_mem_cons] at hcalls
  have hcons : releasedBy (c :: calls) + m =
      (released c).elim (releasedBy calls + m) (· ::ₘ (releasedBy calls + m)) := by
    rw [releasedBy_cons]
    cases released c with
    | none => rfl
    | some r => exact Multiset.cons_add r (releasedBy calls) m
  refine ⟨hcalls.2, ?_⟩
  show (next ⟨releasedBy (c :: calls) + m, false⟩ ⟨c, a⟩, leaked || leaks flags ⟨c, a⟩) = _
  rw [hcons, next_cleanup hcalls.1, leaks_cleanup hcalls.1, Bool.or_false]

theorem Releasing.at {s : Held × Bool} (h : Releasing m leaked [] s) : At m leaked s := by
  have hat := h.2
  rwa [releasedBy, List.filterMap_nil, Multiset.coe_nil, zero_add] at hat

/-- **A cleanup** that releases what is held leads to what is left. -/
theorem cleanup_spec {calls : List Call} {x : Daemon Unit} (h : Makes calls (.ok ()) x)
    (hcalls : ∀ c ∈ calls, IsCleanup c) {m' : Multiset Resource}
    (hm : m' = releasedBy calls + m) {E : Failure → Held × Bool → Prop} :
    Triple (holding flags) (At m' leaked) x (fun _ => At m leaked) E :=
  (h.triple (I := Releasing m leaked) fun _ _ _ _ _ => Releasing.step).weaken
    (fun _ hs => ⟨hcalls, hm ▸ hs⟩) (fun _ _ => Releasing.at) fun _ _ hs => hs

/-! ## What is kept -/

/-- The call does not release the resource. -/
def Spares (r : Resource) : Call → Prop
  | .close fd => r ≠ .descriptor fd
  | .pthreadJoin thread => r ≠ .thread thread
  | .waitpid child => r ≠ .child child
  | _ => True

theorem mem_release {h : Held} {r' : Resource} (hr : r ∈ h.resources) (hne : r ≠ r') :
    r ∈ (h.release r').resources :=
  (Multiset.mem_erase_of_ne hne).mpr hr

theorem mem_get {h : Held} (hr : r ∈ h.resources) (r' : Resource) : r ∈ (h.get r').resources :=
  Multiset.mem_cons_of_mem hr

theorem mem_next {h : Held} {e : Ev} (hr : r ∈ h.resources) (hspares : Spares r e.1) :
    r ∈ (h.next e).resources := by
  obtain ⟨c, a⟩ := e
  cases c with
  | openRoot =>
    show r ∈ (h.opened a).resources
    unfold opened
    split
    · exact hr
    · exact mem_get hr _
  | close fd =>
    show r ∈ (if fd = -1 then h else h.close fd).resources
    split
    · exact hr
    · rw [close]
      split
      · exact mem_release hr hspares
      · exact hr
  | pthreadJoin thread => exact mem_release hr hspares
  | openCreate path =>
    cases a with
    | error _ => exact hr
    | ok fd => exact mem_get hr _
  | pipe which =>
    cases a with
    | error _ => exact hr
    | ok fds => exact mem_get (mem_get hr _) _
  | spawn child argv =>
    cases a with
    | error _ => exact hr
    | ok _ => exact mem_get hr _
  | waitpid child =>
    cases a with
    | error _ => exact hr
    | ok _ => exact mem_release hr hspares
  | pthreadCreate thread fd =>
    cases a with
    | error _ => exact hr
    | ok _ => exact mem_get hr _
  | _ => exact hr

/-- On the way through a cleanup that forgets the resource. -/
def Forgetting (r : Resource) (calls : List Call) (s : Held × Bool) : Prop :=
  (∀ c ∈ calls, Spares r c) ∧ r ∈ s.1.resources ∧ s.2 = true

theorem Forgetting.step {c : Call} {calls : List Call} {s s' : Held × Bool} {a : Answer c}
    (h : Forgetting r (c :: calls) s) (hstep : holding flags s ⟨c, a⟩ s') :
    Forgetting r calls s' := by
  obtain ⟨hcalls, hr, hleaked⟩ := h
  obtain ⟨-, rfl⟩ := hstep
  rw [List.forall_mem_cons] at hcalls
  exact ⟨hcalls.2, mem_next hr hcalls.1, by rw [hleaked, Bool.true_or]⟩

/-! ## Exits -/

variable {α : Type} {calls : List Call} {x : Daemon α} {failure : Failure}
  {Q : α → Held × Bool → Prop}

/-- **An exit whose cleanup releases everything.** -/
theorem exit_cleanup (h : Makes calls (.error failure) x) (hcalls : ∀ c ∈ calls, IsCleanup c)
    (hm : m = releasedBy calls) : Triple (holding flags) (At m false) x Q (fun _ => Ended) :=
  (h.exit (I := Releasing 0 false) fun _ _ _ _ _ => Releasing.step).weaken
    (fun _ hs => ⟨hcalls, by rw [add_zero, ← hm]; exact hs⟩) (fun _ _ hs => hs)
      fun _ _ hs => .inl hs.at

/-- **An exit whose cleanup forgets a resource**, after a failure of `leaks`. -/
theorem exit_keeps (h : Makes calls (.error failure) x) (hr : r ∈ m)
    (hcalls : ∀ c ∈ calls, Spares r c) :
    Triple (holding flags) (At m true) x Q (fun _ => Ended) :=
  (h.exit (I := Forgetting r) fun _ _ _ _ _ => Forgetting.step).weaken
    (fun s hs => ⟨hcalls, by rw [hs]; exact ⟨hr, rfl⟩⟩) (fun _ _ hs => hs)
      fun _ _ hs => .inr ⟨r, hs.2⟩

end Held

end Jbinit.Palera1nd

import Jbinit.Palera1nd.Bootstrap

/-!
# What a run of `bootstrap()` does to the file system

Three readings of a trace. `OnlyOwn`: every removal is of `/var/jb`, or of the directory that
`mkdtemp` made earlier in the trace or something in it. `CleansUp`: the archive was extracted and a
checked step failed whose exit removes `tarPath`. `Fs.after`: the directories in preboot whose name
begins with `jb-` and the link `/var/jb` that the run has made.

A `Ledger` keeps all of these along a run, and is what the steps of `bootstrap()` are specified on.
-/

namespace Jbinit.Palera1nd

open Foundations Calls

abbrev Ev := Event Answer

/-! ## Removals -/

/-- The path that a call removes. -/
def removalTarget : Call → Option CStr
  | .unlink path => some path
  | .rmdir path => some path
  | .removefile path => some path
  | _ => none

/-- The directory that an event has made. -/
def madeDirectory : Ev → Option CStr
  | ⟨.mkdtemp template, .ok suffix⟩ => some (fillTemplate template suffix)
  | _ => none

/-- The directory, or a path below it. -/
def within (directory path : CStr) : Bool :=
  path == directory || (directory ++ ['/']).isPrefixOf path

/-- A path that may be removed when the directories `made` have been made. -/
def ownPath (made : List CStr) (path : CStr) : Bool :=
  path == varJb || made.any (within · path)

/-- All removals are of `/var/jb` or of what was made before, beginning with `made`. -/
def OnlyOwnFrom (made : List CStr) : List Ev → Prop
  | [] => True
  | e :: t => (∀ path, removalTarget e.1 = some path → ownPath made path = true) ∧
      OnlyOwnFrom ((madeDirectory e).toList ++ made) t

abbrev OnlyOwn (t : List Ev) : Prop := OnlyOwnFrom [] t

/-! ## Failures after the extraction -/

/-- A wait status that `bootstrap()` takes for a failure. -/
def badStatus (status : ℕ) : Bool :=
  wifexited status && wexitstatus status != 0 || wifsignaled status

/-- The same for `pw`, whose exit status 67 is accepted. -/
def badPwStatus (status : ℕ) : Bool :=
  wifexited status && wexitstatus status != 0 && wexitstatus status != 67 || wifsignaled status

/-- `tar` has been waited for. -/
def tarWaited : Ev → Bool
  | ⟨.waitpid .tar, .ok _⟩ => true
  | _ => false

/-- A failure that is checked after `tar` has been waited for, other than that of the access to
`pw`. -/
def lateFailure (flags : Flags) : Ev → Bool
  | ⟨.waitpid .zstd, .ok status⟩ => badStatus status
  | ⟨.waitpid .tar, .ok status⟩ => badStatus status
  | ⟨.access _ .wOk, .error _⟩ => true
  | ⟨.rename _ _, .error _⟩ => true
  | ⟨.symlink _ _, .error _⟩ => true
  | ⟨.copyfile _ _, .error _⟩ => true
  | ⟨.access path .xOk, .error _⟩ => path == underJb flags "/prep_bootstrap.sh".toList
  | ⟨.pipe .prepBootstrapStdErr, .error _⟩ => true
  | ⟨.pipe .prepBootstrapStdOut, .error _⟩ => true
  | ⟨.pthreadCreate .prepBootstrapStdErrLog _, .error _⟩ => true
  | ⟨.pthreadCreate .prepBootstrapStdOutLog _, .error _⟩ => true
  | ⟨.spawn .prepBootstrap _, .error _⟩ => true
  | ⟨.waitpid .prepBootstrap, .error _⟩ => true
  | ⟨.waitpid .prepBootstrap, .ok status⟩ => badStatus status
  | ⟨.pipe .pwStdin, .error _⟩ => true
  | ⟨.pipe .pwStdout, .error _⟩ => true
  | ⟨.pipe .pwStderr, .error _⟩ => true
  | ⟨.pthreadCreate .pwStderr _, .error _⟩ => true
  | ⟨.pthreadCreate .pwStdout _, .error _⟩ => true
  | ⟨.spawn .pw _, .error _⟩ => true
  | ⟨.waitpid .pw, .error _⟩ => true
  | ⟨.waitpid .pw, .ok status⟩ => badPwStatus status
  | ⟨.openCreate _, .error _⟩ => true
  | ⟨.access path .fOk, .error _⟩ => path == underJb flags "/Library/LaunchDaemons".toList
  | _ => false

/-- `pw` could not be executed. -/
def pwMissing (flags : Flags) : Ev → Bool
  | ⟨.access path .xOk, .error _⟩ => path == pwPath flags
  | _ => false

/-- The archive was extracted, and a later step failed after whose failure `tarPath` is removed. -/
def CleansUp (flags : Flags) (t : List Ev) : Prop :=
  t.any tarWaited = true ∧ t.any (lateFailure flags) = true

/-! ## The file system -/

/-- The part of the file system that the initial check looks at. -/
structure Fs where
  /-- The directories beside each other in preboot whose name begins with `jb-`. -/
  jbDirs : List CStr
  /-- The target of the link `/var/jb`, if the run has made it. -/
  madeLink : Option CStr
  deriving DecidableEq

/-- What an event does to the file system. -/
def Fs.next (fs : Fs) : Ev → Fs
  | ⟨.mkdtemp template, .ok suffix⟩ =>
    { fs with jbDirs := fillTemplate template suffix :: fs.jbDirs }
  | ⟨.unlink path, .ok _⟩ =>
    ⟨fs.jbDirs.filter (· != path), if path == varJb then none else fs.madeLink⟩
  | ⟨.rmdir path, .ok _⟩ => { fs with jbDirs := fs.jbDirs.filter (· != path) }
  | ⟨.removefile path, .ok _⟩ =>
    ⟨fs.jbDirs.filter (· != path), if path == varJb then none else fs.madeLink⟩
  | ⟨.symlink target path, .ok _⟩ =>
    { fs with madeLink := if path == varJb then some target else fs.madeLink }
  | _ => fs

def Fs.after (fs : Fs) (t : List Ev) : Fs := t.foldl Fs.next fs

/-- A removal that failed although there was something to remove. -/
def Fs.stuck (fs : Fs) : Ev → Bool
  | ⟨.removefile path, .error _⟩ => fs.jbDirs.contains path
  | ⟨.unlink path, .error _⟩ => path == varJb && fs.madeLink.isSome
  | _ => false

/-- No removal fails on something that is there. -/
def RemovalsSucceed (fs : Fs) : List Ev → Prop
  | [] => True
  | e :: t => fs.stuck e = false ∧ RemovalsSucceed (fs.next e) t

/-! ## The ledger of a run -/

structure Ledger where
  made : List CStr
  foreign : Bool
  waited : Bool
  failed : Bool
  pwFailed : Bool
  fs : Fs
  stuck : Bool

def Ledger.start : Ledger := ⟨[], false, false, false, false, ⟨[], none⟩, false⟩

/-- A removal of a path that is not one's own. -/
def foreignRemoval (made : List CStr) (c : Call) : Bool :=
  (removalTarget c).any fun path => !ownPath made path

def Ledger.next (flags : Flags) (g : Ledger) (e : Ev) : Ledger where
  made := (madeDirectory e).toList ++ g.made
  foreign := g.foreign || foreignRemoval g.made e.1
  waited := g.waited || tarWaited e
  failed := g.failed || lateFailure flags e
  pwFailed := g.pwFailed || pwMissing flags e
  fs := g.fs.next e
  stuck := g.stuck || g.fs.stuck e

def Ledger.after (flags : Flags) (g : Ledger) (t : List Ev) : Ledger := t.foldl (Ledger.next flags) g

theorem after_cons (flags : Flags) (g : Ledger) (e : Ev) (t : List Ev) :
    g.after flags (e :: t) = (g.next flags e).after flags t := rfl

theorem after_foreign (flags : Flags) (g : Ledger) (t : List Ev) :
    (g.after flags t).foreign = false ↔ g.foreign = false ∧ OnlyOwnFrom g.made t := by
  induction t generalizing g with
  | nil => simp [Ledger.after, OnlyOwnFrom]
  | cons e t ih =>
    have hforeign : foreignRemoval g.made e.1 = false ↔
        ∀ path, removalTarget e.1 = some path → ownPath g.made path = true := by
      unfold foreignRemoval
      cases removalTarget e.1 <;> simp
    rw [after_cons, ih, OnlyOwnFrom, ← hforeign]
    simp only [Ledger.next, Bool.or_eq_false_iff, and_assoc]

theorem after_waited (flags : Flags) (g : Ledger) (t : List Ev) :
    (g.after flags t).waited = (g.waited || t.any tarWaited) := by
  induction t generalizing g with
  | nil => simp [Ledger.after]
  | cons e t ih => rw [after_cons, ih, List.any_cons, ← Bool.or_assoc]; rfl

theorem after_failed (flags : Flags) (g : Ledger) (t : List Ev) :
    (g.after flags t).failed = (g.failed || t.any (lateFailure flags)) := by
  induction t generalizing g with
  | nil => simp [Ledger.after]
  | cons e t ih => rw [after_cons, ih, List.any_cons, ← Bool.or_assoc]; rfl

theorem after_pwFailed (flags : Flags) (g : Ledger) (t : List Ev) :
    (g.after flags t).pwFailed = (g.pwFailed || t.any (pwMissing flags)) := by
  induction t generalizing g with
  | nil => simp [Ledger.after]
  | cons e t ih => rw [after_cons, ih, List.any_cons, ← Bool.or_assoc]; rfl

theorem after_fs (flags : Flags) (g : Ledger) (t : List Ev) :
    (g.after flags t).fs = g.fs.after t := by
  induction t generalizing g with
  | nil => rfl
  | cons e t ih => rw [after_cons, ih]; rfl

theorem after_stuck (flags : Flags) (g : Ledger) (t : List Ev) :
    (g.after flags t).stuck = false ↔ g.stuck = false ∧ RemovalsSucceed g.fs t := by
  induction t generalizing g with
  | nil => simp [Ledger.after, RemovalsSucceed]
  | cons e t ih =>
    rw [after_cons, ih, RemovalsSucceed]
    simp only [Ledger.next, Bool.or_eq_false_iff, and_assoc]

theorem after_made (flags : Flags) (g : Ledger) (t : List Ev) (directory : CStr) :
    directory ∈ (g.after flags t).made ↔
      directory ∈ g.made ∨ ∃ e ∈ t, madeDirectory e = some directory := by
  induction t generalizing g with
  | nil => simp [Ledger.after]
  | cons e t ih =>
    rw [after_cons, ih]
    simp only [Ledger.next, List.mem_append, Option.mem_toList, List.mem_cons, exists_eq_or_imp]
    tauto

end Jbinit.Palera1nd

import Jbinit.Palera1nd.BootstrapSpec

/-!
# What `bootstrap()` removes

`REMOVE_TPATH` is meant for the directory that `mkdtemp` made; its guard has no effect, so that on a
rootful device it removes `/`. `bootstrap_onlyOwn_iff` says in which runs this happens.
-/

namespace Jbinit.Palera1nd

open Foundations Calls

theorem fresh_start : Fresh Ledger.start := ⟨rfl, rfl, rfl, rfl, rfl, rfl⟩

/-- The ledger at the end of a run that fails. -/
theorem exited_after {flags : Flags} {request : BootstrapRequest} {t : List Ev} {failure : Failure}
    (hrun : Run (bootstrap flags request).run t (.error failure)) :
    Exited flags (Ledger.start.after flags t) :=
  (bootstrap_spec request).error_foldl fresh_start hrun

theorem cleansUp_iff (flags : Flags) (t : List Ev) :
    CleansUp flags t ↔ (Ledger.start.after flags t).waited = true ∧
      (Ledger.start.after flags t).failed = true := by
  rw [after_waited, after_failed]
  rfl

theorem onlyOwn_iff (flags : Flags) (t : List Ev) :
    OnlyOwn t ↔ (Ledger.start.after flags t).foreign = false := by
  rw [after_foreign]
  exact ⟨fun h => ⟨rfl, h⟩, fun h => h.2⟩

/-- **What a run removes**: nothing but the directory it has made, what is in it and `/var/jb`,
unless the bootstrap is rootful and a step fails after the extraction whose exit removes
`tarPath`. -/
theorem bootstrap_onlyOwn_iff {flags : Flags} {request : BootstrapRequest} {t : List Ev}
    {r : Except Failure (Except Fault BootstrapReply)} (hrun : Run (bootstrap flags request).run t r) :
    OnlyOwn t ↔ ¬(flags.has palerainOptionRootful = true ∧ CleansUp flags t) := by
  rw [onlyOwn_iff flags, cleansUp_iff]
  cases r with
  | ok _ =>
    obtain ⟨tarPath, hgoing⟩ := (bootstrap_spec request).ok_foldl fresh_start hrun
    have hforeign : (Ledger.start.after flags t).foreign = false := hgoing.foreign
    have hfailed : (Ledger.start.after flags t).failed = false := hgoing.failed
    simp [hforeign, hfailed]
  | error _ =>
    rcases exited_after hrun with hfresh | ⟨tarPath, -, hremoved | hleft⟩
    · simp [hfresh.foreign, hfresh.failed]
    · simp [hremoved.foreign, hremoved.waited, hremoved.failed]
    · rcases hleft.cause with hwaited | ⟨hfailed, -⟩
      · simp [hleft.foreign, hwaited]
      · simp [hleft.foreign, hfailed]

/-! ## A failing extraction -/

/-- Every step succeeds on a device that is not bootstrapped, but `zstd` exits with the wait status
`statZstd`. -/
def extracting (statZstd : ℕ) : ∀ c, Answer c
  | .access path _ => if path = "/.procursus_strapped".toList then .error enoent else .ok ()
  | .lstat _ => .error enoent
  | .waitpid .zstd => .ok statZstd
  | c => success c

def plainRequest : BootstrapRequest :=
  ⟨none, some "/bootstrap.tar.zst".toList, none, none, true⟩

/-- The run of a bootstrap in which `zstd` ends with `statZstd`. -/
def extraction (flags : Flags) (statZstd : ℕ) :
    List Ev × Except Failure (Except Fault BootstrapReply) :=
  drive (extracting statZstd) (bootstrap flags plainRequest).run

theorem run_extraction (flags : Flags) (statZstd : ℕ) :
    Run (bootstrap flags plainRequest).run (extraction flags statZstd).1
      (extraction flags statZstd).2 :=
  run_drive _ _

theorem bootstrap_onlyOwn_rootless :
    OnlyOwn (extraction palerainOptionRootless 256).1 :=
  (bootstrap_onlyOwn_iff (run_extraction _ _)).mpr fun h => absurd h.1 (by decide)

/-- When `zstd` fails on a rootful device, all three removals are of `/`. -/
theorem bootstrap_removes_root :
    Run (bootstrap palerainOptionRootful plainRequest).run
        (extraction palerainOptionRootful 256).1 (extraction palerainOptionRootful 256).2 ∧
      (extraction palerainOptionRootful 256).1.filterMap (removalTarget ·.1) =
        [['/'], ['/'], ['/']] ∧
      ¬OnlyOwn (extraction palerainOptionRootful 256).1 := by
  refine ⟨run_extraction _ _, by decide +kernel, ?_⟩
  rw [onlyOwn_iff palerainOptionRootful]
  decide +kernel

end Jbinit.Palera1nd

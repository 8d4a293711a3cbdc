import Jbinit.CString
import Jbinit.Foundations.Delimited

/-!
# Colon-separated path strings

`enumeratePathString` of `common.c` and the blocks that `spawn_hook_common` hands it. Iterating
`strtok` over a copy of the string yields its non-empty components in order, and the block may stop
the iteration after any of them.

Two blocks are used: one looks for a path (`containsBlock`), the other copies every component but
one into a buffer of fixed size (`rebuildBlock`). `alreadyListed_eq` and `rebuild_eq` say what the
two iterations compute; the second one faults exactly when the filtered list does not fit the
buffer.
-/

namespace Jbinit.Systemhook

open Foundations Delimited

/-- How a spawn ends without reaching the original `posix_spawn`. -/
inductive Stop
  /-- `ENOMEM` is returned. -/
  | enomem
  /-- `strdup(NULL)`. -/
  | nullString
  /-- A string is written past the end of its buffer. -/
  | overflow
  /-- An address that is not allocated is accessed, or an array past its end. -/
  | invalidAccess
  deriving DecidableEq, Repr

/-- The components of a path string: its maximal runs of characters other than the colon. -/
abbrev pathComponents (paths : CStr) : List CStr := components ':' paths

/-- The components of a variable that may be unset, which counts as the empty list. -/
def listedPaths (paths : Option CStr) : List CStr := (paths.map pathComponents).getD []

variable {σ : Type}

@[simp] theorem ok_bind {ε α β : Type} (a : α) (f : α → Except ε β) : (.ok a >>= f) = f a := rfl

@[simp] theorem error_bind {ε α β : Type} (e : ε) (f : α → Except ε β) :
    (.error e >>= f) = .error e := rfl

/-- The loop over the components; the block says with its flag whether to stop. -/
def enumLoop (enumBlock : σ → CStr → Except Stop (σ × Bool)) : σ → List CStr → Except Stop σ
  | s, [] => .ok s
  | s, pathString :: rest => do
    let (s', stop) ← enumBlock s pathString
    if stop then return s'
    enumLoop enumBlock s' rest

def enumeratePathString (pathsString : Option CStr)
    (enumBlock : σ → CStr → Except Stop (σ × Bool)) (s : σ) : Except Stop σ :=
  match pathsString with
  | none => .error .nullString
  | some paths => enumLoop enumBlock s (pathComponents paths)

/-! ## Looking for a path -/

def containsBlock (path : CStr) (found : Bool) (pathString : CStr) : Except Stop (Bool × Bool) :=
  .ok (found || pathString == path, false)

/-- Whether `path` is a component of the variable, which is enumerated only when it is set. -/
def alreadyListed (paths : Option CStr) (path : CStr) : Except Stop Bool :=
  match paths with
  | none => .ok false
  | some _ => enumeratePathString paths (containsBlock path) false

theorem enumLoop_containsBlock (path : CStr) (found : Bool) (cs : List CStr) :
    enumLoop (containsBlock path) found cs = .ok (found || cs.contains path) := by
  induction cs generalizing found with
  | nil => simp [enumLoop]
  | cons c cs ih =>
    have step : enumLoop (containsBlock path) found (c :: cs) =
        enumLoop (containsBlock path) (found || c == path) cs := rfl
    rw [step, ih, List.contains_cons, BEq.comm (a := c), Bool.or_assoc]

theorem alreadyListed_eq (paths : Option CStr) (path : CStr) :
    alreadyListed paths path = .ok ((listedPaths paths).contains path) := by
  cases paths with
  | none => simp [alreadyListed, listedPaths]
  | some paths => simp [alreadyListed, enumeratePathString, enumLoop_containsBlock, listedPaths]

/-! ## Copying all paths but one -/

/-- A library copy, or the fault of one that does not fit. -/
def checked (copy : Option CStr) : Except Stop CStr :=
  match copy with
  | some buf => .ok buf
  | none => .error .overflow

/-- The block that rebuilds a variable without `path`, in a buffer of `cap` bytes. Its state is the
buffer's string and the flag `first`. -/
def rebuildBlock (path : CStr) (cap : ℕ) (s : CStr × Bool) (pathString : CStr) :
    Except Stop ((CStr × Bool) × Bool) :=
  if pathString != path then
    if s.2 then do
      let buf ← checked (CStr.strcpy cap pathString)
      return ((buf, false), false)
    else do
      let buf ← checked (CStr.strcat cap s.1 [':'])
      let buf ← checked (CStr.strcat cap buf pathString)
      return ((buf, s.2), false)
  else return (s, false)

/-- The iteration from the empty string. -/
def rebuild (path : CStr) (cap : ℕ) (paths : Option CStr) : Except Stop CStr :=
  (enumeratePathString paths (rebuildBlock path cap) ([], true)).map Prod.fst

theorem checked_strcpy (cap : ℕ) (s : CStr) :
    checked (CStr.strcpy cap s) = if s.length < cap then .ok s else .error .overflow := by
  unfold CStr.strcpy
  by_cases h : s.length < cap
  · rw [if_pos (show s.length + 1 ≤ cap from h), if_pos h]; rfl
  · rw [if_neg (show ¬ s.length + 1 ≤ cap from h), if_neg h]; rfl

theorem rebuildBlock_skip (path : CStr) (cap : ℕ) (s : CStr × Bool) :
    rebuildBlock path cap s path = .ok (s, false) := by
  simp only [rebuildBlock, bne_self_eq_false, Bool.false_eq_true, if_false]
  rfl

/-- The block on a component that stays: it is appended to what is in the buffer, if it fits. -/
theorem rebuildBlock_keep {path c : CStr} (h : c ≠ path) (cap : ℕ) (done : List CStr) :
    rebuildBlock path cap (join ':' done, done.isEmpty) c =
      if (join ':' (done ++ [c])).length < cap then
        .ok ((join ':' (done ++ [c]), (done ++ [c]).isEmpty), false)
      else .error .overflow := by
  cases done with
  | nil =>
    have hjoin : join ':' ([] ++ [c]) = c := rfl
    rw [hjoin]
    simp only [rebuildBlock, bne_iff_ne.mpr h, if_true, List.isEmpty_nil, checked_strcpy]
    by_cases hfit : c.length < cap
    · simp only [if_pos hfit, ok_bind]
      rfl
    · simp only [if_neg hfit, error_bind]
  | cons d ds =>
    have hjoin : join ':' ((d :: ds) ++ [c]) = join ':' (d :: ds) ++ ':' :: c :=
      join_concat (by simp) c
    simp only [rebuildBlock, bne_iff_ne.mpr h, if_true, List.isEmpty_cons, Bool.false_eq_true,
      if_false, CStr.strcat, checked_strcpy, hjoin]
    by_cases hfit : (join ':' (d :: ds) ++ ':' :: c).length < cap
    · have hcolon : (join ':' (d :: ds) ++ [':']).length < cap := by
        simp only [List.length_append, List.length_cons, List.length_nil] at hfit ⊢
        omega
      have happ : (join ':' (d :: ds) ++ [':']) ++ c = join ':' (d :: ds) ++ ':' :: c := by simp
      rw [if_pos hcolon, if_pos hfit]
      simp only [ok_bind, happ, if_pos hfit]
      rfl
    · rw [if_neg hfit]
      by_cases hcolon : (join ':' (d :: ds) ++ [':']).length < cap
      · have happ : (join ':' (d :: ds) ++ [':']) ++ c = join ':' (d :: ds) ++ ':' :: c := by simp
        rw [if_pos hcolon]
        simp only [ok_bind, happ, if_neg hfit]
        rfl
      · rw [if_neg hcolon]
        rfl

/-- The iteration from any point on: the buffer holds the join of the components kept so far. -/
theorem enumLoop_rebuildBlock (path : CStr) (cap : ℕ) (cs done : List CStr)
    (hdone : (join ':' done).length < cap) :
    enumLoop (rebuildBlock path cap) (join ':' done, done.isEmpty) cs =
      if (join ':' (done ++ cs.filter (· != path))).length < cap then
        .ok (join ':' (done ++ cs.filter (· != path)), (done ++ cs.filter (· != path)).isEmpty)
      else .error .overflow := by
  induction cs generalizing done with
  | nil => simp [enumLoop, hdone]
  | cons c cs ih =>
    by_cases hc : c = path
    · subst hc
      have step : enumLoop (rebuildBlock c cap) (join ':' done, done.isEmpty) (c :: cs) =
          enumLoop (rebuildBlock c cap) (join ':' done, done.isEmpty) cs := by
        rw [enumLoop, rebuildBlock_skip]
        rfl
      rw [step, ih done hdone]
      simp
    · have hfilter : (c :: cs).filter (· != path) = c :: cs.filter (· != path) := by simp [hc]
      have happ : done ++ c :: cs.filter (· != path) = done ++ [c] ++ cs.filter (· != path) := by
        simp
      rw [enumLoop, rebuildBlock_keep hc, hfilter, happ]
      by_cases hfit : (join ':' (done ++ [c])).length < cap
      · rw [if_pos hfit, ← ih (done ++ [c]) hfit]
        rfl
      · have hle : (join ':' (done ++ [c])).length ≤
            (join ':' (done ++ [c] ++ cs.filter (· != path))).length := by
          have h₁ : (join ':' (done ++ [c])).length + 1 = weight (done ++ [c]) :=
            length_join ':' (by simp)
          have h₂ : (join ':' (done ++ [c] ++ cs.filter (· != path))).length + 1 =
              weight (done ++ [c] ++ cs.filter (· != path)) := length_join ':' (by simp)
          rw [weight_append] at h₂
          omega
        rw [if_neg hfit, if_neg (by omega)]
        rfl

/-- The components other than `path`, joined. -/
def withoutPath (path : CStr) (paths : Option CStr) : CStr :=
  join ':' ((listedPaths paths).filter (· != path))

/-- **The rebuilt string** is the join of the other components; it faults exactly when that does
not fit the buffer. -/
theorem rebuild_eq (path : CStr) (n : ℕ) (paths : CStr) :
    rebuild path (n + 1) (some paths) =
      if (withoutPath path (some paths)).length < n + 1 then .ok (withoutPath path (some paths))
      else .error .overflow := by
  have h := enumLoop_rebuildBlock path (n + 1) (pathComponents paths) [] (by simp)
  simp only [join_nil, List.isEmpty_nil, List.nil_append] at h
  rw [rebuild, enumeratePathString, h, apply_ite (Except.map Prod.fst)]
  rfl

theorem length_withoutPath_le (path paths : CStr) :
    (withoutPath path (some paths)).length ≤ paths.length :=
  length_join_le List.filter_sublist

/-- A copy of a string without one of its components fits in a buffer of the string's own size. -/
theorem rebuild_self (path paths : CStr) :
    rebuild path (paths.length + 1) (some paths) = .ok (withoutPath path (some paths)) := by
  have h := length_withoutPath_le path paths
  rw [rebuild_eq, if_pos (by omega)]

/-- The components of a rebuilt string are the ones that were kept. -/
theorem listedPaths_withoutPath (path : CStr) (paths : Option CStr) :
    listedPaths (some (withoutPath path paths)) = (listedPaths paths).filter (· != path) := by
  cases paths with
  | none => simp [withoutPath, listedPaths]
  | some paths =>
    exact components_join fun _ hc => isComponent_of_mem (List.mem_filter.mp hc).1

end Jbinit.Systemhook

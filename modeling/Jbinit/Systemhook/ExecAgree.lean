import Jbinit.Systemhook.ExecHooks

/-!
# When the exec hooks agree with `posix_spawnp_hook`

The handlers of the exec hooks answer 0 or -1 when a candidate fails, so that `resolvePath` looks
only at whether the candidate is there: the exec hooks go on exactly to the first candidate that can
be executed or is there (`resolveFrom_exec`). `posix_spawnp_hook` looks at the error
(`resolveFrom_spawn_there`). The two agree under `SearchAgrees`, and only then
(`execHooks_agree_iff`).
-/

namespace Jbinit.Systemhook

variable {w : World}

/-! ## One candidate -/

/-- What the loop does with the answer of the handler. -/
theorem resolveFrom_cons {attemptHandler : CStr → HookM ℤ} {bp : CStr} {s s' : Process} {err : ℤ}
    (h : attemptHandler bp s = .ok err s') (rest : List (Option CStr)) (accessDenied : Bool) :
    resolveFrom w attemptHandler (some bp :: rest) accessDenied s =
      if err ∈ stopErrors then .ok err s'
      else if err ∈ searchErrors then resolveFrom w attemptHandler rest accessDenied s'
      else if w.stat bp = 0 then
        if err = eacces then resolveFrom w attemptHandler rest true s' else .ok err s'
      else resolveFrom w attemptHandler rest accessDenied { s' with errno := w.stat bp } := by
  have hbind : resolveFrom w attemptHandler (some bp :: rest) accessDenied s = (do
      if err ∈ stopErrors then return err
      else if err ∈ searchErrors then resolveFrom w attemptHandler rest accessDenied
      else if !(← statPath w bp) then resolveFrom w attemptHandler rest accessDenied
      else if err = eacces then resolveFrom w attemptHandler rest true
      else return err : HookM ℤ) s' := by
    show EStateM.bind _ _ s = _
    unfold EStateM.bind
    rw [h]
  rw [hbind]
  split
  · rfl
  split
  · rfl
  show EStateM.bind (statPath w bp) _ s' = _
  by_cases hstat : w.stat bp = 0
  · have hrun : statPath w bp s' = .ok true s' := by
      unfold statPath
      rw [if_pos hstat]
      rfl
    unfold EStateM.bind
    rw [hrun, if_pos hstat]
    show (if err = eacces then resolveFrom w attemptHandler rest true else pure err : HookM ℤ) s' = _
    split
    · rfl
    · rfl
  · have hrun : statPath w bp s' = .ok false { s' with errno := w.stat bp } := by
      unfold statPath
      rw [if_neg hstat]
      rfl
    unfold EStateM.bind
    rw [hrun, if_neg hstat]
    rfl

theorem resolveFrom_of_throw {attemptHandler : CStr → HookM ℤ} {bp path : CStr} {s s' : Process}
    (h : attemptHandler bp s = .error path s') (rest : List (Option CStr)) (accessDenied : Bool) :
    resolveFrom w attemptHandler (some bp :: rest) accessDenied s = .error path s' := by
  show EStateM.bind _ _ s = _
  unfold EStateM.bind
  rw [h]

/-! ## The exec hooks -/

/-- A handler of an exec hook: it answers the same for every candidate that fails. -/
structure FailsWith (w : World) (attemptHandler : CStr → HookM ℤ) (r : ℤ) : Prop where
  executes : ∀ bp s, w.exec bp = 0 →
    attemptHandler bp s = .error bp { s with attempts := s.attempts ++ [bp] }
  fails : ∀ bp s, w.exec bp ≠ 0 → ∃ s', attemptHandler bp s = .ok r s' ∧
    s'.attempts = s.attempts ++ [bp] ∧ s'.errno = w.exec bp
  goesOn : r ∉ stopErrors ∧ r ∉ searchErrors ∧ r ≠ eacces

theorem failsWith_execveHook (w : World) : FailsWith w (execveHook w) (-1) := by
  refine ⟨fun bp s h => ?_, fun bp s h =>
    ⟨⟨s.attempts ++ [bp], w.exec bp, s.execveFailed⟩, ?_, rfl, rfl⟩, by decide⟩
  · show (if w.exec bp = 0 then throw bp else _ : HookM ℤ) _ = _
    rw [if_pos h]
    rfl
  · show (if w.exec bp = 0 then throw bp else _ : HookM ℤ) _ = _
    rw [if_neg h]
    rfl

theorem execvPHandler_run {bp : CStr} (h : w.exec bp ≠ 0) (s : Process) :
    execvPHandler w bp s = .ok 0 ⟨s.attempts ++ [bp], w.exec bp, true⟩ := by
  have hrun : execveHook w bp s = .ok (-1) ⟨s.attempts ++ [bp], w.exec bp, s.execveFailed⟩ := by
    show (if w.exec bp = 0 then throw bp else _ : HookM ℤ) _ = _
    rw [if_neg h]
    rfl
  show EStateM.bind (execveHook w bp) _ s = _
  unfold EStateM.bind
  rw [hrun]
  rfl

theorem failsWith_execvPHandler (w : World) : FailsWith w (execvPHandler w) 0 := by
  refine ⟨fun bp s h => ?_, fun bp s h => ⟨_, execvPHandler_run h s, rfl, rfl⟩, by decide⟩
  show EStateM.bind (execveHook w bp) _ s = _
  unfold EStateM.bind
  rw [(failsWith_execveHook w).executes bp s h]

/-- An exec hook goes on to the first candidate that can be executed or is there. -/
theorem resolveFrom_exec {attemptHandler : CStr → HookM ℤ} {r : ℤ}
    (hr : FailsWith w attemptHandler r) (candidates : List (Option CStr)) (s : Process) :
    match firstThere w candidates with
    | some (before, c, _) => ∃ s₀, s₀.attempts = s.attempts ++ before ∧
        resolveFrom w attemptHandler candidates false s = attemptHandler c s₀
    | none => ∃ code s', 0 < code ∧
        resolveFrom w attemptHandler candidates false s = .ok code s' := by
  induction candidates generalizing s with
  | nil => exact ⟨enoent, s, by decide, rfl⟩
  | cons candidate rest ih =>
    cases candidate with
    | none => exact ⟨enametoolong, s, by decide, rfl⟩
    | some bp =>
      unfold firstThere
      by_cases hexec : w.exec bp = 0
      · rw [if_pos (.inl hexec)]
        refine ⟨s, (List.append_nil _).symm, ?_⟩
        rw [hr.executes bp s hexec]
        exact resolveFrom_of_throw (hr.executes bp s hexec) rest false
      · obtain ⟨s', hrun, hattempts, -⟩ := hr.fails bp s hexec
        have hcons := resolveFrom_cons (w := w) hrun rest false
        rw [if_neg hr.goesOn.1, if_neg hr.goesOn.2.1, if_neg hr.goesOn.2.2] at hcons
        by_cases hstat : w.stat bp = 0
        · rw [if_pos (.inr hstat)]
          refine ⟨s, (List.append_nil _).symm, ?_⟩
          rw [hcons, if_pos hstat, hrun]
        · rw [if_neg (by simp [hexec, hstat]), hcons, if_neg hstat]
          have hrest := ih { s' with errno := w.stat bp }
          cases hfirst : firstThere w rest with
          | none =>
            rw [hfirst] at hrest
            exact hrest
          | some found =>
            rw [hfirst] at hrest
            obtain ⟨s₀, hs₀, hrun₀⟩ := hrest
            refine ⟨s₀, ?_, hrun₀⟩
            rw [hs₀]
            simp [hattempts]

/-! ## `posix_spawnp_hook` -/

theorem resolveFrom_spawn_cons (w : World) (bp : CStr) (rest : List (Option CStr))
    (accessDenied : Bool) (s : Process) :
    resolveFrom w (spawnPath w) (some bp :: rest) accessDenied s =
      if (w.exec bp : ℤ) ∈ stopErrors then
        .ok (w.exec bp) { s with attempts := s.attempts ++ [bp] }
      else if (w.exec bp : ℤ) ∈ searchErrors then
        resolveFrom w (spawnPath w) rest accessDenied { s with attempts := s.attempts ++ [bp] }
      else if w.stat bp = 0 then
        if (w.exec bp : ℤ) = eacces then
          resolveFrom w (spawnPath w) rest true { s with attempts := s.attempts ++ [bp] }
        else .ok (w.exec bp) { s with attempts := s.attempts ++ [bp] }
      else resolveFrom w (spawnPath w) rest accessDenied
        { s with attempts := s.attempts ++ [bp], errno := w.stat bp } :=
  resolveFrom_cons rfl rest accessDenied

/-- The search ends, and the candidates that it tries come after those that were tried. -/
theorem resolveFrom_spawn_grows (w : World) (candidates : List (Option CStr)) (accessDenied : Bool)
    (s : Process) :
    ∃ ret s', resolveFrom w (spawnPath w) candidates accessDenied s = .ok ret s' ∧
      s.attempts ++ candidates.head?.join.toList <+: s'.attempts := by
  induction candidates generalizing accessDenied s with
  | nil => exact ⟨_, s, rfl, by simp⟩
  | cons candidate rest ih =>
    cases candidate with
    | none => exact ⟨_, s, rfl, by simp⟩
    | some bp =>
      have hrest (accessDenied : Bool) (errno : ℤ) :
          ∃ ret s', resolveFrom w (spawnPath w) rest accessDenied
            { s with attempts := s.attempts ++ [bp], errno } = .ok ret s' ∧
              s.attempts ++ [bp] <+: s'.attempts := by
        obtain ⟨ret, s', hrun, hgrows⟩ := ih accessDenied
          { s with attempts := s.attempts ++ [bp], errno }
        exact ⟨ret, s', hrun, (List.prefix_append _ _).trans hgrows⟩
      rw [resolveFrom_spawn_cons]
      split
      · exact ⟨_, _, rfl, List.prefix_rfl⟩
      split
      · exact hrest accessDenied s.errno
      split
      · split
        · exact hrest true s.errno
        · exact ⟨_, _, rfl, List.prefix_rfl⟩
      · exact hrest accessDenied _

/-- What `firstThere` finds. -/
structure FirstThere (w : World) (candidates : List (Option CStr)) (before : List CStr) (c : CStr)
    (after : List (Option CStr)) : Prop where
  split : candidates = before.map some ++ some c :: after
  missing : ∀ b ∈ before, w.exec b ≠ 0 ∧ w.stat b ≠ 0
  there : w.exec c = 0 ∨ w.stat c = 0

theorem firstThere_eq_some {candidates : List (Option CStr)} {before : List CStr} {c : CStr}
    {after : List (Option CStr)} (h : firstThere w candidates = some (before, c, after)) :
    FirstThere w candidates before c after := by
  induction candidates generalizing before with
  | nil => cases h
  | cons candidate rest ih =>
    cases candidate with
    | none => cases h
    | some bp =>
      unfold firstThere at h
      split at h
      case isTrue hthere =>
        cases h
        exact ⟨rfl, by simp, hthere⟩
      case isFalse hmissing =>
        obtain ⟨⟨before', c', after'⟩, hfirst, heq⟩ := Option.map_eq_some_iff.mp h
        cases heq
        obtain ⟨hsplit, hbefore, hthere⟩ := ih hfirst
        rw [not_or] at hmissing
        refine ⟨by rw [hsplit]; rfl, ?_, hthere⟩
        rw [List.forall_mem_cons]
        exact ⟨hmissing, hbefore⟩

/-- `posix_spawnp_hook` goes on past candidates that are missing. -/
theorem resolveFrom_spawn_missing {before : List CStr}
    (hmissing : ∀ b ∈ before, w.exec b ≠ 0 ∧ w.stat b ≠ 0)
    (hstop : ∀ b ∈ before, (w.exec b : ℤ) ∉ stopErrors) (rest : List (Option CStr)) (s : Process) :
    ∃ s₀, s₀.attempts = s.attempts ++ before ∧
      resolveFrom w (spawnPath w) (before.map some ++ rest) false s =
        resolveFrom w (spawnPath w) rest false s₀ := by
  induction before generalizing s with
  | nil => exact ⟨s, (List.append_nil _).symm, rfl⟩
  | cons b before ih =>
    rw [List.forall_mem_cons] at hmissing hstop
    have hcons := resolveFrom_spawn_cons w b (before.map some ++ rest) false s
    rw [if_neg hstop.1, if_neg hmissing.1.2] at hcons
    have hnext (errno : ℤ) := ih hmissing.2 hstop.2 { s with attempts := s.attempts ++ [b], errno }
    rw [List.map_cons, List.cons_append, hcons]
    split
    · obtain ⟨s₀, hs₀, hrun⟩ := hnext s.errno
      exact ⟨s₀, by simp [hs₀], hrun⟩
    · obtain ⟨s₀, hs₀, hrun⟩ := hnext (w.stat b)
      exact ⟨s₀, by simp [hs₀], hrun⟩

/-- It stops at one of them whose error says so. -/
theorem resolveFrom_spawn_stops {before : List CStr}
    (hmissing : ∀ b ∈ before, w.exec b ≠ 0 ∧ w.stat b ≠ 0)
    (hstop : ∃ b ∈ before, (w.exec b : ℤ) ∈ stopErrors) (rest : List (Option CStr)) (s : Process) :
    ∃ ret s' tried, resolveFrom w (spawnPath w) (before.map some ++ rest) false s = .ok ret s' ∧
      s'.attempts = s.attempts ++ tried ∧ tried <+: before := by
  induction before generalizing s with
  | nil => simp at hstop
  | cons b before ih =>
    rw [List.forall_mem_cons] at hmissing
    have hcons := resolveFrom_spawn_cons w b (before.map some ++ rest) false s
    rw [if_neg hmissing.1.2] at hcons
    rw [List.map_cons, List.cons_append, hcons]
    by_cases hb : (w.exec b : ℤ) ∈ stopErrors
    · rw [if_pos hb]
      exact ⟨_, _, [b], rfl, rfl, by simp⟩
    · have hrest : ∃ b ∈ before, (w.exec b : ℤ) ∈ stopErrors := by
        obtain ⟨b', hb', hstops⟩ := hstop
        rcases List.mem_cons.mp hb' with rfl | hb'
        · exact absurd hstops hb
        · exact ⟨b', hb', hstops⟩
      have hnext (errno : ℤ) := ih hmissing.2 hrest { s with attempts := s.attempts ++ [b], errno }
      rw [if_neg hb]
      split
      · obtain ⟨ret, s', tried, hrun, hattempts, hstart⟩ := hnext s.errno
        exact ⟨ret, s', b :: tried, hrun, by simp [hattempts], by simpa using hstart⟩
      · obtain ⟨ret, s', tried, hrun, hattempts, hstart⟩ := hnext (w.stat b)
        exact ⟨ret, s', b :: tried, hrun, by simp [hattempts], by simpa using hstart⟩

/-! ## The candidate that is there -/

/-- The error of a candidate that is there is also that of `posix_spawnp_hook`. -/
def SameError (w : World) (c : CStr) (after : List (Option CStr)) : Prop :=
  (w.exec c : ℤ) ∉ searchErrors ∧ (w.exec c : ℤ) ≠ eacces ∨
    after = [] ∧ ((w.exec c : ℤ) = eacces ∨ (w.exec c : ℤ) = enoent) ∨
    after.head? = some none ∧ (w.exec c : ℤ) = enametoolong

theorem not_search_of_stop {err : ℤ} (h : err ∈ stopErrors) : err ∉ searchErrors ∧ err ≠ eacces := by
  unfold stopErrors at h
  simp only [List.mem_cons, List.not_mem_nil, or_false] at h
  rcases h with rfl | rfl | rfl | rfl <;> decide

theorem eacces_not_search : eacces ∉ searchErrors := by decide

/-- `posix_spawnp_hook` when it goes on past a candidate that is there. -/
theorem resolveFrom_spawn_goesOn {c : CStr} {accessDenied : Bool}
    (herror : ¬((w.exec c : ℤ) ∉ searchErrors ∧ (w.exec c : ℤ) ≠ eacces))
    (hdenied : (w.exec c : ℤ) = eacces ↔ accessDenied = true) (after : List (Option CStr))
    (s : Process) :
    ∃ ret s', resolveFrom w (spawnPath w) after accessDenied s = .ok ret s' ∧
      (s'.attempts = s.attempts ∧ ret = w.exec c ↔ SameError w c after) := by
  unfold SameError
  cases after with
  | nil =>
    refine ⟨_, s, rfl, ?_⟩
    cases accessDenied with
    | true =>
      have heacces := hdenied.mpr rfl
      exact iff_of_true ⟨rfl, heacces.symm⟩ (.inr (.inl ⟨rfl, .inl heacces⟩))
    | false =>
      have hne : (w.exec c : ℤ) ≠ eacces := fun h => by cases hdenied.mp h
      simp only [herror, hne, false_or, true_and, List.head?_nil, reduceCtorEq, false_and, or_false]
      exact eq_comm
  | cons candidate rest =>
    cases candidate with
    | none =>
      refine ⟨enametoolong, s, rfl, ?_⟩
      simp only [herror, false_or, reduceCtorEq, false_and, List.head?_cons, true_and]
      exact eq_comm
    | some d =>
      obtain ⟨ret, s', hrun, hstart⟩ := resolveFrom_spawn_grows w (some d :: rest) accessDenied s
      refine ⟨ret, s', hrun, iff_of_false (fun h => ?_) (by simp [herror])⟩
      have hlength : (s.attempts ++ [d]).length ≤ s.attempts.length := h.1 ▸ hstart.length_le
      rw [List.length_append, List.length_singleton] at hlength
      omega

/-- `posix_spawnp_hook` from a candidate on that is there and cannot be executed. It ends there with
the error of the candidate, or it tries more or ends with another error. -/
theorem resolveFrom_spawn_there {c : CStr} (hstat : w.stat c = 0) (after : List (Option CStr))
    (s : Process) :
    ∃ ret s', resolveFrom w (spawnPath w) (some c :: after) false s = .ok ret s' ∧
      (s'.attempts = s.attempts ++ [c] ∧ ret = w.exec c ↔ SameError w c after) := by
  rw [resolveFrom_spawn_cons, if_pos hstat]
  by_cases hstop : (w.exec c : ℤ) ∈ stopErrors
  · rw [if_pos hstop]
    exact ⟨_, _, rfl, iff_of_true ⟨rfl, rfl⟩ (.inl (not_search_of_stop hstop))⟩
  rw [if_neg hstop]
  by_cases hsearch : (w.exec c : ℤ) ∈ searchErrors
  · rw [if_pos hsearch]
    refine resolveFrom_spawn_goesOn (fun h => h.1 hsearch) ?_ after _
    exact ⟨fun h => absurd (h ▸ hsearch) eacces_not_search, fun h => by cases h⟩
  rw [if_neg hsearch]
  by_cases hdenied : (w.exec c : ℤ) = eacces
  · rw [if_pos hdenied]
    exact resolveFrom_spawn_goesOn (fun h => h.2 hdenied) ⟨fun _ => rfl, fun _ => hdenied⟩ after _
  · rw [if_neg hdenied]
    exact ⟨_, _, rfl, iff_of_true ⟨rfl, rfl⟩ (.inl ⟨hsearch, hdenied⟩)⟩

/-! ## Agreement -/

theorem find?_of_missing {before rest : List CStr} (hmissing : ∀ b ∈ before, w.exec b ≠ 0) :
    (before ++ rest).find? (fun path => w.exec path = 0) =
      rest.find? fun path => w.exec path = 0 := by
  rw [List.find?_append, List.find?_eq_none.mpr fun b hb => by simpa using hmissing b hb]
  rfl

/-- The result of an exec hook that tried `before` and `c`. -/
def execResult (w : World) (s : Process) (c : CStr) : EStateM.Result CStr Process ℤ :=
  if w.exec c = 0 then .error c s else .ok (-1) s

theorem execResult_of_exec {c : CStr} (h : w.exec c = 0) (s : Process) :
    execResult w s c = .error c s := if_pos h

theorem execResult_of_fails {c : CStr} (h : w.exec c ≠ 0) (s : Process) :
    execResult w s c = .ok (-1) s := if_neg h

/-- A hook that goes on to the first candidate that can be executed or is there agrees under
`SearchAgrees`, and only then. -/
theorem agreesWith_iff {candidates : List (Option CStr)} {before : List CStr} {c : CStr}
    {after : List (Option CStr)} (h : firstThere w candidates = some (before, c, after))
    {s s' : Process} (hs : s.attempts = []) (hattempts : s'.attempts = before ++ [c])
    (herrno : w.exec c ≠ 0 → s'.errno = w.exec c) :
    AgreesWith w (resolveFrom w (spawnPath w) candidates false s) (execResult w s' c) ↔
      SearchAgrees w candidates := by
  obtain ⟨hsplit, hmissing, hthere⟩ := firstThere_eq_some h
  have hbefore (b : CStr) (hb : b ∈ before) := (hmissing b hb).1
  have hiff : SearchAgrees w candidates ↔ (∀ b ∈ before, (w.exec b : ℤ) ∉ stopErrors) ∧
      (w.exec c = 0 ∨ SameError w c after) := by
    unfold SearchAgrees SameError
    rw [h]
    simp
  rw [hiff, hsplit]
  by_cases hstop : ∃ b ∈ before, (w.exec b : ℤ) ∈ stopErrors
  · obtain ⟨ret, s₁, tried, hrun, htried, hstart⟩ :=
      resolveFrom_spawn_stops hmissing hstop (some c :: after) s
    rw [hs, List.nil_append] at htried
    rw [hrun]
    obtain ⟨b, hb, hb'⟩ := hstop
    refine iff_of_false (fun hagrees => ?_) fun hboth => hboth.1 b hb hb'
    unfold execResult at hagrees
    split at hagrees
    · have hfind : s₁.attempts.find? (fun path => w.exec path = 0) = some c := hagrees.1
      rw [htried] at hfind
      have hc := List.find?_some hfind
      exact hbefore c (hstart.subset (List.mem_of_find?_eq_some hfind)) (by simpa using hc)
    · have hlength := hstart.length_le
      rw [← htried, ← hagrees.2.1, hattempts, List.length_append, List.length_singleton] at hlength
      omega
  · push Not at hstop
    obtain ⟨s₀, hs₀, hrun⟩ := resolveFrom_spawn_missing hmissing hstop (some c :: after) s
    rw [hs, List.nil_append] at hs₀
    rw [hrun, and_iff_right hstop]
    unfold execResult
    by_cases hexec : w.exec c = 0
    · rw [if_pos hexec]
      obtain ⟨ret, s₁, hrun₁, hgrows⟩ := resolveFrom_spawn_grows w (some c :: after) false s₀
      rw [hrun₁]
      refine iff_of_true ⟨?_, ?_⟩ (.inl hexec)
      · obtain ⟨more, hmore⟩ := hgrows
        show s₁.attempts.find? (fun path => w.exec path = 0) = some c
        rw [← hmore, hs₀, List.append_assoc, find?_of_missing hbefore]
        simp [hexec]
      · rw [hattempts, ← hs₀]
        exact hgrows
    · rw [if_neg hexec]
      obtain ⟨ret, s₁, hrun₁, hsame⟩ :=
        resolveFrom_spawn_there (hthere.resolve_left hexec) after s₀
      rw [hrun₁, or_iff_right hexec, ← hsame, hs₀]
      constructor
      · intro hagrees
        exact ⟨hagrees.2.1.symm.trans hattempts, hagrees.2.2.2.symm.trans (herrno hexec)⟩
      · rintro ⟨hattempts₁, hret⟩
        refine ⟨?_, hattempts.trans hattempts₁.symm, rfl, (herrno hexec).trans hret.symm⟩
        show s₁.attempts.find? (fun path => w.exec path = 0) = none
        rw [hattempts₁, find?_of_missing hbefore]
        simp [hexec]

/-! ## The hooks -/

variable (w) (getenvPath : Option CStr)

/-- The candidates of a search in `PATH`. -/
def pathCandidates (file : CStr) : List (Option CStr) :=
  candidates file (getenvPath.getD pathDefpath)

theorem execlpHook_run {file : CStr} (hfile : file ≠ []) (errno : ℤ) (failed : Bool) :
    match firstThere w (pathCandidates getenvPath file) with
    | some (before, c, _) => ∃ s' : Process, s'.attempts = before ++ [c] ∧
        (w.exec c ≠ 0 → s'.errno = w.exec c) ∧
        execlpHook w getenvPath file ⟨[], errno, failed⟩ = execResult w s' c
    | none => ∃ code s', 0 < code ∧
        execlpHook w getenvPath file ⟨[], errno, failed⟩ = .ok code s' := by
  have hrun : execlpHook w getenvPath file = resolveFrom w (execveHook w)
      (pathCandidates getenvPath file) false := if_neg hfile
  have hexec := resolveFrom_exec (failsWith_execveHook w) (pathCandidates getenvPath file)
    ⟨[], errno, failed⟩
  rw [hrun]
  cases hfirst : firstThere w (pathCandidates getenvPath file) with
  | none =>
    rw [hfirst] at hexec
    exact hexec
  | some found =>
    obtain ⟨before, c, after⟩ := found
    rw [hfirst] at hexec
    obtain ⟨s₀, hs₀, hrun₀⟩ := hexec
    show ∃ s' : Process, s'.attempts = before ++ [c] ∧ _
    rw [hrun₀]
    by_cases hc : w.exec c = 0
    · refine ⟨{ s₀ with attempts := s₀.attempts ++ [c] }, by rw [hs₀]; rfl, fun h => absurd hc h, ?_⟩
      rw [execResult_of_exec hc]
      exact (failsWith_execveHook w).executes c s₀ hc
    · obtain ⟨s', hfails, hattempts, herrno⟩ := (failsWith_execveHook w).fails c s₀ hc
      refine ⟨s', by rw [hattempts, hs₀]; rfl, fun _ => herrno, ?_⟩
      rw [execResult_of_fails hc]
      exact hfails

theorem execvPHook_run {file : CStr} (hfile : file ≠ []) (errno : ℤ) (failed : Bool)
    {before : List CStr} {c : CStr} {after : List (Option CStr)}
    (hfirst : firstThere w (pathCandidates getenvPath file) = some (before, c, after)) :
    ∃ s' : Process, s'.attempts = before ++ [c] ∧ (w.exec c ≠ 0 → s'.errno = w.exec c) ∧
      execvPHook w getenvPath file (getenvPath.getD pathDefpath) ⟨[], errno, failed⟩ =
        execResult w s' c := by
  have hresolve : resolvePath w (execvPHandler w) getenvPath file
      (some (getenvPath.getD pathDefpath)) = resolveFrom w (execvPHandler w)
        (pathCandidates getenvPath file) false := if_neg hfile
  have hexec := resolveFrom_exec (failsWith_execvPHandler w) (pathCandidates getenvPath file)
    ⟨[], errno, false⟩
  rw [hfirst] at hexec
  obtain ⟨s₀, hs₀, hrun₀⟩ := hexec
  have hrun : execvPHook w getenvPath file (getenvPath.getD pathDefpath) ⟨[], errno, failed⟩ =
      (execvPHandler w c >>= execvPEnd) s₀ := by
    show EStateM.bind (resolvePath w (execvPHandler w) getenvPath file
      (some (getenvPath.getD pathDefpath))) _ ⟨[], errno, false⟩ = EStateM.bind _ _ s₀
    unfold EStateM.bind
    rw [hresolve, hrun₀]
  rw [hrun]
  by_cases hc : w.exec c = 0
  · refine ⟨{ s₀ with attempts := s₀.attempts ++ [c] }, by rw [hs₀]; rfl, fun h => absurd hc h, ?_⟩
    rw [execResult_of_exec hc]
    show EStateM.bind _ _ s₀ = _
    unfold EStateM.bind
    rw [(failsWith_execvPHandler w).executes c s₀ hc]
  · refine ⟨⟨s₀.attempts ++ [c], w.exec c, true⟩, by rw [hs₀]; rfl, fun _ => rfl, ?_⟩
    rw [execResult_of_fails hc]
    show EStateM.bind _ _ s₀ = _
    unfold EStateM.bind
    rw [execvPHandler_run hc]
    rfl

/-- When no candidate is there, `execlp_hook` returns the error of `resolvePath`. -/
theorem execlpHook_not_agrees {file : CStr} (hfile : file ≠ []) (errno : ℤ) (failed : Bool)
    (hfirst : firstThere w (pathCandidates getenvPath file) = none) :
    ¬AgreesWith w (posixSpawnpHook w getenvPath file ⟨[], errno, failed⟩)
      (execlpHook w getenvPath file ⟨[], errno, failed⟩) := by
  have hspawnp : posixSpawnpHook w getenvPath file = resolveFrom w (spawnPath w)
      (pathCandidates getenvPath file) false := if_neg hfile
  have hexeclp := execlpHook_run w getenvPath hfile errno failed
  rw [hfirst] at hexeclp
  obtain ⟨code, s', hcode, hrun⟩ := hexeclp
  obtain ⟨ret, s₁, hrun₁, -⟩ := resolveFrom_spawn_grows w (pathCandidates getenvPath file) false
    ⟨[], errno, failed⟩
  intro hagrees
  rw [hspawnp, hrun, hrun₁] at hagrees
  have hminus : code = -1 := hagrees.2.2.1
  omega

/-- **The exec hooks agree with `posix_spawnp_hook`** under `SearchAgrees`, and only then. -/
theorem execHooks_agree_iff (file : CStr) (errno : ℤ) (failed : Bool) :
    (AgreesWith w (posixSpawnpHook w getenvPath file ⟨[], errno, failed⟩)
        (execvPHook w getenvPath file (getenvPath.getD pathDefpath) ⟨[], errno, failed⟩) ∧
      AgreesWith w (posixSpawnpHook w getenvPath file ⟨[], errno, failed⟩)
        (execvpHook w getenvPath file ⟨[], errno, failed⟩) ∧
      AgreesWith w (posixSpawnpHook w getenvPath file ⟨[], errno, failed⟩)
        (execlpHook w getenvPath file ⟨[], errno, failed⟩)) ↔
      file ≠ [] ∧ SearchAgrees w (pathCandidates getenvPath file) := by
  by_cases hfile : file = []
  · refine iff_of_false (fun h => ?_) fun h => h.1 hfile
    -- both answer `ENOENT` at once
    subst hfile
    exact absurd h.2.2.2.2.1 (by decide)
  rw [and_iff_right hfile]
  have hspawnp : posixSpawnpHook w getenvPath file = resolveFrom w (spawnPath w)
      (pathCandidates getenvPath file) false := if_neg hfile
  have hexecvp : execvpHook w getenvPath file =
      execvPHook w getenvPath file (getenvPath.getD pathDefpath) := rfl
  have hexeclp := execlpHook_run w getenvPath hfile errno failed
  cases hfirst : firstThere w (pathCandidates getenvPath file) with
  | none =>
    exact iff_of_false (fun h => execlpHook_not_agrees w getenvPath hfile errno failed hfirst h.2.2)
      fun ⟨_, _, _, h, _⟩ => by simp [hfirst] at h
  | some found =>
    obtain ⟨before, c, after⟩ := found
    rw [hfirst] at hexeclp
    obtain ⟨s', hattempts, herrno, hrun⟩ := hexeclp
    obtain ⟨s'', hattempts', herrno', hrun'⟩ :=
      execvPHook_run w getenvPath hfile errno failed hfirst
    rw [hexecvp, hspawnp, hrun, hrun', agreesWith_iff hfirst rfl hattempts herrno,
      agreesWith_iff hfirst rfl hattempts' herrno']
    exact ⟨fun h => h.1, fun h => ⟨h, h, h⟩⟩

/-! ## A directory that does not have the file -/

/-- Only `/bin/ls` is there. -/
def lsWorld : World where
  exec path := if path = "/bin/ls".toList then 0 else 2
  stat path := if path = "/bin/ls".toList then 0 else 2

/-- For a file that is nowhere `execlp_hook` returns `ENOENT` and not -1. -/
theorem execlpHook_returns_enoent :
    ¬AgreesWith lsWorld (posixSpawnpHook lsWorld none "nosuch".toList ⟨[], 0, false⟩)
      (execlpHook lsWorld none "nosuch".toList ⟨[], 0, false⟩) :=
  execlpHook_not_agrees lsWorld none (by decide) 0 false (by decide +kernel)

end Jbinit.Systemhook

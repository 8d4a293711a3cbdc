import Jbinit.Foundations.Transitions
import Jbinit.Palera1nd.BootstrapRetry
import Jbinit.Palera1nd.Handler

/-!
# One jailbreak directory

palera1nd makes a jailbreak directory only when the check of `bootstrap()` finds none. That check
takes every failure of `opendir` for the absence of the directory, and does not look at that of
`jailbreak_get_bmhash`. `requests_oneDirectory` is about all sequences of requests in which no check
overlooks a directory that is there; `requests_twoDirectories` is a request that does.
-/

namespace Jbinit.Palera1nd

open Foundations Calls Transitions

/-! ## The directory of the boot manifest hash -/

/-- What the system can answer when the jailbreak directories are those of `fs`: the hash does not
change, a listing shows the directories in some order, and `mkdtemp` makes a new one. -/
def Fs.allows (hash : BmHash) (fs : Fs) : Ev → Bool
  | ⟨.getBmhash, (bmhash, success)⟩ => !success || bmhash == hash
  | ⟨.readDirectory path, .ok names⟩ => path != prebootDirectory hash ||
      ((names.filter isJbName).map fun name => path ++ '/' :: name).isPerm fs.jbDirs
  | ⟨.mkdtemp template, .ok suffix⟩ => !fs.jbDirs.contains (fillTemplate template suffix)
  | _ => true

/-- The world of the jailbreak directories. -/
def preboot (hash : BmHash) (fs : Fs) (e : Ev) (fs' : Fs) : Prop :=
  fs.allows hash e = true ∧ fs' = fs.next e

theorem steps_preboot_after {hash : BmHash} {fs fs' : Fs} {t : List Ev}
    (h : Steps (preboot hash) fs t fs') : fs' = fs.after t := by
  induction t generalizing fs with
  | nil => exact h
  | cons e t ih =>
    obtain ⟨_, ⟨-, rfl⟩, h⟩ := h
    exact ih h

/-- The trace is possible in the world. -/
def Fs.allowsAll (hash : BmHash) (fs : Fs) : List Ev → Bool
  | [] => true
  | e :: t => fs.allows hash e && (fs.next e).allowsAll hash t

theorem steps_preboot {hash : BmHash} {fs : Fs} {t : List Ev} (h : fs.allowsAll hash t = true) :
    Steps (preboot hash) fs t (fs.after t) := by
  induction t generalizing fs with
  | nil => rfl
  | cons e t ih =>
    obtain ⟨he, ht⟩ := Bool.and_eq_true_iff.mp h
    exact ⟨fs.next e, ⟨he, rfl⟩, ih ht⟩

/-! ## Requests -/

/-- A request with its run. -/
structure Served where
  peer : Peer
  request : Request
  state : HandlerState
  trace : List Ev
  result : Except Fault HandlerState

/-- palera1nd serves a bootstrap or an obliterate request on a device that is not rootful. -/
structure Serves (hash : BmHash) (fs : Fs) (l : Served) (fs' : Fs) : Prop where
  cmd : l.request.cmd = some .deployBootstrap ∨ l.request.cmd = some .obliterateJailbreak
  notRootful : l.state.pinfo.flags.has palerainOptionRootful = false
  run : Run (palera1ndHandler l.peer l.request l.state).run l.trace l.result
  steps : Steps (preboot hash) fs l.trace fs'

/-- The look-up has failed where the kernel or the hash is asked for. -/
def lookupFails : Ev → Bool
  | ⟨.uname, .error _⟩ => true
  | ⟨.getBmhash, (_, success)⟩ => !success
  | _ => false

/-- There is one directory at most, and the look-up does not report two. -/
structure OneDirectory (hash : BmHash) (fs : Fs) : Prop where
  atMostOne : fs.jbDirs.length ≤ 1
  noDuplicates : ∀ t r fs', Run (jailbreakGetPrebootPath (ε := Fault)).run t r →
    Steps (preboot hash) fs t fs' → t.any lookupFails = false → r ≠ .ok (.error eexist)

/-- An answer for which the check of `bootstrap()` takes the device for not bootstrapped. -/
def overlooks : Ev → Bool
  | ⟨.uname, .error e⟩ => e == enoent
  | ⟨.readDirectory _, .error _⟩ => true
  | ⟨.readDirectory _, .ok names⟩ => !names.any isJbName
  | _ => false

/-- No look overlooks a directory that is there. -/
def NothingOverlooked (fs : Fs) : List Ev → Prop
  | [] => True
  | e :: t => (overlooks e = true → fs.jbDirs = []) ∧ NothingOverlooked (fs.next e) t

instance decidableNothingOverlooked : ∀ fs t, Decidable (NothingOverlooked fs t)
  | _, [] => inferInstanceAs (Decidable True)
  | fs, e :: t =>
    have := decidableNothingOverlooked (fs.next e) t
    inferInstanceAs (Decidable ((overlooks e = true → fs.jbDirs = []) ∧ _))

/-- The exact condition: a bootstrap request does not overlook a directory that is there. -/
def Looks (fs : Fs) (l : Served) : Prop :=
  l.request.cmd = some .deployBootstrap → NothingOverlooked fs l.trace

/-! ## The number of directories -/

theorem length_jbDirs_next (fs : Fs) (e : Ev) :
    (fs.next e).jbDirs.length ≤ fs.jbDirs.length + (madeDirectory e).toList.length := by
  have hfilter (path : CStr) : (fs.jbDirs.filter (· != path)).length ≤ fs.jbDirs.length :=
    List.length_filter_le _ _
  unfold Fs.next
  split
  · exact le_refl _
  · exact (hfilter _).trans (Nat.le_add_right _ _)
  · exact (hfilter _).trans (Nat.le_add_right _ _)
  · exact (hfilter _).trans (Nat.le_add_right _ _)
  · exact Nat.le_add_right _ _
  · exact Nat.le_add_right _ _

theorem length_jbDirs_after (fs : Fs) (t : List Ev) :
    (fs.after t).jbDirs.length ≤ fs.jbDirs.length + (t.filterMap madeDirectory).length := by
  induction t generalizing fs with
  | nil => exact le_refl _
  | cons e t ih =>
    have hnext := length_jbDirs_next fs e
    have hrest := ih (fs.next e)
    have hcons : ((e :: t).filterMap madeDirectory).length =
        (madeDirectory e).toList.length + (t.filterMap madeDirectory).length := by
      rw [List.filterMap_cons]
      cases madeDirectory e with
      | none => simp
      | some _ => simp; omega
    show ((fs.next e).after t).jbDirs.length ≤ _
    omega

def makesDirectory (e : Ev) : Bool := (madeDirectory e).isSome

theorem filterMap_madeDirectory {t : List Ev} (h : t.any makesDirectory = false) :
    t.filterMap madeDirectory = [] := by
  rw [List.filterMap_eq_nil_iff]
  intro e he
  have hnone := List.any_eq_false.mp h e he
  simpa [makesDirectory] using hnone

theorem length_jbDirs_le {fs : Fs} {t : List Ev} (h : t.any makesDirectory = false) :
    (fs.after t).jbDirs.length ≤ fs.jbDirs.length := by
  have hlength := length_jbDirs_after fs t
  rwa [filterMap_madeDirectory h] at hlength

/-! ## The two requests -/

section

variable {flags : Flags} {peer : Peer} {request : Request} {s : HandlerState} {t : List Ev}

theorem made_perform {c : Call} (hc : ∀ r, makesDirectory ⟨c, r⟩ = false) :
    Unseen (noting makesDirectory) (perform_ c) :=
  (quiet_perform_ (quiet_noting hc)).unseen

theorem made_loadCmd (path : CStr) : Unseen (noting makesDirectory) (loadCmd path) := by
  unfold loadCmd
  refine .bind (quiet_noting fun _ => rfl).unseen fun reply => ?_
  cases reply with
  | none => exact .throw _
  | some _ => exact .pure _

theorem made_removeJailbreakFiles (flags : Flags) :
    Unseen (noting makesDirectory) (removeJailbreakFiles flags) :=
  (quiet_removeJailbreakFiles (fun _ => quiet_noting fun _ => rfl) (quiet_noting fun _ => rfl)
    (fun _ => quiet_noting fun _ => rfl) flags).unseen

theorem made_ignores_revert : Ignores (noting makesDirectory) isRevertCall := by
  rintro c hc noted r noted' rfl
  cases c with
  | mkdtemp | removefile => exact absurd hc Bool.false_ne_true
  | _ => exact Bool.or_false _

theorem made_revert (reply : Dict) (pinfo : Paleinfo) :
    Unseen (noting makesDirectory) (revert reply pinfo) := by
  refine .ite (.bind (made_loadCmd _) fun _ => .bind (made_removeJailbreakFiles _) fun _ => ?_)
    (.bind (made_loadCmd _) fun _ => .bind (made_removeJailbreakFiles _) fun _ => .pure _)
  exact .ite (.ite (.bind (quiet_cleanFakefs made_ignores_revert).unseen fun _ => .pure _)
    (.bind (quiet_revertSnapshot made_ignores_revert).unseen fun _ => .pure _)) (.pure _)

theorem made_obliterate (request reply : Dict) (pinfo : Paleinfo) :
    Unseen (noting makesDirectory) (obliterate request reply pinfo) := by
  unfold obliterate
  refine .ite (.pure _) (.bind (made_revert reply pinfo) fun ⟨reply, removeRet⟩ => ?_)
  refine .bind (quiet_reloadLaunchdEnv fun _ => quiet_noting fun _ => rfl).unseen fun r => ?_
  cases r with
  | error _ => exact .throw _
  | ok _ => exact .ite (.bind (made_perform fun _ => rfl) fun _ => .pure _) (.pure _)

/-- The trace of a request is that of its command, and of the reply. -/
theorem run_handleCommand {r : Except Fault HandlerState}
    (hrun : Run (palera1ndHandler peer request s).run t r) :
    t = [] ∨ ∃ t₁ r₁ t₂, t = t₁ ++ t₂ ∧
      Run (handleCommand peer request.dict [] s request.cmd).run t₁ r₁ ∧
      t₂.any makesDirectory = false := by
  unfold palera1ndHandler at hrun
  split at hrun
  case isFalse =>
    cases hrun
    exact .inl rfl
  case isTrue =>
    exact .inr (run_bind_any hrun fun _ => .bind (made_perform fun _ => rfl) fun _ => .pure _)

/-- A bootstrap request makes directories in `bootstrap()` only. -/
theorem run_deployBootstrap {r : Except Fault (Dict × HandlerState)}
    (hrun : Run (handleCommand peer request.dict [] s (some .deployBootstrap)).run t r) :
    t = [] ∨ ∃ t₁ r₁ t₂, t = t₁ ++ t₂ ∧
      Run (bootstrap s.pinfo.flags (.ofDict request.dict)).run t₁ r₁ ∧
      t₂.any makesDirectory = false := by
  rw [handleCommand] at hrun
  split at hrun
  · cases hrun
    exact .inl rfl
  · refine .inr ?_
    obtain ⟨t₁, r₁, t₂, rfl, hdeploy, ht₂⟩ :=
      run_bind_any (p := makesDirectory) hrun fun _ => .pure _
    obtain ⟨t₃, r₃, t₄, rfl, hattempt, ht₄⟩ :=
      run_bind_any (p := makesDirectory) hdeploy fun result => by
        rcases result with failure | fault | result
        · exact (quiet_bootstrapError (quiet_noting fun _ => rfl) _ _).unseen
        · exact .throw _
        · exact .pure _
    obtain ⟨t₅, r₅, t₆, rfl, hbootstrap, hend⟩ := run_bind hattempt
    cases hend
    refine ⟨t₅, r₅, t₄ ++ t₂, by simp, hbootstrap, ?_⟩
    rw [List.any_append, ht₄, ht₂, Bool.or_false]

/-! ## `bootstrap()` -/

theorem length_made_after (flags : Flags) (g : Ledger) (t : List Ev) :
    (g.after flags t).made.length = g.made.length + (t.filterMap madeDirectory).length := by
  induction t generalizing g with
  | nil => rfl
  | cons e t ih =>
    rw [after_cons, ih, List.filterMap_cons]
    show ((madeDirectory e).toList ++ g.made).length + _ = _
    cases madeDirectory e with
    | none => simp
    | some _ => simp; omega

theorem length_ownDirectories_le (flags : Flags) (tarPath : CStr) :
    (ownDirectories flags tarPath).length ≤ 1 := by
  unfold ownDirectories
  split <;> simp

/-- A run makes one directory at most. -/
theorem length_made_bootstrap {request : BootstrapRequest}
    {r : Except Failure (Except Fault BootstrapReply)}
    (hrun : Run (bootstrap flags request).run t r) :
    (t.filterMap madeDirectory).length ≤ 1 := by
  have hlength := length_made_after flags Ledger.start t
  have hmade : (Ledger.start.after flags t).made.length ≤ 1 := by
    cases r with
    | ok _ =>
      obtain ⟨tarPath, hgoing⟩ := (bootstrap_spec request).ok_foldl fresh_start hrun
      have hmade : (Ledger.start.after flags t).made = _ := hgoing.made
      rw [hmade]
      exact length_ownDirectories_le flags tarPath
    | error _ =>
      rcases exited_after hrun with hfresh | ⟨tarPath, -, hremoved | hleft⟩
      · simp [hfresh.made]
      · rw [hremoved.made]
        exact length_ownDirectories_le flags tarPath
      · rw [hleft.made]
        exact length_ownDirectories_le flags tarPath
  have hstart : Ledger.start.made.length = 0 := rfl
  omega

theorem filterMap_of_silent (flags : Flags) {ε α : Type} {x : Proc Answer ε α} (h : Silent flags x)
    {r : Except ε α} (hrun : Run x.run t r) : t.filterMap madeDirectory = [] := by
  have hlength := length_made_after flags Ledger.start t
  have hafter : Ledger.start.after flags t = Ledger.start :=
    h Ledger.start t _ r hrun (steps_foldl (Ledger.next flags) Ledger.start t)
  rw [hafter] at hlength
  have hstart : Ledger.start.made.length = 0 := rfl
  exact List.eq_nil_of_length_eq_zero (by omega)

/-- A run that makes a directory has passed the check. -/
theorem passed_of_made {request : BootstrapRequest}
    {r : Except Failure (Except Fault BootstrapReply)}
    (hrun : Run (bootstrap flags request).run t r) (hmade : t.filterMap madeDirectory ≠ []) :
    ∃ t₁ t₂, t = t₁ ++ t₂ ∧ Run (checkNotBootstrapped flags).run t₁ (.ok ()) := by
  obtain ⟨t₀, r₀, t, rfl, hassure, hrun⟩ := run_bind hrun
  have ht₀ := filterMap_of_silent flags (silent_assure _ _ _) hassure
  rw [List.filterMap_append, ht₀, List.nil_append] at hmade
  cases r₀ with
  | error _ =>
    cases hrun
    exact absurd rfl hmade
  | ok _ =>
    obtain ⟨t₁, r₁, t₂, rfl, hcheck, hrun⟩ := run_bind hrun
    cases r₁ with
    | error _ =>
      cases hrun
      rw [List.append_nil] at hmade
      exact absurd (filterMap_of_silent flags silent_checkNotBootstrapped hcheck) hmade
    | ok _ =>
      unfold assure at hassure
      split at hassure
      · cases hassure
        exact ⟨t₁, t₂, rfl, hcheck⟩
      · cases hassure

/-! ### The check -/

/-- The world in which nothing is overlooked. -/
def seeing (fs : Fs) (e : Ev) (fs' : Fs) : Prop :=
  (overlooks e = true → fs.jbDirs = []) ∧ fs' = fs.next e

theorem steps_seeing {hash : BmHash} {fs fs' : Fs} (h : Steps (preboot hash) fs t fs')
    (hseen : NothingOverlooked fs t) : Steps seeing fs t fs' := by
  induction t generalizing fs with
  | nil => exact h
  | cons e t ih =>
    obtain ⟨_, ⟨-, rfl⟩, h⟩ := h
    exact ⟨fs.next e, ⟨hseen.1, rfl⟩, ih h hseen.2⟩

theorem any_isJbName_of_enoent {names : List CStr} (h : findJbName names none = .error enoent) :
    names.any isJbName = false := by
  have hsome (names : List CStr) (found : CStr) :
      findJbName names (some found) ≠ .error enoent := by
    induction names with
    | nil => exact fun heq => by cases heq
    | cons name names ih =>
      unfold findJbName
      split
      · exact fun heq => absurd (Except.error.inj heq) (by decide)
      · exact ih
  induction names with
  | nil => rfl
  | cons name names ih =>
    unfold findJbName at h
    split at h
    case isTrue => exact absurd h (hsome _ _)
    case isFalse hname =>
      rw [List.any_cons, ih h, Bool.eq_false_of_not_eq_true hname]
      rfl

/-- When the look-up says that there is no directory, there is none. -/
theorem jailbreakGetPrebootPath_sees {ε : Type} {E : ε → Fs → Prop} :
    Triple seeing (fun _ => True) jailbreakGetPrebootPath
      (fun r fs => r = .error enoent → fs.jbDirs = []) E := by
  unfold jailbreakGetPrebootPath
  refine Triple.bind (M := fun r fs => r = .error enoent → fs.jbDirs = [])
    (Triple.perform ?_) fun r => ?_
  · rintro fs r fs' - ⟨hseen, rfl⟩ rfl
    exact hseen rfl
  cases r with
  | error e => exact Triple.pure fun fs hfs heq => hfs (congrArg _ (Except.error.inj heq))
  | ok major =>
    dsimp only
    split
    · exact Triple.pure fun _ _ heq => absurd heq (by decide)
    refine Triple.bind (M := fun _ _ => True) (Triple.perform fun _ _ _ _ _ => trivial)
      fun hash => ?_
    obtain ⟨bmhash, -⟩ := hash
    refine Triple.bind (M := fun r fs => (∀ e, r = .error e → fs.jbDirs = []) ∧
        ∀ names, r = .ok names → findJbName names none = .error enoent → fs.jbDirs = [])
      (Triple.perform ?_) fun r => ?_
    · rintro fs (e | names) fs' - ⟨hseen, rfl⟩
      · exact ⟨fun _ _ => hseen rfl, fun _ hok => (by cases hok)⟩
      · refine ⟨fun _ herror => (by cases herror), ?_⟩
        rintro _ ⟨⟩ hnames
        exact hseen (show (!names.any isJbName) = true by rw [any_isJbName_of_enoent hnames]; rfl)
    cases r with
    | error e => exact Triple.pure fun _ hfs _ => hfs.1 e rfl
    | ok names =>
      dsimp only
      cases hnames : findJbName names none with
      | error e =>
        refine Triple.pure fun fs hfs heq => hfs.2 names rfl ?_
        rw [hnames]
        exact congrArg _ (Except.error.inj heq)
      | ok jbPathName =>
        refine Triple.bind (M := fun _ _ => True) (Triple.perform fun _ _ _ _ _ => trivial)
          fun r => ?_
        cases r with
        | error _ => exact Triple.pure fun _ _ heq => absurd heq (by decide)
        | ok mode =>
          dsimp only
          split
          · exact Triple.pure fun _ _ heq => by cases heq
          · exact Triple.pure fun _ _ heq => absurd (Except.error.inj heq) (by decide)

theorem checkNotBootstrapped_sees (hrootful : flags.has palerainOptionRootful = false) :
    Triple seeing (fun _ => True) (checkNotBootstrapped flags) (fun _ fs => fs.jbDirs = [])
      (fun _ _ => True) := by
  unfold checkNotBootstrapped
  rw [hrootful]
  refine Triple.bind jailbreakGetPrebootPath_sees fun r => ?_
  cases r with
  | ok _ => exact Triple.throw fun _ _ => trivial
  | error e =>
    unfold assure
    dsimp only
    split
    case isTrue he => exact Triple.pure fun _ hfs => hfs (congrArg _ (beq_iff_eq.mp he))
    case isFalse => exact Triple.throw fun _ _ => trivial

theorem NothingOverlooked.append {fs : Fs} {t₁ t₂ : List Ev}
    (h : NothingOverlooked fs (t₁ ++ t₂)) : NothingOverlooked fs t₁ := by
  induction t₁ generalizing fs with
  | nil => trivial
  | cons e t₁ ih => exact ⟨h.1, ih h.2⟩

theorem after_append (fs : Fs) (t₁ t₂ : List Ev) : fs.after (t₁ ++ t₂) = (fs.after t₁).after t₂ :=
  List.foldl_append

/-- A bootstrap that overlooks nothing leaves one directory at most. -/
theorem bootstrap_atMostOne {hash : BmHash} {fs fs' : Fs} {request : BootstrapRequest}
    {r : Except Failure (Except Fault BootstrapReply)}
    (hrootful : flags.has palerainOptionRootful = false)
    (hrun : Run (bootstrap flags request).run t r) (hsteps : Steps (preboot hash) fs t fs')
    (hseen : NothingOverlooked fs t) (hone : fs.jbDirs.length ≤ 1) : fs'.jbDirs.length ≤ 1 := by
  rw [steps_preboot_after hsteps]
  by_cases hmade : t.filterMap madeDirectory = []
  · have hlength := length_jbDirs_after fs t
    rw [hmade] at hlength
    exact hlength.trans hone
  · obtain ⟨t₁, t₂, rfl, hcheck⟩ := passed_of_made hrun hmade
    obtain ⟨fs₁, hsteps₁, -⟩ := steps_append hsteps
    have hnone : fs₁.jbDirs = [] := checkNotBootstrapped_sees hrootful fs trivial t₁ fs₁ _ hcheck
      (steps_seeing hsteps₁ hseen.append)
    have hbound := length_made_bootstrap hrun
    have hrest := length_jbDirs_after (fs.after t₁) t₂
    rw [← steps_preboot_after hsteps₁, hnone, List.length_nil] at hrest
    rw [List.filterMap_append, List.length_append] at hbound
    rw [after_append, ← steps_preboot_after hsteps₁]
    omega

/-! ## Runs -/

theorem made_obliterateJailbreak (reply : Dict) :
    Unseen (noting makesDirectory)
      (handleCommand peer request.dict reply s (some .obliterateJailbreak)) := by
  rw [handleCommand]
  exact .ite (.pure _) (.bind (made_obliterate _ _ _) fun _ => .pure _)

/-- What follows does not add a directory. -/
theorem atMostOne_append {hash : BmHash} {fs₁ fs' : Fs} {t₂ : List Ev}
    (hsteps : Steps (preboot hash) fs₁ t₂ fs') (ht₂ : t₂.any makesDirectory = false)
    (hone : fs₁.jbDirs.length ≤ 1) : fs'.jbDirs.length ≤ 1 := by
  rw [steps_preboot_after hsteps]
  exact (length_jbDirs_le ht₂).trans hone

/-- A request that overlooks nothing leaves one directory at most. -/
theorem Serves.atMostOne {hash : BmHash} {fs fs' : Fs} {l : Served} (h : Serves hash fs l fs')
    (hlooks : Looks fs l) (hone : fs.jbDirs.length ≤ 1) : fs'.jbDirs.length ≤ 1 := by
  have hsteps := h.steps
  rcases run_handleCommand h.run with hnil | ⟨t₁, r₁, t₂, ht, hcommand, ht₂⟩
  · rw [hnil] at hsteps
    exact atMostOne_append hsteps rfl hone
  rw [ht] at hsteps
  obtain ⟨fs₁, hsteps₁, hsteps₂⟩ := steps_append hsteps
  refine atMostOne_append hsteps₂ ht₂ ?_
  rcases h.cmd with hcmd | hcmd
  · have hseen := hlooks hcmd
    rw [hcmd] at hcommand
    rcases run_deployBootstrap hcommand with rfl | ⟨t₃, r₃, t₄, rfl, hbootstrap, ht₄⟩
    · exact atMostOne_append hsteps₁ rfl hone
    obtain ⟨fs₃, hsteps₃, hsteps₄⟩ := steps_append hsteps₁
    rw [ht, List.append_assoc] at hseen
    exact atMostOne_append hsteps₄ ht₄
      (bootstrap_atMostOne h.notRootful hbootstrap hsteps₃ hseen.append hone)
  · rw [hcmd] at hcommand
    exact atMostOne_append hsteps₁ ((made_obliterateJailbreak _).any hcommand) hone

theorem findJbName_ne_eexist {names : List CStr} (h : (names.filter isJbName).length ≤ 1) :
    findJbName names none ≠ .error eexist := by
  have hsome (names : List CStr) (found : CStr) (hnone : names.filter isJbName = []) :
      findJbName names (some found) = .ok found := by
    induction names with
    | nil => rfl
    | cons name names ih =>
      rw [List.filter_cons] at hnone
      split at hnone
      case isTrue => cases hnone
      case isFalse hname =>
        rw [findJbName, if_neg hname]
        exact ih hnone
  induction names with
  | nil => exact fun heq => absurd (Except.error.inj heq) (by decide)
  | cons name names ih =>
    rw [List.filter_cons] at h
    split at h
    case isTrue hname =>
      have hrest : names.filter isJbName = [] :=
        List.eq_nil_of_length_eq_zero (by simpa using h)
      rw [findJbName, if_pos hname, hsome names _ hrest]
      exact fun heq => by cases heq
    case isFalse hname =>
      rw [findJbName, if_neg hname]
      exact ih h

/-- With one directory at most, the look-up does not report two. -/
theorem jailbreakGetPrebootPath_ne_eexist {ε : Type} {hash : BmHash} {fs fs' : Fs}
    (hone : fs.jbDirs.length ≤ 1) {r : Except ε (Except Errno CStr)}
    (hrun : Run (jailbreakGetPrebootPath (ε := ε)).run t r) (hsteps : Steps (preboot hash) fs t fs')
    (hlooked : t.any lookupFails = false) : r ≠ .ok (.error eexist) := by
  rintro rfl
  obtain ⟨uname, t, rfl, hrest⟩ := run_perform_bind hrun
  cases uname with
  | error e => simp [lookupFails] at hlooked
  | ok major =>
    dsimp only at hrest
    split at hrest
    · obtain ⟨-, heq⟩ := run_pure_ok hrest
      exact absurd (Except.error.inj heq) (by decide)
    obtain ⟨⟨bmhash, success⟩, t, rfl, hrest₁⟩ := run_perform_bind hrest
    obtain ⟨listing, t, rfl, hrest₂⟩ := run_perform_bind hrest₁
    cases listing with
    | error e =>
      obtain ⟨-, heq⟩ := run_pure_ok hrest₂
      exact absurd (Except.error.inj heq) (by decide)
    | ok names =>
      obtain ⟨_, ⟨-, rfl⟩, _, ⟨hhash, rfl⟩, fs, ⟨hlisting, rfl⟩, -⟩ := hsteps
      have hsuccess : success = true := by
        simp only [List.any_cons, lookupFails, Bool.or_eq_false_iff] at hlooked
        simpa using hlooked.2.1
      have hbmhash : bmhash = hash := by simpa [Fs.allows, hsuccess] using hhash
      have hperm : ((names.filter isJbName).map fun name =>
          prebootDirectory bmhash ++ '/' :: name).Perm fs.jbDirs := by
        simpa [Fs.allows, hbmhash, List.isPerm_iff] using hlisting
      have hnames : (names.filter isJbName).length ≤ 1 := by
        rw [← List.length_map, hperm.length_eq]
        exact hone
      dsimp only at hrest₂
      cases hfind : findJbName names none with
      | error e =>
        rw [hfind] at hrest₂
        obtain ⟨-, heq⟩ := run_pure_ok hrest₂
        exact findJbName_ne_eexist hnames (hfind.trans (congrArg _ (Except.error.inj heq).symm))
      | ok jbPathName =>
        rw [hfind] at hrest₂
        obtain ⟨r, t, rfl, hrest₃⟩ := run_perform_bind hrest₂
        cases r with
        | error e =>
          obtain ⟨-, heq⟩ := run_pure_ok hrest₃
          exact absurd (Except.error.inj heq) (by decide)
        | ok mode =>
          dsimp only at hrest₃
          split at hrest₃
          · obtain ⟨-, heq⟩ := run_pure_ok hrest₃
            cases heq
          · obtain ⟨-, heq⟩ := run_pure_ok hrest₃
            exact absurd (Except.error.inj heq) (by decide)

theorem oneDirectory_of_atMostOne {hash : BmHash} {fs : Fs} (hone : fs.jbDirs.length ≤ 1) :
    OneDirectory hash fs where
  atMostOne := hone
  noDuplicates := fun _ _ _ hrun hsteps hlooked =>
    jailbreakGetPrebootPath_ne_eexist hone hrun hsteps hlooked

/-- **One jailbreak directory at most**: after every request of a sequence in which no bootstrap
request overlooks a directory that is there. -/
theorem requests_oneDirectory {hash : BmHash} {fs : Fs} (hone : fs.jbDirs.length ≤ 1)
    {run : List (Served × Fs)} (hrun : IsRun (Serves hash) fs run) (hlooks : Meets Looks fs run) :
    ∀ p ∈ run, OneDirectory hash p.2 := by
  have hstep : ∀ fs l fs', fs.jbDirs.length ≤ 1 → Looks fs l → Serves hash fs l fs' →
      fs'.jbDirs.length ≤ 1 := fun _ _ _ hone hlooks h => h.atMostOne hlooks hone
  intro p hp
  exact oneDirectory_of_atMostOne (IsRun.invariant hstep hone hrun hlooks p hp)

end

/-! ## A directory that cannot be listed -/

def bootstrapRequest : Request where
  dict := ((Dict.set [] "cmd" (.uint64 5)).set "path" (.string "/bootstrap.tar.zst".toList)).set
    "no-password" (.bool true)
  replyable := true

def bootstrapper : Peer := platformPeer (Dict.set [] bootstrapperEntitlement (.bool true))

/-- The bootstrap request, each call of which is answered by `answer`. -/
def bootstrapping (answer : ∀ c, Answer c) : Served where
  peer := bootstrapper
  request := bootstrapRequest
  state := plainState
  trace := (drive answer (palera1ndHandler bootstrapper bootstrapRequest plainState).run).1
  result := (drive answer (palera1ndHandler bootstrapper bootstrapRequest plainState).run).2

theorem serves_bootstrapping {answer : ∀ c, Answer c} {fs : Fs}
    (h : fs.allowsAll plainHash (bootstrapping answer).trace = true) :
    Serves plainHash fs (bootstrapping answer) (fs.after (bootstrapping answer).trace) where
  cmd := .inl (show bootstrapRequest.cmd = some .deployBootstrap by decide)
  notRootful := show plainState.pinfo.flags.has palerainOptionRootful = false by decide
  run := run_drive _ _
  steps := steps_preboot h

/-- The directory that the runs below make is there. -/
def listed : ∀ c, Answer c
  | .readDirectory _ => .ok [".".toList, "jb-abcdefgh".toList]
  | c => extracting 0 c

/-- Requests that are answered so, one after another. -/
def serving (fs : Fs) : List (∀ c, Answer c) → List (Served × Fs)
  | [] => []
  | answer :: answers =>
    (bootstrapping answer, fs.after (bootstrapping answer).trace) ::
      serving (fs.after (bootstrapping answer).trace) answers

/-- The second request finds the directory of the first. -/
theorem requests_oneDirectory_twice :
    List.Forall (fun p => OneDirectory plainHash p.2)
      (serving ⟨[], none⟩ [extracting 0, listed]) := by
  rw [List.forall_iff_forall_mem]
  have hempty : (⟨[], none⟩ : Fs).jbDirs.length ≤ 1 := by decide
  refine requests_oneDirectory hempty ?_ ?_
  · exact ⟨serves_bootstrapping (by decide +kernel), serves_bootstrapping (by decide +kernel),
      trivial⟩
  · exact ⟨fun _ => by decide +kernel, fun _ => by decide +kernel, trivial⟩

/-- `opendir` fails, and every other step succeeds. -/
def unlisted : ∀ c, Answer c
  | .readDirectory _ => .error emfile
  | c => extracting 0 c

def oldDirectory : Fs := ⟨["/private/preboot/0123/jb-ijklmnop".toList], none⟩

/-- A bootstrap request that cannot list the directory makes a second jailbreak directory. -/
theorem requests_twoDirectories :
    ∃ run, IsRun (Serves plainHash) oldDirectory run ∧
      (final oldDirectory run).jbDirs =
        [plainDirectory, "/private/preboot/0123/jb-ijklmnop".toList] ∧
      ¬OneDirectory plainHash (final oldDirectory run) := by
  have hdirs : (final oldDirectory (serving oldDirectory [unlisted])).jbDirs =
      [plainDirectory, "/private/preboot/0123/jb-ijklmnop".toList] := by decide +kernel
  refine ⟨serving oldDirectory [unlisted], ⟨serves_bootstrapping (by decide +kernel), trivial⟩,
    hdirs, fun h => ?_⟩
  have hone := h.atMostOne
  rw [hdirs] at hone
  exact absurd hone (by decide)

end Jbinit.Palera1nd

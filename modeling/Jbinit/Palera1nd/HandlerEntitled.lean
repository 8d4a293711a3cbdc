import Jbinit.Palera1nd.Handler

/-!
# Privileged work is for entitled peers

Nine commands name an entitlement. `OnlyForEntitled` says that a run of the handler does privileged
work only for a peer that has the named entitlement as the boolean true, and that every other peer
is refused. `handler_onlyForEntitled_iff` says when this is so: `perform_reboot3` looks at the type
of its entitlement and not at its value.
-/

namespace Jbinit.Palera1nd

open Foundations Calls

/-! ## The property -/

/-- A `howto` with `RB2_USERREBOOT`. -/
def asksUserspaceReboot (dict : Dict) : Bool :=
  match dict.getValue "howto" with
  | some xpcHowto => xpcHowto.uint64Value &&& rb2Userreboot != 0
  | none => false

/-- The entitlement that a request names. A reboot names one if it is a userspace reboot. -/
def namedEntitlement (dict : Dict) : Option JbdCmd → Option String
  | some .getPinfoKernelInfo => some kernelinfoEntitlement
  | some .deployBootstrap => some bootstrapperEntitlement
  | some .obliterateJailbreak => some obliteratorEntitlement
  | some .performReboot3 =>
    if asksUserspaceReboot dict then some userspaceRebootEntitlement else none
  | some .overwriteFileWithContent => some bootstrapperEntitlement
  | some .interceptUserspacePanic => some iowatchdogEntitlement
  | some .exitSafeMode => some bootstrapperEntitlement
  | some .runAsRoot => some personaMgmtEntitlement
  | some .registerPayloadPid => some bootstrapperEntitlement
  | _ => none

def Peer.platform (peer : Peer) : Prop :=
  peer.pid ≠ -1 ∧ ∃ status, peer.csops = .ok status ∧ status &&& csPlatformBinary ≠ 0

/-- The peer may have the privileged work of its request done. -/
def Authorised (peer : Peer) (request : Request) : Prop :=
  ∃ entitlement, namedEntitlement request.dict request.cmd = some entitlement ∧
    peer.holds entitlement ∧ (request.cmd = some .performReboot3 → peer.platform)

/-- Everything but the look-up of the preboot path, an ordinary reboot, the resumption of the
payload and a reply without the kernel addresses. -/
def privileged : Event Answer → Bool
  | ⟨.uname, _⟩ | ⟨.getBmhash, _⟩ | ⟨.readDirectory _, _⟩ | ⟨.stat _, _⟩ | ⟨.readErrno, _⟩ => false
  | ⟨.unmountDeveloper, _⟩ | ⟨.killPid _ .sigcont, _⟩ => false
  | ⟨.reboot3 howto _, _⟩ => howto &&& rb2Userreboot != 0
  | ⟨.sendReply reply, _⟩ =>
    (reply.getValue "kbase").isSome || (reply.getValue "kslide").isSome
  | _ => true

/-- The peer as it would be without an entitlement. -/
def Peer.without (peer : Peer) (entitlement : String) : Peer :=
  { peer with entitlements := peer.entitlements.filter (·.1 != entitlement.toList) }

/-- Privileged work is for entitled peers in a run of the handler. -/
structure OnlyForEntitled (peer : Peer) (request : Request) (s : HandlerState)
    (t : List (Event Answer)) (r : Except Fault HandlerState) : Prop where
  work : (∃ e ∈ t, privileged e = true) → Authorised peer request
  state : ∀ s', r = .ok s' →
    s'.pinfo ≠ s.pinfo ∨ s'.payloadPid ≠ s.payloadPid ∧ s'.payloadPid ≠ 0 → Authorised peer request
  /-- A peer that is not entitled gets an error, and nothing else happens. -/
  refused : (namedEntitlement request.dict request.cmd).isSome → ¬Authorised peer request →
    r = .ok s ∧ ∀ e ∈ t, ∃ reply, e.1 = .sendReply reply ∧ reply.getInt64 "error" ≠ 0
  /-- An entitlement that is false is like one that is absent. -/
  absent : ∀ entitlement, namedEntitlement request.dict request.cmd = some entitlement →
    peer.entitlements.getValue entitlement = some (.bool false) →
    Run (palera1ndHandler (peer.without entitlement) request s).run t r

/-! ## Entitlements -/

theorem Peer.getValue_without (peer : Peer) (e entitlement : String) :
    (peer.without e).entitlements.getValue entitlement =
      if entitlement = e then none else peer.entitlements.getValue entitlement := by
  unfold Peer.without Dict.getValue
  dsimp only
  induction peer.entitlements with
  | nil => simp
  | cons entry entries ih =>
    obtain ⟨key, value⟩ := entry
    rw [List.filter_cons]
    by_cases hkey : key = e.toList
    · rw [if_neg (by simp [hkey]), ih, List.lookup_cons]
      by_cases he : entitlement = e
      · simp [he]
      · have hne : (entitlement.toList == key) = false := by
          simpa [hkey, String.toList_inj] using he
        simp [he, hne]
    · rw [if_pos (by simpa using hkey), List.lookup_cons, List.lookup_cons, ih]
      by_cases he : entitlement = e
      · subst he
        have hne : (entitlement.toList == key) = false := by simpa using Ne.symm hkey
        simp [hne]
      · simp only [he, if_false]

/-- An entitlement that is false is like one that is absent, for the commands that look at its
value. -/
theorem Peer.entitled_without {peer : Peer} {e : String}
    (h : peer.entitlements.getValue e = some (.bool false)) (entitlement : String) :
    (peer.without e).entitled entitlement = peer.entitled entitlement := by
  unfold Peer.entitled
  rw [peer.getValue_without]
  by_cases he : entitlement = e
  · subst he
    simp [h]
  · simp [he]

/-! ## Refusals -/

/-- A reply that does not disclose the kernel addresses. -/
def Innocent (reply : Dict) : Prop :=
  reply.getValue "kbase" = none ∧ reply.getValue "kslide" = none

instance (reply : Dict) : Decidable (Innocent reply) := inferInstanceAs (Decidable (_ ∧ _))

theorem Innocent.set {reply : Dict} (h : Innocent reply) {key : String} (value : Xpc)
    (hkey : key ≠ "kbase" ∧ key ≠ "kslide") : Innocent (reply.set key value) := by
  unfold Innocent Dict.getValue Dict.set
  rw [List.lookup_cons, List.lookup_cons]
  have hkbase : ("kbase".toList == key.toList) = false :=
    beq_false_of_ne fun heq => hkey.1.symm (String.toList_inj.mp heq)
  have hkslide : ("kslide".toList == key.toList) = false :=
    beq_false_of_ne fun heq => hkey.2.symm (String.toList_inj.mp heq)
  rw [hkbase, hkslide]
  exact h

theorem innocent_nil : Innocent [] := ⟨rfl, rfl⟩

theorem Innocent.setError {reply : Dict} (h : Innocent reply) (code : ℤ) :
    Innocent (setError reply code) :=
  h.set _ (by decide)

theorem getInt64_setError (reply : Dict) (code : ℤ) :
    (setError reply code).getInt64 "error" = code := by
  simp [setError, Dict.getInt64]

theorem handleCommand_refused {peer : Peer} {dict : Dict} {s : HandlerState} {cmd : Option JbdCmd}
    {entitlement : String} (hnamed : namedEntitlement dict cmd = some entitlement)
    (hcmd : cmd ≠ some .performReboot3) (hnot : ¬peer.holds entitlement) :
    ∃ reply, handleCommand peer dict [] s cmd = pure (reply, s) ∧ reply.getInt64 "error" ≠ 0 ∧
      Innocent reply := by
  have hfalse : peer.entitled entitlement = false := by
    rw [← Bool.not_eq_true, peer.entitled_iff]
    exact hnot
  cases cmd with
  | none => cases hnamed
  | some cmd =>
    cases cmd with
    | performReboot3 => exact absurd rfl hcmd
    | getPinfoFlags | getPrebootpath | getPinfoRootdev | resumePayload => cases hnamed
    | getPinfoKernelInfo | interceptUserspacePanic | exitSafeMode | registerPayloadPid =>
      obtain rfl := Option.some.inj hnamed
      exact ⟨_, by simp only [handleCommand, hfalse]; rfl, by decide, by decide⟩
    | deployBootstrap | obliterateJailbreak | overwriteFileWithContent | runAsRoot =>
      obtain rfl := Option.some.inj hnamed
      exact ⟨_, by simp only [handleCommand, hfalse]; rfl, by decide, by decide⟩

theorem handleCommand_without {peer : Peer} {dict : Dict} {s : HandlerState}
    {cmd : Option JbdCmd} {entitlement : String}
    (hnamed : namedEntitlement dict cmd = some entitlement) (hcmd : cmd ≠ some .performReboot3)
    (hfalse : peer.entitlements.getValue entitlement = some (.bool false)) :
    handleCommand (peer.without entitlement) dict [] s cmd = handleCommand peer dict [] s cmd := by
  have hentitled := Peer.entitled_without hfalse
  cases cmd with
  | none => simp [namedEntitlement] at hnamed
  | some cmd =>
    cases cmd with
    | performReboot3 => exact absurd rfl hcmd
    | getPinfoFlags | getPrebootpath | getPinfoRootdev | resumePayload => cases hnamed
    | _ => simp only [handleCommand, hentitled] <;> rfl

/-! ## Runs -/

/-- A refusal meets the property. -/
theorem onlyForEntitled_of_refusal {peer : Peer} {request : Request} {s : HandlerState}
    {reply : Dict} {a : Except Errno Unit} (herror : reply.getInt64 "error" ≠ 0)
    (hinnocent : Innocent reply)
    (habsent : ∀ entitlement, namedEntitlement request.dict request.cmd = some entitlement →
      peer.entitlements.getValue entitlement = some (.bool false) →
      Run (palera1ndHandler (peer.without entitlement) request s).run
        [⟨.sendReply reply, a⟩] (.ok s)) :
    OnlyForEntitled peer request s [⟨.sendReply reply, a⟩] (.ok s) where
  work := by
    rintro ⟨e, hmem, hprivileged⟩
    rw [List.mem_singleton.mp hmem] at hprivileged
    simp [privileged, hinnocent.1, hinnocent.2] at hprivileged
  state := by
    rintro s' hs'
    obtain rfl := Except.ok.inj hs'
    simp
  refused := by
    intro _ _
    refine ⟨rfl, fun e hmem => ?_⟩
    rw [List.mem_singleton.mp hmem]
    exact ⟨reply, rfl, herror⟩
  absent := habsent

/-- An entitled peer meets the property. -/
theorem onlyForEntitled_of_authorised {peer : Peer} {request : Request} {s : HandlerState}
    {t : List (Event Answer)} {r : Except Fault HandlerState} (h : Authorised peer request) :
    OnlyForEntitled peer request s t r where
  work := fun _ => h
  state := fun _ _ _ => h
  refused := fun _ hnot => absurd h hnot
  absent := by
    intro entitlement hnamed hfalse
    obtain ⟨e, hnamed', hholds, -⟩ := h
    obtain rfl : entitlement = e := Option.some.inj (hnamed.symm.trans hnamed')
    rw [Peer.holds, hfalse] at hholds
    cases hholds

/-! ## Requests that name no entitlement -/

/-- The world that remembers privileged work. -/
def mark (marked : Bool) (e : Event Answer) (marked' : Bool) : Prop :=
  marked' = (marked || privileged e)

theorem unmarked_sys {ε : Type} {c : Call} (h : ∀ r, privileged ⟨c, r⟩ = false) :
    Quiet mark (sys c : Proc Answer ε (Answer c)) :=
  quiet_noting h

theorem unmarked_perform {c : Call} (h : ∀ r, privileged ⟨c, r⟩ = false) :
    Quiet mark (perform_ c) :=
  quiet_perform_ (unmarked_sys h)

theorem sendReply_unmarked {reply : Dict} (h : Innocent reply) (r : Except Errno Unit) :
    privileged ⟨.sendReply reply, r⟩ = false := by
  simp [privileged, h.1, h.2]

/-- What a request without an entitlement may do. -/
def Ordinary (s : HandlerState) (result : Dict × HandlerState) (marked : Bool) : Prop :=
  marked = false ∧ Innocent result.1 ∧ result.2.pinfo = s.pinfo ∧
    (result.2.payloadPid = s.payloadPid ∨ result.2.payloadPid = 0)

theorem ordinary_self {s : HandlerState} {reply : Dict} (h : Innocent reply) {marked : Bool}
    (hmarked : marked = false) : Ordinary s (reply, s) marked :=
  ⟨hmarked, h, rfl, .inl rfl⟩

theorem getPrebootpath_spec (s : HandlerState) :
    Triple mark (· = false) (getPrebootpath [] s.pinfo)
      (fun reply marked => Ordinary s (reply, s) marked) (fun _ marked => marked = false) := by
  have hpath : Quiet mark (jailbreakGetPrebootPath : Handling _) :=
    quiet_jailbreakGetPrebootPath (unmarked_sys fun _ => rfl) (unmarked_sys fun _ => rfl)
      (fun _ => unmarked_sys fun _ => rfl) fun _ => unmarked_sys fun _ => rfl
  unfold getPrebootpath
  split
  · refine Triple.bind (hpath.triple _) fun r => ?_
    cases r with
    | ok prebootPath =>
      exact Triple.pure fun _ => ordinary_self (innocent_nil.set _ (by decide))
    | error _ =>
      refine Triple.bind ((unmarked_sys fun _ => rfl).triple _) fun code => ?_
      exact Triple.pure fun _ => ordinary_self (innocent_nil.setError _)
  · exact Triple.pure fun _ => ordinary_self (innocent_nil.setError _)

theorem resumePayload_spec (peer : Peer) (s : HandlerState) :
    Triple mark (· = false) (resumePayload peer [] s) (Ordinary s)
      (fun _ marked => marked = false) := by
  unfold resumePayload
  split
  · split
    · exact Triple.pure fun _ => ordinary_self (innocent_nil.setError _)
    split
    · refine Triple.bind ((unmarked_perform fun _ => rfl).triple _) fun _ => ?_
      exact Triple.pure fun _ hmarked => ⟨hmarked, innocent_nil, rfl, .inr rfl⟩
    · exact Triple.pure fun _ => ordinary_self innocent_nil
  · exact Triple.throw fun _ h => h

theorem checkPlatform_innocent {peer : Peer} {reply : Dict}
    (h : checkPlatform peer [] = .error reply) : Innocent reply := by
  unfold checkPlatform at h
  split at h
  · exact Except.error.inj h ▸ innocent_nil.setError _
  split at h
  · exact Except.error.inj h ▸ innocent_nil.setError _
  split at h
  · exact Except.error.inj h ▸ innocent_nil.setError _
  · cases h

theorem checkRebootEntitlement_innocent {peer : Peer} {reply : Dict} {howto : BitVec 64}
    (h : checkRebootEntitlement peer [] howto = .error reply) : Innocent reply := by
  unfold checkRebootEntitlement at h
  split at h
  · split at h
    · cases h
    · exact Except.error.inj h ▸ innocent_nil.setError _
  · cases h

theorem rebootPurpose_innocent {request reply : Dict} {howto : BitVec 64}
    (h : rebootPurpose request [] howto = .error reply) : Innocent reply := by
  unfold rebootPurpose at h
  split at h
  · split at h
    · exact Except.error.inj h ▸ (innocent_nil.setError _).set _ (by decide)
    · cases h
  · cases h

theorem rebootPurpose_ne {request reply : Dict} {howto : BitVec 64}
    (h : rebootPurpose request [] howto = .error reply) :
    reply ≠ setError [] enoentitlement := by
  unfold rebootPurpose at h
  split at h
  · split at h
    · rw [← Except.error.inj h]
      decide
    · cases h
  · cases h

/-- The outcomes of the checks of a reboot. -/
theorem checkReboot3_cases (peer : Peer) (request : Dict) :
    (∃ reply, checkReboot3 peer request [] = .error reply ∧ Innocent reply) ∨
      ∃ xpcHowto purpose, request.getValue "howto" = some xpcHowto ∧
        checkReboot3 peer request [] = .ok (xpcHowto.uint64Value, purpose) := by
  unfold checkReboot3
  cases hplatform : checkPlatform peer [] with
  | error reply => exact .inl ⟨reply, rfl, checkPlatform_innocent hplatform⟩
  | ok _ =>
    cases hhowto : request.getValue "howto" with
    | none => exact .inl ⟨_, rfl, by decide⟩
    | some xpcHowto =>
      dsimp only
      cases hentitlement : checkRebootEntitlement peer [] xpcHowto.uint64Value with
      | error reply => exact .inl ⟨reply, rfl, checkRebootEntitlement_innocent hentitlement⟩
      | ok _ =>
        cases hpurpose : rebootPurpose request [] xpcHowto.uint64Value with
        | error reply => exact .inl ⟨reply, rfl, rebootPurpose_innocent hpurpose⟩
        | ok purpose => exact .inr ⟨xpcHowto, purpose, rfl, rfl⟩

theorem performReboot3_spec (peer : Peer) {request : Dict} (s : HandlerState)
    (h : asksUserspaceReboot request = false) :
    Triple mark (· = false) (performReboot3 peer request [])
      (fun reply marked => Ordinary s (reply, s) marked) (fun _ marked => marked = false) := by
  unfold performReboot3
  rcases checkReboot3_cases peer request with ⟨reply, hcheck, hinnocent⟩ |
    ⟨xpcHowto, purpose, hhowto, hcheck⟩
  · rw [hcheck]
    exact Triple.pure fun _ => ordinary_self hinnocent
  · have hordinary : (xpcHowto.uint64Value &&& rb2Userreboot != 0) = false := by
      simpa [asksUserspaceReboot, hhowto] using h
    rw [hcheck]
    refine Triple.bind ((unmarked_perform fun _ => rfl).triple _) fun _ => ?_
    refine Triple.bind ((unmarked_sys (c := .reboot3 xpcHowto.uint64Value purpose)
      fun _ => hordinary).triple _) fun ret => ?_
    refine Triple.pure fun _ => ordinary_self ?_
    split
    · exact innocent_nil.setError _
    · exact innocent_nil

theorem handleCommand_unnamed (peer : Peer) {dict : Dict} (s : HandlerState)
    {cmd : Option JbdCmd} (hnamed : namedEntitlement dict cmd = none) :
    Triple mark (· = false) (handleCommand peer dict [] s cmd) (Ordinary s)
      (fun _ marked => marked = false) := by
  cases cmd with
  | none => exact Triple.pure fun _ => ordinary_self (innocent_nil.setError _)
  | some cmd =>
    cases cmd with
    | getPinfoFlags | getPinfoRootdev =>
      exact Triple.pure fun _ => ordinary_self (innocent_nil.set _ (by decide))
    | getPrebootpath => exact Triple.bind (getPrebootpath_spec s) fun _ => Triple.pure fun _ h => h
    | performReboot3 =>
      have hordinary : asksUserspaceReboot dict = false := by
        by_contra hasks
        simp [namedEntitlement, hasks] at hnamed
      exact Triple.bind (performReboot3_spec peer s hordinary) fun _ => Triple.pure fun _ h => h
    | resumePayload => exact resumePayload_spec peer s
    | _ => cases hnamed

/-- A request that names no entitlement meets the property. -/
theorem onlyForEntitled_of_unnamed {peer : Peer} {request : Request} {s : HandlerState}
    {t : List (Event Answer)} {r : Except Fault HandlerState}
    (hnamed : namedEntitlement request.dict request.cmd = none)
    (hrun : Run (palera1ndHandler peer request s).run t r) :
    OnlyForEntitled peer request s t r := by
  have hspec : Triple mark (· = false) (palera1ndHandler peer request s)
      (fun s' marked => marked = false ∧ s'.pinfo = s.pinfo ∧
        (s'.payloadPid = s.payloadPid ∨ s'.payloadPid = 0)) (fun _ marked => marked = false) := by
    unfold palera1ndHandler
    split
    · refine Triple.bind (handleCommand_unnamed peer s hnamed) fun result => ?_
      refine Triple.pre (Triple.of_and fun hinnocent : Innocent result.1 => ?_)
        fun _ (h : Ordinary s result _) => ⟨h.2.1, h⟩
      refine Triple.bind ((unmarked_perform (c := .sendReply result.1)
        (sendReply_unmarked hinnocent)).triple _) fun _ => ?_
      exact Triple.pure fun _ h => ⟨h.1, h.2.2⟩
    · exact Triple.pure fun _ h => ⟨h, rfl, .inl rfl⟩
  have hmarked : t.any privileged = false := by
    rw [← Bool.false_or (t.any privileged), ← foldl_noting]
    cases r with
    | ok s' => exact (hspec.ok_foldl rfl hrun).1
    | error _ => exact hspec.error_foldl rfl hrun
  refine ⟨fun ⟨e, hmem, he⟩ => ?_, ?_, fun hsome => ?_, fun e he => ?_⟩
  · exact absurd (List.any_eq_false.mp hmarked e hmem) (by simp [he])
  · rintro s' rfl hchange
    obtain ⟨-, hpinfo, hpid⟩ := hspec.ok_foldl rfl hrun
    rcases hchange with hchange | ⟨hne, hzero⟩
    · exact absurd hpinfo hchange
    · rcases hpid with hpid | hpid
      · exact absurd hpid hne
      · exact absurd hpid hzero
  · simp [hnamed] at hsome
  · simp [hnamed] at he

/-! ## Requests that name one -/

/-- A request that cannot be replied to is dropped. -/
theorem onlyForEntitled_of_not_replyable {peer : Peer} {request : Request} {s : HandlerState}
    {t : List (Event Answer)} {r : Except Fault HandlerState} (h : request.replyable = false)
    (hrun : Run (palera1ndHandler peer request s).run t r) :
    OnlyForEntitled peer request s t r := by
  have hdrop (peer : Peer) : palera1ndHandler peer request s = pure s := by
    unfold palera1ndHandler
    rw [h]
    rfl
  rw [hdrop] at hrun
  cases hrun
  refine ⟨by simp, ?_, fun _ _ => ⟨rfl, by simp⟩, fun e _ _ => ?_⟩
  · rintro s' hs'
    obtain rfl := Except.ok.inj hs'
    simp
  · rw [hdrop]
    exact .done _

theorem onlyForEntitled_of_named {peer : Peer} {request : Request} {s : HandlerState}
    {t : List (Event Answer)} {r : Except Fault HandlerState} {entitlement : String}
    (hnamed : namedEntitlement request.dict request.cmd = some entitlement)
    (hcmd : request.cmd ≠ some .performReboot3)
    (hrun : Run (palera1ndHandler peer request s).run t r) :
    OnlyForEntitled peer request s t r := by
  by_cases hholds : peer.holds entitlement
  · exact onlyForEntitled_of_authorised ⟨entitlement, hnamed, hholds, fun h => absurd h hcmd⟩
  cases hreplyable : request.replyable with
  | false => exact onlyForEntitled_of_not_replyable hreplyable hrun
  | true =>
    obtain ⟨reply, hreply, herror, hinnocent⟩ := handleCommand_refused (s := s) hnamed hcmd hholds
    obtain ⟨a, rfl, rfl⟩ := (run_of_reply hreplyable hreply).mp hrun
    refine onlyForEntitled_of_refusal herror hinnocent fun e he hfalse => ?_
    exact (run_of_reply hreplyable ((handleCommand_without he hcmd hfalse).trans hreply)).mpr
      ⟨a, rfl, rfl⟩

/-- The exact condition on a userspace reboot: a platform peer does not have the entitlement as the
boolean false, and no `errno` is 0 where the peer cannot be looked up. -/
structure RebootChecked (peer : Peer) : Prop where
  value : peer.platform →
    peer.entitlements.getValue userspaceRebootEntitlement ≠ some (.bool false)
  pid : peer.pid = -1 → peer.pidErrno ≠ 0
  csops : peer.pid ≠ -1 → peer.csops ≠ .error 0

theorem checkPlatform_of_platform {peer : Peer} (h : peer.platform) (reply : Dict) :
    checkPlatform peer reply = .ok () := by
  obtain ⟨hpid, status, hcsops, hstatus⟩ := h
  simp only [checkPlatform, if_neg hpid, hcsops, if_neg hstatus]

theorem checkPlatform_of_not_platform {peer : Peer} (h : ¬peer.platform) :
    ∃ code, checkPlatform peer [] = .error (setError [] code) ∧
      (code ≠ 0 ↔ RebootChecked peer) := by
  by_cases hpid : peer.pid = -1
  · refine ⟨peer.pidErrno, if_pos hpid, fun hcode => ?_, fun hchecked => hchecked.pid hpid⟩
    exact ⟨fun hplatform => absurd hplatform h, fun _ => hcode, fun hne => absurd hpid hne⟩
  cases hcsops : peer.csops with
  | error code =>
    refine ⟨code, by simp only [checkPlatform, if_neg hpid, hcsops], fun hcode => ?_,
      fun hchecked hzero => hchecked.csops hpid (by rw [hcsops, hzero])⟩
    refine ⟨fun hplatform => absurd hplatform h, fun heq => absurd heq hpid, fun _ heq => ?_⟩
    exact hcode (Except.error.inj (hcsops.symm.trans heq))
  | ok status =>
    have hstatus : status &&& csPlatformBinary = 0 := by
      by_contra hne
      exact h ⟨hpid, status, hcsops, hne⟩
    refine ⟨enotplatform, by simp only [checkPlatform, if_neg hpid, hcsops, if_pos hstatus],
      fun _ => ?_, fun _ => by decide⟩
    refine ⟨fun hplatform => absurd hplatform h, fun heq => absurd heq hpid, fun _ heq => ?_⟩
    rw [hcsops] at heq
    cases heq

/-- A reboot that a check ends. -/
theorem handleCommand_reboot_of_error {peer : Peer} {dict reply : Dict} {s : HandlerState}
    (h : checkReboot3 peer dict [] = .error reply) :
    handleCommand peer dict [] s (some .performReboot3) = pure (reply, s) := by
  simp only [handleCommand, performReboot3, h]
  rfl

theorem checkReboot3_of_not_platform {peer : Peer} {reply : Dict}
    (h : checkPlatform peer [] = .error reply) (dict : Dict) :
    checkReboot3 peer dict [] = .error reply := by
  unfold checkReboot3
  rw [h]
  rfl

theorem checkReboot3_of_not_bool {peer : Peer} (hplatform : peer.platform) {dict : Dict}
    (hasks : asksUserspaceReboot dict = true)
    (hvalue : ∀ value, peer.entitlements.getValue userspaceRebootEntitlement ≠
      some (.bool value)) :
    checkReboot3 peer dict [] = .error (setError [] enoentitlement) := by
  unfold checkReboot3
  rw [checkPlatform_of_platform hplatform]
  unfold asksUserspaceReboot at hasks
  split at hasks
  case h_2 => cases hasks
  case h_1 xpcHowto hhowto =>
    have hasks' : xpcHowto.uint64Value &&& rb2Userreboot ≠ 0 := by simpa using hasks
    have hcheck : checkRebootEntitlement peer [] xpcHowto.uint64Value =
        .error (setError [] enoentitlement) := by
      unfold checkRebootEntitlement
      rw [if_pos hasks']
      split
      · exact absurd ‹_› (hvalue _)
      · rfl
    rw [hhowto]
    dsimp only
    rw [hcheck]
    rfl

/-- A userspace reboot that a check ends is refused, unless its error is 0. -/
theorem onlyForEntitled_of_error {peer : Peer} {request : Request} {s : HandlerState} {code : ℤ}
    (hreplyable : request.replyable = true) (hcmd : request.cmd = some .performReboot3)
    (hasks : asksUserspaceReboot request.dict = true) (hnot : ¬Authorised peer request)
    (hcheck : checkReboot3 peer request.dict [] = .error (setError [] code))
    (hwithout : peer.entitlements.getValue userspaceRebootEntitlement = some (.bool false) →
      checkReboot3 (peer.without userspaceRebootEntitlement) request.dict [] =
        .error (setError [] code))
    {t : List (Event Answer)} {r : Except Fault HandlerState}
    (hrun : Run (palera1ndHandler peer request s).run t r) :
    OnlyForEntitled peer request s t r ↔ code ≠ 0 := by
  have hnamed : namedEntitlement request.dict request.cmd = some userspaceRebootEntitlement := by
    simp [namedEntitlement, hcmd, hasks]
  have hreply (peer : Peer) (h : checkReboot3 peer request.dict [] = .error (setError [] code)) :
      handleCommand peer request.dict [] s request.cmd = pure (setError [] code, s) := by
    rw [hcmd]
    exact handleCommand_reboot_of_error h
  obtain ⟨a, rfl, rfl⟩ := (run_of_reply hreplyable (hreply peer hcheck)).mp hrun
  refine ⟨fun h => ?_, fun hcode => ?_⟩
  · obtain ⟨-, hsends⟩ := h.refused (by simp [hnamed]) hnot
    obtain ⟨reply, heq, herror⟩ := hsends _ List.mem_cons_self
    obtain rfl := Call.sendReply.inj heq
    rwa [getInt64_setError] at herror
  · refine onlyForEntitled_of_refusal (by rwa [getInt64_setError]) (innocent_nil.setError _)
      fun e he hfalse => ?_
    obtain rfl : userspaceRebootEntitlement = e := Option.some.inj (hnamed.symm.trans he)
    exact (run_of_reply hreplyable (hreply _ (hwithout hfalse))).mpr ⟨a, rfl, rfl⟩

/-- The reply to a userspace reboot is not that of the missing entitlement when the entitlement is a
boolean. -/
theorem reboot_reply_ne {peer : Peer} {request : Request} {s : HandlerState} {value : Bool}
    (hreplyable : request.replyable = true) (hcmd : request.cmd = some .performReboot3)
    (hplatform : peer.platform)
    (hvalue : peer.entitlements.getValue userspaceRebootEntitlement = some (.bool value))
    {a : Except Errno Unit} {r : Except Fault HandlerState}
    (hrun : Run (palera1ndHandler peer request s).run
      [⟨.sendReply (setError [] enoentitlement), a⟩] r) : False := by
  have hentitlement (howto : BitVec 64) : checkRebootEntitlement peer [] howto = .ok () := by
    unfold checkRebootEntitlement
    rw [hvalue]
    exact ite_self _
  have hreply {reply : Dict} (hcheck : checkReboot3 peer request.dict [] = .error reply)
      (hne : reply ≠ setError [] enoentitlement) : False := by
    obtain ⟨b, heq, -⟩ := (run_of_reply hreplyable
      (hcmd ▸ handleCommand_reboot_of_error hcheck)).mp hrun
    have hcall := congrArg (fun t => t.head?.map Sigma.fst) heq
    exact hne (Call.sendReply.inj (Option.some.inj hcall)).symm
  unfold checkReboot3 at hreply
  rw [checkPlatform_of_platform hplatform] at hreply
  cases hhowto : request.dict.getValue "howto" with
  | none =>
    refine hreply (by rw [hhowto]; rfl) ?_
    decide
  | some xpcHowto =>
    rw [hhowto] at hreply
    dsimp only at hreply
    rw [hentitlement] at hreply
    cases hpurpose : rebootPurpose request.dict [] xpcHowto.uint64Value with
    | error reply =>
      rw [hpurpose] at hreply
      exact hreply rfl (rebootPurpose_ne hpurpose)
    | ok purpose =>
      have hcheck : checkReboot3 peer request.dict [] = .ok (xpcHowto.uint64Value, purpose) := by
        unfold checkReboot3
        rw [checkPlatform_of_platform hplatform, hhowto]
        dsimp only
        rw [hentitlement, hpurpose]
        rfl
      unfold palera1ndHandler at hrun
      rw [if_pos hreplyable, hcmd] at hrun
      simp only [handleCommand, performReboot3, hcheck] at hrun
      cases hrun

theorem rebootChecked_iff_of_platform {peer : Peer} (h : peer.platform) :
    RebootChecked peer ↔
      peer.entitlements.getValue userspaceRebootEntitlement ≠ some (.bool false) := by
  obtain ⟨hpid, status, hcsops, -⟩ := id h
  refine ⟨fun hchecked => hchecked.value h, fun hvalue => ?_⟩
  refine ⟨fun _ => hvalue, fun heq => absurd heq hpid, fun _ heq => ?_⟩
  rw [hcsops] at heq
  cases heq

theorem onlyForEntitled_reboot_iff {peer : Peer} {request : Request} {s : HandlerState}
    {t : List (Event Answer)} {r : Except Fault HandlerState}
    (hreplyable : request.replyable = true) (hcmd : request.cmd = some .performReboot3)
    (hasks : asksUserspaceReboot request.dict = true)
    (hrun : Run (palera1ndHandler peer request s).run t r) :
    OnlyForEntitled peer request s t r ↔ RebootChecked peer := by
  have hnamed : namedEntitlement request.dict request.cmd = some userspaceRebootEntitlement := by
    simp [namedEntitlement, hcmd, hasks]
  have hholds (h : Authorised peer request) : peer.holds userspaceRebootEntitlement := by
    obtain ⟨e, he, hholds, -⟩ := h
    obtain rfl : userspaceRebootEntitlement = e := Option.some.inj (hnamed.symm.trans he)
    exact hholds
  by_cases hplatform : peer.platform
  case neg =>
    obtain ⟨code, hcheck, hcode⟩ := checkPlatform_of_not_platform hplatform
    rw [← hcode]
    refine onlyForEntitled_of_error hreplyable hcmd hasks ?_
      (checkReboot3_of_not_platform hcheck _) (fun _ => ?_) hrun
    · rintro ⟨-, -, -, h⟩
      exact hplatform (h hcmd)
    · have hcheck' : checkPlatform (peer.without userspaceRebootEntitlement) [] =
          .error (setError [] code) := hcheck
      exact checkReboot3_of_not_platform hcheck' _
  case pos =>
    rw [rebootChecked_iff_of_platform hplatform]
    by_cases hbool : ∃ value,
        peer.entitlements.getValue userspaceRebootEntitlement = some (.bool value)
    case neg =>
      have hvalue := not_exists.mp hbool
      refine iff_of_true ((onlyForEntitled_of_error hreplyable hcmd hasks (fun h => ?_)
        (checkReboot3_of_not_bool hplatform hasks hvalue) (fun h => ?_) hrun).mpr (by decide))
        (hvalue false)
      · exact hvalue true (hholds h)
      · exact absurd h (hvalue false)
    case pos =>
      obtain ⟨value, hvalue⟩ := hbool
      cases value with
      | true =>
        refine iff_of_true (onlyForEntitled_of_authorised
          ⟨_, hnamed, hvalue, fun _ => hplatform⟩) ?_
        rw [hvalue]
        simp
      | false =>
        refine iff_of_false (fun h => ?_) (fun h => h hvalue)
        -- without the entitlement the reply would be that it is missing
        have habsent := h.absent _ hnamed hvalue
        have hcheck : checkReboot3 (peer.without userspaceRebootEntitlement) request.dict [] =
            .error (setError [] enoentitlement) := by
          have hplatform' : (peer.without userspaceRebootEntitlement).platform := hplatform
          refine checkReboot3_of_not_bool hplatform' hasks fun value => ?_
          rw [peer.getValue_without]
          simp
        obtain ⟨a, rfl, rfl⟩ := (run_of_reply hreplyable
          (hcmd ▸ handleCommand_reboot_of_error hcheck)).mp habsent
        exact reboot_reply_ne hreplyable hcmd hplatform hvalue hrun

/-- **When privileged work is for entitled peers only**: in every run but those of a userspace
reboot whose entitlement is the boolean false, or in which the peer cannot be looked up and `errno`
is 0. -/
theorem handler_onlyForEntitled_iff {peer : Peer} {request : Request} {s : HandlerState}
    {t : List (Event Answer)} {r : Except Fault HandlerState}
    (hrun : Run (palera1ndHandler peer request s).run t r) :
    OnlyForEntitled peer request s t r ↔
      (request.replyable = true → request.cmd = some .performReboot3 →
        asksUserspaceReboot request.dict = true → RebootChecked peer) := by
  cases hreplyable : request.replyable with
  | false =>
    exact iff_of_true (onlyForEntitled_of_not_replyable hreplyable hrun) (fun h => by cases h)
  | true =>
    by_cases hcmd : request.cmd = some .performReboot3
    case neg =>
      refine iff_of_true ?_ fun _ h => absurd h hcmd
      cases hnamed : namedEntitlement request.dict request.cmd with
      | none => exact onlyForEntitled_of_unnamed hnamed hrun
      | some entitlement => exact onlyForEntitled_of_named hnamed hcmd hrun
    case pos =>
      cases hasks : asksUserspaceReboot request.dict with
      | false =>
        refine iff_of_true (onlyForEntitled_of_unnamed ?_ hrun) fun _ _ h => by cases h
        simp [namedEntitlement, hcmd, hasks]
      | true =>
        simp only [hcmd, forall_const]
        exact onlyForEntitled_reboot_iff hreplyable hcmd hasks hrun

/-! ## A userspace reboot with the entitlement false -/

def rebootRequest : Request where
  dict := (Dict.set [] "cmd" (.uint64 7)).set "howto" (.uint64 rb2Userreboot)
  replyable := true

theorem handler_refuses_reboot :
    OnlyForEntitled (platformPeer []) rebootRequest plainState
      (handling (platformPeer []) rebootRequest).1 (handling (platformPeer []) rebootRequest).2 :=
  (handler_onlyForEntitled_iff (run_drive _ _)).mpr fun _ _ _ =>
    ⟨fun _ => by decide, fun h => (by cases h), fun _ h => (by cases h)⟩

/-- A peer whose entitlement is false reboots the userspace. -/
theorem handler_reboots_userspace :
    ∃ peer, peer.entitlements.getValue userspaceRebootEntitlement = some (.bool false) ∧
      Run (palera1ndHandler peer rebootRequest plainState).run
        (handling peer rebootRequest).1 (handling peer rebootRequest).2 ∧
      (handling peer rebootRequest).1.map Sigma.fst =
        [.unmountDeveloper, .reboot3 rb2Userreboot none, .sendReply []] ∧
      ¬OnlyForEntitled peer rebootRequest plainState
        (handling peer rebootRequest).1 (handling peer rebootRequest).2 := by
  have hfalse : (platformPeer (Dict.set [] userspaceRebootEntitlement
      (.bool false))).entitlements.getValue userspaceRebootEntitlement = some (.bool false) := by
    decide
  refine ⟨_, hfalse, run_drive _ _, by decide +kernel, fun h => ?_⟩
  obtain ⟨e, he, hholds, -⟩ := h.work (by decide +kernel)
  have hnamed : namedEntitlement rebootRequest.dict rebootRequest.cmd =
      some userspaceRebootEntitlement := by
    decide +kernel
  obtain rfl : userspaceRebootEntitlement = e := Option.some.inj (hnamed.symm.trans he)
  cases hfalse.symm.trans hholds

end Jbinit.Palera1nd

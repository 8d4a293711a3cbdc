import Jbinit.Palera1nd.HandlerReplies
import Jbinit.Systemhook.Initializer

/-!
# Rebooting through palera1nd

`reboot3_hook` stands for `reboot3` in every process that systemhook is in. It asks palera1nd for a
userspace reboot, and calls the function itself for any other and in palera1nd, which would wait for
its own reply. A caller gets what it would get from the function, or an error
(`reboot3Hook_iff`).
-/

namespace Jbinit

open Foundations Calls Palera1nd

/-! ## The hook -/

/-- What the hook does outside its process. -/
inductive HookCall
  /-- The function that is hooked. -/
  | reboot3 (howto : BitVec 64) (purpose : Option (BitVec 32))
  /-- `jailbreak_send_jailbreakd_message_with_reply_sync`. -/
  | sendJailbreakdMessage (xdict : Dict)

def HookAnswer : HookCall → Type
  | .reboot3 _ _ => ℤ
  /- none is an XPC error -/
  | .sendJailbreakdMessage _ => Option Dict

/-- The argument behind `howto`, which is read when a flag says that it is there. -/
def purposeArg (howto : BitVec 64) (va : BitVec 32) : Option (BitVec 32) :=
  if howto &&& ithinkPurpose ≠ 0 then some va else none

def setPurpose (xdict : Dict) : Option (BitVec 32) → Dict
  | some purpose => xdict.set "purpose" (.uint64 (purpose.setWidth 64))
  | none => xdict

def reboot3Request (howto : BitVec 64) (purpose : Option (BitVec 32)) : Dict :=
  (setPurpose (Dict.set [] "howto" (.uint64 howto)) purpose).set "cmd" (.uint64 7)

/-- The value that is returned for a reply. -/
def replyError : Option Dict → ℤ
  | none => eagain
  | some xreply => toInt (xreply.getInt64 "error")

/-- Whether palera1nd is asked. -/
def asksPalera1nd (inJailbreakd : Bool) (howto : BitVec 64) : Bool :=
  !(inJailbreakd || howto &&& rb2Userreboot == 0)

def reboot3Hook (inJailbreakd : Bool) (howto : BitVec 64) (va : BitVec 32) : Prog HookAnswer ℤ :=
  if asksPalera1nd inJailbreakd howto then
    .call (.sendJailbreakdMessage (reboot3Request howto (purposeArg howto va))) fun xreply =>
      .done (replyError xreply)
  else .call (.reboot3 howto (purposeArg howto va)) .done

/-! ## The system -/

/-- A call of the function that is hooked. -/
structure Reboot where
  howto : BitVec 64
  purpose : Option (BitVec 32)
  ret : ℤ

/-- The calls of the function in a trace of palera1nd. -/
def rebootOf : Event Answer → Option Reboot
  | ⟨.reboot3 howto purpose, ret⟩ => some ⟨howto, purpose, ret⟩
  | _ => none

structure System where
  palera1nd : HandlerState
  /-- The calls of the function so far, by any process. -/
  reboots : List Reboot

/-- The calls of a client. palera1nd handles a request to its reply, or the connection breaks at
some point and palera1nd may be in any state afterwards. -/
inductive System.Step (peer : Peer) : System → Event HookAnswer → System → Prop
  | reboot3 {s : System} (howto : BitVec 64) (purpose : Option (BitVec 32)) (ret : ℤ) :
    Step peer s ⟨.reboot3 howto purpose, ret⟩ { s with reboots := s.reboots ++ [⟨howto, purpose, ret⟩] }
  | answered {s : System} {xdict reply : Dict} {t : List (Event Answer)} {a : Except Errno Unit}
    {palera1nd : HandlerState} (h : Run (palera1ndHandler peer ⟨xdict, true⟩ s.palera1nd).run
      (t ++ [⟨.sendReply reply, a⟩]) (.ok palera1nd)) :
    Step peer s ⟨.sendJailbreakdMessage xdict, some reply⟩
      ⟨palera1nd, s.reboots ++ t.filterMap rebootOf⟩
  | interrupted {s : System} {xdict : Dict} {t rest : List (Event Answer)}
    {r : Except Fault HandlerState} (h : Run (palera1ndHandler peer ⟨xdict, true⟩ s.palera1nd).run
      (t ++ rest) r) (palera1nd : HandlerState) :
    Step peer s ⟨.sendJailbreakdMessage xdict, none⟩
      ⟨palera1nd, s.reboots ++ t.filterMap rebootOf⟩

/-- A platform binary with the entitlement, whatever its value is. -/
structure MayReboot (peer : Peer) : Prop where
  pid : peer.pid ≠ -1
  platform : ∃ status, peer.csops = .ok status ∧ status &&& csPlatformBinary ≠ 0
  entitled : ∃ value, peer.entitlements.getValue userspaceRebootEntitlement = some (.bool value)

/-- What a call that returns `r` has done: the calls of the function since then. -/
inductive Rebooting (allowed : Prop) (howto : BitVec 64) (purpose : Option (BitVec 32)) (r : ℤ) :
    List Reboot → Prop
  /-- The function was called in the same way, and its value is returned. -/
  | called (ret : ℤ) (hallowed : allowed) (hr : toInt r = toInt ret) :
    Rebooting allowed howto purpose r [⟨howto, purpose, ret⟩]
  | refused (hallowed : ¬allowed) (hr : toInt r ≠ 0) : Rebooting allowed howto purpose r []
  /-- Without a reply it is not known. -/
  | unanswered {reboots : List Reboot} (hr : r = eagain)
    (h : reboots = [] ∨ allowed ∧ ∃ ret, reboots = [⟨howto, purpose, ret⟩]) :
    Rebooting allowed howto purpose r reboots

/-! ## The request -/

variable {peer : Peer} {howto : BitVec 64} {va : BitVec 32} {purpose : Option (BitVec 32)}

theorem toInt_toInt (value : ℤ) : toInt (toInt value) = toInt value := by
  rw [toInt, toInt, BitVec.ofInt_toInt]

theorem getValue_howto (howto : BitVec 64) (purpose : Option (BitVec 32)) :
    (reboot3Request howto purpose).getValue "howto" = some (.uint64 howto) := by
  rw [reboot3Request, Dict.getValue_set_of_ne _ (by decide)]
  cases purpose with
  | none => exact Dict.getValue_set_self ..
  | some purpose => exact (Dict.getValue_set_of_ne _ (by decide) _).trans (Dict.getValue_set_self ..)

theorem getValue_purpose (howto : BitVec 64) (purpose : Option (BitVec 32)) :
    (reboot3Request howto purpose).getValue "purpose" =
      purpose.map fun purpose => .uint64 (purpose.setWidth 64) := by
  rw [reboot3Request, Dict.getValue_set_of_ne _ (by decide)]
  cases purpose with
  | none => exact Dict.getValue_set_of_ne _ (by decide) _
  | some purpose => exact Dict.getValue_set_self ..

theorem cmd_reboot3Request (howto : BitVec 64) (purpose : Option (BitVec 32)) :
    (Request.mk (reboot3Request howto purpose) true).cmd = some .performReboot3 := by
  rw [Request.cmd, Dict.getUint64, reboot3Request, Dict.getValue_set_self]
  rfl

/-- palera1nd reads the purpose that the caller gave. -/
theorem rebootPurpose_request (howto : BitVec 64) (va : BitVec 32) :
    rebootPurpose (reboot3Request howto (purposeArg howto va)) [] howto =
      .ok (purposeArg howto va) := by
  rw [rebootPurpose, getValue_purpose]
  unfold purposeArg
  split
  case isTrue => simp [Xpc.uint64Value]
  case isFalse => rfl

/-! ## The checks -/

theorem checkPlatform_of_mayReboot (h : MayReboot peer) : checkPlatform peer [] = .ok () := by
  obtain ⟨status, hcsops, hstatus⟩ := h.platform
  rw [checkPlatform, if_neg h.pid, hcsops]
  exact if_neg hstatus

theorem checkReboot3_of_mayReboot (h : MayReboot peer) (howto : BitVec 64) (va : BitVec 32) :
    checkReboot3 peer (reboot3Request howto (purposeArg howto va)) [] =
      .ok (howto, purposeArg howto va) := by
  obtain ⟨value, hvalue⟩ := h.entitled
  have hentitlement : checkRebootEntitlement peer [] howto = .ok () := by
    rw [checkRebootEntitlement, hvalue]
    split <;> rfl
  rw [checkReboot3, checkPlatform_of_mayReboot h, getValue_howto]
  show (checkRebootEntitlement peer [] howto >>= fun _ => _) = _
  rw [hentitlement]
  show (rebootPurpose _ [] howto >>= fun _ => _) = _
  rw [rebootPurpose_request]
  rfl

theorem mayReboot_of_checkPlatform (h : checkPlatform peer [] = .ok ()) {value : Bool}
    (hvalue : peer.entitlements.getValue userspaceRebootEntitlement = some (.bool value)) :
    MayReboot peer := by
  unfold checkPlatform at h
  split at h
  case isTrue => cases h
  case isFalse hpid =>
    split at h
    case h_1 => cases h
    case h_2 status hcsops =>
      split at h
      case isTrue => cases h
      case isFalse hstatus => exact ⟨hpid, ⟨status, hcsops, hstatus⟩, ⟨value, hvalue⟩⟩

/-- The error that a peer is refused with is 0 only when `errno` is. -/
theorem checkReboot3_of_not_mayReboot (hhowto : howto &&& rb2Userreboot ≠ 0) (h : ¬MayReboot peer)
    (va : BitVec 32) : ∃ code, checkReboot3 peer (reboot3Request howto (purposeArg howto va)) [] =
      .error (setError [] code) ∧ (toInt code ≠ 0 ↔ LookupErrnos peer) := by
  cases hplatform : checkPlatform peer [] with
  | error reply =>
    have hrefused : checkReboot3 peer (reboot3Request howto (purposeArg howto va)) [] =
        .error reply := by
      rw [checkReboot3, hplatform]
      rfl
    have hfails := checkPlatform_error hplatform
    have hcode : ∃ code, reply = setError [] code := by
      unfold checkPlatform at hplatform
      split at hplatform
      · exact ⟨_, (Except.error.inj hplatform).symm⟩
      · split at hplatform
        · exact ⟨_, (Except.error.inj hplatform).symm⟩
        · split at hplatform
          · exact ⟨_, (Except.error.inj hplatform).symm⟩
          · cases hplatform
    obtain ⟨code, rfl⟩ := hcode
    refine ⟨code, hrefused, ?_⟩
    rw [← hfails, replyFails_setError]
    simp [Dict.getString, Dict.getValue]
  | ok _ =>
    refine ⟨enoentitlement, ?_, iff_of_true (by decide) (checkPlatform_ok hplatform)⟩
    have hentitlement : checkRebootEntitlement peer [] howto =
        .error (setError [] enoentitlement) := by
      rw [checkRebootEntitlement, if_pos hhowto]
      split
      case h_1 value hvalue => exact absurd (mayReboot_of_checkPlatform hplatform hvalue) h
      case h_2 => rfl
    rw [checkReboot3, hplatform, getValue_howto]
    show (checkRebootEntitlement peer [] howto >>= fun _ => _) = _
    rw [hentitlement]
    rfl

/-! ## palera1nd -/

/-- What palera1nd does before its reply. -/
inductive Handled (peer : Peer) (howto : BitVec 64) (purpose : Option (BitVec 32)) :
    List (Event Answer) → Dict → Prop
  | rebooted (a : Except Errno Unit) (ret : ℤ) (h : MayReboot peer) :
    Handled peer howto purpose [⟨.unmountDeveloper, a⟩, ⟨.reboot3 howto purpose, ret⟩]
      (if ret ≠ 0 then setError [] ret else [])
  | refused {code : ℤ} (h : ¬MayReboot peer) (hcode : toInt code ≠ 0 ↔ LookupErrnos peer) :
    Handled peer howto purpose [] (setError [] code)

/-- A peer that is refused gets a reply only. -/
theorem handleCommand_refused (hhowto : howto &&& rb2Userreboot ≠ 0) (hmay : ¬MayReboot peer)
    (va : BitVec 32) (s : HandlerState) : ∃ code,
      handleCommand peer (reboot3Request howto (purposeArg howto va)) [] s
        (Request.mk (reboot3Request howto (purposeArg howto va)) true).cmd =
          pure (setError [] code, s) ∧ (toInt code ≠ 0 ↔ LookupErrnos peer) := by
  obtain ⟨code, hcheck, hcode⟩ := checkReboot3_of_not_mayReboot hhowto hmay va
  refine ⟨code, ?_, hcode⟩
  rw [cmd_reboot3Request]
  show (do return (← performReboot3 _ _ _, _)) = _
  unfold performReboot3
  rw [hcheck]
  rfl

theorem handled_of_run (hhowto : howto &&& rb2Userreboot ≠ 0) {s : HandlerState}
    {t : List (Event Answer)} {r : Except Fault HandlerState}
    (hrun : Run (palera1ndHandler peer ⟨reboot3Request howto (purposeArg howto va), true⟩ s).run t
      r) : ∃ before reply a, t = before ++ [⟨.sendReply reply, a⟩] ∧
        Handled peer howto (purposeArg howto va) before reply := by
  by_cases hmay : MayReboot peer
  · have hcommand : handleCommand peer (reboot3Request howto (purposeArg howto va)) [] s
        (some .performReboot3) = (do
          perform_ .unmountDeveloper
          let ret : ℤ ← sys (.reboot3 howto (purposeArg howto va))
          return (if ret ≠ 0 then setError [] ret else [], s)) := by
      show (do return (← performReboot3 _ _ _, _)) = _
      unfold performReboot3
      rw [checkReboot3_of_mayReboot hmay]
      rfl
    unfold palera1ndHandler at hrun
    rw [if_pos rfl, cmd_reboot3Request] at hrun
    dsimp only at hrun
    rw [hcommand] at hrun
    cases hrun with
    | call a hrun =>
      cases hrun with
      | call ret hrun =>
        cases hrun with
        | call b hrun =>
          cases hrun
          exact ⟨_, _, b, rfl, .rebooted a ret hmay⟩
  · obtain ⟨code, hcommand, hcode⟩ := handleCommand_refused hhowto hmay va s
    obtain ⟨a, rfl, -⟩ := (run_of_reply rfl hcommand).mp hrun
    exact ⟨[], _, a, rfl, .refused hmay hcode⟩

theorem Handled.reboots {before : List (Event Answer)} {reply : Dict}
    (h : Handled peer howto purpose before reply) : before.filterMap rebootOf = [] ∨
      MayReboot peer ∧ ∃ ret, before.filterMap rebootOf = [⟨howto, purpose, ret⟩] := by
  cases h with
  | rebooted a ret hmay => exact .inr ⟨hmay, ret, rfl⟩
  | refused => exact .inl rfl

/-- A request that is answered. -/
theorem Handled.rebooting {before : List (Event Answer)} {reply : Dict}
    (h : Handled peer howto purpose before reply) (herrnos : LookupErrnos peer) :
    Rebooting (MayReboot peer) howto purpose (replyError (some reply))
      (before.filterMap rebootOf) := by
  cases h with
  | rebooted a ret hmay =>
    refine .called ret hmay ?_
    rw [replyError, toInt_toInt]
    by_cases hret : ret = 0
    · rw [if_neg (not_not.mpr hret), hret]
      rfl
    · rw [if_pos hret, Dict.getInt64, setError, Dict.getValue_set_self]
  | @refused code hmay hcode =>
    refine .refused hmay ?_
    rw [replyError, toInt_toInt, Dict.getInt64, setError, Dict.getValue_set_self]
    exact hcode.mpr herrnos

/-- A request that is interrupted. -/
theorem reboots_interrupted (hhowto : howto &&& rb2Userreboot ≠ 0) {s : HandlerState}
    {t rest : List (Event Answer)} {r : Except Fault HandlerState}
    (hrun : Run (palera1ndHandler peer ⟨reboot3Request howto (purposeArg howto va), true⟩ s).run
      (t ++ rest) r) : t.filterMap rebootOf = [] ∨
        MayReboot peer ∧ ∃ ret, t.filterMap rebootOf = [⟨howto, purposeArg howto va, ret⟩] := by
  obtain ⟨before, reply, a, heq, hhandled⟩ := handled_of_run hhowto hrun
  have hsofar : t.filterMap rebootOf <+: before.filterMap rebootOf := by
    refine ⟨rest.filterMap rebootOf, ?_⟩
    rw [← List.filterMap_append, heq, List.filterMap_append]
    exact List.append_nil _
  rcases hhandled.reboots with hnone | ⟨hmay, ret, hone⟩
  · rw [hnone] at hsofar
    exact .inl (List.prefix_nil.mp hsofar)
  · rw [hone] at hsofar
    cases ht : t.filterMap rebootOf with
    | nil => exact .inl rfl
    | cons reboot reboots =>
      rw [ht, List.cons_prefix_cons, List.prefix_nil] at hsofar
      exact .inr ⟨hmay, ret, by rw [hsofar.1, hsofar.2]⟩

/-! ## The hook -/

/-- The function is called by the process, or palera1nd calls it for the peer. -/
def Allowed (peer : Peer) (inJailbreakd : Bool) (howto : BitVec 64) : Prop :=
  asksPalera1nd inJailbreakd howto = true → MayReboot peer

/-- Every call of the hook has done what its result says. -/
def Faithful (peer : Peer) (inJailbreakd : Bool) (howto : BitVec 64) (va : BitVec 32) : Prop :=
  ∀ (s s' : System) (t : List (Event HookAnswer)) (r : ℤ),
    Run (reboot3Hook inJailbreakd howto va) t r → Steps (System.Step peer) s t s' →
      ∃ reboots, s'.reboots = s.reboots ++ reboots ∧
        Rebooting (Allowed peer inJailbreakd howto) howto (purposeArg howto va) r reboots

/-- A process with systemhook asks palera1nd unless it is palera1nd itself. -/
theorem asksPalera1nd_initializer {host : Systemhook.Startup} {environ : PayloadDylib.Environ}
    {p : Systemhook.Hooked} (h : Systemhook.initializer host environ = .ok p)
    (howto : BitVec 64) : asksPalera1nd p.inJailbreakd howto = true ↔
      environ "XPC_SERVICE_NAME".toList ≠ some "in.palera.palera1nd".toList ∧
        howto &&& rb2Userreboot ≠ 0 := by
  have hservice : p.inJailbreakd =
      (environ "XPC_SERVICE_NAME".toList == some "in.palera.palera1nd".toList) := by
    obtain ⟨hin, -, -⟩ := Systemhook.initializer_eq_ok h
    obtain ⟨hextensions, hroot, hflags, htweakLoader⟩ := hin
    unfold Systemhook.initializer at h
    rw [Systemhook.dupVar_eq_ok_iff.mpr hextensions, Systemhook.dupVar_eq_ok_iff.mpr hroot,
      Systemhook.dupVar_eq_ok_iff.mpr hflags, Systemhook.dupVar_eq_ok_iff.mpr htweakLoader] at h
    rw [← Except.ok.inj h]
  rw [asksPalera1nd, hservice, Bool.not_eq_true', Bool.or_eq_false_iff, beq_eq_false_iff_ne,
    beq_eq_false_iff_ne]

theorem userreboot_of_asks {inJailbreakd : Bool} (h : asksPalera1nd inJailbreakd howto = true) :
    howto &&& rb2Userreboot ≠ 0 := by
  simp [asksPalera1nd] at h
  exact h.2

theorem faithful_of_asks {inJailbreakd : Bool} (hasks : asksPalera1nd inJailbreakd howto = true)
    (herrnos : LookupErrnos peer) (va : BitVec 32) : Faithful peer inJailbreakd howto va := by
  intro s s' t r hrun hsteps
  have hhowto := userreboot_of_asks hasks
  have hallowed : Allowed peer inJailbreakd howto ↔ MayReboot peer := forall_prop_of_true hasks
  rw [reboot3Hook, if_pos hasks] at hrun
  cases hrun with
  | call xreply hrun =>
    cases hrun
    obtain ⟨s₁, hstep, rfl⟩ := hsteps
    cases hstep with
    | answered h =>
      obtain ⟨before, reply', a', heq, hhandled⟩ := handled_of_run hhowto h
      obtain ⟨rfl, hevent⟩ := List.append_inj' heq rfl
      obtain rfl := Call.sendReply.inj (congrArg Sigma.fst (List.cons.inj hevent).1)
      rw [hallowed]
      exact ⟨_, rfl, hhandled.rebooting herrnos⟩
    | interrupted h =>
      rw [hallowed]
      exact ⟨_, rfl, .unanswered rfl (reboots_interrupted hhowto h)⟩

theorem faithful_of_not_asks {inJailbreakd : Bool}
    (hasks : asksPalera1nd inJailbreakd howto = false) (va : BitVec 32) :
    Faithful peer inJailbreakd howto va := by
  intro s s' t r hrun hsteps
  rw [reboot3Hook, if_neg (by simp [hasks])] at hrun
  cases hrun with
  | call ret hrun =>
    cases hrun
    obtain ⟨s₁, hstep, rfl⟩ := hsteps
    cases hstep
    refine ⟨_, rfl, .called r (fun h => ?_) rfl⟩
    rw [hasks] at h
    cases h

/-- **When a reboot does what its result says**: when palera1nd has an error for a peer that it
cannot look up. -/
theorem reboot3Hook_iff (peer : Peer) (inJailbreakd : Bool) (howto : BitVec 64) (va : BitVec 32) :
    Faithful peer inJailbreakd howto va ↔
      (asksPalera1nd inJailbreakd howto = true → LookupErrnos peer) := by
  constructor
  · intro hfaithful hasks
    have hhowto := userreboot_of_asks hasks
    by_contra herrnos
    have hmay : ¬MayReboot peer := fun hmay =>
      herrnos (checkPlatform_ok (checkPlatform_of_mayReboot hmay))
    obtain ⟨code, hcommand, hcode⟩ := handleCommand_refused hhowto hmay va plainState
    have hzero : toInt code = 0 := not_not.mp (mt hcode.mp herrnos)
    have hhandled : Run (palera1ndHandler peer ⟨reboot3Request howto (purposeArg howto va), true⟩
        plainState).run ([] ++ [⟨.sendReply (setError [] code), .ok ()⟩]) (.ok plainState) :=
      (run_of_reply rfl hcommand).mpr ⟨.ok (), rfl, rfl⟩
    have hrun : Run (reboot3Hook inJailbreakd howto va) [⟨.sendJailbreakdMessage
        (reboot3Request howto (purposeArg howto va)), some (setError [] code)⟩]
        (replyError (some (setError [] code))) := by
      rw [reboot3Hook, if_pos hasks]
      exact .call _ (.done _)
    obtain ⟨reboots, hreboots, hrebooting⟩ := hfaithful ⟨plainState, []⟩ ⟨plainState, []⟩ _ _ hrun
      ⟨_, .answered hhandled, rfl⟩
    obtain rfl : [] = reboots := hreboots
    -- the caller is told that there is no error
    have hresult : replyError (some (setError [] code)) = 0 := by
      rw [replyError, Dict.getInt64, setError, Dict.getValue_set_self]
      exact hzero
    rw [hresult] at hrebooting
    cases hrebooting with
    | refused hallowed hr => exact hr rfl
    | unanswered hr => cases hr
  · intro herrnos
    cases hasks : asksPalera1nd inJailbreakd howto with
    | false => exact faithful_of_not_asks hasks va
    | true => exact faithful_of_asks hasks (herrnos hasks) va

end Jbinit

import Jbinit.PayloadDylib.XpcHandler
import Jbinit.Palera1nd.Handler

/-!
# Which messages launchd survives

The handler comes to its end with one reply exactly when no object it uses without a check is
missing (`Harmless`): the reply, the entitlement of the sender, the flags to set, and the variable
of systemhook that a reload of the environment writes to.
-/

namespace Jbinit.PayloadDylib

open Palera1nd

variable {host : Host} {message : Message} {s s' : Launchd}

/-- The sender has the entitlement, with the boolean value true. -/
def Message.Authorised (message : Message) : Prop := message.isJailbreakD = some (.bool true)

/-- What launchd is to do with a message: one reply, and without the entitlement an error and no
change. -/
def Survives (host : Host) (message : Message) (s : Launchd) : Prop :=
  ∃ s' reply, xpcReceiveMachMsgHook host 0 (some message) s = .ok (22, s', [reply]) ∧
    (message.cmd ≠ some .getBootUuid → ¬message.Authorised →
      reply.getInt64 "error" = eperm ∧ s' = s)

/-- Every object that the handler uses without a check is there. -/
structure Harmless (host : Host) (message : Message) (s : Launchd) : Prop where
  reply : message.replyable = true
  entitlement : message.cmd ≠ some .getBootUuid → message.isJailbreakD ≠ none
  flags : message.Authorised → message.cmd = some .setPinfoFlags →
    message.xdict.getValue "flags" ≠ none
  rootPath : message.Authorised → message.cmd = some .reloadJbEnv →
    s.pflags.has palerainOptionRootful = false → ¬host.LacksRootPath

/-! ## The reply -/

theorem Dict.getInt64_set_self (dict : Dict) (key : String) (value : ℤ) :
    (dict.set key (.int64 value)).getInt64 key = value := by
  unfold Dict.getInt64
  rw [Dict.getValue_set_self]

/-- The epilogue. -/
theorem xpcHandler_eq_ok_iff {replies : List Dict} :
    xpcHandler host message s = .ok (s', replies) ↔
      ∃ reply, beforeReply host message s = .ok (some reply, s') ∧ replies = [reply] := by
  unfold xpcHandler
  cases beforeReply host message s with
  | error fault =>
    refine ⟨fun h => ?_, fun ⟨_, h, _⟩ => ?_⟩
    · cases h
    · cases h
  | ok result =>
    obtain ⟨xreply, s₁⟩ := result
    cases xreply with
    | none =>
      refine ⟨fun h => ?_, fun ⟨_, h, _⟩ => ?_⟩
      · cases h
      · cases h
    | some reply =>
      have hrelease : (do
          if message.isJailbreakD.isSome then xpcRelease message.isJailbreakD
          xpcRelease (some reply)
          return (s₁, [reply]) : Handling (Launchd × List Dict)) = .ok (s₁, [reply]) := by
        cases message.isJailbreakD <;> rfl
      show (do
          if message.isJailbreakD.isSome then xpcRelease message.isJailbreakD
          xpcRelease (some reply)
          return (s₁, [reply]) : Handling (Launchd × List Dict)) = .ok (s', replies) ↔ _
      rw [hrelease]
      constructor
      · intro h
        cases h
        exact ⟨reply, rfl, rfl⟩
      · rintro ⟨_, h, rfl⟩
        cases h
        rfl

/-- The part before the reply makes no reply where there was none. -/
theorem setPinfoFlags_none {reply : Dict} (xdict : Dict) :
    setPinfoFlags host xdict none s ≠ .ok (some reply, s') := by
  unfold setPinfoFlags
  cases xdict.getValue "flags" with
  | none => exact fun h => by cases h
  | some value =>
    cases value with
    | uint64 flags =>
      show (if host.dlopen then _ else _) ≠ _
      split
      · exact fun h => by cases h
      · exact fun h => by cases h
    | _ => exact fun h => by cases h

theorem reloadJbEnv_none {reply : Dict} : reloadJbEnv host none s ≠ .ok (some reply, s') := by
  unfold reloadJbEnv
  split
  · exact fun h => by cases h
  · cases loadBootstrappedJailbreakEnv host s <;> exact fun h => by cases h

theorem handleLaunchdCmd_none {reply : Dict} (xdict : Dict) (cmd : Option LaunchdCmd) :
    handleLaunchdCmd host xdict none s cmd ≠ .ok (some reply, s') := by
  cases cmd with
  | none => exact fun h => by cases h
  | some cmd =>
    cases cmd with
    | setPinfoFlags => exact setPinfoFlags_none xdict
    | reloadJbEnv => exact reloadJbEnv_none
    | _ => exact fun h => by cases h

/-- What the handler does before the reply. -/
theorem beforeReply_eq (hreplyable : message.replyable = true) :
    beforeReply host message s = (do
      if ← checkSender message.isJailbreakD message.cmd then
        handleLaunchdCmd host message.xdict (some []) s message.cmd
      else return (some (Dict.set [] "error" (.int64 eperm)), s)) := by
  unfold beforeReply Message.createReply
  rw [if_pos hreplyable]
  rfl

theorem replyable_of_beforeReply {reply : Dict}
    (h : beforeReply host message s = .ok (some reply, s')) : message.replyable = true := by
  by_contra hreplyable
  unfold beforeReply Message.createReply at h
  rw [if_neg hreplyable] at h
  cases hcheck : checkSender message.isJailbreakD message.cmd with
  | error fault =>
    rw [hcheck] at h
    cases h
  | ok passes =>
    rw [hcheck] at h
    cases passes with
    | true => exact handleLaunchdCmd_none _ _ h
    | false => cases h

/-! ## The commands -/

theorem setPinfoFlags_ok_iff (xdict reply : Dict) :
    (∃ reply' s', setPinfoFlags host xdict (some reply) s = .ok (some reply', s')) ↔
      xdict.getValue "flags" ≠ none := by
  unfold setPinfoFlags
  cases xdict.getValue "flags" with
  | none =>
    refine ⟨fun ⟨_, _, h⟩ => ?_, fun h => absurd rfl h⟩
    cases h
  | some value =>
    refine ⟨fun _ h => (by cases h), fun _ => ?_⟩
    cases value with
    | uint64 flags =>
      show ∃ reply' s', (if host.dlopen then _ else _) = _
      split
      · exact ⟨reply, _, rfl⟩
      · exact ⟨reply, _, rfl⟩
    | _ => exact ⟨_, s, rfl⟩

theorem reloadJbEnv_ok_iff (reply : Dict) :
    (∃ reply' s', reloadJbEnv host (some reply) s = .ok (some reply', s')) ↔
      (s.pflags.has palerainOptionRootful = false → ¬host.LacksRootPath) := by
  unfold reloadJbEnv
  cases s.pflags.has palerainOptionRootful with
  | true => exact ⟨fun _ h => (by cases h), fun _ => ⟨_, s, rfl⟩⟩
  | false =>
    rw [← loadBootstrappedJailbreakEnv_ok_iff host s]
    cases loadBootstrappedJailbreakEnv host s with
    | error fault => exact ⟨fun ⟨_, _, h⟩ => (by cases h), fun h => (by cases (h rfl).choose_spec)⟩
    | ok s₁ => exact ⟨fun _ _ => ⟨s₁, rfl⟩, fun _ => ⟨reply, s₁, rfl⟩⟩

theorem handleLaunchdCmd_ok_iff (xdict reply : Dict) (cmd : Option LaunchdCmd) :
    (∃ reply' s', handleLaunchdCmd host xdict (some reply) s cmd = .ok (some reply', s')) ↔
      (cmd = some .setPinfoFlags → xdict.getValue "flags" ≠ none) ∧
        (cmd = some .reloadJbEnv → s.pflags.has palerainOptionRootful = false →
          ¬host.LacksRootPath) := by
  cases cmd with
  | none => exact ⟨fun _ => ⟨by simp, by simp⟩, fun _ => ⟨_, s, rfl⟩⟩
  | some cmd =>
    cases cmd with
    | setPinfoFlags =>
      show (∃ reply' s', setPinfoFlags host xdict (some reply) s = _) ↔ _
      rw [setPinfoFlags_ok_iff]
      simp
    | reloadJbEnv =>
      show (∃ reply' s', reloadJbEnv host (some reply) s = _) ↔ _
      rw [reloadJbEnv_ok_iff]
      simp
    | _ => exact ⟨fun _ => ⟨by simp, by simp⟩, fun _ => ⟨_, s, rfl⟩⟩

theorem checkSender_getBootUuid (isJailbreakD : Option Xpc) :
    checkSender isJailbreakD (some .getBootUuid) = .ok true :=
  rfl

/-- The check of another command. -/
theorem checkSender_some {cmd : Option LaunchdCmd} (hcmd : cmd ≠ some .getBootUuid) (value : Xpc) :
    checkSender (some value) cmd = .ok (decide (value = .bool true)) := by
  unfold checkSender
  rw [if_pos hcmd]
  cases value with
  | bool b => cases b <;> rfl
  | _ => rfl

theorem checkSender_none {cmd : Option LaunchdCmd} (hcmd : cmd ≠ some .getBootUuid) :
    checkSender none cmd = .error .nullObject := by
  unfold checkSender
  rw [if_pos hcmd]
  rfl

/-- The part before the reply comes to its end with a reply when no object is missing, and only
then. -/
theorem beforeReply_ok_iff :
    (∃ reply s', beforeReply host message s = .ok (some reply, s')) ↔ Harmless host message s := by
  by_cases hreplyable : message.replyable = true
  swap
  · exact ⟨fun ⟨_, _, h⟩ => absurd (replyable_of_beforeReply h) hreplyable,
      fun h => absurd h.reply hreplyable⟩
  rw [beforeReply_eq hreplyable]
  by_cases hcmd : message.cmd = some .getBootUuid
  · rw [hcmd, checkSender_getBootUuid]
    refine ⟨fun _ => ⟨hreplyable, fun h => absurd hcmd h, fun _ h => ?_, fun _ h => ?_⟩,
      fun _ => ⟨_, s, rfl⟩⟩
    · rw [hcmd] at h
      cases h
    · rw [hcmd] at h
      cases h
  cases hentitlement : message.isJailbreakD with
  | none =>
    rw [checkSender_none hcmd]
    refine ⟨fun ⟨_, _, h⟩ => ?_, fun h => absurd hentitlement (h.entitlement hcmd)⟩
    cases h
  | some value =>
    rw [checkSender_some hcmd]
    have hentitled : message.isJailbreakD ≠ none := by simp [hentitlement]
    by_cases hvalue : value = .bool true
    · subst hvalue
      show (∃ reply s', handleLaunchdCmd host message.xdict (some []) s message.cmd = _) ↔ _
      rw [handleLaunchdCmd_ok_iff]
      exact ⟨fun h => ⟨hreplyable, fun _ => hentitled, fun _ => h.1, fun _ => h.2⟩,
        fun h => ⟨h.flags hentitlement, h.rootPath hentitlement⟩⟩
    · rw [decide_eq_false hvalue]
      have hnot : ¬message.Authorised := by
        intro h
        exact hvalue (Option.some.inj (hentitlement.symm.trans h))
      exact ⟨fun _ => ⟨hreplyable, fun _ => hentitled, fun h => absurd h hnot,
        fun h => absurd h hnot⟩, fun _ => ⟨_, s, rfl⟩⟩

/-- Without the entitlement the reply is the error and nothing changes. -/
theorem beforeReply_unauthorised {reply : Dict} (hcmd : message.cmd ≠ some .getBootUuid)
    (hnot : ¬message.Authorised) (h : beforeReply host message s = .ok (some reply, s')) :
    reply = Dict.set [] "error" (.int64 eperm) ∧ s' = s := by
  rw [beforeReply_eq (replyable_of_beforeReply h)] at h
  cases hentitlement : message.isJailbreakD with
  | none =>
    rw [hentitlement, checkSender_none hcmd] at h
    cases h
  | some value =>
    have hvalue : value ≠ .bool true := fun hvalue => hnot (hentitlement.trans (by rw [hvalue]))
    rw [hentitlement, checkSender_some hcmd, decide_eq_false hvalue] at h
    cases h
    exact ⟨rfl, rfl⟩

/-! ## Survival -/

/-- **launchd survives a message** when every object that the handler uses without a check is there,
and only then. -/
theorem xpcHandler_survives_iff (hjailbreak : message.xdict.getBool "jailbreak" = true) :
    Survives host message s ↔ Harmless host message s := by
  have hhook : xpcReceiveMachMsgHook host 0 (some message) s =
      xpcHandler host message s >>= fun result => pure (22, result.1, result.2) := by
    show (if message.xdict.getBool "jailbreak" then _ else _) = _
    rw [if_pos hjailbreak]
  rw [← beforeReply_ok_iff]
  unfold Survives
  rw [hhook]
  constructor
  · rintro ⟨s', reply, hrun, -⟩
    cases hhandler : xpcHandler host message s with
    | error fault =>
      rw [hhandler] at hrun
      cases hrun
    | ok result =>
      obtain ⟨reply', hbefore, -⟩ := xpcHandler_eq_ok_iff.mp hhandler
      exact ⟨reply', result.1, hbefore⟩
  · rintro ⟨reply, s', hbefore⟩
    have hhandler := xpcHandler_eq_ok_iff.mpr ⟨reply, hbefore, rfl⟩
    refine ⟨s', reply, by rw [hhandler]; rfl, fun hcmd hnot => ?_⟩
    obtain ⟨rfl, rfl⟩ := beforeReply_unauthorised hcmd hnot hbefore
    exact ⟨Dict.getInt64_set_self _ _ _, rfl⟩

/-! ## Two messages -/

def plainLaunchd : Launchd :=
  ⟨palerainOptionRootless, fun _ => none, ⟨none, none, palerainOptionRootless⟩, []⟩

/-- From palera1nd. -/
def flagsMessage (flags : Flags) : Message :=
  ⟨setFlagsMessage flags, Dict.set [] launchdCmdEntitlement (.bool true), true⟩

theorem xpcHandler_survives_flags : Survives plainHost (flagsMessage 0) plainLaunchd := by
  refine (xpcHandler_survives_iff rfl).mpr ⟨rfl, fun _ h => ?_, fun _ _ h => ?_, fun _ h => ?_⟩
  · cases h
  · cases h
  · cases h

/-- From a process without the entitlement. -/
def strangeMessage : Message := ⟨setFlagsMessage 0, [], true⟩

theorem xpcHandler_crashes : ¬Survives plainHost strangeMessage plainLaunchd := by
  rintro ⟨s', reply, hrun, -⟩
  cases hrun

end Jbinit.PayloadDylib

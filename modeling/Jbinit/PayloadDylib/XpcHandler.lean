import Jbinit.PayloadDylib.Launchd
import Jbinit.Palera1nd.Operations

/-!
# The messages to launchd

`xpc_handler` and `xpc_receive_mach_msg_hook`, in a build without `DEV_BUILD`. Any process can send
such a message; a NULL object that reaches libxpc is a crash of launchd.
-/

namespace Jbinit.PayloadDylib

open Palera1nd

inductive LaunchdCmd
  | reloadJbEnv
  | setTweakloaderPath
  | setPinfoFlags
  | drawImage
  | crash
  | runBootscreend
  | getBootUuid
  deriving DecidableEq, Repr

/-- The numbers of the commands; other numbers are not commands. -/
def LaunchdCmd.ofUint64 (cmd : BitVec 64) : Option LaunchdCmd :=
  match cmd.toNat with
  | 1 => some .reloadJbEnv
  | 2 => some .setTweakloaderPath
  | 3 => some .setPinfoFlags
  | 4 => some .drawImage
  | 5 => some .crash
  | 6 => some .runBootscreend
  | 7 => some .getBootUuid
  | _ => none

def enotdevelopment : ℤ := 142

def launchdCmdEntitlement : String := "in.palera.private.launchd-commands.client"

structure Message where
  xdict : Dict
  /-- The entitlements of the process with its audit token. -/
  entitlements : Dict
  /-- Whether the sender waits for a reply. -/
  replyable : Bool
  deriving DecidableEq

def Message.cmd (message : Message) : Option LaunchdCmd :=
  LaunchdCmd.ofUint64 (message.xdict.getUint64 "cmd")

/-- `xpc_copy_entitlement_for_token`. -/
def Message.isJailbreakD (message : Message) : Option Xpc :=
  message.entitlements.getValue launchdCmdEntitlement

/-- `xpc_dictionary_create_reply`, which is NULL when the sender does not wait for a reply. -/
def Message.createReply (message : Message) : Option Dict :=
  if message.replyable then some [] else none

/-! ## Functions of libxpc on an object that may be NULL -/

/-- The object, for `xpc_get_type`. -/
def xpcGetType : Option Xpc → Handling Xpc
  | none => throw .nullObject
  | some object => return object

def xpcDictionarySet (key : String) (value : Xpc) : Option Dict → Handling (Option Dict)
  | none => throw .nullObject
  | some dict => return some (dict.set key value)

def xpcRelease {α : Type} : Option α → Handling Unit
  | none => throw .nullObject
  | some _ => return ()

/-- The replies that are sent, for one reply. -/
def xpcPipeRoutineReply : Option Dict → Handling (List Dict)
  | none => throw .nullObject
  | some reply => return [reply]

/-! ## The handler -/

variable (host : Host)

/-- Whether the sender may give the command. -/
def checkSender (isJailbreakD : Option Xpc) (cmd : Option LaunchdCmd) : Handling Bool :=
  if cmd ≠ some .getBootUuid then do
    match ← xpcGetType isJailbreakD with
    | .bool value => return value
    | _ => return false
  else return true

/-- `snprintf(new_JB_PinfoFlags, 30, "0x%llx", pflags)`. -/
def pinfoFlagsString (pflags : Flags) : CStr :=
  CStr.snprintf 30 ('0' :: 'x' :: Nat.toDigits 16 pflags.toNat)

/-- The variables of systemhook when the flags are set. -/
def SystemhookVars.setFlags (vars : SystemhookVars) (flags : Flags) : SystemhookVars where
  jbRootPath := vars.jbRootPath
  jbPinfoFlags :=
    if host.dlsym .jbPinfoFlags && host.malloc then some (pinfoFlagsString flags)
    else vars.jbPinfoFlags
  pflags := if host.dlsym .pflags then flags else vars.pflags

def setPinfoFlags (xdict : Dict) (xreply : Option Dict) (s : Launchd) :
    Handling (Option Dict × Launchd) := do
  match ← xpcGetType (xdict.getValue "flags") with
  | .uint64 flags =>
    let s := { s with pflags := flags }
    if host.dlopen then return (xreply, { s with systemhook := s.systemhook.setFlags host flags })
    else return (xreply, s)
  | _ => return (← xpcDictionarySet "error" (.int64 einval) xreply, s)

/-- The description of the error is set in the message and not in the reply. -/
def reloadJbEnv (xreply : Option Dict) (s : Launchd) : Handling (Option Dict × Launchd) := do
  if s.pflags.has palerainOptionRootful then
    return (← xpcDictionarySet "error" (.int64 enotsup) xreply, s)
  else return (xreply, ← loadBootstrappedJailbreakEnv host s)

/-- The `switch`. -/
def handleLaunchdCmd (xdict : Dict) (xreply : Option Dict) (s : Launchd) :
    Option LaunchdCmd → Handling (Option Dict × Launchd)
  | some .reloadJbEnv => reloadJbEnv host xreply s
  | some .setTweakloaderPath => do
    return (← xpcDictionarySet "error" (.int64 enotdevelopment) xreply, s)
  | some .setPinfoFlags => setPinfoFlags host xdict xreply s
  | some .crash => do return (← xpcDictionarySet "error" (.int64 enotdevelopment) xreply, s)
  | some .runBootscreend => return (xreply, s)
  | some .getBootUuid => do return (← xpcDictionarySet "uuid" (.uuid s.bootUuid) xreply, s)
  -- `LAUNCHD_CMD_DRAW_IMAGE` is compiled out
  | some .drawImage | none => do return (← xpcDictionarySet "error" (.int64 einval) xreply, s)

/-- The part before the label `reply`. -/
def beforeReply (message : Message) (s : Launchd) : Handling (Option Dict × Launchd) := do
  let xreply := message.createReply
  if ← checkSender message.isJailbreakD message.cmd then
    handleLaunchdCmd host message.xdict xreply s message.cmd
  else return (← xpcDictionarySet "error" (.int64 eperm) xreply, s)

/-- The state afterwards and the replies sent. -/
def xpcHandler (message : Message) (s : Launchd) : Handling (Launchd × List Dict) := do
  let (xreply, s) ← beforeReply host message s
  let replies ← xpcPipeRoutineReply xreply
  if message.isJailbreakD.isSome then xpcRelease message.isJailbreakD
  xpcRelease xreply
  return (s, replies)

/-- `r` is what the original function returns; `none` is no dictionary. -/
def xpcReceiveMachMsgHook (r : ℤ) (xdictp : Option Message) (s : Launchd) :
    Handling (ℤ × Launchd × List Dict) := do
  match r, xdictp with
  | 0, some message =>
    if message.xdict.getBool "jailbreak" then
      let (s, replies) ← xpcHandler host message s
      return (22, s, replies)
    else return (r, s, [])
  | _, _ => return (r, s, [])

end Jbinit.PayloadDylib

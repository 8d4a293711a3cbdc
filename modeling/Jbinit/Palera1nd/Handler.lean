import Jbinit.Palera1nd.Operations

/-!
# The request handler of palera1nd

`palera1nd_handler`, in a build without `DEV_BUILD` and without debug messages. palera1nd keeps the
`paleinfo` it has read at its start and the pid of the payload that waits to be resumed.
-/

namespace Jbinit.Palera1nd

open Foundations Calls

inductive JbdCmd
  | getPinfoFlags
  | getPrebootpath
  | getPinfoKernelInfo
  | getPinfoRootdev
  | deployBootstrap
  | obliterateJailbreak
  | performReboot3
  | overwriteFileWithContent
  | interceptUserspacePanic
  | exitSafeMode
  | runAsRoot
  | registerPayloadPid
  | resumePayload
  deriving DecidableEq, Repr

/-- The numbers of the commands; other numbers are not commands. -/
def JbdCmd.ofUint64 (cmd : BitVec 64) : Option JbdCmd :=
  match cmd.toNat with
  | 1 => some .getPinfoFlags
  | 2 => some .getPrebootpath
  | 3 => some .getPinfoKernelInfo
  | 4 => some .getPinfoRootdev
  | 5 => some .deployBootstrap
  | 6 => some .obliterateJailbreak
  | 7 => some .performReboot3
  | 8 => some .overwriteFileWithContent
  | 9 => some .interceptUserspacePanic
  | 10 => some .exitSafeMode
  | 11 => some .runAsRoot
  | 12 => some .registerPayloadPid
  | 13 => some .resumePayload
  | _ => none

def kernelinfoEntitlement : String := "in.palera.pinfo.kernel-info"
def bootstrapperEntitlement : String := "in.palera.loader.bootstrapper"
def obliteratorEntitlement : String := "in.palera.loader.allow-obliterate-jailbreak"
def iowatchdogEntitlement : String := "com.apple.private.iowatchdog.user-access"
def personaMgmtEntitlement : String := "com.apple.private.persona-mgmt"

/-- What palera1nd keeps between requests. -/
structure HandlerState where
  pinfo : Paleinfo
  /-- 0 when no payload waits. -/
  payloadPid : ℤ
  deriving DecidableEq

/-- The state at the start, on a rootless device. -/
def plainState : HandlerState := ⟨⟨0, 0, palerainOptionRootless, "disk0s1s8".toList⟩, 0⟩

structure Request where
  dict : Dict
  /-- Whether there is a remote connection and a reply can be made. -/
  replyable : Bool
  deriving DecidableEq

def Request.cmd (request : Request) : Option JbdCmd :=
  JbdCmd.ofUint64 (request.dict.getUint64 "cmd")

/-- The reply to a peer without the entitlement; some commands describe the error. -/
def notEntitled (reply : Dict) (entitlement : String) : Dict :=
  setDescription (setError reply enoentitlement)
    ("This call requires the ".toList ++ entitlement.toList ++ ['.'])

/-- The message that tells launchd the flags. -/
def setFlagsMessage (flags : Flags) : Dict :=
  ((Dict.set [] "cmd" (.uint64 launchdCmdSetPinfoFlags)).set "flags" (.uint64 flags)).set
    "jailbreak" (.bool true)

/-- `jailbreak_send_launchd_message` and the release of the reply, which is not set when the message
cannot be sent. -/
def tellLaunchd (flags : Flags) : Handling Unit := do
  match ← sys (.sendLaunchdMessage (setFlagsMessage flags)) with
  | some _ => return ()
  | none => throw .uninitialized

/-- `set_pinfo`, whose value is not looked at. -/
def setPinfo (pinfo : Paleinfo) : Handling Unit := do
  match ← sys .readRamdiskSize with
  | .error _ => return ()
  | .ok _ => perform_ (.setPinfo pinfo)

def userspaceReboot : Handling Unit := do
  perform_ .unmountDeveloper
  perform_ (.reboot3 rb2Userreboot none)

def enterSafeModeFlags (flags : Flags) : Flags :=
  flags ||| (palerainOptionSafemode ||| palerainOptionFailure)

def exitSafeModeFlags (flags : Flags) : Flags :=
  flags &&& ~~~(palerainOptionSafemode ||| palerainOptionFailure)

def interceptUserspacePanic (request : Dict) (s : HandlerState) : Handling HandlerState := do
  let pinfo := { s.pinfo with flags := enterSafeModeFlags s.pinfo.flags }
  setPinfo pinfo
  tellLaunchd pinfo.flags
  if let some message := request.getString "message" then
    perform_ (.dumpUserspacePanicLog message)
  userspaceReboot
  return { s with pinfo }

def exitSafeMode (s : HandlerState) : Handling HandlerState := do
  let pinfo := { s.pinfo with flags := exitSafeModeFlags s.pinfo.flags }
  setPinfo pinfo
  tellLaunchd pinfo.flags
  userspaceReboot
  return { s with pinfo }

def getPrebootpath (reply : Dict) (pinfo : Paleinfo) : Handling Dict := do
  if pinfo.flags.has palerainOptionRootless then
    match ← jailbreakGetPrebootPath with
    | .ok prebootPath => return reply.set "path" (.string prebootPath)
    | .error _ =>
      let code : ℤ ← sys .readErrno
      return setError reply code
  else return setError reply enotsup

def headBoardIdentifier : CStr := "com.apple.HeadBoard".toList

/-- `identifier` is only set when the peer has the entitlement as a string. -/
def resumePayload (peer : Peer) (reply : Dict) (s : HandlerState) :
    Handling (Dict × HandlerState) := do
  match peer.entitlements.getValue "application-identifier" with
  | some (.string identifier) =>
    if identifier ≠ headBoardIdentifier then return (setError reply eperm, s)
    if s.payloadPid ≠ 0 then
      perform_ (.killPid s.payloadPid .sigcont)
      return (reply, { s with payloadPid := 0 })
    else return (reply, s)
  | _ => throw .uninitialized

/-- The `switch`: the reply and the state afterwards. -/
def handleCommand (peer : Peer) (request reply : Dict) (s : HandlerState) :
    Option JbdCmd → Handling (Dict × HandlerState)
  | some .getPinfoFlags => return (reply.set "flags" (.uint64 s.pinfo.flags), s)
  | some .getPrebootpath => do return (← getPrebootpath reply s.pinfo, s)
  | some .getPinfoKernelInfo => do
    if !peer.entitled kernelinfoEntitlement then return (setError reply enoentitlement, s)
    return ((reply.set "kbase" (.uint64 s.pinfo.kbase)).set "kslide" (.uint64 s.pinfo.kslide), s)
  | some .getPinfoRootdev => return (reply.set "rootdev" (.string s.pinfo.rootdev), s)
  | some .deployBootstrap => do
    if !peer.entitled bootstrapperEntitlement then
      return (notEntitled reply bootstrapperEntitlement, s)
    return (← deployBootstrap request reply s.pinfo, s)
  | some .obliterateJailbreak => do
    if !peer.entitled obliteratorEntitlement then
      return (notEntitled reply obliteratorEntitlement, s)
    return (← obliterate request reply s.pinfo, s)
  | some .performReboot3 => do return (← performReboot3 peer request reply, s)
  | some .overwriteFileWithContent => do
    if !peer.entitled bootstrapperEntitlement then
      return (notEntitled reply bootstrapperEntitlement, s)
    return (← overwriteFile request reply, s)
  | some .interceptUserspacePanic => do
    if !peer.entitled iowatchdogEntitlement then return (setError reply eperm, s)
    return (reply, ← interceptUserspacePanic request s)
  | some .exitSafeMode => do
    if !peer.entitled bootstrapperEntitlement then return (setError reply enoentitlement, s)
    return (reply, ← exitSafeMode s)
  | some .runAsRoot => do
    if !peer.entitled personaMgmtEntitlement then
      return (setDescription (setError reply enoentitlement)
        "This call requires the com.apple.private.persona-mgmt entitlement".toList, s)
    return (← runcmd request reply, s)
  | some .registerPayloadPid => do
    if !peer.entitled bootstrapperEntitlement then return (setError reply enoentitlement, s)
    return (reply, { s with payloadPid := peer.pid })
  | some .resumePayload => resumePayload peer reply s
  | none => return (setError reply einval, s)

def palera1ndHandler (peer : Peer) (request : Request) (s : HandlerState) :
    Handling HandlerState := do
  if request.replyable then
    let (reply, s) ← handleCommand peer request.dict [] s request.cmd
    perform_ (.sendReply reply)
    return s
  else return s

/-! ## Runs of the handler -/

/-- The entitlement is there with the boolean value true. -/
def Peer.holds (peer : Peer) (entitlement : String) : Prop :=
  peer.entitlements.getValue entitlement = some (.bool true)

theorem Peer.entitled_iff (peer : Peer) (entitlement : String) :
    peer.entitled entitlement = true ↔ peer.holds entitlement := by
  unfold Peer.entitled Peer.holds
  split
  case h_1 value h => simp [h]
  case h_2 h => exact ⟨fun hf => absurd hf (by simp), fun ht => absurd ht (h true)⟩

/-- A run in which the reply is known and nothing else happens. -/
theorem run_of_reply {peer : Peer} {request : Request} {s s' : HandlerState} {reply : Dict}
    (hreplyable : request.replyable = true)
    (h : handleCommand peer request.dict [] s request.cmd = pure (reply, s'))
    {t : List (Event Answer)} {r : Except Fault HandlerState} :
    Run (palera1ndHandler peer request s).run t r ↔
      ∃ a, t = [⟨.sendReply reply, a⟩] ∧ r = .ok s' := by
  have hprog : palera1ndHandler peer request s = (do perform_ (.sendReply reply); return s') := by
    unfold palera1ndHandler
    rw [if_pos hreplyable, h]
    rfl
  rw [hprog]
  refine ⟨fun hrun => ?_, ?_⟩
  · cases hrun with
    | call a hrun =>
      cases hrun
      exact ⟨a, rfl, rfl⟩
  · rintro ⟨a, rfl, rfl⟩
    exact .call a (.done _)

def registerRequest : Request := ⟨Dict.set [] "cmd" (.uint64 12), true⟩

def resumeRequest : Request := ⟨Dict.set [] "cmd" (.uint64 13), true⟩

/-- A platform binary. -/
def platformPeer (entitlements : Dict) : Peer := ⟨entitlements, 100, 0, .ok csPlatformBinary⟩

/-- The run of the handler in which every call succeeds. -/
def handling (peer : Peer) (request : Request) :
    List (Event Answer) × Except Fault HandlerState :=
  drive success (palera1ndHandler peer request plainState).run

end Jbinit.Palera1nd

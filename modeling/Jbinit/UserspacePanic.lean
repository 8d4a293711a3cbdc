import Jbinit.Reboot3
import Jbinit.SafeMode

/-!
# Userspace panics

watchdogd makes the kernel panic through a connection to the `IOWatchdog`. Its hooks keep the last
such connection that was opened, and send a panic that goes there to palera1nd, which logs it, tells
launchd the flags of safe mode and reboots userspace. While watchdogd has one connection to the
`IOWatchdog`, this is what happens to every panic and to nothing else, and a panic that is not
answered may have been logged and followed by the reboot, or not (`watchdogd_refines`).
-/

namespace Jbinit

open Foundations Calls Transitions Palera1nd PayloadDylib

/-! ## The hooks -/

/-- A port name; 0 is `MACH_PORT_NULL`. -/
abbrev MachPort := ℕ

abbrev IoService := ℕ

/-- What the hooks call. -/
inductive WatchdogCall
  | ioServiceOpen (service : IoService)
  /-- `IOObjectConformsTo(service, "IOWatchdog")` -/
  | ioObjectConformsTo (service : IoService)
  | ioConnectCallStructMethod (connection : MachPort) (selector : BitVec 32) (inputStruct : CStr)
  | sendJailbreakdMessage (xdict : Dict)

def WatchdogAnswer : WatchdogCall → Type
  /- the connection; none when it fails -/
  | .ioServiceOpen _ => Option MachPort
  | .ioObjectConformsTo _ => Bool
  | .ioConnectCallStructMethod _ _ _ => ℤ
  /- none is an XPC error -/
  | .sendJailbreakdMessage _ => Option Dict

/-- The result and `gIOWatchdogConnection`. `connect` says that the caller asks for the
connection. -/
def ioServiceOpenHook (service : IoService) (connect : Bool) (gIOWatchdogConnection : MachPort) :
    Prog WatchdogAnswer (Option MachPort × MachPort) :=
  .call (.ioServiceOpen service) fun
    | some connection =>
      if connect then
        .call (.ioObjectConformsTo service) fun (conforms : Bool) =>
          .done (some connection, if conforms then connection else gIOWatchdogConnection)
      else .done (some connection, gIOWatchdogConnection)
    | none => .done (none, gIOWatchdogConnection)

def panicRequest (message : CStr) : Dict :=
  (Dict.set [] "cmd" (.uint64 9)).set "message" (.string message)

/-- It is in systemhook. -/
def jbdswInterceptUserspacePanic (message : CStr) : Prog WatchdogAnswer ℤ :=
  .call (.sendJailbreakdMessage (panicRequest message)) fun xreply => .done (replyError xreply)

def ioConnectCallStructMethodHook (connection : MachPort) (selector : BitVec 32)
    (inputStruct : CStr) (gIOWatchdogConnection : MachPort) : Prog WatchdogAnswer ℤ :=
  if connection = gIOWatchdogConnection ∧ selector = 2 then
    jbdswInterceptUserspacePanic inputStruct
  else .call (.ioConnectCallStructMethod connection selector inputStruct) .done

/-! ## The system -/

/-- A call of a method that the kernel runs. -/
structure MethodCall where
  connection : MachPort
  selector : BitVec 32
  inputStruct : CStr
  deriving DecidableEq

def panicLogOf : Event Answer → Option CStr
  | ⟨.dumpUserspacePanicLog message, _⟩ => some message
  | _ => none

/-- What is outside watchdogd. -/
structure Surroundings where
  connections : MachPort → Option IoService
  /-- What the kernel has been asked for. -/
  delivered : List MethodCall
  device : Device
  panicLogs : List CStr
  reboots : List Reboot

structure Watchdogd where
  gIOWatchdogConnection : MachPort
  outside : Surroundings

/-- The calls of the handler, whatever comes of the ones that safe mode depends on. -/
inductive Outside.AnyStep (host : Host) : Outside → Event Answer → Outside → Prop
  | step {s s' : Outside} {e : Event Answer} (h : Outside.Step host s e s') : AnyStep host s e s'
  | notRead {s : Outside} (errno : Errno) : AnyStep host s ⟨.readRamdiskSize, .error errno⟩ s
  | notSet {s : Outside} (pinfo : Paleinfo) (errno : Errno) :
    AnyStep host s ⟨.setPinfo pinfo, .error errno⟩ s
  | notAnswered {s : Outside} (xdict : Dict) (launchd : Launchd) :
    AnyStep host s ⟨.sendLaunchdMessage xdict, none⟩ { s with launchd }

/-- What watchdogd does; a call returns a value. -/
inductive WatchdogAct
  | serviceOpen (service : IoService) (connect : Bool)
  | callStructMethod (call : MethodCall) (ret : ℤ)
  | serviceClose (connection : MachPort)

section

variable (host : Host) (peer : Peer) (isIOWatchdog : IoService → Bool)

/-- The calls of the hooks. The kernel gives a new connection a name that is not in use. A request
that palera1nd does not answer is cut off somewhere, or not heard of at all. -/
inductive Surroundings.Step : Surroundings → Event WatchdogAnswer → Surroundings → Prop
  | opened {s : Surroundings} {service : IoService} {connection : MachPort} (hne : connection ≠ 0)
    (hfree : s.connections connection = none) :
    Surroundings.Step s ⟨.ioServiceOpen service, some connection⟩
      { s with connections := Function.update s.connections connection (some service) }
  | notOpened {s : Surroundings} (service : IoService) :
    Surroundings.Step s ⟨.ioServiceOpen service, none⟩ s
  | conforms {s : Surroundings} (service : IoService) :
    Surroundings.Step s ⟨.ioObjectConformsTo service, isIOWatchdog service⟩ s
  | delivered {s : Surroundings} (connection : MachPort) (selector : BitVec 32)
    (inputStruct : CStr) (ret : ℤ) :
    Surroundings.Step s ⟨.ioConnectCallStructMethod connection selector inputStruct, ret⟩
      { s with delivered := s.delivered ++ [⟨connection, selector, inputStruct⟩] }
  | answered {s : Surroundings} {xdict reply : Dict} {t : List (Event Answer)}
    {a : Except Errno Unit} {device : Device}
    (hrun : Run (palera1ndHandler peer ⟨xdict, true⟩ s.device.palera1nd).run
      (t ++ [⟨.sendReply reply, a⟩]) (.ok device.palera1nd))
    (hsteps : Steps (Outside.AnyStep host) s.device.outside (t ++ [⟨.sendReply reply, a⟩])
      device.outside) :
    Surroundings.Step s ⟨.sendJailbreakdMessage xdict, some reply⟩
      { s with
        device
        panicLogs := s.panicLogs ++ t.filterMap panicLogOf
        reboots := s.reboots ++ t.filterMap rebootOf }
  | interrupted {s : Surroundings} {xdict : Dict} {t rest : List (Event Answer)}
    {r : Except Palera1nd.Fault HandlerState} {device : Device}
    (hrun : Run (palera1ndHandler peer ⟨xdict, true⟩ s.device.palera1nd).run (t ++ rest) r)
    (hsteps : Steps (Outside.AnyStep host) s.device.outside t device.outside) :
    Surroundings.Step s ⟨.sendJailbreakdMessage xdict, none⟩
      { s with
        device
        panicLogs := s.panicLogs ++ t.filterMap panicLogOf
        reboots := s.reboots ++ t.filterMap rebootOf }

inductive Watchdogd.Step : Watchdogd → WatchdogAct → Watchdogd → Prop
  | serviceOpen {s s' : Watchdogd} {service : IoService} {connect : Bool}
    {t : List (Event WatchdogAnswer)} {orig : Option MachPort}
    (hrun : Run (ioServiceOpenHook service connect s.gIOWatchdogConnection) t
      (orig, s'.gIOWatchdogConnection))
    (hsteps : Steps (Surroundings.Step host peer isIOWatchdog) s.outside t s'.outside) :
    Watchdogd.Step s (.serviceOpen service connect) s'
  | callStructMethod {s : Watchdogd} {call : MethodCall} {t : List (Event WatchdogAnswer)} {ret : ℤ}
    {outside : Surroundings}
    (hrun : Run (ioConnectCallStructMethodHook call.connection call.selector call.inputStruct
      s.gIOWatchdogConnection) t ret)
    (hsteps : Steps (Surroundings.Step host peer isIOWatchdog) s.outside t outside) :
    Watchdogd.Step s (.callStructMethod call ret) { s with outside }
  | serviceClose {s : Watchdogd} (connection : MachPort) :
    Watchdogd.Step s (.serviceClose connection) { s with outside := { s.outside with
      connections := Function.update s.outside.connections connection none } }

end

/-- The connection is to an `IOWatchdog`. -/
def OnWatchdog (isIOWatchdog : IoService → Bool) (connections : MachPort → Option IoService)
    (connection : MachPort) : Prop :=
  ∃ service, connections connection = some service ∧ isIOWatchdog service = true

/-- The call is one to panic: of the method 2, through a connection to an `IOWatchdog`, or without a
connection while there is none to an `IOWatchdog`. -/
structure IsPanic (isIOWatchdog : IoService → Bool) (connections : MachPort → Option IoService)
    (call : MethodCall) : Prop where
  selector : call.selector = 2
  connection : OnWatchdog isIOWatchdog connections call.connection ∨
    call.connection = 0 ∧ ∀ connection, ¬OnWatchdog isIOWatchdog connections connection

/-- A kernel that has userspace rebooted instead of panicking. -/
structure SafeKernel where
  connections : MachPort → Option IoService
  delivered : List MethodCall
  /-- The messages of the panics, as they are logged. -/
  panics : List CStr
  /-- The reboots of userspace that were asked for. -/
  reboots : ℕ
  /-- palera1nd and launchd know of the last panic. -/
  told : Bool

/-- A panic that returns 0 is logged, told and followed by a reboot. -/
inductive SafeKernel.Step (isIOWatchdog : IoService → Bool) :
    SafeKernel → WatchdogAct → SafeKernel → Prop
  | opened {s : SafeKernel} {service : IoService} {connection : MachPort} (connect : Bool)
    (hfree : s.connections connection = none) :
    SafeKernel.Step isIOWatchdog s (.serviceOpen service connect)
      { s with connections := Function.update s.connections connection (some service) }
  | notOpened {s : SafeKernel} (service : IoService) (connect : Bool) :
    SafeKernel.Step isIOWatchdog s (.serviceOpen service connect) s
  | panicked {s : SafeKernel} {call : MethodCall} (ret : ℤ)
    (hpanic : IsPanic isIOWatchdog s.connections call) :
    SafeKernel.Step isIOWatchdog s (.callStructMethod call ret)
      { s with panics := s.panics ++ [call.inputStruct], reboots := s.reboots + 1, told := ret = 0 }
  | lost {s : SafeKernel} {call : MethodCall} {ret : ℤ} (hret : ret ≠ 0) (logged : Bool)
    (hpanic : IsPanic isIOWatchdog s.connections call) :
    SafeKernel.Step isIOWatchdog s (.callStructMethod call ret)
      { s with panics := s.panics ++ if logged then [call.inputStruct] else [], told := false }
  | called {s : SafeKernel} {call : MethodCall} (ret : ℤ)
    (hother : ¬IsPanic isIOWatchdog s.connections call) :
    SafeKernel.Step isIOWatchdog s (.callStructMethod call ret)
      { s with delivered := s.delivered ++ [call] }
  | closed {s : SafeKernel} (connection : MachPort) :
    SafeKernel.Step isIOWatchdog s (.serviceClose connection)
      { s with connections := Function.update s.connections connection none }

/-- palera1nd and launchd have the flags of safe mode. -/
def Device.InSafeMode (d : Device) : Prop :=
  ∃ flags, d.palera1nd.pinfo.flags = enterSafeModeFlags flags ∧
    d.outside.launchd.pflags = enterSafeModeFlags flags

/-- What the one has done is what the other has. -/
structure Refines (isIOWatchdog : IoService → Bool) (s : Watchdogd) (k : SafeKernel) : Prop where
  connections : s.outside.connections = k.connections
  delivered : s.outside.delivered = k.delivered
  panicLogs : s.outside.panicLogs = k.panics
  reboots : s.outside.reboots.map (fun reboot => (reboot.howto, reboot.purpose)) =
    List.replicate k.reboots (rb2Userreboot, none)
  told : k.told = true → s.outside.device.InSafeMode
  /-- The hooks know the connection. -/
  known : ∀ connection, OnWatchdog isIOWatchdog s.outside.connections connection ↔
    connection = s.gIOWatchdogConnection ∧ connection ≠ 0

/-! ## palera1nd -/

variable {host : Host} {peer : Peer} {isIOWatchdog : IoService → Bool}

theorem cmd_panicRequest (message : CStr) :
    (Request.mk (panicRequest message) true).cmd = some .interceptUserspacePanic := by
  rw [Request.cmd, Dict.getUint64, panicRequest, Dict.getValue_set_of_ne _ (by decide),
    Dict.getValue_set_self]
  rfl

theorem getString_panicRequest (message : CStr) :
    (panicRequest message).getString "message" = some message := by
  rw [Dict.getString, panicRequest, Dict.getValue_set_self]

/-- What a panic has led to. -/
inductive PanicEffect (message : CStr) : List CStr → List Reboot → Prop
  | nothing : PanicEffect message [] []
  | logged : PanicEffect message [message] []
  | rebooted (ret : ℤ) : PanicEffect message [message] [⟨rb2Userreboot, none, ret⟩]

theorem run_setPinfo {pinfo : Paleinfo} {t : List (Event Answer)} {r : Except Palera1nd.Fault Unit}
    (hrun : Run (setPinfo pinfo).run t r) :
    r = .ok () ∧ t.filterMap panicLogOf = [] ∧ t.filterMap rebootOf = [] := by
  cases hrun with
  | call size hrun =>
    cases size with
    | error _ =>
      cases hrun
      exact ⟨rfl, rfl, rfl⟩
    | ok _ =>
      cases hrun with
      | call answer hrun =>
        cases hrun
        exact ⟨rfl, rfl, rfl⟩

/-- The flags are set before the log, and all that follows it is done when launchd has answered. -/
theorem run_interceptUserspacePanic {message : CStr} {s : HandlerState} {t : List (Event Answer)}
    {r : Except Palera1nd.Fault HandlerState}
    (hrun : Run (interceptUserspacePanic (panicRequest message) s).run t r) :
    ∃ before after, t = before ++ after ∧ before.filterMap panicLogOf = [] ∧
      before.filterMap rebootOf = [] ∧
      (after = [] ∧ r = .error .uninitialized ∨ ∃ s' logged unmounted ret,
        after = [⟨.dumpUserspacePanicLog message, logged⟩, ⟨.unmountDeveloper, unmounted⟩,
          ⟨.reboot3 rb2Userreboot none, ret⟩] ∧ r = .ok s') := by
  obtain ⟨t₁, r₁, t₂, rfl, hset, hrest⟩ := run_bind hrun
  obtain ⟨rfl, hlogs, hreboots⟩ := run_setPinfo hset
  simp only [getString_panicRequest] at hrest
  cases hrest with
  | @call _ _ t₃ _ xreply hrun =>
    refine ⟨t₁ ++ [⟨.sendLaunchdMessage _, xreply⟩], t₃, by simp, ?_, ?_, ?_⟩
    · rw [List.filterMap_append, hlogs]
      rfl
    · rw [List.filterMap_append, hreboots]
      rfl
    cases xreply with
    | none =>
      cases hrun
      exact .inl ⟨rfl, rfl⟩
    | some _ =>
      cases hrun with
      | call logged hrun =>
        cases hrun with
        | call unmounted hrun =>
          cases hrun with
          | call ret hrun =>
            cases hrun
            exact .inr ⟨_, logged, unmounted, ret, rfl, rfl⟩

/-- The handler of the request, with the check of the entitlement passed. -/
theorem palera1ndHandler_panicRequest (hpeer : peer.holds iowatchdogEntitlement) (message : CStr)
    (s : HandlerState) : palera1ndHandler peer ⟨panicRequest message, true⟩ s = (do
      let (reply, s) ← (do
        return (([] : Dict), ← interceptUserspacePanic (panicRequest message) s))
      perform_ (.sendReply reply)
      return s) := by
  have hentitled : peer.entitled iowatchdogEntitlement = true := (peer.entitled_iff _).mpr hpeer
  have hcommand : handleCommand peer (panicRequest message) [] s
      (some .interceptUserspacePanic) = (do
        return ([], ← interceptUserspacePanic (panicRequest message) s)) := by
    show (if !peer.entitled iowatchdogEntitlement then _ else _) = _
    rw [if_neg (by simp [hentitled])]
  unfold palera1ndHandler
  rw [if_pos rfl, cmd_panicRequest]
  dsimp only
  rw [hcommand]

theorem run_panicRequest (hpeer : peer.holds iowatchdogEntitlement) {message : CStr}
    {s : HandlerState} {t : List (Event Answer)} {r : Except Palera1nd.Fault HandlerState}
    (hrun : Run (palera1ndHandler peer ⟨panicRequest message, true⟩ s).run t r) :
    ∃ before after, t = before ++ after ∧ before.filterMap panicLogOf = [] ∧
      before.filterMap rebootOf = [] ∧
      (after = [] ∧ r = .error .uninitialized ∨ ∃ logged unmounted ret replied,
        after = [⟨.dumpUserspacePanicLog message, logged⟩, ⟨.unmountDeveloper, unmounted⟩,
          ⟨.reboot3 rb2Userreboot none, ret⟩, ⟨.sendReply [], replied⟩]) := by
  rw [palera1ndHandler_panicRequest hpeer] at hrun
  obtain ⟨t₁, r₁, t₂, rfl, hcommanded, hreplied⟩ := run_bind hrun
  obtain ⟨t₃, r₃, t₄, rfl, hintercept, hreturned⟩ := run_bind hcommanded
  obtain ⟨before, after, rfl, hlogs, hreboots, hafter⟩ := run_interceptUserspacePanic hintercept
  obtain ⟨rfl, rfl⟩ | ⟨s', logged, unmounted, ret, rfl, rfl⟩ := hafter
  · cases hreturned
    cases hreplied
    exact ⟨before, [], by simp, hlogs, hreboots, .inl ⟨rfl, rfl⟩⟩
  · cases hreturned
    cases hreplied with
    | call replied hreplied =>
      cases hreplied
      exact ⟨before, _, by simp, hlogs, hreboots, .inr ⟨logged, unmounted, ret, replied, rfl⟩⟩

/-- A request that is cut off. -/
theorem panicEffect_of_run (hpeer : peer.holds iowatchdogEntitlement) {message : CStr}
    {s : HandlerState} {t rest : List (Event Answer)} {r : Except Palera1nd.Fault HandlerState}
    (hrun : Run (palera1ndHandler peer ⟨panicRequest message, true⟩ s).run (t ++ rest) r) :
    PanicEffect message (t.filterMap panicLogOf) (t.filterMap rebootOf) := by
  obtain ⟨before, after, heq, hlogs, hreboots, hafter⟩ := run_panicRequest hpeer hrun
  obtain ⟨more, rfl, -⟩ | ⟨done, rfl, hdone⟩ := List.append_eq_append_iff.mp heq
  · rw [List.filterMap_append, List.append_eq_nil_iff] at hlogs hreboots
    rw [hlogs.1, hreboots.1]
    exact .nothing
  · rw [List.filterMap_append, List.filterMap_append, hlogs, hreboots]
    obtain ⟨rfl, -⟩ | ⟨logged, unmounted, ret, replied, rfl⟩ := hafter
    · obtain ⟨rfl, -⟩ := List.append_eq_nil_iff.mp hdone.symm
      exact .nothing
    -- where the four calls of `after` are cut
    · rcases done with _ | ⟨_, _ | ⟨_, _ | ⟨_, _ | ⟨_, done⟩⟩⟩⟩
      · exact .nothing
      · cases hdone
        exact .logged
      · cases hdone
        exact .logged
      · cases hdone
        exact .rebooted ret
      · simp only [List.cons_append, List.cons.injEq, List.nil_eq, List.append_eq_nil_iff] at hdone
        obtain ⟨rfl, rfl, rfl, rfl, rfl, -⟩ := hdone
        exact .rebooted ret

theorem run_answeredPanic (hpeer : peer.holds iowatchdogEntitlement) {message : CStr}
    {s s' : HandlerState} {reply : Dict} {t : List (Event Answer)} {a : Except Errno Unit}
    (hrun : Run (palera1ndHandler peer ⟨panicRequest message, true⟩ s).run
      (t ++ [⟨.sendReply reply, a⟩]) (.ok s')) :
    reply = [] ∧ ∃ ret, t.filterMap panicLogOf = [message] ∧
      t.filterMap rebootOf = [⟨rb2Userreboot, none, ret⟩] := by
  obtain ⟨before, after, heq, hlogs, hreboots, hafter⟩ := run_panicRequest hpeer hrun
  obtain ⟨-, hr⟩ | ⟨logged, unmounted, ret, replied, rfl⟩ := hafter
  · cases hr
  · have hsplit : t ++ [⟨.sendReply reply, a⟩] =
        (before ++ [⟨.dumpUserspacePanicLog message, logged⟩, ⟨.unmountDeveloper, unmounted⟩,
          ⟨.reboot3 rb2Userreboot none, ret⟩]) ++ [⟨.sendReply [], replied⟩] := by
      rw [heq, List.append_assoc]
      rfl
    obtain ⟨rfl, hlast⟩ := List.append_inj' hsplit rfl
    cases hlast
    refine ⟨rfl, ret, ?_, ?_⟩
    · rw [List.filterMap_append, hlogs]
      rfl
    · rw [List.filterMap_append, hreboots]
      rfl
/-! ## The flags of safe mode -/

theorem Outside.AnyStep.eq {o o' : Outside} {c : Call} {r : Answer c}
    (hstep : Outside.AnyStep host o ⟨c, r⟩ o') (hpinfo : ∀ pinfo, c ≠ .setPinfo pinfo)
    (hmessage : ∀ xdict, c ≠ .sendLaunchdMessage xdict) : o' = o := by
  cases hstep with
  | step h =>
    cases h with
    | setPinfo pinfo => exact absurd rfl (hpinfo pinfo)
    | sendLaunchdMessage h => exact absurd rfl (hmessage _)
    | readRamdiskSize => rfl
    | other => rfl
  | notRead => rfl
  | notSet pinfo => exact absurd rfl (hpinfo pinfo)
  | notAnswered xdict => exact absurd rfl (hmessage xdict)

theorem quiet_anyStep {c : Call} (hpinfo : ∀ pinfo, c ≠ .setPinfo pinfo)
    (hmessage : ∀ xdict, c ≠ .sendLaunchdMessage xdict) :
    Quiet (Outside.AnyStep host) (perform_ c) :=
  .bind (.perform fun _ _ _ h => h.eq hpinfo hmessage) fun _ => .pure _

/-- launchd has the flags when it has answered. -/
theorem tellLaunchd_pflags (flags : Flags) :
    Triple (Outside.AnyStep host) (fun _ => True) (tellLaunchd flags)
      (fun _ o => o.launchd.pflags = flags) (fun _ _ => True) := by
  refine .bind (M := fun r o => r = none ∨ o.launchd.pflags = flags)
    (.perform fun o r o' _ h => ?_) fun r => ?_
  · cases h with
    | step h =>
      cases h with
      | sendLaunchdMessage h =>
        rw [xpcHandler_setFlags] at h
        cases h
        exact .inr rfl
      | other r hpinfo hmessage => exact absurd rfl (hmessage _)
    | notAnswered => exact .inl rfl
  · cases r with
    | none => exact .throw fun _ _ => trivial
    | some reply => exact .pure fun _ ho => ho.resolve_left (fun h => nomatch h)

theorem interceptUserspacePanic_flags (request : Dict) (s : HandlerState) :
    Triple (Outside.AnyStep host) (fun _ => True) (interceptUserspacePanic request s)
      (fun s' o => s'.pinfo.flags = enterSafeModeFlags s.pinfo.flags ∧
        o.launchd.pflags = enterSafeModeFlags s.pinfo.flags) (fun _ _ => True) := by
  have hset : Triple (Outside.AnyStep host) (fun _ => True)
      (setPinfo { s.pinfo with flags := enterSafeModeFlags s.pinfo.flags }) (fun _ _ => True)
      (fun _ _ => True) := fun _ _ _ _ r _ _ => by cases r <;> trivial
  refine .bind hset fun _ => .bind (tellLaunchd_pflags _) fun _ => ?_
  have hunmount : Quiet (Outside.AnyStep host) (perform_ .unmountDeveloper) :=
    quiet_anyStep (fun _ h => nomatch h) fun _ h => nomatch h
  have hreboot3 : Quiet (Outside.AnyStep host) (perform_ (.reboot3 rb2Userreboot none)) :=
    quiet_anyStep (fun _ h => nomatch h) fun _ h => nomatch h
  have hreboot : Quiet (Outside.AnyStep host) userspaceReboot := .bind hunmount fun _ => hreboot3
  have hrest : Triple (Outside.AnyStep host)
      (fun o => o.launchd.pflags = enterSafeModeFlags s.pinfo.flags)
      (do userspaceReboot
          return { s with pinfo := { s.pinfo with flags := enterSafeModeFlags s.pinfo.flags } })
      (fun s' o => s'.pinfo.flags = enterSafeModeFlags s.pinfo.flags ∧
        o.launchd.pflags = enterSafeModeFlags s.pinfo.flags) (fun _ _ => True) :=
    .bind (hreboot.triple _) fun _ => .pure fun _ ho => ⟨rfl, ho⟩
  cases request.getString "message" with
  | none => exact hrest
  | some message =>
    have hdump : Quiet (Outside.AnyStep host) (perform_ (.dumpUserspacePanicLog message)) :=
      quiet_anyStep (fun _ h => nomatch h) fun _ h => nomatch h
    exact .bind (hdump.triple _) fun _ => hrest

/-- palera1nd and launchd have the flags of safe mode after a panic that is answered. -/
theorem inSafeMode_of_run (hpeer : peer.holds iowatchdogEntitlement) {message : CStr}
    {d d' : Device} {t : List (Event Answer)}
    (hrun : Run (palera1ndHandler peer ⟨panicRequest message, true⟩ d.palera1nd).run t
      (.ok d'.palera1nd))
    (hsteps : Steps (Outside.AnyStep host) d.outside t d'.outside) : d'.InSafeMode := by
  rw [palera1ndHandler_panicRequest hpeer] at hrun
  have hspec : Triple (Outside.AnyStep host) (fun _ => True) (do
      let (reply, s) ← (do
        return (([] : Dict), ← interceptUserspacePanic (panicRequest message) d.palera1nd))
      perform_ (.sendReply reply)
      return s)
      (fun s' o => s'.pinfo.flags = enterSafeModeFlags d.palera1nd.pinfo.flags ∧
        o.launchd.pflags = enterSafeModeFlags d.palera1nd.pinfo.flags) (fun _ _ => True) := by
    refine .bind (M := fun r o => r.2.pinfo.flags = enterSafeModeFlags d.palera1nd.pinfo.flags ∧
      o.launchd.pflags = enterSafeModeFlags d.palera1nd.pinfo.flags)
      (.bind (interceptUserspacePanic_flags _ _) fun _ => .pure fun _ h => h) fun r => ?_
    have hreply : Quiet (Outside.AnyStep host) (perform_ (.sendReply r.1)) :=
      quiet_anyStep (fun _ h => nomatch h) fun _ h => nomatch h
    exact .bind (hreply.triple _) fun _ => .pure fun _ h => h
  exact ⟨_, hspec d.outside trivial t d'.outside _ hrun hsteps⟩

/-! ## Connections -/

section

variable {connections : MachPort → Option IoService} {connection : MachPort}

theorem onWatchdog_opened (hfree : connections connection = none) (service : IoService)
    (c : MachPort) :
    OnWatchdog isIOWatchdog (Function.update connections connection (some service)) c ↔
      c = connection ∧ isIOWatchdog service = true ∨ OnWatchdog isIOWatchdog connections c := by
  unfold OnWatchdog
  by_cases hc : c = connection
  · subst hc
    simp [hfree]
  · simp [hc]

end

/-! ## The refinement -/

variable {s : Watchdogd} {k : SafeKernel}

/-- A connection that is not one to an `IOWatchdog`, or that the hooks keep. -/
theorem Refines.opened (h : Refines isIOWatchdog s k) {service : IoService} {connection g : MachPort}
    (hne : connection ≠ 0) (hfree : s.outside.connections connection = none)
    (hg : isIOWatchdog service = true → g = connection ∧
      ∀ c, ¬OnWatchdog isIOWatchdog s.outside.connections c)
    (hg' : isIOWatchdog service = false → g = s.gIOWatchdogConnection) :
    Refines isIOWatchdog
      ⟨g, { s.outside with
        connections := Function.update s.outside.connections connection (some service) }⟩
      { k with connections := Function.update k.connections connection (some service) } := by
  refine ⟨by rw [h.connections], h.delivered, h.panicLogs, h.reboots, h.told, fun c => ?_⟩
  rw [onWatchdog_opened hfree]
  cases hservice : isIOWatchdog service with
  | true =>
    obtain ⟨rfl, hnone⟩ := hg hservice
    constructor
    · rintro (⟨rfl, -⟩ | hon)
      · exact ⟨rfl, hne⟩
      · exact absurd hon (hnone c)
    · rintro ⟨rfl, -⟩
      exact .inl ⟨rfl, rfl⟩
  | false =>
    rw [hg' hservice]
    simpa using h.known c

/-- What is left behind by a panic, whatever it has led to. -/
theorem Refines.after (h : Refines isIOWatchdog s k) {message : CStr} {logs : List CStr}
    {reboots : List Reboot} (heffect : PanicEffect message logs reboots) {device : Device}
    {told : Bool} (htold : told = true → device.InSafeMode) :
    Refines isIOWatchdog { s with outside := { s.outside with
        device
        panicLogs := s.outside.panicLogs ++ logs
        reboots := s.outside.reboots ++ reboots } }
      { k with panics := k.panics ++ logs, reboots := k.reboots + reboots.length, told } := by
  refine ⟨h.connections, h.delivered, by rw [h.panicLogs], ?_, htold, h.known⟩
  rw [List.map_append, h.reboots, List.replicate_add]
  cases heffect <;> rfl

theorem Refines.panicked (h : Refines isIOWatchdog s k) (hpeer : peer.holds iowatchdogEntitlement)
    {call : MethodCall} (hpanic : IsPanic isIOWatchdog k.connections call) {reply : Dict}
    {t : List (Event Answer)} {a : Except Errno Unit} {device : Device}
    (hrun : Run (palera1ndHandler peer ⟨panicRequest call.inputStruct, true⟩
      s.outside.device.palera1nd).run (t ++ [⟨.sendReply reply, a⟩]) (.ok device.palera1nd))
    (hsteps : Steps (Outside.AnyStep host) s.outside.device.outside (t ++ [⟨.sendReply reply, a⟩])
      device.outside) :
    ∃ k', SafeKernel.Step isIOWatchdog k (.callStructMethod call (replyError (some reply))) k' ∧
      Refines isIOWatchdog { s with outside := { s.outside with
        device
        panicLogs := s.outside.panicLogs ++ t.filterMap panicLogOf
        reboots := s.outside.reboots ++ t.filterMap rebootOf } } k' := by
  obtain ⟨rfl, ret, hlogs, hreboots⟩ := run_answeredPanic hpeer hrun
  have hsafe : device.InSafeMode := inSafeMode_of_run hpeer hrun hsteps
  rw [hlogs, hreboots]
  exact ⟨_, .panicked _ hpanic, h.after (.rebooted ret) fun _ => hsafe⟩

/-- An error says nothing of what has been done. -/
theorem PanicEffect.step {call : MethodCall} {logs : List CStr} {reboots : List Reboot}
    (heffect : PanicEffect call.inputStruct logs reboots) {ret : ℤ} (hret : ret ≠ 0)
    (hpanic : IsPanic isIOWatchdog k.connections call) :
    SafeKernel.Step isIOWatchdog k (.callStructMethod call ret)
      { k with panics := k.panics ++ logs, reboots := k.reboots + reboots.length, told := false } := by
  cases heffect with
  | nothing => exact .lost hret false hpanic
  | logged => exact .lost hret true hpanic
  | rebooted =>
    have hstep := SafeKernel.Step.panicked ret hpanic
    rwa [decide_eq_false hret] at hstep

theorem Refines.interrupted (h : Refines isIOWatchdog s k)
    (hpeer : peer.holds iowatchdogEntitlement) {call : MethodCall}
    (hpanic : IsPanic isIOWatchdog k.connections call) {t rest : List (Event Answer)}
    {r : Except Palera1nd.Fault HandlerState}
    (hrun : Run (palera1ndHandler peer ⟨panicRequest call.inputStruct, true⟩
      s.outside.device.palera1nd).run (t ++ rest) r) (device : Device) :
    ∃ k', SafeKernel.Step isIOWatchdog k (.callStructMethod call (replyError none)) k' ∧
      Refines isIOWatchdog { s with outside := { s.outside with
        device
        panicLogs := s.outside.panicLogs ++ t.filterMap panicLogOf
        reboots := s.outside.reboots ++ t.filterMap rebootOf } } k' := by
  have hret : replyError none ≠ 0 := by decide
  have heffect := panicEffect_of_run hpeer hrun
  exact ⟨_, heffect.step hret hpanic, h.after heffect fun htold => absurd htold Bool.false_ne_true⟩

end Jbinit

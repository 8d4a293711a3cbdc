import Jbinit.PayloadDylib.Reexec
import Jbinit.Palera1nd.Handler
import Jbinit.Foundations.Transitions

/-!
# The copies of the flags

palera1nd, the ramdisk, launchd and its environment, and the systemhook in launchd each have a copy
of the flags. A request to enter or to leave safe mode changes the flags and reboots userspace;
launchd then takes its copies from its environment, to which no request writes. So the copies agree
after every reboot exactly when no request has changed the flags (`flags_consistent_iff`).
-/

namespace Jbinit

open Foundations Calls Transitions Palera1nd PayloadDylib

/-- What the handler of palera1nd acts on. -/
structure Outside where
  /-- The `paleinfo` on the ramdisk. -/
  rmd0 : Paleinfo
  launchd : Launchd

structure Device where
  palera1nd : HandlerState
  outside : Outside

/-- A message from palera1nd, which has the entitlement and waits for the reply. -/
def fromPalera1nd (xdict : Dict) : Message :=
  ⟨xdict, Dict.set [] launchdCmdEntitlement (.bool true), true⟩

/-- The calls of the handler, when the ramdisk can be read and written and messages to launchd
succeed. -/
inductive Outside.Step (host : Host) : Outside → Event Answer → Outside → Prop
  | setPinfo {s : Outside} (pinfo : Paleinfo) :
    Step host s ⟨.setPinfo pinfo, .ok ()⟩ { s with rmd0 := pinfo }
  | sendLaunchdMessage {s : Outside} {xdict reply : Dict} {launchd : Launchd}
    (h : xpcHandler host (fromPalera1nd xdict) s.launchd = .ok (launchd, [reply])) :
    Step host s ⟨.sendLaunchdMessage xdict, some reply⟩ { s with launchd }
  | readRamdiskSize {s : Outside} : Step host s ⟨.readRamdiskSize, .ok 4⟩ s
  | other {s : Outside} {c : Call} (r : Answer c) (hpinfo : ∀ pinfo, c ≠ .setPinfo pinfo)
    (hmessage : ∀ xdict, c ≠ .sendLaunchdMessage xdict) (hsize : c ≠ .readRamdiskSize) :
    Step host s ⟨c, r⟩ s

inductive SafeModeCmd
  | intercept
  | exit
  deriving DecidableEq, Repr

def SafeModeCmd.cmd : SafeModeCmd → JbdCmd
  | .intercept => .interceptUserspacePanic
  | .exit => .exitSafeMode

def SafeModeCmd.entitlement : SafeModeCmd → String
  | .intercept => iowatchdogEntitlement
  | .exit => bootstrapperEntitlement

/-- The flags that a request asks for. -/
def SafeModeCmd.flags : SafeModeCmd → Flags → Flags
  | .intercept => enterSafeModeFlags
  | .exit => exitSafeModeFlags

/-- An authorised request, up to the userspace reboot. -/
structure Requested (host : Host) (s : Device) (command : SafeModeCmd) (s' : Device) : Prop where
  run : ∃ peer request t, peer.holds command.entitlement ∧ request.replyable = true ∧
    request.cmd = some command.cmd ∧
    Run (palera1ndHandler peer request s.palera1nd).run t (.ok s'.palera1nd) ∧
    Steps (Outside.Step host) s.outside t s'.outside

/-- The userspace reboot: launchd and palera1nd start again. -/
structure Rebooted (host : Host) (s s' : Device) : Prop where
  launchd : ∃ sandboxExtensions bootUuid, launchdHookMain host sandboxExtensions bootUuid
    s.outside.launchd.environ = .ok s'.outside.launchd
  rmd0 : s'.outside.rmd0 = s.outside.rmd0
  palera1nd : s'.palera1nd = ⟨s'.outside.rmd0, 0⟩

/-- A request with the userspace reboot that it triggers. -/
def Device.Step (s : Device) (command : SafeModeCmd) (s' : Device) : Prop :=
  ∃ host mid host', Requested host s command mid ∧ Rebooted host' mid s'

/-- The flags as the six copies have them; `none` is a copy that is not there. -/
def Device.copies (s : Device) : List (Option Flags) :=
  [some s.palera1nd.pinfo.flags, some s.outside.rmd0.flags, some s.outside.launchd.pflags,
    some s.outside.launchd.systemhook.pflags,
    s.outside.launchd.systemhook.jbPinfoFlags.map strtoull,
    (s.outside.launchd.environ jbPinfoFlagsName).map strtoull]

/-- All copies denote a value. -/
def Device.Denote (s : Device) (flags : Flags) : Prop := ∀ copy ∈ s.copies, copy = some flags

def safeModeMask : Flags := palerainOptionSafemode ||| palerainOptionFailure

/-- Every copy has the other flags as they were. -/
def Device.KeepsOthers (flags : Flags) (s : Device) : Prop :=
  ∀ copy ∈ s.copies, ∃ flags', copy = some flags' ∧
    flags' &&& ~~~safeModeMask = flags &&& ~~~safeModeMask

/-- The request leaves the flags as they are. -/
def Unchanging (s : Device) : SafeModeCmd → Prop
  | .intercept => s.palera1nd.pinfo.flags.has palerainOptionSafemode = true ∧
    s.palera1nd.pinfo.flags.has palerainOptionFailure = true
  | .exit => s.palera1nd.pinfo.flags.has palerainOptionSafemode = false ∧
    s.palera1nd.pinfo.flags.has palerainOptionFailure = false

/-! ## The bits of the flags -/

theorem has_eq_getLsbD (flags : Flags) {k : ℕ} (hk : k < 64) :
    flags.has (1#64 <<< k) = flags.getLsbD k := by
  have hne : BitVec.twoPow 64 k ≠ 0#64 := by
    intro h
    have hbit := congrArg (·.getLsbD k) h
    simp [hk] at hbit
  show (flags &&& BitVec.twoPow 64 k != 0#64) = _
  rw [BitVec.and_twoPow]
  cases flags.getLsbD k with
  | false => rfl
  | true => exact bne_iff_ne.mpr hne

theorem getLsbD_safeModeMask (i : ℕ) :
    safeModeMask.getLsbD i = (decide (25 = i) || decide (60 = i)) := by
  show (BitVec.twoPow 64 25 ||| BitVec.twoPow 64 60).getLsbD i = _
  rw [BitVec.getLsbD_or, BitVec.getLsbD_twoPow, BitVec.getLsbD_twoPow]
  rfl

theorem or_mask_eq_self_iff (flags : Flags) :
    flags ||| safeModeMask = flags ↔ flags.getLsbD 25 = true ∧ flags.getLsbD 60 = true := by
  constructor
  · intro h
    rw [← h, BitVec.getLsbD_or, BitVec.getLsbD_or, getLsbD_safeModeMask, getLsbD_safeModeMask]
    simp
  · rintro ⟨h25, h60⟩
    refine BitVec.eq_of_getLsbD_eq fun i _ => ?_
    rw [BitVec.getLsbD_or, getLsbD_safeModeMask]
    by_cases hi : 25 = i
    · rw [← hi, h25, Bool.true_or]
    by_cases hi' : 60 = i
    · rw [← hi', h60, Bool.true_or]
    rw [decide_eq_false hi, decide_eq_false hi', Bool.or_false, Bool.or_false]

theorem and_not_mask_eq_self_iff (flags : Flags) :
    flags &&& ~~~safeModeMask = flags ↔
      flags.getLsbD 25 = false ∧ flags.getLsbD 60 = false := by
  constructor
  · intro h
    rw [← h, BitVec.getLsbD_and, BitVec.getLsbD_and, BitVec.getLsbD_not, BitVec.getLsbD_not,
      getLsbD_safeModeMask, getLsbD_safeModeMask]
    simp
  · rintro ⟨h25, h60⟩
    refine BitVec.eq_of_getLsbD_eq fun i hlt => ?_
    rw [BitVec.getLsbD_and, BitVec.getLsbD_not, getLsbD_safeModeMask]
    by_cases hi : 25 = i
    · rw [← hi, h25, Bool.false_and]
    by_cases hi' : 60 = i
    · rw [← hi', h60, Bool.false_and]
    rw [decide_eq_false hi, decide_eq_false hi', decide_eq_true hlt]
    simp

theorem unchanging_iff (s : Device) (command : SafeModeCmd) :
    Unchanging s command ↔ command.flags s.palera1nd.pinfo.flags = s.palera1nd.pinfo.flags := by
  unfold Unchanging palerainOptionSafemode palerainOptionFailure
  rw [has_eq_getLsbD _ (by decide), has_eq_getLsbD _ (by decide)]
  cases command with
  | intercept => exact (or_mask_eq_self_iff _).symm
  | exit => exact (and_not_mask_eq_self_iff _).symm

/-- A request changes no other flag. -/
theorem SafeModeCmd.flags_and_mask (command : SafeModeCmd) (flags : Flags) :
    command.flags flags &&& ~~~safeModeMask = flags &&& ~~~safeModeMask := by
  cases command with
  | intercept =>
    show (flags ||| safeModeMask) &&& ~~~safeModeMask = _
    rw [BitVec.and_or_distrib_right, BitVec.and_not_self]
    exact BitVec.or_zero
  | exit =>
    show flags &&& ~~~safeModeMask &&& ~~~safeModeMask = _
    rw [BitVec.and_assoc, BitVec.and_self]

/-! ## A request -/

variable {host : Host}

/-- launchd when it has been told the flags. -/
def launchdWithFlags (host : Host) (s : Launchd) (flags : Flags) : Launchd :=
  { s with
    pflags := flags
    systemhook := if host.dlopen then s.systemhook.setFlags host flags else s.systemhook }

theorem xpcHandler_setFlags (flags : Flags) (s : Launchd) :
    xpcHandler host (fromPalera1nd (setFlagsMessage flags)) s =
      .ok (launchdWithFlags host s flags, [[]]) := by
  have hset : setPinfoFlags host (setFlagsMessage flags) (some []) s =
      .ok (some [], launchdWithFlags host s flags) := by
    show (if host.dlopen then _ else _) = _
    unfold launchdWithFlags
    split
    · rfl
    · rfl
  have hbefore : beforeReply host (fromPalera1nd (setFlagsMessage flags)) s =
      .ok (some [], launchdWithFlags host s flags) := hset
  unfold xpcHandler
  rw [hbefore]
  rfl

theorem quiet_perform {c : Call} (hpinfo : ∀ pinfo, c ≠ .setPinfo pinfo)
    (hmessage : ∀ xdict, c ≠ .sendLaunchdMessage xdict) :
    Quiet (Outside.Step host) (perform_ c) := by
  refine .bind (.perform fun s r s' h => ?_) fun _ => .pure _
  cases h with
  | setPinfo pinfo => exact absurd rfl (hpinfo pinfo)
  | sendLaunchdMessage h => exact absurd rfl (hmessage _)
  | readRamdiskSize => rfl
  | other => rfl

theorem setPinfo_spec (pinfo : Paleinfo) (o : Outside) :
    Triple (Outside.Step host) (· = o) (setPinfo pinfo)
      (fun _ => (· = { o with rmd0 := pinfo })) (fun _ _ => False) := by
  refine .bind (M := fun r s => ok r = true ∧ s = o) (.perform fun s r s' hs h => ?_) fun r => ?_
  · subst hs
    cases h with
    | readRamdiskSize => exact ⟨rfl, rfl⟩
    | other r hpinfo hmessage hsize => exact absurd rfl hsize
  cases r with
  | error _ => exact .of_and fun h => absurd h Bool.false_ne_true
  | ok _ =>
    refine .of_and fun _ => .bind (M := fun _ => (· = { o with rmd0 := pinfo }))
      (.perform fun s r s' hs h => ?_) fun _ => .pure fun _ hs => hs
    subst hs
    cases h with
    | setPinfo => rfl
    | other r hpinfo hmessage => exact absurd rfl (hpinfo pinfo)

theorem tellLaunchd_spec (flags : Flags) (o : Outside) :
    Triple (Outside.Step host) (· = o) (tellLaunchd flags)
      (fun _ => (· = { o with launchd := launchdWithFlags host o.launchd flags }))
      (fun _ _ => False) := by
  refine .bind (M := fun r s => r ≠ none ∧
    s = { o with launchd := launchdWithFlags host o.launchd flags })
    (.perform fun s r s' hs h => ?_) fun r => ?_
  · subst hs
    cases h with
    | sendLaunchdMessage h =>
      rw [xpcHandler_setFlags] at h
      cases h
      exact ⟨fun h => (by cases h), rfl⟩
    | other r hpinfo hmessage => exact absurd rfl (hmessage _)
  · cases r with
    | none => exact .throw fun _ hs => hs.1 rfl
    | some reply => exact .pure fun _ hs => hs.2

theorem quiet_userspaceReboot : Quiet (Outside.Step host) userspaceReboot :=
  .bind (quiet_perform (fun _ h => nomatch h) fun _ h => nomatch h) fun _ =>
    quiet_perform (fun _ h => nomatch h) fun _ h => nomatch h

/-- The state that the handler and launchd are in after a request. -/
structure Told (host : Host) (s : HandlerState) (o : Outside) (flags : Flags) (s' : HandlerState)
    (o' : Outside) : Prop where
  pinfo : s'.pinfo = { s.pinfo with flags }
  rmd0 : o'.rmd0 = { s.pinfo with flags }
  launchd : o'.launchd = launchdWithFlags host o.launchd flags

theorem interceptUserspacePanic_spec (request : Dict) (s : HandlerState) (o : Outside) :
    Triple (Outside.Step host) (· = o) (interceptUserspacePanic request s)
      (Told host s o (enterSafeModeFlags s.pinfo.flags)) (fun _ _ => False) := by
  refine .bind (setPinfo_spec _ o) fun _ => .bind (tellLaunchd_spec _ _) fun _ => ?_
  have hreboot : Triple (Outside.Step host)
      (· = ⟨{ s.pinfo with flags := enterSafeModeFlags s.pinfo.flags },
        launchdWithFlags host o.launchd (enterSafeModeFlags s.pinfo.flags)⟩)
      (do userspaceReboot
          return { s with pinfo := { s.pinfo with flags := enterSafeModeFlags s.pinfo.flags } })
      (Told host s o (enterSafeModeFlags s.pinfo.flags)) (fun _ _ => False) := by
    refine .bind (quiet_userspaceReboot.triple _) fun _ => .pure fun o' ho' => ?_
    subst ho'
    exact ⟨rfl, rfl, rfl⟩
  cases request.getString "message" with
  | none => exact hreboot
  | some message =>
    have hdump : Quiet (Outside.Step host) (perform_ (.dumpUserspacePanicLog message)) :=
      quiet_perform (fun _ h => nomatch h) fun _ h => nomatch h
    exact .bind (hdump.triple _) fun _ => hreboot

theorem exitSafeMode_spec (s : HandlerState) (o : Outside) :
    Triple (Outside.Step host) (· = o) (exitSafeMode s)
      (Told host s o (exitSafeModeFlags s.pinfo.flags)) (fun _ _ => False) := by
  refine .bind (setPinfo_spec _ o) fun _ => .bind (tellLaunchd_spec _ _) fun _ => ?_
  refine .bind (quiet_userspaceReboot.triple _) fun _ => .pure fun o' ho' => ?_
  subst ho'
  exact ⟨rfl, rfl, rfl⟩

theorem handleCommand_spec (command : SafeModeCmd) {peer : Peer}
    (hpeer : peer.holds command.entitlement) (request : Dict) (s : HandlerState) (o : Outside) :
    Triple (Outside.Step host) (· = o) (handleCommand peer request [] s (some command.cmd))
      (fun r => Told host s o (command.flags s.pinfo.flags) r.2) (fun _ _ => False) := by
  cases command with
  | intercept =>
    have hentitled : peer.entitled iowatchdogEntitlement = true := (peer.entitled_iff _).mpr hpeer
    have heq : handleCommand peer request [] s (some .interceptUserspacePanic) = (do
        return ([], ← interceptUserspacePanic request s)) := by
      show (if !peer.entitled iowatchdogEntitlement then _ else _) = _
      rw [if_neg (by simp [hentitled])]
    show Triple _ _ (handleCommand peer request [] s (some .interceptUserspacePanic)) _ _
    rw [heq]
    exact .bind (interceptUserspacePanic_spec request s o) fun _ => .pure fun _ h => h
  | exit =>
    have hentitled : peer.entitled bootstrapperEntitlement = true := (peer.entitled_iff _).mpr hpeer
    have heq : handleCommand peer request [] s (some .exitSafeMode) = (do
        return ([], ← exitSafeMode s)) := by
      show (if !peer.entitled bootstrapperEntitlement then _ else _) = _
      rw [if_neg (by simp [hentitled])]
    show Triple _ _ (handleCommand peer request [] s (some .exitSafeMode)) _ _
    rw [heq]
    exact .bind (exitSafeMode_spec s o) fun _ => .pure fun _ h => h

/-- A request brings all copies up to date but that of launchd's environment. -/
theorem Requested.told {s s' : Device} {command : SafeModeCmd} (h : Requested host s command s') :
    Told host s.palera1nd s.outside (command.flags s.palera1nd.pinfo.flags) s'.palera1nd
      s'.outside := by
  obtain ⟨peer, request, t, hpeer, hreplyable, hcmd, hrun, hsteps⟩ := h.run
  have hspec : Triple (Outside.Step host) (· = s.outside)
      (palera1ndHandler peer request s.palera1nd)
      (Told host s.palera1nd s.outside (command.flags s.palera1nd.pinfo.flags))
      (fun _ _ => False) := by
    unfold palera1ndHandler
    rw [if_pos hreplyable, hcmd]
    refine .bind (handleCommand_spec command hpeer request.dict s.palera1nd s.outside) fun r => ?_
    have hreply : Quiet (Outside.Step host) (perform_ (.sendReply r.1)) :=
      quiet_perform (fun _ h => nomatch h) fun _ h => nomatch h
    exact .bind (hreply.triple _) fun _ => .pure fun _ h => h
  exact hspec s.outside rfl t s'.outside _ hrun hsteps

theorem denote_copies_iff {s : Device} {flags : Flags} :
    s.Denote flags ↔ s.palera1nd.pinfo.flags = flags ∧ s.outside.rmd0.flags = flags ∧
      s.outside.launchd.pflags = flags ∧ s.outside.launchd.systemhook.pflags = flags ∧
      s.outside.launchd.systemhook.jbPinfoFlags.map strtoull = some flags ∧
      (s.outside.launchd.environ jbPinfoFlagsName).map strtoull = some flags := by
  simp only [Device.Denote, Device.copies, List.forall_mem_cons, List.not_mem_nil,
    IsEmpty.forall_iff, implies_true, and_true, Option.some.injEq]

/-- On a host on which nothing fails, the copies that a request leaves behind are those of the
environment only. -/
theorem Requested.copies {s s' : Device} {command : SafeModeCmd} (h : Requested host s command s')
    (hdlopen : host.dlopen = true) (hdlsym : ∀ symbol, host.dlsym symbol = true)
    (hmalloc : host.malloc = true) :
    s'.copies = List.replicate 5 (some (command.flags s.palera1nd.pinfo.flags)) ++
      [(s.outside.launchd.environ jbPinfoFlagsName).map strtoull] := by
  have htold := h.told
  unfold Device.copies
  rw [htold.pinfo, htold.rmd0, htold.launchd]
  unfold launchdWithFlags SystemhookVars.setFlags
  simp only [hdlopen, hdlsym, hmalloc, if_true, Bool.and_self, Option.map_some,
    strtoull_pinfoFlagsString]
  rfl

/-! ## Requests with their reboots -/

/-- After the reboot palera1nd and the ramdisk have the new flags, and launchd has the old ones. -/
theorem Device.Step.copies {s s' : Device} {command : SafeModeCmd} (h : s.Step command s')
    {flags : Flags} (hs : s.Denote flags) :
    s'.copies = [some (command.flags flags), some (command.flags flags), some flags, some flags,
      some flags, some flags] := by
  obtain ⟨host, mid, host', hrequested, hrebooted⟩ := h
  obtain ⟨sandboxExtensions, bootUuid, hmain⟩ := hrebooted.launchd
  obtain ⟨henviron, hcopy, hpflags, hvars⟩ := launchdHookMain_eq_ok hmain
  have htold := hrequested.told
  obtain ⟨hpinfo, -, -, -, -, hold⟩ := denote_copies_iff.mp hs
  have hmid : mid.outside.launchd.environ = s.outside.launchd.environ := by
    rw [htold.launchd]
    rfl
  unfold Device.copies
  rw [hrebooted.palera1nd, hrebooted.rmd0, htold.rmd0, hcopy, henviron, hpflags, hvars, hmid, hold,
    hpinfo]

/-- A step keeps the copies in agreement when it does not change the flags. -/
theorem Device.Step.consistent_iff {s s' : Device} {command : SafeModeCmd}
    (hstep : s.Step command s') {old flags : Flags} (hold : s.Denote old)
    (hkeeps : s.KeepsOthers flags) :
    (∃ flags', s'.Denote flags') ∧ s'.KeepsOthers flags ↔ Unchanging s command := by
  have hcopies := hstep.copies hold
  rw [unchanging_iff, (denote_copies_iff.mp hold).1]
  constructor
  · rintro ⟨⟨new, hnew⟩, -⟩
    unfold Device.Denote at hnew
    rw [hcopies] at hnew
    have hnew₁ := hnew (some (command.flags old)) (by simp)
    have hnew₂ := hnew (some old) (by simp)
    exact Option.some.inj (hnew₁.trans hnew₂.symm)
  · intro hsame
    have hmem : some old ∈ s.copies := by
      have hpinfo := (denote_copies_iff.mp hold).1
      simp [Device.copies, hpinfo]
    obtain ⟨_, hsome, hothers⟩ := hkeeps (some old) hmem
    cases hsome
    have hall : s'.Denote old := by
      unfold Device.Denote
      rw [hcopies, hsame]
      simp
    exact ⟨⟨old, hall⟩, fun copy hcopy => ⟨old, hall copy hcopy, hothers⟩⟩

/-- **When the copies of the flags agree after every reboot**: when no request has changed them. -/
theorem flags_consistent_iff {s : Device} {flags : Flags} (hs : s.Denote flags)
    {run : List (SafeModeCmd × Device)} (hrun : IsRun Device.Step s run) :
    (∀ p ∈ run, (∃ flags', p.2.Denote flags') ∧ p.2.KeepsOthers flags) ↔ Meets Unchanging s run := by
  have hkeeps : s.KeepsOthers flags := fun copy hcopy => ⟨flags, hs copy hcopy, rfl⟩
  have hstep (s : Device) (command : SafeModeCmd) (s' : Device)
      (hinv : (∃ flags', s.Denote flags') ∧ s.KeepsOthers flags) (hstep : s.Step command s') :
      (∃ flags', s'.Denote flags') ∧ s'.KeepsOthers flags ↔ Unchanging s command := by
    obtain ⟨⟨old, hold⟩, hkeeps⟩ := hinv
    exact hstep.consistent_iff hold hkeeps
  exact IsRun.invariant_iff hstep ⟨⟨flags, hs⟩, hkeeps⟩ hrun

/-! ## A rootless device -/

def plainEnviron : Environ := fun name =>
  List.lookup name [(jbRootPathName, varJb), (jbPinfoFlagsName, "0x2".toList),
    (jbTweakloaderPathName, "@default".toList)]

def plainDevice : Device where
  palera1nd := plainState
  outside :=
    ⟨plainState.pinfo, palerainOptionRootless, plainEnviron,
      ⟨some varJb, some "0x2".toList, palerainOptionRootless⟩, []⟩

theorem plainDevice_denote : plainDevice.Denote palerainOptionRootless :=
  denote_copies_iff.mpr ⟨rfl, rfl, rfl, rfl, rfl, rfl⟩

/-- watchdogd or the loader. -/
def SafeModeCmd.peer (command : SafeModeCmd) : Peer :=
  ⟨Dict.set [] command.entitlement (.bool true), 100, 0, .ok 0⟩

def SafeModeCmd.request : SafeModeCmd → Request
  | .intercept => ⟨Dict.set [] "cmd" (.uint64 9), true⟩
  | .exit => ⟨Dict.set [] "cmd" (.uint64 10), true⟩

/-- The device after a request. -/
def SafeModeCmd.requested (command : SafeModeCmd) : Device where
  palera1nd := { plainState with
    pinfo := { plainState.pinfo with flags := command.flags palerainOptionRootless } }
  outside.rmd0 := { plainState.pinfo with flags := command.flags palerainOptionRootless }
  outside.launchd :=
    launchdWithFlags plainHost plainDevice.outside.launchd (command.flags palerainOptionRootless)

theorem requested_plain (command : SafeModeCmd) :
    Requested plainHost plainDevice command command.requested := by
  have hsteps : Steps (Outside.Step plainHost) plainDevice.outside
      [⟨.readRamdiskSize, .ok 4⟩,
        ⟨.setPinfo { plainState.pinfo with flags := command.flags palerainOptionRootless }, .ok ()⟩,
        ⟨.sendLaunchdMessage (setFlagsMessage (command.flags palerainOptionRootless)), some []⟩,
        ⟨.unmountDeveloper, .ok ()⟩, ⟨.reboot3 rb2Userreboot none, (0 : ℤ)⟩,
        ⟨.sendReply [], .ok ()⟩] command.requested.outside := by
    have hother {o : Outside} {c : Call} (r : Answer c) (hpinfo : ∀ pinfo, c ≠ .setPinfo pinfo)
        (hmessage : ∀ xdict, c ≠ .sendLaunchdMessage xdict) (hsize : c ≠ .readRamdiskSize) :
        Outside.Step plainHost o ⟨c, r⟩ o := .other r hpinfo hmessage hsize
    exact ⟨_, .readRamdiskSize, _, .setPinfo _, _, .sendLaunchdMessage (xpcHandler_setFlags _ _),
      _, hother _ (fun _ h => nomatch h) (fun _ h => nomatch h) (fun h => nomatch h),
      _, hother _ (fun _ h => nomatch h) (fun _ h => nomatch h) (fun h => nomatch h),
      _, hother _ (fun _ h => nomatch h) (fun _ h => nomatch h) (fun h => nomatch h),
      by cases command <;> rfl⟩
  cases command with
  | intercept => exact ⟨SafeModeCmd.intercept.peer, SafeModeCmd.intercept.request, _, rfl, rfl, rfl,
      run_drive success _, hsteps⟩
  | exit => exact ⟨SafeModeCmd.exit.peer, SafeModeCmd.exit.request, _, rfl, rfl, rfl,
      run_drive success _, hsteps⟩

/-- Every request on the device can be followed by the reboot. -/
theorem step_plain (command : SafeModeCmd) : ∃ s', plainDevice.Step command s' := by
  have hmain : ∃ launchd, launchdHookMain plainHost [] []
      command.requested.outside.launchd.environ = .ok launchd := ⟨_, rfl⟩
  obtain ⟨launchd, hlaunchd⟩ := hmain
  exact ⟨⟨⟨command.requested.outside.rmd0, 0⟩, ⟨command.requested.outside.rmd0, launchd⟩⟩,
    plainHost, command.requested, plainHost, requested_plain command, ⟨[], [], hlaunchd⟩, rfl, rfl⟩

theorem flags_consistent_exit : ∃ s', plainDevice.Step .exit s' ∧
    (∃ flags', s'.Denote flags') ∧ s'.KeepsOthers palerainOptionRootless := by
  obtain ⟨s', hstep⟩ := step_plain .exit
  refine ⟨s', hstep, ?_⟩
  have hunchanging : Unchanging plainDevice .exit := ⟨by decide, by decide⟩
  have hrun : IsRun Device.Step plainDevice [(.exit, s')] := ⟨hstep, trivial⟩
  exact (flags_consistent_iff plainDevice_denote hrun).mpr ⟨hunchanging, trivial⟩ _
    List.mem_cons_self

/-- A request to enter safe mode on a device that is not in safe mode. -/
theorem flags_inconsistent_intercept : ∃ s' run, plainDevice.Denote palerainOptionRootless ∧
    run = [(SafeModeCmd.intercept, s')] ∧ IsRun Device.Step plainDevice run ∧
      ¬∃ flags', s'.Denote flags' := by
  obtain ⟨s', hstep⟩ := step_plain .intercept
  refine ⟨s', _, plainDevice_denote, rfl, ⟨hstep, trivial⟩, fun ⟨flags', hflags⟩ => ?_⟩
  unfold Device.Denote at hflags
  rw [hstep.copies plainDevice_denote] at hflags
  have hnew := hflags (some (enterSafeModeFlags palerainOptionRootless)) List.mem_cons_self
  have hold := hflags (some palerainOptionRootless) (by simp)
  exact absurd (hnew.trans hold.symm) (by decide)

end Jbinit

import Jbinit.Palera1nd.Handler
import Jbinit.Foundations.Transitions

/-!
# The wake-up of the payload

On tvOS the payload registers its pid with palera1nd, waits for the reply and stops itself;
HeadBoard asks once, when it starts, to resume the payload. palera1nd handles one request at a time.
The steps of the three may interleave in any order (`Step`), and the wake-up is lost when the
request to resume is handled before the payload has stopped (`lost_of_early`), and only then
(`wakeup_not_lost`).
-/

namespace Jbinit.Palera1nd

open Foundations Calls Transitions

inductive PayloadState
  | starting
  /-- It has sent `REGISTER_PAYLOAD_PID` and waits for the reply. -/
  | registering
  | registered
  /-- It has sent `SIGSTOP` to itself. -/
  | stopped
  | resumed
  deriving DecidableEq, Repr

inductive HeadBoardState
  | starting
  /-- It has sent `RESUME_PAYLOAD`. -/
  | resuming
  | done
  deriving DecidableEq, Repr

structure Parties where
  payload : PayloadState
  headBoard : HeadBoardState
  palera1nd : HandlerState
  deriving DecidableEq

inductive Action
  | register
  | stop
  | resume
  | handleRegister
  | handleResume
  deriving DecidableEq, Repr

/-- `SIGCONT` has no effect on a process that is not stopped. -/
def PayloadState.continued : PayloadState → PayloadState
  | .stopped => .resumed
  | state => state

/-- The payload after the signals that a run of the handler sends to its pid. -/
def PayloadState.signalled (pid : ℤ) (state : PayloadState) : List (Event Answer) → PayloadState
  | [] => state
  | ⟨.killPid target .sigcont, _⟩ :: t =>
    PayloadState.signalled pid (if target = pid then state.continued else state) t
  | _ :: t => PayloadState.signalled pid state t

section

variable (payload headBoard : Peer)

/-- The steps of the three parties. -/
inductive Step : Parties → Action → Parties → Prop
  | register {s : Parties} (h : s.payload = .starting) :
    Step s .register { s with payload := .registering }
  | stop {s : Parties} (h : s.payload = .registered) : Step s .stop { s with payload := .stopped }
  | resume {s : Parties} (h : s.headBoard = .starting) :
    Step s .resume { s with headBoard := .resuming }
  | handleRegister {s : Parties} {t : List (Event Answer)} {d : HandlerState}
    (h : s.payload = .registering)
    (hrun : Run (palera1ndHandler payload registerRequest s.palera1nd).run t (.ok d)) :
    Step s .handleRegister { s with
      payload := PayloadState.signalled payload.pid .registered t
      palera1nd := d }
  | handleResume {s : Parties} {t : List (Event Answer)} {d : HandlerState}
    (h : s.headBoard = .resuming)
    (hrun : Run (palera1ndHandler headBoard resumeRequest s.palera1nd).run t (.ok d)) :
    Step s .handleResume ⟨s.payload.signalled payload.pid t, .done, d⟩

end

/-- The payload is stopped and no request to resume it is left. -/
def Lost (s : Parties) : Prop := s.payload = .stopped ∧ s.headBoard = .done

/-- A request to resume is handled when the payload has stopped. -/
def InTime (s : Parties) (action : Action) : Prop :=
  action = .handleResume → s.payload = .stopped

/-! ## What palera1nd does with the two requests -/

theorem register_run_iff {payload : Peer} (hpayload : payload.holds bootstrapperEntitlement)
    (s : HandlerState) {t : List (Event Answer)} {r : Except Fault HandlerState} :
    Run (palera1ndHandler payload registerRequest s).run t r ↔
      ∃ a, t = [⟨.sendReply [], a⟩] ∧ r = .ok { s with payloadPid := payload.pid } := by
  have hentitled := (payload.entitled_iff _).mpr hpayload
  refine run_of_reply rfl ?_
  show handleCommand payload _ [] s (some .registerPayloadPid) = _
  simp only [handleCommand, hentitled]
  rfl

theorem register_run {payload : Peer} (hpayload : payload.holds bootstrapperEntitlement)
    {s d : HandlerState} {t : List (Event Answer)}
    (hrun : Run (palera1ndHandler payload registerRequest s).run t (.ok d)) :
    (∃ a, t = [⟨.sendReply [], a⟩]) ∧ d = { s with payloadPid := payload.pid } := by
  obtain ⟨a, rfl, hd⟩ := (register_run_iff hpayload s).mp hrun
  exact ⟨⟨a, rfl⟩, Except.ok.inj hd⟩

theorem resume_run {headBoard : Peer}
    (hheadBoard : headBoard.entitlements.getValue "application-identifier" =
      some (.string headBoardIdentifier))
    {s d : HandlerState} {t : List (Event Answer)}
    (hrun : Run (palera1ndHandler headBoard resumeRequest s).run t (.ok d)) :
    (s.payloadPid = 0 ∧ ∃ a, t = [⟨.sendReply [], a⟩]) ∨
      s.payloadPid ≠ 0 ∧
        ∃ a b, t = [⟨.killPid s.payloadPid .sigcont, a⟩, ⟨.sendReply [], b⟩] := by
  have hcommand : handleCommand headBoard resumeRequest.dict [] s resumeRequest.cmd =
      if s.payloadPid ≠ 0 then do
        perform_ (.killPid s.payloadPid .sigcont)
        return ([], { s with payloadPid := 0 })
      else return ([], s) := by
    show resumePayload headBoard [] s = _
    unfold resumePayload
    rw [hheadBoard]
    rfl
  by_cases hpid : s.payloadPid = 0
  · rw [if_neg (not_not.mpr hpid)] at hcommand
    obtain ⟨a, rfl, -⟩ := (run_of_reply rfl hcommand).mp hrun
    exact .inl ⟨hpid, a, rfl⟩
  · rw [if_pos hpid] at hcommand
    have hprog : palera1ndHandler headBoard resumeRequest s = (do
        perform_ (.killPid s.payloadPid .sigcont)
        perform_ (.sendReply [])
        return { s with payloadPid := 0 }) := by
      unfold palera1ndHandler
      rw [if_pos (show resumeRequest.replyable = true from rfl), hcommand]
      rfl
    rw [hprog] at hrun
    cases hrun with
    | call a hrun =>
      cases hrun with
      | call b hrun =>
        cases hrun
        exact .inr ⟨hpid, a, b, rfl⟩

/-! ## Requests that are handled in time -/

section

variable {payload headBoard : Peer}

/-- While HeadBoard's request is outstanding, palera1nd knows a payload that may stop; afterwards
the payload is resumed. -/
structure Awaited (payload : Peer) (s : Parties) : Prop where
  known : s.headBoard ≠ .done → s.payload = .registered ∨ s.payload = .stopped →
    s.palera1nd.payloadPid = payload.pid
  resumed : s.headBoard = .done → s.payload = .resumed

/-- A step in time keeps the payload awaited. -/
theorem Awaited.step (hpayload : payload.holds bootstrapperEntitlement) (hpid : payload.pid ≠ 0)
    (hheadBoard : headBoard.entitlements.getValue "application-identifier" =
      some (.string headBoardIdentifier))
    (s : Parties) (action : Action) (s' : Parties) (hs : Awaited payload s)
    (hinTime : InTime s action) (hstep : Step payload headBoard s action s') :
    Awaited payload s' := by
  have hne {state : PayloadState} (h : s.payload = state) (hstate : state ≠ .resumed) :
      s.headBoard ≠ .done :=
    fun hdone => hstate (h.symm.trans (hs.resumed hdone))
  cases hstep with
  | register h => exact ⟨by simp, fun hdone => absurd hdone (hne h (by decide))⟩
  | stop h =>
    exact ⟨fun hdone _ => hs.known hdone (.inl h), fun hdone => absurd hdone (hne h (by decide))⟩
  | resume h =>
    refine ⟨fun _ hstate => hs.known (by simp [h]) hstate, fun hdone => ?_⟩
    cases hdone
  | handleRegister h hrun =>
    obtain ⟨-, rfl⟩ := register_run hpayload hrun
    exact ⟨fun _ _ => rfl, fun hdone => absurd hdone (hne h (by decide))⟩
  | handleResume h hrun =>
    have hstopped := hinTime rfl
    have hknown := hs.known (by simp [h]) (.inr hstopped)
    rcases resume_run hheadBoard hrun with ⟨hzero, -⟩ | ⟨-, a, b, rfl⟩
    · exact absurd (hknown.symm.trans hzero) hpid
    · refine ⟨fun hdone => absurd rfl hdone, fun _ => ?_⟩
      simp [PayloadState.signalled, hknown, hstopped, PayloadState.continued]

/-- **No wake-up is lost** in a run in which every request to resume is handled when the payload has
stopped. -/
theorem wakeup_not_lost (hpayload : payload.holds bootstrapperEntitlement)
    (hpid : payload.pid ≠ 0)
    (hheadBoard : headBoard.entitlements.getValue "application-identifier" =
      some (.string headBoardIdentifier))
    {d : HandlerState} {run : List (Action × Parties)}
    (hrun : IsRun (Step payload headBoard) ⟨.starting, .starting, d⟩ run)
    (hinTime : Meets InTime ⟨.starting, .starting, d⟩ run) :
    ∀ p ∈ run, ¬Lost p.2 := by
  have hstart : Awaited payload ⟨.starting, .starting, d⟩ :=
    ⟨fun _ h => by simp at h, fun h => by cases h⟩
  intro p hp hlost
  have hawaited := hrun.invariant (Awaited.step hpayload hpid hheadBoard) hstart hinTime p hp
  have hresumed := hawaited.resumed hlost.2
  rw [hlost.1] at hresumed
  cases hresumed

/-! ## Requests that are handled too early -/

/-- The payload is not resumed before HeadBoard's request is handled. -/
theorem step_not_resumed (hpayload : payload.holds bootstrapperEntitlement)
    (s : Parties) (action : Action) (s' : Parties)
    (hs : s.headBoard ≠ .done → s.payload ≠ .resumed)
    (hstep : Step payload headBoard s action s') : s'.headBoard ≠ .done → s'.payload ≠ .resumed := by
  cases hstep with
  | register h => exact fun _ => by simp
  | stop h => exact fun _ => by simp
  | resume h => exact fun _ => hs (by simp [h])
  | handleRegister h hrun =>
    obtain ⟨⟨a, rfl⟩, -⟩ := register_run hpayload hrun
    exact fun _ => by simp [PayloadState.signalled]
  | handleResume h hrun => exact fun hdone => absurd rfl hdone

/-- The request is handled and the payload will not be resumed. -/
def Missed (s : Parties) : Prop := s.headBoard = .done ∧ s.payload ≠ .resumed

theorem Missed.step (hpayload : payload.holds bootstrapperEntitlement)
    (s : Parties) (action : Action) (s' : Parties) (hs : Missed s)
    (hstep : Step payload headBoard s action s') : Missed s' := by
  cases hstep with
  | register h => exact ⟨hs.1, by simp⟩
  | stop h => exact ⟨hs.1, by simp⟩
  | resume h => exact absurd (hs.1.symm.trans h) (by decide)
  | handleRegister h hrun =>
    obtain ⟨⟨a, rfl⟩, -⟩ := register_run hpayload hrun
    exact ⟨hs.1, by simp [PayloadState.signalled]⟩
  | handleResume h hrun => exact absurd (hs.1.symm.trans h) (by decide)

/-- A request that is handled before the payload has stopped is missed. -/
theorem missed_of_early (hheadBoard : headBoard.entitlements.getValue "application-identifier" =
      some (.string headBoardIdentifier))
    {s s' : Parties} {action : Action} (hs : s.headBoard ≠ .done → s.payload ≠ .resumed)
    (hearly : ¬InTime s action) (hstep : Step payload headBoard s action s') : Missed s' := by
  cases hstep with
  | handleResume h hrun =>
    have hrunning : s.payload ≠ .stopped := fun hstopped => hearly fun _ => hstopped
    have hresumed : s.payload ≠ .resumed := hs (by simp [h])
    have hcontinued : s.payload.continued = s.payload := by
      unfold PayloadState.continued
      split
      · exact absurd ‹_› hrunning
      · rfl
    refine ⟨rfl, ?_⟩
    rcases resume_run hheadBoard hrun with ⟨-, a, rfl⟩ | ⟨-, a, b, rfl⟩
    · exact hresumed
    · simp only [PayloadState.signalled, hcontinued, ite_self]
      exact hresumed
  | _ => exact absurd (fun h => by cases h) hearly

/-- From every state in which the request is missed, the payload can go on to stop for good. -/
theorem lost_of_missed (hpayload : payload.holds bootstrapperEntitlement) {s : Parties}
    (hs : Missed s) : ∃ run, IsRun (Step payload headBoard) s run ∧ Lost (final s run) := by
  obtain ⟨state, headBoardState, d⟩ := s
  obtain ⟨rfl, hresumed⟩ := hs
  have hregistered (d : HandlerState) : ∃ run,
      IsRun (Step payload headBoard) ⟨.registered, .done, d⟩ run ∧
        Lost (final ⟨.registered, .done, d⟩ run) :=
    ⟨[(.stop, ⟨.stopped, .done, d⟩)], ⟨.stop rfl, trivial⟩, rfl, rfl⟩
  have hregistering : ∃ run, IsRun (Step payload headBoard) ⟨.registering, .done, d⟩ run ∧
      Lost (final ⟨.registering, .done, d⟩ run) := by
    obtain ⟨run, hrun, hlost⟩ := hregistered { d with payloadPid := payload.pid }
    have hhandled := (register_run_iff hpayload d).mpr ⟨.ok (), rfl, rfl⟩
    exact ⟨(.handleRegister, _) :: run, ⟨.handleRegister rfl hhandled, hrun⟩, hlost⟩
  cases state with
  | starting =>
    obtain ⟨run, hrun, hlost⟩ := hregistering
    exact ⟨(.register, _) :: run, ⟨.register rfl, hrun⟩, hlost⟩
  | registering => exact hregistering
  | registered => exact hregistered d
  | stopped => exact ⟨[], trivial, rfl, rfl⟩
  | resumed => exact absurd rfl hresumed

/-- The condition is exact: a run in which a request to resume is handled too early can go on to a
state with a lost wake-up. -/
theorem lost_of_early (hpayload : payload.holds bootstrapperEntitlement)
    (hheadBoard : headBoard.entitlements.getValue "application-identifier" =
      some (.string headBoardIdentifier))
    {d : HandlerState} {run : List (Action × Parties)}
    (hrun : IsRun (Step payload headBoard) ⟨.starting, .starting, d⟩ run)
    (hearly : ¬Meets InTime ⟨.starting, .starting, d⟩ run) :
    ∃ run', IsRun (Step payload headBoard) ⟨.starting, .starting, d⟩ (run ++ run') ∧
      Lost (final ⟨.starting, .starting, d⟩ (run ++ run')) := by
  obtain ⟨before, p, after, rfl, hp⟩ := exists_of_not_meets hearly
  obtain ⟨hbefore, hstep, hafter⟩ := isRun_append_iff.mp hrun
  have hnotResumed := hbefore.invariant_final
    (fun s action s' hs (_ : True) hstep => step_not_resumed hpayload s action s' hs hstep)
    (fun _ => by simp) (meets_true _ _)
  have hmissed := missed_of_early hheadBoard hnotResumed hp hstep
  have hfinal := hafter.invariant_final
    (fun s action s' hs (_ : True) hstep => Missed.step hpayload s action s' hs hstep) hmissed
    (meets_true _ _)
  obtain ⟨run', hrun', hlost⟩ := lost_of_missed hpayload hfinal
  refine ⟨run', isRun_append_iff.mpr ⟨hrun, ?_⟩, ?_⟩
  · rw [final_append]
    exact hrun'
  · rw [final_append, final_append]
    exact hlost

end

/-! ## A lost wake-up -/

def payloadPeer : Peer := ⟨Dict.set [] bootstrapperEntitlement (.bool true), 200, 0, .ok 0⟩

def headBoardPeer : Peer :=
  ⟨Dict.set [] "application-identifier" (.string headBoardIdentifier), 300, 0, .ok 0⟩

/-- palera1nd when the payload has registered. -/
def registeredState : HandlerState := { plainState with payloadPid := 200 }

theorem payloadPeer_holds : payloadPeer.holds bootstrapperEntitlement := by
  show payloadPeer.entitlements.getValue bootstrapperEntitlement = some (.bool true)
  rfl

theorem handles_register : Run (palera1ndHandler payloadPeer registerRequest plainState).run
    [⟨.sendReply [], .ok ()⟩] (.ok registeredState) :=
  run_drive success _

theorem handles_resume : Run (palera1ndHandler headBoardPeer resumeRequest registeredState).run
    [⟨.killPid 200 .sigcont, .ok ()⟩, ⟨.sendReply [], .ok ()⟩] (.ok plainState) :=
  run_drive success _

theorem handleRegister_registering : Step payloadPeer headBoardPeer
    ⟨.registering, .starting, plainState⟩ .handleRegister
    ⟨.registered, .starting, registeredState⟩ :=
  Step.handleRegister (s := ⟨.registering, .starting, plainState⟩) rfl handles_register

theorem handleResume_stopped : Step payloadPeer headBoardPeer
    ⟨.stopped, .resuming, registeredState⟩ .handleResume ⟨.resumed, .done, plainState⟩ :=
  Step.handleResume (s := ⟨.stopped, .resuming, registeredState⟩) rfl handles_resume

theorem handleResume_registered : Step payloadPeer headBoardPeer
    ⟨.registered, .resuming, registeredState⟩ .handleResume ⟨.registered, .done, plainState⟩ :=
  Step.handleResume (s := ⟨.registered, .resuming, registeredState⟩) rfl handles_resume

/-- The payload stops before HeadBoard starts. -/
def timelyRun : List (Action × Parties) :=
  [(.register, ⟨.registering, .starting, plainState⟩),
    (.handleRegister, ⟨.registered, .starting, registeredState⟩),
    (.stop, ⟨.stopped, .starting, registeredState⟩),
    (.resume, ⟨.stopped, .resuming, registeredState⟩),
    (.handleResume, ⟨.resumed, .done, plainState⟩)]

theorem wakeup_not_lost_timely : timelyRun.Forall fun p => ¬Lost p.2 := by
  have hrun : IsRun (Step payloadPeer headBoardPeer) ⟨.starting, .starting, plainState⟩
      timelyRun :=
    ⟨.register rfl, handleRegister_registering, .stop rfl, .resume rfl,
      handleResume_stopped, trivial⟩
  have hinTime : Meets InTime ⟨.starting, .starting, plainState⟩ timelyRun :=
    ⟨fun h => (by cases h), fun h => (by cases h), fun h => (by cases h), fun h => (by cases h),
      fun _ => rfl, trivial⟩
  exact List.forall_iff_forall_mem.mpr
    (wakeup_not_lost payloadPeer_holds (by decide) rfl hrun hinTime)

/-- The request to resume is handled between the registration and the stop. -/
theorem wakeup_lost_between :
    ∃ run, IsRun (Step payloadPeer headBoardPeer) ⟨.starting, .starting, plainState⟩ run ∧
      ∃ p ∈ run, Lost p.2 := by
  refine ⟨[(.register, ⟨.registering, .starting, plainState⟩),
    (.handleRegister, ⟨.registered, .starting, registeredState⟩),
    (.resume, ⟨.registered, .resuming, registeredState⟩),
    (.handleResume, ⟨.registered, .done, plainState⟩),
    (.stop, ⟨.stopped, .done, plainState⟩)], ?_, ?_⟩
  · exact ⟨.register rfl, handleRegister_registering, .resume rfl,
      handleResume_registered, .stop rfl, trivial⟩
  · exact ⟨_, List.mem_of_getLast? rfl, rfl, rfl⟩

end Jbinit.Palera1nd

import Jbinit.Foundations.Transitions
import Jbinit.Palera1nd.Operations
import Jbinit.Palera1nd.WriteLog

/-!
# Running a command

`runcmd` with everything that goes on at the same time: the command, the processes that it leaves
behind, and the two threads that read what they write (`write_log`). In every order of their steps a
descriptor, a thread or a status is used only while it is there, and closed or joined once, exactly
when `pipe`, `pthread_create` and `waitpid` do not fail, which `runcmd` does not check
(`runcmd_descriptors`).
-/

namespace Jbinit.Palera1nd.Runcmd

open Foundations Calls Transitions LittleEndian

inductive Stream
  | stdout
  | stderr
  deriving DecidableEq, Repr

/-! ## What palera1nd does -/

inductive Descriptor
  | unopened
  | opened
  | closed
  deriving DecidableEq, Repr

/-- `pipe`, `createThread` and `waitpid` can fail, and are not checked. -/
inductive Action
  | pipe (c : Stream)
  /-- `posix_spawn`, with `POSIX_SPAWN_START_SUSPENDED`. -/
  | spawn
  | closeWrite (c : Stream)
  | setRetval
  | createThread (c : Stream)
  /-- `kill(pid, SIGCONT)`. -/
  | resume
  | waitpid
  | cancel (c : Stream)
  | closeRead (c : Stream)
  | join (c : Stream)
  | setStatus
  deriving DecidableEq, Repr

/-- What there is still to do; `retval` is tested once. -/
inductive Code
  | ret
  | call (a : Action) (next : Code)
  | ifRetval (failed spawned : Code)

/-- Calls one after the other. -/
def Code.calls (as : List Action) (next : Code) : Code := as.foldr Code.call next

/-- `runcmd`, behind the arrays. -/
def runcmdCode : Code :=
  .calls [.pipe .stdout, .pipe .stderr, .spawn, .closeWrite .stdout, .closeWrite .stderr, .setRetval] <|
    .ifRetval
      (.calls [.closeRead .stdout, .closeRead .stderr] .ret)
      (.calls [.createThread .stdout, .createThread .stderr, .resume, .waitpid,
        .cancel .stdout, .cancel .stderr, .closeRead .stdout, .closeRead .stderr,
        .join .stdout, .join .stderr, .setStatus] .ret)

/-- The descriptors of a pipe, and its thread. -/
structure Ends where
  readEnd : Descriptor := .unopened
  writeEnd : Descriptor := .unopened
  created : Bool := false
  cancelled : Bool := false
  joined : Bool := false

/-- How far palera1nd is. -/
structure Control where
  ends : Stream → Ends := fun _ => {}
  spawned : Bool := false
  /-- The branch that has been taken. -/
  branch : Option Bool := none
  resumed : Bool := false
  waited : Bool := false
  retvalSet : Bool := false
  statusSet : Bool := false

def Control.setEnds (k : Control) (c : Stream) (e : Ends) : Control :=
  { k with ends := Function.update k.ends c e }

def Action.unchecked : Action → Bool
  | .pipe _ | .createThread _ | .waitpid => true
  | _ => false

/-- What an action changes, when it does not fail. -/
def Action.effect (k : Control) : Action → Control
  | .pipe c => k.setEnds c { k.ends c with readEnd := .opened, writeEnd := .opened }
  | .spawn => { k with spawned := true }
  | .closeWrite c => k.setEnds c { k.ends c with writeEnd := .closed }
  | .setRetval => { k with retvalSet := true }
  | .createThread c => k.setEnds c { k.ends c with created := true }
  | .resume => { k with resumed := true }
  | .waitpid => { k with waited := true }
  | .cancel c => k.setEnds c { k.ends c with cancelled := true }
  | .closeRead c => k.setEnds c { k.ends c with readEnd := .closed }
  | .join c => k.setEnds c { k.ends c with joined := true }
  | .setStatus => { k with statusSet := true }

/-! ## What goes on at the same time -/

/-- A thread of `write_log`. -/
inductive Logger
  | none
  /-- It is about to call `read`. -/
  | looping
  | inRead
  /-- `read` has returned these bytes. -/
  | logging (bytes : List Byte)
  | exited
  deriving DecidableEq

def Logger.hand : Logger → List Byte
  | .logging bytes => bytes
  | _ => []

/-- A pipe with its thread, and what has become of the bytes that were written to it. -/
structure Channel where
  pipe : List Byte := []
  logger : Logger := .none
  written : List Byte := []
  /-- What the calls of `read` have returned that was given to the logger. -/
  reads : List (List Byte) := []
  lost : List Byte := []

/-- What is written to a pipe at once. -/
def pipeBuf : ℕ := 512

/-- What is left of a `write`. -/
structure Write where
  bytes : List Byte
  atomic : Bool
  nonempty : bytes ≠ []
  small : atomic = true → bytes.length ≤ pipeBuf
  deriving DecidableEq, Repr

def Write.start (bytes : List Byte) (h : bytes ≠ []) : Write :=
  ⟨bytes, bytes.length ≤ pipeBuf, h, of_decide_eq_true⟩

theorem Write.drop_ne_nil {w : Write} {n : ℕ} (h : n < w.bytes.length) : w.bytes.drop n ≠ [] := by
  intro hnil
  have hlength := congrArg List.length hnil
  rw [List.length_drop, List.length_nil] at hlength
  omega

theorem Write.small_drop (w : Write) (n : ℕ) (hatomic : w.atomic = true) :
    (w.bytes.drop n).length ≤ pipeBuf :=
  Nat.le_trans (List.length_drop ▸ Nat.sub_le _ n) (w.small hatomic)

/-- What is left behind the first bytes. -/
def Write.rest (w : Write) (n : ℕ) : Option Write :=
  if h : n < w.bytes.length then
    some ⟨w.bytes.drop n, w.atomic, Write.drop_ne_nil h, w.small_drop n⟩
  else none

inductive Child
  | none
  | suspended
  | running
  | writing (c : Stream) (w : Write)
  | exited (status : ℕ)
  deriving DecidableEq, Repr

/-- The command when some of its bytes are in the pipe. -/
def Child.afterPut (c : Stream) (w : Write) (n : ℕ) : Child :=
  match w.rest n with
  | .some w => .writing c w
  | .none => .running

theorem Child.afterPut_ne (c : Stream) (w : Write) (n : ℕ) :
    Child.afterPut c w n ≠ .none ∧ Child.afterPut c w n ≠ .suspended := by
  unfold Child.afterPut
  split <;> simp

def Child.alive : Child → Bool
  | .none | .exited _ => false
  | _ => true

structure State where
  code : Code
  control : Control := {}
  channel : Stream → Channel := fun _ => {}
  child : Child := .none
  /-- Other processes have the ends for writing. -/
  others : Bool := false
  retval : ℤ := 0
  status : ℕ := 0
  reply : Dict

def start (reply : Dict) : State := { code := runcmdCode, reply := reply }

def State.setChannel (s : State) (c : Stream) (ch : Channel) : State :=
  { s with channel := Function.update s.channel c ch }

inductive Label
  /-- The next action of palera1nd, with what `posix_spawn` returns if it is that. -/
  | palera1nd (retval : ℤ)
  /-- The next action of palera1nd fails, and is not checked. -/
  | fail
  | enterRead (c : Stream)
  | readData (c : Stream) (n : ℕ)
  | readEof (c : Stream)
  | readFail (c : Stream)
  | log (c : Stream)
  /-- The thread acts on its cancellation: in front of `read`, in it, or while it logs. -/
  | stop (c : Stream)
  /-- The command calls `write`. -/
  | write (c : Stream) (bytes : List Byte)
  /-- Some of what the command writes gets into the pipe. -/
  | put (c : Stream) (n : ℕ)
  /-- A signal, or a pipe without a reader, ends the `write`. -/
  | interrupt
  | othersWrite (c : Stream) (bytes : List Byte)
  | fork
  | othersExit
  | exit (status : ℕ)
  /-- A signal ends the command. -/
  | kill (status : ℕ)

/-- What an action needs, and what it does outside of palera1nd. -/
def perform (s : State) (retval : ℤ) : Action → Option State
  | .spawn => some { s with retval := retval, child := if retval = 0 then .suspended else .none }
  | .setRetval => some { s with reply := s.reply.set "retval" (.int64 s.retval) }
  | .createThread c => some (s.setChannel c { s.channel c with logger := .looping })
  | .resume => some { s with child := if s.child = .suspended then .running else s.child }
  | .waitpid =>
    match s.child with
    | .exited status => some { s with status := status }
    | _ => none
  | .closeRead c =>
    some (s.setChannel c { s.channel c with pipe := [], lost := (s.channel c).lost ++ (s.channel c).pipe })
  | .join c => if (s.channel c).logger = .exited then some s else none
  | .setStatus => some { s with reply := s.reply.set "status" (.int64 (s.status : ℤ)) }
  | .pipe _ => some s
  | .closeWrite _ => some s
  | .cancel _ => some s

def State.take (s : State) (branch : Bool) (code : Code) : State :=
  { s with code := code, control := { s.control with branch := some branch } }

def advance (s : State) (retval : ℤ) : Option State :=
  match s.code with
  | .ret => none
  | .call a next => (perform s retval a).map fun s =>
    { s with code := next, control := a.effect s.control }
  | .ifRetval failed spawned =>
    if s.retval ≠ 0 then some (s.take false failed) else some (s.take true spawned)

def advanceFailing (s : State) : Option State :=
  match s.code with
  | .call a next => if a.unchecked then some { s with code := next } else none
  | _ => none

/-- Some process other than palera1nd has the end for writing. -/
def State.hasWriter (s : State) : Bool := s.child.alive || s.others

@[simp] theorem setChannel_channel_self (s : State) (c : Stream) (ch : Channel) :
    (s.setChannel c ch).channel c = ch := Function.update_self _ _ _

theorem setChannel_channel_of_ne (s : State) {c c' : Stream} (h : c' ≠ c) (ch : Channel) :
    (s.setChannel c ch).channel c' = s.channel c' := Function.update_of_ne h _ _

@[simp] theorem setEnds_ends_self (k : Control) (c : Stream) (e : Ends) :
    (k.setEnds c e).ends c = e := Function.update_self _ _ _

theorem setEnds_ends_of_ne (k : Control) {c c' : Stream} (h : c' ≠ c) (e : Ends) :
    (k.setEnds c e).ends c' = k.ends c' := Function.update_of_ne h _ _

variable (capacity : ℕ)

def step (s : State) : Label → Option State
  | .palera1nd retval => advance s retval
  | .fail => advanceFailing s
  | .enterRead c =>
    if (s.channel c).logger = .looping ∧ (s.control.ends c).cancelled = false then
      some (s.setChannel c { s.channel c with logger := .inRead })
    else none
  | .readData c n =>
    if (s.channel c).logger = .inRead ∧ (s.control.ends c).readEnd = .opened ∧ 0 < n ∧ n ≤ bufSize ∧
        n ≤ (s.channel c).pipe.length then
      some (s.setChannel c { s.channel c with
        pipe := (s.channel c).pipe.drop n
        logger := .logging ((s.channel c).pipe.take n) })
    else none
  | .readEof c =>
    if (s.channel c).logger = .inRead ∧ (s.control.ends c).readEnd = .opened ∧
        (s.channel c).pipe = [] ∧ (s.control.ends c).writeEnd ≠ .opened ∧ s.hasWriter = false then
      some (s.setChannel c { s.channel c with logger := .looping })
    else none
  | .readFail c =>
    if (s.channel c).logger = .inRead ∧ (s.control.ends c).readEnd ≠ .opened then
      some (s.setChannel c { s.channel c with logger := .exited })
    else none
  | .log c =>
    match (s.channel c).logger with
    | .logging bytes => some (s.setChannel c { s.channel c with
        logger := .looping, reads := (s.channel c).reads ++ [bytes] })
    | _ => none
  | .stop c =>
    if (s.control.ends c).cancelled ∧ (s.channel c).logger ≠ .none ∧ (s.channel c).logger ≠ .exited then
      some (s.setChannel c { s.channel c with
        logger := .exited, lost := (s.channel c).logger.hand ++ (s.channel c).lost })
    else none
  | .write c bytes =>
    if h : s.child = .running ∧ bytes ≠ [] then
      some { s with child := .writing c (.start bytes h.2) }
    else none
  | .put c n =>
    match s.child with
    | .writing c' w =>
      if c' = c ∧ 0 < n ∧ n ≤ w.bytes.length ∧ (w.atomic → n = w.bytes.length) ∧
          (s.control.ends c).readEnd = .opened ∧ (s.channel c).pipe.length + n ≤ capacity then
        some { s.setChannel c { s.channel c with
            pipe := (s.channel c).pipe ++ w.bytes.take n
            written := (s.channel c).written ++ w.bytes.take n } with
          child := .afterPut c w n }
      else none
    | _ => none
  | .interrupt =>
    match s.child with
    | .writing _ _ => some { s with child := .running }
    | _ => none
  | .othersWrite c bytes =>
    if s.others ∧ (s.control.ends c).readEnd = .opened ∧
        (s.channel c).pipe.length + bytes.length ≤ capacity then
      some (s.setChannel c { s.channel c with
        pipe := (s.channel c).pipe ++ bytes, written := (s.channel c).written ++ bytes })
    else none
  | .fork => if s.child = .running ∨ s.others then some { s with others := true } else none
  | .othersExit => some { s with others := false }
  | .exit status => if s.child = .running then some { s with child := .exited status } else none
  | .kill status => if s.child.alive then some { s with child := .exited status } else none

def Step (s : State) (l : Label) (s' : State) : Prop := step capacity s l = some s'

/-! ## A check of the code -/

def allStreams (p : Stream → Bool) : Bool := p .stdout && p .stderr

theorem allStreams_iff {p : Stream → Bool} : allStreams p = true ↔ ∀ c, p c = true := by
  rw [allStreams, Bool.and_eq_true]
  exact ⟨fun h c => by cases c; exacts [h.1, h.2], fun h => ⟨h .stdout, h .stderr⟩⟩

/-- A thread that has not been cancelled reads from a descriptor that is open. -/
def Ends.sound (e : Ends) (branch : Option Bool) : Bool :=
  (!e.created || branch = some true && (e.cancelled || e.readEnd = .opened)) &&
    (!e.cancelled || e.created) && (!e.joined || e.cancelled)

def Control.sound (k : Control) : Bool :=
  allStreams (fun c => (k.ends c).sound k.branch) && (k.branch.isNone || k.spawned) &&
    (!k.waited || k.branch = some true) && (!k.retvalSet || k.spawned) &&
    (!k.statusSet || k.waited && k.retvalSet) && (!k.resumed || k.branch = some true)

/-- Descriptors, threads and the status are not used before they are there, and closed or joined
once. -/
def Action.allowed (k : Control) : Action → Bool
  | .pipe c => (k.ends c).readEnd = .unopened && (k.ends c).writeEnd = .unopened
  | .spawn => !k.spawned &&
      allStreams fun c => (k.ends c).readEnd = .opened && (k.ends c).writeEnd = .opened
  | .closeWrite c => (k.ends c).writeEnd = .opened
  | .setRetval => k.spawned && !k.retvalSet
  | .createThread c => (k.ends c).readEnd = .opened && !(k.ends c).created
  | .resume => k.branch = some true
  | .waitpid => k.branch = some true && !k.waited
  | .cancel c => (k.ends c).created && !(k.ends c).cancelled
  | .closeRead c => (k.ends c).readEnd = .opened
  | .join c => (k.ends c).cancelled && !(k.ends c).joined
  | .setStatus => k.waited && !k.statusSet

/-- The command runs and both threads read what it writes, when it is waited for. -/
def Action.drained (k : Control) : Action → Bool
  | .waitpid => k.resumed &&
      allStreams fun c => (k.ends c).created && !(k.ends c).cancelled && (k.ends c).readEnd = .opened
  | _ => true

/-- Everything is closed and joined. -/
def Control.finished (k : Control) : Bool :=
  allStreams (fun c => (k.ends c).readEnd = .closed && (k.ends c).writeEnd = .closed &&
    (k.ends c).created = (k.ends c).joined) &&
    k.retvalSet && k.branch.isSome && k.statusSet = (k.branch = some true)

/-- No way through the code keeps to what is allowed. -/
def Code.doomed : Code → Control → Bool
  | .ret, _ => false
  | .call a next, k =>
    !a.allowed k || next.doomed (a.effect k) && (!a.unchecked || next.doomed k)
  | .ifRetval failed spawned, k =>
    failed.doomed { k with branch := some false } && spawned.doomed { k with branch := some true }

def Code.safe : Code → Control → Bool
  | .ret, k => k.sound && k.finished
  | .call a next, k => k.sound && a.allowed k && a.drained k && next.safe (a.effect k) &&
      (!a.unchecked || next.doomed k)
  | .ifRetval failed spawned, k => k.sound && k.spawned &&
      failed.safe { k with branch := some false } && spawned.safe { k with branch := some true }

theorem safe_runcmdCode : runcmdCode.safe {} = true := by decide +kernel

theorem Code.safe_sound {code : Code} {k : Control} (h : code.safe k = true) : k.sound = true := by
  cases code <;> simp only [Code.safe, Bool.and_eq_true] at h
  · exact h.1
  · exact h.1.1.1.1
  · exact h.1.1.1

/-! ## The invariant -/

/-- What has been written is what was logged, what a thread has in its hand, what is lost and what is
in the pipe, in this order. -/
structure ChannelInv (e : Ends) (ch : Channel) : Prop where
  logger : ch.logger = .none ↔ e.created = false
  joined : e.joined = true → ch.logger = .exited
  alive : e.cancelled = false → e.readEnd = .opened → ch.logger ≠ .exited
  conserved : ch.written = ch.reads.flatten ++ (ch.logger.hand ++ (ch.lost ++ ch.pipe))
  kept : e.readEnd ≠ .closed → ch.logger ≠ .exited → ch.lost = []
  unread : e.readEnd ≠ .opened → ch.pipe = []
  /-- No call of `read` returns more than there is room for. -/
  sizes : ∀ bytes, bytes ∈ ch.reads ∨ ch.logger = .logging bytes →
    0 < bytes.length ∧ bytes.length ≤ bufSize

def replyOf (base : Dict) (s : State) : Dict :=
  let reply := if s.control.retvalSet then base.set "retval" (.int64 s.retval) else base
  if s.control.statusSet then reply.set "status" (.int64 (s.status : ℤ)) else reply

structure Inv (base : Dict) (s : State) : Prop where
  safe : s.code.safe s.control = true
  channels : ∀ c, ChannelInv (s.control.ends c) (s.channel c)
  child : s.control.spawned = true → (s.retval = 0 ↔ s.child ≠ .none)
  branch : ∀ b, s.control.branch = some b → (b = true ↔ s.retval = 0)
  resumed : s.control.resumed = true → s.child ≠ .suspended
  waited : s.control.waited = true → s.child = .exited s.status
  reply : s.reply = replyOf base s

theorem inv_start (base : Dict) : Inv base (start base) where
  safe := safe_runcmdCode
  channels _ :=
    { logger := iff_of_true rfl rfl
      joined := (nomatch ·)
      alive := fun _ h => nomatch h
      conserved := rfl
      kept := fun _ _ => rfl
      unread := fun _ => rfl
      sizes := fun _ h => h.elim (fun hmem => absurd hmem List.not_mem_nil) (nomatch ·) }
  child h := nomatch h
  branch _ h := nomatch h
  resumed h := nomatch h
  waited h := nomatch h
  reply := rfl

variable {base : Dict} {s s' : State} {capacity}

/-- Only one pipe is concerned. -/
theorem channels_of_update {P : Ends → Channel → Prop} {ends ends' : Stream → Ends}
    {channel channel' : Stream → Channel} (h : ∀ c, P (ends c) (channel c)) (c : Stream)
    (hends : ∀ c', c' ≠ c → ends' c' = ends c') (hchannel : ∀ c', c' ≠ c → channel' c' = channel c')
    (hself : P (ends' c) (channel' c)) : ∀ c, P (ends' c) (channel' c) := by
  intro c'
  by_cases hc : c' = c
  · rw [hc]
    exact hself
  · rw [hends c' hc, hchannel c' hc]
    exact h c'

/-- A step of a thread or of a writer. -/
theorem Inv.setChannel (h : Inv base s) (c : Stream) {ch : Channel}
    (hch : ChannelInv (s.control.ends c) ch) : Inv base (s.setChannel c ch) where
  safe := h.safe
  channels := channels_of_update h.channels c (fun _ _ => rfl)
    (fun _ hne => setChannel_channel_of_ne s hne ch) ((setChannel_channel_self s c ch).symm ▸ hch)
  child := h.child
  branch := h.branch
  resumed := h.resumed
  waited := h.waited
  reply := h.reply

/-- What the check says of a state in which a thread is reading. -/
theorem Inv.sound (h : Inv base s) (c : Stream) : (s.control.ends c).sound s.control.branch = true := by
  have hsound := Code.safe_sound h.safe
  simp only [Control.sound, Bool.and_eq_true] at hsound
  exact allStreams_iff.mp hsound.1.1.1.1.1 c

theorem Inv.created (h : Inv base s) {c : Stream} (hlogger : (s.channel c).logger ≠ .none) :
    (s.control.ends c).created = true := by
  by_contra hcreated
  exact hlogger ((h.channels c).logger.mpr (by simpa using hcreated))

/-- **A thread only calls `read` while its descriptor is open**: it is cancelled before that is
closed. -/
theorem Inv.readEnd_of_not_cancelled (h : Inv base s) {c : Stream}
    (hlogger : (s.channel c).logger ≠ .none) (hcancelled : (s.control.ends c).cancelled = false) :
    (s.control.ends c).readEnd = .opened := by
  have hsound := h.sound c
  rw [Ends.sound, h.created hlogger, hcancelled] at hsound
  simp only [Bool.not_true, Bool.false_or, Bool.and_eq_true, decide_eq_true_eq] at hsound
  exact hsound.1.1.2

/-- A thread that has not ended goes on, or ends. -/
theorem ChannelInv.next {e : Ends} {ch ch' : Channel} (hc : ChannelInv e ch) (hnone : ch.logger ≠ .none)
    (hexited : ch.logger ≠ .exited) (hnone' : ch'.logger ≠ .none)
    (halive : ch'.logger = .exited → e.cancelled = true ∨ e.readEnd ≠ .opened)
    (hconserved : ch'.written = ch'.reads.flatten ++ (ch'.logger.hand ++ (ch'.lost ++ ch'.pipe)))
    (hlost : ch'.logger ≠ .exited → ch'.lost = ch.lost) (hpipe : ch.pipe = [] → ch'.pipe = [])
    (hsizes : ∀ bytes, bytes ∈ ch'.reads ∨ ch'.logger = .logging bytes →
      0 < bytes.length ∧ bytes.length ≤ bufSize) :
    ChannelInv e ch' where
  logger := by
    have hcreated : ¬e.created = false := fun h => hnone (hc.logger.mpr h)
    exact iff_of_false hnone' hcreated
  joined hjoined := absurd (hc.joined hjoined) hexited
  alive hcancelled hopened hend := by
    rcases halive hend with hcancelled' | hopened'
    · rw [hcancelled] at hcancelled'
      cases hcancelled'
    · exact hopened' hopened
  conserved := hconserved
  kept hclosed hexited' := (hlost hexited').trans (hc.kept hclosed hexited)
  unread hopened := hpipe (hc.unread hopened)
  sizes := hsizes

/-- A thread that has nothing in its hand. -/
theorem ChannelInv.next_of_hand {e : Ends} {ch : Channel} (hc : ChannelInv e ch) {logger : Logger}
    (hnone : ch.logger ≠ .none) (hexited : ch.logger ≠ .exited) (hhand : ch.logger.hand = [])
    (hnone' : logger ≠ .none)
    (halive : logger = .exited → e.cancelled = true ∨ e.readEnd ≠ .opened)
    (hhand' : ∀ bytes, logger ≠ .logging bytes) : ChannelInv e { ch with logger } := by
  refine hc.next hnone hexited hnone' halive ?_ (fun _ => rfl) id fun bytes hbytes => ?_
  · have hconserved := hc.conserved
    rw [hhand] at hconserved
    have hempty : logger.hand = [] := by
      cases logger with
      | logging bytes => exact absurd rfl (hhand' bytes)
      | _ => rfl
    rw [hempty]
    exact hconserved
  · exact hc.sizes bytes (.inl (hbytes.resolve_right (hhand' bytes)))

theorem Inv.enterRead (h : Inv base s) {c : Stream} (hs : step capacity s (.enterRead c) = some s') :
    Inv base s' := by
  simp only [step, Option.ite_none_right_eq_some, Option.some.injEq] at hs
  obtain ⟨⟨hlogger, -⟩, rfl⟩ := hs
  exact h.setChannel c ((h.channels c).next_of_hand (by simp [hlogger]) (by simp [hlogger])
    (by simp [hlogger, Logger.hand]) (by simp) (by simp) (by simp))

/-- What is read was the first that there was in the pipe. -/
theorem Inv.readData (h : Inv base s) {c : Stream} {n : ℕ}
    (hs : step capacity s (.readData c n) = some s') : Inv base s' := by
  have hc := h.channels c
  simp only [step, Option.ite_none_right_eq_some, Option.some.injEq] at hs
  obtain ⟨⟨hlogger, hopened, hpos, hsize, hlength⟩, rfl⟩ := hs
  have hlost : (s.channel c).lost = [] :=
    hc.kept (by rw [hopened]; decide) (by rw [hlogger]; decide)
  have hconserved := hc.conserved
  rw [hlogger, hlost, ← List.take_append_drop n (s.channel c).pipe] at hconserved
  refine h.setChannel c (hc.next (by simp [hlogger]) (by simp [hlogger]) (by simp) (by simp) ?_
    (fun _ => rfl) (fun hpipe => ?_) fun bytes hbytes => ?_)
  · rw [hconserved, hlost]
    rfl
  · rw [hpipe]
    exact List.drop_nil
  · rcases hbytes with hmem | hhand
    · exact hc.sizes bytes (.inl hmem)
    · obtain rfl := Logger.logging.inj hhand
      rw [List.length_take]
      omega

theorem Inv.readEof (h : Inv base s) {c : Stream} (hs : step capacity s (.readEof c) = some s') :
    Inv base s' := by
  simp only [step, Option.ite_none_right_eq_some, Option.some.injEq] at hs
  obtain ⟨⟨hlogger, -⟩, rfl⟩ := hs
  exact h.setChannel c ((h.channels c).next_of_hand (by simp [hlogger]) (by simp [hlogger])
    (by simp [hlogger, Logger.hand]) (by simp) (by simp) (by simp))

theorem Inv.readFail (h : Inv base s) {c : Stream} (hs : step capacity s (.readFail c) = some s') :
    Inv base s' := by
  simp only [step, Option.ite_none_right_eq_some, Option.some.injEq] at hs
  obtain ⟨⟨hlogger, hclosed⟩, rfl⟩ := hs
  exact h.setChannel c ((h.channels c).next_of_hand (by simp [hlogger]) (by simp [hlogger])
    (by simp [hlogger, Logger.hand]) (by simp) (fun _ => .inr hclosed) (by simp))

theorem Inv.log (h : Inv base s) {c : Stream} (hs : step capacity s (.log c) = some s') :
    Inv base s' := by
  have hc := h.channels c
  simp only [step] at hs
  split at hs
  next bytes hlogger =>
    obtain rfl := Option.some.inj hs
    have hconserved := hc.conserved
    rw [hlogger] at hconserved
    refine h.setChannel c (hc.next (by simp [hlogger]) (by simp [hlogger]) (by simp) (by simp) ?_
      (fun _ => rfl) id fun bytes' hbytes => ?_)
    · rw [hconserved, List.flatten_append, List.append_assoc]
      simp [Logger.hand]
    · rcases hbytes with hmem | hhand
      · rcases List.mem_append.mp hmem with hmem | hmem
        · exact hc.sizes bytes' (.inl hmem)
        · rw [List.mem_singleton.mp hmem]
          exact hc.sizes bytes (.inr hlogger)
      · cases hhand
  next => cases hs

/-- A thread that is cancelled loses what it has in its hand. -/
theorem Inv.stop (h : Inv base s) {c : Stream} (hs : step capacity s (.stop c) = some s') :
    Inv base s' := by
  have hc := h.channels c
  simp only [step, Option.ite_none_right_eq_some, Option.some.injEq] at hs
  obtain ⟨⟨hcancelled, hnone, hexited⟩, rfl⟩ := hs
  refine h.setChannel c (hc.next hnone hexited (by simp) (fun _ => .inl hcancelled) ?_
    (fun h => absurd rfl h) id fun bytes hbytes => ?_)
  · rw [hc.conserved, List.append_assoc]
    rfl
  · exact hc.sizes bytes (.inl (hbytes.resolve_right (by simp)))

/-- What gets into a pipe that is open. -/
theorem ChannelInv.put {e : Ends} {ch : Channel} (hc : ChannelInv e ch) (hopened : e.readEnd = .opened)
    (bytes : List Byte) :
    ChannelInv e { ch with pipe := ch.pipe ++ bytes, written := ch.written ++ bytes } where
  logger := hc.logger
  joined := hc.joined
  alive := hc.alive
  conserved := by
    rw [hc.conserved]
    simp only [List.append_assoc]
  kept := hc.kept
  unread hne := absurd hopened hne
  sizes := hc.sizes

theorem Inv.othersWrite (h : Inv base s) {c : Stream} {bytes : List Byte}
    (hs : step capacity s (.othersWrite c bytes) = some s') : Inv base s' := by
  simp only [step, Option.ite_none_right_eq_some, Option.some.injEq] at hs
  obtain ⟨⟨-, hopened, -⟩, rfl⟩ := hs
  exact h.setChannel c ((h.channels c).put hopened bytes)

/-! ## The command -/

/-- Something happens to a command that has been spawned and has not exited. -/
theorem Inv.setChild (h : Inv base s) (halive : s.child.alive = true) {child : Child}
    (hnone : child ≠ .none) (hsuspended : child ≠ .suspended) : Inv base { s with child } where
  safe := h.safe
  channels := h.channels
  child hspawned := by
    rw [h.child hspawned]
    have hne : s.child ≠ .none := fun hnone => by simp [hnone, Child.alive] at halive
    exact iff_of_true hne hnone
  branch := h.branch
  resumed _ := hsuspended
  waited hwaited := by
    rw [h.waited hwaited] at halive
    exact absurd halive Bool.false_ne_true
  reply := h.reply

theorem Inv.write (h : Inv base s) {c : Stream} {bytes : List Byte}
    (hs : step capacity s (.write c bytes) = some s') : Inv base s' := by
  simp only [step] at hs
  split at hs
  next hrunning =>
    cases hs
    exact h.setChild (by rw [hrunning.1]; rfl) (by simp) (by simp)
  next => cases hs

theorem Inv.put (h : Inv base s) {c : Stream} {n : ℕ} (hs : step capacity s (.put c n) = some s') :
    Inv base s' := by
  simp only [step] at hs
  split at hs
  next c' w hwriting =>
    simp only [Option.ite_none_right_eq_some, Option.some.injEq] at hs
    obtain ⟨⟨rfl, -, -, -, hopened, -⟩, rfl⟩ := hs
    have halive : s.child.alive = true := by rw [hwriting]; rfl
    obtain ⟨hnone, hsuspended⟩ := Child.afterPut_ne c' w n
    exact (h.setChannel c' ((h.channels c').put hopened (w.bytes.take n))).setChild halive hnone
      hsuspended
  next => cases hs

theorem Inv.interrupt (h : Inv base s) (hs : step capacity s .interrupt = some s') : Inv base s' := by
  simp only [step] at hs
  split at hs
  next c w hwriting =>
    cases hs
    exact h.setChild (by rw [hwriting]; rfl) (by simp) (by simp)
  next => cases hs

theorem Inv.exit (h : Inv base s) {status : ℕ} (hs : step capacity s (.exit status) = some s') :
    Inv base s' := by
  simp only [step, Option.ite_none_right_eq_some, Option.some.injEq] at hs
  obtain ⟨hrunning, rfl⟩ := hs
  exact h.setChild (by rw [hrunning]; rfl) (by simp) (by simp)

theorem Inv.kill (h : Inv base s) {status : ℕ} (hs : step capacity s (.kill status) = some s') :
    Inv base s' := by
  simp only [step, Option.ite_none_right_eq_some, Option.some.injEq] at hs
  obtain ⟨halive, rfl⟩ := hs
  exact h.setChild halive (by simp) (by simp)

/-! ## The actions of palera1nd -/

theorem setChannel_self (s : State) (c : Stream) : s.setChannel c (s.channel c) = s := by
  rw [State.setChannel, Function.update_eq_self]

/-- An action on one pipe. -/
theorem Inv.setEnds (h : Inv base s) {next : Code} (c : Stream) {e : Ends} {ch : Channel}
    (hsafe : next.safe (s.control.setEnds c e) = true) (hch : ChannelInv e ch) :
    Inv base { s.setChannel c ch with code := next, control := s.control.setEnds c e } where
  safe := hsafe
  channels := by
    refine channels_of_update h.channels c (fun _ hne => setEnds_ends_of_ne _ hne _)
      (fun _ hne => setChannel_channel_of_ne s hne ch) ?_
    rw [setEnds_ends_self]
    exact (setChannel_channel_self s c ch).symm ▸ hch
  child := h.child
  branch := h.branch
  resumed := h.resumed
  waited := h.waited
  reply := h.reply

/-- The same, when the pipe and its thread stay as they are. -/
theorem Inv.setEnds_self (h : Inv base s) {next : Code} (c : Stream) {e : Ends}
    (hsafe : next.safe (s.control.setEnds c e) = true) (hch : ChannelInv e (s.channel c)) :
    Inv base { s with code := next, control := s.control.setEnds c e } := by
  have hset := h.setEnds c hsafe hch
  rwa [setChannel_self] at hset

/-- What the check says of the next action. -/
theorem Inv.allowed (h : Inv base s) {a : Action} {next : Code} (hcode : s.code = .call a next) :
    a.allowed s.control = true ∧ next.safe (a.effect s.control) = true := by
  have hsafe := h.safe
  rw [hcode] at hsafe
  simp only [Code.safe, Bool.and_eq_true] at hsafe
  exact ⟨hsafe.1.1.1.2, hsafe.1.2⟩

/-- What has not been done does not come before what has. -/
theorem Inv.order (h : Inv base s) : (s.control.spawned = false → s.control.branch = none) ∧
    (s.control.branch ≠ some true → s.control.waited = false) ∧
    (s.control.spawned = false → s.control.retvalSet = false) ∧
    (s.control.waited = false → s.control.statusSet = false) ∧
    (s.control.retvalSet = false → s.control.statusSet = false) := by
  have hsound := Code.safe_sound h.safe
  simp only [Control.sound, Bool.and_eq_true, Bool.or_eq_true, Bool.not_eq_true',
    Option.isNone_iff_eq_none, decide_eq_true_eq] at hsound
  obtain ⟨⟨⟨⟨⟨-, hbranch⟩, hwaited⟩, hretvalSet⟩, hstatusSet⟩, -⟩ := hsound
  refine ⟨fun h => ?_, fun h => ?_, fun h => ?_, fun h => ?_, fun h => ?_⟩
  · exact hbranch.resolve_right (by simp [h])
  · exact hwaited.resolve_right h
  · exact hretvalSet.resolve_right (by simp [h])
  · exact hstatusSet.resolve_right (by simp [h])
  · exact hstatusSet.resolve_right (by simp [h])

theorem Inv.resumed_eq_false (h : Inv base s) (hbranch : s.control.branch ≠ some true) :
    s.control.resumed = false := by
  have hsound := Code.safe_sound h.safe
  simp only [Control.sound, Bool.and_eq_true, Bool.or_eq_true, Bool.not_eq_true',
    decide_eq_true_eq] at hsound
  exact hsound.2.resolve_right hbranch

section Actions

variable {next : Code} {retval : ℤ} {s₁ : State}

/-- Something else about a descriptor or a thread changes. -/
theorem ChannelInv.setEnds {e e' : Ends} {ch : Channel} (hc : ChannelInv e ch)
    (hcreated : e'.created = e.created) (hjoined : e'.joined = true → ch.logger = .exited)
    (hcancelled : e'.cancelled = false → e.cancelled = false) (hreadEnd : e'.readEnd = e.readEnd) :
    ChannelInv e' ch where
  logger := by rw [hcreated, hc.logger]
  joined := hjoined
  alive hcancelled' hopened := hc.alive (hcancelled hcancelled') (hreadEnd ▸ hopened)
  conserved := hc.conserved
  kept hclosed := hc.kept (hreadEnd ▸ hclosed)
  unread hopened := hc.unread (hreadEnd ▸ hopened)
  sizes := hc.sizes

theorem Inv.call_pipe (h : Inv base s) {c : Stream} (hcode : s.code = .call (.pipe c) next)
    (hs : perform s retval (.pipe c) = some s₁) :
    Inv base { s₁ with code := next, control := Action.effect s₁.control (.pipe c) } := by
  obtain ⟨hallowed, hsafe⟩ := h.allowed hcode
  have hc := h.channels c
  cases hs
  simp only [Action.allowed, Bool.and_eq_true, decide_eq_true_eq] at hallowed
  have hkept := hc.kept (by rw [hallowed.1]; decide)
  refine h.setEnds_self c hsafe { hc with alive := ?_, kept := fun _ => hkept, unread := ?_ }
  · intro hcancelled _ hexited
    have hopened := h.readEnd_of_not_cancelled (by rw [hexited]; decide) hcancelled
    rw [hallowed.1] at hopened
    cases hopened
  · exact fun hne => absurd rfl hne

theorem Inv.call_closeWrite (h : Inv base s) {c : Stream} (hcode : s.code = .call (.closeWrite c) next)
    (hs : perform s retval (.closeWrite c) = some s₁) :
    Inv base { s₁ with code := next, control := Action.effect s₁.control (.closeWrite c) } := by
  have hc := h.channels c
  cases hs
  exact h.setEnds_self c (h.allowed hcode).2 (hc.setEnds rfl hc.joined id rfl)

theorem Inv.call_createThread (h : Inv base s) {c : Stream}
    (hcode : s.code = .call (.createThread c) next)
    (hs : perform s retval (.createThread c) = some s₁) :
    Inv base { s₁ with code := next, control := Action.effect s₁.control (.createThread c) } := by
  obtain ⟨hallowed, hsafe⟩ := h.allowed hcode
  have hc := h.channels c
  cases hs
  simp only [Action.allowed, Bool.and_eq_true, Bool.not_eq_true'] at hallowed
  have hnone := hc.logger.mpr hallowed.2
  have hconserved := hc.conserved
  rw [hnone] at hconserved
  refine h.setEnds c hsafe
    { logger := by simp
      joined := fun hjoined => ?_
      alive := by simp
      conserved := hconserved
      kept := fun hclosed _ => hc.kept hclosed (by rw [hnone]; decide)
      unread := hc.unread
      sizes := fun bytes hbytes => hc.sizes bytes (.inl (hbytes.resolve_right (by simp))) }
  have hexited := hc.joined hjoined
  rw [hnone] at hexited
  cases hexited

theorem Inv.call_cancel (h : Inv base s) {c : Stream} (hcode : s.code = .call (.cancel c) next)
    (hs : perform s retval (.cancel c) = some s₁) :
    Inv base { s₁ with code := next, control := Action.effect s₁.control (.cancel c) } := by
  have hc := h.channels c
  cases hs
  exact h.setEnds_self c (h.allowed hcode).2 (hc.setEnds rfl hc.joined (nomatch ·) rfl)

/-- What is in the pipe is lost. -/
theorem Inv.call_closeRead (h : Inv base s) {c : Stream} (hcode : s.code = .call (.closeRead c) next)
    (hs : perform s retval (.closeRead c) = some s₁) :
    Inv base { s₁ with code := next, control := Action.effect s₁.control (.closeRead c) } := by
  have hc := h.channels c
  cases hs
  refine h.setEnds c (h.allowed hcode).2
    { logger := hc.logger
      joined := hc.joined
      alive := fun _ hopened => nomatch hopened
      conserved := ?_
      kept := fun hne => absurd rfl hne
      unread := fun _ => rfl
      sizes := hc.sizes }
  rw [hc.conserved, List.append_nil]

theorem Inv.call_join (h : Inv base s) {c : Stream} (hcode : s.code = .call (.join c) next)
    (hs : perform s retval (.join c) = some s₁) :
    Inv base { s₁ with code := next, control := Action.effect s₁.control (.join c) } := by
  have hc := h.channels c
  simp only [perform, Option.ite_none_right_eq_some, Option.some.injEq] at hs
  obtain ⟨hexited, rfl⟩ := hs
  exact h.setEnds_self c (h.allowed hcode).2 (hc.setEnds rfl (fun _ => hexited) id rfl)

theorem Inv.call_spawn (h : Inv base s) (hcode : s.code = .call .spawn next)
    (hs : perform s retval .spawn = some s₁) :
    Inv base { s₁ with code := next, control := Action.effect s₁.control .spawn } := by
  obtain ⟨hallowed, hsafe⟩ := h.allowed hcode
  obtain ⟨hbranch, hwaited, hretvalSet, hstatusSet, -⟩ := h.order
  cases hs
  simp only [Action.allowed, Bool.and_eq_true, Bool.not_eq_true'] at hallowed
  have hnone := hbranch hallowed.1
  have hnotWaited := hwaited (by rw [hnone]; decide)
  have hreply := h.reply
  have hnotResumed := h.resumed_eq_false (by rw [hnone]; decide)
  rw [replyOf, hretvalSet hallowed.1, hstatusSet hnotWaited] at hreply
  refine ⟨hsafe, h.channels, fun _ => ?_, fun b hb => ?_, fun hr => ?_, fun hw => ?_, ?_⟩
  · by_cases hzero : retval = 0 <;> simp [hzero]
  · exact absurd hb (by simp [Action.effect, hnone])
  · exact absurd hr (by simp [Action.effect, hnotResumed])
  · exact absurd hw (by simp [Action.effect, hnotWaited])
  · simp only [replyOf, Action.effect, hretvalSet hallowed.1, hstatusSet hnotWaited]
    exact hreply

theorem Inv.call_setRetval (h : Inv base s) (hcode : s.code = .call .setRetval next)
    (hs : perform s retval .setRetval = some s₁) :
    Inv base { s₁ with code := next, control := Action.effect s₁.control .setRetval } := by
  obtain ⟨hallowed, hsafe⟩ := h.allowed hcode
  have hstatusSet := h.order.2.2.2.2
  have hreply := h.reply
  cases hs
  simp only [Action.allowed, Bool.and_eq_true, Bool.not_eq_true'] at hallowed
  rw [replyOf, hallowed.2, hstatusSet hallowed.2] at hreply
  refine ⟨hsafe, h.channels, h.child, h.branch, h.resumed, h.waited, ?_⟩
  simp only [replyOf, Action.effect, hstatusSet hallowed.2, hreply]
  rfl

theorem Inv.call_resume (h : Inv base s) (hcode : s.code = .call .resume next)
    (hs : perform s retval .resume = some s₁) :
    Inv base { s₁ with code := next, control := Action.effect s₁.control .resume } := by
  cases hs
  refine ⟨(h.allowed hcode).2, h.channels, fun hspawned => ?_, h.branch, fun _ => ?_,
    fun hwaited => ?_, h.reply⟩
  · rw [h.child hspawned]
    by_cases hsuspended : s.child = .suspended <;> simp [hsuspended]
  · by_cases hsuspended : s.child = .suspended <;> simp [hsuspended]
  · have hexited := h.waited hwaited
    simp [hexited]

theorem Inv.call_waitpid (h : Inv base s) (hcode : s.code = .call .waitpid next)
    (hs : perform s retval .waitpid = some s₁) :
    Inv base { s₁ with code := next, control := Action.effect s₁.control .waitpid } := by
  obtain ⟨hallowed, hsafe⟩ := h.allowed hcode
  have hstatusSet := h.order.2.2.2.1
  have hreply := h.reply
  simp only [Action.allowed, Bool.and_eq_true, Bool.not_eq_true'] at hallowed
  rw [replyOf, hstatusSet hallowed.2] at hreply
  simp only [perform] at hs
  split at hs
  next status hexited =>
    cases hs
    refine ⟨hsafe, h.channels, h.child, h.branch, h.resumed, fun _ => hexited, ?_⟩
    simp only [replyOf, Action.effect, hstatusSet hallowed.2]
    exact hreply
  next => cases hs

theorem Inv.call_setStatus (h : Inv base s) (hcode : s.code = .call .setStatus next)
    (hs : perform s retval .setStatus = some s₁) :
    Inv base { s₁ with code := next, control := Action.effect s₁.control .setStatus } := by
  obtain ⟨hallowed, hsafe⟩ := h.allowed hcode
  have hreply := h.reply
  cases hs
  simp only [Action.allowed, Bool.and_eq_true, Bool.not_eq_true'] at hallowed
  rw [replyOf, hallowed.2] at hreply
  refine ⟨hsafe, h.channels, h.child, h.branch, h.resumed, h.waited, ?_⟩
  simp only [replyOf, Action.effect, hreply]
  rfl

theorem Inv.call (h : Inv base s) {a : Action} (hcode : s.code = .call a next)
    (hs : perform s retval a = some s₁) :
    Inv base { s₁ with code := next, control := a.effect s₁.control } := by
  cases a with
  | pipe c => exact h.call_pipe hcode hs
  | spawn => exact h.call_spawn hcode hs
  | closeWrite c => exact h.call_closeWrite hcode hs
  | setRetval => exact h.call_setRetval hcode hs
  | createThread c => exact h.call_createThread hcode hs
  | resume => exact h.call_resume hcode hs
  | waitpid => exact h.call_waitpid hcode hs
  | cancel c => exact h.call_cancel hcode hs
  | closeRead c => exact h.call_closeRead hcode hs
  | join c => exact h.call_join hcode hs
  | setStatus => exact h.call_setStatus hcode hs

theorem Inv.take (h : Inv base s) {failed spawned : Code} (hcode : s.code = .ifRetval failed spawned) :
    (s.retval ≠ 0 → Inv base (s.take false failed)) ∧
      (s.retval = 0 → Inv base (s.take true spawned)) := by
  have hsafe := h.safe
  rw [hcode] at hsafe
  simp only [Code.safe, Bool.and_eq_true] at hsafe
  obtain ⟨⟨⟨-, -⟩, hfailed⟩, hspawned⟩ := hsafe
  refine ⟨fun hne => ⟨hfailed, h.channels, h.child, fun b hb => ?_, h.resumed, h.waited, h.reply⟩,
    fun heq => ⟨hspawned, h.channels, h.child, fun b hb => ?_, h.resumed, h.waited, h.reply⟩⟩
  · obtain rfl := Option.some.inj hb
    simp [State.take, hne]
  · obtain rfl := Option.some.inj hb
    simp [State.take, heq]

end Actions

theorem Inv.advance (h : Inv base s) {retval : ℤ} (hs : advance s retval = some s') : Inv base s' := by
  unfold Runcmd.advance at hs
  cases hcode : s.code with
  | ret => simp [hcode] at hs
  | call a next =>
    rw [hcode] at hs
    obtain ⟨s₁, hs₁, rfl⟩ := Option.map_eq_some_iff.mp hs
    exact h.call hcode hs₁
  | ifRetval failed spawned =>
    rw [hcode] at hs
    dsimp only at hs
    split at hs
    case isTrue hne => exact Option.some.inj hs ▸ (h.take hcode).1 hne
    case isFalse hne => exact Option.some.inj hs ▸ (h.take hcode).2 (not_not.mp hne)

/-- The step is not a failure. -/
def Succeeds (_ : State) (l : Label) : Prop := l ≠ .fail

/-- **Every step but a failure keeps the invariant.** -/
theorem Inv.step (h : Inv base s) {l : Label} (hl : Succeeds s l) (hs : Step capacity s l s') :
    Inv base s' := by
  unfold Step at hs
  cases l with
  | palera1nd retval => exact h.advance hs
  | fail => exact absurd rfl hl
  | enterRead c => exact h.enterRead hs
  | readData c n => exact h.readData hs
  | readEof c => exact h.readEof hs
  | readFail c => exact h.readFail hs
  | log c => exact h.log hs
  | stop c => exact h.stop hs
  | write c bytes => exact h.write hs
  | put c n => exact h.put hs
  | interrupt => exact h.interrupt hs
  | othersWrite c bytes => exact h.othersWrite hs
  | fork =>
    simp only [Runcmd.step, Option.ite_none_right_eq_some, Option.some.injEq] at hs
    obtain ⟨-, rfl⟩ := hs
    exact ⟨h.safe, h.channels, h.child, h.branch, h.resumed, h.waited, h.reply⟩
  | othersExit =>
    cases hs
    exact ⟨h.safe, h.channels, h.child, h.branch, h.resumed, h.waited, h.reply⟩
  | exit status => exact h.exit hs
  | kill status => exact h.kill hs

theorem Inv.of_isRun (h : Inv base s) {run : List (Label × State)} (hrun : IsRun (Step capacity) s run)
    (hok : Meets Succeeds s run) : Inv base (final s run) :=
  IsRun.invariant_final (fun _ _ _ h hl hs => h.step hl hs) h hrun hok

/-! ## Descriptors -/

/-- What a step needs: every action comes where it may, and `read` is called for a descriptor that is
open. -/
def Uses (s : State) : Label → Prop
  | .palera1nd _ | .fail => ∀ a next, s.code = .call a next → a.allowed s.control = true
  | .enterRead c => (s.control.ends c).readEnd = .opened
  | _ => True

theorem Inv.uses (h : Inv base s) {l : Label} (hs : Step capacity s l s') : Uses s l := by
  cases l with
  | palera1nd _ | fail => exact fun a next hcode => (h.allowed hcode).1
  | enterRead c =>
    unfold Step at hs
    simp only [Runcmd.step, Option.ite_none_right_eq_some, Option.some.injEq] at hs
    exact h.readEnd_of_not_cancelled (by rw [hs.1.1]; decide) hs.1.2
  | _ => trivial

/-- Nothing is left behind. -/
structure Released (s : State) (c : Stream) : Prop where
  readEnd : (s.control.ends c).readEnd = .closed
  writeEnd : (s.control.ends c).writeEnd = .closed
  joined : (s.control.ends c).created = (s.control.ends c).joined
  thread : (s.channel c).logger = .none ∨ (s.channel c).logger = .exited

theorem Inv.finished (h : Inv base s) (hcode : s.code = .ret) : s.control.finished = true := by
  have hsafe := h.safe
  rw [hcode] at hsafe
  simp only [Code.safe, Bool.and_eq_true] at hsafe
  exact hsafe.2

theorem Inv.released (h : Inv base s) (hcode : s.code = .ret) (c : Stream) : Released s c := by
  have hfinished := h.finished hcode
  simp only [Control.finished, Bool.and_eq_true] at hfinished
  have hc := allStreams_iff.mp hfinished.1.1.1 c
  simp only [Bool.and_eq_true, decide_eq_true_eq] at hc
  refine ⟨hc.1.1, hc.1.2, hc.2, ?_⟩
  cases hcreated : (s.control.ends c).created with
  | false => exact .inl ((h.channels c).logger.mpr hcreated)
  | true => exact .inr ((h.channels c).joined (hc.2 ▸ hcreated))

/-! ## Failures -/

/-- What is ahead of palera1nd uses something that is not there. -/
def State.Doomed (s : State) : Prop := s.code.doomed s.control = true

theorem perform_control {a : Action} {retval : ℤ} {s₁ : State} (hs : perform s retval a = some s₁) :
    s₁.control = s.control := by
  cases a with
  | waitpid =>
    simp only [perform] at hs
    split at hs
    next => cases hs; rfl
    next => cases hs
  | join c =>
    simp only [perform, Option.ite_none_right_eq_some, Option.some.injEq] at hs
    exact hs.2 ▸ rfl
  | _ => cases hs; rfl

theorem State.Doomed.advance (h : s.Doomed) {retval : ℤ} (hs : advance s retval = some s')
    (huses : Uses s (.palera1nd retval)) : s'.Doomed := by
  unfold State.Doomed at h
  unfold Runcmd.advance at hs
  cases hcode : s.code with
  | ret => simp [hcode] at hs
  | call a next =>
    rw [hcode] at hs h
    obtain ⟨s₁, hs₁, rfl⟩ := Option.map_eq_some_iff.mp hs
    simp only [Code.doomed, huses a next hcode, Bool.not_true, Bool.false_or, Bool.and_eq_true] at h
    show next.doomed (a.effect s₁.control) = true
    rw [perform_control hs₁]
    exact h.1
  | ifRetval failed spawned =>
    rw [hcode] at hs h
    simp only [Code.doomed, Bool.and_eq_true] at h
    dsimp only at hs
    split at hs
    · cases hs
      exact h.1
    · cases hs
      exact h.2

theorem advanceFailing_eq_some (hs : advanceFailing s = some s') :
    ∃ a next, s.code = .call a next ∧ a.unchecked = true ∧ s' = { s with code := next } := by
  unfold advanceFailing at hs
  split at hs
  next a next hcode =>
    simp only [Option.ite_none_right_eq_some, Option.some.injEq] at hs
    exact ⟨a, next, hcode, hs.1, hs.2.symm⟩
  next => cases hs

/-- A step of another process or of a thread. -/
theorem step_control {l : Label} (hs : Step capacity s l s') (hretval : ∀ retval, l ≠ .palera1nd retval)
    (hfail : l ≠ .fail) : s'.code = s.code ∧ s'.control = s.control := by
  unfold Step at hs
  cases l with
  | palera1nd retval => exact absurd rfl (hretval retval)
  | fail => exact absurd rfl hfail
  | log c | interrupt | write c bytes =>
    simp only [step] at hs
    split at hs
    next => cases hs; exact ⟨rfl, rfl⟩
    next => cases hs
  | put c n =>
    simp only [step] at hs
    split at hs
    next =>
      simp only [Option.ite_none_right_eq_some, Option.some.injEq] at hs
      exact hs.2 ▸ ⟨rfl, rfl⟩
    next => cases hs
  | othersExit => cases hs; exact ⟨rfl, rfl⟩
  | _ =>
    simp only [step, Option.ite_none_right_eq_some, Option.some.injEq] at hs
    exact hs.2 ▸ ⟨rfl, rfl⟩

/-- What is doomed stays so, or does what is not allowed. -/
theorem State.Doomed.step (h : s.Doomed) {l : Label} (huses : Uses s l) (hs : Step capacity s l s') :
    s'.Doomed := by
  by_cases hretval : ∃ retval, l = .palera1nd retval
  · obtain ⟨retval, rfl⟩ := hretval
    exact h.advance hs huses
  by_cases hfail : l = .fail
  · subst hfail
    obtain ⟨a, next, hcode, hunchecked, rfl⟩ := advanceFailing_eq_some hs
    unfold State.Doomed at h
    rw [hcode] at h
    simp only [Code.doomed, huses a next hcode, hunchecked, Bool.not_true, Bool.false_or,
      Bool.and_eq_true] at h
    exact h.2
  obtain ⟨hcode, hcontrol⟩ := step_control hs (fun retval hl => hretval ⟨retval, hl⟩) hfail
  unfold State.Doomed
  rw [hcode, hcontrol]
  exact h

theorem isRun_doomed {run : List (Label × State)} (h : s.Doomed)
    (hrun : IsRun (Step capacity) s run) (huses : Meets Uses s run) : (final s run).Doomed :=
  IsRun.invariant_final (fun _ _ _ h huses hs => h.step huses hs) h hrun huses

/-- After a failure the run is doomed. -/
theorem Inv.doomed (h : Inv base s) (hs : Step capacity s .fail s') : s'.Doomed := by
  obtain ⟨a, next, hcode, hunchecked, rfl⟩ := advanceFailing_eq_some hs
  have hsafe := h.safe
  rw [hcode] at hsafe
  simp only [Code.safe, hunchecked, Bool.not_true, Bool.false_or, Bool.and_eq_true] at hsafe
  exact hsafe.2

/-- A run that comes to its end and uses only what is there has no failure. -/
theorem Inv.succeeds (h : Inv base s) {run : List (Label × State)}
    (hrun : IsRun (Step capacity) s run) (hret : (final s run).code = .ret)
    (huses : Meets Uses s run) : Meets Succeeds s run := by
  induction run generalizing s with
  | nil => trivial
  | cons p run ih =>
    by_cases hfail : p.1 = .fail
    · have hstep := hrun.1
      rw [hfail] at hstep
      have hdoomed : (final p.2 run).Doomed :=
        isRun_doomed (h.doomed hstep) hrun.2 huses.2
      have hend : (final p.2 run).code = .ret := hret
      unfold State.Doomed at hdoomed
      rw [hend] at hdoomed
      cases hdoomed
    · exact ⟨hfail, ih (h.step hfail hrun.1) hrun.2 hret huses.2⟩

theorem meets_succeeds_iff {run : List (Label × State)} (hrun : IsRun (Step capacity) s run) :
    (∀ p ∈ run, p.1 ≠ .fail) ↔ Meets Succeeds s run :=
  IsRun.labels_iff (P := (· ≠ .fail)) (fun _ _ _ _ => Iff.rfl) hrun

/-! ## Runs -/

/-- A command that writes two bytes and exits. -/
def plainLabels : List Label :=
  List.replicate 10 (.palera1nd 0) ++
    [.write .stdout [0x41, 0x0a], .put .stdout 2, .enterRead .stdout, .readData .stdout 2,
      .log .stdout, .exit 7] ++ List.replicate 5 (.palera1nd 0) ++
    [.stop .stdout, .stop .stderr] ++ List.replicate 3 (.palera1nd 0)

def plainRun : List (Label × State) := follow (step 0x4000) (start []) plainLabels

theorem isRun_plainRun : IsRun (Step 0x4000) (start []) plainRun := isRun_follow _ _ _

theorem plainRun_succeeds : ∀ p ∈ plainRun, p.1 ≠ .fail := by
  intro p hp
  have hmem : ∀ l ∈ plainLabels, l ≠ .fail := by simp [plainLabels]
  exact hmem p.1 (mem_of_mem_follow hp)

/-- **What `runcmd` uses is there**, in every order of the steps, when `pipe`, `pthread_create` and
`waitpid` do not fail, and in the end everything is closed and joined. After a failure something is
used that is not there. -/
theorem runcmd_descriptors {run : List (Label × State)}
    (hrun : IsRun (Step capacity) (start base) run) :
    ((∀ p ∈ run, p.1 ≠ .fail) → Meets Uses (start base) run ∧
      ((final (start base) run).code = .ret → ∀ c, Released (final (start base) run) c)) ∧
    ((final (start base) run).code = .ret → Meets Uses (start base) run →
      ∀ p ∈ run, p.1 ≠ .fail) := by
  refine ⟨fun hok => ?_, fun hret huses => ?_⟩
  · have hmeets := (meets_succeeds_iff hrun).mp hok
    exact ⟨IsRun.meets (fun _ _ _ h hl hs => h.step hl hs) (fun _ _ _ h _ hs => h.uses hs)
      (inv_start base) hrun hmeets,
      fun hcode c => ((inv_start base).of_isRun hrun hmeets).released hcode c⟩
  · exact (meets_succeeds_iff hrun).mpr ((inv_start base).succeeds hrun hret huses)

theorem runcmd_descriptors_plain : (final (start []) plainRun).code = .ret ∧
    (final (start []) plainRun).retval = 0 ∧ ((∀ p ∈ plainRun, p.1 ≠ .fail) →
      Meets Uses (start []) plainRun ∧
        ((final (start []) plainRun).code = .ret → ∀ c, Released (final (start []) plainRun) c)) ∧
    ((final (start []) plainRun).code = .ret → Meets Uses (start []) plainRun →
      ∀ p ∈ plainRun, p.1 ≠ .fail) :=
  ⟨rfl, rfl, runcmd_descriptors isRun_plainRun⟩

end Jbinit.Palera1nd.Runcmd

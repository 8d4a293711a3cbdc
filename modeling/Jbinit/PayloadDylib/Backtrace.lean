import Jbinit.Foundations.Loops
import Jbinit.Foundations.Overwrite
import Mathlib.Algebra.Group.Nat.Defs
import Mathlib.Data.BitVec

/-!
# The backtrace of a crash report

`pthread_backtrace` follows the frames of the thread that has crashed, and records at most as many
return addresses as the buffer has room for; each frame is above the one before, so it ends
(`skipBody_meets`). The loop that prints them stops at a zero. A buffer that is full has none
behind its entries, and the loop then goes on behind the buffer (`printsBacktrace_iff`).
-/

namespace Jbinit.PayloadDylib

open Foundations Loops

abbrev Addr := BitVec 64

/-! ## `pthread_backtrace` -/

/-- The stack of a thread, and what `pthread_stack_frame_decode_np` finds at an address: the next
frame and the return address. -/
structure Thread where
  stackaddr : Addr
  stacksize : Addr
  nextFrame : Addr → Addr
  retaddr : Addr → Addr

namespace Thread

variable (thread : Thread)

def stackbot : Addr := thread.stackaddr - thread.stacksize

/-- The top of the stack, less the size of the first frame. -/
def stacktop (startfp : Addr) : Addr := thread.stackaddr - (thread.nextFrame startfp - startfp)

def inStack (startfp a : Addr) : Bool :=
  decide (thread.stackbot ≤ a) && decide (a ≤ thread.stacktop startfp)

end Thread

def isAligned (a : Addr) : Bool := a &&& 1#64 == 0#64

/-- The check before a frame is left for the next one. -/
def Thread.goesOn (thread : Thread) (startfp frame next : Addr) : Bool :=
  thread.inStack startfp next && isAligned next && !decide (next ≤ frame)

/-- The variables of the first loop. -/
structure Skipping where
  frame : Addr
  next : Addr
  skip : ℕ

/-- The body of the first loop, with its condition `startfp || skip--`. It leaves with the frame
from which on addresses are recorded, or returns from the function. -/
def skipBody (thread : Thread) (startfp : Addr) (s : Skipping) : Step Skipping (Option Addr) :=
  if startfp ≠ 0#64 ∨ s.skip ≠ 0 then
    let skip := if startfp ≠ 0#64 then s.skip else s.skip - 1
    if startfp ≠ 0#64 ∧ startfp < s.next then .done (some s.frame)
    else if thread.goesOn startfp s.frame s.next then
      .next ⟨s.next, thread.nextFrame s.next, skip⟩
    else .done none
  else .done (some s.frame)

/-- The buffer, and how many entries are recorded. -/
structure Recorded where
  buffer : List Addr
  nb : ℕ

/-- The second loop; the result is `none` for a write outside of the buffer. -/
def recordLoop (thread : Thread) (startfp : Addr) : ℕ → Addr → Recorded → Option Recorded
  | 0, _, r => some r
  | max + 1, frame, r =>
    if r.nb < r.buffer.length then
      let r := ⟨r.buffer.set r.nb (thread.retaddr frame), r.nb + 1⟩
      let next := thread.nextFrame frame
      if thread.goesOn startfp frame next then recordLoop thread startfp max next r else some r
    else none

/-- `pthread_backtrace`, with at most so many runs of the body of its first loop. -/
def pthreadBacktrace (fuel : ℕ) (thread : Thread) (buffer : List Addr) (max skip : ℕ)
    (startfp : Addr) : Option (Option Recorded) :=
  if !thread.inStack startfp startfp || !isAligned startfp then some (some ⟨buffer, 0⟩)
  else
    match runLoop (skipBody thread startfp) fuel ⟨startfp, thread.nextFrame startfp, skip⟩ with
    | none => none
    | some none => some (some ⟨buffer, 0⟩)
    | some (some frame) => some (recordLoop thread startfp max frame ⟨buffer, 0⟩)

/-! ## The report -/

/-- A line of the report: an address and the number in front of it. -/
structure Line where
  addr : Addr
  number : ℤ

/-- The loop over `bt` from `btIdx` on, where these entries are; the result is `none` for a read
behind the buffer. -/
def dumpLoop (btIdx : ℕ) : List Addr → Option (List Line)
  | [] => none
  | btAddr :: bt =>
    if btAddr ≠ 0#64 then (dumpLoop (btIdx + 1) bt).map fun lines => ⟨btAddr, btIdx + 1⟩ :: lines
    else some []

/-- The lines under `Backtrace:` in `crashreporter_dump_mach`. -/
def dumpBacktrace (pc lr : Addr) (bt : List Addr) : Option (List Line) :=
  (dumpLoop 0 bt).map fun lines => ⟨pc, -1⟩ :: ⟨lr, 0⟩ :: lines

/-- The entries that `crashreporter_catch_mach` allocates. -/
def btCount : ℕ := 100

/-- `pthread_backtrace` in `crashreporter_catch_mach`. -/
def catchMachBacktrace (fuel : ℕ) (thread : Thread) (fp : Addr) : Option (Option Recorded) :=
  pthreadBacktrace fuel thread (List.replicate btCount 0#64) btCount 0 fp

/-! ## The frames -/

variable {thread : Thread} {startfp : Addr}

theorem lt_of_goesOn {frame next : Addr} (h : thread.goesOn startfp frame next = true) :
    frame < next := by
  simp only [Thread.goesOn, Bool.and_eq_true, Bool.not_eq_true', decide_eq_false_iff_not] at h
  exact BitVec.not_le.mp h.2

/-- How far a frame is from the end of the addresses. -/
def Skipping.left (s : Skipping) : ℕ := 2 ^ 64 - s.frame.toNat

/-- **The first loop ends**, for any chain of frames: each one is above the one before. -/
theorem skipBody_meets (thread : Thread) (startfp : Addr) (s : Skipping) :
    (skipBody thread startfp s).Meets (fun _ => True) Skipping.left (fun _ => True) s := by
  rw [skipBody]
  split
  · dsimp only
    split
    · trivial
    · split
      case isTrue hgoes =>
        have hlt := lt_of_goesOn hgoes
        have hnext := s.next.isLt
        rw [BitVec.lt_def] at hlt
        refine ⟨trivial, ?_⟩
        simp only [Skipping.left]
        omega
      case isFalse => trivial
  · trivial

/-- The frames from one on, at most so many. -/
def frames (thread : Thread) (startfp : Addr) : ℕ → Addr → List Addr
  | 0, _ => []
  | max + 1, frame =>
    frame :: if thread.goesOn startfp frame (thread.nextFrame frame) then
      frames thread startfp max (thread.nextFrame frame) else []

theorem length_frames_le (max : ℕ) (frame : Addr) :
    (frames thread startfp max frame).length ≤ max := by
  induction max generalizing frame with
  | zero => exact Nat.le_refl 0
  | succ max ih =>
    have hnext := ih (thread.nextFrame frame)
    rw [frames, List.length_cons]
    split
    · omega
    · simp

/-- **What is recorded**: the return addresses of the frames, one behind the other. -/
theorem recordLoop_eq (max : ℕ) (frame : Addr) {r : Recorded} (h : r.nb + max ≤ r.buffer.length) :
    recordLoop thread startfp max frame r =
      some ⟨overwrite r.buffer r.nb ((frames thread startfp max frame).map thread.retaddr),
        r.nb + (frames thread startfp max frame).length⟩ := by
  induction max generalizing frame r with
  | zero => simp [recordLoop, frames, overwrite_nil]
  | succ max ih =>
    have hset := set_eq_overwrite (thread.retaddr frame) (show r.nb < r.buffer.length by omega)
    have hone : r.nb + [thread.retaddr frame].length ≤ r.buffer.length := by
      rw [List.length_singleton]
      omega
    have hlength := length_overwrite hone
    rw [recordLoop, if_pos (by omega), hset, frames, List.map_cons, List.length_cons]
    by_cases hgoes : thread.goesOn startfp frame (thread.nextFrame frame) = true
    · have htwo := overwrite_overwrite hone
        ((frames thread startfp max (thread.nextFrame frame)).map thread.retaddr)
      rw [List.length_singleton, List.singleton_append] at htwo
      have hroom : r.nb + 1 + max ≤ (overwrite r.buffer r.nb [thread.retaddr frame]).length := by
        omega
      have hrest := ih (thread.nextFrame frame)
        (r := ⟨overwrite r.buffer r.nb [thread.retaddr frame], r.nb + 1⟩) hroom
      simp only [if_pos hgoes, hrest, htwo, Option.some.injEq, Recorded.mk.injEq, true_and]
      omega
    · simp [hgoes]

/-- **The backtrace ends** for every chain of frames, and writes nothing outside of a buffer that has
room for `max` entries. -/
theorem pthreadBacktrace_ends (thread : Thread) {buffer : List Addr} {max : ℕ}
    (hmax : max ≤ buffer.length) (skip : ℕ) (startfp : Addr) :
    ∃ r n, ∀ fuel, n ≤ fuel → pthreadBacktrace fuel thread buffer max skip startfp =
      some (some r) := by
  obtain ⟨start, -, n, hn⟩ := halts_of_variant (fun s _ => skipBody_meets thread startfp s)
    (s := ⟨startfp, thread.nextFrame startfp, skip⟩) trivial
  have hroom : (⟨buffer, 0⟩ : Recorded).nb + max ≤ (⟨buffer, 0⟩ : Recorded).buffer.length := by
    simpa using hmax
  by_cases hframe : (!thread.inStack startfp startfp || !isAligned startfp) = true
  · exact ⟨⟨buffer, 0⟩, 0, fun fuel _ => by rw [pthreadBacktrace, if_pos hframe]⟩
  · cases start with
    | none =>
      refine ⟨⟨buffer, 0⟩, n, fun fuel hfuel => ?_⟩
      rw [pthreadBacktrace, if_neg hframe, hn fuel hfuel]
    | some frame =>
      obtain ⟨r, hr⟩ : ∃ r, recordLoop thread startfp max frame ⟨buffer, 0⟩ = some r :=
        ⟨_, recordLoop_eq max frame hroom⟩
      refine ⟨r, n, fun fuel hfuel => ?_⟩
      rw [pthreadBacktrace, if_neg hframe, hn fuel hfuel]
      exact congrArg some hr

/-- The frames are as many as there may be if the walk goes on at each of them but the last. -/
theorem length_frames_eq_iff (max : ℕ) (frame : Addr) :
    (frames thread startfp (max + 1) frame).length = max + 1 ↔
      ∀ k < max, thread.goesOn startfp (thread.nextFrame^[k] frame)
        (thread.nextFrame^[k + 1] frame) = true := by
  induction max generalizing frame with
  | zero => simp [frames]
  | succ max ih =>
    rw [frames, List.length_cons]
    constructor
    · intro h k hk
      by_cases hgoes : thread.goesOn startfp frame (thread.nextFrame frame) = true
      · rw [if_pos hgoes] at h
        have hrest := (ih (thread.nextFrame frame)).mp (by omega)
        cases k with
        | zero => exact hgoes
        | succ k => exact hrest k (by omega)
      · simp [hgoes] at h
    · intro h
      have hgoes : thread.goesOn startfp frame (thread.nextFrame frame) = true := h 0 (by omega)
      rw [if_pos hgoes, (ih (thread.nextFrame frame)).mpr fun k hk => h (k + 1) (by omega)]

theorem getElem?_frames {max k : ℕ} {frame a : Addr}
    (h : (frames thread startfp max frame)[k]? = some a) : a = thread.nextFrame^[k] frame := by
  induction max generalizing frame k with
  | zero => cases h
  | succ max ih =>
    rw [frames] at h
    cases k with
    | zero => exact (Option.some.inj h).symm
    | succ k =>
      rw [List.getElem?_cons_succ] at h
      by_cases hgoes : thread.goesOn startfp frame (thread.nextFrame frame) = true
      · rw [if_pos hgoes] at h
        have hrest := ih h
        exact hrest
      · simp [hgoes] at h

/-! ## The report -/

/-- The lines for some addresses from a number on. -/
def linesFrom (btIdx : ℕ) : List Addr → List Line
  | [] => []
  | a :: as => ⟨a, btIdx + 1⟩ :: linesFrom (btIdx + 1) as

/-- **The loop stays inside** the buffer if there is a zero, and prints what is before it. -/
theorem dumpLoop_eq (btIdx : ℕ) (bt : List Addr) : dumpLoop btIdx bt =
    if 0#64 ∈ bt then some (linesFrom btIdx (bt.takeWhile fun a => a != 0#64)) else none := by
  induction bt generalizing btIdx with
  | nil => rfl
  | cons a bt ih =>
    rw [dumpLoop, ih]
    by_cases ha : a = 0#64
    · simp [ha, linesFrom]
    · have hmem : 0#64 ∈ a :: bt ↔ 0#64 ∈ bt := by simp [Ne.symm ha]
      simp only [ne_eq, ha, not_false_eq_true, if_true, hmem]
      split <;> simp [ha, linesFrom]

/-! ## Both together -/

/-- The walk begins at the frame pointer, unless it is no frame of the stack or no other frame is
above it. -/
def Starts (thread : Thread) (fp : Addr) : Prop :=
  thread.inStack fp fp = true ∧ isAligned fp = true ∧ (fp = 0#64 ∨ fp < thread.nextFrame fp)

/-- The frames whose return addresses are recorded. -/
def recordedFrames (thread : Thread) (fp : Addr) : List Addr :=
  if thread.inStack fp fp && isAligned fp && (fp == 0#64 || decide (fp < thread.nextFrame fp)) then
    frames thread fp btCount fp else []

/-- The first loop with `skip` zero: it is left at once, with the frame pointer or without it. -/
theorem skipBody_start (thread : Thread) (fp : Addr) :
    skipBody thread fp ⟨fp, thread.nextFrame fp, 0⟩ =
      .done (if fp = 0#64 ∨ fp < thread.nextFrame fp then some fp else none) := by
  rw [skipBody]
  by_cases hzero : fp = 0#64
  · simp [hzero]
  · by_cases hlt : fp < thread.nextFrame fp
    · simp [hzero, hlt]
    · have hgoes : ¬thread.goesOn fp fp (thread.nextFrame fp) = true := fun h => hlt (lt_of_goesOn h)
      simp [hzero, hlt, hgoes]

/-- **The backtrace ends**, and what it leaves in the buffer. -/
theorem catchMachBacktrace_eq (thread : Thread) (fp : Addr) {fuel : ℕ} (hfuel : 1 ≤ fuel) :
    catchMachBacktrace fuel thread fp = some (some
      ⟨(recordedFrames thread fp).map thread.retaddr ++
        List.replicate (btCount - (recordedFrames thread fp).length) 0#64,
        (recordedFrames thread fp).length⟩) := by
  obtain ⟨fuel, rfl⟩ : ∃ fuel', fuel = fuel' + 1 := ⟨fuel - 1, by omega⟩
  have hrun : runLoop (skipBody thread fp) (fuel + 1) ⟨fp, thread.nextFrame fp, 0⟩ =
      some (if fp = 0#64 ∨ fp < thread.nextFrame fp then some fp else none) := by
    rw [runLoop, skipBody_start]
  have hrecord : recordLoop thread fp btCount fp ⟨List.replicate btCount 0#64, 0⟩ = _ :=
    recordLoop_eq btCount fp (by rw [List.length_replicate, Nat.zero_add])
  have hbuffer := overwrite_replicate 0#64 btCount ((frames thread fp btCount fp).map thread.retaddr)
  rw [List.length_map] at hbuffer
  rw [catchMachBacktrace, pthreadBacktrace, recordedFrames, hrun]
  cases hstack : thread.inStack fp fp with
  | false => simp
  | true =>
    cases haligned : isAligned fp with
    | false => simp
    | true =>
      by_cases hstart : fp = 0#64 ∨ fp < thread.nextFrame fp
      · have hbool : (fp == 0#64 || decide (fp < thread.nextFrame fp)) = true := by simpa using hstart
        simp [hstart, hbool, hrecord, hbuffer]
      · have hbool : (fp == 0#64 || decide (fp < thread.nextFrame fp)) = false := by
          simpa using hstart
        simp [hstart, hbool]

/-- The report is right: the backtrace ends, nothing outside of the buffer is written or read, and
the lines are those of the recorded addresses up to the first zero. -/
def PrintsBacktrace (thread : Thread) (fp pc lr : Addr) : Prop :=
  ∃ r, (∃ n, ∀ fuel, n ≤ fuel → catchMachBacktrace fuel thread fp = some (some r)) ∧
    dumpBacktrace pc lr r.buffer = some (⟨pc, -1⟩ :: ⟨lr, 0⟩ ::
      linesFrom 0 ((r.buffer.take r.nb).takeWhile fun a => a != 0#64))

/-- The walk begins, goes on 99 times, and none of the 100 return addresses is zero. -/
def FillsBuffer (thread : Thread) (fp : Addr) : Prop :=
  Starts thread fp ∧
    (∀ k < 99, thread.goesOn fp (thread.nextFrame^[k] fp) (thread.nextFrame^[k + 1] fp) = true) ∧
      ∀ k < 100, thread.retaddr (thread.nextFrame^[k] fp) ≠ 0#64

/-- The loop needs a zero: one of the addresses, or room behind them. -/
theorem printsBacktrace_iff_zero (thread : Thread) (fp pc lr : Addr) :
    PrintsBacktrace thread fp pc lr ↔ 0#64 ∈ (recordedFrames thread fp).map thread.retaddr ∨
      (recordedFrames thread fp).length < btCount := by
  have hzero := mem_append_replicate 0#64 btCount ((recordedFrames thread fp).map thread.retaddr)
  rw [List.length_map] at hzero
  have hrecorded : ((recordedFrames thread fp).map thread.retaddr ++
      List.replicate (btCount - (recordedFrames thread fp).length) 0#64).take
        (recordedFrames thread fp).length = (recordedFrames thread fp).map thread.retaddr :=
    List.take_left' (List.length_map _)
  rw [← hzero]
  constructor
  · rintro ⟨r, ⟨n, hn⟩, hdump⟩
    have hrun := hn (max n 1) (Nat.le_max_left n 1)
    rw [catchMachBacktrace_eq thread fp (Nat.le_max_right n 1), Option.some_inj,
      Option.some_inj] at hrun
    rw [← hrun, dumpBacktrace, dumpLoop_eq] at hdump
    by_contra hnot
    rw [if_neg hnot] at hdump
    cases hdump
  · intro hmem
    refine ⟨_, ⟨1, fun fuel hfuel => catchMachBacktrace_eq thread fp hfuel⟩, ?_⟩
    rw [dumpBacktrace, dumpLoop_eq, if_pos hmem, hrecorded, takeWhile_append_replicate (by simp)]
    rfl

theorem fillsBuffer_iff (thread : Thread) (fp : Addr) : FillsBuffer thread fp ↔
    (recordedFrames thread fp).length = btCount ∧
      0#64 ∉ (recordedFrames thread fp).map thread.retaddr := by
  have hstarts : Starts thread fp ↔ (thread.inStack fp fp && isAligned fp &&
      (fp == 0#64 || decide (fp < thread.nextFrame fp))) = true := by
    simp [Starts, and_assoc]
  rw [FillsBuffer, hstarts, recordedFrames]
  split
  case isTrue hstart =>
    have hlength : (frames thread fp btCount fp).length = btCount ↔ _ :=
      length_frames_eq_iff 99 fp
    rw [hlength, and_iff_right hstart, and_congr_right_iff]
    intro hgoes
    have hplaces (k : ℕ) (hk : k < 100) :
        (frames thread fp btCount fp)[k]? = some (thread.nextFrame^[k] fp) := by
      have hlt : k < (frames thread fp btCount fp).length := by
        rw [hlength.mpr hgoes]
        exact hk
      have hget := List.getElem?_eq_getElem hlt
      rw [hget, getElem?_frames hget]
    constructor
    · intro hall hmem
      obtain ⟨a, ha, hzero⟩ := List.mem_map.mp hmem
      obtain ⟨k, hk⟩ := List.mem_iff_getElem?.mp ha
      have hlt : k < 100 := by
        have hbound := (List.getElem?_eq_some_iff.mp hk).1
        rwa [hlength.mpr hgoes] at hbound
      exact hall k hlt (getElem?_frames hk ▸ hzero)
    · intro hnot k hk hzero
      exact hnot (List.mem_map.mpr ⟨_, List.mem_of_getElem? (hplaces k hk), hzero⟩)
  case isFalse hnot =>
    refine iff_of_false (fun h => hnot h.1) fun h => ?_
    exact absurd h.1 (by decide)

/-- **When the report is right.** -/
theorem printsBacktrace_iff (thread : Thread) (fp pc lr : Addr) :
    PrintsBacktrace thread fp pc lr ↔ ¬FillsBuffer thread fp := by
  have hle : (recordedFrames thread fp).length ≤ btCount := by
    rw [recordedFrames]
    split
    · exact length_frames_le btCount fp
    · exact Nat.zero_le _
  rw [printsBacktrace_iff_zero, fillsBuffer_iff, not_and, not_not]
  constructor
  · rintro (hmem | hlt) hfull
    · exact hmem
    · omega
  · intro h
    by_cases hfull : (recordedFrames thread fp).length = btCount
    · exact .inl (h hfull)
    · exact .inr (by omega)

/-- A thread with a frame in every 16 bytes of its stack. -/
def deepThread : Thread where
  stackaddr := 0x16f080000#64
  stacksize := 0x80000#64
  nextFrame a := a + 16#64
  retaddr _ := 0x100004000#64

/-- The crash of a deep recursion: the 101st entry of the buffer is read. -/
theorem printsBacktrace_deep :
    ¬PrintsBacktrace deepThread 0x16f001000#64 0x100004010#64 0x100004000#64 := by
  rw [printsBacktrace_iff_zero]
  decide +kernel

end Jbinit.PayloadDylib

import Jbinit.CString
import Jbinit.Foundations.LittleEndian
import Jbinit.Foundations.Overwrite
import Mathlib.Data.List.TakeWhile

/-!
# `write_log`

The thread that logs what a subprocess writes. It clears its buffer before each read, so that what
is read is a string, unless a read fills the whole buffer (`writeLog_faithful_iff`). Only a failed
read ends it: at the end of the file it reads again and again (`writeLog_returned_iff`).
-/

namespace Jbinit.Palera1nd

open Foundations LittleEndian

/-- What one call of `read` returns: the bytes, none of them at the end of the file, or -1. -/
inductive ReadResult
  | data (bytes : List Byte)
  | failed

/-- One message for the logger: the description, and the string at the buffer, which is `none` where
there is no NUL inside of it. -/
structure LogMessage where
  desc : CStr
  string : Option (List Byte)

structure LogRun where
  messages : List LogMessage
  returned : Bool

def bufSize : ℕ := 0x1000

/-- What `%s` prints of the buffer. -/
def stringAt (buf : List Byte) : Option (List Byte) :=
  if 0#8 ∈ buf then some (buf.takeWhile fun b => b != 0#8) else none

/-- The loop, with the results of its calls of `read`. It has not returned after the last one of
them if it reads again. -/
def writeLogLoop (desc : CStr) (buf : List Byte) : List ReadResult → LogRun
  | [] => ⟨[], false⟩
  | .failed :: _ => ⟨[], true⟩
  | .data bytes :: reads =>
    let buf := overwrite buf 0 bytes
    if 0 < bytes.length then
      let run := writeLogLoop desc (List.replicate bufSize 0#8) reads
      ⟨⟨desc, stringAt buf⟩ :: run.messages, run.returned⟩
    else writeLogLoop desc buf reads

def writeLog (desc : CStr) (reads : List ReadResult) : LogRun :=
  writeLogLoop desc (List.replicate bufSize 0#8) reads

/-- **Only a failed read ends the loop.** -/
theorem writeLog_returned_iff (desc : CStr) (buf : List Byte) (reads : List ReadResult) :
    (writeLogLoop desc buf reads).returned = true ↔ .failed ∈ reads := by
  induction reads generalizing buf with
  | nil => simp [writeLogLoop]
  | cons r reads ih =>
    cases r with
    | failed => simp [writeLogLoop]
    | data bytes =>
      rw [writeLogLoop]
      split <;> simp [ih]

/-! ## A subprocess -/

/-- Bytes that one read returns: some, no more than the buffer has, and no NUL. -/
structure Chunk where
  bytes : List Byte
  pos : 0 < bytes.length
  le : bytes.length ≤ bufSize
  noNul : 0#8 ∉ bytes

/-- The chunks, and then the end of the file, which is read `ends` times. -/
def readsOf (chunks : List Chunk) (ends : ℕ) : List ReadResult :=
  chunks.map (fun c => .data c.bytes) ++ List.replicate ends (.data [])

/-- The strings end inside the buffer, and together they are what is read. -/
structure LogRun.Faithful (run : LogRun) (chunks : List Chunk) : Prop where
  terminated : ∀ m ∈ run.messages, m.string.isSome = true
  exact : (run.messages.filterMap LogMessage.string).flatten = chunks.flatMap Chunk.bytes

/-- The log is faithful, and ends. -/
def LogRun.FaithfulAndEnds (run : LogRun) (chunks : List Chunk) : Prop :=
  run.Faithful chunks ∧ run.returned = true

/-- What is read ends in a NUL where it has one, or leaves room for one. -/
theorem stringAt_overwrite (bytes : List Byte) :
    stringAt (overwrite (List.replicate bufSize 0#8) 0 bytes) =
      if 0#8 ∈ bytes ∨ bytes.length < bufSize then some (bytes.takeWhile fun b => b != 0#8)
      else none := by
  simp only [stringAt, overwrite_replicate, mem_append_replicate]
  rw [takeWhile_append_replicate (by simp)]

theorem Chunk.stringAt_overwrite (c : Chunk) :
    stringAt (overwrite (List.replicate bufSize 0#8) 0 c.bytes) =
      if c.bytes.length < bufSize then some c.bytes else none := by
  have hbytes : ∀ b ∈ c.bytes, (b != 0#8) = true := by
    intro b hb
    have hne : b ≠ 0#8 := fun heq => c.noNul (heq ▸ hb)
    simpa using hne
  have hstring : c.bytes.takeWhile (fun b => b != 0#8) = c.bytes :=
    List.takeWhile_eq_self_iff.mpr hbytes
  simp only [Palera1nd.stringAt_overwrite, c.noNul, false_or, hstring]

/-- The end of the file logs nothing. -/
theorem writeLogLoop_ends (desc : CStr) (ends : ℕ) :
    (writeLogLoop desc (List.replicate bufSize 0#8) (List.replicate ends (.data []))).messages =
      [] := by
  induction ends with
  | zero => rfl
  | succ ends ih =>
    rw [List.replicate_succ, writeLogLoop, if_neg (by simp)]
    rw [overwrite_nil]
    exact ih

/-- Each chunk is one message. -/
theorem writeLog_messages (desc : CStr) (chunks : List Chunk) (ends : ℕ) :
    (writeLog desc (readsOf chunks ends)).messages =
      chunks.map fun c => ⟨desc, if c.bytes.length < bufSize then some c.bytes else none⟩ := by
  induction chunks with
  | nil => exact writeLogLoop_ends desc ends
  | cons c chunks ih =>
    have hreads : readsOf (c :: chunks) ends = .data c.bytes :: readsOf chunks ends := rfl
    rw [writeLog, hreads, writeLogLoop, if_pos c.pos, c.stringAt_overwrite, List.map_cons, ← ih]
    rfl

/-- **A log is faithful** if no read fills the buffer. -/
theorem writeLog_faithful_iff (desc : CStr) (chunks : List Chunk) (ends : ℕ) :
    (writeLog desc (readsOf chunks ends)).Faithful chunks ↔
      ∀ c ∈ chunks, c.bytes.length < bufSize := by
  have hmessages := writeLog_messages desc chunks ends
  constructor
  · intro h c hc
    have hmem : (⟨desc, if c.bytes.length < bufSize then some c.bytes else none⟩ : LogMessage) ∈
        (writeLog desc (readsOf chunks ends)).messages := by
      rw [hmessages]
      exact List.mem_map.mpr ⟨c, hc, rfl⟩
    have hsome := h.terminated _ hmem
    by_contra hfull
    rw [if_neg hfull] at hsome
    cases hsome
  · intro h
    have hstrings : (writeLog desc (readsOf chunks ends)).messages =
        chunks.map fun c => ⟨desc, some c.bytes⟩ := by
      rw [hmessages]
      exact List.map_congr_left fun c hc => by rw [if_pos (h c hc)]
    constructor
    · rw [hstrings]
      simp
    · rw [hstrings, List.filterMap_map, List.flatMap_def]
      exact congrArg List.flatten (congrFun List.filterMap_eq_map chunks)

/-- **The loop never ends** at the end of the file, however often it reads it. -/
theorem writeLog_not_faithfulAndEnds (desc : CStr) (chunks : List Chunk) (ends : ℕ) :
    ¬(writeLog desc (readsOf chunks ends)).FaithfulAndEnds chunks := by
  rintro ⟨-, hreturned⟩
  have hmem := (writeLog_returned_iff desc _ _).mp hreturned
  simp [readsOf] at hmem

/-- A read that fills the buffer. -/
def fullChunk : Chunk where
  bytes := List.replicate bufSize 0x61#8
  pos := by rw [List.length_replicate]; decide
  le := Nat.le_of_eq List.length_replicate
  noNul := fun h => absurd (List.eq_of_mem_replicate h) (by decide)

/-- The string of the chunk goes on behind the buffer, and the end of the file does not end the
loop. -/
theorem writeLog_fullChunk :
    ¬(writeLog "/bin/sh stdout".toList (readsOf [fullChunk] 1)).Faithful [fullChunk] ∧
      ¬(writeLog "/bin/sh stdout".toList (readsOf [fullChunk] 1)).FaithfulAndEnds [fullChunk] := by
  have hfull : ¬(writeLog "/bin/sh stdout".toList (readsOf [fullChunk] 1)).Faithful [fullChunk] := by
    rw [writeLog_faithful_iff]
    intro h
    have hlt := h fullChunk List.mem_cons_self
    rw [fullChunk, List.length_replicate] at hlt
    exact absurd hlt (Nat.lt_irrefl _)
  exact ⟨hfull, fun h => hfull h.1⟩

end Jbinit.Palera1nd

import Jbinit.Palera1nd.Runcmd

/-!
# The log of a command

What the threads of `runcmd` give to the logger is the beginning of what has been written: what is in
a pipe when the command exits can be lost. A NUL cuts the rest of a message off, and a `read` that
fills the buffer leaves it without an end (`runcmd_logs`).
-/

namespace Jbinit.Palera1nd.Runcmd

open Foundations Calls Transitions LittleEndian

variable {base : Dict} {s s' : State} {capacity : ℕ}

/-! ## What is lost -/

/-- What is lost is not more than what a pipe has and what one `read` returns. -/
structure Few (capacity : ℕ) (e : Ends) (ch : Channel) : Prop where
  room : ch.pipe.length ≤ capacity
  few : ch.lost.length + ch.logger.hand.length ≤
    bufSize + if e.readEnd = .closed then capacity else 0

theorem few_setChannel (h : ∀ c, Few capacity (s.control.ends c) (s.channel c)) (c : Stream)
    {ch : Channel} (hch : Few capacity (s.control.ends c) ch) :
    ∀ c', Few capacity ((s.setChannel c ch).control.ends c') ((s.setChannel c ch).channel c') :=
  channels_of_update h c (fun _ _ => rfl) (fun _ hne => setChannel_channel_of_ne s hne ch)
    ((setChannel_channel_self s c ch).symm ▸ hch)

/-- Of the ends only the one for reading counts. -/
theorem few_setEnds (h : ∀ c, Few capacity (s.control.ends c) (s.channel c)) (c : Stream) {e : Ends}
    (he : e.readEnd = (s.control.ends c).readEnd) :
    ∀ c', Few capacity ((s.control.setEnds c e).ends c') (s.channel c') := by
  refine channels_of_update h c (fun _ hne => setEnds_ends_of_ne _ hne _) (fun _ _ => rfl) ?_
  rw [setEnds_ends_self]
  exact ⟨(h c).room, he ▸ (h c).few⟩

/-- Closing a pipe adds what is in it. -/
theorem few_perform (h : ∀ c, Few capacity (s.control.ends c) (s.channel c)) (hinv : Inv base s)
    {a : Action} {next : Code} (hcode : s.code = .call a next) {retval : ℤ} {s₁ : State}
    (hs : perform s retval a = some s₁) :
    ∀ c, Few capacity ((a.effect s₁.control).ends c) (s₁.channel c) := by
  have hallowed := (hinv.allowed hcode).1
  cases a with
  | pipe c =>
    cases hs
    refine channels_of_update h c (fun _ hne => setEnds_ends_of_ne _ hne _) (fun _ _ => rfl) ?_
    have hc := h c
    simp only [Action.allowed, Bool.and_eq_true, decide_eq_true_eq] at hallowed
    rw [Action.effect, setEnds_ends_self]
    exact ⟨hc.room, by simpa [hallowed.1] using hc.few⟩
  | closeWrite c =>
    cases hs
    exact few_setEnds h c rfl
  | createThread c =>
    cases hs
    refine channels_of_update h c (fun _ hne => setEnds_ends_of_ne _ hne _)
      (fun _ hne => setChannel_channel_of_ne s hne _) ?_
    have hc := (h c).few
    rw [Action.effect, setEnds_ends_self, setChannel_channel_self]
    exact ⟨(h c).room, Nat.le_trans (Nat.add_le_add_left (Nat.zero_le _) _) hc⟩
  | cancel c =>
    cases hs
    exact few_setEnds h c rfl
  | closeRead c =>
    cases hs
    refine channels_of_update h c (fun _ hne => setEnds_ends_of_ne _ hne _)
      (fun _ hne => setChannel_channel_of_ne s hne _) ?_
    have hroom := (h c).room
    have hfew := (h c).few
    simp only [Action.allowed, decide_eq_true_eq] at hallowed
    rw [hallowed, if_neg (by decide)] at hfew
    rw [Action.effect, setEnds_ends_self, setChannel_channel_self]
    refine ⟨Nat.zero_le _, ?_⟩
    dsimp only
    rw [if_pos rfl, List.length_append]
    omega
  | join c =>
    simp only [perform, Option.ite_none_right_eq_some, Option.some.injEq] at hs
    obtain ⟨-, rfl⟩ := hs
    exact few_setEnds h c rfl
  | waitpid =>
    simp only [perform] at hs
    split at hs
    next =>
      cases hs
      exact h
    next => cases hs
  | spawn | setRetval | resume | setStatus =>
    cases hs
    exact h

/-- **Every step but a failure keeps the bound.** -/
theorem few_step (h : ∀ c, Few capacity (s.control.ends c) (s.channel c)) (hinv : Inv base s)
    {l : Label} (hl : Succeeds s l) (hs : Step capacity s l s') :
    ∀ c, Few capacity (s'.control.ends c) (s'.channel c) := by
  unfold Step at hs
  cases l with
  | palera1nd retval =>
    simp only [step, advance] at hs
    split at hs
    next => cases hs
    next a next hcode =>
      obtain ⟨s₁, hs₁, rfl⟩ := Option.map_eq_some_iff.mp hs
      exact few_perform h hinv hcode hs₁
    next =>
      split at hs
      · cases hs
        exact h
      · cases hs
        exact h
  | fail => exact absurd rfl hl
  | enterRead c =>
    simp only [step, Option.ite_none_right_eq_some, Option.some.injEq] at hs
    obtain ⟨⟨hlogger, -⟩, rfl⟩ := hs
    have hfew := (h c).few
    rw [hlogger] at hfew
    exact few_setChannel h c ⟨(h c).room, hfew⟩
  | readData c n =>
    simp only [step, Option.ite_none_right_eq_some, Option.some.injEq] at hs
    obtain ⟨⟨hlogger, hopened, -, hn, -⟩, rfl⟩ := hs
    have hlost : (s.channel c).lost = [] :=
      (hinv.channels c).kept (by rw [hopened]; decide) (by rw [hlogger]; decide)
    have hroom := (h c).room
    refine few_setChannel h c ⟨?_, ?_⟩
    · rw [List.length_drop]
      omega
    · simp only [Logger.hand, hlost, List.length_nil, List.length_take]
      omega
  | readEof c | readFail c =>
    simp only [step, Option.ite_none_right_eq_some, Option.some.injEq] at hs
    obtain ⟨⟨hlogger, -⟩, rfl⟩ := hs
    have hfew := (h c).few
    rw [hlogger] at hfew
    exact few_setChannel h c ⟨(h c).room, hfew⟩
  | log c =>
    simp only [step] at hs
    split at hs
    next bytes hlogger =>
      cases hs
      exact few_setChannel h c
        ⟨(h c).room, Nat.le_trans (Nat.add_le_add_left (Nat.zero_le _) _) (h c).few⟩
    next => cases hs
  | stop c =>
    simp only [step, Option.ite_none_right_eq_some, Option.some.injEq] at hs
    obtain ⟨-, rfl⟩ := hs
    have hfew := (h c).few
    refine few_setChannel h c ⟨(h c).room, ?_⟩
    dsimp only
    rw [List.length_append, show Logger.exited.hand.length = 0 from rfl]
    omega
  | othersWrite c bytes =>
    simp only [step, Option.ite_none_right_eq_some, Option.some.injEq] at hs
    obtain ⟨⟨-, -, hroom⟩, rfl⟩ := hs
    exact few_setChannel h c ⟨by rwa [List.length_append], (h c).few⟩
  | put c n =>
    simp only [step] at hs
    split at hs
    next c' w _ =>
      simp only [Option.ite_none_right_eq_some, Option.some.injEq] at hs
      obtain ⟨⟨rfl, -, hn, -, -, hroom⟩, rfl⟩ := hs
      refine few_setChannel h c' ⟨?_, (h c').few⟩
      rw [List.length_append, List.length_take]
      omega
    next => cases hs
  | interrupt | write c bytes =>
    simp only [step] at hs
    split at hs
    next =>
      cases hs
      exact h
    next => cases hs
  | othersExit =>
    cases hs
    exact h
  | fork | exit status | kill status =>
    simp only [step, Option.ite_none_right_eq_some, Option.some.injEq] at hs
    obtain ⟨-, rfl⟩ := hs
    exact h

theorem isRun_few {run : List (Label × State)} (hrun : IsRun (Step capacity) (start base) run)
    (hok : Meets Succeeds (start base) run) :
    ∀ c, Few capacity ((final (start base) run).control.ends c)
      ((final (start base) run).channel c) := by
  have hfew : ∀ c, Few capacity ((start base).control.ends c) ((start base).channel c) :=
    fun _ => ⟨Nat.zero_le _, Nat.zero_le _⟩
  have hstep (s : State) (l : Label) (s' : State)
      (h : Inv base s ∧ ∀ c, Few capacity (s.control.ends c) (s.channel c)) (hl : Succeeds s l)
      (hs : Step capacity s l s') :
      Inv base s' ∧ ∀ c, Few capacity (s'.control.ends c) (s'.channel c) :=
    ⟨h.1.step hl hs, few_step h.2 h.1 hl hs⟩
  have hboth := IsRun.invariant_final hstep ⟨inv_start base, hfew⟩ hrun hok
  exact hboth.2

/-- What the thread has given to the logger, after these calls of `read`. -/
def Channel.messages (desc : CStr) (ch : Channel) : List LogMessage :=
  (writeLog desc (ch.reads.map .data)).messages

/-- The messages are what has been read. -/
structure Channel.LogsReads (desc : CStr) (ch : Channel) : Prop where
  terminated : ∀ m ∈ ch.messages desc, m.string.isSome = true
  exact : ((ch.messages desc).filterMap LogMessage.string).flatten = ch.reads.flatten

theorem messages_eq (desc : CStr) {reads : List (List Byte)}
    (hpos : ∀ bytes ∈ reads, 0 < bytes.length) : (writeLog desc (reads.map .data)).messages =
      reads.map fun bytes => ⟨desc, stringAt (overwrite (List.replicate bufSize 0#8) 0 bytes)⟩ := by
  induction reads with
  | nil => rfl
  | cons bytes reads ih =>
    obtain ⟨hbytes, hreads⟩ := List.forall_mem_cons.mp hpos
    rw [List.map_cons, writeLog, writeLogLoop, if_pos hbytes, List.map_cons, ← ih hreads]
    rfl

/-- Beginnings of lists are the lists if they are it together. -/
theorem takeWhile_eq_self_of_flatten {α : Type} {p : α → Bool} {lists : List (List α)}
    (h : (lists.map (List.takeWhile p)).flatten = lists.flatten) :
    ∀ l ∈ lists, l.takeWhile p = l := by
  have hle (lists : List (List α)) :
      (lists.map (List.takeWhile p)).flatten.length ≤ lists.flatten.length := by
    induction lists with
    | nil => exact Nat.le_refl 0
    | cons l lists ih =>
      have hprefix := (List.takeWhile_prefix (l := l) p).length_le
      simp only [List.map_cons, List.flatten_cons, List.length_append]
      omega
  induction lists with
  | nil => simp
  | cons l lists ih =>
    rw [List.map_cons, List.flatten_cons, List.flatten_cons] at h
    have hlength := congrArg List.length h
    rw [List.length_append, List.length_append] at hlength
    have hprefix := List.takeWhile_prefix (l := l) p
    have hsame : l.takeWhile p = l :=
      hprefix.eq_of_length (by have := hle lists; have := hprefix.length_le; omega)
    rw [hsame] at h
    rw [List.forall_mem_cons]
    exact ⟨hsame, ih (List.append_cancel_left h)⟩

theorem logsReads_iff (desc : CStr) {ch : Channel}
    (hsizes : ∀ bytes ∈ ch.reads, 0 < bytes.length ∧ bytes.length ≤ bufSize) :
    ch.LogsReads desc ↔ ∀ bytes ∈ ch.reads, bytes.length < bufSize ∧ 0#8 ∉ bytes := by
  have hnul (bytes : List Byte) :
      bytes.takeWhile (fun b => b != 0#8) = bytes ↔ 0#8 ∉ bytes := by
    rw [List.takeWhile_eq_self_iff]
    exact ⟨fun h hmem => by simpa using h _ hmem,
      fun h b hb => bne_iff_ne.mpr (ne_of_mem_of_not_mem hb h)⟩
  have hmessages : ch.messages desc = ch.reads.map fun bytes =>
      ⟨desc, stringAt (overwrite (List.replicate bufSize 0#8) 0 bytes)⟩ :=
    messages_eq desc fun bytes hbytes => (hsizes bytes hbytes).1
  constructor
  · intro h bytes hbytes
    have hends : ∀ bytes ∈ ch.reads, 0#8 ∈ bytes ∨ bytes.length < bufSize := by
      intro bytes hbytes
      have hsome := h.terminated ⟨desc, _⟩ (hmessages ▸ List.mem_map_of_mem hbytes)
      by_contra hnot
      rw [stringAt_overwrite, if_neg hnot] at hsome
      cases hsome
    have hexact := h.exact
    rw [hmessages, List.filterMap_map] at hexact
    have hstrings : ch.reads.filterMap (LogMessage.string ∘ fun bytes =>
        ⟨desc, stringAt (overwrite (List.replicate bufSize 0#8) 0 bytes)⟩) =
        ch.reads.map (List.takeWhile fun b => b != 0#8) := by
      rw [← List.filterMap_eq_map]
      refine List.filterMap_congr fun bytes hbytes => ?_
      simp only [Function.comp, stringAt_overwrite, if_pos (hends bytes hbytes)]
    rw [hstrings] at hexact
    have hnot := (hnul bytes).mp (takeWhile_eq_self_of_flatten hexact bytes hbytes)
    exact ⟨(hends bytes hbytes).resolve_left hnot, hnot⟩
  · intro h
    have hstrings : ch.messages desc = ch.reads.map fun bytes => ⟨desc, some bytes⟩ := by
      rw [hmessages]
      refine List.map_congr_left fun bytes hbytes => ?_
      obtain ⟨hlength, hnot⟩ := h bytes hbytes
      rw [stringAt_overwrite, if_pos (.inr hlength), (hnul bytes).mpr hnot]
    constructor
    · rw [hstrings]
      simp
    · rw [hstrings, List.filterMap_map]
      exact congrArg List.flatten ((congrFun List.filterMap_eq_map ch.reads).trans (List.map_id _))

/-- **What is given to the logger is the beginning of what has been written**, and never behind by
more than what a pipe has and what one `read` returns. When `runcmd` returns, the rest is lost. The
messages are what has been read if no `read` has filled the buffer or returned a NUL. -/
theorem runcmd_logs {run : List (Label × State)} (hrun : IsRun (Step capacity) (start base) run)
    (hok : ∀ p ∈ run, p.1 ≠ .fail) (c : Stream) :
    (∃ rest, ((final (start base) run).channel c).written =
        ((final (start base) run).channel c).reads.flatten ++ rest ∧
      rest.length ≤ bufSize + capacity ∧
      ((final (start base) run).code = .ret →
        rest = ((final (start base) run).channel c).lost)) ∧
    ∀ desc, ((final (start base) run).channel c).LogsReads desc ↔
      ∀ bytes ∈ ((final (start base) run).channel c).reads,
        bytes.length < bufSize ∧ 0#8 ∉ bytes := by
  have hmeets := (meets_succeeds_iff hrun).mp hok
  have hinv := (inv_start base).of_isRun hrun hmeets
  have hc := hinv.channels c
  have hfew := isRun_few hrun hmeets c
  refine ⟨⟨_, hc.conserved, ?_, fun hcode => ?_⟩, fun desc => ?_⟩
  · have hroom := hfew.room
    have hlost := hfew.few
    simp only [List.length_append]
    by_cases hopened : ((final (start base) run).control.ends c).readEnd = .opened
    · rw [hopened, if_neg (by decide)] at hlost
      omega
    · have hpipe := hc.unread hopened
      rw [hpipe, List.length_nil]
      split at hlost <;> omega
  · have hreleased := hinv.released hcode c
    have hpipe := hc.unread (by rw [hreleased.readEnd]; decide)
    rw [hpipe, List.append_nil]
    rcases hreleased.thread with hnone | hexited
    · rw [hnone]
      rfl
    · rw [hexited]
      rfl
  · exact logsReads_iff desc fun bytes hbytes => hc.sizes bytes (.inl hbytes)

theorem runcmd_logs_plain :
    ((final (start []) plainRun).channel .stdout).reads = [[0x41, 0x0a]] ∧
      (∃ rest, ((final (start []) plainRun).channel .stdout).written =
          ((final (start []) plainRun).channel .stdout).reads.flatten ++ rest ∧
        rest.length ≤ bufSize + 0x4000 ∧
        ((final (start []) plainRun).code = .ret →
          rest = ((final (start []) plainRun).channel .stdout).lost)) ∧
      ∀ desc, ((final (start []) plainRun).channel .stdout).LogsReads desc ↔
        ∀ bytes ∈ ((final (start []) plainRun).channel .stdout).reads,
          bytes.length < bufSize ∧ 0#8 ∉ bytes :=
  ⟨rfl, runcmd_logs isRun_plainRun plainRun_succeeds .stdout⟩

end Jbinit.Palera1nd.Runcmd

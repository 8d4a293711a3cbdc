import Jbinit.CString
import Jbinit.Foundations.Lines
import Mathlib.Algebra.Group.Nat.Defs

/-!
# `fixup_pwgrp_file`

At every boot the loader appends the users and groups of the system to the files of the jailbreak.
An entry is missing if its name does not occur between a newline and a colon; it is appended as a
line, whatever the last byte of the file is. The file is merged as it should be exactly if that byte
is a newline, the missing lines have colons and different names, and no long name begins like a
line of the file (`fixupPwgrpFile_merges_iff`).
-/

namespace Jbinit.Loader

open Foundations Substrings Lines

/-! ## The file -/

def intMax : ℕ := 2 ^ 31 - 1

/-- A file that is opened with `O_APPEND`, and the number of calls that have written to it. -/
structure JbFile where
  bytes : CStr
  offset : ℕ
  calls : ℕ

def JbFile.lseek (f : JbFile) (offset : ℕ) : JbFile := { f with offset }

/-- The first bytes of the data are written at the end of the file, wherever the offset is: `split`
of them where that is possible. -/
def JbFile.write (f : JbFile) (split : ℕ → ℕ) (data : CStr) : ℕ × JbFile :=
  let didWrite := min (max 1 (split f.calls)) data.length
  let bytes := f.bytes ++ data.take didWrite
  (didWrite, ⟨bytes, bytes.length, f.calls + 1⟩)

/-- `write_fdout`, for the part of the data that is left. `split i` is what the `i`-th call can
write. -/
def writeFdout (split : ℕ → ℕ) (f : JbFile) (buf : CStr) (written : ℕ) : ℕ × JbFile :=
  let didWrite := (f.write split (buf.take intMax)).1
  let f := (f.write split (buf.take intMax)).2
  if 0 < buf.length - didWrite then writeFdout split f (buf.drop didWrite) (written + didWrite)
  else (written + didWrite, f)
termination_by buf.length
decreasing_by
  have hpos : 0 < intMax := by decide
  simp only [JbFile.write, List.length_take, List.length_drop] at *
  omega

/-! ## The entries -/

/-- `strsep(&entry, ":")`. -/
def entryName (entry : CStr) : CStr := entry.takeWhile fun c => c != ':'

/-- A name that begins with NUL is empty. -/
def skipped : CStr → Bool
  | [] => true
  | c :: _ => c == '#' || c == ' '

def newlinename (name : CStr) : CStr := CStr.snprintf 260 ('\n' :: (name ++ [':']))

/-- The checks of the loop: the entry is appended. -/
def isMissing (jbFileBuf entry : CStr) : Bool :=
  !skipped (entryName entry) && (search (newlinename (entryName entry)) jbFileBuf).isNone

/-- `SEEK_END`, which is passed as the offset. -/
def seekEnd : ℕ := 2

/-- The loop; the result is `none` where a check fails and the loader stops. -/
def fixupEntries (split : ℕ → ℕ) (jbFileBuf : CStr) : List CStr → JbFile → Option JbFile
  | [], jbFd => some jbFd
  | entry :: entries, jbFd =>
    if !isMissing jbFileBuf entry then fixupEntries split jbFileBuf entries jbFd
    else
      let r₁ := writeFdout split (jbFd.lseek seekEnd) entry 0
      if r₁.1 ≠ entry.length then none
      else
        let r₂ := writeFdout split r₁.2 ['\n'] 0
        if r₂.1 ≠ 1 then none else fixupEntries split jbFileBuf entries r₂.2

/-- `fixup_pwgrp_file`, for the contents of the two files. -/
def fixupPwgrpFile (split : ℕ → ℕ) (sysfile jbfile : CStr) : Option CStr :=
  (fixupEntries split ('\n' :: jbfile) (sysfile.splitOn '\n') ⟨jbfile, jbfile.length, 0⟩).map
    JbFile.bytes

/-! ## What is appended -/

@[simp] theorem JbFile.lseek_bytes (f : JbFile) (offset : ℕ) : (f.lseek offset).bytes = f.bytes :=
  rfl

/-- A call writes the beginning of the data, and some of it if there is any. -/
theorem write_eq (split : ℕ → ℕ) (f : JbFile) (buf : CStr) :
    ((f.write split (buf.take intMax)).1 ≤ buf.length ∧
      (buf ≠ [] → 0 < (f.write split (buf.take intMax)).1)) ∧
    (f.write split (buf.take intMax)).2.bytes =
      f.bytes ++ buf.take (f.write split (buf.take intMax)).1 := by
  have hmax : 0 < intMax := by decide
  simp only [JbFile.write, List.length_take, List.take_take]
  refine ⟨⟨by omega, fun hbuf => ?_⟩, ?_⟩
  · have hpos := List.length_pos_of_ne_nil hbuf
    omega
  · congr 2
    omega

/-- **The loop of `write_fdout`** appends all of the data, however the calls split it. -/
theorem writeFdout_eq (split : ℕ → ℕ) (f : JbFile) (buf : CStr) (written : ℕ) :
    (writeFdout split f buf written).1 = written + buf.length ∧
      (writeFdout split f buf written).2.bytes = f.bytes ++ buf := by
  induction hn : buf.length using Nat.strongRecOn generalizing f buf written with
  | ind n ih =>
    subst hn
    obtain ⟨hcount, hbytes⟩ := write_eq split f buf
    rw [writeFdout]
    generalize f.write split (buf.take intMax) = r at hcount hbytes ⊢
    obtain ⟨didWrite, f'⟩ := r
    dsimp only at hcount hbytes ⊢
    by_cases hleft : 0 < buf.length - didWrite
    · have hpos := hcount.2 (List.ne_nil_of_length_pos (by omega))
      have hdrop : (buf.drop didWrite).length = buf.length - didWrite := List.length_drop
      obtain ⟨hwritten, hrest⟩ := ih _ (by omega) f' (buf.drop didWrite) (written + didWrite) rfl
      rw [if_pos hleft, hwritten, hrest, hbytes, List.append_assoc, List.take_append_drop, hdrop]
      exact ⟨by omega, rfl⟩
    · rw [if_neg hleft, hbytes, List.take_of_length_le (by omega)]
      exact ⟨by omega, rfl⟩

/-- The lines that are appended. -/
def missing (sysfile jbfile : CStr) : List CStr :=
  (sysfile.splitOn '\n').filter (isMissing ('\n' :: jbfile))

theorem fixupEntries_eq (split : ℕ → ℕ) (jbFileBuf : CStr) (entries : List CStr) (jbFd : JbFile) :
    (fixupEntries split jbFileBuf entries jbFd).map JbFile.bytes =
      some (jbFd.bytes ++ (entries.filter (isMissing jbFileBuf)).flatMap fun e => e ++ ['\n']) := by
  induction entries generalizing jbFd with
  | nil => simp [fixupEntries]
  | cons entry entries ih =>
    rw [fixupEntries]
    cases hmissing : isMissing jbFileBuf entry with
    | false =>
      rw [List.filter_cons_of_neg (by simp [hmissing])]
      exact ih jbFd
    | true =>
      have hentry := writeFdout_eq split (jbFd.lseek seekEnd) entry 0
      have hnewline := writeFdout_eq split (writeFdout split (jbFd.lseek seekEnd) entry 0).2 ['\n'] 0
      rw [Nat.zero_add] at hentry hnewline
      rw [List.filter_cons_of_pos hmissing, List.flatMap_cons]
      simp only [Bool.not_true, Bool.false_eq_true, if_false, hentry.1, hnewline.1, ne_eq,
        not_true_eq_false, List.length_singleton, ih, hnewline.2, hentry.2,
        JbFile.lseek_bytes, List.append_assoc]

/-- **The run**: every missing line is appended with a newline. -/
theorem fixupPwgrpFile_eq (split : ℕ → ℕ) (sysfile jbfile : CStr) :
    fixupPwgrpFile split sysfile jbfile =
      some (jbfile ++ (missing sysfile jbfile).flatMap fun e => e ++ ['\n']) :=
  fixupEntries_eq split _ _ _

/-! ## Names -/

/-- The name of a line: the text before the first colon. A line without a colon has none. -/
def lineName (line : CStr) : Option CStr := if ':' ∈ line then some (entryName line) else none

/-- A line with a name that is no comment: it begins with none of these characters. -/
def IsEntry (line : CStr) : Prop :=
  ':' ∈ line ∧ line.head? ≠ some '#' ∧ line.head? ≠ some ' ' ∧ line.head? ≠ some ':'

theorem colon_notMem_entryName (line : CStr) : ':' ∉ entryName line := by
  intro hmem
  have h := List.all_eq_true.mp List.all_takeWhile ':' hmem
  simp at h

/-- A line with a name begins with it and a colon. -/
theorem entryName_colon {line : CStr} (h : ':' ∈ line) : entryName line ++ [':'] <+: line := by
  induction line with
  | nil => cases h
  | cons c line ih =>
    by_cases hc : c = ':'
    · simp [entryName, hc]
    · have hmem : ':' ∈ line := (List.mem_cons.mp h).resolve_left (Ne.symm hc)
      simpa [entryName, hc] using ih hmem

/-- What a line with a name begins with. -/
theorem prefix_iff_lineName {name : CStr} (hname : ':' ∉ name) (line : CStr) :
    name ++ [':'] <+: line ↔ lineName line = some name := by
  constructor
  · rintro ⟨rest, rfl⟩
    have hcolon : ':' ∈ name ++ [':'] ++ rest := by simp
    rw [lineName, if_pos hcolon, entryName, List.append_assoc, List.takeWhile_append_of_pos]
    · simp
    · intro c hc
      have hne : c ≠ ':' := fun heq => hname (heq ▸ hc)
      simpa using hne
  · intro h
    rw [lineName] at h
    split at h
    case isTrue hcolon =>
      rw [Option.some_inj] at h
      exact h ▸ entryName_colon hcolon
    case isFalse => cases h

/-- What `strstr` looks for behind the newline. -/
def key (name : CStr) : CStr := (name ++ [':']).take 258

theorem newlinename_eq (name : CStr) : newlinename name = '\n' :: key name := rfl

theorem key_of_length_lt {name : CStr} (h : name.length < 258) : key name = name ++ [':'] := by
  refine List.take_of_length_le ?_
  rw [List.length_append, List.length_singleton]
  omega

theorem key_of_le_length {name : CStr} (h : 258 ≤ name.length) : key name = name.take 258 := by
  rw [key, List.take_append_of_le_length h]

theorem skipped_entryName (line : CStr) : skipped (entryName line) = true ↔
    line.head? = none ∨ line.head? = some '#' ∨ line.head? = some ' ' ∨ line.head? = some ':' := by
  cases line with
  | nil => simp [entryName, skipped]
  | cons c line =>
    by_cases hc : c = ':'
    · simp [entryName, skipped, hc]
    · simp [entryName, skipped, hc]

theorem IsEntry.not_skipped {line : CStr} (h : IsEntry line) : skipped (entryName line) = false := by
  obtain ⟨hcolon, hhead⟩ := h
  rw [Bool.eq_false_iff, Ne, skipped_entryName]
  have hne : line.head? ≠ none := by
    rintro hnil
    rw [List.head?_eq_none_iff] at hnil
    simp [hnil] at hcolon
  simp [hne, hhead]

/-! ## The missing lines -/

section Missing

variable {sysfile jbfile l : CStr}

theorem key_ne_nil (name : CStr) : key name ≠ [] := by
  simp [key]

theorem newline_notMem_key (hl : '\n' ∉ l) : '\n' ∉ key (entryName l) := by
  intro hmem
  have hwhole := List.mem_of_mem_take hmem
  rw [List.mem_append, List.mem_singleton] at hwhole
  rcases hwhole with hname | hcolon
  · exact hl (List.takeWhile_subset _ hname)
  · exact absurd hcolon (by decide)

/-- The key of a name begins a line of the file. -/
def Found (jbfile name : CStr) : Prop := ∃ l ∈ lines '\n' jbfile, key name <+: l

/-- `strstr` finds what begins a line. -/
theorem isMissing_iff (hl : '\n' ∉ l) : isMissing ('\n' :: jbfile) l = true ↔
    skipped (entryName l) = false ∧ ¬Found jbfile (entryName l) := by
  have hinfix := infix_iff_line (key_ne_nil (entryName l)) (newline_notMem_key hl) jbfile
  rw [isMissing, newlinename_eq, Bool.and_eq_true, Bool.not_eq_true', Found, ← hinfix]
  have hsearch : (search ('\n' :: key (entryName l)) ('\n' :: jbfile)).isNone = true ↔
      ¬ '\n' :: key (entryName l) <:+: '\n' :: jbfile := by
    constructor
    · intro hnone hwithin
      have hsome := search_isSome hwithin
      rw [Option.isSome_iff_ne_none] at hsome
      exact hsome (Option.isNone_iff_eq_none.mp hnone)
    · intro hnot
      rw [search_eq_none hnot]
      rfl
  rw [hsearch]

theorem ne_nil_of_not_skipped (h : skipped (entryName l) = false) : l ≠ [] := by
  rintro rfl
  cases h

theorem mem_missing_iff : l ∈ missing sysfile jbfile ↔
    l ∈ lines '\n' sysfile ∧ skipped (entryName l) = false ∧ ¬Found jbfile (entryName l) := by
  rw [missing, List.mem_filter]
  constructor
  · rintro ⟨hmem, hmissing⟩
    rw [isMissing_iff (not_mem_of_mem_splitOn hmem)] at hmissing
    exact ⟨(mem_lines_iff (ne_nil_of_not_skipped hmissing.1)).mpr hmem, hmissing⟩
  · rintro ⟨hmem, hmissing⟩
    have hpiece := (mem_lines_iff (ne_nil_of_not_skipped hmissing.1)).mp hmem
    exact ⟨hpiece, (isMissing_iff (not_mem_of_mem_splitOn hpiece)).mpr hmissing⟩

theorem newline_notMem_of_mem_missing (h : l ∈ missing sysfile jbfile) : '\n' ∉ l :=
  not_mem_of_mem_splitOn (List.mem_filter.mp h).1

/-- A name of the file is found. -/
theorem found_of_lineName {name l' : CStr} (hname : ':' ∉ name) (hl' : l' ∈ lines '\n' jbfile)
    (h : lineName l' = some name) : Found jbfile name :=
  ⟨l', hl', ((List.take_prefix 258 _).trans ((prefix_iff_lineName hname l').mpr h))⟩

theorem not_found_of_mem_missing (h : l ∈ missing sysfile jbfile) : ¬Found jbfile (entryName l) :=
  (mem_missing_iff.mp h).2.2

end Missing

/-! ## The merge -/

/-- The lines of the merged file behind those that were there. -/
def added (jbfile merged : CStr) : List CStr :=
  (lines '\n' merged).drop (lines '\n' jbfile).length

/-- The file is merged as it should be: the lines that were there stay as they are, the names of the
entries of the system file are there, the lines added are such entries with different names that
nothing had before, and a second run adds nothing. -/
structure Merges (sysfile jbfile merged : CStr) : Prop where
  unchanged : lines '\n' jbfile <+: lines '\n' merged
  complete : ∀ l ∈ lines '\n' sysfile, IsEntry l →
    ∃ l' ∈ lines '\n' merged, lineName l' = some (entryName l)
  isEntry : ∀ l ∈ added jbfile merged, l ∈ lines '\n' sysfile ∧ IsEntry l
  fresh : ∀ l ∈ added jbfile merged, ∀ l' ∈ lines '\n' jbfile, lineName l' ≠ some (entryName l)
  distinct : ((added jbfile merged).map entryName).Nodup
  again : ∀ split, fixupPwgrpFile split sysfile merged = some merged

/-- What the merge relies on. -/
structure Mergeable (sysfile jbfile : CStr) : Prop where
  terminated : missing sysfile jbfile = [] ∨ Terminated '\n' jbfile
  colon : ∀ l ∈ missing sysfile jbfile, ':' ∈ l
  distinct : ((missing sysfile jbfile).map entryName).Nodup
  /-- A long name that begins like a line of the file is the name of a line. -/
  long : ∀ l ∈ lines '\n' sysfile, IsEntry l → 258 ≤ (entryName l).length →
    (∃ l' ∈ lines '\n' jbfile, (entryName l).take 258 <+: l') →
      ∃ l' ∈ lines '\n' jbfile, lineName l' = some (entryName l)

variable {sysfile jbfile : CStr}

/-- The file after the run. -/
def merge (sysfile jbfile : CStr) : CStr :=
  jbfile ++ (missing sysfile jbfile).flatMap fun e => e ++ ['\n']

theorem merge_of_missing_eq_nil (h : missing sysfile jbfile = []) : merge sysfile jbfile = jbfile := by
  simp [merge, h]

/-- The missing lines become lines of their own behind a last newline. -/
theorem lines_merge (h : missing sysfile jbfile = [] ∨ Terminated '\n' jbfile) :
    lines '\n' (merge sysfile jbfile) = lines '\n' jbfile ++ missing sysfile jbfile := by
  rcases h with hnil | hterminated
  · rw [merge_of_missing_eq_nil hnil, hnil, List.append_nil]
  · rw [merge, lines_append hterminated, lines_flatMap fun l => newline_notMem_of_mem_missing]

theorem added_merge (h : missing sysfile jbfile = [] ∨ Terminated '\n' jbfile) :
    added jbfile (merge sysfile jbfile) = missing sysfile jbfile := by
  rw [added, lines_merge h, List.drop_left]

/-- Without a last newline the first missing line continues the last line. -/
theorem terminated_of_unchanged (h : lines '\n' jbfile <+: lines '\n' (merge sysfile jbfile)) :
    missing sysfile jbfile = [] ∨ Terminated '\n' jbfile := by
  cases hmissing : missing sysfile jbfile with
  | nil => exact .inl rfl
  | cons e es =>
    obtain ⟨t, r, rfl, ht, hr⟩ := exists_terminated_append '\n' jbfile
    have hmem : e ∈ missing sysfile (t ++ r) := hmissing ▸ List.mem_cons_self
    rw [merge, hmissing, List.flatMap_cons, List.append_assoc e, List.singleton_append,
      lines_append_append ht hr (newline_notMem_of_mem_missing hmem), lines_append ht,
      List.prefix_append_right_inj, lines_of_not_mem hr] at h
    by_cases hnil : r = []
    · exact .inr (by rwa [hnil, List.append_nil])
    · rw [if_neg hnil, List.cons_prefix_cons] at h
      have he : e = [] := by simpa using h.1
      exact absurd he (ne_nil_of_not_skipped (mem_missing_iff.mp hmem).2.1)

theorem isEntry_of_mem_missing {l : CStr} (h : l ∈ missing sysfile jbfile) (hcolon : ':' ∈ l) :
    l ∈ lines '\n' sysfile ∧ IsEntry l := by
  obtain ⟨hmem, hskipped, -⟩ := mem_missing_iff.mp h
  have hnot := mt (skipped_entryName l).mpr (by simp [hskipped])
  simp only [not_or] at hnot
  exact ⟨hmem, hcolon, hnot.2⟩

/-- A name that is found is the name of a line, or a long one. -/
theorem Mergeable.lineName_of_found (h : Mergeable sysfile jbfile) {l : CStr}
    (hl : l ∈ lines '\n' sysfile) (hentry : IsEntry l) (hfound : Found jbfile (entryName l)) :
    ∃ l' ∈ lines '\n' jbfile, lineName l' = some (entryName l) := by
  obtain ⟨l', hl', hkey⟩ := hfound
  by_cases hlong : 258 ≤ (entryName l).length
  · rw [key_of_le_length hlong] at hkey
    exact h.long l hl hentry hlong ⟨l', hl', hkey⟩
  · rw [key_of_length_lt (by omega)] at hkey
    exact ⟨l', hl', (prefix_iff_lineName (colon_notMem_entryName l) l').mp hkey⟩

/-- **A second run** finds every name. -/
theorem Mergeable.missing_merge (h : Mergeable sysfile jbfile) :
    missing sysfile (merge sysfile jbfile) = [] := by
  rw [List.eq_nil_iff_forall_not_mem]
  intro l hl
  obtain ⟨hmem, hskipped, hnot⟩ := mem_missing_iff.mp hl
  have hlines := lines_merge h.terminated
  refine hnot ?_
  by_cases hfound : Found jbfile (entryName l)
  · obtain ⟨l', hl', hkey⟩ := hfound
    exact ⟨l', by rw [hlines]; exact List.mem_append_left _ hl', hkey⟩
  · have hmissing := mem_missing_iff.mpr ⟨hmem, hskipped, hfound⟩
    refine ⟨l, by rw [hlines]; exact List.mem_append_right _ hmissing, ?_⟩
    exact (List.take_prefix 258 _).trans (entryName_colon (h.colon l hmissing))

theorem Mergeable.merges (h : Mergeable sysfile jbfile) :
    Merges sysfile jbfile (merge sysfile jbfile) where
  unchanged := by
    rw [lines_merge h.terminated]
    exact List.prefix_append _ _
  complete := by
    intro l hl hentry
    rw [lines_merge h.terminated]
    by_cases hfound : Found jbfile (entryName l)
    · obtain ⟨l', hl', hname⟩ := h.lineName_of_found hl hentry hfound
      exact ⟨l', List.mem_append_left _ hl', hname⟩
    · have hmissing := mem_missing_iff.mpr ⟨hl, hentry.not_skipped, hfound⟩
      exact ⟨l, List.mem_append_right _ hmissing, if_pos hentry.1⟩
  isEntry := by
    intro l hl
    rw [added_merge h.terminated] at hl
    exact isEntry_of_mem_missing hl (h.colon l hl)
  fresh := by
    intro l hl l' hl' hname
    rw [added_merge h.terminated] at hl
    exact not_found_of_mem_missing hl (found_of_lineName (colon_notMem_entryName l) hl' hname)
  distinct := by
    rw [added_merge h.terminated]
    exact h.distinct
  again := by
    intro split
    rw [fixupPwgrpFile_eq, h.missing_merge, List.flatMap_nil, List.append_nil]

theorem Merges.mergeable (h : Merges sysfile jbfile (merge sysfile jbfile)) :
    Mergeable sysfile jbfile := by
  have hterminated := terminated_of_unchanged h.unchanged
  have hadded := added_merge hterminated
  have hentry := h.isEntry
  have hdistinct := h.distinct
  rw [hadded] at hentry hdistinct
  refine ⟨hterminated, fun l hl => (hentry l hl).2.1, hdistinct, ?_⟩
  intro l hl hl' hlong hbegins
  -- A long name that is found is not added, so it is there already.
  have hfound : Found jbfile (entryName l) := by
    rw [← key_of_le_length hlong] at hbegins
    exact hbegins
  obtain ⟨l', hmem, hname⟩ := h.complete l hl hl'
  rw [lines_merge hterminated, List.mem_append] at hmem
  rcases hmem with hmem | hmem
  · exact ⟨l', hmem, hname⟩
  · have hsame : entryName l' = entryName l := by
      rw [lineName, if_pos (hentry l' hmem).2.1, Option.some_inj] at hname
      exact hname
    exact absurd (hsame ▸ hfound) (not_found_of_mem_missing hmem)

/-- **When the file is merged as it should be.** -/
theorem fixupPwgrpFile_merges_iff (split : ℕ → ℕ) (sysfile jbfile : CStr) :
    (∃ merged, fixupPwgrpFile split sysfile jbfile = some merged ∧ Merges sysfile jbfile merged) ↔
      Mergeable sysfile jbfile := by
  have hrun : fixupPwgrpFile split sysfile jbfile = some (merge sysfile jbfile) :=
    fixupPwgrpFile_eq split sysfile jbfile
  constructor
  · rintro ⟨merged, hmerged, hmerges⟩
    rw [hrun, Option.some_inj] at hmerged
    subst hmerged
    exact hmerges.mergeable
  · exact fun h => ⟨merge sysfile jbfile, hrun, h.merges⟩

/-- The file of the jailbreak has no newline at its end, and its line is continued. -/
theorem fixupPwgrpFile_unterminated : ¬∃ merged,
    fixupPwgrpFile (fun _ => 64) "_new:*:300:300\n".toList "mobile:x:501:501".toList = some merged ∧
      Merges "_new:*:300:300\n".toList "mobile:x:501:501".toList merged := by
  rintro ⟨merged, hmerged, hmerges⟩
  rw [fixupPwgrpFile_eq, Option.some_inj] at hmerged
  subst hmerged
  have hprefix := hmerges.unchanged
  revert hprefix
  decide

end Jbinit.Loader

import Jbinit.PayloadDylib.Launchd
import Jbinit.Foundations.Entries
import Jbinit.Foundations.Numerals
import Jbinit.Foundations.Transitions

/-!
# The daemons that launchd is told about

launchd looks its configuration up with `xpc_dictionary_get_value`, which payload.dylib has hooked.
A look-up of `LaunchDaemons` sets the daemons of the jailbreak in the dictionary that it answers,
and one of `Paths` appends their directories to the array that it answers, so what a look-up adds is
there at the next one. The daemons are set again, but the directories are appended again, and so is
the `-u` of the payload daemon where its file cannot be read. The look-ups of a run are idempotent
exactly when none of them appends what is there already (`idempotent_iff`).

No object of the dictionary is in two places of it. What `HAVE_DEBUG_SHELL` says is a parameter.
-/

namespace Jbinit.PayloadDylib

open Foundations Palera1nd

/-! ## Objects -/

/-- An object of launchd's configuration; `other` is one that no function here looks into. -/
inductive Object
  | dictionary (entries : List (CStr × Object))
  | array (items : List Object)
  | string (value : CStr)
  | bool (value : Bool)
  | other (n : ℕ)

namespace Object

/-- The entries of a dictionary. -/
abbrev Dictionary := Entries CStr Object

/-- `xpc_dictionary_get_dictionary`; `none` is NULL. -/
def getDictionary (dict : Dictionary) (key : CStr) : Option Dictionary :=
  match dict.get key with
  | some (.dictionary dict) => some dict
  | _ => none

/-- `xpc_dictionary_get_array`. -/
def getArray (dict : Dictionary) (key : CStr) : Option (List Object) :=
  match dict.get key with
  | some (.array items) => some items
  | _ => none

def isString (value : CStr) : Object → Bool
  | .string value' => value' == value
  | _ => false

/-- How often a string is in an array. -/
def occurrences (value : CStr) (items : List Object) : ℕ := items.countP (isString value)

end Object

open Object

/-! ## `daemon.c` -/

def palerainOptionTelnetd : Flags := 1#64 <<< 32

def payloadPlist : CStr := "/cores/binpack/Library/LaunchDaemons/payload.plist".toList
def palera1ndPlist : CStr := "/cores/binpack/Library/LaunchDaemons/palera1nd.plist".toList
def debugShellPlist : CStr := "/cores/binpack/Library/LaunchDaemons/debug-shell.plist".toList
def telnetdPlist : CStr := "/cores/binpack/Library/LaunchDaemons/telnetd.plist".toList
def rootfulSshdPlist : CStr := "/Library/LaunchDaemons/com.openssh.sshd.plist".toList
def rootlessSshdPlist : CStr := "/var/jb/Library/LaunchDaemons/com.openssh.sshd.plist".toList

/-- `%d`. -/
def decimal (n : ℤ) : CStr :=
  if n < 0 then '-' :: Nat.toDigits 10 n.natAbs else Nat.toDigits 10 n.natAbs

/-- `dropbearBuf`. -/
def dropbearPlist (platform : ℤ) : CStr :=
  CStr.snprintf 150 ("/cores/binpack/Library/LaunchDaemons/dropbear-".toList ++ decimal platform ++
    ".plist".toList)

def fakePath (path : CStr) : CStr :=
  CStr.snprintf 1024 ("/System/Library/LaunchDaemons/".toList ++ CStr.basenameR path)

/-- How far `append_daemon_from_plist` comes with a file; `mapped` has what
`xpc_create_from_plist` makes of it. -/
inductive PlistFile
  | notOpened
  | noSize
  | notMapped
  | mapped (plist : Option Object)

/-- What the hook goes by, which is the same at every look-up. -/
structure DaemonHooks where
  pflags : Flags
  platform : ℤ
  /-- `XPC_USERSPACE_REBOOTED` is set. -/
  userspaceRebooted : Bool
  /-- `HAVE_DEBUG_SHELL` is defined. -/
  debugShell : Bool
  file : CStr → PlistFile

def launchDaemons : CStr := "LaunchDaemons".toList
def sysstatuscheck : CStr := "sysstatuscheck".toList
def paths : CStr := "Paths".toList
def programArguments : CStr := "ProgramArguments".toList
def userspaceReboot : CStr := "-u".toList

def rootfulDaemons : CStr := "/Library/LaunchDaemons".toList
def rootlessDaemons : CStr := "/var/jb/Library/LaunchDaemons".toList
def rootlessSystemDaemons : CStr := "/var/jb/System/Library/LaunchDaemons".toList

namespace DaemonHooks

variable (hooks : DaemonHooks)

def appendDaemonFromPlist (daemonsDict : Dictionary) (path : CStr) : Dictionary :=
  match hooks.file path with
  | .mapped (some plist) => daemonsDict.set (fakePath path) plist
  | .notOpened | .noSize | .notMapped | .mapped none => daemonsDict

/-- `-u` is appended to the arguments of the payload daemon. -/
def appendUserspaceReboot (daemonsDict : Dictionary) : Handling Dictionary :=
  match getDictionary daemonsDict (fakePath payloadPlist) with
  | none => throw .nullObject
  | some payloadDict =>
    match getArray payloadDict programArguments with
    | none => throw .nullObject
    | some payloadArgs =>
      return daemonsDict.set (fakePath payloadPlist) (.dictionary
        (payloadDict.set programArguments (.array (payloadArgs ++ [.string userspaceReboot]))))

/-- What a look-up of `LaunchDaemons` makes of the dictionary. -/
def appendDaemons (daemonsDict : Dictionary) : Handling Dictionary := do
  let daemonsDict := hooks.appendDaemonFromPlist daemonsDict payloadPlist
  let daemonsDict := hooks.appendDaemonFromPlist daemonsDict palera1ndPlist
  let daemonsDict := if hooks.debugShell then
    hooks.appendDaemonFromPlist daemonsDict debugShellPlist else daemonsDict
  let daemonsDict := hooks.appendDaemonFromPlist daemonsDict (dropbearPlist hooks.platform)
  let daemonsDict := if hooks.pflags.has palerainOptionTelnetd then
    hooks.appendDaemonFromPlist daemonsDict telnetdPlist else daemonsDict
  let daemonsDict ← if hooks.userspaceRebooted then appendUserspaceReboot daemonsDict
    else pure daemonsDict
  if hooks.pflags.has palerainOptionSafemode then
    if hooks.pflags.has palerainOptionRootful then
      return hooks.appendDaemonFromPlist daemonsDict rootfulSshdPlist
    else return hooks.appendDaemonFromPlist daemonsDict rootlessSshdPlist
  else return daemonsDict

/-- The directories that a look-up of `Paths` appends. -/
def addedPaths : List CStr :=
  if hooks.pflags.has palerainOptionSafemode then []
  else if hooks.pflags.has palerainOptionRootful then [rootfulDaemons]
  else [rootlessDaemons, rootlessSystemDaemons]

/-- `sysstatuscheck_task`. -/
def sysstatuscheckTask : Object := .dictionary
  [("PerformAfterUserspaceReboot".toList, .bool true), ("RebootOnSuccess".toList, .bool true),
    ("Program".toList, .string "/cores/payload".toList),
    (programArguments, .array ([.string "/cores/payload".toList, .string "-s".toList] ++
      if hooks.userspaceRebooted then [.string userspaceReboot] else []))]

/-- What is answered for a value of the dictionary, and what the value then is. -/
def hookValue (key : CStr) (retval : Object) : Handling (Object × Object) :=
  if key = launchDaemons then
    match retval with
    | .dictionary daemonsDict => do
      let daemonsDict ← hooks.appendDaemons daemonsDict
      return (.dictionary daemonsDict, .dictionary daemonsDict)
    | retval => return (retval, retval)
  else if key = sysstatuscheck then
    match retval with
    | .dictionary dict => return (hooks.sysstatuscheckTask, .dictionary dict)
    | retval => return (retval, retval)
  else if key = paths then
    match retval with
    | .array items =>
      let items := items ++ hooks.addedPaths.map .string
      return (.array items, .array items)
    | retval => return (retval, retval)
  else return (retval, retval)

/-- The answer, and the dictionary afterwards. -/
def hookXpcDictionaryGetValue (dict : Dictionary) (key : CStr) :
    Handling (Option Object × Dictionary) :=
  match dict.get key with
  | none => return (none, dict)
  | some retval => do
    let (answer, retval) ← hooks.hookValue key retval
    return (some answer, dict.set key retval)

end DaemonHooks

/-! ## The property -/

/-- A look-up: its key, and what is answered. -/
abbrev Lookup := CStr × Option Object

/-- The directories with the daemons of a jailbreak. -/
def jailbreakDirectories : List CStr := [rootfulDaemons, rootlessDaemons, rootlessSystemDaemons]

def argumentsOf : Object → Option (List Object)
  | .dictionary daemon => getArray daemon programArguments
  | _ => none

/-- The arguments of the payload daemon. -/
def payloadArguments (daemonsDict : Dictionary) : Option (List Object) :=
  (daemonsDict.get (fakePath payloadPlist)).bind argumentsOf

/-- No jailbreak directory and no `-u` is answered twice. -/
structure Lookup.AtMostOnce (l : Lookup) : Prop where
  directories : ∀ items, l = (paths, some (.array items)) → ∀ dir ∈ jailbreakDirectories,
    occurrences dir items ≤ 1
  arguments : ∀ daemonsDict, l = (launchDaemons, some (.dictionary daemonsDict)) →
    ∀ args, payloadArguments daemonsDict = some args → occurrences userspaceReboot args ≤ 1

/-- The look-ups of a run, in order: each answers everything at most once, and every two of one key
answer the same. -/
structure Idempotent (lookups : List Lookup) : Prop where
  atMostOnce : ∀ l ∈ lookups, l.AtMostOnce
  same : ∀ l ∈ lookups, ∀ l' ∈ lookups, l'.1 = l.1 → l'.2 = l.2

namespace DaemonHooks

variable (hooks : DaemonHooks)

/-- A look-up that returns. -/
def step (dict : Dictionary) (l : Lookup) (dict' : Dictionary) : Prop :=
  hooks.hookXpcDictionaryGetValue dict l.1 = .ok (l.2, dict')

/-- The object that a file has, if it can be read. -/
def plist (path : CStr) : Option Object :=
  match hooks.file path with
  | .mapped plist => plist
  | .notOpened | .noSize | .notMapped => none

/-- The arguments of the payload daemon: those of its file, or else those in the dictionary. -/
def argumentsBefore (daemonsDict : Dictionary) : Option (List Object) :=
  (hooks.plist payloadPlist <|> daemonsDict.get (fakePath payloadPlist)).bind argumentsOf

/-- Nothing that must be there once is there already when it is appended. -/
structure Fresh (key : CStr) (retval : Object) : Prop where
  directories : key = paths → ∀ items, retval = .array items → ∀ dir ∈ jailbreakDirectories,
    occurrences dir items ≤ 1 ∧ (dir ∈ hooks.addedPaths → occurrences dir items = 0)
  arguments : key = launchDaemons → ∀ daemonsDict, retval = .dictionary daemonsDict →
    ∀ args, hooks.argumentsBefore daemonsDict = some args →
      occurrences userspaceReboot args ≤ 1 ∧
        (hooks.userspaceRebooted = true → occurrences userspaceReboot args = 0)

/-- The condition on a look-up, by the value that the dictionary has before it. -/
def LooksUpFresh (dict : Dictionary) (l : Lookup) : Prop :=
  ∀ retval, dict.get l.1 = some retval → hooks.Fresh l.1 retval

/-! ## The files -/

theorem appendDaemonFromPlist_eq (dict : Dictionary) (path : CStr) :
    hooks.appendDaemonFromPlist dict path =
      match hooks.plist path with
      | some plist => dict.set (fakePath path) plist
      | none => dict := by
  rw [appendDaemonFromPlist, plist]
  cases hooks.file path with
  | mapped plist => cases plist <;> rfl
  | _ => rfl

/-- The daemon of a file is in the dictionary, if the file can be read. -/
def Has (dict : Dictionary) (path : CStr) : Prop :=
  ∀ plist, hooks.plist path = some plist → dict.get (fakePath path) = some plist

/-- A file is added to a dictionary. -/
def appendAll (dict : Dictionary) (paths : List CStr) : Dictionary :=
  paths.foldl hooks.appendDaemonFromPlist dict

variable {hooks} {dict dict' : Dictionary} {path : CStr} {l : List CStr}

theorem Has.of_get_eq (h : hooks.Has dict path)
    (hget : dict'.get (fakePath path) = dict.get (fakePath path)) : hooks.Has dict' path := by
  intro plist hplist
  rw [hget]
  exact h plist hplist

theorem get_append_self : (hooks.appendDaemonFromPlist dict path).get (fakePath path) =
    (hooks.plist path <|> dict.get (fakePath path)) := by
  rw [appendDaemonFromPlist_eq]
  cases hooks.plist path with
  | none => rfl
  | some plist => exact Entries.get_set_self

theorem has_append : hooks.Has (hooks.appendDaemonFromPlist dict path) path := by
  intro plist hplist
  rw [get_append_self, hplist]
  rfl

theorem get_append_of_ne {key : CStr} (h : key ≠ fakePath path) :
    (hooks.appendDaemonFromPlist dict path).get key = dict.get key := by
  rw [appendDaemonFromPlist_eq]
  cases hooks.plist path with
  | none => rfl
  | some plist => exact Entries.get_set_of_ne h

/-- What is there is not added. -/
theorem append_of_has (h : hooks.Has dict path) : hooks.appendDaemonFromPlist dict path = dict := by
  rw [appendDaemonFromPlist_eq]
  cases hplist : hooks.plist path with
  | none => rfl
  | some plist => exact Entries.set_eq_self (h plist hplist)

theorem get_appendAll_of_ne {key : CStr} (h : ∀ path ∈ l, key ≠ fakePath path) :
    (hooks.appendAll dict l).get key = dict.get key := by
  induction l generalizing dict with
  | nil => rfl
  | cons path l ih =>
    rw [List.forall_mem_cons] at h
    exact (ih h.2).trans (get_append_of_ne h.1)

theorem has_appendAll (hkeys : l.Pairwise fun path path' => fakePath path ≠ fakePath path') :
    ∀ path ∈ l, hooks.Has (hooks.appendAll dict l) path := by
  induction l generalizing dict with
  | nil => simp
  | cons path l ih =>
    rw [List.pairwise_cons] at hkeys
    rw [List.forall_mem_cons]
    exact ⟨has_append.of_get_eq (get_appendAll_of_ne hkeys.1), ih hkeys.2⟩

theorem appendAll_of_has (h : ∀ path ∈ l, hooks.Has dict path) :
    hooks.appendAll dict l = dict := by
  induction l with
  | nil => rfl
  | cons path l ih =>
    rw [List.forall_mem_cons] at h
    rw [appendAll, List.foldl_cons, append_of_has h.1]
    exact ih h.2

/-! ## Their keys -/

/-- The files that are added before the arguments of the payload daemon are looked at. -/
def files (hooks : DaemonHooks) : List CStr :=
  palera1ndPlist :: ((if hooks.debugShell then [debugShellPlist] else []) ++
    dropbearPlist hooks.platform ::
      if hooks.pflags.has palerainOptionTelnetd then [telnetdPlist] else [])

/-- The files that are added behind it. -/
def sshdFiles (hooks : DaemonHooks) : List CStr :=
  if hooks.pflags.has palerainOptionSafemode then
    [if hooks.pflags.has palerainOptionRootful then rootfulSshdPlist else rootlessSshdPlist]
  else []

def dropbearKey : CStr := "/System/Library/LaunchDaemons/dropbear-".toList

theorem slash_notMem_decimal (n : ℤ) : '/' ∉ decimal n := by
  have hdigits : '/' ∉ Nat.toDigits 10 n.natAbs := by
    intro hmem
    have h := Numerals.toDigits_isDigitOf (by decide) (by decide) n.natAbs '/' hmem
    revert h
    decide
  rw [decimal]
  split
  · simpa using hdigits
  · exact hdigits

def binpackDaemons : CStr := "/cores/binpack/Library/LaunchDaemons".toList

theorem dropbearPlist_eq (platform : ℤ) : dropbearPlist platform = binpackDaemons ++ '/' ::
    ("dropbear-".toList ++ (decimal platform ++ ".plist".toList).take 103) := by
  have hdir : "/cores/binpack/Library/LaunchDaemons/dropbear-".toList =
      binpackDaemons ++ '/' :: "dropbear-".toList := by
    decide +kernel
  have hlength : (binpackDaemons ++ '/' :: "dropbear-".toList).length = 46 := by
    decide +kernel
  rw [dropbearPlist, CStr.snprintf, hdir, List.append_assoc _ (decimal platform), List.take_append,
    hlength, List.take_of_length_le (by omega)]
  simp

theorem dropbearKey_prefix (platform : ℤ) : dropbearKey <+: fakePath (dropbearPlist platform) := by
  have hname : Delimited.IsComponent '/'
      ("dropbear-".toList ++ (decimal platform ++ ".plist".toList).take 103) := by
    refine ⟨by simp, ?_⟩
    intro hmem
    rcases List.mem_append.mp hmem with h | h
    · revert h
      decide +kernel
    · rcases List.mem_append.mp (List.mem_of_mem_take h) with h | h
      · exact slash_notMem_decimal platform h
      · revert h
        decide +kernel
  have hdir : "/System/Library/LaunchDaemons/".toList ++ "dropbear-".toList = dropbearKey := by
    decide +kernel
  have hlength : dropbearKey.length ≤ 1023 := by
    decide +kernel
  rw [fakePath, CStr.snprintf, dropbearPlist_eq, CStr.basenameR_append hname, ← List.append_assoc,
    hdir, List.take_append, List.take_of_length_le hlength]
  exact List.prefix_append _ _
theorem pairwise_allKeys (platform : ℤ) {sshd : CStr}
    (hsshd : sshd = rootfulSshdPlist ∨ sshd = rootlessSshdPlist) :
    [payloadPlist, palera1ndPlist, debugShellPlist, dropbearPlist platform, telnetdPlist,
      sshd].Pairwise fun path path' => fakePath path ≠ fakePath path' := by
  have hconstant : [payloadPlist, palera1ndPlist, debugShellPlist, telnetdPlist, sshd].Pairwise
        (fun path path' => fakePath path ≠ fakePath path') ∧
      ∀ path ∈ [payloadPlist, palera1ndPlist, debugShellPlist, telnetdPlist, sshd],
        ¬dropbearKey <+: fakePath path := by
    unfold rootfulSshdPlist rootlessSshdPlist at hsshd
    unfold payloadPlist palera1ndPlist debugShellPlist telnetdPlist dropbearKey fakePath
    -- The literals are rewritten, since the kernel is slow at decoding them.
    repeat rw [String.toList_ofList] at hsshd
    repeat rw [String.toList_ofList]
    rcases hsshd with rfl | rfl <;> decide +kernel
  obtain ⟨hkeys, hnot⟩ := hconstant
  have hperm : ([payloadPlist, palera1ndPlist, debugShellPlist] ++
      dropbearPlist platform :: [telnetdPlist, sshd]).Perm (dropbearPlist platform ::
        ([payloadPlist, palera1ndPlist, debugShellPlist] ++ [telnetdPlist, sshd])) :=
    List.perm_middle
  refine (hperm.pairwise_iff Ne.symm).mpr (List.pairwise_cons.mpr ⟨?_, hkeys⟩)
  intro path hpath heq
  exact hnot path hpath (heq ▸ dropbearKey_prefix platform)

theorem ite_sublist {c : Prop} [Decidable c] (path : CStr) :
    (if c then [path] else []).Sublist [path] := by
  split
  · exact .refl _
  · exact List.nil_sublist _

theorem pairwise_keys (hooks : DaemonHooks) :
    (payloadPlist :: (hooks.files ++ hooks.sshdFiles)).Pairwise
      fun path path' => fakePath path ≠ fakePath path' := by
  refine (pairwise_allKeys hooks.platform (ite_eq_or_eq (hooks.pflags.has palerainOptionRootful = true) _ _)).sublist ?_
  rw [files, sshdFiles, List.cons_append, List.append_assoc, List.cons_append]
  exact .cons_cons _ (.cons_cons _ ((ite_sublist debugShellPlist).append
    (.cons_cons _ ((ite_sublist telnetdPlist).append (ite_sublist _)))))
/-- The `-u` of the payload daemon, after a userspace reboot. -/
def reboot (hooks : DaemonHooks) (dict : Dictionary) : Handling Dictionary :=
  if hooks.userspaceRebooted then appendUserspaceReboot dict else pure dict

theorem appendDaemons_eq (dict : Dictionary) : hooks.appendDaemons dict =
    (hooks.reboot (hooks.appendAll (hooks.appendDaemonFromPlist dict payloadPlist)
      hooks.files) >>= fun dict => pure (hooks.appendAll dict hooks.sshdFiles)) := by
  rw [appendDaemons, files, sshdFiles, reboot]
  cases hooks.userspaceRebooted <;> cases hooks.debugShell <;>
    cases hooks.pflags.has palerainOptionTelnetd <;>
    cases hooks.pflags.has palerainOptionSafemode <;>
    cases hooks.pflags.has palerainOptionRootful <;> rfl

/-! ## The arguments of the payload daemon -/

/-- A daemon with `-u` behind its arguments. -/
def withReboot : Object → Option Object
  | .dictionary daemon => (getArray daemon programArguments).map fun args =>
      .dictionary (Entries.set programArguments (.array (args ++ [.string userspaceReboot])) daemon)
  | _ => none

theorem argumentsOf_withReboot {daemon daemon' : Object} (h : withReboot daemon = some daemon') :
    ∃ args, argumentsOf daemon = some args ∧
      argumentsOf daemon' = some (args ++ [.string userspaceReboot]) := by
  cases daemon with
  | dictionary daemon =>
    rw [withReboot, Option.map_eq_some_iff] at h
    obtain ⟨args, hargs, rfl⟩ := h
    refine ⟨args, hargs, ?_⟩
    rw [argumentsOf, getArray, Entries.get_set_self]
  | _ => cases h

theorem appendUserspaceReboot_eq_ok_iff : appendUserspaceReboot dict = .ok dict' ↔
    ∃ daemon daemon', dict.get (fakePath payloadPlist) = some daemon ∧
      withReboot daemon = some daemon' ∧ dict' = dict.set (fakePath payloadPlist) daemon' := by
  rw [appendUserspaceReboot, getDictionary]
  constructor
  · intro h
    split at h
    case h_1 => cases h
    case h_2 payloadDict hdict =>
      split at h
      case h_1 => cases h
      case h_2 payloadArgs hargs =>
        cases h
        split at hdict
        case h_1 daemon hget =>
          cases hdict
          exact ⟨_, _, hget, by rw [withReboot, hargs]; rfl, rfl⟩
        case h_2 => cases hdict
  · rintro ⟨daemon, daemon', hget, hdaemon, rfl⟩
    cases daemon with
    | dictionary daemon =>
      rw [withReboot, Option.map_eq_some_iff] at hdaemon
      obtain ⟨args, hargs, rfl⟩ := hdaemon
      simp only [hget, hargs]
      rfl
    | _ => cases hdaemon

theorem get_reboot_of_ne (h : hooks.reboot dict = .ok dict') {key : CStr}
    (hne : key ≠ fakePath payloadPlist) : dict'.get key = dict.get key := by
  rw [reboot] at h
  split at h
  · obtain ⟨daemon, daemon', -, -, rfl⟩ := appendUserspaceReboot_eq_ok_iff.mp h
    exact Entries.get_set_of_ne hne
  · cases h
    rfl

theorem appendDaemons_eq_ok_iff : hooks.appendDaemons dict = .ok dict' ↔
    ∃ rebooted, hooks.reboot (hooks.appendAll (hooks.appendDaemonFromPlist dict payloadPlist)
      hooks.files) = .ok rebooted ∧ dict' = hooks.appendAll rebooted hooks.sshdFiles := by
  rw [appendDaemons_eq]
  cases hooks.reboot _ with
  | error e => exact ⟨fun h => (by cases h), fun ⟨_, h, _⟩ => (by cases h)⟩
  | ok rebooted =>
    constructor
    · intro h
      cases h
      exact ⟨rebooted, rfl, rfl⟩
    · rintro ⟨_, ⟨⟩, rfl⟩
      rfl

theorem payloadKey_ne : ∀ path ∈ hooks.files ++ hooks.sshdFiles,
    fakePath payloadPlist ≠ fakePath path :=
  (List.pairwise_cons.mp hooks.pairwise_keys).1

/-- The payload daemon before `-u` is appended. -/
theorem get_payload : (hooks.appendAll (hooks.appendDaemonFromPlist dict payloadPlist)
    hooks.files).get (fakePath payloadPlist) =
      (hooks.plist payloadPlist <|> dict.get (fakePath payloadPlist)) := by
  rw [get_appendAll_of_ne fun path hpath => payloadKey_ne path (List.mem_append_left _ hpath),
    get_append_self]

theorem get_payload_sshd : (hooks.appendAll dict hooks.sshdFiles).get (fakePath payloadPlist) =
    dict.get (fakePath payloadPlist) :=
  get_appendAll_of_ne fun path hpath => payloadKey_ne path (List.mem_append_right _ hpath)

/-- What a look-up does to the arguments of the payload daemon. -/
theorem payloadArguments_appendDaemons (h : hooks.appendDaemons dict = .ok dict') :
    payloadArguments dict' = (hooks.argumentsBefore dict).map fun args =>
      args ++ if hooks.userspaceRebooted then [.string userspaceReboot] else [] := by
  obtain ⟨rebooted, hreboot, rfl⟩ := appendDaemons_eq_ok_iff.mp h
  rw [payloadArguments, get_payload_sshd, argumentsBefore, ← get_payload]
  rw [reboot] at hreboot
  split at hreboot
  case isTrue hu =>
    obtain ⟨daemon, daemon', hget, hdaemon, rfl⟩ := appendUserspaceReboot_eq_ok_iff.mp hreboot
    obtain ⟨args, hargs, hargs'⟩ := argumentsOf_withReboot hdaemon
    rw [Entries.get_set_self, hget, Option.bind_some, Option.bind_some, hargs, hargs', hu]
    rfl
  case isFalse hu =>
    cases hreboot
    simp [hu]

/-- After a look-up, the daemons of the other files are there. -/
theorem has_appendDaemons (h : hooks.appendDaemons dict = .ok dict') :
    ∀ path ∈ hooks.files ++ hooks.sshdFiles, hooks.Has dict' path := by
  obtain ⟨rebooted, hreboot, rfl⟩ := appendDaemons_eq_ok_iff.mp h
  obtain ⟨hfiles, hsshd, hbetween⟩ :=
    List.pairwise_append.mp (List.pairwise_cons.mp hooks.pairwise_keys).2
  intro path hpath
  have hne := (payloadKey_ne path hpath).symm
  rcases List.mem_append.mp hpath with hpath | hpath
  · exact ((has_appendAll hfiles path hpath).of_get_eq (get_reboot_of_ne hreboot hne)).of_get_eq
      (get_appendAll_of_ne fun path' hpath' => hbetween path hpath path' hpath')
  · exact has_appendAll hsshd path hpath

/-- **The daemons are set again** to what they are already, and so is the payload daemon if its
file is what `-u` was appended to. -/
theorem appendDaemons_again (h : hooks.appendDaemons dict = .ok dict')
    (hfresh : hooks.Fresh launchDaemons (.dictionary dict')) :
    hooks.appendDaemons dict' = .ok dict' := by
  have hhas := has_appendDaemons h
  obtain ⟨rebooted, hreboot, hdict'⟩ := appendDaemons_eq_ok_iff.mp h
  have hget : dict'.get (fakePath payloadPlist) = rebooted.get (fakePath payloadPlist) := by
    rw [hdict', get_payload_sshd]
  have hfiles : hooks.appendAll (hooks.appendDaemonFromPlist dict' payloadPlist) hooks.files =
      hooks.appendDaemonFromPlist dict' payloadPlist :=
    appendAll_of_has fun path hpath =>
      (hhas path (List.mem_append_left _ hpath)).of_get_eq
        (get_append_of_ne (payloadKey_ne path (List.mem_append_left _ hpath)).symm)
  have hsshd : hooks.appendAll dict' hooks.sshdFiles = dict' :=
    appendAll_of_has fun path hpath => hhas path (List.mem_append_right _ hpath)
  refine appendDaemons_eq_ok_iff.mpr ⟨dict', ?_, hsshd.symm⟩
  rw [hfiles]
  rw [reboot] at hreboot ⊢
  by_cases hu : hooks.userspaceRebooted = true
  · rw [if_pos hu] at hreboot ⊢
    obtain ⟨daemon, daemon', hdaemon, hwith, rfl⟩ := appendUserspaceReboot_eq_ok_iff.mp hreboot
    rw [Entries.get_set_self] at hget
    rw [get_payload] at hdaemon
    rw [appendDaemonFromPlist_eq]
    cases hplist : hooks.plist payloadPlist with
    | none =>
      -- The arguments in the dictionary have the `-u` of the look-up before.
      obtain ⟨args, -, hargs⟩ := argumentsOf_withReboot hwith
      have hbefore : hooks.argumentsBefore dict' = some (args ++ [.string userspaceReboot]) := by
        rw [argumentsBefore, hplist, hget]
        exact hargs
      have hzero := (hfresh.arguments rfl dict' rfl _ hbefore).2 hu
      simp [occurrences, isString] at hzero
    | some plist =>
      rw [hplist] at hdaemon
      cases hdaemon
      refine appendUserspaceReboot_eq_ok_iff.mpr ⟨_, daemon', Entries.get_set_self, hwith, ?_⟩
      rw [Entries.set_set, Entries.set_eq_self hget]
  · rw [if_neg hu] at hreboot ⊢
    cases hreboot
    have hpayload : hooks.Has dict' payloadPlist := has_append.of_get_eq <| by
      rw [hget, get_payload, get_append_self]
    rw [append_of_has hpayload]
    rfl

/-! ## One look-up -/

variable {key : CStr} {retval retval' answer : Object}

/-- A value that the hook does not touch. -/
def Plain (key : CStr) : Object → Prop
  | .dictionary _ => key ≠ launchDaemons ∧ key ≠ sysstatuscheck
  | .array _ => key ≠ paths
  | _ => True

/-- What a look-up does, by the key and the value. -/
inductive Hooked (hooks : DaemonHooks) : CStr → Object → Object → Object → Prop
  | daemons {dict dict' : Dictionary} (h : hooks.appendDaemons dict = .ok dict') :
      Hooked hooks launchDaemons (.dictionary dict) (.dictionary dict') (.dictionary dict')
  | task (dict : Dictionary) :
      Hooked hooks sysstatuscheck (.dictionary dict) hooks.sysstatuscheckTask (.dictionary dict)
  | directories (items : List Object) :
      Hooked hooks paths (.array items) (.array (items ++ hooks.addedPaths.map .string))
        (.array (items ++ hooks.addedPaths.map .string))
  | plain {key : CStr} {retval : Object} (h : Plain key retval) : Hooked hooks key retval retval retval

theorem keys_ne : launchDaemons ≠ sysstatuscheck ∧ launchDaemons ≠ paths ∧ sysstatuscheck ≠ paths := by
  decide +kernel

theorem hookValue_daemons (dict : Dictionary) :
    hooks.hookValue launchDaemons (.dictionary dict) =
      (hooks.appendDaemons dict).map fun dict' => (.dictionary dict', .dictionary dict') := by
  rw [hookValue, if_pos rfl]
  cases hooks.appendDaemons dict <;> rfl

theorem hookValue_task (dict : Dictionary) : hooks.hookValue sysstatuscheck (.dictionary dict) =
    .ok (hooks.sysstatuscheckTask, .dictionary dict) := by
  rw [hookValue, if_neg keys_ne.1.symm, if_pos rfl]
  rfl

theorem hookValue_directories (items : List Object) : hooks.hookValue paths (.array items) =
    .ok (.array (items ++ hooks.addedPaths.map .string),
      .array (items ++ hooks.addedPaths.map .string)) := by
  rw [hookValue, if_neg keys_ne.2.1.symm, if_neg keys_ne.2.2.symm, if_pos rfl]
  rfl

theorem hookValue_plain (h : Plain key retval) :
    hooks.hookValue key retval = .ok (retval, retval) := by
  cases retval with
  | dictionary dict =>
    rw [hookValue, if_neg h.1, if_neg h.2]
    split <;> rfl
  | array items =>
    have hkey : key ≠ paths := h
    unfold hookValue
    rw [if_neg hkey]
    split
    · rfl
    · split <;> rfl
  | _ =>
    unfold hookValue
    split
    · rfl
    · split
      · rfl
      · split <;> rfl

/-- The values that are not plain. -/
theorem plain_or (key : CStr) (retval : Object) : Plain key retval ∨
    (key = launchDaemons ∧ ∃ dict, retval = .dictionary dict) ∨
    (key = sysstatuscheck ∧ ∃ dict, retval = .dictionary dict) ∨
    key = paths ∧ ∃ items, retval = .array items := by
  cases retval with
  | dictionary dict =>
    by_cases hdaemons : key = launchDaemons
    · exact .inr (.inl ⟨hdaemons, dict, rfl⟩)
    · by_cases htask : key = sysstatuscheck
      · exact .inr (.inr (.inl ⟨htask, dict, rfl⟩))
      · exact .inl ⟨hdaemons, htask⟩
  | array items =>
    by_cases hpaths : key = paths
    · exact .inr (.inr (.inr ⟨hpaths, items, rfl⟩))
    · exact .inl hpaths
  | _ => exact .inl trivial

theorem hookValue_eq_ok_iff : hooks.hookValue key retval = .ok (answer, retval') ↔
    hooks.Hooked key retval answer retval' := by
  constructor
  · intro h
    rcases plain_or key retval with hplain | ⟨rfl, dict, rfl⟩ | ⟨rfl, dict, rfl⟩ | ⟨rfl, items, rfl⟩
    · rw [hookValue_plain hplain] at h
      cases h
      exact .plain hplain
    · rw [hookValue_daemons] at h
      cases hdaemons : hooks.appendDaemons dict with
      | error e =>
        rw [hdaemons] at h
        cases h
      | ok dict' =>
        rw [hdaemons] at h
        cases h
        exact .daemons hdaemons
    · rw [hookValue_task] at h
      cases h
      exact .task dict
    · rw [hookValue_directories] at h
      cases h
      exact .directories items
  · intro h
    cases h with
    | daemons h =>
      rw [hookValue_daemons, h]
      rfl
    | task dict => exact hookValue_task dict
    | directories items => exact hookValue_directories items
    | plain h => exact hookValue_plain h

theorem occurrences_append (value : CStr) (items items' : List Object) :
    occurrences value (items ++ items') = occurrences value items + occurrences value items' :=
  List.countP_append

theorem occurrences_map_string (value : CStr) (l : List CStr) :
    occurrences value (l.map .string) = l.count value := by
  rw [occurrences, List.countP_map, List.count]
  rfl

theorem nodup_addedPaths : hooks.addedPaths.Nodup := by
  rw [addedPaths]
  split
  · exact List.nodup_nil
  · split <;> decide +kernel

theorem addedPaths_subset : hooks.addedPaths ⊆ jailbreakDirectories := by
  rw [addedPaths, jailbreakDirectories]
  split
  · simp
  · split <;> simp

/-- What is there at most once after elements were put behind it was so before, and not at all if it
is among them. -/
theorem add_le_one_iff {m n : ℕ} {c : Prop} [Decidable c] (hn : n = if c then 1 else 0) :
    m + n ≤ 1 ↔ m ≤ 1 ∧ (c → m = 0) := by
  split at hn
  case isTrue hc =>
    simp only [hc, true_imp_iff]
    omega
  case isFalse hc =>
    simp only [hc, false_imp_iff, and_true]
    omega

theorem atMostOnce_daemons (h : hooks.appendDaemons dict = .ok dict') :
    Lookup.AtMostOnce (launchDaemons, some (.dictionary dict')) ↔
      hooks.Fresh launchDaemons (.dictionary dict) := by
  have hadded : occurrences userspaceReboot
      (if hooks.userspaceRebooted then [.string userspaceReboot] else []) =
        if hooks.userspaceRebooted = true then 1 else 0 := by
    split <;> simp [occurrences, isString]
  have hafter := payloadArguments_appendDaemons h
  constructor
  · intro honce
    refine ⟨fun hkey => absurd hkey keys_ne.2.1, ?_⟩
    rintro - _ ⟨⟩ args hargs
    rw [hargs] at hafter
    have hle := honce.arguments dict' rfl _ hafter
    rwa [occurrences_append, add_le_one_iff hadded] at hle
  · intro hfresh
    refine ⟨fun items heq => absurd (congrArg Prod.fst heq) keys_ne.2.1, ?_⟩
    rintro _ ⟨⟩ args hargs
    rw [hargs] at hafter
    obtain ⟨before, hbefore, rfl⟩ := Option.map_eq_some_iff.mp hafter.symm
    rw [occurrences_append, add_le_one_iff hadded]
    exact hfresh.arguments rfl dict rfl before hbefore

theorem atMostOnce_directories (items : List Object) :
    Lookup.AtMostOnce (paths, some (.array (items ++ hooks.addedPaths.map .string))) ↔
      hooks.Fresh paths (.array items) := by
  have hadded (dir : CStr) : occurrences dir (hooks.addedPaths.map .string) =
      if dir ∈ hooks.addedPaths then 1 else 0 := by
    rw [occurrences_map_string, nodup_addedPaths.count]
  have hiff (dir : CStr) : occurrences dir (items ++ hooks.addedPaths.map .string) ≤ 1 ↔
      occurrences dir items ≤ 1 ∧ (dir ∈ hooks.addedPaths → occurrences dir items = 0) := by
    rw [occurrences_append, add_le_one_iff (hadded dir)]
  constructor
  · intro honce
    refine ⟨?_, fun hkey => absurd hkey.symm keys_ne.2.1⟩
    rintro - _ ⟨⟩ dir hdir
    exact (hiff dir).mp (honce.directories _ rfl dir hdir)
  · intro hfresh
    refine ⟨?_, fun _ heq => absurd (congrArg Prod.fst heq).symm keys_ne.2.1⟩
    rintro _ ⟨⟩ dir hdir
    exact (hiff dir).mpr (hfresh.directories rfl items rfl dir hdir)

/-- **One look-up** answers everything at most once exactly when the value is fresh. -/
theorem atMostOnce_iff (h : hooks.Hooked key retval answer retval') :
    Lookup.AtMostOnce (key, some answer) ↔ hooks.Fresh key retval := by
  obtain ⟨hsysstatuscheck, hpaths, hpaths'⟩ := keys_ne
  cases h with
  | daemons h => exact atMostOnce_daemons h
  | task dict =>
    refine iff_of_true ⟨fun items heq => ?_, fun dict' heq => ?_⟩
      ⟨fun hkey => absurd hkey hpaths', fun hkey => absurd hkey.symm hsysstatuscheck⟩
    · exact absurd (congrArg Prod.fst heq) hpaths'
    · exact absurd (congrArg Prod.fst heq).symm hsysstatuscheck
  | directories items => exact atMostOnce_directories items
  | plain h =>
    refine iff_of_true ⟨?_, ?_⟩ ⟨?_, ?_⟩
    · rintro items ⟨⟩
      exact absurd rfl h
    · rintro dict ⟨⟩
      exact absurd rfl h.1
    · rintro rfl items rfl
      exact absurd rfl h
    · rintro rfl dict rfl
      exact absurd rfl h.1

/-- **The next look-up** of the key answers the same, if it is fresh too. -/
theorem hooked_again (h : hooks.Hooked key retval answer retval')
    (hfresh : hooks.Fresh key retval') : hooks.Hooked key retval' answer retval' := by
  cases h with
  | daemons h => exact .daemons (appendDaemons_again h hfresh)
  | task dict => exact .task dict
  | directories items =>
    have hnil : hooks.addedPaths = [] := by
      refine List.eq_nil_iff_forall_not_mem.mpr fun dir hdir => ?_
      have hzero := (hfresh.directories rfl _ rfl dir (addedPaths_subset hdir)).2 hdir
      rw [occurrences_append, occurrences_map_string] at hzero
      have hpos := List.count_pos_iff.mpr hdir
      omega
    have hagain : hooks.Hooked _ _ _ _ := .directories (items ++ hooks.addedPaths.map .string)
    simp only [hnil, List.map_nil, List.append_nil] at hagain ⊢
    exact hagain
  | plain h => exact .plain h

/-! ## A run of look-ups -/

theorem step_iff {l : Lookup} : hooks.step dict l dict' ↔
    (dict.get l.1 = none ∧ l.2 = none ∧ dict' = dict) ∨
      ∃ retval answer retval', dict.get l.1 = some retval ∧
        hooks.Hooked l.1 retval answer retval' ∧ l.2 = some answer ∧
          dict' = dict.set l.1 retval' := by
  obtain ⟨key, ret⟩ := l
  rw [step, hookXpcDictionaryGetValue]
  cases dict.get key with
  | none =>
    constructor
    · rintro ⟨⟩
      exact .inl ⟨rfl, rfl, rfl⟩
    · rintro (⟨-, rfl, rfl⟩ | ⟨_, _, _, ⟨⟩, -⟩)
      rfl
  | some retval =>
    constructor
    · intro h
      cases hvalue : hooks.hookValue key retval with
      | error e =>
        simp only [hvalue] at h
        cases h
      | ok p =>
        simp only [hvalue] at h
        cases h
        exact .inr ⟨retval, p.1, p.2, rfl, hookValue_eq_ok_iff.mp hvalue, rfl, rfl⟩
    · rintro (⟨⟨⟩, -⟩ | ⟨_, answer, retval', ⟨⟩, hhooked, rfl, rfl⟩)
      simp only [hookValue_eq_ok_iff.mpr hhooked]
      rfl

theorem step_atMostOnce_iff {l : Lookup} (h : hooks.step dict l dict') :
    l.AtMostOnce ↔ hooks.LooksUpFresh dict l := by
  obtain ⟨key, ret⟩ := l
  rcases step_iff.mp h with ⟨hget, rfl, -⟩ | ⟨retval, answer, retval', hget, hhooked, rfl, -⟩
  · refine iff_of_true ⟨?_, ?_⟩ ?_
    · rintro _ ⟨⟩
    · rintro _ ⟨⟩
    · intro retval hsome
      cases hget.symm.trans hsome
  · rw [atMostOnce_iff hhooked]
    refine ⟨fun hfresh _ hsome => ?_, fun hfresh => hfresh retval hget⟩
    cases hget.symm.trans hsome
    exact hfresh

/-- **A step of a run**, after a look-up of some key: it answers the same if it is one of that key,
and keeps the value that the key has. -/
theorem step_settled {l l' : Lookup} {t t' : Dictionary} (h : hooks.step dict l dict')
    (hget : t.get l.1 = dict'.get l.1) (hfresh : hooks.LooksUpFresh t l')
    (h' : hooks.step t l' t') :
    (l'.1 = l.1 → l'.2 = l.2) ∧ t'.get l.1 = dict'.get l.1 := by
  obtain ⟨key, ret⟩ := l
  obtain ⟨key', ret'⟩ := l'
  rw [step_iff] at h h'
  dsimp only at *
  by_cases hkey : key' = key
  · subst hkey
    rcases h with ⟨hnone, rfl, rfl⟩ | ⟨retval, answer, retval', -, hhooked, rfl, rfl⟩
    · rcases h' with ⟨-, rfl, rfl⟩ | ⟨_, _, _, hsome, -⟩
      · exact ⟨fun _ => rfl, hget⟩
      · rw [hget, hnone] at hsome
        cases hsome
    · rw [Entries.get_set_self] at hget ⊢
      have hagain := hookValue_eq_ok_iff.mpr (hooked_again hhooked (hfresh retval' hget))
      rcases h' with ⟨hnone, -⟩ | ⟨_, answer', retval'', hsome, hhooked', rfl, rfl⟩
      · rw [hget] at hnone
        cases hnone
      · rw [hget, Option.some.injEq] at hsome
        subst hsome
        rw [hookValue_eq_ok_iff.mpr hhooked'] at hagain
        cases hagain
        exact ⟨fun _ => rfl, Entries.get_set_self⟩
  · refine ⟨fun heq => absurd heq hkey, ?_⟩
    rcases h' with ⟨-, -, rfl⟩ | ⟨_, _, _, -, -, -, rfl⟩
    · exact hget
    · rw [Entries.get_set_of_ne (Ne.symm hkey), hget]

/-- In a run all of whose steps find fresh values, two look-ups of one key answer the same. -/
theorem pairwise_same {run : List (Lookup × Dictionary)}
    (hrun : Transitions.IsRun hooks.step dict run)
    (hfresh : Transitions.Meets hooks.LooksUpFresh dict run) :
    (run.map Prod.fst).Pairwise fun l l' => l'.1 = l.1 → l'.2 = l.2 := by
  induction run generalizing dict with
  | nil => exact .nil
  | cons p run ih =>
    refine List.pairwise_cons.mpr ⟨?_, ih hrun.2 hfresh.2⟩
    have hsettled (t : Dictionary) (l' : Lookup) (t' : Dictionary)
        (hget : t.get p.1.1 = p.2.get p.1.1) (hmeets : hooks.LooksUpFresh t l')
        (hstep : hooks.step t l' t') :
        (l'.1 = p.1.1 → l'.2 = p.1.2) ∧ t'.get p.1.1 = p.2.get p.1.1 :=
      step_settled hrun.1 hget hmeets hstep
    have hlater := hrun.2.labels (I := fun t => t.get p.1.1 = p.2.get p.1.1)
      (P := fun l' => l'.1 = p.1.1 → l'.2 = p.1.2) hsettled rfl hfresh.2
    intro l' hl'
    obtain ⟨q, hq, rfl⟩ := List.mem_map.mp hl'
    exact hlater q hq

/-- **The look-ups are idempotent** exactly in the runs all of whose steps find fresh values. -/
theorem idempotent_iff {run : List (Lookup × Dictionary)}
    (hrun : Transitions.IsRun hooks.step dict run) :
    Idempotent (run.map Prod.fst) ↔ Transitions.Meets hooks.LooksUpFresh dict run := by
  have hlabels : (∀ l ∈ run.map Prod.fst, l.AtMostOnce) ↔
      Transitions.Meets hooks.LooksUpFresh dict run := by
    rw [List.forall_mem_map]
    exact hrun.labels_iff fun dict l dict' hstep => step_atMostOnce_iff (l := l) hstep
  refine ⟨fun h => hlabels.mp h.atMostOnce, fun h => ⟨hlabels.mpr h, ?_⟩⟩
  have hpairwise := pairwise_same hrun h
  have hflip := hpairwise.imp fun {l l'} hsame (hkey : l.1 = l'.1) => (hsame hkey.symm).symm
  exact fun l hl l' hl' => List.Pairwise.forall_of_forall_of_flip (fun _ _ _ => rfl) hpairwise hflip
    hl hl'

/-- The file of the payload daemon, and its entry in the configuration. -/
def payloadDaemon (args : List CStr) : Object :=
  .dictionary [(programArguments, .array (args.map .string))]

/-- A rootless jailbreak after a userspace reboot, with that file only. -/
def rootless : DaemonHooks where
  pflags := palerainOptionRootless
  platform := 2
  userspaceRebooted := true
  debugShell := false
  file path := if path = payloadPlist then
    .mapped (some (payloadDaemon ["/cores/payload".toList, "-j".toList])) else .notOpened

def configuration (daemons : Dictionary) (dirs : List CStr) : Dictionary :=
  [(launchDaemons, .dictionary daemons), (paths, .array (dirs.map .string))]

def rebooted : Dictionary :=
  [(fakePath payloadPlist, payloadDaemon ["/cores/payload".toList, "-j".toList, userspaceReboot])]

theorem step_daemons_rootless {daemons : Dictionary} (h : daemons = [] ∨ daemons = rebooted)
    (dirs : List CStr) : rootless.step (configuration daemons dirs)
      (launchDaemons, some (.dictionary rebooted)) (configuration rebooted dirs) := by
  have happend : rootless.appendDaemons daemons = .ok rebooted := by
    rcases h with rfl | rfl <;> rfl
  exact step_iff.mpr (.inr ⟨_, _, _, rfl, .daemons happend, rfl, rfl⟩)

theorem step_paths_rootless (daemons : Dictionary) (dirs : List CStr) :
    rootless.step (configuration daemons dirs)
      (paths, some (.array ((dirs ++ [rootlessDaemons, rootlessSystemDaemons]).map .string)))
      (configuration daemons (dirs ++ [rootlessDaemons, rootlessSystemDaemons])) := by
  have hadded : rootless.addedPaths = [rootlessDaemons, rootlessSystemDaemons] := by
    decide +kernel
  have h : rootless.Hooked _ _ _ _ := .directories (dirs.map .string)
  rw [hadded, ← List.map_append] at h
  exact step_iff.mpr (.inr ⟨_, _, _, rfl, h, rfl, rfl⟩)

/-- The daemons are looked up before and after the directories. -/
theorem idempotent_rootless : Idempotent
    [(launchDaemons, some (.dictionary rebooted)),
      (paths, some (.array ([rootlessDaemons, rootlessSystemDaemons].map .string))),
      (launchDaemons, some (.dictionary rebooted))] := by
  have hrun : Transitions.IsRun rootless.step (configuration [] [])
      [((launchDaemons, some (.dictionary rebooted)), configuration rebooted []),
        ((paths, some (.array ([rootlessDaemons, rootlessSystemDaemons].map .string))),
          configuration rebooted [rootlessDaemons, rootlessSystemDaemons]),
        ((launchDaemons, some (.dictionary rebooted)),
          configuration rebooted [rootlessDaemons, rootlessSystemDaemons])] :=
    ⟨step_daemons_rootless (.inl rfl) [], step_paths_rootless rebooted [],
      step_daemons_rootless (.inr rfl) _, trivial⟩
  have hdaemons (daemons : Dictionary) (dirs : List CStr) (ret : Option Object) :
      rootless.LooksUpFresh (configuration daemons dirs) (launchDaemons, ret) := by
    rintro _ ⟨⟩
    refine ⟨fun hkey => absurd hkey keys_ne.2.1, ?_⟩
    rintro - _ ⟨⟩ _ ⟨⟩
    decide +kernel
  refine (idempotent_iff hrun).mpr ⟨hdaemons _ _ _, ?_, hdaemons _ _ _, trivial⟩
  rintro _ ⟨⟩
  refine ⟨?_, fun hkey => absurd hkey.symm keys_ne.2.1⟩
  rintro - _ ⟨⟩ dir -
  exact ⟨Nat.zero_le 1, fun _ => rfl⟩

/-- The directories are looked up twice. -/
theorem not_idempotent_paths : ¬∀ (hooks : DaemonHooks) (dict : Dictionary)
    (run : List (Lookup × Dictionary)), Transitions.IsRun hooks.step dict run →
      Idempotent (run.map Prod.fst) := by
  intro h
  have hidempotent := h rootless (configuration [] []) [(_, _), (_, _)]
    ⟨step_paths_rootless [] [], step_paths_rootless [] _, trivial⟩
  have htwice := (hidempotent.atMostOnce _ (List.mem_cons_of_mem _ List.mem_cons_self)).directories
    _ rfl rootlessDaemons (by simp [jailbreakDirectories])
  revert htwice
  decide +kernel

end DaemonHooks

end Jbinit.PayloadDylib

import Jbinit.Palera1nd.HandlerReplies

/-!
# `p1ctl bootstrap`

The password is asked for twice, with `getpass`, which returns a pointer to one static buffer. Both
pointers are the same, so the loop compares the second line with itself: it ends at the first pair
of lines of which the second is not empty, and sends that one. The password sent has been confirmed
exactly if these two lines are equal (`bootstrapMain_confirmed_iff`).
-/

namespace Jbinit.P1ctl

open Palera1nd

/-! ## The options -/

/-- `no_password`, and the argument of the last `-S`. -/
structure Options where
  noPassword : Bool := false
  password : Option CStr := none
  deriving DecidableEq

/-- The options in one argument: whether `s` is there, and what follows `S`. A character that is no
option fails. -/
def optionChars : CStr → Option (Bool × Option CStr)
  | [] => some (false, none)
  | 's' :: chars => (optionChars chars).map fun r => (true, r.2)
  | 'S' :: chars => some (false, some chars)
  | _ => none

/-- `getopt` with `sS:`; the result is `none` where the command returns. -/
def getopts (options : Options) : List CStr → Option (Options × List CStr)
  | [] => some (options, [])
  | ['-', '-'] :: argv => some (options, argv)
  | ('-' :: c :: chars) :: argv =>
    match optionChars (c :: chars), argv with
    | none, _ => none
    | some (s, none), argv => getopts { options with noPassword := options.noPassword || s } argv
    | some (s, some (c :: chars)), argv =>
      getopts ⟨options.noPassword || s, some (c :: chars)⟩ argv
    | some (_, some []), [] => none
    | some (s, some []), optarg :: argv => getopts ⟨options.noPassword || s, some optarg⟩ argv
  | argv => some (options, argv)

/-! ## The prompts -/

/-- What a pointer to a password points to: the argument of `-S`, or the buffer of `getpass`. -/
inductive Pointer
  | optarg
  | getpassBuffer
  deriving DecidableEq

abbrev Memory := Pointer → CStr

/-- `getpass` overwrites its buffer with the line that is typed. -/
def getpass (line : CStr) (memory : Memory) : Pointer × Memory :=
  (.getpassBuffer, Function.update memory .getpassBuffer line)

/-- The variables of the loop; NULL is `none`. -/
structure Prompts where
  password : Option Pointer
  confirm : Option Pointer
  memory : Memory
  printed : List CStr

def tryAgain : CStr := "Passwords does not match or is empty, try again".toList

/-- The loop, with the lines that are typed. The result has the lines that are left; it is `none`
while the loop waits for another line. -/
def promptLoop (s : Prompts) : List CStr → Option (Prompts × List CStr)
  | first :: second :: lines =>
    let printed := if s.confirm.isSome then s.printed ++ [tryAgain] else s.printed
    let (password, memory) := getpass first s.memory
    let (confirm, memory) := getpass second memory
    let s := ⟨some password, some confirm, memory, printed⟩
    if memory confirm ≠ memory password ∨ memory confirm = [] then promptLoop s lines
    else some (s, lines)
  | _ => none

/-! ## The command -/

inductive Reply
  | error (description : CStr)
  | dictionary (xreply : Dict)

/-- What the command runs on. -/
structure System where
  /-- The error is the path that cannot be resolved. -/
  realpath : CStr → Except CStr CStr
  /-- `jailbreak_send_jailbreakd_message_with_reply_sync`. -/
  send : Dict → Reply
  xpcStrerror : ℤ → CStr

/-- The end of the command: what it has sent, the lines that nobody has read, its value and what it
has printed. -/
structure Exit where
  sent : Option Dict
  unread : List CStr
  retval : ℤ
  printed : List CStr

def message (bootstrap : CStr) (noPassword : Bool) (password : Option CStr) : Dict :=
  let xdict := ((((Dict.set [] "path" (.string bootstrap)).set "cmd" (.uint64 5)).set
    "bootstrapper-name" (.string "p1ctl".toList)).set "bootstrapper-version"
      (.string "3.0".toList)).set "no-password" (.bool noPassword)
  match password with
  | none => xdict
  | some password => xdict.set "password" (.string password)

/-- The value for a reply, and what is printed. -/
def outcome (system : System) : Reply → ℤ × List CStr
  | .error desc => (-1, ["jailbreakd upcall failed: ".toList ++ desc, desc])
  | .dictionary xreply => printJailbreakdReply system.xpcStrerror xreply

/-- The message and its reply. -/
def sendBootstrap (system : System) (bootstrap : CStr) (noPassword : Bool) (s : Prompts)
    (unread : List CStr) : Exit :=
  let xdict := message bootstrap noPassword (s.password.map s.memory)
  let reply := outcome system (system.send xdict)
  ⟨xdict, unread, reply.1, s.printed ++ reply.2⟩

/-- The variables after the options. -/
def start (options : Options) (printed : List CStr) : Prompts where
  password := options.password.map fun _ => .optarg
  confirm := none
  memory := fun _ => options.password.getD []
  printed := printed

def needsPassword : List CStr :=
  ["You need to set a new terminal password to use command line tools like \"sudo\".".toList, []]

/-- `bootstrap_main`. The arguments are those after the name of the command. -/
def bootstrapMain (system : System) (argv lines : List CStr) : Option Exit :=
  let failed (printed : List CStr) : Exit := ⟨none, lines, -1, printed⟩
  match getopts {} argv with
  | none => failed []
  | some (options, argv) =>
    if options.noPassword && options.password.isSome then
      failed ["The -s and -S options are not allowed at the same time".toList]
    else match argv with
      | [] => failed ["No bootstrap file specified".toList]
      | path :: _ =>
        match system.realpath path with
        | .error resolved => failed ["Could not resolve path '".toList ++ path ++
            "', caused by: '".toList ++ resolved ++ ['\'']]
        | .ok bootstrap =>
          let printed := ["Will install bootstrap: ".toList ++ bootstrap]
          if !options.noPassword && options.password.isNone then
            (promptLoop (start options (printed ++ needsPassword)) lines).map fun r =>
              sendBootstrap system bootstrap options.noPassword r.1 r.2
          else sendBootstrap system bootstrap options.noPassword (start options printed) lines

/-- What palera1nd reads of the message. -/
theorem ofDict_message (bootstrap : CStr) (noPassword : Bool) (password : Option CStr) :
    BootstrapRequest.ofDict (message bootstrap noPassword password) =
      ⟨password, some bootstrap, some "p1ctl".toList, some "3.0".toList, noPassword⟩ := by
  cases password with
  | none => rfl
  | some password => simp [message, BootstrapRequest.ofDict, Dict.getString, Dict.getBool]

/-! ## The loop -/

/-- In the first pair of lines of which the second is not empty, both lines are equal. -/
def RetypedWell : List CStr → Prop
  | first :: second :: lines => if second = [] then RetypedWell lines else first = second
  | _ => True

/-- The variables after a pass of the loop: the second line has overwritten the first. -/
def Prompts.after (s : Prompts) (second : CStr) : Prompts where
  password := some .getpassBuffer
  confirm := some .getpassBuffer
  memory := Function.update s.memory .getpassBuffer second
  printed := if s.confirm.isSome then s.printed ++ [tryAgain] else s.printed

/-- **A pass of the loop** compares the second line with itself. -/
theorem promptLoop_cons_cons (s : Prompts) (first second : CStr) (lines : List CStr) :
    promptLoop s (first :: second :: lines) =
      if second = [] then promptLoop (s.after second) lines else some (s.after second, lines) := by
  rw [promptLoop]
  simp [getpass, Prompts.after]

/-- What is known when the loop ends. -/
structure Accepted (lines : List CStr) (s : Prompts) (unread : List CStr) (second : CStr) : Prop where
  password : s.password.map s.memory = some second
  nonempty : second ≠ []
  retyped : ∃ earlier first, lines = earlier ++ first :: second :: unread ∧
    (RetypedWell lines ↔ first = second)

/-- **The loop** ends with the last line in the buffer. -/
theorem promptLoop_accepted {s s' : Prompts} {lines unread : List CStr}
    (h : promptLoop s lines = some (s', unread)) : ∃ second, Accepted lines s' unread second := by
  fun_induction RetypedWell lines generalizing s with
  | case1 first lines ih =>
    rw [promptLoop_cons_cons, if_pos rfl] at h
    obtain ⟨second, hpassword, hnonempty, earlier, first', hlines, hretyped⟩ := ih h
    refine ⟨second, hpassword, hnonempty, first :: [] :: earlier, first', ?_, ?_⟩
    · rw [hlines]
      rfl
    · rw [RetypedWell, if_pos rfl, hretyped]
  | case2 first second lines hnonempty =>
    rw [promptLoop_cons_cons, if_neg hnonempty] at h
    cases h
    refine ⟨second, ?_, hnonempty, [], first, rfl, ?_⟩
    · simp [Prompts.after]
    · rw [RetypedWell, if_neg hnonempty]
  | case3 lines hlines =>
    unfold promptLoop at h
    split at h
    · exact absurd rfl (hlines _ _ _)
    · cases h

theorem retypedWell_of_waiting {s : Prompts} {lines : List CStr} (h : promptLoop s lines = none) :
    RetypedWell lines := by
  fun_induction RetypedWell lines generalizing s with
  | case1 first lines ih =>
    rw [promptLoop_cons_cons, if_pos rfl] at h
    exact ih h
  | case2 first second lines hnonempty =>
    rw [promptLoop_cons_cons, if_neg hnonempty] at h
    cases h
  | case3 => trivial

/-- A line that asks to try again is printed for each pair but the last. -/
theorem promptLoop_printed {s s' : Prompts} {lines unread : List CStr}
    (h : promptLoop s lines = some (s', unread)) :
    ∃ k, lines.length = 2 * (k + 1) + unread.length ∧
      s'.printed = s.printed ++ List.replicate (k + s.confirm.isSome.toNat) tryAgain := by
  fun_induction RetypedWell lines generalizing s with
  | case1 first lines ih =>
    rw [promptLoop_cons_cons, if_pos rfl] at h
    obtain ⟨k, hlength, hprinted⟩ := ih h
    refine ⟨k + 1, ?_, ?_⟩
    · simp only [List.length_cons]
      omega
    · rw [hprinted]
      cases hconfirm : s.confirm <;> simp [Prompts.after, hconfirm, List.replicate_succ]
  | case2 first second lines hnonempty =>
    rw [promptLoop_cons_cons, if_neg hnonempty] at h
    cases h
    refine ⟨0, ?_, ?_⟩
    · simp only [List.length_cons]
      omega
    · cases hconfirm : s.confirm <;> simp [Prompts.after, hconfirm]
  | case3 lines hlines =>
    unfold promptLoop at h
    split at h
    · exact absurd rfl (hlines _ _ _)
    · cases h

/-! ## The password sent -/

/-- The command comes to its prompts. -/
def Asks (system : System) (argv : List CStr) (bootstrap : CStr) : Prop :=
  ∃ path argv', getopts {} argv = some ({}, path :: argv') ∧ system.realpath path = .ok bootstrap

theorem bootstrapMain_of_asks {system : System} {argv : List CStr} {bootstrap : CStr}
    (h : Asks system argv bootstrap) (lines : List CStr) :
    bootstrapMain system argv lines =
      (promptLoop (start {} (("Will install bootstrap: ".toList ++ bootstrap) :: needsPassword))
        lines).map fun r => sendBootstrap system bootstrap false r.1 r.2 := by
  obtain ⟨path, argv', hoptions, hpath⟩ := h
  unfold bootstrapMain
  simp [hoptions, hpath]

/-- With one of the options nothing is read from the terminal. -/
theorem bootstrapMain_of_option {system : System} {argv argv' : List CStr} {options : Options}
    {path bootstrap : CStr} (hoptions : getopts {} argv = some (options, path :: argv'))
    (hpath : system.realpath path = .ok bootstrap)
    (hone : options.noPassword ≠ options.password.isSome) (lines : List CStr) :
    ∃ e, bootstrapMain system argv lines = some e ∧ e.unread = lines ∧
      e.sent = some (message bootstrap options.noPassword options.password) := by
  obtain ⟨noPassword, password⟩ := options
  refine ⟨sendBootstrap system bootstrap noPassword
    (start ⟨noPassword, password⟩ ["Will install bootstrap: ".toList ++ bootstrap]) lines, ?_, rfl, ?_⟩
  · unfold bootstrapMain
    cases password with
    | none =>
      obtain rfl : noPassword = true := by simpa using hone
      simp [hoptions, hpath]
    | some password =>
      obtain rfl : noPassword = false := by simpa using hone
      simp [hoptions, hpath]
  · cases password <;> rfl

/-- The password sent is the last line typed, which is not empty and repeats the one before it. -/
def Confirmed (lines : List CStr) (e : Exit) : Prop :=
  ∃ earlier line xdict, lines = earlier ++ line :: line :: e.unread ∧ line ≠ [] ∧
    e.sent = some xdict ∧ xdict.getString "password" = some line

/-- **The password sent has been confirmed** exactly if both lines are equal in the first pair of
which the second is not empty. -/
theorem bootstrapMain_confirmed_iff {system : System} {argv : List CStr} {bootstrap : CStr}
    (hasks : Asks system argv bootstrap) (lines : List CStr) :
    (∀ e, bootstrapMain system argv lines = some e → Confirmed lines e) ↔ RetypedWell lines := by
  rw [bootstrapMain_of_asks hasks]
  cases hloop : promptLoop (start {}
      (("Will install bootstrap: ".toList ++ bootstrap) :: needsPassword)) lines with
  | none => simp [retypedWell_of_waiting hloop]
  | some r =>
    obtain ⟨s, unread⟩ := r
    obtain ⟨second, hpassword, hnonempty, earlier, first, hlines, hretyped⟩ :=
      promptLoop_accepted hloop
    have hsent : (message bootstrap false (s.password.map s.memory)).getString "password" =
        some second := by
      rw [hpassword]
      exact congrArg BootstrapRequest.password (ofDict_message bootstrap false (some second))
    rw [hretyped]
    constructor
    · intro h
      obtain ⟨earlier', line, xdict, hlines', -, -, -⟩ := h _ rfl
      obtain ⟨-, hlast⟩ := List.append_inj' (hlines.symm.trans hlines') rfl
      rw [List.cons.injEq, List.cons.injEq] at hlast
      exact hlast.1.trans hlast.2.1.symm
    · rintro rfl e he
      cases he
      exact ⟨earlier, first, _, hlines, hnonempty, rfl, hsent⟩

/-- Every path resolves, and palera1nd answers without an error. -/
def plainSystem : System where
  realpath := .ok
  send _ := .dictionary []
  xpcStrerror _ := []

theorem bootstrapMain_confirmed_alpine :
    ∃ e, bootstrapMain plainSystem ["/bootstrap.tar.zst".toList]
        ["alpine".toList, [], "alpine".toList, "alpine".toList] = some e ∧
      Confirmed ["alpine".toList, [], "alpine".toList, "alpine".toList] e := by
  have hasks : Asks plainSystem ["/bootstrap.tar.zst".toList] "/bootstrap.tar.zst".toList :=
    ⟨_, [], rfl, rfl⟩
  have hwell : RetypedWell ["alpine".toList, [], "alpine".toList, "alpine".toList] := rfl
  exact ⟨_, rfl, (bootstrapMain_confirmed_iff hasks _).mpr hwell _ rfl⟩

/-- The second line is sent, though it is not the first. -/
theorem bootstrapMain_not_confirmed :
    ∃ e, bootstrapMain plainSystem ["/bootstrap.tar.zst".toList]
        ["alpine".toList, "alpime".toList] = some e ∧
      (e.sent.bind (·.getString "password")) = some "alpime".toList ∧
        ¬Confirmed ["alpine".toList, "alpime".toList] e := by
  refine ⟨_, rfl, rfl, ?_⟩
  rintro ⟨earlier, line, -, hlines, -⟩
  have happend : [] ++ ["alpine".toList, "alpime".toList] = earlier ++ [line, line] := hlines
  obtain ⟨-, hlast⟩ := List.append_inj' happend rfl
  rw [List.cons.injEq, List.cons.injEq] at hlast
  exact absurd (hlast.1.trans hlast.2.1.symm) (by decide)

end Jbinit.P1ctl

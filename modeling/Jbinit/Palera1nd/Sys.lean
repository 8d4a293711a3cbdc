import Jbinit.Xpc
import Jbinit.Foundations.Calls

/-!
# What palera1nd asks the system

The calls that the request handler, `bootstrap()` and the functions of libjailbreak make, with their
answers. A call that fails answers with an `errno`; where the source reads `errno` after other
calls, that is a call of its own. Pipes, child processes and threads are named after the variables
the source keeps them in. Calls whose outcome the source neither checks nor uses (the set-up of
spawn attributes and file actions, logging) are left out.
-/

namespace Jbinit.Palera1nd

open Foundations Calls

/-! ## Constants -/

abbrev Errno := ℕ

def eperm : Errno := 1
def enoent : Errno := 2
def enxio : Errno := 6
def eexist : Errno := 17
def enotdir : Errno := 20
def einval : Errno := 22
def emfile : Errno := 24
def enotsup : Errno := 45
def eagain : Errno := 35
def eloop : Errno := 62

/-- `palerain_option_t`. -/
abbrev Flags := BitVec 64

def palerainOptionRootful : Flags := 1#64 <<< 0
def palerainOptionRootless : Flags := 1#64 <<< 1
def palerainOptionSsv : Flags := 1#64 <<< 7
def palerainOptionForceRevert : Flags := 1#64 <<< 24
def palerainOptionSafemode : Flags := 1#64 <<< 25
def palerainOptionFailure : Flags := 1#64 <<< 60

/-- `flags & option`, as a condition. -/
def Flags.has (flags option : Flags) : Bool := flags &&& option != 0

/-- `S_ISLNK`. -/
def sIslnk (mode : ℕ) : Bool := mode / 4096 % 16 == 10

/-- `S_ISDIR`. -/
def sIsdir (mode : ℕ) : Bool := mode / 4096 % 16 == 4

def wifexited (status : ℕ) : Bool := status % 128 == 0

def wexitstatus (status : ℕ) : ℕ := status / 256 % 256

def wifsignaled (status : ℕ) : Bool := status % 128 != 127 && status % 128 != 0

def wtermsig (status : ℕ) : ℕ := status % 128

/-- `struct paleinfo`, without its magic number and version. -/
structure Paleinfo where
  kbase : BitVec 64
  kslide : BitVec 64
  flags : Flags
  rootdev : CStr
  deriving DecidableEq

/-! ## Calls -/

inductive Pipe
  | stream
  | tarStderr
  | zstdStderr
  | prepBootstrapStdErr
  | prepBootstrapStdOut
  | pwStdin
  | pwStdout
  | pwStderr
  | pipeStdout
  | pipeStderr
  deriving DecidableEq, Repr

inductive Child
  | tar
  | zstd
  | prepBootstrap
  | pw
  /-- The command of `runcmd`. -/
  | command
  deriving DecidableEq, Repr

inductive Thread
  | zstdLog
  | tarLog
  | prepBootstrapStdErrLog
  | prepBootstrapStdOutLog
  | pwStderr
  | pwStdout
  | stdoutThr
  | stderrThr
  deriving DecidableEq, Repr

inductive AccessMode
  | fOk
  | wOk
  | xOk
  deriving DecidableEq, Repr

inductive Signal
  | sigkill
  | sigcont
  deriving DecidableEq, Repr

inductive Call
  | uname
  | getBmhash
  /-- `opendir`, `readdir` to the end and `closedir`. -/
  | readDirectory (path : CStr)
  | access (path : CStr) (mode : AccessMode)
  | statfsRoot
  | stat (path : CStr)
  | lstat (path : CStr)
  | readlink (path : CStr)
  | remountRootfs
  | remountPreboot
  /-- `open("/", O_RDONLY, 0)`. -/
  | openRoot
  | fsSnapshotRename (dirfd : ℤ) (name newName : CStr)
  | close (fd : ℤ)
  | mkdtemp (template : CStr)
  | chmod (path : CStr)
  | unlink (path : CStr)
  | rmdir (path : CStr)
  /-- The library function, with `REMOVEFILE_RECURSIVE`. -/
  | removefile (path : CStr)
  | pipe (which : Pipe)
  | spawn (child : Child) (argv : List CStr)
  | kill (child : Child) (signal : Signal)
  | pthreadCreate (thread : Thread) (fd : ℤ)
  | pthreadCancel (thread : Thread)
  | pthreadJoin (thread : Thread)
  | waitpid (child : Child)
  | rename (path newPath : CStr)
  | symlink (target path : CStr)
  | copyfile (path newPath : CStr)
  /-- `open` with `O_RDWR | O_CREAT`. -/
  | openCreate (path : CStr)
  | lseekEnd (fd : ℤ)
  | dprintf (fd : ℤ) (text : CStr)
  | bootstrapCmd (path : CStr)
  /-- `load_cmd` with `unload`. -/
  | unload (path : CStr)
  /-- `mount_apfs -o rw` of a device at `/cores/fs/real`. -/
  | mountReal (deviceName : CStr)
  /-- `open("/cores/fs/real", O_RDONLY, 0)`. -/
  | openReal
  | fsSnapshotRevert (dirfd : ℤ) (name : CStr)
  | unmountReal
  | reboot3 (howto : BitVec 64) (purpose : Option (BitVec 32))
  | realpath (path : CStr)
  /-- `open` with `O_WRONLY | O_TRUNC | O_CREAT`. -/
  | openWrite (path : CStr) (mode : BitVec 64)
  | write (fd : ℤ) (data : List UInt8)
  /-- `posix_spawn` of a command whose output is logged. -/
  | spawnCommand (path : CStr) (argv envp : Option (List (Option CStr)))
  | readErrno
  /-- `set_pinfo` up to its `read` of the size of the ramdisk. -/
  | readRamdiskSize
  /-- The rest of `set_pinfo`. -/
  | setPinfo (pinfo : Paleinfo)
  | sendLaunchdMessage (message : Dict)
  | dumpUserspacePanicLog (message : CStr)
  | unmountDeveloper
  | killPid (pid : ℤ) (signal : Signal)
  /-- `xpc_connection_send_message` of a reply to its request. -/
  | sendReply (reply : Dict)
  deriving DecidableEq

/-- What is in the buffer for a boot manifest hash, which fits its 97 bytes. -/
structure BmHash where
  chars : CStr
  fits : chars.length < 97
  /-- `jailbreak_get_bmhash` writes nothing when the property is empty. -/
  written : Bool
  deriving DecidableEq

/-- What `readlink` writes, without a NUL, and what the buffer then holds up to one. -/
structure LinkPath where
  target : CStr
  text : CStr
  deriving DecidableEq

/-- The characters that `mkdtemp` puts in the place of the `X`s of its template. -/
structure Suffix where
  chars : CStr
  eight : chars.length = 8
  deriving DecidableEq

def Answer : Call → Type
  /- the major version of the kernel -/
  | .uname => Except Errno ℕ
  /- what is in the buffer afterwards, and whether the function returned 0 -/
  | .getBmhash => BmHash × Bool
  | .readDirectory _ => Except Errno (List CStr)
  /- `f_mntfromname` -/
  | .statfsRoot => Except Errno CStr
  /- `st_mode` -/
  | .stat _ => Except Errno ℕ
  | .lstat _ => Except Errno ℕ
  | .readlink _ => Except Errno LinkPath
  /- the descriptor, or -1 -/
  | .openRoot => ℤ
  | .openReal => ℤ
  /- the status of the command -/
  | .mountReal _ => ℤ
  | .mkdtemp _ => Except Errno Suffix
  | .pipe _ => Except Errno (ℤ × ℤ)
  /- the wait status -/
  | .waitpid _ => Except Errno ℕ
  | .openCreate _ => Except Errno ℤ
  /- the reply of launchd; none is written when the message cannot be sent -/
  | .unload _ => Option Dict
  | .reboot3 _ _ => ℤ
  /- what the buffer holds afterwards -/
  | .realpath _ => CStr
  | .openWrite _ _ => Except Errno ℤ
  | .write _ _ => Except Errno ℕ
  /- the value of `posix_spawn` -/
  | .spawnCommand _ _ _ => ℤ
  | .readErrno => ℤ
  /- the number of bytes that are read, of four -/
  | .readRamdiskSize => Except Errno ℕ
  /- the reply; none is written when the message cannot be sent -/
  | .sendLaunchdMessage _ => Option Dict
  | _ => Except Errno Unit

/-- Make a call. -/
def sys {ε : Type} (c : Call) : Proc Answer ε (Answer c) := perform c

theorem quiet_noting {ε : Type} {p : Event Answer → Bool} {c : Call} (h : ∀ r, p ⟨c, r⟩ = false) :
    Quiet (noting p) (sys c : Proc Answer ε (Answer c)) :=
  .perform fun noted r noted' hstep => by rw [hstep, h, Bool.or_false]

/-- Whether a call succeeded. -/
def ok {α : Type} (r : Except Errno α) : Bool := r.isOk

/-- The path that `mkdtemp` leaves in the buffer of its template. -/
def fillTemplate (template : CStr) (suffix : Suffix) : CStr :=
  template.take (template.length - 8) ++ suffix.chars

/-- The code of an error reply: the value `errno` has then, or a given one. `-1` sets none. -/
inductive ErrorCode
  | errno
  | val (code : ℤ)
  deriving DecidableEq

/-- The two fields of an error reply. -/
structure Failure where
  code : ErrorCode
  description : CStr
  deriving DecidableEq

abbrev Daemon (α : Type) := Proc Answer Failure α

/-- Why palera1nd does not come to the end of a request: it uses a variable that it has not set. -/
inductive Fault
  | uninitialized
  deriving DecidableEq

abbrev Handling (α : Type) := Proc Answer Fault α

/-! ## Messages to launchd -/

def launchdCmdReloadJbEnv : BitVec 64 := 1
def launchdCmdSetPinfoFlags : BitVec 64 := 3

/-- `reload_launchd_env`. It releases the reply, which is not set when the message cannot be
sent. -/
def reloadLaunchdEnv {ε : Type} : Proc Answer ε (Except Fault Unit) := do
  match ← sys (.sendLaunchdMessage
    ((Dict.set [] "cmd" (.uint64 launchdCmdReloadJbEnv)).set "jailbreak" (.bool true))) with
  | some _ => return .ok ()
  | none => return .error .uninitialized

/-- A world that does not notice the message does not notice it. -/
theorem quiet_reloadLaunchdEnv {S ε : Type} {step : S → Event Answer → S → Prop}
    (hsend : ∀ message, Quiet step (sys (.sendLaunchdMessage message) : Proc Answer ε _)) :
    Quiet step (reloadLaunchdEnv : Proc Answer ε (Except Fault Unit)) := by
  unfold reloadLaunchdEnv
  refine .bind (hsend _) fun reply => ?_
  cases reply with
  | none => exact .pure _
  | some _ => exact .pure _

/-! ## A system on which every call succeeds -/

def plainHash : BmHash := ⟨"0123".toList, by decide, true⟩

def plainSuffix : Suffix := ⟨"abcdefgh".toList, by decide⟩

def success : ∀ c, Answer c
  | .uname => .ok 22
  | .getBmhash => (plainHash, true)
  | .readDirectory _ => .ok []
  | .statfsRoot => .ok "/dev/disk0s1s1".toList
  | .stat _ => .ok 0
  | .lstat _ => .ok 0
  | .readlink _ => .ok ⟨"/private/preboot".toList, "/private/preboot".toList⟩
  | .openRoot => (3 : ℤ)
  | .openReal => (8 : ℤ)
  | .mountReal _ => (0 : ℤ)
  | .mkdtemp _ => .ok plainSuffix
  | .pipe _ => .ok (4, 5)
  | .waitpid _ => .ok 0
  | .openCreate _ => .ok 6
  | .unload _ => some []
  | .reboot3 _ _ => (0 : ℤ)
  | .realpath path => path
  | .openWrite _ _ => .ok 7
  | .write _ data => .ok data.length
  | .spawnCommand _ _ _ => (0 : ℤ)
  | .readErrno => (0 : ℤ)
  | .readRamdiskSize => .ok 4
  | .sendLaunchdMessage _ => some []
  | .access _ _ | .remountRootfs | .remountPreboot | .fsSnapshotRename _ _ _ | .close _ | .chmod _
  | .unlink _ | .rmdir _ | .removefile _ | .spawn _ _ | .kill _ _ | .pthreadCreate _ _
  | .pthreadCancel _ | .pthreadJoin _ | .rename _ _ | .symlink _ _ | .copyfile _ _ | .lseekEnd _
  | .dprintf _ _ | .bootstrapCmd _ | .fsSnapshotRevert _ _ | .unmountReal
  | .setPinfo _ | .dumpUserspacePanicLog _ | .unmountDeveloper | .killPid _ _ | .sendReply _ =>
    .ok ()

end Jbinit.Palera1nd

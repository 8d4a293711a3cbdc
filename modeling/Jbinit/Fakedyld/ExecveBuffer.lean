import Jbinit.Fakedyld.MemoryFunctions
import Jbinit.Fakedyld.Strtoull
import Jbinit.PayloadDylib.Reexec
import Jbinit.Systemhook.Envbuf

/-!
# What launchd is given

The last thing that fakedyld does is to put the path, the arguments and the environment of launchd
into one buffer, strings first and the two arrays behind them. The kernel finds there what was
meant, whatever the flags are, and payload.dylib reads the flags of the boot from it
(`fillExecveBuffer_handsOver`).
-/

namespace Jbinit.Fakedyld

open Foundations Memory LittleEndian Printf
open Palera1nd (Flags palerainOptionRootful palerainOptionRootless)

/-! ## The buffer -/

/-- The bytes of a string with its terminator. -/
def stringBytes (s : CStr) : List Byte := s.map (fun c => BitVec.ofNat 8 c.toNat) ++ [0#8]

/-- A string that `main` copies, and where it is. -/
structure Source where
  text : CStr
  address : ℕ

/-- `sizeof` of a literal, or `strlen(s) + 1`. -/
def Source.size (s : Source) : ℕ := s.text.length + 1

structure Sources where
  launchd : Source
  insertDylib : Source
  pinfoBuffer : Source
  jbRootPathEnv : Source
  tweakloader : Source
  hasVerboseBootEnv : Source

def Sources.all (s : Sources) : List Source :=
  [s.launchd, s.insertDylib, s.pinfoBuffer, s.jbRootPathEnv, s.tweakloader, s.hasVerboseBootEnv]

/-- The memory, and the arguments of `execve`. -/
structure ExecveCall where
  mem : ℕ → Byte
  path : ℕ
  argv : ℕ
  envp : ℕ

def sizeofPointer : ℕ := 8

def execveBufferSize : ℕ := 0x4000

/-- `a[i] = p`. -/
def storePointer (mem : ℕ → Byte) (a i p : ℕ) : ℕ → Byte :=
  store mem (a + sizeofPointer * i) (toBytes sizeofPointer p)

/-- The part of `main` behind the `mmap` of the buffer. -/
def fillExecveBuffer (mem : ℕ → Byte) (execveBuffer : ℕ) (s : Sources) : ExecveCall :=
  let launchdArgv0 := execveBuffer
  let launchdEnvp0 := execveBuffer + s.launchd.size
  let launchdEnvp1 := launchdEnvp0 + s.insertDylib.size
  let launchdEnvp2 := launchdEnvp1 + s.pinfoBuffer.size
  let launchdEnvp3 := launchdEnvp2 + s.jbRootPathEnv.size
  let launchdEnvp4 := launchdEnvp3 + s.tweakloader.size
  let mem := memcpy mem launchdArgv0 s.launchd.address s.launchd.size
  let mem := memcpy mem launchdEnvp0 s.insertDylib.address s.insertDylib.size
  let mem := memcpy mem launchdEnvp1 s.pinfoBuffer.address s.pinfoBuffer.size
  let mem := memcpy mem launchdEnvp2 s.jbRootPathEnv.address s.jbRootPathEnv.size
  let mem := memcpy mem launchdEnvp3 s.tweakloader.address s.tweakloader.size
  let mem := memcpy mem launchdEnvp4 s.hasVerboseBootEnv.address s.hasVerboseBootEnv.size
  let launchdArgv := launchdEnvp4 + s.hasVerboseBootEnv.size
  let launchdEnvp := launchdArgv + 2 * sizeofPointer
  let mem := storePointer mem launchdArgv 0 launchdArgv0
  let mem := storePointer mem launchdArgv 1 0
  let mem := storePointer mem launchdEnvp 0 launchdEnvp0
  let mem := storePointer mem launchdEnvp 1 launchdEnvp1
  let mem := storePointer mem launchdEnvp 2 launchdEnvp2
  let mem := storePointer mem launchdEnvp 3 launchdEnvp3
  let mem := storePointer mem launchdEnvp 4 launchdEnvp4
  let mem := storePointer mem launchdEnvp 5 0
  ⟨mem, launchdArgv0, launchdArgv, launchdEnvp⟩

/-! ## The strings -/

def sbinLaunchd : CStr := "/sbin/launchd".toList
def insertDylibEnv : CStr := "DYLD_INSERT_LIBRARIES=/cores/payload.dylib".toList
def defaultTweakloader : CStr := "JB_TWEAKLOADER_PATH=@default".toList

/-- The string in `pinfo_buffer`, which is on the stack. -/
def pinfoBufferText (mem : ℕ → Char) (pinfoBuffer : ℕ) (flags : BitVec 64) : Option CStr :=
  (vsnprintf mem pinfoBuffer 50 "JB_PINFO_FLAGS=0x%llx".toList [.word flags]).map fun r =>
    (load r.1 pinfoBuffer 50).takeWhile (· ≠ nul)

def jbRootPathEnvText (flags : Flags) : CStr :=
  if flags.has palerainOptionRootful then "JB_ROOT_PATH=/".toList else "JB_ROOT_PATH=/var/jb".toList

def hasVerboseBootEnvText (hasVerboseBoot : Bool) : CStr :=
  if hasVerboseBoot then "JB_HAS_VERBOSE_BOOT=1".toList else "JB_HAS_VERBOSE_BOOT=0".toList

/-! ## The bytes of the buffer -/

@[simp] theorem length_stringBytes (s : CStr) : (stringBytes s).length = s.length + 1 := by
  simp [stringBytes]

/-- The string is there, and apart from the buffer. -/
structure Source.Placed (s : Source) (mem : ℕ → Byte) (execveBuffer : ℕ) : Prop where
  load_eq : load mem s.address s.size = stringBytes s.text
  apart : s.address + s.size ≤ execveBuffer ∨ execveBuffer + execveBufferSize ≤ s.address

variable {mem : ℕ → Byte} {execveBuffer : ℕ}

/-- A string is copied behind what has been copied before. -/
theorem memcpy_placed {s : Source} (hs : s.Placed mem execveBuffer) (copied : List Byte) {dst : ℕ}
    (hdst : dst = execveBuffer + copied.length) (hfits : copied.length + s.size ≤ execveBufferSize) :
    memcpy (store mem execveBuffer copied) dst s.address s.size =
      store mem execveBuffer (copied ++ stringBytes s.text) := by
  have hsize : execveBufferSize = 0x4000 := rfl
  have hload : load (store mem execveBuffer copied) s.address s.size = stringBytes s.text := by
    rw [← hs.load_eq]
    refine load_store_of_le ?_
    rcases hs.apart with h | h <;> omega
  rw [memcpy_eq _ _ _ (by omega), hload, hdst, store_append]

theorem storePointer_store (copied : List Byte) {a i : ℕ} (p : ℕ)
    (ha : a + sizeofPointer * i = execveBuffer + copied.length) :
    storePointer (store mem execveBuffer copied) a i p =
      store mem execveBuffer (copied ++ toBytes sizeofPointer p) := by
  rw [storePointer, ha, store_append]

section Image

variable (execveBuffer : ℕ) (s : Sources)

/-- Where the string behind some others is. -/
def Sources.envpPointers : List ℕ :=
  [execveBuffer + s.launchd.size,
    execveBuffer + s.launchd.size + s.insertDylib.size,
    execveBuffer + s.launchd.size + s.insertDylib.size + s.pinfoBuffer.size,
    execveBuffer + s.launchd.size + s.insertDylib.size + s.pinfoBuffer.size + s.jbRootPathEnv.size,
    execveBuffer + s.launchd.size + s.insertDylib.size + s.pinfoBuffer.size + s.jbRootPathEnv.size +
      s.tweakloader.size]

def Sources.strings : List Byte := (s.all.map fun source => stringBytes source.text).flatten

def pointerBytes (ps : List ℕ) : List Byte := (ps.map (toBytes sizeofPointer)).flatten

/-- What is in the buffer in the end. -/
def Sources.image : List Byte :=
  s.strings ++ (pointerBytes [execveBuffer, 0] ++ pointerBytes (s.envpPointers execveBuffer ++ [0]))

end Image

variable {s : Sources}

theorem fillExecveBuffer_mem (hplaced : ∀ source ∈ s.all, source.Placed mem execveBuffer)
    (hfits : (s.image execveBuffer).length ≤ execveBufferSize) :
    (fillExecveBuffer mem execveBuffer s).mem = store mem execveBuffer (s.image execveBuffer) := by
  simp only [Sources.all, List.forall_mem_cons, List.not_mem_nil, IsEmpty.forall_iff, implies_true,
    and_true] at hplaced
  obtain ⟨h₀, h₁, h₂, h₃, h₄, h₅⟩ := hplaced
  have hsize (source : Source) : source.size = (stringBytes source.text).length :=
    (length_stringBytes _).symm
  have hpointer (p : ℕ) : (toBytes sizeofPointer p).length = 8 := length_toBytes _ _
  simp only [Sources.image, Sources.strings, Sources.all, Sources.envpPointers, pointerBytes,
    List.map_cons,
    List.map_nil, List.flatten_cons, List.flatten_nil, List.length_append, ← hsize, hpointer,
    List.length_nil, List.cons_append, List.nil_append] at hfits
  have height : sizeofPointer = 8 := rfl
  have hfirst : memcpy (store mem execveBuffer []) execveBuffer s.launchd.address s.launchd.size =
      store mem execveBuffer ([] ++ stringBytes s.launchd.text) :=
    memcpy_placed h₀ [] rfl (by rw [List.length_nil]; omega)
  rw [store_nil, List.nil_append] at hfirst
  unfold fillExecveBuffer
  dsimp only
  rw [hfirst,
    memcpy_placed h₁ _ (by rw [← hsize]) (by rw [← hsize]; omega),
    memcpy_placed h₂ _ (by simp only [List.length_append, ← hsize]; omega)
      (by simp only [List.length_append, ← hsize]; omega),
    memcpy_placed h₃ _ (by simp only [List.length_append, ← hsize]; omega)
      (by simp only [List.length_append, ← hsize]; omega),
    memcpy_placed h₄ _ (by simp only [List.length_append, ← hsize]; omega)
      (by simp only [List.length_append, ← hsize]; omega),
    memcpy_placed h₅ _ (by simp only [List.length_append, ← hsize]; omega)
      (by simp only [List.length_append, ← hsize]; omega)]
  rw [storePointer_store _ _ (by simp only [List.length_append, ← hsize]; omega),
    storePointer_store _ _ (by simp only [List.length_append, ← hsize, length_toBytes, height]; omega),
    storePointer_store _ _ (by simp only [List.length_append, ← hsize, length_toBytes, height]; omega),
    storePointer_store _ _ (by simp only [List.length_append, ← hsize, length_toBytes, height]; omega),
    storePointer_store _ _ (by simp only [List.length_append, ← hsize, length_toBytes, height]; omega),
    storePointer_store _ _ (by simp only [List.length_append, ← hsize, length_toBytes, height]; omega),
    storePointer_store _ _ (by simp only [List.length_append, ← hsize, length_toBytes, height]; omega),
    storePointer_store _ _ (by simp only [List.length_append, ← hsize, length_toBytes, height]; omega)]
  simp only [Sources.image, Sources.strings, Sources.all, Sources.envpPointers, pointerBytes,
    List.map_cons,
    List.map_nil, List.flatten_cons, List.flatten_nil, List.append_nil, List.append_assoc,
    List.cons_append, List.nil_append]

/-! ## What is found in it -/

/-- The string is at the address, and ends there where its terminator is. -/
def HasString (mem : ℕ → Byte) (p : ℕ) (s : CStr) : Prop :=
  load mem p (s.length + 1) = stringBytes s ∧ ∀ c ∈ s, 0 < c.toNat ∧ c.toNat < 128

/-- A vector of strings that ends with a NULL pointer. -/
def HasStrings (mem : ℕ → Byte) (a : ℕ) (ss : List CStr) : Prop :=
  ∃ ps : List ℕ,
    load mem a (sizeofPointer * (ps.length + 1)) = pointerBytes (ps ++ [0]) ∧
      List.Forall₂ (fun p s => 0 < p ∧ p < 2 ^ 64 ∧ HasString mem p s) ps ss

/-- The addresses of strings that stand one behind the other. -/
def addresses (i : ℕ) : List Source → List ℕ
  | [] => []
  | s :: ss => i :: addresses (i + s.size) ss

theorem forall₂_addresses (mem : ℕ → Byte) (i : ℕ) {ss : List Source} (pre post : List Byte)
    (hascii : ∀ s ∈ ss, ∀ c ∈ s.text, 0 < c.toNat ∧ c.toNat < 128) :
    List.Forall₂ (fun p s => i ≤ p ∧
        p < i + (pre ++ (ss.map fun s => stringBytes s.text).flatten).length ∧
        HasString (store mem i (pre ++ ((ss.map fun s => stringBytes s.text).flatten ++ post))) p s.text)
      (addresses (i + pre.length) ss) ss := by
  induction ss generalizing pre with
  | nil => exact .nil
  | cons s ss ih =>
    rw [List.forall_mem_cons] at hascii
    have hsize : s.size = (stringBytes s.text).length := (length_stringBytes _).symm
    have hrest := ih (pre ++ stringBytes s.text) hascii.2
    simp only [List.append_assoc, List.length_append, ← Nat.add_assoc] at hrest
    rw [addresses, List.map_cons, List.flatten_cons, hsize]
    refine .cons ⟨Nat.le_add_right _ _, ?_, ?_, hascii.1⟩ ?_
    · simp only [List.length_append, length_stringBytes]
      omega
    · rw [List.append_assoc, ← length_stringBytes]
      exact load_store_append _ _ _ _ _
    · simpa only [List.append_assoc, List.length_append, ← Nat.add_assoc] using hrest

/-! ## The flags -/

/-- A string that has been put into a buffer ends at its terminator. -/
theorem takeWhile_load_store (mem : ℕ → Char) (i : ℕ) {n : ℕ} {text : CStr} (h : nul ∉ text)
    (hn : text.length < n) :
    (load (store mem i (text ++ [nul])) i n).takeWhile (· ≠ nul) = text := by
  have hload := load_store mem i (text ++ [nul])
  rw [List.length_append, List.length_singleton] at hload
  have hnotnul : ∀ c ∈ text, decide (c ≠ nul) = true := fun c hc =>
    decide_eq_true (ne_of_mem_of_not_mem hc h)
  obtain ⟨m, rfl⟩ := Nat.exists_eq_add_of_le (show text.length + 1 ≤ n by omega)
  rw [load_add, hload, List.append_assoc, List.takeWhile_append_of_pos hnotnul]
  simp

theorem toDigits_ascii {n : ℕ} {c : Char} (h : c ∈ Nat.toDigits 16 n) :
    0 < c.toNat ∧ c.toNat < 128 := by
  obtain ⟨d, hd, rfl⟩ := exists_digitChar (by decide) n c h
  interval_cases d <;> decide

theorem pinfoFlagsString_eq (flags : Flags) :
    PayloadDylib.pinfoFlagsString flags = '0' :: 'x' :: Nat.toDigits 16 flags.toNat := by
  refine CStr.snprintf_of_lt ?_
  have hlength := PayloadDylib.length_toDigits_flags flags
  rw [List.length_cons, List.length_cons]
  omega

theorem pinfoFlagsString_ascii {flags : Flags} {c : Char}
    (h : c ∈ PayloadDylib.pinfoFlagsString flags) : 0 < c.toNat ∧ c.toNat < 128 := by
  rw [pinfoFlagsString_eq, List.mem_cons, List.mem_cons] at h
  rcases h with rfl | rfl | h
  · decide
  · decide
  · exact toDigits_ascii h

/-- The string of the flags is not cut off. -/
theorem pinfoBufferText_eq (mem : ℕ → Char) {pinfoBuffer : ℕ} (h : pinfoBuffer ≠ 0) (flags : Flags) :
    pinfoBufferText mem pinfoBuffer flags =
      some ("JB_PINFO_FLAGS=".toList ++ PayloadDylib.pinfoFlagsString flags) := by
  have htext := formatText_append_llx "JB_PINFO_FLAGS=0x".toList (by decide) flags
  have hlength := PayloadDylib.length_toDigits_flags flags
  have hlt : ("JB_PINFO_FLAGS=0x".toList ++ Nat.toDigits 16 flags.toNat).length < 50 := by
    rw [List.length_append]
    exact Nat.lt_of_le_of_lt (Nat.add_le_add_left hlength _) (by decide)
  have hnul : nul ∉ "JB_PINFO_FLAGS=0x".toList ++ Nat.toDigits 16 flags.toNat := by
    rw [List.mem_append, not_or]
    refine ⟨by decide, fun hmem => ?_⟩
    exact absurd (toDigits_ascii hmem).1 (by decide)
  have hbuffer : bufferText 50 ("JB_PINFO_FLAGS=0x".toList ++ Nat.toDigits 16 flags.toNat) =
      "JB_PINFO_FLAGS=0x".toList ++ Nat.toDigits 16 flags.toNat ++ [nul] := by
    rw [bufferText, if_neg (by decide), CStr.snprintf_of_lt hlt]
  unfold pinfoBufferText
  rw [vsnprintf_eq, show "JB_PINFO_FLAGS=0x%llx".toList = "JB_PINFO_FLAGS=0x".toList ++ "%llx".toList from rfl,
    htext, Option.map_some, Option.map_some, if_neg h, hbuffer, takeWhile_load_store _ _ hnul hlt,
    pinfoFlagsString_eq]
  rfl

/-! ## The environment -/

/-- The variables that launchd gets. -/
def launchdVars (flags : Flags) (hasVerboseBoot : Bool) : List (CStr × CStr) :=
  [(PayloadDylib.dyldInsertLibrariesName, "/cores/payload.dylib".toList),
    (PayloadDylib.jbPinfoFlagsName, PayloadDylib.pinfoFlagsString flags),
    (PayloadDylib.jbRootPathName,
      if flags.has palerainOptionRootful then "/".toList else "/var/jb".toList),
    (PayloadDylib.jbTweakloaderPathName, "@default".toList),
    ("JB_HAS_VERBOSE_BOOT".toList, if hasVerboseBoot then "1".toList else "0".toList)]

def entry (var : CStr × CStr) : CStr := var.1 ++ '=' :: var.2

theorem eq_not_mem_launchdVars {flags : Flags} {hasVerboseBoot : Bool} :
    ∀ var ∈ launchdVars flags hasVerboseBoot, '=' ∉ var.1 := by
  unfold launchdVars
  simp only [List.forall_mem_cons, List.not_mem_nil, IsEmpty.forall_iff, implies_true, and_true]
  exact ⟨by decide, by decide, by decide, by decide, by decide⟩

/-- A variable is found by its name. -/
theorem envbufGetenv_map_entry {vars : List (CStr × CStr)} (hvars : ∀ var ∈ vars, '=' ∉ var.1)
    {name : CStr} (hname : '=' ∉ name) :
    Systemhook.envbufGetenv (some (vars.map entry)) name = vars.lookup name := by
  rw [Systemhook.envbufGetenv_eq]
  induction vars with
  | nil => rfl
  | cons var vars ih =>
    rw [List.forall_mem_cons] at hvars
    rw [List.map_cons, List.find?_cons, List.lookup_cons]
    by_cases heq : name = var.1
    · subst heq
      rw [entry, Systemhook.namedBy_entry, beq_self_eq_true]
      simp
    · have hapart : Systemhook.namedBy name (entry var) = false :=
        Systemhook.namedBy_apart hvars.1 hname (Ne.symm heq) _ (Systemhook.namedBy_entry _ _)
      rw [hapart, beq_eq_false_iff_ne.mpr heq]
      exact ih hvars.2

theorem getenv_launchdVars (flags : Flags) (hasVerboseBoot : Bool) {name : CStr} (hname : '=' ∉ name) :
    Systemhook.envbufGetenv (some ((launchdVars flags hasVerboseBoot).map entry)) name =
      (launchdVars flags hasVerboseBoot).lookup name :=
  envbufGetenv_map_entry eq_not_mem_launchdVars hname

open PayloadDylib in
/-- `launchd_hook_main` keeps an environment without extensions and without the libraries of
systemhook, and copies the flags and the root path from it. -/
theorem launchdHookMain_eq {host : Host} (hstrdup : host.strdup = true) {environ : Environ}
    (sandboxExtensions : CStr) (bootUuid : List UInt8) {flags : Flags} {rootPath tweakloader : CStr}
    (hflags : environ jbPinfoFlagsName = some (pinfoFlagsString flags))
    (hroot : environ jbRootPathName = some rootPath)
    (htweakloader : environ jbTweakloaderPathName = some tweakloader)
    (hextensions : environ jbSandboxExtensionsName = none)
    (hinsert : environ dyldInsertLibrariesName ≠ some Systemhook.hookDylibPath)
    (hlibrary : environ dyldLibraryPathName ≠ some Systemhook.librootDylibDirectoryPath) :
    launchdHookMain host sandboxExtensions bootUuid environ =
      .ok ⟨flags, environ, ⟨some rootPath, some (pinfoFlagsString flags), flags⟩, bootUuid⟩ := by
  have hset : Function.update environ jbSandboxExtensionsName (some sandboxExtensions)
      jbPinfoFlagsName = some (pinfoFlagsString flags) :=
    (Function.update_of_ne (by decide) _ _).trans hflags
  have hunset : Environ.unsetenv
      (Function.update environ jbSandboxExtensionsName (some sandboxExtensions))
      jbSandboxExtensionsName = environ := by
    rw [Environ.unsetenv, Function.update_idem, ← hextensions, Function.update_eq_self]
  have hunsetInsert : environ.unsetIf dyldInsertLibrariesName Systemhook.hookDylibPath = environ :=
    if_neg hinsert
  have hunsetLibrary :
      environ.unsetIf dyldLibraryPathName Systemhook.librootDylibDirectoryPath = environ :=
    if_neg hlibrary
  have hload : loadPflags
      (Function.update environ jbSandboxExtensionsName (some sandboxExtensions)) = .ok flags := by
    rw [loadPflags, hset, strtoullOf, strtoull_pinfoFlagsString]
    rfl
  have hinitializer : initializer host
      (Function.update environ jbSandboxExtensionsName (some sandboxExtensions)) =
      .ok (⟨some rootPath, some (pinfoFlagsString flags), flags⟩, environ) := by
    have hdup (text : CStr) : strdupOf host (some text) = pure (some text) := by
      rw [strdupOf, hstrdup]
      rfl
    unfold initializer
    rw [Function.update_self, hunset]
    dsimp only
    rw [hroot, hflags, htweakloader, hunsetInsert]
    simp only [hdup, pure_bind, strtoullOf, strtoull_pinfoFlagsString, hunsetLibrary]
    rfl
  unfold launchdHookMain
  dsimp only
  rw [hload, hinitializer]
  rfl

/-- The environment of the first launchd is one of those. -/
theorem launchdHookMain_launchdVars {host : PayloadDylib.Host} (hstrdup : host.strdup = true)
    (sandboxExtensions : CStr) (bootUuid : List UInt8) (flags : Flags) (hasVerboseBoot : Bool) :
    PayloadDylib.launchdHookMain host sandboxExtensions bootUuid
        (Systemhook.envbufGetenv (some ((launchdVars flags hasVerboseBoot).map entry))) =
      .ok ⟨flags, Systemhook.envbufGetenv (some ((launchdVars flags hasVerboseBoot).map entry)),
        ⟨some (if flags.has palerainOptionRootful then "/".toList else "/var/jb".toList),
          some (PayloadDylib.pinfoFlagsString flags), flags⟩, bootUuid⟩ := by
  have hget {name : CStr} (hname : '=' ∉ name) := getenv_launchdVars flags hasVerboseBoot hname
  refine launchdHookMain_eq hstrdup _ _ ((hget (by decide)).trans rfl) ((hget (by decide)).trans rfl)
    ((hget (by decide)).trans (b := some "@default".toList) rfl) ((hget (by decide)).trans rfl) ?_ ?_
  · rw [hget (by decide)]
    show some "/cores/payload.dylib".toList ≠ some Systemhook.hookDylibPath
    decide
  · rw [hget (by decide)]
    show none ≠ some Systemhook.librootDylibDirectoryPath
    exact (Option.some_ne_none _).symm

/-! ## The call of `execve` -/

/-- The strings that `main` has when it fills the buffer. -/
structure Sources.Ready (s : Sources) (mem : ℕ → Byte) (execveBuffer : ℕ) (flags : Flags)
    (hasVerboseBoot : Bool) : Prop where
  placed : ∀ source ∈ s.all, source.Placed mem execveBuffer
  launchd : s.launchd.text = sbinLaunchd
  insertDylib : s.insertDylib.text = insertDylibEnv
  pinfoBuffer : ∃ (stack : ℕ → Char) (pinfoBuffer : ℕ), pinfoBuffer ≠ 0 ∧
    pinfoBufferText stack pinfoBuffer flags = some s.pinfoBuffer.text
  jbRootPathEnv : s.jbRootPathEnv.text = jbRootPathEnvText flags
  tweakloader : s.tweakloader.text = defaultTweakloader
  hasVerboseBootEnv : s.hasVerboseBootEnv.text = hasVerboseBootEnvText hasVerboseBoot

variable {flags : Flags} {hasVerboseBoot : Bool}

/-- The strings are the path and the variables. -/
theorem Sources.Ready.texts (h : s.Ready mem execveBuffer flags hasVerboseBoot) :
    s.all.map Source.text = sbinLaunchd :: (launchdVars flags hasVerboseBoot).map entry := by
  obtain ⟨stack, pinfoBuffer, hne, hpinfo⟩ := h.pinfoBuffer
  rw [pinfoBufferText_eq stack hne] at hpinfo
  have hroot : s.jbRootPathEnv.text = entry (PayloadDylib.jbRootPathName,
      if flags.has palerainOptionRootful then "/".toList else "/var/jb".toList) := by
    rw [h.jbRootPathEnv, jbRootPathEnvText]
    split <;> rfl
  have hverbose : s.hasVerboseBootEnv.text = entry ("JB_HAS_VERBOSE_BOOT".toList,
      if hasVerboseBoot then "1".toList else "0".toList) := by
    rw [h.hasVerboseBootEnv, hasVerboseBootEnvText]
    split <;> rfl
  simp only [Sources.all, List.map_cons, List.map_nil, launchdVars]
  rw [h.launchd, h.insertDylib, ← Option.some.inj hpinfo, hroot, h.tweakloader, hverbose]
  rfl

theorem ascii_of_all (text : CStr)
    (h : (text.all fun c => decide (0 < c.toNat ∧ c.toNat < 128)) = true) :
    ∀ c ∈ text, 0 < c.toNat ∧ c.toNat < 128 := by
  simpa only [List.all_eq_true, decide_eq_true_eq] using h

theorem ascii_launchdVars (flags : Flags) (hasVerboseBoot : Bool) :
    ∀ text ∈ sbinLaunchd :: (launchdVars flags hasVerboseBoot).map entry,
      ∀ c ∈ text, 0 < c.toNat ∧ c.toNat < 128 := by
  have hpinfo : ∀ c ∈ entry (PayloadDylib.jbPinfoFlagsName, PayloadDylib.pinfoFlagsString flags),
      0 < c.toNat ∧ c.toNat < 128 := by
    intro c hc
    rw [entry, List.append_cons, List.mem_append] at hc
    rcases hc with hc | hc
    · exact ascii_of_all "JB_PINFO_FLAGS=".toList (by decide) c hc
    · exact pinfoFlagsString_ascii hc
  unfold launchdVars
  simp only [List.map_cons, List.map_nil, List.forall_mem_cons, List.not_mem_nil, IsEmpty.forall_iff,
    implies_true, and_true]
  refine ⟨ascii_of_all _ (by decide), ascii_of_all _ (by decide), hpinfo, ?_, ascii_of_all _ (by decide), ?_⟩
  · split <;> exact ascii_of_all _ (by decide)
  · split <;> exact ascii_of_all _ (by decide)

/-- The strings and the arrays have room. -/
theorem Sources.Ready.length_image_le (h : s.Ready mem execveBuffer flags hasVerboseBoot) :
    (s.image execveBuffer).length ≤ execveBufferSize := by
  have hlaunchd : s.launchd.size = 14 := by
    rw [Source.size, h.launchd]
    rfl
  have hinsertDylib : s.insertDylib.size = 43 := by
    rw [Source.size, h.insertDylib]
    rfl
  have hpinfoBuffer : s.pinfoBuffer.size ≤ 34 := by
    obtain ⟨stack, pinfoBuffer, hne, hpinfo⟩ := h.pinfoBuffer
    have hlength := PayloadDylib.length_toDigits_flags flags
    rw [pinfoBufferText_eq stack hne, pinfoFlagsString_eq] at hpinfo
    rw [Source.size, ← Option.some.inj hpinfo, List.length_append, List.length_cons, List.length_cons,
      show "JB_PINFO_FLAGS=".toList.length = 15 from rfl]
    omega
  have hjbRootPathEnv : s.jbRootPathEnv.size ≤ 21 := by
    rw [Source.size, h.jbRootPathEnv, jbRootPathEnvText]
    split <;> decide
  have htweakloader : s.tweakloader.size = 29 := by
    rw [Source.size, h.tweakloader]
    rfl
  have hverbose : s.hasVerboseBootEnv.size = 22 := by
    rw [Source.size, h.hasVerboseBootEnv, hasVerboseBootEnvText]
    split <;> rfl
  have hsize (source : Source) : (stringBytes source.text).length = source.size :=
    length_stringBytes _
  have hbuffer : execveBufferSize = 0x4000 := rfl
  simp only [Sources.image, Sources.strings, Sources.all, Sources.envpPointers, pointerBytes,
    List.map_cons,
    List.map_nil, List.flatten_cons, List.flatten_nil, List.length_append, hsize, length_toBytes,
    List.length_nil, List.cons_append, List.nil_append, sizeofPointer]
  omega

/-- The path, the arguments and the variables are found where the pointers say, and nothing outside the
buffer is written. -/
structure ExecveCall.Gives (call : ExecveCall) (mem : ℕ → Byte) (execveBuffer : ℕ) (path : CStr)
    (argv envp : List CStr) : Prop where
  frame : ∀ j, j < execveBuffer ∨ execveBuffer + execveBufferSize ≤ j → call.mem j = mem j
  path : HasString call.mem call.path path
  argv : HasStrings call.mem call.argv argv
  envp : HasStrings call.mem call.envp envp

/-- The strings of the buffer are at their addresses. -/
theorem Sources.Ready.forall₂_hasString (h : s.Ready mem execveBuffer flags hasVerboseBoot)
    (hpos : 0 < execveBuffer) (hend : execveBuffer + execveBufferSize ≤ 2 ^ 64) :
    List.Forall₂ (fun p text => 0 < p ∧ p < 2 ^ 64 ∧
        HasString (store mem execveBuffer (s.image execveBuffer)) p text)
      (execveBuffer :: s.envpPointers execveBuffer) (s.all.map Source.text) := by
  have hfits := h.length_image_le
  have hascii : ∀ source ∈ s.all, ∀ c ∈ source.text, 0 < c.toNat ∧ c.toNat < 128 := by
    intro source hsource
    refine ascii_launchdVars flags hasVerboseBoot source.text ?_
    rw [← h.texts]
    exact List.mem_map_of_mem hsource
  have hlength : s.strings.length ≤ (s.image execveBuffer).length := by
    rw [Sources.image, List.length_append]
    exact Nat.le_add_right _ _
  rw [List.forall₂_map_right_iff]
  have haddresses := forall₂_addresses mem execveBuffer [] (pointerBytes [execveBuffer, 0] ++
    pointerBytes (s.envpPointers execveBuffer ++ [0])) hascii
  refine haddresses.imp fun p source hp => ?_
  have hlt : p < execveBuffer + s.strings.length := hp.2.1
  exact ⟨by omega, by omega, hp.2.2⟩

theorem Sources.Ready.gives (h : s.Ready mem execveBuffer flags hasVerboseBoot)
    (hpos : 0 < execveBuffer) (hend : execveBuffer + execveBufferSize ≤ 2 ^ 64) :
    (fillExecveBuffer mem execveBuffer s).Gives mem execveBuffer sbinLaunchd [sbinLaunchd]
      ((launchdVars flags hasVerboseBoot).map entry) := by
  have hfits := h.length_image_le
  have hmem := fillExecveBuffer_mem h.placed hfits
  have hstrings := h.forall₂_hasString hpos hend
  rw [h.texts] at hstrings
  obtain ⟨hpath, henvp⟩ := List.forall₂_cons.mp hstrings
  have hargv : (fillExecveBuffer mem execveBuffer s).argv = execveBuffer + s.strings.length := by
    simp [fillExecveBuffer, Sources.strings, Sources.all, Source.size]
    omega
  refine ⟨?_, hmem ▸ hpath.2.2, ⟨[execveBuffer], ?_, ?_⟩,
    ⟨s.envpPointers execveBuffer, ?_, hmem ▸ henvp⟩⟩
  · rw [hmem]
    rintro j (hj | hj)
    · exact store_of_lt hj
    · exact store_of_le (by omega)
  · have hsize : sizeofPointer * ([execveBuffer].length + 1) = (pointerBytes [execveBuffer, 0]).length :=
      rfl
    rw [hmem, hargv, hsize]
    exact load_store_append _ _ _ _ _
  · exact .cons (hmem ▸ hpath) .nil
  · have himage : s.image execveBuffer = s.strings ++ pointerBytes [execveBuffer, 0] ++
        (pointerBytes (s.envpPointers execveBuffer ++ [0]) ++ []) := by
      rw [Sources.image, List.append_nil, List.append_assoc]
    have hsize : sizeofPointer * ((s.envpPointers execveBuffer).length + 1) =
        (pointerBytes (s.envpPointers execveBuffer ++ [0])).length := rfl
    have henvpAddress : (fillExecveBuffer mem execveBuffer s).envp =
        execveBuffer + (s.strings ++ pointerBytes [execveBuffer, 0]).length := by
      rw [List.length_append, ← Nat.add_assoc, ← hargv]
      rfl
    rw [hmem, hsize, henvpAddress, himage]
    exact load_store_append _ _ _ _ _

/-- The kernel finds the path, the arguments and the variables in the buffer, and nothing outside it
is written. payload.dylib reads the flags of the boot and the root path from these variables. -/
structure ExecveCall.HandsOver (call : ExecveCall) (mem : ℕ → Byte) (execveBuffer : ℕ) (flags : Flags) :
    Prop where
  frame : ∀ j, j < execveBuffer ∨ execveBuffer + execveBufferSize ≤ j → call.mem j = mem j
  path : HasString call.mem call.path sbinLaunchd
  argv : HasStrings call.mem call.argv [sbinLaunchd]
  envp : ∃ envp : List CStr, HasStrings call.mem call.envp envp ∧
    ∀ (host : PayloadDylib.Host) (sandboxExtensions : CStr) (bootUuid : List UInt8),
      host.strdup = true →
        PayloadDylib.launchdHookMain host sandboxExtensions bootUuid
            (Systemhook.envbufGetenv (some envp)) =
          .ok ⟨flags, Systemhook.envbufGetenv (some envp),
            ⟨some (if flags.has palerainOptionRootful then "/".toList else "/var/jb".toList),
              some (PayloadDylib.pinfoFlagsString flags), flags⟩, bootUuid⟩

/-- **What launchd is given** is what `main` has. -/
theorem fillExecveBuffer_handsOver (h : s.Ready mem execveBuffer flags hasVerboseBoot)
    (hpos : 0 < execveBuffer) (hend : execveBuffer + execveBufferSize ≤ 2 ^ 64) :
    (fillExecveBuffer mem execveBuffer s).HandsOver mem execveBuffer flags := by
  have hgives := h.gives hpos hend
  exact ⟨hgives.frame, hgives.path, hgives.argv, _, hgives.envp,
    fun host sandboxExtensions bootUuid hstrdup =>
      launchdHookMain_launchdVars hstrdup sandboxExtensions bootUuid flags hasVerboseBoot⟩

/-- The strings of a rootless boot, one behind the other. -/
def rootlessSources : Sources where
  launchd := ⟨sbinLaunchd, 0x100⟩
  insertDylib := ⟨insertDylibEnv, 0x110⟩
  pinfoBuffer := ⟨"JB_PINFO_FLAGS=0x2".toList, 0x140⟩
  jbRootPathEnv := ⟨"JB_ROOT_PATH=/var/jb".toList, 0x160⟩
  tweakloader := ⟨defaultTweakloader, 0x180⟩
  hasVerboseBootEnv := ⟨"JB_HAS_VERBOSE_BOOT=0".toList, 0x1a0⟩

/-- A memory with these strings. -/
def rootlessMemory : ℕ → Byte :=
  rootlessSources.all.foldl (fun mem source => store mem source.address (stringBytes source.text))
    fun _ => 0#8

theorem fillExecveBuffer_handsOver_rootless :
    (fillExecveBuffer rootlessMemory 0x4000 rootlessSources).HandsOver rootlessMemory 0x4000
      palerainOptionRootless := by
  have hpinfo : pinfoBufferText (fun _ => nul) 1 palerainOptionRootless =
      some "JB_PINFO_FLAGS=0x2".toList := by
    rw [pinfoBufferText_eq _ (by decide)]
    decide
  have hplaced : ∀ source ∈ rootlessSources.all,
      load rootlessMemory source.address source.size = stringBytes source.text ∧
        source.address + source.size ≤ 0x4000 := by decide +kernel
  have hready : rootlessSources.Ready rootlessMemory 0x4000 palerainOptionRootless false :=
    ⟨fun source hsource => ⟨(hplaced source hsource).1, .inl (hplaced source hsource).2⟩, rfl, rfl,
      ⟨_, 1, by decide, hpinfo⟩, rfl, rfl, rfl⟩
  exact fillExecveBuffer_handsOver hready (by decide) (by decide)

end Jbinit.Fakedyld

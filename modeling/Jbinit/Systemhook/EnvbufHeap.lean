import Jbinit.Foundations.Blocks
import Jbinit.Systemhook.Envbuf
import Jbinit.Systemhook.PathString

/-!
# The environment buffer in memory

The functions of `envbuf.c` on memory blocks: an environment is an array of pointers to strings that
ends with NULL, `envbuf_mutcopy` copies the array and its strings, `envbuf_setenv` and
`envbuf_unsetenv` free, replace and reallocate blocks of the copy. An access that is not valid is
the error `Stop.invalidAccess`; `malloc` is taken to succeed, as the source takes it.

What they do to memory is in `EnvbufHeapSpec`.
-/

namespace Jbinit.Systemhook

open Foundations Blocks

/-- An element of an array of pointers. -/
inductive Slot
  /-- Not written since it was allocated. -/
  | undef
  | null
  | ptr (a : ℕ)
  deriving DecidableEq

inductive Block
  | str (s : CStr)
  | arr (slots : List Slot)
  deriving DecidableEq

abbrev CMem := Blocks.Mem Block

abbrev MemM := Blocks.M Block Stop

/-! ## Blocks of the two kinds -/

def loadStr (a : ℕ) : MemM CStr := do
  match ← load .invalidAccess a with
  | .str s => return s
  | .arr _ => throw .invalidAccess

def loadSlots (p : ℕ) : MemM (List Slot) := do
  match ← load .invalidAccess p with
  | .arr slots => return slots
  | .str _ => throw .invalidAccess

def loadSlot (p i : ℕ) : MemM Slot := do
  let slots ← loadSlots p
  match slots[i]? with
  | some slot => return slot
  | none => throw .invalidAccess

def storeSlot (p i : ℕ) (slot : Slot) : MemM Unit := do
  let slots ← loadSlots p
  if i < slots.length then store .invalidAccess p (.arr (slots.set i slot))
  else throw .invalidAccess

/-- `free` of a pointer that was read from an array. -/
def freeSlot (slot : Slot) : MemM Unit :=
  match slot with
  | .null => return ()
  | .ptr a => free .invalidAccess a
  | .undef => throw .invalidAccess

variable (A : Allocator Block)

/-- `realloc` of an array to `n` elements. -/
def realloc (p n : ℕ) : MemM ℕ := do
  let slots ← loadSlots p
  free .invalidAccess p
  alloc A (.arr ((slots ++ List.replicate n Slot.undef).take n))

/-- `strdup` of a pointer that was read from an array. -/
def strdupSlot (slot : Slot) : MemM ℕ :=
  match slot with
  | .null => throw .nullString
  | .ptr a => do
    let s ← loadStr a
    alloc A (.str s)
  | .undef => throw .invalidAccess

/-! ## The functions of `envbuf.c` -/

/-- The loop of `envbuf_len`: the number of elements up to and including NULL. -/
def lenFrom : List Slot → ℕ → MemM ℕ
  | .null :: _, k => return k + 1
  | .ptr _ :: slots, k => lenFrom slots (k + 1)
  | _, _ => throw .invalidAccess

def envbufLenMem (envp : Option ℕ) : MemM ℕ :=
  match envp with
  | none => return 1
  | some p => do
    let slots ← loadSlots p
    lenFrom slots 0

/-- The loop of `envbuf_mutcopy` over `n` elements from index `i` on. -/
def copyFrom (p envcopy : ℕ) : ℕ → ℕ → MemM Unit
  | 0, _ => return ()
  | n + 1, i => do
    let slot ← loadSlot p i
    let s ← strdupSlot A slot
    storeSlot envcopy i (.ptr s)
    copyFrom p envcopy n (i + 1)

def envbufMutcopyMem (envp : Option ℕ) : MemM (Option ℕ) :=
  match envp with
  | none => return none
  | some p => do
    let len ← envbufLenMem (some p)
    let envcopy ← alloc A (.arr (List.replicate len .undef))
    copyFrom A p envcopy (len - 1) 0
    storeSlot envcopy (len - 1) .null
    return some envcopy

/-- The loop of `envbuf_free` over `n` elements from index `i` on. -/
def freeFrom (p : ℕ) : ℕ → ℕ → MemM Unit
  | 0, _ => return ()
  | n + 1, i => do
    let slot ← loadSlot p i
    freeSlot slot
    freeFrom p n (i + 1)

def envbufFreeMem (envp : Option ℕ) : MemM Unit :=
  match envp with
  | none => return ()
  | some p => do
    let len ← envbufLenMem (some p)
    freeFrom p (len - 1) 0
    free .invalidAccess p

/-- The loop of `envbuf_find`. -/
def findFrom (name : CStr) : List Slot → ℕ → MemM (Option ℕ)
  | .null :: _, _ => return none
  | .ptr a :: slots, k => do
    let env ← loadStr a
    if namedBy name env then return some k
    findFrom name slots (k + 1)
  | _, _ => throw .invalidAccess

def envbufFindMem (envp : Option ℕ) (name : CStr) : MemM (Option ℕ) :=
  match envp with
  | none => return none
  | some p => do
    let slots ← loadSlots p
    findFrom name slots 0

/-- The string that the returned pointer into the entry points to. -/
def envbufGetenvMem (envp : Option ℕ) (name : CStr) : MemM (Option CStr) :=
  match envp with
  | none => return none
  | some p => do
    match ← envbufFindMem (some p) name with
    | none => return none
    | some i =>
      match ← loadSlot p i with
      | .ptr a => do
        let env ← loadStr a
        return some (env.drop (name.length + 1))
      | _ => throw .invalidAccess

/-- The new entry, built in a buffer of exactly its size. -/
def buildEntry (name value : CStr) : Except Stop CStr := do
  let cap := name.length + value.length + 2
  let buf ← checked (CStr.strcpy cap name)
  let buf ← checked (CStr.strcat cap buf ['='])
  checked (CStr.strcat cap buf value)

/-- `envbuf_setenv` on the array at `p`. The result is the new value of `*envpp`. -/
def setEntry (envp : Option ℕ) (p : ℕ) (name value : CStr) : MemM (Option ℕ) := do
  let entry ← buildEntry name value
  let envToSet ← alloc A (.str entry)
  match ← envbufFindMem (some p) name with
  | some existingEnvIndex => do
    let slot ← loadSlot p existingEnvIndex
    freeSlot slot
    storeSlot p existingEnvIndex (.ptr envToSet)
    return envp
  | none => do
    let prevLen ← envbufLenMem (some p)
    let q ← realloc A p (prevLen + 1)
    storeSlot q (prevLen - 1) (.ptr envToSet)
    storeSlot q prevLen .null
    return some q

def envbufSetenvMem (envp : Option ℕ) (name value : CStr) : MemM (Option ℕ) :=
  match envp with
  | some p => setEntry A (some p) p name value
  | none => do
    -- NULL is treated as the array of NULL alone
    let p ← alloc A (.arr [.undef])
    storeSlot p 0 .null
    setEntry A none p name value

/-- The loop of `envbuf_unsetenv` that moves `n` elements down, from index `i` on. -/
def shiftFrom (p : ℕ) : ℕ → ℕ → MemM Unit
  | 0, _ => return ()
  | n + 1, i => do
    let slot ← loadSlot p (i + 1)
    storeSlot p i slot
    shiftFrom p n (i + 1)

def envbufUnsetenvMem (envp : Option ℕ) (name : CStr) : MemM (Option ℕ) :=
  match envp with
  | none => return none
  | some p => do
    match ← envbufFindMem (some p) name with
    | none => return some p
    | some existingEnvIndex => do
      let slot ← loadSlot p existingEnvIndex
      freeSlot slot
      let prevLen ← envbufLenMem (some p)
      shiftFrom p (prevLen - 1 - existingEnvIndex) existingEnvIndex
      let q ← realloc A p (prevLen - 1)
      return some q

end Jbinit.Systemhook

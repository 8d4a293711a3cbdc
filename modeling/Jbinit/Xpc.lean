import Jbinit.CString
import Mathlib.Data.BitVec

/-!
# XPC objects and dictionaries

The messages between palera1nd, launchd and their clients. A getter with a default answers it when
the key is absent or its value has another type; `getValue` answers an object or NULL.
-/

namespace Jbinit

inductive Xpc
  | bool (value : Bool)
  | int64 (value : ℤ)
  | uint64 (value : BitVec 64)
  | string (value : CStr)
  | data (bytes : List UInt8)
  | uuid (bytes : List UInt8)
  /-- An array, by what `xpc_array_get_string` answers for each of its items. -/
  | array (strings : List (Option CStr))
  /-- An object of any other type. -/
  | other
  deriving DecidableEq

namespace Xpc

/-- `xpc_uint64_get_value`. -/
def uint64Value : Xpc → BitVec 64
  | .uint64 value => value
  | _ => 0

end Xpc

/-- An XPC dictionary; the first value of a key counts. -/
abbrev Dict := List (CStr × Xpc)

namespace Dict

variable (dict : Dict) (key : String)

/-- `xpc_dictionary_get_value`; `none` is NULL. -/
def getValue : Option Xpc := List.lookup key.toList dict

def getUint64 : BitVec 64 :=
  match dict.getValue key with
  | some (.uint64 value) => value
  | _ => 0

def getInt64 : ℤ :=
  match dict.getValue key with
  | some (.int64 value) => value
  | _ => 0

def getBool : Bool :=
  match dict.getValue key with
  | some (.bool value) => value
  | _ => false

def getString : Option CStr :=
  match dict.getValue key with
  | some (.string value) => some value
  | _ => none

def getData : Option (List UInt8) :=
  match dict.getValue key with
  | some (.data bytes) => some bytes
  | _ => none

def getArray : Option (List (Option CStr)) :=
  match dict.getValue key with
  | some (.array strings) => some strings
  | _ => none

def set (value : Xpc) : Dict := (key.toList, value) :: dict

@[simp] theorem getValue_set_self (value : Xpc) : (dict.set key value).getValue key = some value := by
  simp [getValue, set]

variable {key} in
@[simp] theorem getValue_set_of_ne {key' : String} (h : key' ≠ key) (value : Xpc) :
    (dict.set key value).getValue key' = dict.getValue key' := by
  unfold getValue set
  rw [List.lookup_cons, beq_false_of_ne (by rwa [Ne, String.toList_inj])]

end Dict

end Jbinit

import Apsdk.Library.Text
import Mathlib.Data.List.TakeWhile

/-! Property lists in memory, and the accessors through which requests are read. -/

namespace Apsdk.Plist
open Library

/-- What a `char *` refers to: the bytes in front of the first zero. -/
structure CString where
  bytes : Bytes
  zeroFree : 0 ∉ bytes
deriving DecidableEq

theorem CString.nothing_zeroFree : (0 : UInt8) ∉ ([] : Bytes) := List.not_mem_nil

/-- The text that starts a zero-terminated buffer. -/
def CString.ofBuffer (buffer : Bytes) : CString :=
  ⟨buffer.takeWhile (· ≠ 0), fun zero => by simpa using List.mem_takeWhile_imp zero⟩

@[ext] theorem CString.ext {first second : CString} (same : first.bytes = second.bytes) : first = second := by
  cases first
  cases second
  cases same
  rfl

theorem CString.ofBuffer_bytes (text : CString) : CString.ofBuffer text.bytes = text := by
  apply CString.ext
  refine List.takeWhile_eq_self_iff.mpr fun byte member => decide_eq_true ?_
  rintro rfl
  exact text.zeroFree member

def PLIST_TYPE_PRIMITIVE : UInt8 := 0x00
def PLIST_PRIMITIVE_TRUE : UInt8 := 0x08
def PLIST_PRIMITIVE_FALSE : UInt8 := 0x09
def PLIST_TYPE_INTEGER : UInt8 := 0x10
def PLIST_TYPE_REAL : UInt8 := 0x20
def PLIST_TYPE_DATE : UInt8 := 0x30
def PLIST_TYPE_DATA : UInt8 := 0x40
def PLIST_TYPE_STRING : UInt8 := 0x50
def PLIST_TYPE_UNICODE_STRING : UInt8 := 0x60
def PLIST_TYPE_ARRAY : UInt8 := 0xA0
def PLIST_TYPE_DICT : UInt8 := 0xD0

/-- A `plist_object_t *`. Reals are their 64-bit patterns. -/
inductive Object where
  | null
  | primitive (value : UInt8)
  | integer (value : BitVec 64)
  | real (value : BitVec 64)
  | date (value : Bytes)
  | data (value : Bytes)
  | string (value : CString)
  | unicodeString (buffer : Bytes)
  | array (values : List Object)
  | dict (entries : List (CString × Object))

namespace Object

def isNull : Object → Bool
  | .null => true
  | _ => false

def getType : Object → UInt8
  | .null => 0xff
  | .primitive _ => PLIST_TYPE_PRIMITIVE
  | .integer _ => PLIST_TYPE_INTEGER
  | .real _ => PLIST_TYPE_REAL
  | .date _ => PLIST_TYPE_DATE
  | .data _ => PLIST_TYPE_DATA
  | .string _ => PLIST_TYPE_STRING
  | .unicodeString _ => PLIST_TYPE_UNICODE_STRING
  | .array _ => PLIST_TYPE_ARRAY
  | .dict _ => PLIST_TYPE_DICT

/-- The accessors leave the variable of the caller alone where they fail. -/
def integerGetValue : Object → Option (BitVec 64)
  | .integer value => some value
  | _ => none

def realGetValue : Object → Option (BitVec 64)
  | .real value => some value
  | _ => none

def dataGetValue : Object → Option Bytes
  | .data value => some value
  | _ => none

def stringGetValue : Object → Option CString
  | .string value => some value
  | _ => none

def arrayGetValue (object : Object) (idx : Nat) : Object :=
  match object with
  | .array values => values.getD idx .null
  | _ => .null

/-- The first entry with the key. -/
def dictGetValue (object : Object) (key : Bytes) : Object :=
  match object with
  | .dict entries => ((entries.find? (fun entry => entry.1.bytes == key)).map Prod.snd).getD .null
  | _ => .null

end Object

end Apsdk.Plist

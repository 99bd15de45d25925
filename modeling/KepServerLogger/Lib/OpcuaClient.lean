import KepServerLogger.Py.Text
import KepServerLogger.Py.Value

/-!
# Writing to a node (lib/opcua_client.py)

`write_value` fits a value to the data type of the node before it writes it.
It looks at two mismatches only: whatever goes to a string node is written as
its text, and a text that goes to a node of numbers or of truth values is
read. Everything else goes out as it came in.

`float` of a text is a parameter, since a float is known here by its `repr`.
-/

namespace KepServerLogger.Lib

open KepServerLogger.Py

/-- `ua.VariantType`, as far as it is looked at. -/
inductive VariantType where
  | boolean
  | int16
  | uint16
  | int32
  | uint32
  | int64
  | uint64
  | float
  | double
  | string
  | other (id : Nat)
  deriving DecidableEq, Repr

namespace VariantType

def isFloat (t : VariantType) : Bool := t = float || t = double

def isInt (t : VariantType) : Bool :=
  t = int16 || t = int32 || t = int64 || t = uint16 || t = uint32 || t = uint64

end VariantType

structure OPCUAClient where
  username : String
  password : String
  ready : Bool := false
  deriving DecidableEq

namespace OPCUAClient

/-- `setup`, where `set_security` ends as given. -/
def setup (client : OPCUAClient) (set_security : Except Exc Unit) :
    OPCUAClient × Except Exc Unit :=
  match set_security with
  | .error e => (client, .error e)
  | .ok () =>
      if client.username ≠ "" ∧ client.password ≠ "" then ({ client with ready := true }, .ok ())
      else
        (client, .error ⟨.valueError,
          "Username and password are required for OPC UA client authentication"⟩)

/-- The texts that are true, once in lower case. No letter outside ASCII
becomes one of theirs. -/
def trueTexts : List String := ["1", "true", "yes", "y", "on"]

/-- `value.strip().lower() in (...)` -/
def isTrueText (s : String) : Bool :=
  String.ofList ((strip s.toList).map Char.toLower) ∈ trueTexts

section

/- `float(s)`; `none` where it raises `ValueError`. -/
variable (floatOf : String → Option PyFloat)

/-- `coerced_value` -/
def coerce (value : PyValue) (data_type : VariantType) : Except Exc PyValue :=
  match value with
  | .str s =>
      if data_type.isFloat then
        match floatOf s with
        | some x => .ok (.float x)
        | none => .error ⟨.valueError, "could not convert string to float"⟩
      else if data_type.isInt then
        match int? s.toList with
        | some n => .ok (.int n)
        | none => .error ⟨.valueError, "invalid literal for int() with base 10"⟩
      else if data_type = .boolean then .ok (.bool (isTrueText s))
      else .ok (.str s)
  | value => if data_type = .string then .ok (.str value.toStr) else .ok value

/-- The value that `write_value` sends. -/
def writeValue (client : OPCUAClient) (value : PyValue) (data_type : VariantType) :
    Except Exc PyValue :=
  if client.ready then coerce floatOf value data_type
  else .error ⟨.runtimeError, "Client not ready, call setup() first"⟩

end

end OPCUAClient

end KepServerLogger.Lib

import KepServerLogger.Py.Datetime

/-!
# Python values, exceptions and JSON

The values the program moves around, no further apart than the program can
tell them. A float is named by its `repr`, which determines it. A value of a
class the program never looks into is kept with what it can observe of it, its
truth value and its `str`.

`json.dumps` is written out as the library writes it by default: `", "` and
`": "` between items, everything outside printable ASCII escaped.
-/

namespace KepServerLogger.Py

structure PyFloat where
  repr : String
  deriving DecidableEq, Repr

inductive PyValue where
  | none
  | bool (b : Bool)
  | int (n : Int)
  | float (x : PyFloat)
  | str (s : String)
  | datetime (d : Datetime)
  | ints (xs : List Int)
  | obj (truthy : Bool) (str : String)
  deriving DecidableEq

namespace PyValue

/-- `bool(v)` -/
def truthy : PyValue → Bool
  | .none => false
  | .bool b => b
  | .int n => n ≠ 0
  | .float x => x.repr ≠ "0.0" && x.repr ≠ "-0.0"
  | .str s => s ≠ ""
  | .datetime _ => true
  | .ints xs => xs ≠ []
  | .obj t _ => t

/-- `str(v)` -/
def toStr : PyValue → String
  | .none => "None"
  | .bool b => if b then "True" else "False"
  | .int n => String.ofList (intStr n)
  | .float x => x.repr
  | .str s => s
  | .datetime d => String.ofList (d.isoformat ' ')
  | .ints xs => "[" ++ ", ".intercalate (xs.map fun n => String.ofList (intStr n)) ++ "]"
  | .obj _ s => s

end PyValue

/-! ## Exceptions -/

/-- The classes the program tells apart, all of them subclasses of
`Exception`; the first three are `ValueError`s. -/
inductive ExcKind where
  | valueError
  | jsonDecodeError
  | validationError
  | typeError
  | keyError
  | runtimeError
  | connectionError
  | timeoutError
  | databaseError
  | other
  deriving DecidableEq, Repr

structure Exc where
  kind : ExcKind
  text : String
  deriving DecidableEq, Repr

def Exc.isValueError (e : Exc) : Bool :=
  e.kind = .valueError || e.kind = .jsonDecodeError || e.kind = .validationError

/-- `b - a`, in microseconds. -/
def Datetime.minus (b a : Datetime) : Except Exc Int :=
  if b.tzinfo.isSome = a.tzinfo.isSome then .ok (b.micros - a.micros)
  else .error ⟨.typeError, "can't subtract offset-naive and offset-aware datetimes"⟩

/-! ## JSON -/

inductive Json where
  | null
  | bool (b : Bool)
  | int (n : Int)
  | float (x : PyFloat)
  | str (s : String)
  | arr (xs : List Json)
  | obj (kvs : List (String × Json))

namespace Json

def hexDigit (n : Nat) : Char := if n < 10 then n.digitChar else Char.ofNat (87 + n)

def unicodeEscape (n : Nat) : List Char :=
  ['\\', 'u', hexDigit (n / 4096 % 16), hexDigit (n / 256 % 16),
    hexDigit (n / 16 % 16), hexDigit (n % 16)]

def escape (c : Char) : List Char :=
  match c with
  | '"' => ['\\', '"']
  | '\\' => ['\\', '\\']
  | '\n' => ['\\', 'n']
  | '\r' => ['\\', 'r']
  | '\t' => ['\\', 't']
  | '\x08' => ['\\', 'b']
  | '\x0c' => ['\\', 'f']
  | c =>
      if 0x20 ≤ c.toNat ∧ c.toNat ≤ 0x7e then [c]
      else if c.toNat < 0x10000 then unicodeEscape c.toNat
      else
        -- A surrogate pair.
        let n := c.toNat - 0x10000
        unicodeEscape (0xd800 + n / 0x400) ++ unicodeEscape (0xdc00 + n % 0x400)

def dumpsStr (s : String) : List Char :=
  '"' :: s.toList.flatMap escape ++ ['"']

def dumpsFloat (x : PyFloat) : List Char :=
  if x.repr = "nan" then "NaN".toList
  else if x.repr = "inf" then "Infinity".toList
  else if x.repr = "-inf" then "-Infinity".toList
  else x.repr.toList

mutual

def dumpsText : Json → List Char
  | .null => "null".toList
  | .bool b => if b then "true".toList else "false".toList
  | .int n => intStr n
  | .float x => dumpsFloat x
  | .str s => dumpsStr s
  | .arr xs => '[' :: dumpsItems xs ++ [']']
  | .obj kvs => '{' :: dumpsPairs kvs ++ ['}']

def dumpsItems : List Json → List Char
  | [] => []
  | [x] => dumpsText x
  | x :: y :: xs => dumpsText x ++ [',', ' '] ++ dumpsItems (y :: xs)

def dumpsPairs : List (String × Json) → List Char
  | [] => []
  | [(k, v)] => dumpsStr k ++ [':', ' '] ++ dumpsText v
  | (k, v) :: p :: kvs =>
      dumpsStr k ++ [':', ' '] ++ dumpsText v ++ [',', ' '] ++ dumpsPairs (p :: kvs)

end

/-- `json.dumps(v)` -/
def dumps (v : Json) : String := String.ofList (dumpsText v)

example : (Json.arr [.obj [("a", .str "é\n"), ("b", .int (-3))]]).dumps =
    "[\x7b\"a\": \"\\u00e9\\n\", \"b\": -3\x7d]" := by decide

section

/- `repr` of a string. -/
variable (repr : String → String)

mutual

/-- `repr(v)` of a value that `json.loads` returned. -/
def reprText : Json → String
  | .null => "None"
  | .bool b => if b then "True" else "False"
  | .int n => String.ofList (intStr n)
  | .float x => x.repr
  | .str s => repr s
  | .arr xs => "[" ++ reprItems xs ++ "]"
  | .obj kvs => "\x7b" ++ reprPairs kvs ++ "\x7d"

def reprItems : List Json → String
  | [] => ""
  | [x] => reprText x
  | x :: y :: xs => reprText x ++ ", " ++ reprItems (y :: xs)

def reprPairs : List (String × Json) → String
  | [] => ""
  | [(k, v)] => repr k ++ ": " ++ reprText v
  | (k, v) :: p :: kvs => repr k ++ ": " ++ reprText v ++ ", " ++ reprPairs (p :: kvs)

end

/-- `str(v)` -/
def toStr : Json → String
  | .str s => s
  | v => v.reprText repr

end

end Json

/-- The JSON form of a value; `none` where `json.dumps` raises `TypeError`. -/
def PyValue.toJson? : PyValue → Option Json
  | .none => some .null
  | .bool b => some (.bool b)
  | .int n => some (.int n)
  | .float x => some (.float x)
  | .str s => some (.str s)
  | .ints xs => some (.arr (xs.map .int))
  | .datetime _ => Option.none
  | .obj _ _ => Option.none

end KepServerLogger.Py

import KepServerLogger.Base.Regex
import KepServerLogger.Lib.OpcParser
import KepServerLogger.Py.Utf16

/-!
# Events from a diagnostics log (lib/opc_parser.py)

The log is UTF-16-LE text. An event is a block of it: a line with a tag in
brackets and the type, a line "Event started", the fields, and a line "Event
complete". One regular expression finds the blocks, a second one cuts what
stands between the two lines into fields.
-/

namespace KepServerLogger.Lib

open KepServerLogger.Py

/-! ## The two regular expressions -/

def isZero (c : Char) : Bool := c = '0'

/-- `[^\]\n]` -/
def inBrackets (c : Char) : Bool := c ≠ ']' && c ≠ '\n'

def eventStarted : List Char := "Event started".toList

def eventComplete : List Char := "Event complete".toList

/-- `0+:\s+` -/
def lineMark : Pattern Char := [.plus isZero, .one (· = ':'), .plus isStrSpace]

/-- `0+:\s+Event complete` -/
def completeRe : Pattern Char := lineMark ++ Pattern.text eventComplete

/-- `\s+(\w+)\s*\n\s*0+:\s+Event started` -/
def startedRe (u : CharTables) : Pattern Char :=
  [.plus isStrSpace, .group (.plus u.isWord), .star isStrSpace, .one (· = '\n'),
    .star isStrSpace] ++ lineMark ++ Pattern.text eventStarted

/-- `\[([^\]\n]+)\]` -/
def bracketRe : Pattern Char := [.one (· = '['), .group (.plus inBrackets), .one (· = ']')]

/-- `LOG_EVENT_RE`; with `re.DOTALL` the `.` is any character. -/
def logEventRe (u : CharTables) : Pattern Char :=
  bracketRe ++ (startedRe u ++ (Pattern.anyLazily :: completeRe))

/-- `LOG_FIELD_SPLIT_RE` -/
def logFieldSplitRe : Pattern Char := List.replicate 10 (.one isZero) ++ [.one (· = ':')]

/-! ## Fields -/

/-- The keys that are only headings. -/
def headings : List (List Char) :=
  ["Request Header".toList, "Response Header".toList, "Parameters".toList]

/-- `extract_field_binary` -/
def extractFieldBinary (u : CharTables) (chunk : List Char) : Option (String × String) :=
  let chunk := strip chunk
  if chunk = [] ∨ chunk = eventStarted ∨ chunk = eventComplete then none
  else if ':' ∉ chunk then none
  else
    let key := rstrip (strip (chunk.takeWhile (· ≠ ':')))
    let value := strip ((chunk.dropWhile (· ≠ ':')).drop 1)
    if key = [] ∨ value = [] ∨ key.head?.any u.isDigit then none
    else if key ∈ headings then none
    else some (String.ofList key, String.ofList value)

/-- The fields of an event; the first value of a key stays. -/
def fieldsOf (u : CharTables) (content : List Char) : Dict String String :=
  (logFieldSplitRe.split content).foldl
    (fun fields chunk =>
      match extractFieldBinary u chunk with
      | some (key, value) => fields.setdefault key value
      | none => fields)
    ∅

/-! ## Events -/

/-- `m.group(i + 1)` -/
def group (m : Found Char) (i : Nat) : List Char := m.groups.getD i []

def eventOf (u : CharTables) (m : Found Char) : OpcEvent :=
  let fields := fieldsOf u (group m 2)
  { timestamp := fields.getD "timestamp (UTC)" ""
    session_tag := String.ofList (strip (group m 0))
    event_type := String.ofList (strip (group m 1))
    fields }

/-- `c.replace("\x00", "\n")` -/
def nulToNewline (c : Char) : Char := if c = '\x00' then '\n' else c

/-- The text of the log. -/
def logText (data : List UInt8) : List Char := (decodeUtf16le data).map nulToNewline

/-- `parse_log_binary`, of the bytes of the file. -/
def parseLogBinary (u : CharTables) (data : List UInt8) : List OpcEvent :=
  ((logEventRe u).findAll (logText data)).map (eventOf u)

end KepServerLogger.Lib

import LogFanout.Text.Quoted
import LogFanout.Decimal.Shortest

/- Faults of a JSON text: why it is not read, and where.

   A reader of this library takes the characters that are left and gives back those that it leaves. So a fault does not
   carry a position of its own: it says how many bytes were still unread when it was found, and `Place.of` counts lines
   and columns from the whole text. Columns count bytes. A fault that is found by looking at the next byte stands behind
   that byte. A few faults have no place, because they are found outside of any text. -/
namespace LogFanout.Json

/-- A value of another kind than the one expected, as it is described to people. -/
inductive Found where
  | null
  | boolean (b : Bool)
  | integer (n : Int)
  | float (negative : Bool) (x : Decimal.Binary64)
  | text (s : String)
  | list
  | object
  deriving DecidableEq, Repr

/-- What a reader expects where it meets a value. -/
inductive Expected where
  | text
  | boolean
  | options
  deriving DecidableEq, Repr

/-- Why a text is not read. -/
inductive Cause where
  | endInValue
  | endInObject
  | endInList
  | endInString
  | expectedColon
  | expectedObjectEnd
  | expectedListEnd
  | expectedValue
  | expectedWord
  | keyNotString
  | trailingComma
  | trailingCharacters
  | badNumber
  | numberOutOfRange
  | badEscape
  | controlCharacter
  | loneSurrogate
  | brokenPair
  | wrongKind (found : Found) (expected : Expected)
  | unknownField (name : String) (known : List String)
  | duplicateField (name : String)
  | unrecognizedLevel (name : String)
  deriving DecidableEq, Repr

/-- A fault, found when `left` bytes of the text were unread; `none` if it has no place. -/
structure Fault where
  cause : Cause
  left : Option Nat
  deriving DecidableEq, Repr

def byteCount : List Char → Nat
  | [] => 0
  | c :: rest => c.utf8Size + byteCount rest

/-- A fault found at the end of what has been read. -/
def here (cause : Cause) (rest : List Char) : Fault := ⟨cause, some (byteCount rest)⟩

/-- A fault found by looking at the next byte. -/
def ahead (cause : Cause) (rest : List Char) : Fault := ⟨cause, some (byteCount rest - 1)⟩

/-! ## Places -/

/-- A line, from one on, and the bytes of it that come before. -/
structure Place where
  line : Nat
  column : Nat
  deriving DecidableEq, Repr

/-- The place reached from `p` behind the first `n` bytes of a text. -/
def Place.after : List Char → Nat → Place → Place
  | [], _, p => p
  | c :: rest, n, p =>
    if n = 0 then p
    else if c = '\n' then Place.after rest (n - 1) ⟨p.line + 1, 0⟩
    else Place.after rest (n - c.utf8Size) ⟨p.line, p.column + min n c.utf8Size⟩

/-- The place in a text behind which `left` bytes stand. -/
def Place.of (text : List Char) (left : Nat) : Place := Place.after text (byteCount text - left) ⟨1, 0⟩

/-- A fault with its place in the text. -/
structure Error where
  cause : Cause
  place : Option Place
  deriving DecidableEq, Repr

/-- The fault as it is reported of a text. -/
def Fault.inText (text : List Char) (f : Fault) : Error := ⟨f.cause, f.left.map (Place.of text)⟩

/-! ## Wording -/

/-- Numbers in messages are written without an exponent from five places behind the point to sixteen before it. -/
def numberFormat : Decimal.Format := ⟨-5, 15⟩

def Found.describe : Found → String
  | .null => "null"
  | .boolean b => "boolean `" ++ (if b then "true" else "false") ++ "`"
  | .integer n => "integer `" ++ toString n ++ "`"
  | .float negative x => "floating point `" ++ numberFormat.signed negative x ++ "`"
  | .text s => "string " ++ Text.quoted s
  | .list => "sequence"
  | .object => "map"

def Expected.describe : Expected → String
  | .text => "a string"
  | .boolean => "a boolean"
  | .options => "struct LogOptions"

/-- Names in backticks, with commas between them. -/
def listed (names : List String) : String := ", ".intercalate (names.map fun n => "`" ++ n ++ "`")

def Cause.message : Cause → String
  | .endInValue => "EOF while parsing a value"
  | .endInObject => "EOF while parsing an object"
  | .endInList => "EOF while parsing a list"
  | .endInString => "EOF while parsing a string"
  | .expectedColon => "expected `:`"
  | .expectedObjectEnd => "expected `,` or `\x7d`"
  | .expectedListEnd => "expected `,` or `]`"
  | .expectedValue => "expected value"
  | .expectedWord => "expected ident"
  | .keyNotString => "key must be a string"
  | .trailingComma => "trailing comma"
  | .trailingCharacters => "trailing characters"
  | .badNumber => "invalid number"
  | .numberOutOfRange => "number out of range"
  | .badEscape => "invalid escape"
  | .controlCharacter => "control character (\\u0000-\\u001F) found while parsing a string"
  | .loneSurrogate => "lone leading surrogate in hex escape"
  | .brokenPair => "unexpected end of hex escape"
  | .wrongKind found expected => "invalid type: " ++ found.describe ++ ", expected " ++ expected.describe
  | .unknownField name known => "unknown field `" ++ name ++ "`, expected one of " ++ listed known
  | .duplicateField name => "duplicate field `" ++ name ++ "`"
  | .unrecognizedLevel name => "unrecognized log level name `" ++ name ++ "`"

def Error.message (e : Error) : String :=
  match e.place with
  | none => e.cause.message
  | some p => e.cause.message ++ " at line " ++ toString p.line ++ " column " ++ toString p.column

end LogFanout.Json

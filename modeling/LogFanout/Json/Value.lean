import LogFanout.Json.Literal
import LogFanout.Json.Number

/- Values of JSON where one of a certain kind is expected.

   Blanks between tokens are space, tab, line feed and carriage return, and no others. A value of another kind is a fault
   that names what was found: a scalar is read to its end first, and its own fault comes before; a list or an object is
   named at its bracket. -/
namespace LogFanout.Json

def isSpace (c : Char) : Bool := c == ' ' || c == '\t' || c == '\n' || c == '\r'

/-- A text from its first character that is no blank. -/
def skipSpace (s : List Char) : List Char := s.dropWhile isSpace

/-- Takes the letters of a word. -/
def readWord : List Char → List Char → Except Fault (List Char)
  | [], rest => .ok rest
  | _ :: _, [] => .error (here .endInValue [])
  | w :: word, c :: rest => if c = w then readWord word rest else .error (ahead .expectedWord (c :: rest))

/-- The value at the start of a text, described to its end. -/
def readFound (s : List Char) : Except Fault (Found × List Char) :=
  match s with
  | [] => .error (ahead .expectedValue [])
  | c :: rest =>
    if c = 'n' then (readWord ['u', 'l', 'l'] rest).map fun after => (.null, after)
    else if c = 't' then (readWord ['r', 'u', 'e'] rest).map fun after => (.boolean true, after)
    else if c = 'f' then (readWord ['a', 'l', 's', 'e'] rest).map fun after => (.boolean false, after)
    else if c = '-' then readNumber true rest
    else if c.isDigit then readNumber false s
    else if c = '"' then (readString rest).map fun (text, after) => (.text (String.ofList text), after)
    else if c = '[' then .ok (.list, s)
    else if c = '\x7b' then .ok (.object, s)
    else .error (ahead .expectedValue s)

/-- The fault of a value that is not of the expected kind. -/
def refuse (expected : Expected) (s : List Char) : Fault :=
  match readFound s with
  | .error e => e
  | .ok (found, rest) => here (.wrongKind found expected) rest

def readText (s : List Char) : Except Fault (String × List Char) :=
  match skipSpace s with
  | [] => .error (here .endInValue [])
  | c :: rest =>
    if c = '"' then (readString rest).map fun (text, after) => (String.ofList text, after)
    else .error (refuse .text (c :: rest))

def readBoolean (s : List Char) : Except Fault (Bool × List Char) :=
  match skipSpace s with
  | [] => .error (here .endInValue [])
  | c :: rest =>
    if c = 't' then (readWord ['r', 'u', 'e'] rest).map fun after => (true, after)
    else if c = 'f' then (readWord ['a', 'l', 's', 'e'] rest).map fun after => (false, after)
    else .error (refuse .boolean (c :: rest))

/-- The end of a document: nothing but blanks. -/
def readEnd (s : List Char) : Except Fault Unit :=
  match skipSpace s with
  | [] => .ok ()
  | rest => .error (ahead .trailingCharacters rest)

end LogFanout.Json

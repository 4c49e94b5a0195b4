import LogFanout.Options
import LogFanout.Json.Value

/- Reading options from JSON.

   Options are an object with any of the four fields in any order, or a list of values in the order of the fields that
   may end early. A field that is missing has its default. A field that is unknown or comes twice is a fault at once,
   before its value is looked at; so the fields that are still open shrink with every member that is read.

   Three faults concern the meaning and not the form: an unknown field, a field that comes twice and a level that nobody
   knows. They are placed late, behind the bracket that closes the options if it comes next.

   Correspondence:
     `LogOptions::from_json_str`                  ↔ `Options.ofJson`
     `LogOptions::deserialize`, no unknown fields ↔ `Options.read`
     `Level::deserialize` on a whole text         ↔ `Level.ofJson` -/
namespace LogFanout

/-- A level as a whole document. A fault of meaning has no place here. -/
def Level.ofJson (text : List Char) : Except Json.Error Level :=
  match Json.readText text with
  | .error e => .error (e.inText text)
  | .ok (name, rest) =>
    match Level.setting? name with
    | none => .error ⟨.unrecognizedLevel name, none⟩
    | some l =>
      match Json.readEnd rest with
      | .error e => .error (e.inText text)
      | .ok () => .ok l

namespace Options

open Json (Fault here ahead skipSpace)

/-- The two forms of a document of options. -/
inductive Form where
  | object
  | list
  deriving DecidableEq, Repr

/-- What is left behind the end of the options, as far as a fault of meaning looks for it: blanks, and the closing bracket;
    in a list also a comma with the blanks behind it. -/
def Form.leave : Form → List Char → List Char
  | .object, s =>
    match skipSpace s with
    | '\x7d' :: rest => rest
    | rest => rest
  | .list, s =>
    match skipSpace s with
    | ']' :: rest => rest
    | ',' :: rest => skipSpace rest
    | rest => rest

/-- A fault of meaning: it is placed where the options end. -/
def late (form : Form) (cause : Json.Cause) (rest : List Char) : Fault := here cause (form.leave rest)

/-- The value of a field, put into the options. -/
def readField (form : Form) (f : Field) (o : Options) (s : List Char) : Except Fault (Options × List Char) :=
  match f with
  | .target => (Json.readText s).map fun (text, rest) => (⟨text, o.append, o.console, o.saveLevel⟩, rest)
  | .append => (Json.readBoolean s).map fun (b, rest) => (⟨o.target, b, o.console, o.saveLevel⟩, rest)
  | .console => (Json.readBoolean s).map fun (b, rest) => (⟨o.target, o.append, b, o.saveLevel⟩, rest)
  | .saveLevel =>
    match Json.readText s with
    | .error e => .error e
    | .ok (name, rest) =>
      match Level.setting? name with
      | none => .error (late form (.unrecognizedLevel name) rest)
      | some l => .ok (⟨o.target, o.append, o.console, l⟩, rest)

/-- The name of a member, from behind its opening quote: a field that is still open. -/
def readKey (unset : List Field) (s : List Char) : Except Fault ({ f : Field // f ∈ unset } × List Char) :=
  match Json.readString s with
  | .error e => .error e
  | .ok (key, rest) =>
    match Field.ofName? (String.ofList key) with
    | none => .error (late .object (.unknownField (String.ofList key) (Field.all.map Field.name)) rest)
    | some f =>
      if h : f ∈ unset then .ok (⟨f, h⟩, rest) else .error (late .object (.duplicateField f.name) rest)

def readColon (s : List Char) : Except Fault (List Char) :=
  match skipSpace s with
  | [] => .error (here .endInObject [])
  | ':' :: rest => .ok rest
  | rest => .error (ahead .expectedColon rest)

/-- What follows a member: nothing more, or the next member from behind its opening quote. -/
def nextMember (s : List Char) : Except Fault (Option (List Char) × List Char) :=
  match skipSpace s with
  | [] => .error (here .endInObject [])
  | '\x7d' :: rest => .ok (none, rest)
  | ',' :: rest =>
    match skipSpace rest with
    | [] => .error (here .endInValue [])
    | '"' :: member => .ok (some member, member)
    | '\x7d' :: rest => .error (ahead .trailingComma ('\x7d' :: rest))
    | rest => .error (ahead .keyNotString rest)
  | rest => .error (ahead .expectedObjectEnd rest)

/-- The members of an object, from behind the opening quote of the first, while the fields `unset` are open. -/
def readMembers (unset : List Field) (o : Options) (s : List Char) : Except Fault (Options × List Char) := do
  let (⟨f, _h⟩, rest) ← readKey unset s
  let rest ← readColon rest
  let (o, rest) ← readField .object f o rest
  let (more, rest) ← nextMember rest
  match more with
  | none => pure (o, rest)
  | some member => readMembers (unset.erase f) o member
  termination_by unset.length
  decreasing_by
    have := List.length_erase_of_mem _h
    have := List.length_pos_of_mem _h
    omega

def readObject (s : List Char) : Except Fault (Options × List Char) :=
  match skipSpace s with
  | [] => .error (here .endInObject [])
  | '\x7d' :: rest => .ok (.default, rest)
  | '"' :: member => readMembers Field.all .default member
  | rest => .error (ahead .keyNotString rest)

/-- The end of a list all of whose fields have been read. -/
def closeList (s : List Char) : Except Fault (List Char) :=
  match skipSpace s with
  | [] => .error (here .endInList [])
  | ']' :: rest => .ok rest
  | ',' :: rest =>
    match skipSpace rest with
    | ']' :: rest => .error (ahead .trailingComma (']' :: rest))
    | rest => .error (ahead .trailingCharacters rest)
  | rest => .error (ahead .trailingCharacters rest)

/-- The values of a list behind its first, for the fields that are left. -/
def readElements : List Field → Options → List Char → Except Fault (Options × List Char)
  | [], o, s => (closeList s).map fun rest => (o, rest)
  | f :: fields, o, s =>
    match skipSpace s with
    | [] => .error (here .endInList [])
    | ']' :: rest => .ok (o, rest)
    | ',' :: rest =>
      match skipSpace rest with
      | [] => .error (here .endInValue [])
      | ']' :: rest => .error (ahead .trailingComma (']' :: rest))
      | rest =>
        match readField .list f o rest with
        | .error e => .error e
        | .ok (o, rest) => readElements fields o rest
    | rest => .error (ahead .expectedListEnd rest)

def readList (s : List Char) : Except Fault (Options × List Char) :=
  match skipSpace s with
  | [] => .error (here .endInList [])
  | ']' :: rest => .ok (.default, rest)
  | rest =>
    match readField .list .target .default rest with
    | .error e => .error e
    | .ok (o, rest) => readElements [.append, .console, .saveLevel] o rest

/-- Options at the start of a text, and what follows them. -/
def read (s : List Char) : Except Fault (Options × List Char) :=
  match skipSpace s with
  | [] => .error (here .endInValue [])
  | '\x7b' :: rest => readObject rest
  | '[' :: rest => readList rest
  | rest => .error (Json.refuse .options rest)

def ofJson (text : List Char) : Except Json.Error Options :=
  match read text with
  | .error e => .error (e.inText text)
  | .ok (o, rest) =>
    match Json.readEnd rest with
    | .error e => .error (e.inText text)
    | .ok () => .ok o

def readsFrom (o : Options) (text : List Char) : Bool :=
  match ofJson text with
  | .ok o' => o' == o
  | .error _ => false

end Options
end LogFanout

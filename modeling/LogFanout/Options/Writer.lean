import LogFanout.Options
import LogFanout.Json.Literal

/- Writing options as JSON.

   Options are written as one object with all four fields in their order and no blanks. The save level `invalid` is the
   outcome of a bad name and cannot be written.

   Correspondence:
     `LogOptions::serialize` ↔ `Options.toJson`
     `Level::serialize`      ↔ `Level.toJson` -/
namespace LogFanout

def Level.toJson (l : Level) : Except Json.Error (List Char) :=
  if l = .invalid then .error ⟨.unrecognizedLevel l.name, none⟩ else .ok (Json.literal l.name)

namespace Options

def boolean (b : Bool) : List Char := if b then ['t', 'r', 'u', 'e'] else ['f', 'a', 'l', 's', 'e']

def member (f : Field) (value : List Char) : List Char := Json.literal f.name ++ [':'] ++ value

def toJson (o : Options) : Except Json.Error (List Char) := do
  let level ← o.saveLevel.toJson
  pure (['\x7b'] ++ member .target (Json.literal o.target) ++ [','] ++ member .append (boolean o.append) ++ [','] ++
    member .console (boolean o.console) ++ [','] ++ member .saveLevel level ++ ['\x7d'])

end Options
end LogFanout

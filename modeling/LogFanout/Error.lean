import LogFanout.Disk
import LogFanout.Json.Fault
import LogFanout.Level

/- Errors of the library.

   Handing records to sinks never fails. What fails is reading: a level by its name, a file, options in JSON. Two misuses
   abort a call: writing at the level that is reserved for the manager, and an argument that cannot be rendered.

   Correspondence:
     `Error::InvalidLevel`, `Error::Io`, `Error::Config` ↔ `Error.badLevel`, `Error.disk`, `Error.options`
     the assertion in `LogManager::accepts`              ↔ `Misuse.reservedLevel`
     an argument that fails to format                    ↔ `Misuse.unrenderable` -/
namespace LogFanout

inductive Misuse where
  | reservedLevel
  | unrenderable
  deriving DecidableEq, Repr

/-- What a caller is told when a call gives no result. -/
inductive Error where
  | badLevel (name : String)
  | disk (e : DiskError)
  | options (e : Json.Error)
  | misuse (m : Misuse)
  deriving DecidableEq, Repr

def Misuse.message : Misuse → String
  | .reservedLevel =>
    "assertion `left != right` failed: Level::Internal is reserved for the log manager\n  left: Internal\n right: Internal"
  | .unrenderable => "a formatting trait implementation returned an error when the underlying stream did not: Error"

def Error.message : Error → String
  | .badLevel name => "unrecognized log level name `" ++ name ++ "`"
  | .disk e => "I/O error: " ++ e.message
  | .options e => "invalid log options: " ++ e.message
  | .misuse m => m.message

/-- Reads the name of one of the twelve levels. -/
def Level.parse (text : String) : Except Error Level :=
  match Level.ofName? text with
  | some l => .ok l
  | none => .error (.badLevel text)

end LogFanout

import LogFanout.Level

/- Options of a file sink.

   Where the log goes (an empty target means no file), whether an existing file is kept and extended, whether lines are
   also shown on the console, and the level that the sink saves at. Every option has a default.

   Correspondence:
     `LogOptions`                    ↔ `Options`
     `LogOptions::default`           ↔ `Options.default`
     the names of the fields in JSON ↔ `Field.name` -/
namespace LogFanout

/-- What a file sink is made from. -/
structure Options where
  target : String
  append : Bool
  console : Bool
  saveLevel : Level
  deriving DecidableEq, Repr

namespace Options

/-- The options of a log that nobody has configured. -/
protected def default : Options := ⟨"sinkwise.log", false, true, .detail⟩

instance : Inhabited Options := ⟨Options.default⟩

inductive Field where
  | target
  | append
  | console
  | saveLevel
  deriving DecidableEq, Repr

namespace Field

/-- All fields, in the order in which they are written. -/
def all : List Field := [.target, .append, .console, .saveLevel]

def name : Field → String
  | .target => "target"
  | .append => "append"
  | .console => "console_output"
  | .saveLevel => "save_level"

def ofName? (s : String) : Option Field := all.find? fun f => f.name == s

theorem mem_all (f : Field) : f ∈ all := by cases f <;> decide

end Field
end Options
end LogFanout

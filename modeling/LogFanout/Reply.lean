import LogFanout.Error
import LogFanout.Options

/- Replies: what a step gives back.

   Most steps give nothing or a truth value. A formatted write tells how often its argument was rendered, which is never
   more than once. A step that is addressed to a name nobody has is answered with `unknownName` and changes nothing. -/
namespace LogFanout

inductive Reply where
  | nothing
  | truth (b : Bool)
  | rendered (times : Nat)
  | managerStatus (on : Bool) (count : Nat) (retired : Bool)
  | processStatus (on created : Bool)
  | text (s : String)
  | lines (l : List String)
  | bufferSize (n : Nat)
  | fileStatus (target : String) (saveLevel : Level) (hasFile : Bool)
  | memoryStatus (target : Option String) (saveLevel : Level)
  | options (o : Options)
  | failed (e : Error)
  | unknownName
  deriving DecidableEq, Repr

def describeManager (on : Bool) (count : Nat) (retired : Bool) : String :=
  "LogManager \x7b sink_count: " ++ toString count ++ ", enabled: " ++ toString on ++ ", retired: " ++
    toString retired ++ " \x7d"

end LogFanout

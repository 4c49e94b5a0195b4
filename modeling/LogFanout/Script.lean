import LogFanout.System.Process

/- Scripts: what a program does with the system.

   A step is an operation, or a formatted write. A formatted write has an argument in pieces, which is rendered only if the
   write is taken; and a piece may be a step of its own, taken while the argument is being rendered. So steps and arguments
   are one mutual type.

   Correspondence:
     `log!`, `log_node!` (`LogManager::write_args`)   ↔ `Step.format` at a handle
     `global_log!`, `global_log_node!` (`write_args`) ↔ `Step.format` at the process
     every other call of the library                  ↔ `Step.op` -/
namespace LogFanout

/-- Whom an operation is addressed to: the manager behind a handle, or the process. -/
inductive Address where
  | handle (name : String)
  | process
  deriving DecidableEq, Repr

/-- Where an operation gets its sink: it is built, or taken from under a name. -/
inductive Source where
  | built (spec : Sink.Spec)
  | held (name : String)
  deriving DecidableEq, Repr

/-- An operation in which no argument is rendered. -/
inductive Op where
  | make (handle : String) (source : Source)
  | makeEmpty (handle : String)
  | dropHandle (handle : String)
  | same (one other : String)
  | create (source : Source) (handle : Option String)
  | destroy
  | takeInstance (handle : String)
  | register (whom : Address) (source : Source) (append : Bool)
  | setEnabled (whom : Address) (on : Bool)
  | setSaveLevel (whom : Address) (l : Level)
  | status (whom : Address)
  | write (whom : Address) (r : Record)
  | rename (whom : Address) (name : String)
  | flush (whom : Address)
  | drainText (logs : String)
  | drainLines (logs : String)
  | bufferSize (logs : String)
  | drainToConsole (logs : String)
  | hold (name : String) (source : Source)
  | callSink (name : String) (c : Call)
  | sinkStatus (name : String)
  | dropSink (name : String)
  | put (path : String) (bytes : Text.Bytes)
  | makeFolder (path : String)
  | remove (path : String)
  | read (path : String)
  | list
  | loadOptions (path : String)
  | wait (stamp : String)
  deriving DecidableEq, Repr

namespace Op

def makeWithFile (handle : String) (o : Options) : Op := .make handle (.built (.file o))

def createWithFile (o : Options) (handle : Option String) : Op := .create (.built (.file o)) handle

end Op

/-- A piece of an argument that takes no step. A piece that fails ends the rendering. -/
inductive Piece where
  | text (s : String)
  | number (n : Int)
  | byte (b : UInt8)
  | fail
  deriving DecidableEq, Repr

def Piece.render : Piece → Option String
  | .text s => some s
  | .number n => some (toString n)
  | .byte b => some (String.ofList [Nat.digitChar (b.toNat / 16), Nat.digitChar (b.toNat % 16)])
  | .fail => none

mutual

inductive Step where
  | op (o : Op)
  | format (whom : Address) (l : Level) (node : Option Node) (argument : Argument)

/-- An argument: its pieces, and the steps taken between them. -/
inductive Argument where
  | done
  | piece (p : Piece) (rest : Argument)
  | take (step : Step) (rest : Argument)

end

def Argument.ofList : List (Piece ⊕ Step) → Argument
  | [] => .done
  | .inl p :: rest => .piece p (ofList rest)
  | .inr step :: rest => .take step (ofList rest)

end LogFanout

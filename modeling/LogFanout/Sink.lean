import LogFanout.Sink.File
import LogFanout.Sink.Memory

/- Sinks.

   A sink takes the calls that a manager makes on it. Three kinds are known: a probe only lets itself be called, a memory
   sink keeps texts, and a file sink keeps lines. Every sink has a number of its own, given when it is built and never
   given again. -/
namespace LogFanout

inductive Sink.Body where
  | probe
  | memory (m : MemorySink)
  | file (f : FileSink)
  deriving DecidableEq, Repr

/-- A sink: its number, and what it is. -/
structure Sink where
  id : Nat
  body : Sink.Body
  deriving DecidableEq, Repr

/-- What is remembered of every sink that was ever built. `hearsFlush` says whether a probe notices a flush. -/
inductive Sink.Label where
  | probe (name : String) (hearsFlush : Bool)
  | memory (name : String)
  | file
  deriving DecidableEq, Repr

/-- The sink that somebody asks for. -/
inductive Sink.Spec where
  | probe (name : String) (hearsFlush : Bool)
  | memory (name : String) (level : Option Level)
  | file (o : Options)
  | openFile (o : Options)
  deriving DecidableEq, Repr

end LogFanout

import LogFanout.Sink.Call

/- Memory sinks.

   A memory sink stores the text of every record that it keeps in a buffer. The buffer is shared with those who asked for
   it before the sink was handed over, and it outlives the sink. A target is only remembered.

   Correspondence:
     `InMemorySink::new`, `default` ↔ `MemorySink.make`
     `InMemorySink` as a sink       ↔ `MemorySink.receive`
     `InMemoryLogs::drain_logs`     ↔ `joined`, of the lines in the buffer -/
namespace LogFanout

/-- A memory sink, apart from its buffer. -/
structure MemorySink where
  saveLevel : Level
  target : Option String
  deriving DecidableEq, Repr

namespace MemorySink

/-- A new sink. Without a level it saves up to `debug`. -/
def make (level : Option Level) : MemorySink := ⟨level.getD .debug, none⟩

/-- What a call does to a memory sink and to the lines in its buffer. -/
def receive (c : Call) (m : MemorySink) (lines : List String) : MemorySink × List String :=
  match c with
  | .write r => (m, if m.saveLevel.keeps r.level then lines ++ [r.display] else lines)
  | .saveLevel l => ({ m with saveLevel := l }, lines)
  | .target name => ({ m with target := some name }, lines)
  | .flush => (m, lines)

end MemorySink

/-- Lines as one text, with a line feed between each and the next. -/
def joined (lines : List String) : String := "\n".intercalate lines

end LogFanout

import LogFanout.Record

/- Calls: what a sink is asked to do.

   There are four calls, and a sink has no result for any of them: whatever goes wrong stays inside the sink.

   Correspondence:
     `Sink::write`          ↔ `Call.write`
     `Sink::set_save_level` ↔ `Call.saveLevel`
     `Sink::set_target`     ↔ `Call.target`
     `Sink::flush`          ↔ `Call.flush` -/
namespace LogFanout

/-- A call on a sink: take a record, save at another level, write to another target, or write out what is pending. -/
inductive Call where
  | write (r : Record)
  | saveLevel (l : Level)
  | target (name : String)
  | flush
  deriving DecidableEq, Repr

end LogFanout

import LogFanout.Sink

/- Managers.

   A manager owns a list of sinks. Beside the list it keeps a count of it, which is what a write looks at before it takes
   the list; whether logging is on is told by a switch, which is the manager's own or the one of the process; and a manager
   that has been torn down is retired for good.

   Correspondence:
     `LogManager`                ↔ `Manager`
     `LogManager::with_flag`     ↔ `Manager.ofSinks`
     `LogManager::logging_state` ↔ `Manager.enabled`
     `LogManager::is_open`       ↔ `Manager.isOpen` -/
namespace LogFanout

/-- Where a manager finds out whether logging is on. -/
inductive Switch where
  | own (on : Bool)
  | shared
  deriving DecidableEq, Repr

/-- A manager. Its count is the length of its list of sinks. -/
structure Manager where
  sinks : List Sink
  count : Nat
  switch : Switch
  retired : Bool
  deriving DecidableEq, Repr

namespace Manager

/-- A manager in use, with a list of sinks. -/
def ofSinks (sinks : List Sink) (switch : Switch) : Manager := ⟨sinks, sinks.length, switch, false⟩

def enabled (m : Manager) (processFlag : Bool) : Bool :=
  match m.switch with
  | .own on => on
  | .shared => processFlag

/-- Whether a write would be taken, as far as that can be told without looking at the list. -/
def isOpen (m : Manager) (processFlag : Bool) : Bool := m.enabled processFlag && 0 < m.count && !m.retired

end Manager
end LogFanout

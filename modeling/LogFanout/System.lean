import LogFanout.Manager
import LogFanout.World

/- The system: all managers, the slot of the process, and those who hold on to them.

   Managers are numbered in the order in which they were made. The process has a slot for one of them, its instance, and a
   flag that tells whether logging is on; the flag is there without an instance, too. Handles are kept under names, and so
   are sinks that no manager has. A manager is in use as long as the slot, a handle or a running call has it; after that
   its sinks are dropped.

   This file has the operations on a manager by its number. Each of them first looks whether the manager is retired, or
   has nothing left to act on if it is, so a retired manager ignores them all.

   A manager's list is taken under a lock of its own and the slot under another, and neither lock is part of the state.
   Each is held by a guard of the call that took it, which goes when the call returns and just as well when the call is
   aborted and unwinds, and no lock is poisoned by that. A write at the reserved level is refused before the list is
   locked, and an argument is rendered before it is; a write of the process has the slot's lock by then, which it shares
   with all calls but those that make or destroy the instance. So what a step leaves behind, aborted or not, is the state
   and no lock. What a call holds on to while it runs is in `running`, which is as before when the call has ended
   (`Step.run_running`).

   Correspondence:
     `LogManager::new`, `empty`, `with_sink` ↔ `newManager`
     `LogManager::set_logging_class`         ↔ `register`
     `LogManager::set_logging_state`         ↔ `setEnabled`
     `LogManager::set_save_level`            ↔ `setSaveLevel`
     `LogManager::accepts`, `dispatch`       ↔ `accepts`, `dispatch`
     `LogManager::write`, `write_node`       ↔ `write`
     `LogManager::set_log_file_name`         ↔ `rename`
     `LogManager::flush`                     ↔ `flush`
     `LogManager::announce_started`          ↔ `announce`
     `LogManager::teardown`                  ↔ `retire`
     the last owner of a manager lets go     ↔ `release` -/
namespace LogFanout

/-- The whole state: `held` are the sinks that no manager has, `logs` the last memory sink built under each name, and
    `running` the managers that a call holds on to. -/
structure System where
  world : World
  managers : List Manager
  slot : Option Nat
  processFlag : Bool
  handles : Table String Nat
  held : Table String Sink
  logs : Table String Nat
  running : List Nat
  deriving Repr

namespace System

def fresh (stamp : String) : System := ⟨.fresh stamp, [], none, false, .empty, .empty, .empty, []⟩

/-- Time passes: from now on lines get another mark. -/
def wait (s : System) (stamp : String) : System := { s with world := { s.world with stamp } }

def setManager (s : System) (m : Nat) (manager : Manager) : System := { s with managers := s.managers.set m manager }

def enabled (s : System) (m : Nat) : Bool :=
  match s.managers[m]? with
  | some manager => manager.enabled s.processFlag
  | none => false

/-- Whether a manager takes writes and new targets. -/
def isOpen (s : System) (m : Nat) : Bool :=
  match s.managers[m]? with
  | some manager => manager.isOpen s.processFlag
  | none => false

/-- Turns logging on or off for a manager, at the switch that it looks at. -/
def setSwitch (s : System) (m : Nat) (on : Bool) : System :=
  match s.managers[m]? with
  | none => s
  | some manager =>
    match manager.switch with
    | .shared => { s with processFlag := on }
    | .own _ => s.setManager m { manager with switch := .own on }

/-! ## Calls on all sinks of a manager -/

/-- Makes a call on every sink of a manager, in the order of its list. -/
def fanOut (s : System) (m : Nat) (c : Call) : System :=
  match s.managers[m]? with
  | none => s
  | some manager =>
    let (sinks, world) := World.deliver c manager.sinks s.world
    { s with world }.setManager m { manager with sinks }

/-- Hands a record to every sink of a manager. Whether it is taken has been settled before. -/
def dispatch (s : System) (m : Nat) (r : Record) : System := s.fanOut m (.write r)

/-- Whether a manager takes a record at a level. The level of its own messages is not for callers. -/
def accepts (s : System) (m : Nat) (l : Level) : Except Misuse Bool :=
  if l = .internal then .error .reservedLevel else .ok (s.isOpen m)

def write (s : System) (m : Nat) (r : Record) : Except Misuse System :=
  match s.accepts m r.level with
  | .error e => .error e
  | .ok taken => .ok (if taken then s.dispatch m r else s)

def rename (s : System) (m : Nat) (name : String) : System := if s.isOpen m then s.fanOut m (.target name) else s

/-- Lets all sinks of a manager write out what is pending, whether logging is on or not. -/
def flush (s : System) (m : Nat) : System := s.fanOut m .flush

/-! ## Settings -/

/-- Announces to all sinks that logging has been switched on. -/
def announce (s : System) (m : Nat) (before after : Bool) : System :=
  if !before && after then s.fanOut m (.write .banner) else s

def setEnabled (s : System) (m : Nat) (on : Bool) : System :=
  match s.managers[m]? with
  | none => s
  | some manager =>
    if manager.retired then s else (s.setSwitch m on).announce m (manager.enabled s.processFlag) on

/-- Sets the save level. Logging is on from now on if the level activates it, and then every sink gets the level, before
    the announcement. -/
def setSaveLevel (s : System) (m : Nat) (l : Level) : System :=
  match s.managers[m]? with
  | none => s
  | some manager =>
    if manager.retired then s
    else
      let switched := s.setSwitch m l.activates
      let levelled := if l.activates then switched.fanOut m (.saveLevel l) else switched
      levelled.announce m (manager.enabled s.processFlag) l.activates

/-! ## The list of sinks -/

def discard (s : System) (sinks : List Sink) : System := { s with world := s.world.discard sinks }

/-- Gives a sink to a manager: behind those it has, or in their place. A retired manager refuses it, and a sink that is
    refused is dropped. -/
def register (s : System) (m : Nat) (sink : Sink) (append : Bool) : Bool × System :=
  match s.managers[m]? with
  | none => (false, s.discard [sink])
  | some manager =>
    if manager.retired then (false, s.discard [sink])
    else
      let (kept, s) := if append then (manager.sinks, s) else ([], s.discard manager.sinks)
      let sinks := kept ++ [sink]
      (true, s.setManager m { manager with sinks, count := sinks.length })

/-- Flushes all sinks of a manager, drops them, and retires the manager. -/
def retire (s : System) (m : Nat) : System :=
  match s.managers[m]? with
  | none => s
  | some manager =>
    let (sinks, world) := World.deliver .flush manager.sinks s.world
    ({ s with world }.discard sinks).setManager m { manager with sinks := [], count := 0, retired := true }

/-- Makes a manager with a list of sinks and a switch of its own, which is on. -/
def newManager (s : System) (sinks : List Sink) : Nat × System :=
  (s.managers.length, { s with managers := s.managers ++ [.ofSinks sinks (.own true)] })

/-! ## Who has a manager -/

/-- Whether the slot, a handle or a running call has a manager. -/
def inUse (s : System) (m : Nat) : Bool := s.slot == some m || s.handles.values.contains m || s.running.contains m

/-- Drops the sinks of a manager that nobody has any more. -/
def release (s : System) (m : Nat) : System :=
  if s.inUse m then s
  else
    match s.managers[m]? with
    | none => s
    | some manager => (s.discard manager.sinks).setManager m { manager with sinks := [], count := 0 }

/-- Keeps a handle under a name, in place of the one that was there. -/
def keepHandle (s : System) (name : String) (m : Nat) : System :=
  match s.handles.get? name with
  | none => { s with handles := s.handles.put name m }
  | some old => { s with handles := s.handles.put name m }.release old

def dropHandle (s : System) (name : String) : Bool × System :=
  match s.handles.get? name with
  | none => (false, s)
  | some m => (true, { s with handles := s.handles.erase name }.release m)

/-- Keeps a sink under a name, in place of the one that was there. -/
def holdSink (s : System) (name : String) (sink : Sink) : System :=
  match s.held.get? name with
  | none => { s with held := s.held.put name sink }
  | some old => { s with held := s.held.put name sink }.discard [old]

def dropSink (s : System) (name : String) : Bool × System :=
  match s.held.get? name with
  | none => (false, s)
  | some sink => (true, { s with held := s.held.erase name }.discard [sink])

def callSink (s : System) (name : String) (c : Call) : Option System :=
  match s.held.get? name with
  | none => none
  | some sink =>
    let (sink, world) := s.world.receive sink c
    some { s with world, held := s.held.put name sink }

end System
end LogFanout

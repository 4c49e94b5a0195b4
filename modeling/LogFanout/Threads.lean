import LogFanout.System.Process

/- Threads: writers and registrars that share a manager.

   A thread has a list of tasks. To write is three moves: a check without the lock, the rendering of the record, and one
   fan-out under the lock, to the sinks that the manager has at that moment. To register a sink is one move under the lock.
   Between two moves of a thread any other thread may move; a schedule says who moves when. Rendering touches nothing that
   is shared. A thread that commits a misuse stops.

   Correspondence:
     `accepts`, on the way into `write` ↔ the move from `idle` to `taken`
     the record, with its text rendered ↔ the move from `taken` to `rendered`
     `dispatch`                         ↔ the move from `rendered` to `idle`
     `set_logging_class`, with `append` ↔ the move at a `Task.register` -/
namespace LogFanout

/-- How a thread reaches the manager: by its number, or as the instance of the process. -/
inductive Door where
  | manager (m : Nat)
  | process
  deriving DecidableEq, Repr

/-- The manager behind a door that takes a record at a level, if there is one and it does. -/
def Door.taker (door : Door) (s : System) (l : Level) : Except Misuse (Option Nat) :=
  match door with
  | .manager m => (s.accepts m l).map fun taken => if taken then some m else none
  | .process => s.instanceAccepts l

/-- Gives a sink, behind those that are there, to the manager behind a door. -/
def Door.register (door : Door) (s : System) (sink : Sink) : System :=
  match door with
  | .manager m => (s.register m sink true).2
  | .process => (s.registerInstance sink true).2

/-- What a thread has to do: write a record, or give the manager another sink. -/
inductive Task where
  | write (r : Record)
  | register (sink : Sink)
  deriving DecidableEq, Repr

/-- How far the write at hand has come. -/
inductive Phase where
  | idle
  | taken (m : Nat) (r : Record)
  | rendered (m : Nat) (r : Record)
  deriving DecidableEq, Repr

/-- A thread: how far its write has come, and the tasks behind it. -/
structure Thread where
  phase : Phase
  tasks : List Task
  deriving DecidableEq, Repr

namespace Thread

def ofTasks (tasks : List Task) : Thread := ⟨.idle, tasks⟩

def move (door : Door) (t : Thread) (s : System) : Thread × System :=
  match t.phase with
  | .taken m r => (⟨.rendered m r, t.tasks⟩, s)
  | .rendered m r => (⟨.idle, t.tasks⟩, s.dispatch m r)
  | .idle =>
    match t.tasks with
    | [] => (t, s)
    | .register sink :: rest => (⟨.idle, rest⟩, door.register s sink)
    | .write r :: rest =>
      match door.taker s r.level with
      | .error _ => (⟨.idle, []⟩, s)
      | .ok none => (⟨.idle, rest⟩, s)
      | .ok (some m) => (⟨.taken m r, rest⟩, s)

end Thread

structure Crew where
  system : System
  threads : List Thread
  deriving Repr

namespace Crew

def move (door : Door) (c : Crew) (i : Nat) : Crew :=
  match c.threads[i]? with
  | none => c
  | some t =>
    let (t, s) := t.move door c.system
    ⟨s, c.threads.set i t⟩

def run (door : Door) : List Nat → Crew → Crew
  | [], c => c
  | i :: schedule, c => run door schedule (c.move door i)

end Crew
end LogFanout

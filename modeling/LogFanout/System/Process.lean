import LogFanout.System

/- The process: its instance and its flag.

   Making an instance tears down the one before it, completely and before anything else happens; the flag is then on.
   Without an instance the setters only set the flag, and everything else has nobody to act on.

   Correspondence:
     `create`, `create_with`    ↔ `create`, which ends with `install`
     `destroy`                  ↔ `destroy`
     `precondition_violated`    ↔ `say noInstance`
     `set_logging_class`        ↔ `registerInstance`
     `set_logging_state`        ↔ `setInstanceEnabled`
     `set_save_level`           ↔ `setInstanceSaveLevel`
     `write`, `write_node`      ↔ `writeInstance`
     the guards of `write_args` ↔ `instanceAccepts`
     `set_log_file_name`        ↔ `renameInstance`
     `flush`                    ↔ `flushInstance` -/
namespace LogFanout.System

/-- Takes the instance out of the slot and tears it down. -/
def withdraw (s : System) : System :=
  match s.slot with
  | none => s
  | some m => { s with slot := none }.retire m

/-- Makes the instance, with one sink. -/
def install (s : System) (sink : Sink) : Nat × System :=
  (s.managers.length,
    { s with managers := s.managers ++ [.ofSinks [sink] .shared], slot := some s.managers.length, processFlag := true })

/-- Makes the instance, with a sink that is made after the instance before it has been torn down. -/
def create {ε : Type} (s : System) (make : System → Except ε Sink × System) : Except ε Nat × System :=
  match make s.withdraw with
  | (.error e, s) => (.error e, s)
  | (.ok sink, s) =>
    let (m, s) := s.install sink
    (.ok m, s)

/-- Tears down the instance, if there is one. The flag stays as it is. -/
def destroy (s : System) : System := s.withdraw

/-- The note of a sink that is registered without an instance. -/
def noInstance : String := "sinkwise: set_logging_class called before create\n"

def say (s : System) (text : String) : System := { s with world := { s.world with host := s.world.host.show text } }

/-- Gives a sink to the instance. Without one it is dropped, with a note on the console. -/
def registerInstance (s : System) (sink : Sink) (append : Bool) : Bool × System :=
  match s.slot with
  | some m => s.register m sink append
  | none => (false, (s.discard [sink]).say noInstance)

def setInstanceEnabled (s : System) (on : Bool) : System :=
  match s.slot with
  | some m => s.setEnabled m on
  | none => { s with processFlag := on }

/-- Sets the save level of the instance. Without one, only the flag follows the level. -/
def setInstanceSaveLevel (s : System) (l : Level) : System :=
  match s.slot with
  | some m => s.setSaveLevel m l
  | none => { s with processFlag := l.activates }

/-- Whether the instance takes a record at a level. With logging off or no instance, nobody even looks at the level. -/
def instanceAccepts (s : System) (l : Level) : Except Misuse (Option Nat) :=
  if s.processFlag then
    match s.slot with
    | some m => (s.accepts m l).map fun taken => if taken then some m else none
    | none => .ok none
  else .ok none

def writeInstance (s : System) (r : Record) : Except Misuse System :=
  if s.processFlag then
    match s.slot with
    | some m => s.write m r
    | none => .ok s
  else .ok s

def renameInstance (s : System) (name : String) : System :=
  match s.slot with
  | some m => s.rename m name
  | none => s

def flushInstance (s : System) : System :=
  match s.slot with
  | some m => s.flush m
  | none => s

end LogFanout.System

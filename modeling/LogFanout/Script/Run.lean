import LogFanout.Options.Load
import LogFanout.Script

/- Running scripts.

   `Op.run` and `Step.run` give the reply to a step and the system after it. A misuse aborts a step: its reply is the
   error, and whatever had happened before it stays.

   A formatted write looks twice. First it finds out whether it is taken; if it is not, its argument is not rendered and
   nothing in it happens. Then the argument is rendered, with the steps in it, and the record goes to the sinks that the
   manager has by then. The manager is held on to until the record has gone out.

   A step that makes or destroys the instance while a record for the instance itself is being rendered would wait for the
   very call it is part of, so no script has one. -/
namespace LogFanout

namespace System

/-- The sink that a source gives, or the reply to a step that cannot have it. -/
def obtain (source : Source) (s : System) : Except Reply Sink × System :=
  match source with
  | .built spec =>
    match s.world.build spec with
    | (.error e, world) => (.error (.failed (.disk e)), { s with world })
    | (.ok sink, world) =>
      let logs := match spec with
        | .memory name _ => s.logs.put name sink.id
        | _ => s.logs
      (.ok sink, { s with world, logs })
  | .held name =>
    match s.held.get? name with
    | none => (.error .unknownName, s)
    | some sink => (.ok sink, { s with held := s.held.erase name })

/-- Does something with the sink of a source, if there is one. -/
def withSink (s : System) (source : Source) (f : Sink → System → Reply × System) : Reply × System :=
  match s.obtain source with
  | (.error r, s) => (r, s)
  | (.ok sink, s) => f sink s

def withHandle (s : System) (name : String) (f : Nat → Reply × System) : Reply × System :=
  match s.handles.get? name with
  | none => (.unknownName, s)
  | some m => f m

/-- Does something with the buffer of the last memory sink that was built under a name. There is nothing to reply if
    there was none. -/
def withBuffer (s : System) (name : String) (f : Nat → List String → Reply × System) : Reply × System :=
  match s.logs.get? name with
  | none => (.nothing, s)
  | some sink => f sink (s.world.buffer sink)

def clearBuffer (s : System) (sink : Nat) : System := { s with world := s.world.clearBuffer sink }

def disk (s : System) : Disk := s.world.host.disk

def changeDisk (s : System) (changed : Except DiskError Disk) : Reply × System :=
  match changed with
  | .error e => (.failed (.disk e), s)
  | .ok disk => (.nothing, { s with world := { s.world with host := { s.world.host with disk } } })

def written (s : System) (outcome : Except Misuse System) : Reply × System :=
  match outcome with
  | .error m => (.failed (.misuse m), s)
  | .ok s => (.nothing, s)

/-- The manager that takes a record at a level, if one does. -/
def taker (s : System) (whom : Address) (l : Level) : Except Reply (Option Nat) :=
  match whom with
  | .handle name =>
    match s.handles.get? name with
    | none => .error .unknownName
    | some m =>
      match s.accepts m l with
      | .error e => .error (.failed (.misuse e))
      | .ok taken => .ok (if taken then some m else none)
  | .process =>
    match s.instanceAccepts l with
    | .error e => .error (.failed (.misuse e))
    | .ok m => .ok m

def managerStatus (s : System) (m : Nat) : Reply :=
  match s.managers[m]? with
  | none => .unknownName
  | some manager => .managerStatus (manager.enabled s.processFlag) manager.count manager.retired

def sinkStatus (s : System) (name : String) : Reply :=
  match s.held.get? name with
  | none => .nothing
  | some sink =>
    match sink.body with
    | .probe => .nothing
    | .memory m => .memoryStatus m.target m.saveLevel
    | .file f => .fileStatus f.target f.saveLevel f.handle.isSome

end System

/-- The reply to an operation, and the system after it. -/
def Op.run (o : Op) (s : System) : Reply × System :=
  match o with
  | .make handle source =>
    s.withSink source fun sink s =>
      let (m, s) := s.newManager [sink]
      (.nothing, s.keepHandle handle m)
  | .makeEmpty handle =>
    let (m, s) := s.newManager []
    (.nothing, s.keepHandle handle m)
  | .dropHandle handle =>
    let (was, s) := s.dropHandle handle
    (.truth was, s)
  | .same one other => s.withHandle one fun m => s.withHandle other fun n => (.truth (m == n), s)
  | .create source handle =>
    match s.create (System.obtain source) with
    | (.error r, s) => (r, s)
    | (.ok m, s) =>
      match handle with
      | none => (.nothing, s)
      | some name => (.nothing, s.keepHandle name m)
  | .destroy => (.nothing, s.destroy)
  | .takeInstance handle =>
    match s.slot with
    | none => (.truth false, s)
    | some m => (.truth true, s.keepHandle handle m)
  | .register (.handle name) source append =>
    s.withHandle name fun m => s.withSink source fun sink s =>
      let (taken, s) := s.register m sink append
      (.truth taken, s)
  | .register .process source append =>
    s.withSink source fun sink s =>
      let (taken, s) := s.registerInstance sink append
      (.truth taken, s)
  | .setEnabled (.handle name) on => s.withHandle name fun m => (.nothing, s.setEnabled m on)
  | .setEnabled .process on => (.nothing, s.setInstanceEnabled on)
  | .setSaveLevel (.handle name) l => s.withHandle name fun m => (.nothing, s.setSaveLevel m l)
  | .setSaveLevel .process l => (.nothing, s.setInstanceSaveLevel l)
  | .status (.handle name) => s.withHandle name fun m => (s.managerStatus m, s)
  | .status .process => (.processStatus s.processFlag s.slot.isSome, s)
  | .write (.handle name) r => s.withHandle name fun m => s.written (s.write m r)
  | .write .process r => s.written (s.writeInstance r)
  | .rename (.handle name) target => s.withHandle name fun m => (.nothing, s.rename m target)
  | .rename .process target => (.nothing, s.renameInstance target)
  | .flush (.handle name) => s.withHandle name fun m => (.nothing, s.flush m)
  | .flush .process => (.nothing, s.flushInstance)
  | .drainText logs => s.withBuffer logs fun sink lines => (.text (joined lines), s.clearBuffer sink)
  | .drainLines logs => s.withBuffer logs fun sink lines => (.lines lines, s.clearBuffer sink)
  | .bufferSize logs => s.withBuffer logs fun _ lines => (.bufferSize lines.length, s)
  | .drainToConsole logs =>
    s.withBuffer logs fun sink lines =>
      (.nothing, (lines.foldl (fun s line => s.say (line ++ "\n")) s).clearBuffer sink)
  | .hold name source => s.withSink source fun sink s => (.nothing, s.holdSink name sink)
  | .callSink name c =>
    match s.callSink name c with
    | none => (.unknownName, s)
    | some s => (.nothing, s)
  | .sinkStatus name => (s.sinkStatus name, s)
  | .dropSink name =>
    let (was, s) := s.dropSink name
    (.truth was, s)
  | .put path bytes => s.changeDisk (s.disk.put path bytes)
  | .makeFolder path => s.changeDisk (s.disk.makeFolder path)
  | .remove path => s.changeDisk (s.disk.remove path)
  | .read path =>
    match s.disk.readText path with
    | .error e => (.failed (.disk e), s)
    | .ok text => (.text text, s)
  | .list => (.lines s.disk.homeNames, s)
  | .loadOptions path =>
    match Options.load s.disk path with
    | .error e => (.failed e, s)
    | .ok o => (.options o, s)
  | .wait stamp => (.nothing, s.wait stamp)

mutual

/-- The reply to a step, and the system after it. -/
def Step.run : Step → System → Reply × System
  | .op o, s => o.run s
  | .format whom l node argument, s =>
    match s.taker whom l with
    | .error r => (r, s)
    | .ok none => (.rendered 0, s)
    | .ok (some m) =>
      match argument.render { s with running := m :: s.running } with
      | (none, after) => (.failed (.misuse .unrenderable), { after with running := s.running }.release m)
      | (some text, after) =>
        (.rendered 1, ({ after with running := s.running }.dispatch m ⟨l, node, text⟩).release m)

/-- The text of an argument, unless it cannot be rendered, and the system after the steps in it. -/
def Argument.render : Argument → System → Option String × System
  | .done, s => (some "", s)
  | .piece p rest, s =>
    match p.render with
    | none => (none, s)
    | some text =>
      match rest.render s with
      | (none, s) => (none, s)
      | (some more, s) => (some (text ++ more), s)
  | .take step rest, s =>
    match step.run s with
    | (reply, s) => rest.render { s with world := s.world.record (.nested reply) }

end

/-- The replies to the steps of a script, one after the other, and the system after the last. -/
def runAll : List Step → System → List Reply × System
  | [], s => ([], s)
  | step :: rest, s =>
    let (reply, s) := step.run s
    let (replies, s) := runAll rest s
    (reply :: replies, s)

end LogFanout

import LogFanout.Disk
import LogFanout.Options
import LogFanout.Sink.Call
import LogFanout.Text.Quoted

/- File sinks.

   A file sink writes every record that it keeps as one line to the file at its target, if it has that file open, and
   shows the line on the console if it is asked to. It never fails: a target that cannot be opened is reported on the
   console, and the sink goes on without a file; a line that the disk refuses is lost.

   The options say whether the first file is extended or emptied. Every later target is extended. A target that is set
   again while its file is open changes nothing; without a file the target is tried again.

   Correspondence:
     `open_target`                          ↔ `openTarget`
     `report`, with the text of its callers ↔ `report`, shown by `Host.show`
     `DefaultSink::new`                     ↔ `make`
     `DefaultSink::open`                    ↔ `make?`
     `DefaultSink::with_file`               ↔ `withHandle`
     `DefaultSink::write`                   ↔ `write`
     `DefaultSink::set_target`              ↔ `retarget`
     `set_save_level`, `flush`              ↔ the other cases of `receive` -/
namespace LogFanout

/-- What a file sink acts on: the disk, and the console with the texts shown there so far. -/
structure Host where
  disk : Disk
  console : List String
  deriving DecidableEq, Repr

def Host.fresh : Host := ⟨.fresh, []⟩

def Host.show (h : Host) (text : String) : Host := { h with console := h.console ++ [text] }

/-- A file sink. It has a handle as long as the file at its target is open. -/
structure FileSink where
  target : String
  console : Bool
  saveLevel : Level
  handle : Option Disk.Handle
  deriving DecidableEq, Repr

namespace FileSink

/-- Opens a target. The empty target stands for no file. -/
def openTarget (d : Disk) (target : String) (append : Bool) : Except DiskError (Option Disk.Handle × Disk) :=
  if target = "" then .ok (none, d)
  else (d.openFile target append).map fun (handle, d) => (some handle, d)

def report (target : String) (e : DiskError) : String :=
  "sinkwise: can't open log target " ++ Text.quoted target ++ ": " ++ e.message ++ "\n"

/-- The sink with a file that has been opened, or without one. -/
def withHandle (o : Options) (handle : Option Disk.Handle) : FileSink := ⟨o.target, o.console, o.saveLevel, handle⟩

/-- A sink that goes on without a file if its target cannot be opened. -/
def make (o : Options) (h : Host) : FileSink × Host :=
  match openTarget h.disk o.target o.append with
  | .ok (handle, d) => (withHandle o handle, { h with disk := d })
  | .error e => (withHandle o none, h.show (report o.target e))

/-- A sink, unless its target cannot be opened. -/
def make? (o : Options) (h : Host) : Except DiskError (FileSink × Host) :=
  match openTarget h.disk o.target o.append with
  | .ok (handle, d) => .ok (withHandle o handle, { h with disk := d })
  | .error e => .error e

def writeBytes (f : FileSink) (bytes : Text.Bytes) (d : Disk) : FileSink × Disk :=
  match f.handle with
  | none => (f, d)
  | some handle =>
    let (handle, d) := d.write handle bytes
    ({ f with handle := some handle }, d)

/-- Writes a record that the save level keeps. -/
def write (stamp : String) (r : Record) (f : FileSink) (h : Host) : FileSink × Host :=
  if f.saveLevel.keeps r.level then
    let line := r.line stamp
    let (f, d) := f.writeBytes (Text.utf8 line) h.disk
    let h := { h with disk := d }
    (f, if f.console then h.show line else h)
  else (f, h)

/-- Leaves the file and extends the one at another target. -/
def retarget (name : String) (f : FileSink) (h : Host) : FileSink × Host :=
  if name = f.target ∧ f.handle.isSome then (f, h)
  else
    match openTarget h.disk name true with
    | .ok (handle, d) => ({ f with target := name, handle }, { h with disk := d })
    | .error e => ({ f with target := name, handle := none }, h.show (report name e))

/-- What a call does to a file sink. Nothing is ever pending, so a flush does nothing. -/
def receive (stamp : String) (c : Call) (f : FileSink) (h : Host) : FileSink × Host :=
  match c with
  | .write r => f.write stamp r h
  | .saveLevel l => ({ f with saveLevel := l }, h)
  | .target name => f.retarget name h
  | .flush => (f, h)

end FileSink
end LogFanout

import LogFanout.Error
import LogFanout.Options.Reader

/- Options in a file.

   Two things may fail, one after the other: the file cannot be read as a text, or the text is no options.

   Correspondence:
     `LogOptions::load` ↔ `Options.load` -/
namespace LogFanout.Options

def load (d : Disk) (path : String) : Except Error Options :=
  match d.readText path with
  | .error e => .error (.disk e)
  | .ok text => (ofJson text.toList).mapError .options

end LogFanout.Options

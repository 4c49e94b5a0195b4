import LogFanout.Disk.Path
import LogFanout.Text.Utf8

/- A disk: folders, files, and two devices.

   The things on a disk are numbered in the order in which they came to be, and a number is never used again: a file that
   has been removed from its folder lives on for those who have it open. A folder knows the folder it is in and has
   entries with names. Of the devices, `null` swallows what is written to it and `full` refuses it.

   A handle is what a writer has in its hand. It writes at the end of the file, wherever that is by then, or at an offset
   of its own that moves with what it writes; only the second kind can write over what others wrote. -/
namespace LogFanout

open Text (Bytes)

/-- Why the disk refuses. -/
inductive DiskError where
  | notFound
  | notFolder
  | isFolder
  | nameTooLong
  | nulInName
  | alreadyThere
  | noSpace
  | endless
  | notText
  deriving DecidableEq, Repr

namespace DiskError

/-- A refusal of the operating system, with its number. -/
def numbered (text : String) (n : Nat) : String := text ++ " (os error " ++ toString n ++ ")"

def message : DiskError → String
  | .notFound => numbered "No such file or directory" 2
  | .notFolder => numbered "Not a directory" 20
  | .isFolder => numbered "Is a directory" 21
  | .nameTooLong => numbered "File name too long" 36
  | .nulInName => "file name contained an unexpected NUL byte"
  | .alreadyThere => numbered "File exists" 17
  | .noSpace => numbered "No space left on device" 28
  | .endless => numbered "Cannot allocate memory" 12
  | .notText => "stream did not contain valid UTF-8"

end DiskError

namespace Disk

/-- A thing on a disk. -/
inductive Item where
  | file (bytes : Bytes)
  | folder (parent : Nat) (entries : List (String × Nat))
  | null
  | full
  deriving DecidableEq, Repr

/-- Where a handle writes. -/
inductive Mode where
  | atEnd
  | at (offset : Nat)
  deriving DecidableEq, Repr

/-- A handle: the thing that is open, and where the next bytes go. -/
structure Handle where
  item : Nat
  mode : Mode
  deriving DecidableEq, Repr

end Disk

/-- A disk, with the number of its root and of the folder that relative paths start in. -/
structure Disk where
  items : List Disk.Item
  root : Nat
  home : Nat
  deriving DecidableEq, Repr

namespace Disk

/-- A disk with an empty home, a folder of devices, and nothing else. -/
def fresh : Disk :=
  { items := [.folder 0 [("dev", 1), ("home", 2)], .folder 0 [("null", 3), ("full", 4)], .folder 0 [], .null, .full]
    root := 0
    home := 2 }

def contents? (d : Disk) (n : Nat) : Option Bytes :=
  match d.items[n]? with
  | some (.file bytes) => some bytes
  | _ => none

def set (d : Disk) (n : Nat) (item : Item) : Disk := { d with items := d.items.set n item }

/-! ## Finding things -/

/-- The number under a name in a list of entries. -/
def entry? (name : String) : List (String × Nat) → Option Nat
  | [] => none
  | (n, i) :: rest => if n = name then some i else entry? name rest

/-- What a name stands for in a folder. -/
def child (d : Disk) (folder : Nat) (name : String) : Except DiskError Nat :=
  match d.items[folder]? with
  | some (.folder parent entries) =>
    if name = "." then .ok folder
    else if name = ".." then .ok parent
    else if longestName < name.utf8ByteSize then .error .nameTooLong
    else
      match entry? name entries with
      | some n => .ok n
      | none => .error .notFound
  | some _ => .error .notFolder
  | none => .error .notFound

/-- The folder that names lead to, one after the other. -/
def walk (d : Disk) (folder : Nat) : List String → Except DiskError Nat
  | [] =>
    match d.items[folder]? with
    | some (.folder _ _) => .ok folder
    | some _ => .error .notFolder
    | none => .error .notFound
  | name :: rest =>
    match d.child folder name with
    | .ok n => d.walk n rest
    | .error e => .error e

/-- The folder that the last name of a path is looked up in, and the path taken apart. -/
def locate (d : Disk) (path : String) : Except DiskError (Nat × Path) :=
  if path.toList.contains '\x00' then .error .nulInName
  else if path = "" then .error .notFound
  else if pathBound ≤ path.utf8ByteSize then .error .nameTooLong
  else
    let p := Path.ofString path
    (d.walk (if p.absolute then d.root else d.home) p.folders).map fun folder => (folder, p)

/-- What a path leads to. A slash behind the last name asks for a folder. -/
def find (d : Disk) (path : String) : Except DiskError Item :=
  match d.locate path with
  | .error e => .error e
  | .ok (folder, p) =>
    let place := match p.last with
      | none => Except.ok folder
      | some name => d.child folder name
    match place with
    | .error e => .error e
    | .ok n =>
      match d.items[n]? with
      | none => .error .notFound
      | some (.folder parent entries) => .ok (.folder parent entries)
      | some item => if p.slash then .error .notFolder else .ok item

/-! ## Changing things -/

/-- A new thing under a name in a folder that has no such name: its number, and the disk. -/
def create (d : Disk) (folder : Nat) (name : String) (item : Item) : Nat × Disk :=
  let n := d.items.length
  match d.items[folder]? with
  | some (.folder parent entries) =>
    (n, { d with items := d.items.set folder (.folder parent (entries ++ [(name, n)])) ++ [item] })
  | _ => (n, { d with items := d.items ++ [item] })

/-- Opens the file at a path for writing, and makes it if it is missing. Its content stays if `append` is set, and goes
    otherwise. -/
def openFile (d : Disk) (path : String) (append : Bool) : Except DiskError (Handle × Disk) :=
  let mode : Mode := if append then .atEnd else .at 0
  match d.locate path with
  | .error e => .error e
  | .ok (folder, p) =>
    match p.last with
    | none => .error .isFolder
    | some name =>
      if isDots name || p.slash then .error .isFolder
      else
        match d.child folder name with
        | .error .notFound =>
          let (n, d) := d.create folder name (.file [])
          .ok (⟨n, mode⟩, d)
        | .error e => .error e
        | .ok n =>
          match d.items[n]? with
          | some (.file _) => .ok (⟨n, mode⟩, if append then d else d.set n (.file []))
          | some (.folder _ _) => .error .isFolder
          | some _ => .ok (⟨n, mode⟩, d)
          | none => .error .notFound

/-- Bytes with others written over them from an offset on; a gap before the offset is filled with zeros. -/
def overwrite (old new : Bytes) (offset : Nat) : Bytes :=
  old.take offset ++ List.replicate (offset - old.length) 0 ++ new ++ old.drop (offset + new.length)

/-- Writes through a handle. A device is not changed. -/
def write (d : Disk) (h : Handle) (bytes : Bytes) : Handle × Disk :=
  match d.items[h.item]? with
  | some (.file old) =>
    match h.mode with
    | .atEnd => (h, d.set h.item (.file (old ++ bytes)))
    | .at offset => (⟨h.item, .at (offset + bytes.length)⟩, d.set h.item (.file (overwrite old bytes offset)))
  | _ => (h, d)

def read (d : Disk) (path : String) : Except DiskError Bytes :=
  match d.find path with
  | .error e => .error e
  | .ok (.file bytes) => .ok bytes
  | .ok (.folder _ _) => .error .isFolder
  | .ok .null => .ok []
  | .ok .full => .error .endless

def readText (d : Disk) (path : String) : Except DiskError String :=
  match d.read path with
  | .error e => .error e
  | .ok bytes =>
    match Text.ofUtf8? bytes with
    | some s => .ok s
    | none => .error .notText

/-- Puts bytes into the file at a path, in place of what it held. -/
def put (d : Disk) (path : String) (bytes : Bytes) : Except DiskError Disk :=
  match d.openFile path false with
  | .error e => .error e
  | .ok (h, d) =>
    match d.items[h.item]? with
    | some .full => if bytes.isEmpty then .ok d else .error .noSpace
    | _ => .ok (d.write h bytes).2

def makeFolder (d : Disk) (path : String) : Except DiskError Disk :=
  match d.locate path with
  | .error e => .error e
  | .ok (folder, p) =>
    match p.last with
    | none => .error .alreadyThere
    | some name =>
      match d.child folder name with
      | .ok _ => .error .alreadyThere
      | .error .notFound => .ok (d.create folder name (.folder folder [])).2
      | .error e => .error e

/-- Takes a file out of its folder. Those who have it open keep it. -/
def remove (d : Disk) (path : String) : Except DiskError Disk :=
  match d.locate path with
  | .error e => .error e
  | .ok (folder, p) =>
    match p.last with
    | none => .error .isFolder
    | some name =>
      if isDots name then .error .isFolder
      else
        match d.child folder name with
        | .error e => .error e
        | .ok n =>
          match d.items[n]?, d.items[folder]? with
          | some (.folder _ _), _ => .error .isFolder
          | some _, some (.folder parent entries) =>
            if p.slash then .error .notFolder
            else .ok (d.set folder (.folder parent (entries.filter fun e => decide (e.1 ≠ name))))
          | _, _ => .error .notFound

/-- The names in the folder that relative paths start in, in order. -/
def homeNames (d : Disk) : List String :=
  match d.items[d.home]? with
  | some (.folder _ entries) => (entries.map Prod.fst).mergeSort fun a b => decide (a ≤ b)
  | _ => []

end Disk
end LogFanout

/- Paths.

   A path is a text with names between slashes. Several slashes in a row count as one; a path that starts with a slash
   starts at the root; a slash behind the last name asks for a folder. -/
namespace LogFanout.Disk

/-- A path taken apart: the folders to walk through, and the last name, if there is any. -/
structure Path where
  absolute : Bool
  folders : List String
  last : Option String
  slash : Bool
  deriving DecidableEq, Repr

/-- The pieces of a text between slashes. -/
def pieces : List Char → List (List Char)
  | [] => [[]]
  | c :: rest =>
    if c = '/' then [] :: pieces rest
    else
      match pieces rest with
      | [] => [[c]]
      | p :: more => (c :: p) :: more

/-- The names in a text: its pieces that are not empty. -/
def pathNames (s : List Char) : List String := ((pieces s).filter fun p => !p.isEmpty).map String.ofList

/-- A text as a path. -/
def Path.ofString (s : String) : Path :=
  let names := pathNames s.toList
  { absolute := s.toList.head? == some '/'
    folders := names.dropLast
    last := names.getLast?
    slash := s.toList.getLast? == some '/' }

/-- Names of folders that stand in every folder: itself, and the one it is in. -/
def isDots (name : String) : Bool := name == "." || name == ".."

/-- Greatest number of bytes of a name. -/
def longestName : Nat := 255

/-- Least number of bytes of a path that is too long. -/
def pathBound : Nat := 4096

end LogFanout.Disk

/- Blanks and letter case in names that people type.

   A name is read without the blanks around it and without regard to the case of its ASCII letters. This file
   holds the two rules as functions on lists of characters: `trim` takes the blanks off both ends, and `sameLetters`
   compares two texts up to ASCII case. Letters beyond ASCII are compared as they stand, so a look-alike never
   passes for a letter. -/
namespace LogFanout.Text

/-- A character of the Unicode property White_Space. -/
def isBlank (c : Char) : Bool :=
  let n := c.toNat
  (0x09 ≤ n && n ≤ 0x0D) || n == 0x20 || n == 0x85 || n == 0xA0 || n == 0x1680 || (0x2000 ≤ n && n ≤ 0x200A) ||
    n == 0x2028 || n == 0x2029 || n == 0x202F || n == 0x205F || n == 0x3000

def trimEnd : List Char → List Char
  | [] => []
  | c :: rest =>
    match trimEnd rest with
    | [] => if isBlank c then [] else [c]
    | kept => c :: kept

/-- A text without the blanks at its two ends. -/
def trim (s : List Char) : List Char := trimEnd (s.dropWhile isBlank)

def sameLetters (a b : List Char) : Bool := a.map Char.toLower == b.map Char.toLower

end LogFanout.Text

import TripleTable.Text.Basic
set_option autoImplicit false

/-!
The characters of a YAML text with their places. Line breaks are made alike, and a zero character
stands behind the last one, which no text may hold.
-/
namespace TripleTable.Yaml

structure Mark where
  octets : Nat := 0
  line : Nat := 0
  column : Nat := 0
deriving DecidableEq, Repr

def Mark.next (m : Mark) (c : Char) : Mark := ⟨m.octets + c.utf8Size, m.line, m.column + 1⟩

def Mark.nextLine (m : Mark) (size : Nat) : Mark := ⟨m.octets + size, m.line + 1, 0⟩

structure Cell where
  mark : Mark
  char : Char
deriving DecidableEq, Repr

abbrev Cells := List Cell

def endChar : Char := '\x00'

def isAllowed (c : Char) : Bool :=
  c == '\t' || c == '\n' || c == '\r' || (' ' ≤ c && c ≤ '~') || c == '\u0085' ||
    ('\u00a0' ≤ c && c != '\ufffe' && c != '\uffff')

def isNewline (c : Char) : Bool := c == '\n' || c == '\r' || c == '\u0085'

def isBreak (c : Char) : Bool := c == '\n' || c == '\u2028' || c == '\u2029'

def isGap (c : Char) : Bool := c == ' ' || c == '\t'

def endsLine (c : Char) : Bool := isBreak c || c == endChar

def endsWord (c : Char) : Bool := isGap c || endsLine c

def cellsFrom : Mark → Text → Cells
  | mark, [] => [⟨mark, endChar⟩]
  | mark, '\r' :: '\n' :: s => ⟨mark, '\n'⟩ :: cellsFrom (mark.nextLine 2) s
  | mark, c :: s =>
    if isNewline c then ⟨mark, '\n'⟩ :: cellsFrom (mark.nextLine c.utf8Size) s
    else if isBreak c then ⟨mark, c⟩ :: cellsFrom (mark.nextLine c.utf8Size) s
    else ⟨mark, c⟩ :: cellsFrom (mark.next c) s

def cells? (s : Text) : Option Cells :=
  if s.all isAllowed then some (cellsFrom {} s) else none

def markOf : Cells → Mark
  | [] => {}
  | c :: _ => c.mark

def columnOf (s : Cells) : Nat := (markOf s).column

def headChar : Cells → Char
  | [] => endChar
  | c :: _ => c.char

def charAt (s : Cells) (n : Nat) : Char := headChar (s.drop n)

def skipGaps (s : Cells) : Cells := s.dropWhile fun c => isGap c.char

def untilLineEnd (s : Cells) : Cells := s.dropWhile fun c => !endsLine c.char

def nextLine? (s : Cells) : Option Cells :=
  let rest := skipGaps s
  let rest := if headChar rest = '#' then untilLineEnd rest else rest
  if isBreak (headChar rest) then some (rest.drop 1)
  else if headChar rest = endChar then some rest
  else none

def isMark (c : Char) (s : Cells) : Bool :=
  columnOf s == 0 && (s.take 3).map Cell.char == [c, c, c] && endsWord (charAt s 3)

def isDocumentMark (s : Cells) : Bool := isMark '-' s || isMark '.' s

end TripleTable.Yaml

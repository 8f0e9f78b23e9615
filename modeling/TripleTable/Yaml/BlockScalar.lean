import TripleTable.Yaml.Scalar
set_option autoImplicit false

/-!
Scalars of whole lines behind a bar or an angle bracket: literal ones keep their line breaks, folded
ones join their lines.
-/
namespace TripleTable.Yaml

inductive Chomping where
  | clip
  | strip
  | keep
deriving DecidableEq, Repr

-- An indent of zero is found from the lines.
structure BlockHeader where
  chomping : Chomping := .clip
  indent : Nat := 0

def chomping? : Char → Option Chomping
  | '+' => some .keep
  | '-' => some .strip
  | _ => none

def indentDigit? (c : Char) : Option Nat :=
  if '1' ≤ c ∧ c ≤ '9' then some (c.toNat - '0'.toNat) else none

def blockHeader (s : Cells) : BlockHeader × Cells :=
  match chomping? (headChar s), indentDigit? (headChar s) with
  | some chomping, _ =>
    match indentDigit? (charAt s 1) with
    | some indent => ({ chomping, indent }, s.drop 2)
    | none => ({ chomping }, s.drop 1)
  | none, some indent =>
    match chomping? (charAt s 1) with
    | some chomping => ({ chomping, indent }, s.drop 2)
    | none => ({ indent }, s.drop 1)
  | none, none => ({}, s)

-- The deepest column is reached by spaces alone, on the way to a line with text.
structure Margin where
  breaks : Text := []
  deepest : Nat := 0
  rest : Cells

-- No tab may stand in the indentation.
def marginUpTo (indent : Nat) : Nat → Nat → Cells → Option Margin
  | 0, _, _ => none
  | n + 1, deepest, s => do
    let rest := s.dropWhile fun c => c.char == ' ' && (indent == 0 || c.mark.column < indent)
    let column := columnOf rest
    let deepest := max deepest column
    if (indent = 0 ∨ column < indent) ∧ headChar rest = '\t' then none
    if isBreak (headChar rest) then
      let margin ← marginUpTo indent n deepest (rest.drop 1)
      return { margin with breaks := headChar rest :: margin.breaks }
    return { deepest, rest }

def margin (indent : Nat) (s : Cells) : Option Margin := marginUpTo indent (s.length + 1) 0 s

structure BlockLines where
  text : Text := []
  ending : Text
  behind : Margin

-- A break is folded unless it stands next to a line that begins with a blank.
def joint (literal blankBefore blankAfter : Bool) (ending breaks : Text) : Text :=
  if !literal && !blankBefore && !blankAfter && ending == ['\n'] then
    if breaks.isEmpty then [' '] else breaks
  else ending ++ breaks

def blockLines (literal : Bool) (indent : Nat) :
    Nat → Bool → Text → Margin → Option BlockLines
  | 0, _, _, _ => none
  | n + 1, blankBefore, ending, before => do
    let s := before.rest
    if columnOf s ≠ indent ∨ headChar s = endChar then return { ending, behind := before }
    let blank := isGap (headChar s)
    let line : Text := (s.takeWhile fun c => !endsLine c.char).map Cell.char
    let rest := untilLineEnd s
    let broken := isBreak (headChar rest)
    let following ← margin indent (if broken then rest.drop 1 else rest)
    let lines ← blockLines literal indent n blank (if broken then [headChar rest] else []) following
    return { lines with
      text := joint literal blankBefore blank ending before.breaks ++ line ++ lines.text }

def blockScalar (literal : Bool) (column : Nat) (s : Cells) : Option (Text × Cells) := do
  let (header, rest) := blockHeader s
  let body ← nextLine? rest
  let first ← margin (if header.indent = 0 then 0 else column - 1 + header.indent) body
  let indent :=
    if header.indent = 0 then max first.deepest (max column 1) else column - 1 + header.indent
  let lines ← blockLines literal indent (body.length + 1) false [] first
  let ending := if header.chomping = .strip then [] else lines.ending
  let blankLines := if header.chomping = .keep then lines.behind.breaks else []
  return (lines.text ++ ending ++ blankLines, lines.behind.rest)

end TripleTable.Yaml

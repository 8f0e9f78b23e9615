import TripleTable.Yaml.BlockScalar
import TripleTable.Yaml.Tag
set_option autoImplicit false

/-!
The tokens of a YAML text. Outside brackets columns tell where collections begin and end, and what
was read as a value turns into a key once a colon follows on its line.
-/
namespace TripleTable.Yaml

inductive Style where
  | plain
  | quoted
  | literal
  | folded
deriving DecidableEq, Repr

inductive Token where
  | version (major minor : Nat)
  | handle (name : Text) (lead : Tag)
  | documentStart
  | documentEnd
  | blockSequence
  | blockMapping
  | blockEnd
  | openBracket
  | closeBracket
  | openBrace
  | closeBrace
  | item
  | comma
  | key
  | value
  | reference (name : Text)
  | anchor (name : Text)
  | tag (tag : WrittenTag)
  | scalar (style : Style) (text : Text)
deriving DecidableEq, Repr

-- A place where a key may have begun: its mark, the number of tokens before it, and whether
-- nothing but a key may stand there.
structure PossibleKey where
  mark : Mark
  position : Nat
  required : Bool
deriving DecidableEq, Repr

def maxKeyLength : Nat := 1024

def PossibleKey.isPast (k : PossibleKey) (mark : Mark) : Bool :=
  k.mark.line < mark.line || k.mark.octets + maxKeyLength < mark.octets

-- The state of reading: what is left of the text; how far the innermost block collection is
-- indented, counted from one, and the outer ones; whether a key may begin here; the possible key
-- inside the innermost brackets and those around them; and the tokens found, latest first.
structure Layout where
  rest : Cells
  indent : Nat := 0
  outer : List Nat := []
  keyAllowed : Bool := true
  candidate : Option PossibleKey := none
  around : List (Option PossibleKey) := []
  found : List Token := []

namespace Layout

def inFlow (l : Layout) : Bool := !l.around.isEmpty

def column (l : Layout) : Nat := columnOf l.rest

def push (l : Layout) (token : Token) : Layout := { l with found := token :: l.found }

def insert (l : Layout) (position : Nat) (token : Token) : Layout :=
  let later := l.found.length - position
  { l with found := l.found.take later ++ token :: l.found.drop later }

def advance (l : Layout) (n : Nat) : Layout := { l with rest := l.rest.drop n }

def take (l : Layout) (n : Nat) (token : Token) : Layout := (l.advance n).push token

def closeBlocks (indent : Nat) (l : Layout) : Layout :=
  if l.inFlow then l else close l.outer l
where
  close : List Nat → Layout → Layout
    | [], l => l
    | next :: outer, l =>
      if indent < l.indent then close outer { l.push .blockEnd with indent := next, outer }
      else l

-- Begins a block collection in the column, unless one stands there already; the token goes to
-- the position.
def openBlock (l : Layout) (column position : Nat) (token : Token) : Layout :=
  if !l.inFlow ∧ l.indent ≤ column then
    { l.insert position token with indent := column + 1, outer := l.indent :: l.outer }
  else l

def openBlockHere (l : Layout) (token : Token) : Layout :=
  l.openBlock l.column l.found.length token

def dropKey (l : Layout) : Option Layout :=
  if l.candidate.any PossibleKey.required then none else some { l with candidate := none }

def saveKey (l : Layout) : Option Layout := do
  if l.keyAllowed then
    let l ← l.dropKey
    return { l with
      candidate := some ⟨markOf l.rest, l.found.length, !l.inFlow && l.indent == l.column + 1⟩ }
  else return l

def expireKeys (l : Layout) : Option Layout :=
  let past (k : PossibleKey) : Bool := k.isPast (markOf l.rest)
  let current (k : Option PossibleKey) : Option PossibleKey := k.filter fun k => !past k
  if (l.candidate :: l.around).any fun k => k.any fun k => past k && k.required then none
  else some { l with candidate := current l.candidate, around := l.around.map current }

end Layout

-- Passes over blanks, line breaks and comments; the first result says whether a key may begin
-- behind them. Where one may begin outside brackets no tab is passed over.
def skipBlanks (flow : Bool) : Bool → Bool → Cells → Bool × Cells
  | _, allowed, [] => (allowed, [])
  | comment, allowed, c :: rest =>
    if isBreak c.char then skipBlanks flow false (allowed || !flow) rest
    else if c.char = endChar then (allowed, c :: rest)
    else if comment then skipBlanks flow true allowed rest
    else if c.char = '\ufeff' ∧ c.mark.column = 0 then skipBlanks flow false allowed rest
    else if c.char = ' ' ∨ (c.char = '\t' ∧ (flow || !allowed)) then
      skipBlanks flow false allowed rest
    else if c.char = '#' then skipBlanks flow true allowed rest
    else (allowed, c :: rest)

def versionNumber (s : Cells) : Option (Nat × Cells) :=
  let digits : Text := (s.takeWhile fun c => c.char.isDigit).map Cell.char
  if digits.length ≤ 9 then (digits? 10 digits).map fun n => (n, s.drop digits.length) else none

def versionDirective (s : Cells) : Option (Token × Cells) := do
  let (major, rest) ← versionNumber s
  if headChar rest ≠ '.' then none
  let (minor, rest) ← versionNumber (rest.drop 1)
  return (.version major minor, rest)

def handleDirective (s : Cells) : Option (Token × Cells) := do
  let (name, rest) ← tagHandle s
  if name ≠ ['!'] ∧ !isNamedHandle name then none
  if !isGap (headChar rest) then none
  let (lead, rest) ← someTagOctets true (skipGaps rest)
  if !endsWord (headChar rest) then none
  return (.handle name lead, rest)

def directive (s : Cells) : Option (Token × Cells) := do
  let (name, rest) := nameText s
  if !endsWord (headChar rest) then none
  let (token, rest) ←
    if name = ("YAML" : Text) then versionDirective (skipGaps rest)
    else if name = ("TAG" : Text) then handleDirective (skipGaps rest)
    else none
  return (token, ← nextLine? rest)

namespace Layout

def leaveDocument (l : Layout) : Option Layout := do
  let l ← (l.closeBlocks 0).dropKey
  return { l with keyAllowed := false }

def readDirective (l : Layout) : Option Layout := do
  let l ← l.leaveDocument
  let (token, rest) ← directive (l.rest.drop 1)
  return { l with rest }.push token

def readMark (l : Layout) (token : Token) : Option Layout :=
  return (← l.leaveDocument).take 3 token

def readOpening (l : Layout) (token : Token) : Option Layout := do
  let l ← l.saveKey
  return { l with
    candidate := none
    around := l.candidate :: l.around
    keyAllowed := true }.take 1 token

def readClosing (l : Layout) (token : Token) : Option Layout := do
  let l ← l.dropKey
  let l := { l with keyAllowed := false }.take 1 token
  match l.around with
  | [] => return l
  | candidate :: around => return { l with candidate, around }

def readComma (l : Layout) : Option Layout := do
  return { ← l.dropKey with keyAllowed := true }.take 1 .comma

def readItem (l : Layout) : Option Layout := do
  if !l.inFlow ∧ !l.keyAllowed then none
  let l ← (l.openBlockHere .blockSequence).dropKey
  return { l with keyAllowed := true }.take 1 .item

def readKey (l : Layout) : Option Layout := do
  if !l.inFlow ∧ !l.keyAllowed then none
  let l ← (l.openBlockHere .blockMapping).dropKey
  return { l with keyAllowed := !l.inFlow }.take 1 .key

def readValue (l : Layout) : Option Layout := do
  match l.candidate with
  | some k =>
    let l := (l.insert k.position .key).openBlock k.mark.column k.position .blockMapping
    return { l with candidate := none, keyAllowed := false }.take 1 .value
  | none =>
    if !l.inFlow ∧ !l.keyAllowed then none
    let l := l.openBlockHere .blockMapping
    return { l with keyAllowed := !l.inFlow }.take 1 .value

def readPart (l : Layout) (skipped : Nat) (read : Cells → Option (Token × Cells)) :
    Option Layout := do
  let l ← l.saveKey
  let (token, rest) ← read (l.rest.drop skipped)
  return { l with rest, keyAllowed := false }.push token

def readBlockScalar (l : Layout) (literal : Bool) : Option Layout := do
  let l ← l.dropKey
  let (text, rest) ← blockScalar literal l.indent (l.rest.drop 1)
  return { l with rest, keyAllowed := true }.push
    (.scalar (if literal then .literal else .folded) text)

def readPlain (l : Layout) : Option Layout := do
  let l ← l.saveKey
  let found ← plain l.inFlow l.indent l.rest
  return { l with rest := found.rest, keyAllowed := found.broken }.push (.scalar .plain found.text)

def readToken (l : Layout) : Option Layout :=
  let c := headChar l.rest
  let alone := endsWord (charAt l.rest 1)
  if l.column = 0 ∧ c = '%' then l.readDirective
  else if isMark '-' l.rest then l.readMark .documentStart
  else if isMark '.' l.rest then l.readMark .documentEnd
  else if c = '[' then l.readOpening .openBracket
  else if c = '\x7b' then l.readOpening .openBrace
  else if c = ']' then l.readClosing .closeBracket
  else if c = '\x7d' then l.readClosing .closeBrace
  else if c = ',' then l.readComma
  else if c = '-' ∧ alone then l.readItem
  else if c = '?' ∧ (l.inFlow ∨ alone) then l.readKey
  else if c = ':' ∧ (l.inFlow ∨ alone) then l.readValue
  else if c = '*' then
    l.readPart 1 fun s => (partName s).map fun (name, rest) => (.reference name, rest)
  else if c = '&' then
    l.readPart 1 fun s => (partName s).map fun (name, rest) => (.anchor name, rest)
  else if c = '!' then
    l.readPart 0 fun s => (readTag l.inFlow s).map fun (tag, rest) => (.tag tag, rest)
  else if c = '|' ∧ !l.inFlow then l.readBlockScalar true
  else if c = '>' ∧ !l.inFlow then l.readBlockScalar false
  else if c = '\'' ∨ c = '"' then
    l.readPart 1 fun s => (quoted c s).map fun (text, rest) => (.scalar .quoted text, rest)
  else if beginsPlain l.inFlow l.rest then l.readPlain
  else none

def tokensUpTo : Nat → Layout → Option (List Token)
  | 0, _ => none
  | n + 1, l => do
    let (keyAllowed, rest) := skipBlanks l.inFlow false l.keyAllowed l.rest
    let l ← { l with rest, keyAllowed }.expireKeys
    let l := l.closeBlocks (l.column + 1)
    if headChar l.rest = endChar then
      return (← l.leaveDocument).found.reverse
    else tokensUpTo n (← l.readToken)

end Layout

def tokens? (s : Text) : Option (List Token) := do
  let cells ← cells? s
  { rest := cells : Layout }.tokensUpTo (cells.length + 1)

end TripleTable.Yaml

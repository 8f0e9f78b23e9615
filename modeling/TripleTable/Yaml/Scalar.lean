import TripleTable.Yaml.Cell
set_option autoImplicit false

/-!
Scalars of a YAML text, with quotes and without. Their lines are folded: one line break between two
words is a space, and of several all but the first are kept.
-/
namespace TripleTable.Yaml

-- What stands between two words of a scalar: blanks, or line breaks, the first of which may be
-- left out by a backslash.
structure Gap where
  blanks : Text := []
  broken : Bool := false
  first : Text := []
  more : Text := []

namespace Gap

def text (g : Gap) : Text :=
  if !g.broken then g.blanks
  else if g.first = ['\n'] then (if g.more.isEmpty then [' '] else g.more)
  else g.first ++ g.more

def addBlank (g : Gap) (c : Char) : Gap :=
  if g.broken then g else { g with blanks := g.blanks ++ [c] }

def addBreak (g : Gap) (c : Char) : Gap :=
  if g.broken then { g with more := g.more ++ [c] } else { g with broken := true, first := [c] }

end Gap

def readGap (column : Nat) : Gap → Cells → Option (Gap × Cells)
  | gap, [] => some (gap, [])
  | gap, c :: rest =>
    if isGap c.char then
      if gap.broken ∧ c.char = '\t' ∧ c.mark.column < column then none
      else readGap column (gap.addBlank c.char) rest
    else if isBreak c.char then readGap column (gap.addBreak c.char) rest
    else some (gap, c :: rest)

def digit? (base : Nat) (c : Char) : Option Nat :=
  let value :=
    if c.isDigit then c.toNat - '0'.toNat
    else if 'a' ≤ c ∧ c ≤ 'f' then c.toNat - 'a'.toNat + 10
    else if 'A' ≤ c ∧ c ≤ 'F' then c.toNat - 'A'.toNat + 10
    else base
  if value < base then some value else none

def digits? (base : Nat) : Text → Option Nat
  | [] => none
  | s => s.foldlM (fun n c => (digit? base c).map (base * n + ·)) 0

def escaped? (c : Char) : Option Char :=
  List.lookup c [
    ('0', '\x00'), ('a', '\x07'), ('b', '\x08'), ('t', '\t'), ('\t', '\t'), ('n', '\n'),
    ('v', '\x0b'), ('f', '\x0c'), ('r', '\r'), ('e', '\x1b'), (' ', ' '), ('"', '"'), ('/', '/'),
    ('\\', '\\'), ('N', '\u0085'), ('_', '\u00a0'), ('L', '\u2028'), ('P', '\u2029')]

def codeLength? (c : Char) : Option Nat :=
  List.lookup c [('x', 2), ('u', 4), ('U', 8)]

def coded? (s : Text) : Option Char := do
  let n ← digits? 16 s
  if n < 0xd800 ∨ (0xdfff < n ∧ n < 0x110000) then some (Char.ofNat n) else none

def readEscape : Cells → Option (Char × Cells)
  | [] => none
  | c :: rest =>
    match codeLength? c.char with
    | some length => do
      let digits : Text := (rest.take length).map Cell.char
      if digits.length < length then none
      return (← coded? digits, rest.drop length)
    | none => (escaped? c.char).map fun value => (value, rest)

-- The truth value says whether a backslash stands in front of the break, which is passed over then.
def quotedWord (quote : Char) : Nat → Cells → Option (Text × Bool × Cells)
  | 0, _ => none
  | _, [] => none
  | n + 1, c :: rest =>
    let add (c : Char) (s : Cells) : Option (Text × Bool × Cells) :=
      (quotedWord quote n s).map fun (word, result) => (c :: word, result)
    if endsWord c.char then some ([], false, c :: rest)
    else if c.char = quote then
      if quote = '\'' ∧ headChar rest = '\'' then add '\'' (rest.drop 1)
      else some ([], false, c :: rest)
    else if quote = '"' ∧ c.char = '\\' then
      if isBreak (headChar rest) then some ([], true, rest.drop 1)
      else do
        let (value, rest) ← readEscape rest
        add value rest
    else add c.char rest

-- No line begins like the start or the end of a document.
def quotedUpTo (quote : Char) : Nat → Cells → Option (Text × Cells)
  | 0, _ => none
  | n + 1, s => do
    if isDocumentMark s ∨ headChar s = endChar then none
    let (word, broken, rest) ← quotedWord quote (s.length + 1) s
    if headChar rest = quote then return (word, rest.drop 1)
    let (gap, rest) ← readGap 0 { broken } rest
    let (more, rest) ← quotedUpTo quote n rest
    return (word ++ gap.text ++ more, rest)

def quoted (quote : Char) (s : Cells) : Option (Text × Cells) := quotedUpTo quote (s.length + 1) s

def isFlowIndicator (c : Char) : Bool :=
  c == ',' || c == '[' || c == ']' || c == '\x7b' || c == '\x7d'

-- Inside brackets no colon may stand directly in front of a delimiter.
def plainWord (flow : Bool) : Cells → Option (Text × Cells)
  | [] => some ([], [])
  | c :: rest =>
    let next := headChar rest
    if endsWord c.char then some ([], c :: rest)
    else if flow && c.char == ':' && (isFlowIndicator next || next == '?') then none
    else if (c.char == ':' && endsWord next) || (flow && isFlowIndicator c.char) then
      some ([], c :: rest)
    else (plainWord flow rest).map fun (word, rest) => (c.char :: word, rest)

structure Plain where
  text : Text
  broken : Bool
  rest : Cells

-- Outside brackets the lines stand in the given column or behind it.
def plainUpTo (flow : Bool) (column : Nat) : Nat → Gap → Cells → Option Plain
  | 0, gap, s => some ⟨[], gap.broken, s⟩
  | n + 1, gap, s => do
    if isDocumentMark s ∨ headChar s = '#' then return ⟨[], gap.broken, s⟩
    let (word, rest) ← plainWord flow s
    if word.isEmpty then return ⟨[], gap.broken, rest⟩
    let (next, rest) ← readGap column {} rest
    if !flow ∧ columnOf rest < column then return ⟨gap.text ++ word, next.broken, rest⟩
    let more ← plainUpTo flow column n next rest
    return { more with text := gap.text ++ word ++ more.text }

def plain (flow : Bool) (column : Nat) (s : Cells) : Option Plain :=
  plainUpTo flow column (s.length + 1) {} s

-- The characters that no scalar without quotes begins with, unless they are signs that need a
-- blank behind them.
def isIndicator (c : Char) : Bool :=
  isFlowIndicator c || ['-', '?', ':', '#', '&', '*', '!', '|', '>', '\'', '"', '%', '@',
    '\x60'].contains c

def beginsPlain (flow : Bool) (s : Cells) : Bool :=
  let c := headChar s
  if c == '-' then !isGap (charAt s 1)
  else if c == '?' || c == ':' then !flow && !endsWord (charAt s 1)
  else !(endsWord c || isIndicator c)

end TripleTable.Yaml

import TripleTable.Settings.Load
set_option autoImplicit false

/-!
Variables from a file of assignments, for those that the environment does not have. A value may
stand in quotes, over several lines then, and names of other variables in it are replaced.
-/
namespace TripleTable.EnvFile

inductive Quoting where
  | outside
  | blank
  | escape
  | weak
  | weakEscape
  | strong
  | strongEscape
  | comment
deriving DecidableEq, Repr

def Quoting.next (state : Quoting) (c : Char) : Quoting :=
  let fresh : Quoting :=
    if c = '\\' then escape else if c = '"' then weak else if c = '\'' then strong else outside
  match state with
  | blank => if c = '#' then comment else fresh
  | outside => if isBlank c ∧ c ≠ '\n' ∧ c ≠ '\r' then blank else fresh
  | escape => outside
  | weak => if c = '\\' then weakEscape else if c = '"' then outside else weak
  | weakEscape => weak
  | strong => if c = '\\' then strongEscape else if c = '\'' then outside else strong
  | strongEscape => strong
  | comment => comment

def lines : Text → List Text
  | [] => []
  | c :: s =>
    if c = '\n' then [c] :: lines s
    else
      match lines s with
      | [] => [[c]]
      | line :: rest => (c :: line) :: rest

def scan : Quoting → Text → Text × Quoting
  | state, [] => ([], state)
  | state, c :: s =>
    let state := state.next c
    if state = .comment then ([], state)
    else
      let (kept, last) := scan state s
      (c :: kept, last)

def dropBreak (s : Text) : Text :=
  match s.reverse with
  | '\n' :: '\r' :: rest => rest.reverse
  | '\n' :: rest => rest.reverse
  | _ => s

-- Assignments, each of as many lines as its quotes need; nothing for one that does not end.
def statements (before : Text) (state : Quoting) : List Text → List (Option Text)
  | [] => if state = .outside then [] else [none]
  | line :: rest =>
    if (Text.trimStart (before ++ line)).head? = some '#' then
      some [] :: statements [] .outside rest
    else
      let (kept, last) := scan state line
      if last = .comment then some (before ++ kept) :: statements [] .outside rest
      else if last = .outside then some (dropBreak (before ++ kept)) :: statements [] .outside rest
      else statements (before ++ kept) last rest

def isKeyStart (c : Char) : Bool := c.isAlpha || c == '_'

def isKeyPart (c : Char) : Bool := c.isAlphanum || c == '_' || c == '.'

def key? (s : Text) : Option (Text × Text) :=
  if s.head?.any isKeyStart then some (s.takeWhile isKeyPart, s.dropWhile isKeyPart) else none

inductive Reference where
  | none
  | bare
  | braced
deriving DecidableEq, Repr

-- A value while it is read: its text so far, and the name of a variable in it.
structure Reading where
  state : Quoting := .outside
  reference : Reference := .none
  name : Text := []
  output : Text := []

namespace Reading

def value (lookup : Text → Text) (r : Reading) : Text := r.output ++ lookup r.name

def push (r : Reading) (c : Char) : Reading := { r with output := r.output ++ [c] }

def resolve (lookup : Text → Text) (r : Reading) : Reading :=
  { r with output := r.value lookup, name := [], reference := .none }

def inReference (lookup : Text → Text) (r : Reading) (c : Char) : Reading :=
  if isAlphanumeric c then { r with name := r.name ++ [c] }
  else if r.reference = .braced then
    if c = '\x7d' then r.resolve lookup else { r with name := r.name ++ [c] }
  else if c = '\x7b' ∧ r.name.isEmpty then { r with reference := .braced }
  else if c = '$' then { r.resolve lookup with reference := .bare }
  else (r.resolve lookup).push c

def escaped? (c : Char) : Option Char :=
  if c = 'n' then some '\n'
  else if c = '\\' ∨ c = '\'' ∨ c = '"' ∨ c = '$' ∨ c = ' ' then some c
  else none

def step (lookup : Text → Text) (r : Reading) (c : Char) : Option Reading :=
  match r.state with
  | .blank =>
    if c = ' ' ∨ c = '\t' then some r
    else if c = '#' then some { r with state := .comment }
    else none
  | .comment => some r
  | .escape => (escaped? c).map fun d => { r.push d with state := .outside }
  | .weakEscape => (escaped? c).map fun d => { r.push d with state := .weak }
  | .strong => some (if c = '\'' then { r with state := .outside } else r.push c)
  | .strongEscape => none
  | .weak =>
    if r.reference ≠ .none then some (r.inReference lookup c)
    else if c = '$' then some { r with reference := .bare }
    else if c = '"' then some { r with state := .outside }
    else if c = '\\' then some { r with state := .weakEscape }
    else some (r.push c)
  | .outside =>
    if r.reference ≠ .none then some (r.inReference lookup c)
    else if c = '$' then some { r with reference := .bare }
    else if c = '\'' then some { r with state := .strong }
    else if c = '"' then some { r with state := .weak }
    else if c = '\\' then some { r with state := .escape }
    else if c = ' ' ∨ c = '\t' then some { r with state := .blank }
    else some (r.push c)

end Reading

def value? (lookup : Text → Text) (s : Text) : Option Text := do
  let r ← s.foldlM (Reading.step lookup) {}
  if r.reference = .braced ∨ r.state = .weak ∨ r.state = .weakEscape ∨ r.state = .strong then none
  else some (r.value lookup)

-- An assignment; nothing if the line is blank or a comment. Blanks around the line say nothing,
-- not even those that a backslash stands before.
def assignment? (lookup : Text → Text) (s : Text) : Option (Option (Text × Text)) := do
  let s := Text.trim s
  if s.isEmpty ∨ s.head? = some '#' then return none
  let (key, rest) ← key? s
  let rest := Text.trimStart rest
  let (key, rest) : Text × Text ←
    if key = "export".toList ∧ rest.head? ≠ some '=' then
      (key? rest).map fun (key, rest) => (key, Text.trimStart rest)
    else some (key, rest)
  if rest.head? ≠ some '=' then none
  let rest := Text.trimStart (rest.drop 1)
  if rest.isEmpty ∨ rest.head? = some '#' then return some (key, [])
  else return some (key, ← value? lookup rest)

-- Adds the variables of the assignments up to the first one that cannot be read.
def load (env defined : Environment) : List (Option Text) → Environment
  | some s :: rest =>
    let lookup (name : Text) : Text := ((env.find? name <|> defined.find? name).getD [])
    match assignment? lookup s with
    | some (some (key, value)) => load (env.insertNew key value) (defined.insert key value) rest
    | some none => load env defined rest
    | none => env
  | _ => env

def extend (env : Environment) (content : Text) : Environment :=
  let content := if content.head? = some '\ufeff' then content.drop 1 else content
  load env [] (statements [] .outside (lines content))

end TripleTable.EnvFile

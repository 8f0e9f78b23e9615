import TripleTable.Sparql.Trace
set_option autoImplicit false

/-!
Readers of text with two kinds of failure. A reader returns a value and the rest of its input, or
halts with the trace of where it stood. Alternatives and repetitions go on after a recoverable
halt and pass a final one on.
-/
namespace TripleTable.Sparql

abbrev Reader (α : Type) := StateT Text (Except Halt) α

namespace Reader

variable {α β : Type}

def unexpected (s : Text) : Entry := ⟨"unknown error", s⟩

-- The entry that a choice or a list adds when none of its readers got anywhere.
def exhausted (s : Text) : Entry := ⟨"unknown error (appended)", s⟩

def fail (entry : Entry) : Reader α := fun _ => .error (.recoverable [entry])

def char (c : Char) : Reader Unit := fun s =>
  match s with
  | d :: rest => if d = c then .ok ((), rest) else .error (.recoverable [unexpected s])
  | [] => .error (.recoverable [unexpected s])

def oneOf (p : Char → Bool) : Reader Char := fun s =>
  match s with
  | d :: rest => if p d then .ok (d, rest) else .error (.recoverable [unexpected s])
  | [] => .error (.recoverable [unexpected s])

def text (word : Text) : Reader Unit := fun s =>
  match Text.after? word s with
  | some rest => .ok ((), rest)
  | none => .error (.recoverable [unexpected s])

def run (p : Char → Bool) : Reader Text := fun s =>
  .ok (s.takeWhile p, s.dropWhile p)

def run1 (p : Char → Bool) : Reader Text := fun s =>
  if (s.takeWhile p).isEmpty then .error (.recoverable [unexpected s])
  else .ok (s.takeWhile p, s.dropWhile p)

def spaced (r : Reader α) : Reader α := do
  let _ ← run isSpace
  let value ← r
  let _ ← run isSpace
  return value

def commit (r : Reader α) : Reader α := fun s =>
  match r s with
  | .error halt => .error (.final halt.trace)
  | .ok result => .ok result

def within (context : String) (r : Reader α) : Reader α := fun s =>
  match r s with
  | .error halt => .error (halt.push ⟨context, s⟩)
  | .ok result => .ok result

def optional (r : Reader α) : Reader (Option α) := fun s =>
  match r s with
  | .ok (value, rest) => .ok (some value, rest)
  | .error (.recoverable _) => .ok (none, s)
  | .error (.final trace) => .error (.final trace)

-- The first reader that does not halt recoverably. If all do, the trace is the last one's.
def firstOf : List (Reader α) → Reader α
  | [] => fun s => .error (.recoverable [unexpected s])
  | [r] => fun s =>
    match r s with
    | .error (.recoverable trace) => .error (.recoverable (trace ++ [exhausted s]))
    | result => result
  | r :: others => fun s =>
    match r s with
    | .error (.recoverable _) => firstOf others s
    | result => result

def matched (r : Reader α) : Reader Text := fun s =>
  match r s with
  | .ok (_, rest) => .ok (s.take (s.length - rest.length), rest)
  | .error halt => .error halt

def manyUpTo (item : Reader α) : Nat → Reader (List α)
  | 0 => return []
  | n + 1 => fun s =>
    match item s with
    | .error (.recoverable _) => .ok ([], s)
    | .error (.final trace) => .error (.final trace)
    | .ok (value, rest) => (do return value :: (← manyUpTo item n)) rest

def many1 (item : Reader α) : Reader (List α) := fun s =>
  match item s with
  | .error (.recoverable trace) => .error (.recoverable (trace ++ [exhausted s]))
  | .error (.final trace) => .error (.final trace)
  | .ok (value, rest) => (do return value :: (← manyUpTo item (rest.length + 1))) rest

-- At most `n` further items, each behind a separator; a separator without an item is not read.
def behindUpTo (separator : Reader β) (item : Reader α) : Nat → Reader (List α)
  | 0 => return []
  | n + 1 => fun s =>
    match (separator *> item) s with
    | .error (.recoverable _) => .ok ([], s)
    | .error (.final trace) => .error (.final trace)
    | .ok (value, rest) => (do return value :: (← behindUpTo separator item n)) rest

def separated (separator : Reader β) (item : Reader α) : Reader (List α) := do
  let first ← item
  fun s => (do return first :: (← behindUpTo separator item (s.length + 1))) s

end Reader
end TripleTable.Sparql

import TripleTable.Text.Basic
set_option autoImplicit false

/-!
What a failed read reports: the contexts it stood in, innermost first.
-/
namespace TripleTable.Sparql

structure Entry where
  context : String
  rest : Text
deriving DecidableEq, Repr

abbrev Trace := List Entry

-- A recoverable halt lets another alternative be tried; a final one ends the whole read.
inductive Halt where
  | recoverable (trace : Trace)
  | final (trace : Trace)
deriving DecidableEq, Repr

namespace Halt

def trace : Halt → Trace
  | recoverable t => t
  | final t => t

def push (entry : Entry) : Halt → Halt
  | recoverable t => recoverable (t ++ [entry])
  | final t => final (t ++ [entry])

end Halt

namespace Entry

def shown : Nat := 40

def message (entry : Entry) : Text :=
  entry.context ++ (": " ++ Text.trimEnd (entry.rest.take shown) ++ "\n")

end Entry

def Trace.message (trace : Trace) : Text := trace.flatMap Entry.message

end TripleTable.Sparql

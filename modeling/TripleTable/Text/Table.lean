import TripleTable.Text.Basic
set_option autoImplicit false

/-!
Sets and tables of names, kept in increasing order of code points with no name twice.
-/
namespace TripleTable

def insertName (name : Text) : List Text → List Text
  | [] => [name]
  | other :: rest =>
    if name < other then name :: other :: rest
    else if name = other then other :: rest
    else other :: insertName name rest

abbrev NameTable (α : Type) := List (Text × α)

namespace NameTable

variable {α : Type}

def find? (table : NameTable α) (name : Text) : Option α :=
  (List.find? (fun row => row.1 = name) table).map Prod.snd

def contains (table : NameTable α) (name : Text) : Bool :=
  table.any fun row => row.1 = name

def insert (table : NameTable α) (name : Text) (value : α) : NameTable α :=
  match table with
  | [] => [(name, value)]
  | row :: rest =>
    if name < row.1 then (name, value) :: row :: rest
    else if name = row.1 then (name, value) :: rest
    else row :: insert rest name value

def insertNew (table : NameTable α) (name : Text) (value : α) : NameTable α :=
  if table.contains name then table else table.insert name value

end NameTable
end TripleTable

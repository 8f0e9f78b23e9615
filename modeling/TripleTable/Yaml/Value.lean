import TripleTable.Yaml.Document
set_option autoImplicit false

/-!
What the parts of a YAML document mean as texts, numbers, choices, lists and records. A reference
means what its number stands for at the end of the document.
-/
namespace TripleTable.Yaml

-- An unsigned number: a letter behind a zero gives the base, and a decimal number does not begin
-- with a zero.
def magnitude? : Text → Option Nat
  | '0' :: 'x' :: s => digits? 16 s
  | '0' :: 'o' :: s => digits? 8 s
  | '0' :: 'b' :: s => digits? 2 s
  | '0' :: c :: s => if (c :: s).all Char.isDigit then none else digits? 10 ('0' :: c :: s)
  | s => digits? 10 s

def integer? (s : Text) : Option Int := do
  let value : Int ←
    match s with
    | '-' :: digits => (magnitude? digits).map fun n => -(n : Int)
    | '+' :: digits => (magnitude? digits).map Int.ofNat
    | digits => (magnitude? digits).map Int.ofNat
  if -0x8000000000000000 ≤ value ∧ value < 0x8000000000000000 then some value else none

def isNullWord (s : Text) : Bool := ["~", "null", "Null", "NULL"].contains (String.ofList s)

def integerTag : Tag := Tag.ofText "tag:yaml.org,2002:int"

def nullTag : Tag := Tag.ofText "tag:yaml.org,2002:null"

structure Value where
  node : Node
  numbered : Numbered

def Document.value (d : Document) : Value := ⟨d.root, d.numbered⟩

namespace Value

def target (v : Value) : Option Node :=
  match v.node with
  | .reference number => v.numbered.reverse.lookup number
  | .named _ node => some node
  | node => some node

def text? (v : Value) : Option Text :=
  match v.target with
  | some (.scalar _ _ text) => some text
  | _ => none

def int? (v : Value) : Option Int :=
  match v.target with
  | some (.scalar tag style text) =>
    if style = .plain ∨ (style = .literal ∧ tag = some integerTag) then integer? text else none
  | _ => none

def optionalText? (v : Value) : Option (Option Text) :=
  match v.target with
  | some (.scalar tag style text) =>
    if style ≠ .plain then some (some text)
    else
      match tag with
      | some tag =>
        if tag ≠ nullTag then some (some text) else if isNullWord text then some none else none
      | none => if text.isEmpty || isNullWord text then some none else some (some text)
  | _ => none

-- One of several names: what a tag says behind its exclamation mark, where no
-- value may follow, or a text.
def choice? (v : Value) : Option Text :=
  match v.target with
  | some (.scalar tag style text) =>
    match tag.bind Tag.local? with
    | some name => if style = .plain ∧ (text.isEmpty || isNullWord text) then some name else none
    | none => some text
  | _ => none

def items? (v : Value) : Option (List Value) :=
  match v.target with
  | some (.sequence items) => some (items.map fun item => ⟨item, v.numbered⟩)
  | some (.scalar _ .plain []) => some []
  | _ => none

def entries? (v : Value) : Option (List (Text × Value)) :=
  match v.target with
  | some (.mapping entries) => entries.mapM fun (key, value) => do
      return (← text? ⟨key, v.numbered⟩, ⟨value, v.numbered⟩)
  | some (.scalar _ .plain []) => some []
  | _ => none

def record? (fields : List String) (v : Value) : Option (List (Text × Value)) := do
  let known := (← v.entries?).filter fun entry => fields.contains (String.ofList entry.1)
  if (known.map Prod.fst).Nodup then some known else none

end Value

def required? {α : Type} (entries : List (Text × Value)) (field : String)
    (read : Value → Option α) : Option α :=
  (entries.lookup field.toList).bind read

def withDefault? {α : Type} (entries : List (Text × Value)) (field : String)
    (read : Value → Option α) (value : α) : Option α :=
  match entries.lookup field.toList with
  | some v => read v
  | none => some value

def value? (s : Text) : Option Value := (document? s).map Document.value

end TripleTable.Yaml

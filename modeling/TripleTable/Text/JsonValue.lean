import TripleTable.Text.Basic
set_option autoImplicit false

/-!
JSON values with their members in the order given, and their indented text.
-/
namespace TripleTable

inductive JsonValue where
  | bool (value : Bool)
  | number (value : Nat)
  | string (value : Text)
  | array (values : List JsonValue)
  | object (members : List (Text × JsonValue))
deriving Repr

namespace JsonValue

def hexDigit (n : Nat) : Char := (Nat.toDigits 16 (n % 16)).headD '0'

-- A character inside a string: quotes, backslashes and control characters are escaped.
def escape (c : Char) : Text :=
  if c = '"' then "\\\""
  else if c = '\\' then "\\\\"
  else if c = '\n' then "\\n"
  else if c = '\r' then "\\r"
  else if c = '\t' then "\\t"
  else if c.toNat = 8 then "\\b"
  else if c.toNat = 12 then "\\f"
  else if c.toNat < 32 then "\\u00" ++ [hexDigit (c.toNat / 16), hexDigit c.toNat]
  else [c]

def stringText (s : Text) : Text := '"' :: (s.flatMap escape ++ ['"'])

def newline (level : Nat) : Text := '\n' :: List.replicate (2 * level) ' '

def block (opening closing : Char) (level : Nat) (items : List Text) : Text :=
  if items.isEmpty then [opening, closing]
  else
    opening :: newline (level + 1) ++ Text.join (',' :: newline (level + 1)) items ++
      newline level ++ [closing]

mutual

def prettyAt (level : Nat) : JsonValue → Text
  | .bool value => if value then "true" else "false"
  | .number value => Text.ofNat value
  | .string value => stringText value
  | .array values => block '[' ']' level (valuesAt (level + 1) values)
  | .object members => block '\x7b' '\x7d' level (membersAt (level + 1) members)

def valuesAt (level : Nat) : List JsonValue → List Text
  | [] => []
  | value :: rest => prettyAt level value :: valuesAt level rest

def membersAt (level : Nat) : List (Text × JsonValue) → List Text
  | [] => []
  | (name, value) :: rest =>
    (stringText name ++ ": " ++ prettyAt level value) :: membersAt level rest

end

def pretty (value : JsonValue) : Text := prettyAt 0 value

end JsonValue
end TripleTable

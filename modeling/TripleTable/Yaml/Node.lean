import TripleTable.Yaml.Token
set_option autoImplicit false

/-!
The parts of a YAML document as a tree. A name that is given to a part counts as the number of
names that are known before it; a name that is given again changes its number, and two names may
come to share one.
-/
namespace TripleTable.Yaml

inductive Node where
  | scalar (tag : Option Tag) (style : Style) (text : Text)
  | sequence (items : List Node)
  | mapping (entries : List (Node × Node))
  | named (number : Nat) (node : Node)
  | reference (number : Nat)

def Node.missing : Node := .scalar none .plain []

abbrev Numbered := List (Nat × Node)

mutual

def Node.numbered : Node → Numbered
  | .scalar _ _ _ => []
  | .sequence items => numberedItems items
  | .mapping entries => numberedEntries entries
  | .named number node => (number, node) :: node.numbered
  | .reference _ => []

def numberedItems : List Node → Numbered
  | [] => []
  | item :: rest => item.numbered ++ numberedItems rest

def numberedEntries : List (Node × Node) → Numbered
  | [] => []
  | (key, value) :: rest => key.numbered ++ (value.numbered ++ numberedEntries rest)

end

abbrev Names := List (Text × Nat)

abbrev Handles := List (Text × Tag)

def defaultHandles : Handles := [("!", Tag.ofText "!"), ("!!", Tag.ofText "tag:yaml.org,2002:")]

abbrev Reader (α : Type) := StateT (List Token × Names) Option α

namespace Reader

def peek : Reader (Option Token) := return (← get).1.head?

def skip : Reader Unit := modify fun (tokens, names) => (tokens.drop 1, names)

def token? (token : Token) : Reader Bool := do
  if (← peek) = some token then
    skip
    return true
  else return false

def sees (tokens : List Token) : Reader Bool := return (← peek).any tokens.contains

def giveName (name : Text) : Reader Nat := do
  let (tokens, names) ← get
  let number := names.length
  let others := names.filter fun entry => entry.1 != name
  set (tokens, (name, number) :: others)
  return number

def knownName (name : Text) : Reader Nat := do
  match (← get).2.lookup name with
  | some number => return number
  | none => failure

def anchor? : Reader (Option Text) := do
  match ← peek with
  | some (.anchor name) =>
    skip
    return some name
  | _ => return none

def tag? : Reader (Option WrittenTag) := do
  match ← peek with
  | some (.tag tag) =>
    skip
    return some tag
  | _ => return none

def properties : Reader (Option Text × Option WrittenTag) := do
  match ← anchor? with
  | some name => return (some name, ← tag?)
  | none =>
    match ← tag? with
    | some tag => return (← anchor?, some tag)
    | none => return (none, none)

def fullTag (handles : Handles) (tag : WrittenTag) : Reader Tag :=
  if tag.handle.isEmpty then return tag.suffix
  else
    match handles.lookup tag.handle with
    | some lead => return lead ++ tag.suffix
    | none => failure

end Reader

open Reader

-- Where a node may stand: in brackets; outside them; or outside them where the dashes of a
-- sequence may stand in the column of the mapping around it.
inductive Place where
  | flow
  | block
  | besideKey
deriving DecidableEq

mutual

def node (handles : Handles) : Nat → Place → Reader Node
  | 0, _ => failure
  | n + 1, place => do
    match ← peek with
    | some (.reference name) =>
      skip
      return .reference (← knownName name)
    | _ =>
      let (name, tag) ← properties
      let tag ← tag.mapM (fullTag handles)
      let number ← name.mapM giveName
      let found ← content handles n place tag (name.isSome || tag.isSome)
      return match number with
        | some number => .named number found
        | none => found

def content (handles : Handles) : Nat → Place → Option Tag → Bool → Reader Node
  | 0, _, _, _ => failure
  | n + 1, place, tag, marked => do
    match ← peek with
    | some (.scalar style text) =>
      skip
      return .scalar tag style text
    | some .openBracket =>
      skip
      return .sequence (← flowItems handles n true)
    | some .openBrace =>
      skip
      return .mapping (← flowEntries handles n true)
    | next =>
      if place = .besideKey ∧ next = some .item then
        return .sequence (← looseItems handles n)
      else if place ≠ .flow ∧ next = some .blockSequence then
        skip
        return .sequence (← blockItems handles n)
      else if place ≠ .flow ∧ next = some .blockMapping then
        skip
        return .mapping (← blockEntries handles n)
      else if marked then return .scalar tag .plain []
      else failure

def nodeUnless (handles : Handles) : Nat → Place → List Token → Reader Node
  | 0, _, _ => failure
  | n + 1, place, tokens => do
    if ← sees tokens then return .missing else node handles n place

def blockItems (handles : Handles) : Nat → Reader (List Node)
  | 0 => failure
  | n + 1 => do
    if ← token? .item then
      let first ← nodeUnless handles n .block [.item, .blockEnd]
      return first :: (← blockItems handles n)
    else if ← token? .blockEnd then return []
    else failure

def looseItems (handles : Handles) : Nat → Reader (List Node)
  | 0 => failure
  | n + 1 => do
    if ← token? .item then
      let first ← nodeUnless handles n .block [.item, .key, .value, .blockEnd]
      return first :: (← looseItems handles n)
    else return []

def blockEntries (handles : Handles) : Nat → Reader (List (Node × Node))
  | 0 => failure
  | n + 1 => do
    if ← token? .key then
      let key ← nodeUnless handles n .besideKey [.key, .value, .blockEnd]
      let value ←
        if ← token? .value then nodeUnless handles n .besideKey [.key, .value, .blockEnd]
        else pure Node.missing
      return (key, value) :: (← blockEntries handles n)
    else if ← token? .blockEnd then return []
    else failure

def flowItems (handles : Handles) : Nat → Bool → Reader (List Node)
  | 0, _ => failure
  | n + 1, first => do
    if ← token? .closeBracket then return []
    unless first do
      unless ← token? .comma do failure
      if ← token? .closeBracket then return []
    let item ← if ← token? .key then flowPair handles n else node handles n .flow
    return item :: (← flowItems handles n false)

-- A mapping of one entry inside brackets, behind the token of its key. A token that stands in
-- the place of the key is passed over.
def flowPair (handles : Handles) : Nat → Reader Node
  | 0 => failure
  | n + 1 => do
    let key ←
      if ← sees [.value, .comma, .closeBracket] then
        skip
        pure Node.missing
      else node handles n .flow
    let value ←
      if ← token? .value then nodeUnless handles n .flow [.comma, .closeBracket]
      else pure Node.missing
    return .mapping [(key, value)]

-- The entries of a mapping in braces up to the closing one. A node without a key token before it
-- is a key without a value.
def flowEntries (handles : Handles) : Nat → Bool → Reader (List (Node × Node))
  | 0, _ => failure
  | n + 1, first => do
    if ← token? .closeBrace then return []
    unless first do
      unless ← token? .comma do failure
      if ← token? .closeBrace then return []
    let entry ←
      if ← token? .key then
        let key ← nodeUnless handles n .flow [.value, .comma, .closeBrace]
        let value ←
          if ← token? .value then nodeUnless handles n .flow [.comma, .closeBrace]
          else pure Node.missing
        pure (key, value)
      else pure (← node handles n .flow, Node.missing)
    return entry :: (← flowEntries handles n false)

end

end TripleTable.Yaml

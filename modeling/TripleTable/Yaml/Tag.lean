import TripleTable.Yaml.Scalar
set_option autoImplicit false

/-!
Names and tags of the parts of a YAML document. A tag is a list of octets; in a text some of them
are written as escapes.
-/
namespace TripleTable.Yaml

abbrev Tag := List UInt8

def Tag.ofText (s : Text) : Tag := s.map fun c => c.toNat.toUInt8

-- What the tag says behind an exclamation mark at its start; octets that are no
-- text say nothing.
def Tag.local? (tag : Tag) : Option Text :=
  match tag with
  | [] => none
  | mark :: rest =>
    if mark = 0x21 then (String.fromUTF8? ⟨rest.toArray⟩).map String.toList else none

def isNameChar (c : Char) : Bool := c.isAlphanum || c == '_' || c == '-'

def nameText (s : Cells) : Text × Cells :=
  ((s.takeWhile fun c => isNameChar c.char).map Cell.char, s.dropWhile fun c => isNameChar c.char)

def partName (s : Cells) : Option (Text × Cells) :=
  let (name, rest) := nameText s
  let next := headChar rest
  if name.isEmpty then none
  else if endsWord next ∨ ['?', ':', ',', ']', '\x7d', '%', '@', '\x60'].contains next then
    some (name, rest)
  else none

def octet : Cells → Option (UInt8 × Cells)
  | percent :: high :: low :: rest => do
    if percent.char ≠ '%' then none
    let n ← digits? 16 [high.char, low.char]
    return (n.toUInt8, rest)
  | _ => none

def octetCount? (first : UInt8) : Option Nat :=
  if first < 0x80 then some 1
  else if first < 0xc0 then none
  else if first < 0xe0 then some 2
  else if first < 0xf0 then some 3
  else if first < 0xf8 then some 4
  else none

def furtherOctets : Nat → Cells → Option (Tag × Cells)
  | 0, s => some ([], s)
  | n + 1, s => do
    let (next, rest) ← octet s
    if next < 0x80 ∨ 0xc0 ≤ next then none
    let (more, rest) ← furtherOctets n rest
    return (next :: more, rest)

def escapedOctets (s : Cells) : Option (Tag × Cells) := do
  let (first, rest) ← octet s
  let (more, rest) ← furtherOctets ((← octetCount? first) - 1) rest
  return (first :: more, rest)

def isTagChar (wide : Bool) (c : Char) : Bool :=
  isNameChar c ||
    [';', '/', '?', ':', '@', '&', '=', '+', '$', '.', '%', '!', '~', '*', '\'', '(', ')'].contains
      c ||
    (wide && [',', '[', ']'].contains c)

def tagOctetsUpTo (wide : Bool) : Nat → Cells → Option (Tag × Cells)
  | 0, s => some ([], s)
  | _, [] => some ([], [])
  | n + 1, c :: rest => do
    if !isTagChar wide c.char then return ([], c :: rest)
    let (octets, rest) ←
      if c.char = '%' then escapedOctets (c :: rest)
      else some ([c.char.toNat.toUInt8], rest)
    let (more, rest) ← tagOctetsUpTo wide n rest
    return (octets ++ more, rest)

def Tag.upToZero (tag : Tag) : Tag := tag.takeWhile (· != 0)

def tagOctets (wide : Bool) (s : Cells) : Option (Tag × Cells) :=
  tagOctetsUpTo wide (s.length + 1) s

def someTagOctets (wide : Bool) (s : Cells) : Option (Tag × Cells) := do
  let (tag, rest) ← tagOctets wide s
  if tag.isEmpty then none
  return (tag.upToZero, rest)

def tagHandle (s : Cells) : Option (Text × Cells) :=
  if headChar s = '!' then
    let (name, rest) := nameText (s.drop 1)
    if headChar rest = '!' then some ('!' :: name ++ ['!'], rest.drop 1)
    else some ('!' :: name, rest)
  else none

structure WrittenTag where
  handle : Text
  suffix : Tag
deriving DecidableEq, Repr

def isNamedHandle (handle : Text) : Bool := 1 < handle.length && handle.getLast? == some '!'

-- A tag from its exclamation mark on. Without a name the handle is the mark, and a mark alone is
-- the whole tag.
def writtenTag (s : Cells) : Option (WrittenTag × Cells) := do
  if charAt s 1 = '<' then
    let (suffix, rest) ← someTagOctets true (s.drop 2)
    if headChar rest ≠ '>' then none
    return (⟨[], suffix⟩, rest.drop 1)
  else
    let (handle, rest) ← tagHandle s
    if isNamedHandle handle then
      let (suffix, rest) ← someTagOctets false rest
      return (⟨handle, suffix⟩, rest)
    else
      let (octets, rest) ← tagOctets false rest
      let suffix := Tag.upToZero (Tag.ofText (handle.drop 1) ++ octets)
      if suffix.isEmpty then return (⟨[], Tag.ofText "!"⟩, rest)
      else return (⟨"!", suffix⟩, rest)

def readTag (flow : Bool) (s : Cells) : Option (WrittenTag × Cells) := do
  let (tag, rest) ← writtenTag s
  if endsWord (headChar rest) ∨ (flow ∧ headChar rest = ',') then some (tag, rest) else none

end TripleTable.Yaml

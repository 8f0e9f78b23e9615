import TripleTable.Text.CharTable
set_option autoImplicit false

/-!
The character classes the two languages are read with. Below U+0080 every class is a plain test;
above it the tables of the Unicode standard decide.
-/
namespace TripleTable

def isAscii (c : Char) : Bool := c.toNat < 0x80

-- White space in the Unicode sense: what trimming removes and what ends an IRI.
def isBlank (c : Char) : Bool :=
  c == ' ' || (9 ≤ c.toNat && c.toNat ≤ 13) ||
    (!isAscii c && CharTable.covers CharTable.blank c.toNat)

def isSpace (c : Char) : Bool :=
  c == ' ' || c == '\t' || c == '\r' || c == '\n'

def isAlphabetic (c : Char) : Bool :=
  c.isAlpha || (!isAscii c && CharTable.covers CharTable.alphabetic c.toNat)

-- Letters and numbers of every script, superscripts and letter numbers included.
def isAlphanumeric (c : Char) : Bool :=
  c.isAlphanum || (!isAscii c &&
    (CharTable.covers CharTable.alphabetic c.toNat ||
      CharTable.covers CharTable.decimalDigit c.toNat ||
      CharTable.covers CharTable.otherNumber c.toNat))

-- Word characters: letters, marks, decimal digits, connector punctuation and joiners, as version
-- 16 of the Unicode standard has them.
def isWordChar (c : Char) : Bool :=
  c.isAlphanum || c == '_' || (!isAscii c && !CharTable.covers CharTable.recent c.toNat &&
    (CharTable.covers CharTable.alphabetic c.toNat ||
      CharTable.covers CharTable.mark c.toNat ||
      CharTable.covers CharTable.decimalDigit c.toNat ||
      CharTable.covers CharTable.connector c.toNat))

def isNumeric (c : Char) : Bool :=
  c.isDigit || (!isAscii c &&
    (CharTable.covers CharTable.decimalDigit c.toNat ||
      CharTable.covers CharTable.otherNumber c.toNat ||
      CharTable.covers CharTable.letterNumber c.toNat))

theorem isBlank_of_isSpace {c : Char} (space : isSpace c) : isBlank c := by
  simp only [isSpace, Bool.or_eq_true, beq_iff_eq] at space
  rcases space with ((rfl | rfl) | rfl) | rfl <;> decide

theorem isAlphanumeric_of_isAlphanum {c : Char} (ascii : c.isAlphanum) : isAlphanumeric c := by
  simp [isAlphanumeric, ascii]

theorem isWordChar_of_isAlphanum {c : Char} (ascii : c.isAlphanum) : isWordChar c := by
  simp [isWordChar, ascii]

end TripleTable

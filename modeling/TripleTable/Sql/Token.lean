import TripleTable.Text.Basic
set_option autoImplicit false

/-!
Tokens of SQL text. Words and numbers keep their spelling, delimited names and strings lose their
quotes, and operators are recognised longest first. Blanks and comments separate tokens.
-/
namespace TripleTable.Sql

structure Ident where
  value : Text
  quote : Option Char := none
deriving DecidableEq, Repr

inductive Token where
  | word (name : Ident)
  | number (digits : Text) (long : Bool)
  | string (value : Text)
  | escaped (value : Text)
  | literal (text : Text)
  | symbol (text : String)
deriving DecidableEq, Repr

def Token.isWord : Token → Bool
  | .word _ => true
  | _ => false

-- Letter case does not matter for keywords; beyond ASCII, these characters have capitals among
-- the ASCII letters.
def capitals (c : Char) : Text :=
  match c.toNat with
  | 0xdf => "SS"
  | 0x131 => "I"
  | 0x17f => "S"
  | 0xfb00 => "FF"
  | 0xfb01 => "FI"
  | 0xfb02 => "FL"
  | 0xfb03 => "FFI"
  | 0xfb04 => "FFL"
  | 0xfb05 => "ST"
  | 0xfb06 => "ST"
  | _ => [c.toUpper]

def inCapitals (s : Text) : String := String.ofList (s.flatMap capitals)

def Ident.keyword (name : Ident) : String :=
  if name.quote.isSome then "" else inCapitals name.value

def isWordStart (c : Char) : Bool :=
  isAlphabetic c || c == '_' || c == '#' || c == '@'

def isWordPart (c : Char) : Bool :=
  isAlphabetic c || c.isDigit || c == '@' || c == '$' || c == '#' || c == '_'

-- The operators and punctuation, every one after those it is the beginning of.
def symbols : List String := [
  "!~~*",
  "->>", "<=>", "#>>", "||/", "!~~", "!~*", "~~*",
  "->", "<=", "<>", "<<", "<@", "=>", "==", "!=", "!!", "!~", ">=", ">>", "::", ":=", "&&", "^@",
  "~~", "~*", "#-", "#>", "@>", "@?", "||", "|/", "//",
  "(", ")", ",", ";", "\\", "[", "]", "\x7b", "\x7d", "-", "/", "+", "*", "%", "|", "=", "!", "<",
  ">", ":", "&", "^", "~"]

def longestSymbol? (s : Text) : Option (String × Text) :=
  symbols.findSome? fun (symbol : String) =>
    (Text.after? symbol.toList s).map fun rest => (symbol, rest)

-- What stands before the closing quote, a doubled quote standing for one, and what follows.
def quotedBody (quote : Char) : Text → Option (Text × Text)
  | [] => none
  | [c] => if c = quote then some ([], []) else none
  | c :: d :: s =>
    if c = quote then
      if d = quote then (quotedBody quote s).map fun (value, rest) => (quote :: value, rest)
      else some ([], d :: s)
    else (quotedBody quote (d :: s)).map fun (value, rest) => (c :: value, rest)

def afterBlockComment : Nat → Text → Option Text
  | _, [] => none
  | _, [_] => none
  | depth, c :: d :: s =>
    if c = '/' ∧ d = '*' then afterBlockComment (depth + 1) (d :: s)
    else if c = '*' ∧ d = '/' then
      match depth with
      | 0 => some s
      | depth + 1 => afterBlockComment depth (d :: s)
    else afterBlockComment depth (d :: s)

def exponent (s : Text) : Text :=
  match s with
  | c :: rest =>
    if c = 'e' ∨ c = 'E' then
      match rest with
      | d :: more =>
        if d = '+' ∨ d = '-' then
          let digits := more.takeWhile Char.isDigit
          if digits.isEmpty then [] else c :: d :: digits
        else
          let digits := rest.takeWhile Char.isDigit
          if digits.isEmpty then [] else c :: digits
      | [] => []
    else []
  | [] => []

-- A period on its own, or a number: digits with at most one period, an exponent, and a letter
-- for a long number.
def numberToken (s : Text) : Token × Text :=
  let whole := s.takeWhile Char.isDigit
  let rest := s.dropWhile Char.isDigit
  if whole = ['0'] ∧ rest.head? = some 'x' then
    let digits := (rest.drop 1).takeWhile fun c =>
      c.isDigit || ('a' ≤ c && c ≤ 'f') || ('A' ≤ c && c ≤ 'F')
    (.literal ("X'" ++ digits ++ "'"), rest.drop (1 + digits.length))
  else
    let point : Text := if rest.head? = some '.' then ['.'] else []
    let rest := rest.drop point.length
    let fraction := rest.takeWhile Char.isDigit
    let rest := rest.dropWhile Char.isDigit
    let mantissa := whole ++ point ++ fraction
    if mantissa = ['.'] then (.symbol ".", rest)
    else
      let power := exponent rest
      let rest := rest.drop power.length
      let long := rest.head? = some 'L'
      (.number (mantissa ++ power) long, if long then rest.drop 1 else rest)

-- A word from its first characters on; a word of digits and periods is a number.
def wordToken (first s : Text) : Token × Text :=
  let word := first ++ s.takeWhile isWordPart
  let rest := s.dropWhile isWordPart
  if word.all fun c => c.isDigit || c == '.' then
    let more := rest.takeWhile fun c => c.isDigit || c == '.'
    (.number (word ++ more) false, rest.drop more.length)
  else (.word ⟨word, none⟩, rest)

-- The character that one behind a backslash stands for; most stand for themselves.
def unescape (c : Char) : Char :=
  if c = 'n' then '\n' else if c = 't' then '\t' else if c = 'r' then '\r' else c

def escapedBody : Text → Option (Text × Text)
  | [] => none
  | [c] => if c = '\'' then some ([], []) else none
  | c :: d :: s =>
    if c = '\'' ∧ d ≠ '\'' then some ([], d :: s)
    else if c = '\'' then (escapedBody s).map fun (value, rest) => (d :: value, rest)
    else if c = '\\' then (escapedBody s).map fun (value, rest) => (unescape d :: value, rest)
    else (escapedBody (d :: s)).map fun (value, rest) => (c :: value, rest)

def dollarBody : Text → Option (Text × Text)
  | [] => none
  | [_] => none
  | c :: d :: s =>
    if c = '$' ∧ d = '$' then some ([], s)
    else (dollarBody (d :: s)).map fun (value, rest) => (c :: value, rest)

-- What stands before the closing tag, and what follows it. A string with a tag
-- holds no dollar sign.
def taggedBody (tag s : Text) : Option (Text × Text) :=
  if tag.isEmpty then dollarBody s
  else
    (Text.after? ('$' :: tag ++ ['$']) (s.dropWhile (· != '$'))).map fun rest =>
      (s.takeWhile (· != '$'), rest)

-- A string between dollar tags, or the placeholder that a dollar sign begins.
def dollarToken (s : Text) : Option (Token × Text) :=
  let tag := s.takeWhile fun c => isAlphanumeric c || c == '_'
  let rest := s.drop tag.length
  match rest with
  | '$' :: rest =>
    let mark := '$' :: tag ++ ['$']
    (taggedBody tag rest).map fun (value, rest) => (.literal (mark ++ value ++ mark), rest)
  | _ => some (.literal ('$' :: tag), rest)

def introduced (letter quote : Char) (s : Text) : Option (Token × Text) :=
  (quotedBody quote s).map fun (value, rest) =>
    (.literal (letter :: quote :: value ++ [quote]), rest)

def letterLiteral? (c : Char) (s : Text) : Option (Option (Token × Text)) :=
  match c.toUpper, s with
  | 'B', '\'' :: rest => some (introduced 'B' '\'' rest)
  | 'B', '"' :: rest => some (introduced 'B' '"' rest)
  | 'R', '\'' :: rest => some (introduced 'R' '\'' rest)
  | 'R', '"' :: rest =>
    some ((quotedBody '"' rest).map fun (value, rest) => (.literal ("R'" ++ value ++ "'"), rest))
  | 'N', '\'' :: rest => some (introduced 'N' '\'' rest)
  | 'X', '\'' :: rest => some (introduced 'X' '\'' rest)
  | 'E', '\'' :: rest =>
    some ((escapedBody rest).map fun (value, rest) => (.escaped value, rest))
  | _, _ => none

-- The first token of a text that does not begin with a blank or a comment.
def tokenAt (c : Char) (s : Text) : Option (Token × Text) :=
  match if c.isAlpha then letterLiteral? c s else none with
  | some result => result
  | none =>
    if c = '\'' then (quotedBody '\'' s).map fun (value, rest) => (.string value, rest)
    else if c = '"' ∨ c = '\x60' then
      (quotedBody c s).map fun (value, rest) => (.word ⟨value, some c⟩, rest)
    else if c.isDigit || c == '.' then some (numberToken (c :: s))
    else
      match longestSymbol? (c :: s) with
      | some (symbol, rest) => some (.symbol symbol, rest)
      | none =>
        if c = '?' then
          let digits := s.takeWhile isNumeric
          some (.literal ('?' :: digits), s.drop digits.length)
        else if c = '#' then
          match s with
          | [] => some (.symbol "#", [])
          | d :: rest => if d = ' ' then some (.symbol "#", s) else some (wordToken [c, d] rest)
        else if c = '@' then
          match s with
          | [] => some (.symbol "@", [])
          | '@' :: rest =>
            match rest with
            | [] => some (.symbol "@@", [])
            | d :: more =>
              if d = ' ' then some (.symbol "@@", rest) else some (wordToken [c, c, d] more)
          | d :: rest => if d = ' ' then some (.symbol "@", s) else some (wordToken [c, d] rest)
        else if isWordStart c then some (wordToken [c] s)
        else if c = '$' then dollarToken s
        else some (.symbol (String.ofList [c]), s)

def tokensUpTo : Nat → Text → Option (List Token)
  | _, [] => some []
  | 0, _ :: _ => none
  | n + 1, c :: s =>
    if isBlank c then tokensUpTo n s
    else if c = '-' ∧ s.head? = some '-' then tokensUpTo n ((s.dropWhile (· != '\n')).drop 1)
    else if c = '/' ∧ s.head? = some '*' then (afterBlockComment 0 (s.drop 1)).bind (tokensUpTo n)
    else do
      let (token, rest) ← tokenAt c s
      return token :: (← tokensUpTo n rest)

-- The tokens of a text; an unfinished string, name or comment is no token.
def tokens? (s : Text) : Option (List Token) := tokensUpTo s.length s

end TripleTable.Sql

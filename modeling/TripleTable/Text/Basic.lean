import TripleTable.Text.CharClass
set_option autoImplicit false

/-!
Text as a list of characters, with the cuts, trims and joins that the readers and printers share.
-/
namespace TripleTable

abbrev Text := List Char

instance : Coe String Text := ⟨String.toList⟩

instance (s : Text) (pieces : List Text) : Decidable (s ∈ pieces) :=
  List.instDecidableMemOfLawfulBEq s pieces

namespace Text

def after? : Text → Text → Option Text
  | [], s => some s
  | _ :: _, [] => none
  | c :: lead, d :: s => if c = d then after? lead s else none

def asciiLower (s : Text) : Text := s.map Char.toLower

-- What follows `lead`, if the text begins with it up to the case of ASCII letters.
def afterNoCase? : Text → Text → Option Text
  | [], s => some s
  | _ :: _, [] => none
  | c :: lead, d :: s => if c.toLower = d.toLower then afterNoCase? lead s else none

def trimStart (s : Text) : Text := s.dropWhile isBlank

def trimEnd (s : Text) : Text := (s.reverse.dropWhile isBlank).reverse

def trim (s : Text) : Text := trimEnd (trimStart s)

def afterLast (p : Char → Bool) (s : Text) : Text :=
  (s.reverse.takeWhile (fun c => !p c)).reverse

def splitOn (p : Char → Bool) : Text → List Text
  | [] => [[]]
  | c :: s =>
    if p c then [] :: splitOn p s
    else match splitOn p s with
      | [] => [[c]]
      | piece :: rest => (c :: piece) :: rest

def tokensOn (p : Char → Bool) (s : Text) : List Text :=
  (splitOn p s).filter fun piece => !piece.isEmpty

def join (separator : Text) (pieces : List Text) : Text :=
  separator.intercalate pieces

def double (c : Char) (s : Text) : Text :=
  s.flatMap fun d => if d = c then [c, c] else [d]

def ofNat (n : Nat) : Text := Nat.toDigits 10 n

def ofInt : Int → Text
  | .ofNat n => ofNat n
  | .negSucc n => '-' :: ofNat (n + 1)

def digitsToNat (s : Text) : Nat :=
  s.foldl (fun n c => 10 * n + (c.toNat - '0'.toNat)) 0

def toNat? (s : Text) : Option Nat :=
  if !s.isEmpty && s.all Char.isDigit then some (digitsToNat s) else none

def toInt? : Text → Option Int
  | '-' :: digits => (toNat? digits).map fun (n : Nat) => -(n : Int)
  | '+' :: digits => (toNat? digits).map fun (n : Nat) => (n : Int)
  | digits => (toNat? digits).map fun (n : Nat) => (n : Int)

@[simp] theorem after?_append (lead s : Text) : after? lead (lead ++ s) = some s := by
  induction lead with
  | nil => rfl
  | cons c lead ih => simp [after?, ih]

theorem eq_append_of_after? {lead s rest : Text} (found : after? lead s = some rest) :
    s = lead ++ rest := by
  induction lead generalizing s with
  | nil => simpa [after?] using found
  | cons c lead ih =>
    cases s with
    | nil => simp [after?] at found
    | cons d s =>
      by_cases same : c = d
      · subst same
        simp only [after?, if_true] at found
        rw [ih found, List.cons_append]
      · simp [after?, same] at found

theorem splitOn_ne_nil (p : Char → Bool) (s : Text) : splitOn p s ≠ [] := by
  cases s with
  | nil => simp [splitOn]
  | cons c s =>
    unfold splitOn
    split
    · simp
    · split <;> simp

end Text
end TripleTable

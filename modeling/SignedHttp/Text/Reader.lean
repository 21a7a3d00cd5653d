import SignedHttp.Text.Blank
import SignedHttp.Text.Decimal

/-!
# SignedHttp.Text.Reader

Readers that take a value from the front of a text. A reader either fails or gives a value and the
rest of the text; `Reader.all` runs one that has to use the text up. The readers here are the words
in which the date formats are spelled out: blanks, single characters, numbers and names.
-/

namespace SignedHttp
namespace Text

/-- Takes a value from the front of a text, or fails. -/
abbrev Reader := StateT (List Char) Option

namespace Reader

def fail {α : Type} : Reader α := fun _ => none

/-- Goes on only if a condition holds. -/
def require (p : Bool) : Reader Unit := fun s => if p then some ((), s) else none

/-- The value read from a whole text. -/
def all {α : Type} (r : Reader α) (s : List Char) : Option α :=
  match r s with
  | some (a, []) => some a
  | _ => none

def peek : Reader (List Char) := fun s => some (s, s)

def char (c : Char) : Reader Unit
  | d :: s => if d = c then some ((), s) else none
  | [] => none

def charIf (p : Char → Bool) : Reader Char
  | c :: s => if p c then some (c, s) else none
  | [] => none

/-- Takes one character after another. -/
def literal : List Char → Reader Unit
  | [] => pure ()
  | c :: rest => do char c; literal rest

def many (p : Char → Bool) : Reader (List Char) := fun s => some (s.takeWhile p, s.dropWhile p)

def blanks : Reader Unit := fun s => some ((), trimStart s)

def blanks1 : Reader Unit := do
  let _ ← charIf isBlank
  blanks

/-- Takes as many digits as follow, at most `most` and at least `least`. -/
def digits (least most : Nat) : Reader Nat := fun s =>
  let ds := (s.takeWhile Char.isDigit).take most
  if least ≤ ds.length then some (number ds, s.drop ds.length) else none

/-- Takes all digits that follow, at least `least`; gives their number and their value. -/
def numeral (least : Nat) : Reader (Nat × Nat) := do
  let ds ← many Char.isDigit
  require (least ≤ ds.length)
  pure (ds.length, number ds)

/-- Whether two texts agree but for the case of ASCII letters. -/
def sameLetters (a b : List Char) : Bool := a.map Char.toLower == b.map Char.toLower

def anyCase (word : List Char) : Reader Unit := fun s =>
  if sameLetters (s.take word.length) word then some ((), s.drop word.length) else none

/-- Takes one of some names of three letters, in any case, and gives its place among them. -/
def oneOf (names : List String) : Reader Nat := fun s =>
  match names.findIdx? fun name => sameLetters name.toList (s.take 3) with
  | some i => some (i, s.drop 3)
  | none => none

/-- Takes what a reader takes, or nothing if it fails. -/
def attempt {α : Type} (r : Reader α) : Reader (Option α) := fun s =>
  match r s with
  | some (a, s') => some (some a, s')
  | none => some (none, s)

end Reader
end Text
end SignedHttp

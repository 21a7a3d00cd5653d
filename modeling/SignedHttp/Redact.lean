import SignedHttp.Text.Decimal
import SignedHttp.Text.Utf8

/-!
# SignedHttp.Redact

Lines of a log, and secrets as they may be shown in them. Only two levels of lines occur: details
for those who look for a fault, and warnings. Of the secrets, a text of at least twelve bytes keeps
its first and last three bytes, if characters end there, so that two secrets can be told apart; any
other text is hidden altogether, and of a key only the length is shown. An empty secret says so.
-/

namespace SignedHttp
namespace Log

/-- How much a line matters. -/
inductive Level
  | debug
  | warn
deriving DecidableEq, Repr

structure Line where
  level : Level
  text : String
deriving DecidableEq, Repr

def debug (text : String) : Line := ⟨.debug, text⟩

def warn (text : String) : Line := ⟨.warn, text⟩

end Log

namespace Redact

/-- The start of a text that takes exactly so many bytes, if a character ends there. -/
def front? : Nat → List Char → Option (List Char)
  | 0, _ => some []
  | _ + 1, [] => none
  | n + 1, c :: rest =>
    if c.utf8Size ≤ n + 1 then (front? (n + 1 - c.utf8Size) rest).map (c :: ·) else none

/-- The end of a text that takes exactly so many bytes, if a character starts there. -/
def back? (n : Nat) (s : List Char) : Option (List Char) := (front? n s.reverse).map List.reverse

def hidden : List Char := ['*', '*', '*']

/-- A secret text with all but its ends hidden. -/
def chars (s : List Char) : List Char :=
  if s = [] then "EMPTY".toList
  else if (Utf8.encode s).length < 12 then hidden
  else
    match front? 3 s, back? 3 s with
    | some a, some b => a ++ hidden ++ b
    | _, _ => hidden

def text (s : String) : String := String.ofList (chars s.toList)

def optionalText (s : Option String) : String := text (s.getD "")

/-- A secret key as it may be shown. -/
def bytes (key : Bytes) : String :=
  if key = [] then "EMPTY" else "<" ++ String.ofList (Text.decimal key.length) ++ " bytes>"

end Redact
end SignedHttp

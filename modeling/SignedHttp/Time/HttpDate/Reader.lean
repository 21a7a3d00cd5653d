import SignedHttp.Text.Reader
import SignedHttp.Time.HttpDate
import SignedHttp.Time.Stamp

/-!
# SignedHttp.Time.HttpDate.Reader

Reading dates of HTTP headers. Three forms are tried in order:

* mail: `Sun, 06 Nov 1994 08:49:37 GMT`, also with other zones, a comment, or no day of the week;
* dashed: `Sunday, 06-Nov-94 08:49:37 GMT`;
* listing: `Sun Nov  6 08:49:37 1994`.

Names may be written in any case. A form counts only if it reads the whole text and its fields name
an instant; otherwise the next form is tried.
-/

namespace SignedHttp
namespace HttpDate

open Text Text.Reader

def weekday : Reader Nat := oneOf Date.weekdayNames

/-- A day of the week by its short or full name. -/
def weekdayInFull : Reader Nat := do
  let w ← weekday
  let _ ← attempt (anyCase (Date.weekdayEndings.getD w "").toList)
  pure w

/-- A month by its short name, counted from one. -/
def month : Reader Nat := do
  let m ← oneOf Date.monthNames
  pure (m + 1)

/-- The year that a mail date means: two digits are a year from 1950 to 2049, three digits count
from 1900. -/
def mailYear (length value : Nat) : Nat :=
  if length = 2 then (if value ≤ 49 then value + 2000 else value + 1900)
  else if length = 3 then value + 1900
  else value

/-- The zones that have a name, in hours. Any other single letter but `J` is no offset. -/
def zoneNamed (word : List Char) : Option Int :=
  let word := word.map Char.toLower
  if word = "gmt".toList || word = "ut".toList || word = "z".toList then some 0
  else if word = "edt".toList then some (-4)
  else if word = "est".toList || word = "cdt".toList then some (-5)
  else if word = "cst".toList || word = "mdt".toList then some (-6)
  else if word = "mst".toList || word = "pdt".toList then some (-7)
  else if word = "pst".toList then some (-8)
  else if word.length = 1 && word != ['j'] then some 0
  else none

/-- A zone: a name, or a sign and four digits below a day. Gives the minutes ahead. -/
def zone : Reader Int := do
  let word ← many Char.isAlpha
  match word with
  | [] =>
    let sign ← charIf fun c => c == '+' || c == '-'
    let hours ← digits 2 2
    let minutes ← digits 2 2
    require (hours < 24 && minutes < 60)
    let ahead : Int := (hours * 60 + minutes : Nat)
    pure (if sign = '-' then -ahead else ahead)
  | _ =>
    match zoneNamed word with
    | some hours => pure (hours * 60)
    | none => fail

/-- Whether a text consists of comments in parentheses, with blanks before them. `depth` is the
number of parentheses that are open; inside one, a backslash takes away the meaning of the next
character. -/
def onlyComments : (depth : Nat) → List Char → Bool
  | 0, [] => true
  | 0, c :: rest => if isBlank c then onlyComments 0 rest else c == '(' && onlyComments 1 rest
  | _ + 1, [] => false
  | depth + 1, '\\' :: _ :: rest => onlyComments (depth + 1) rest
  | depth + 1, '(' :: rest => onlyComments (depth + 2) rest
  | depth + 1, ')' :: rest => onlyComments depth rest
  | depth + 1, _ :: rest => onlyComments (depth + 1) rest

/-- Takes the whole rest of a text if it consists of comments. -/
def comments : Reader Unit := fun s => if onlyComments 0 s then some ((), []) else none

/-- The day of the week at the front of a mail date, which a comma has to follow. -/
def mailWeekday : Reader (Option Nat) := do
  let w ← attempt weekday
  if w.isSome then char ','
  pure w

/-- The seconds of a mail date, which may be missing. -/
def mailSecond : Reader Nat := do
  let colon ← attempt do
    blanks
    char ':'
  if colon.isSome then digits 2 2 else pure 0

def mail : Reader Stamp := do
  blanks
  let w ← mailWeekday
  blanks
  let d ← digits 1 2
  blanks1
  let m ← month
  blanks1
  let (length, y) ← numeral 2
  blanks1
  let hour ← digits 2 2
  blanks
  char ':'
  blanks
  let minute ← digits 2 2
  let second ← mailSecond
  blanks1
  let ahead ← zone
  comments
  pure ⟨⟨mailYear length y, m, d⟩, w, hour, minute, second, 0, ahead⟩

/-- A time of day with blanks before its numbers. -/
def clock : Reader (Nat × Nat × Nat) := do
  blanks
  let hour ← digits 1 2
  char ':'
  blanks
  let minute ← digits 1 2
  char ':'
  blanks
  let second ← digits 1 2
  pure (hour, minute, second)

/-- The dashed form; two digits are a year from 1970 to 2069. -/
def dashed : Reader Stamp := do
  let w ← weekdayInFull
  char ','
  blanks
  let d ← digits 1 2
  char '-'
  let m ← month
  char '-'
  blanks
  let y ← digits 1 2
  blanks
  let (hour, minute, second) ← clock
  blanks
  literal "GMT".toList
  pure ⟨⟨if y < 70 then (y : Int) + 2000 else y + 1900, m, d⟩, some w, hour, minute, second, 0, 0⟩

/-- The year of the listing form: up to four digits, or a sign and any number of digits. -/
def listingYear : Reader Int := do
  match ← attempt (charIf fun c => c == '+' || c == '-') with
  | some sign =>
    let (_, y) ← numeral 1
    pure (if sign = '-' then -(y : Int) else y)
  | none =>
    let y ← digits 1 4
    pure y

def listing : Reader Stamp := do
  let w ← weekday
  blanks
  let m ← month
  blanks
  let d ← digits 1 2
  blanks
  let (hour, minute, second) ← clock
  blanks
  let y ← listingYear
  pure ⟨⟨y, m, d⟩, some w, hour, minute, second, 0, 0⟩

/-- The instant that a text names in one form. -/
def inForm (form : Reader Stamp) (s : List Char) : Option Instant := (all form s).bind (·.instant?)

/-- The instant that a trimmed text names in the first form that fits. -/
def ofChars? (s : List Char) : Option Instant :=
  (inForm mail s).or ((inForm dashed s).or (inForm listing s))

/-- The instant that the text of a header names, blanks around it aside. -/
def ofText? (s : String) : Option Instant := ofChars? (trim s.toList)

end HttpDate
end SignedHttp

import SignedHttp.Text.Reader
import SignedHttp.Time.Stamp

/-!
# SignedHttp.Time.Rfc3339

Timestamps of the kind `2022-03-13T07:20:04Z`. `Rfc3339.ofText?` reads them: the date, a `T` or a
space, the time, a fraction if any, and `Z` or an offset. `Rfc3339.text` writes an instant as logs
show it, with a fraction of three, six or nine digits where one is needed and `:60` for a leap
second.
-/

namespace SignedHttp
namespace Rfc3339

open Text Text.Reader

/-- A fraction of a second in nanoseconds; digits past the ninth are dropped. -/
def fraction : Reader Nat := do
  char '.'
  let ds ← many Char.isDigit
  require (1 ≤ ds.length)
  pure (number (ds.take 9) * tenTo (9 - ds.length))

def minusSign : Char := Char.ofNat 0x2212

/-- The offset: `Z`, or a sign with hours and minutes. Gives the minutes ahead. -/
def offset : Reader Int := do
  let c ← charIf fun c => c == 'Z' || c == 'z' || c == '+' || c == '-' || c == minusSign
  if c = 'Z' || c = 'z' then pure 0
  else
    let hours ← digits 2 2
    char ':'
    let minutes ← digits 2 2
    require (hours < 24 && minutes < 60)
    let ahead : Int := (hours * 60 + minutes : Nat)
    pure (if c = '+' then ahead else -ahead)

def stamp : Reader Stamp := do
  let year ← digits 4 4
  char '-'
  let month ← digits 2 2
  char '-'
  let day ← digits 2 2
  let _ ← charIf fun c => c == 'T' || c == 't' || c == ' '
  let hour ← digits 2 2
  char ':'
  let minute ← digits 2 2
  char ':'
  let second ← digits 2 2
  let rest ← peek
  let nanos ← if rest.head? = some '.' then fraction else pure 0
  let ahead ← offset
  pure ⟨⟨year, month, day⟩, none, hour, minute, second, nanos, ahead⟩

def ofText? (s : String) : Option Instant := (all stamp s.toList).bind (·.instant?)

/-- A year as logs show it: four digits, or a sign and at least four. -/
def yearText (year : Int) : List Char :=
  if 0 ≤ year ∧ year ≤ 9999 then padded 4 year.toNat
  else (if year < 0 then '-' else '+') :: padded 4 year.natAbs

def fractionText (nanos : Nat) : List Char :=
  if nanos = 0 then []
  else if nanos % 1000000 = 0 then '.' :: padded 3 (nanos / 1000000)
  else if nanos % 1000 = 0 then '.' :: padded 6 (nanos / 1000)
  else '.' :: padded 9 nanos

/-- An instant as logs show it. -/
def chars (t : Instant) : List Char :=
  yearText t.date.year ++ ['-'] ++ padded 2 t.date.month ++ ['-'] ++ padded 2 t.date.day ++ ['T'] ++
    padded 2 t.hour ++ [':'] ++ padded 2 t.minute ++ [':'] ++
    padded 2 (if t.isLeap then t.second + 1 else t.second) ++
    fractionText (t.nanos % Duration.perSecond) ++ ['Z']

def text (t : Instant) : String := String.ofList (chars t)

end Rfc3339
end SignedHttp

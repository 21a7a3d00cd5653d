import SignedHttp.Codec.Base64
import SignedHttp.Error
import SignedHttp.Text.Blank
import SignedHttp.Time.HttpDate.Reader
import SignedHttp.Time.Rfc3339

/-!
# SignedHttp.Reading

Texts that are read into values, with an error for a text that has none.

`RetryAfter` reads the header of that name: a delay in seconds or a date. Either way it means an
instant that is not before the present; a date that has passed means the present, and a delay that
leads out of the range of instants means nothing. A number that 64 bits do not hold is no delay.
-/

namespace SignedHttp
namespace Reading

/-- A value, or an error about the text that should have had one. -/
def orFail {α : Type} (value : Option α) (cause : Error.Cause) : Except Error α :=
  match value with
  | some a => .ok a
  | none => fails cause

def base64 (s : String) : Except Error Bytes := orFail (Base64.decodeText? s) .notBase64

def httpDate (s : String) : Except Error Instant :=
  orFail (HttpDate.ofText? s) (.notHttpDate (Text.map Text.trim s))

def timestamp (s : String) : Except Error Instant := orFail (Rfc3339.ofText? s) (.notTimestamp s)

end Reading

namespace RetryAfter

/-- The digits of a number that may have one plus sign in front. -/
def unsigned : List Char → List Char
  | '+' :: rest => rest
  | s => s

/-- The number of seconds that a text gives, if it gives one. -/
def delay? (s : List Char) : Option Nat :=
  let digits := unsigned s
  if !digits.isEmpty && digits.all Char.isDigit then some (Text.number digits) else none

/-- The number of seconds that a text gives, if 64 bits hold it. -/
def seconds? (s : List Char) : Option Nat := (delay? s).filter (· < 18446744073709551616)

/-- The instant so many seconds later. They have to fit into a signed 64-bit word, to be no longer
than what can be scheduled, and to end within the range of instants. -/
def later? (secs : Nat) (now : Instant) : Option Instant :=
  if secs < 9223372036854775808 ∧ (Duration.ofSecs secs).Schedulable then
    now.add? (Duration.ofSecs secs)
  else none

/-- The instant from which a server may be called again, in its own words and as seen at `now`. -/
def resume? (text : String) (now : Instant) : Option Instant :=
  let s := Text.trim text.toList
  match seconds? s with
  | some secs => later? secs now
  | none => (HttpDate.ofChars? s).map (Instant.latest · now)

end RetryAfter
end SignedHttp

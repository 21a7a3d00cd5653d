import SignedHttp.Text.Extender
import SignedHttp.Text.Unprintable

/-!
# SignedHttp.Text.Quoted

Texts and lists as they are shown in logs. A text stands between double quotes; quotes, backslashes
and the usual controls are escaped by a backslash, and every other character that cannot be shown
on its own is written as its number in braces.
-/

namespace SignedHttp
namespace Text

def quoteChar (c : Char) : List Char :=
  if c = '"' then ['\\', '"']
  else if c = '\\' then ['\\', '\\']
  else if c = '\t' then ['\\', 't']
  else if c = '\n' then ['\\', 'n']
  else if c = '\r' then ['\\', 'r']
  else if c.toNat = 0 then ['\\', '0']
  else if isExtender c || isUnprintable c then
    ['\\', 'u', '\x7b'] ++ Nat.toDigits 16 c.toNat ++ ['\x7d']
  else [c]

def quote (s : String) : String :=
  String.ofList ('"' :: s.toList.flatMap quoteChar ++ ['"'])

def brackets (items : List String) : String := "[" ++ ", ".intercalate items ++ "]"

/-- A value that may be missing. -/
def optional (item : Option String) : String :=
  match item with
  | some s => "Some(" ++ s ++ ")"
  | none => "None"

/-- A record: its name, then its fields in braces. Without fields the name stands alone. -/
def record (name : String) (fields : List (String × String)) : String :=
  match fields with
  | [] => name
  | _ => name ++ " \x7b " ++ ", ".intercalate (fields.map fun (k, v) => k ++ ": " ++ v) ++ " \x7d"

end Text
end SignedHttp

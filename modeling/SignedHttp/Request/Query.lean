import SignedHttp.Text.Blank
import SignedHttp.Text.Percent
import SignedHttp.Text.Split

/-!
# SignedHttp.Request.Query

Query parameters in the form in which they are sent: pairs of a name and a value, both
percent-encoded. A raw query is cut at `&` into pieces, empty pieces are dropped, and a piece is cut
at its first `=`; written out again, a pair with an empty value is its name alone.
-/

namespace SignedHttp

/-- Names and values of query parameters, percent-encoded. -/
abbrev Query := List (String × String)

namespace Query

def ofPiece (piece : List Char) : String × String :=
  match Text.cut? '=' piece with
  | some (name, value) => (String.ofList name, String.ofList value)
  | none => (String.ofList piece, "")

/-- A raw query without the question mark it may start with. -/
def withoutMark : List Char → List Char
  | '?' :: rest => rest
  | s => s

def ofRaw (raw : List Char) : Query :=
  (((withoutMark raw).splitOn '&').filter fun piece => !piece.isEmpty).map ofPiece

def pairChars (pair : String × String) : List Char :=
  if pair.2.toList.isEmpty then pair.1.toList else pair.1.toList ++ '=' :: pair.2.toList

def chars (q : Query) : List Char := ['&'].intercalate (q.map pairChars)

/-- A parameter whose name and value are yet to be encoded. -/
def encoded (name value : String) : String × String :=
  (Text.map Percent.encode name, Text.map Percent.encode value)

def decoded (q : Query) : List (String × String) :=
  q.map fun (name, value) => (Text.map Percent.decode name, Text.map Percent.decode value)

/-- The number of bytes in all names and values. -/
def size (q : Query) : Nat :=
  q.foldl (fun n (name, value) => n + name.utf8ByteSize + value.utf8ByteSize) 0

end Query
end SignedHttp

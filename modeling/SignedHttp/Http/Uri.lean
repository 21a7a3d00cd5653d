import SignedHttp.Text.Split
import SignedHttp.Text.Utf8

/-!
# SignedHttp.Http.Uri

Absolute addresses of resources. `Uri.ofText` reads one from its text and says what is wrong with
a text that is none; `Target.ofChars` reads what follows the authority, the path and the query.
`Uri.text` writes an address; what stands after a `#` is dropped on reading and never written.
-/

namespace SignedHttp
namespace Uri

/-- What can be wrong with the text of an address. -/
inductive Fault
  | tooLong
  | empty
  | badCharacter
  | badAuthority
  | badFormat
  | schemeTooLong
  | noLeadingSlash
deriving DecidableEq, Repr

def Fault.message : Fault → String
  | .tooLong => "uri too long"
  | .empty => "empty string"
  | .badCharacter => "invalid uri character"
  | .badAuthority => "invalid authority"
  | .badFormat => "invalid format"
  | .schemeTooLong => "scheme too long"
  | .noLeadingSlash => "path does not start with slash"

/-- The most bytes that an address can have. -/
def maxLength : Nat := 65534

def isTooLong (s : List Char) : Bool := maxLength < (Utf8.encode s).length

end Uri

/-- The path and the query of an address. -/
structure Target where
  path : List Char
  query : Option (List Char) := none
deriving DecidableEq, Repr

namespace Target

def isPathChar (c : Char) : Bool :=
  let n := c.toNat
  n == 0x21 || (0x24 ≤ n && n ≤ 0x3B) || n == 0x3D || (0x40 ≤ n && n ≤ 0x5F) ||
    (0x61 ≤ n && n ≤ 0x7A) || n == 0x7C || n == 0x7E || n == 0x22 || n == 0x7B || n == 0x7D ||
    0x80 ≤ n

def isQueryChar (c : Char) : Bool :=
  let n := c.toNat
  n == 0x21 || (0x24 ≤ n && n ≤ 0x3B) || n == 0x3D || (0x3F ≤ n && n ≤ 0x7E) || 0x80 ≤ n

def endsPath (c : Char) : Bool := c == '?' || c == '#'

/-- The path with a slash in place of nothing. -/
def rooted (path : List Char) : List Char := if path.isEmpty then ['/'] else path

/-- The path and the query that a text consists of, apart from how it begins. -/
def scan (s : List Char) : Except Uri.Fault Target :=
  let path := s.takeWhile (!endsPath ·)
  if !path.all isPathChar then .error .badCharacter
  else
    match s.dropWhile (!endsPath ·) with
    | '?' :: more =>
      let query := more.takeWhile (· != '#')
      if query.all isQueryChar then .ok ⟨rooted path, some query⟩ else .error .badCharacter
    | _ => .ok ⟨rooted path, none⟩

/-- The path and the query of a text that begins as a path, a query or a fragment does, or is `*`
alone. -/
def ofChars (s : List Char) : Except Uri.Fault Target :=
  if Uri.isTooLong s then .error .tooLong
  else
    match s with
    | [] => .error .empty
    | c :: rest =>
      if c == '/' || endsPath c || (c == '*' && rest.isEmpty) then scan s
      else .error .noLeadingSlash

def chars (t : Target) : List Char :=
  match t.query with
  | some q => t.path ++ '?' :: q
  | none => t.path

end Target

/-- The address of a resource. A text without scheme or authority can be read as one too. -/
structure Uri where
  scheme : Option (List Char) := none
  authority : Option (List Char) := none
  target : Target
deriving DecidableEq, Repr

namespace Uri

/-- A character that an authority may hold, the percent sign apart. -/
def isAuthorityChar (c : Char) : Bool := c.isAlphanum || "!$&'()*+,-.:;=@_~[]".toList.contains c

/-- What has been seen of an authority from the left. -/
structure Scan where
  /-- Colons since the last `@` or `]`. -/
  colons : Nat := 0
  opened : Bool := false
  closed : Bool := false
  /-- A percent sign since the last `@` or `]`. -/
  percent : Bool := false
  /-- The last character is an `@`. -/
  atSign : Bool := false
deriving DecidableEq, Repr

def Scan.step (s : Scan) (c : Char) : Except Fault Scan :=
  let s := { s with atSign := false }
  if c = ':' then
    if 8 ≤ s.colons then .error .badAuthority else .ok { s with colons := s.colons + 1 }
  else if c = '[' then
    if s.percent || s.opened then .error .badAuthority else .ok { s with opened := true }
  else if c = ']' then
    if !s.opened || s.closed then .error .badAuthority
    else .ok { s with closed := true, colons := 0, percent := false }
  else if c = '@' then .ok { s with colons := 0, percent := false, atSign := true }
  else if c = '%' then .ok { s with percent := true }
  else if isAuthorityChar c then .ok s
  else .error .badCharacter

/-- Whether an authority may end here: brackets closed, at most one colon after the host, no `@` at
the end and no percent sign in the name of the host. -/
def Scan.isComplete (s : Scan) : Bool :=
  s.opened == s.closed && s.colons ≤ 1 && !s.atSign && !s.percent

def checkAuthority (s : List Char) : Except Fault Unit := do
  let seen ← s.foldlM Scan.step {}
  if seen.isComplete then .ok () else .error .badAuthority

def endsAuthority (c : Char) : Bool := c == '/' || c == '?' || c == '#'

def isSchemeChar (c : Char) : Bool := c.isAlphanum || c == '+' || c == '-' || c == '.' || c == '~'

/-- The scheme in front of a text, if there is one, and the rest. The two common schemes may be
written in any case and are kept in lowercase; any other is kept as written. -/
def splitScheme (s : List Char) : Except Fault (Option (List Char) × List Char) :=
  if (s.take 7).map Char.toLower = "http://".toList then .ok (some "http".toList, s.drop 7)
  else if (s.take 8).map Char.toLower = "https://".toList then .ok (some "https".toList, s.drop 8)
  else if 3 < s.length then
    match Text.cut? ':' s with
    | some (name, '/' :: '/' :: rest) =>
      if name.all isSchemeChar then
        if 64 < name.length then .error .schemeTooLong else .ok (some name, rest)
      else .ok (none, s)
    | _ => .ok (none, s)
  else .ok (none, s)

/-- An address that starts with a scheme or an authority. -/
def ofAuthority (s : List Char) : Except Fault Uri := do
  let (scheme, s) ← splitScheme s
  if s.isEmpty then .error .empty
  let authority := s.takeWhile (!endsAuthority ·)
  let rest := s.dropWhile (!endsAuthority ·)
  checkAuthority authority
  match scheme with
  | none =>
    if rest.isEmpty then .ok { authority := some authority, target := ⟨['/'], none⟩ }
    else .error .badFormat
  | some _ =>
    if authority.isEmpty then .error .badFormat
    else
      let target ← Target.scan rest
      .ok { scheme, authority := some authority, target }

/-- The address that a text is. -/
def ofChars (s : List Char) : Except Fault Uri :=
  if isTooLong s then .error .tooLong
  else
    match s with
    | [] => .error .empty
    | '/' :: _ => do
      let target ← Target.scan s
      .ok { target }
    | ['*'] => .ok { target := ⟨['*'], none⟩ }
    | [c] => do
      if endsAuthority c then .error .badCharacter
      checkAuthority [c]
      .ok { authority := some [c], target := ⟨['/'], none⟩ }
    | _ => ofAuthority s

def ofText (s : String) : Except Fault Uri := ofChars s.toList

/-- The scheme and the authority as they stand at the front of an address. -/
def originChars (u : Uri) : List Char :=
  (match u.scheme with
    | some scheme => scheme ++ "://".toList
    | none => []) ++ u.authority.getD []

def text (u : Uri) : String := String.ofList (u.originChars ++ u.target.chars)

end Uri
end SignedHttp

import SignedHttp.Text.Ascending
import SignedHttp.Text.Blank
import SignedHttp.Text.Utf8

/-!
# SignedHttp.Http.Header

Methods and header fields. Methods and names are made of the same characters, the token characters
of HTTP; a method keeps the case of its letters, a name is kept in lowercase. A value is made of
bytes, any but those of controls, and need not be text. Only one of visible ASCII, spaces and tabs
can be read (`Header.Value.text?`). `Headers` keeps its fields in the order in which they were
added; of several fields with one name the order matters, of fields with different names it does
not.
-/

namespace SignedHttp

/-- A character of which methods and header names are made. -/
def isTokenChar (c : Char) : Bool := c.isAlphanum || "!#$%&'*+-.^_`|~".toList.contains c

def isMethod (s : List Char) : Bool := !s.isEmpty && s.all isTokenChar

structure Method where
  text : String
  legal : isMethod text.toList = true
deriving DecidableEq, Repr

def Method.ofText? (s : String) : Option Method :=
  if h : isMethod s.toList = true then some ⟨s, h⟩ else none

namespace Header

def isName (s : List Char) : Bool :=
  !s.isEmpty && s.length ≤ 65535 && s.all fun c => isTokenChar c && c.toLower == c

structure Name where
  text : String
  legal : isName text.toList = true
deriving DecidableEq, Repr

/-- The name that a text gives in any case, if it can be one. -/
def Name.ofText? (s : String) : Option Name :=
  let lower := Text.map (·.map Char.toLower) s
  if h : isName lower.toList = true then some ⟨lower, h⟩ else none

/-- A byte that a header value may hold: a tab, or anything that is no control. -/
def isValueByte (b : UInt8) : Bool := b == 0x09 || (0x20 ≤ b && b != 0x7F)

/-- A byte that can be read back from a header value. -/
def isVisibleByte (b : UInt8) : Bool := b == 0x09 || (0x20 ≤ b && b ≤ 0x7E)

/-- A character that a text may have that is to become a header value. -/
def isValueChar (c : Char) : Bool := c == '\t' || (0x20 ≤ c.toNat && c.toNat != 0x7F)

/-- The value of a header field. A sensitive value is one that should not be shown. -/
structure Value where
  bytes : Bytes
  sensitive : Bool := false
  legal : bytes.all isValueByte = true
deriving DecidableEq, Repr

namespace Value

/-- The value with the bytes of a text. -/
def ofText (s : String) (legal : (Utf8.encode s.toList).all isValueByte = true) : Value where
  bytes := Utf8.encode s.toList
  legal := legal

def ofText? (s : String) : Option Value :=
  if h : (Utf8.encode s.toList).all isValueByte = true then some (ofText s h) else none

def secret (v : Value) : Value := { v with sensitive := true }

/-- The bytes of a value as text, if all of them can be read. -/
def text? (v : Value) : Option String :=
  if v.bytes.all isVisibleByte then some (String.ofList (v.bytes.map fun b => Char.ofNat b.toNat))
  else none

/-- A value as it is shown, whatever its bytes are. -/
def content (v : Value) : String := String.ofList (Utf8.decode v.bytes)

end Value

theorem eq_tab_iff {c : Char} : c = '\t' ↔ c.toNat = 0x09 :=
  ⟨fun h => by rw [h]; rfl, fun h => by rw [← Char.ofNat_toNat c, h]⟩

/-- Of the characters beyond ASCII a value may hold all, as it may hold all bytes beyond ASCII. -/
theorem all_utf8EncodeChar (c : Char) :
    (String.utf8EncodeChar c).all isValueByte = isValueChar c := by
  by_cases ascii : c.toNat ≤ 0x7F
  · have byte := Utf8.toNat_ofNat (n := c.toNat) (by omega)
    rw [Utf8.utf8EncodeChar_of_ascii ascii, Bool.eq_iff_iff]
    simp [isValueByte, isValueChar, eq_tab_iff, UInt8.le_iff_toNat_le, ← UInt8.toNat_inj, byte]
  · have beyond : isValueChar c = true := by
      simp only [isValueChar, Bool.or_eq_true, Bool.and_eq_true, decide_eq_true_eq, bne_iff_ne]
      right
      omega
    rw [beyond, List.all_eq_true]
    intro b hb
    have high := Utf8.high_of_mem_utf8EncodeChar (by omega) hb
    simp only [isValueByte, Bool.or_eq_true, Bool.and_eq_true, decide_eq_true_eq, bne_iff_ne,
      UInt8.le_iff_toNat_le, ne_eq, ← UInt8.toNat_inj, UInt8.reduceToNat]
    omega

theorem all_encode (s : List Char) : (Utf8.encode s).all isValueByte = s.all isValueChar := by
  rw [Utf8.encode, List.all_flatMap]
  congr 1
  funext c
  exact all_utf8EncodeChar c

def authorization : Name := ⟨"authorization", by decide⟩
def contentEncoding : Name := ⟨"content-encoding", by decide⟩
def contentLanguage : Name := ⟨"content-language", by decide⟩
def contentLength : Name := ⟨"content-length", by decide⟩
def contentMd5 : Name := ⟨"content-md5", by decide⟩
def contentType : Name := ⟨"content-type", by decide⟩
def date : Name := ⟨"date", by decide⟩
def ifMatch : Name := ⟨"if-match", by decide⟩
def ifModifiedSince : Name := ⟨"if-modified-since", by decide⟩
def ifNoneMatch : Name := ⟨"if-none-match", by decide⟩
def ifUnmodifiedSince : Name := ⟨"if-unmodified-since", by decide⟩
def range : Name := ⟨"range", by decide⟩
def retryAfter : Name := ⟨"retry-after", by decide⟩

end Header

/-- The header fields of a message, in the order they were added. -/
structure Headers where
  fields : List (Header.Name × Header.Value) := []
deriving DecidableEq, Repr

namespace Headers

open Header

def empty : Headers := {}

def values (h : Headers) (name : Name) : List Value :=
  (h.fields.filter fun f => f.1 = name).map (·.2)

def first? (h : Headers) (name : Name) : Option Value := (h.values name).head?

def last? (h : Headers) (name : Name) : Option Value := (h.values name).getLast?

def contains (h : Headers) (name : Name) : Bool := (h.first? name).isSome

/-- One more value of a name, after those it has. -/
def add (h : Headers) (name : Name) (value : Value) : Headers := ⟨h.fields ++ [(name, value)]⟩

/-- One value of a name, in place of all it has. -/
def set (h : Headers) (name : Name) (value : Value) : Headers :=
  ⟨(h.fields.filter fun f => f.1 ≠ name) ++ [(name, value)]⟩

/-- The names in ascending order, each with its values. -/
def byName (h : Headers) : List (String × List Value) :=
  Ascending.collect (h.fields.map fun f => (f.1.text, f.2))

/-- The names with a sensitive value, in ascending order. -/
def sensitiveNames (h : Headers) : List String :=
  Ascending.ofList ((h.fields.filter fun f => f.2.sensitive).map fun f => f.1.text)

@[simp] theorem values_add_self (h : Headers) (name : Name) (value : Value) :
    (h.add name value).values name = h.values name ++ [value] := by
  simp [values, add]

@[simp] theorem values_set_self (h : Headers) (name : Name) (value : Value) :
    (h.set name value).values name = [value] := by
  simp [values, set, List.filter_filter]

theorem values_set_of_ne (h : Headers) {name other : Name} (value : Value) (ne : other ≠ name) :
    (h.set name value).values other = h.values other := by
  have same : (fun f : Name × Value => decide (f.1 = other) && decide (f.1 ≠ name)) =
      fun f => decide (f.1 = other) := by
    funext f
    by_cases hf : f.1 = other
    · simp [hf, ne]
    · simp [hf]
  simp only [values, set, List.filter_append, List.filter_filter, same]
  simp [Ne.symm ne]

end Headers
end SignedHttp

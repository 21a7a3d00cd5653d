/-!
# SignedHttp.Text.Blank

White space and trimming. A character is blank when it has the Unicode property `White_Space`;
trimming removes the longest blank stretch at an end of a text and nothing else. Properties that
more characters have are given as lists of code point ranges (`inRanges`), in the form in which the
Unicode character database has them; the modules beside this one hold such lists.

Texts are handled as lists of characters here and in the modules beside this one; `Text.map`
carries such a function over to `String`.
-/

namespace SignedHttp
namespace Text

/-- Whether a character lies in one of the ranges; both ends of a range belong to it. -/
def inRanges (ranges : List (Nat × Nat)) (c : Char) : Bool :=
  ranges.any fun (low, high) => low ≤ c.toNat && c.toNat ≤ high

/-- The characters with the Unicode property `White_Space`. -/
def isBlank (c : Char) : Bool :=
  let n := c.toNat
  (0x09 ≤ n && n ≤ 0x0D) || n == 0x20 || n == 0x85 || n == 0xA0 || n == 0x1680 ||
    (0x2000 ≤ n && n ≤ 0x200A) || n == 0x2028 || n == 0x2029 || n == 0x202F || n == 0x205F ||
    n == 0x3000

def trimStart (s : List Char) : List Char := s.dropWhile isBlank

def trimEnd (s : List Char) : List Char := (s.reverse.dropWhile isBlank).reverse

def trim (s : List Char) : List Char := trimEnd (trimStart s)

/-- A function on lists of characters, as a function on strings. -/
def map (f : List Char → List Char) (s : String) : String := String.ofList (f s.toList)

@[simp] theorem toList_map (f : List Char → List Char) (s : String) :
    (map f s).toList = f s.toList := String.toList_ofList

end Text
end SignedHttp

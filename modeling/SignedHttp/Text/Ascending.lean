/-!
# SignedHttp.Text.Ascending

Strictly ascending lists of texts, which stand for finite sets, and texts grouped by a key. Order is
that of the code points. `Ascending.ofList` sorts a list and drops what occurs again;
`Ascending.groups` collects the values of each key.
-/

namespace SignedHttp
namespace Ascending

/-- Puts a text in its place in an ascending list, unless it is there. -/
def insert (x : String) : List String → List String
  | [] => [x]
  | y :: ys => if x < y then x :: y :: ys else if x = y then y :: ys else y :: insert x ys

/-- The texts of a list in ascending order, each once. -/
def ofList (xs : List String) : List String := xs.foldr insert []

/-- The second parts of the pairs with a given first part. -/
def valuesOf {α : Type} (key : String) (pairs : List (String × α)) : List α :=
  (pairs.filter fun p => p.1 == key).map (·.2)

/-- For each key in ascending order its values, in the order they come in. -/
def collect {α : Type} (pairs : List (String × α)) : List (String × List α) :=
  (ofList (pairs.map (·.1))).map fun key => (key, valuesOf key pairs)

/-- For each key in ascending order its values, in ascending order too. -/
def groups (pairs : List (String × String)) : List (String × List String) :=
  (collect pairs).map fun (key, values) => (key, ofList values)

@[simp] theorem mem_insert {x y : String} {xs : List String} :
    y ∈ insert x xs ↔ y = x ∨ y ∈ xs := by
  induction xs with
  | nil => simp [insert]
  | cons z zs ih =>
    simp only [insert]
    split
    · simp
    · split
      · rename_i h
        subst h
        simp
      · simp only [List.mem_cons, ih]
        exact or_left_comm

@[simp] theorem mem_ofList {y : String} {xs : List String} : y ∈ ofList xs ↔ y ∈ xs := by
  induction xs with
  | nil => simp [ofList]
  | cons x xs ih =>
    rw [ofList, List.foldr_cons, mem_insert]
    change y = x ∨ y ∈ ofList xs ↔ _
    rw [ih, List.mem_cons]

end Ascending
end SignedHttp

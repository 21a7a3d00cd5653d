import Mathlib.Data.List.Sort
import SignedHttp.Http.Header

/-!
# SignedHttp.Proofs.Text.Ascending

`Ascending.ofList` is strictly ascending, so what it makes of some of the texts is what it makes of
all of them without the others (`filter_ofList`), and only the set of the texts matters
(`ofList_congr`, `groups_congr`); what is in the groups is what was in the pairs
(`exists_mem_groups`). Headers by name are therefore no different, as far as some names go, when a
header with another name is set (`Headers.filter_byName_set`).
-/

namespace SignedHttp
namespace Ascending

theorem lt_of_not_lt {x y : String} (h : ¬ x < y) (ne : x ≠ y) : y < x := by
  by_cases hlt : y < x
  · exact hlt
  · exact absurd (String.le_antisymm (String.not_lt.1 hlt) (String.not_lt.1 h)) ne

theorem pairwise_insert (x : String) {xs : List String} (h : xs.Pairwise (· < ·)) :
    (insert x xs).Pairwise (· < ·) := by
  induction xs with
  | nil => simp [insert]
  | cons y ys ih =>
    obtain ⟨hy, hys⟩ := List.pairwise_cons.1 h
    unfold insert
    by_cases hlt : x < y
    · rw [if_pos hlt, List.pairwise_cons]
      refine ⟨fun z hz => ?_, h⟩
      rcases List.mem_cons.1 hz with rfl | hz
      · exact hlt
      · exact String.lt_trans hlt (hy z hz)
    · rw [if_neg hlt]
      by_cases heq : x = y
      · rw [if_pos heq]
        exact h
      · rw [if_neg heq, List.pairwise_cons]
        refine ⟨fun z hz => ?_, ih hys⟩
        rcases mem_insert.1 hz with rfl | hz
        · exact lt_of_not_lt hlt heq
        · exact hy z hz

theorem pairwise_ofList (xs : List String) : (ofList xs).Pairwise (· < ·) := by
  induction xs with
  | nil => exact List.Pairwise.nil
  | cons x xs ih => exact pairwise_insert x ih

theorem insert_of_forall_lt {x : String} {xs : List String} (h : ∀ y ∈ xs, x < y) :
    insert x xs = x :: xs := by
  cases xs with
  | nil => rfl
  | cons y ys => rw [insert, if_pos (h y List.mem_cons_self)]

theorem filter_insert (p : String → Bool) (x : String) {xs : List String}
    (h : xs.Pairwise (· < ·)) :
    (insert x xs).filter p = if p x = true then insert x (xs.filter p) else xs.filter p := by
  induction xs with
  | nil => by_cases hx : p x = true <;> simp [insert, hx]
  | cons y ys ih =>
    obtain ⟨hy, hys⟩ := List.pairwise_cons.1 h
    rw [insert]
    by_cases hlt : x < y
    · have later : ∀ z ∈ (y :: ys).filter p, x < z := by
        intro z hz
        rcases List.mem_cons.1 (List.mem_filter.1 hz).1 with rfl | hz
        · exact hlt
        · exact String.lt_trans hlt (hy z hz)
      rw [if_pos hlt, List.filter_cons, insert_of_forall_lt later]
    · rw [if_neg hlt]
      by_cases heq : x = y
      · rw [if_pos heq]
        subst heq
        by_cases hx : p x = true
        · rw [if_pos hx, List.filter_cons_of_pos hx, insert, if_neg (String.lt_irrefl x),
            if_pos rfl]
        · rw [if_neg hx]
      · rw [if_neg heq, List.filter_cons, List.filter_cons, ih hys]
        by_cases hp : p y = true <;> by_cases hx : p x = true <;> simp [hp, hx, insert, hlt, heq]

theorem filter_ofList (p : String → Bool) (xs : List String) :
    (ofList xs).filter p = ofList (xs.filter p) := by
  induction xs with
  | nil => rfl
  | cons x xs ih =>
    show (insert x (ofList xs)).filter p = _
    rw [filter_insert p x (pairwise_ofList xs), ih, List.filter_cons]
    by_cases hx : p x = true <;> simp [hx, ofList]

theorem valuesOf_filter {α : Type} (p : String → Bool) (pairs : List (String × α)) {key : String}
    (h : p key = true) : valuesOf key (pairs.filter fun e => p e.1) = valuesOf key pairs := by
  have same : (fun e : String × α => (e.1 == key) && p e.1) = fun e => e.1 == key := by
    funext e
    by_cases he : e.1 = key
    · simp [he, h]
    · simp [he]
  rw [valuesOf, List.filter_filter, same]
  rfl

theorem filter_collect {α : Type} (p : String → Bool) (pairs : List (String × α)) :
    (collect pairs).filter (fun e => p e.1) = collect (pairs.filter fun e => p e.1) := by
  have keys : (ofList (pairs.map (·.1))).filter p =
      ofList ((pairs.filter fun e => p e.1).map (·.1)) := by
    rw [filter_ofList, List.filter_map]
    rfl
  show ((ofList (pairs.map (·.1))).map _).filter _ = _
  rw [List.filter_map]
  show ((ofList (pairs.map (·.1))).filter p).map _ = _
  rw [keys]
  refine List.map_congr_left fun key hkey => ?_
  obtain ⟨e, he, rfl⟩ := List.mem_map.1 (mem_ofList.1 hkey)
  rw [valuesOf_filter p pairs (List.mem_filter.1 he).2]

theorem ofList_congr {xs ys : List String} (h : ∀ x, x ∈ xs ↔ x ∈ ys) : ofList xs = ofList ys := by
  refine (pairwise_ofList xs).eq_of_mem_iff (pairwise_ofList ys) fun x => ?_
  rw [mem_ofList, mem_ofList]
  exact h x

@[simp] theorem mem_valuesOf {α : Type} {key : String} {value : α} {pairs : List (String × α)} :
    value ∈ valuesOf key pairs ↔ (key, value) ∈ pairs := by
  simp [valuesOf]

theorem groups_congr {ps qs : List (String × String)} (h : ∀ p, p ∈ ps ↔ p ∈ qs) :
    groups ps = groups qs := by
  have keys : ofList (ps.map (·.1)) = ofList (qs.map (·.1)) := by
    refine ofList_congr fun key => ?_
    simp [h]
  have values (key : String) : ofList (valuesOf key ps) = ofList (valuesOf key qs) := by
    refine ofList_congr fun value => ?_
    rw [mem_valuesOf, mem_valuesOf, h]
  simp only [groups, collect, keys, List.map_map, Function.comp_def, values]

/-! ## What is in the groups -/

theorem map_fst_groups (ps : List (String × String)) :
    (groups ps).map (·.1) = ofList (ps.map (·.1)) := by
  simp [groups, collect, Function.comp_def]

theorem mem_groups {ps : List (String × String)} {key : String} {values : List String} :
    (key, values) ∈ groups ps ↔
      key ∈ ps.map (·.1) ∧ values = ofList (valuesOf key ps) := by
  unfold groups collect
  rw [List.map_map, List.mem_map]
  constructor
  · rintro ⟨k, hk, heq⟩
    cases heq
    exact ⟨mem_ofList.1 hk, rfl⟩
  · rintro ⟨hk, rfl⟩
    exact ⟨key, mem_ofList.2 hk, rfl⟩

/-- A value is in the group of a key if and only if the two are one of the pairs. -/
theorem exists_mem_groups {ps : List (String × String)} {key value : String} :
    (∃ values, (key, values) ∈ groups ps ∧ value ∈ values) ↔ (key, value) ∈ ps := by
  constructor
  · rintro ⟨values, hvalues, hvalue⟩
    obtain ⟨-, rfl⟩ := mem_groups.1 hvalues
    rwa [mem_ofList, mem_valuesOf] at hvalue
  · intro h
    refine ⟨_, mem_groups.2 ⟨List.mem_map.2 ⟨(key, value), h, rfl⟩, rfl⟩, ?_⟩
    rwa [mem_ofList, mem_valuesOf]

theorem ne_nil_of_mem_groups {ps : List (String × String)} {key : String} {values : List String}
    (h : (key, values) ∈ groups ps) : values ≠ [] := by
  obtain ⟨hkey, rfl⟩ := mem_groups.1 h
  obtain ⟨⟨_, value⟩, hpair, rfl⟩ := List.mem_map.1 hkey
  exact List.ne_nil_of_mem (mem_ofList.2 (mem_valuesOf.2 hpair))

end Ascending

namespace Headers

open Header

theorem filter_byName_set (p : String → Bool) (h : Headers) {name : Name} (value : Value)
    (hp : p name.text = false) :
    (h.set name value).byName.filter (fun e => p e.1) = h.byName.filter fun e => p e.1 := by
  have fields : ((h.set name value).fields.map fun f => (f.1.text, f.2)).filter (fun e => p e.1) =
      (h.fields.map fun f => (f.1.text, f.2)).filter fun e => p e.1 := by
    have same : (fun f : Name × Value => p f.1.text && decide (f.1 ≠ name)) =
        fun f => p f.1.text := by
      funext f
      by_cases hf : f.1 = name
      · simp [hf, hp]
      · simp [hf]
    rw [List.filter_map, List.filter_map, set, List.filter_append, List.filter_filter]
    simp [Function.comp_def, hp, ← same]
  rw [byName, Ascending.filter_collect, fields, ← Ascending.filter_collect]
  rfl

end Headers
end SignedHttp

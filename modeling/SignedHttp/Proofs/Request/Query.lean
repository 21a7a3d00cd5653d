import SignedHttp.Proofs.Text.Percent
import SignedHttp.Request.Query

/-!
# SignedHttp.Proofs.Request.Query

What a server makes of the parameters of a query (`ofRaw_chars`). The names and values that raw
queries and encoded parameters give hold none of the characters at which they would end on the wire
(`Plain`), so they come back as they are, with two exceptions, which `Query.received` spells out: a
question mark in front of the first name is taken for the one that starts a query, and a parameter
without name and value leaves nothing between its separators.
-/

namespace SignedHttp
namespace Query

open Text

/-- A parameter whose name and value hold no character that would end them. -/
structure Plain (pair : String × String) : Prop where
  name : ∀ c ∈ pair.1.toList, c ≠ '&' ∧ c ≠ '=' ∧ c ≠ '#'
  value : ∀ c ∈ pair.2.toList, c ≠ '&' ∧ c ≠ '#'

/-- The parameters that are read where some are sent. -/
def received : Query → Query
  | [] => []
  | (name, value) :: rest => ((map withoutMark name, value) :: rest).filter (· ≠ ("", ""))

theorem withoutMark_eq_self {s : List Char} (h : s.head? ≠ some '?') : withoutMark s = s := by
  unfold withoutMark
  split
  · exact absurd rfl h
  · rfl

/-- Without an empty parameter and a question mark in front nothing is lost. -/
theorem received_eq_self {q : Query} (h : ("", "") ∉ q)
    (h' : ∀ pair, q.head? = some pair → pair.1.toList.head? ≠ some '?') : received q = q := by
  cases q with
  | nil => rfl
  | cons pair rest =>
    obtain ⟨name, value⟩ := pair
    have hname : map withoutMark name = name := by
      rw [map, withoutMark_eq_self (h' (name, value) rfl), String.ofList_toList]
    rw [received, hname, List.filter_eq_self]
    intro pair hpair
    have hne : pair ≠ ("", "") := fun heq => h (heq ▸ hpair)
    simpa using hne

/-! ## Where parameters come from -/

theorem of_mem_splitOn {sep : Char} {raw piece : List Char} (h : piece ∈ raw.splitOn sep) :
    ∀ c ∈ piece, c ∈ raw ∧ c ≠ sep := by
  induction raw generalizing piece with
  | nil =>
    rw [List.splitOn_nil, List.mem_singleton] at h
    rw [h]
    simp
  | cons x raw ih =>
    have later {piece : List Char} (hp : piece ∈ raw.splitOn sep) :
        ∀ c ∈ piece, c ∈ x :: raw ∧ c ≠ sep := fun c hc =>
      ⟨List.mem_cons_of_mem x (ih hp c hc).1, (ih hp c hc).2⟩
    rw [List.splitOn_cons_eq_if_modifyHead] at h
    by_cases hx : x = sep
    · rw [if_pos (by simpa using hx)] at h
      rcases List.mem_cons.1 h with rfl | h
      · simp
      · exact later h
    · rw [if_neg (by simpa using hx)] at h
      cases hs : raw.splitOn sep with
      | nil => exact absurd hs (List.splitOn_ne_nil sep raw)
      | cons first rest =>
        rw [hs, List.modifyHead_cons] at h
        rcases List.mem_cons.1 h with rfl | h
        · intro c hc
          rcases List.mem_cons.1 hc with rfl | hc
          · exact ⟨List.mem_cons_self, hx⟩
          · exact later (by simp [hs]) c hc
        · exact later (by simp [hs, h])

theorem plain_ofPiece {piece : List Char} (h : ∀ c ∈ piece, c ≠ '&' ∧ c ≠ '#') :
    Plain (ofPiece piece) := by
  unfold ofPiece
  cases hc : cut? '=' piece with
  | none =>
    have noEquals := cut?_eq_none_iff.1 hc
    refine ⟨fun c hmem => ?_, by simp⟩
    rw [String.toList_ofList] at hmem
    exact ⟨(h c hmem).1, fun heq => noEquals (heq ▸ hmem), (h c hmem).2⟩
  | some parts =>
    obtain ⟨name, value⟩ := parts
    obtain ⟨rfl, noEquals⟩ := cut?_eq_some_iff.1 hc
    refine ⟨fun c hmem => ?_, fun c hmem => ?_⟩
    · rw [String.toList_ofList] at hmem
      have hc := h c (by simp [hmem])
      exact ⟨hc.1, fun heq => noEquals (heq ▸ hmem), hc.2⟩
    · rw [String.toList_ofList] at hmem
      exact h c (by simp [hmem])

theorem mem_of_mem_withoutMark {s : List Char} {c : Char} (h : c ∈ withoutMark s) : c ∈ s := by
  unfold withoutMark at h
  split at h
  · exact List.mem_cons_of_mem _ h
  · exact h

theorem plain_ofRaw {raw : List Char} (h : '#' ∉ raw) : ∀ pair ∈ ofRaw raw, Plain pair := by
  intro pair hpair
  obtain ⟨piece, hpiece, rfl⟩ := List.mem_map.1 hpair
  have hsplit := of_mem_splitOn (List.mem_filter.1 hpiece).1
  refine plain_ofPiece fun c hc => ⟨(hsplit c hc).2, fun heq => ?_⟩
  rw [heq] at hc
  exact h (mem_of_mem_withoutMark (hsplit '#' hc).1)

theorem of_mem_encode {s : List Char} {c : Char} (h : c ∈ Percent.encode s) :
    c ≠ '&' ∧ c ≠ '=' ∧ c ≠ '#' := by
  rcases Percent.of_mem_encode h with hc | rfl
  · refine ⟨?_, ?_, ?_⟩ <;> rintro rfl <;> revert hc <;> decide
  · decide

theorem plain_encoded (name value : String) : Plain (encoded name value) := by
  refine ⟨fun c hc => ?_, fun c hc => ?_⟩
  · rw [encoded, toList_map] at hc
    exact of_mem_encode hc
  · rw [encoded, toList_map] at hc
    exact ⟨(of_mem_encode hc).1, (of_mem_encode hc).2.2⟩

/-! ## There and back -/

theorem ofPiece_pairChars {pair : String × String} (h : Plain pair) :
    ofPiece (pairChars pair) = pair := by
  obtain ⟨name, value⟩ := pair
  have noEquals : '=' ∉ name.toList := fun hmem => (h.name '=' hmem).2.1 rfl
  unfold ofPiece pairChars
  by_cases hv : value.toList.isEmpty = true
  · have hempty : value = "" := by
      rw [← String.toList_inj]
      simpa using hv
    rw [if_pos hv, cut?_eq_none_iff.2 noEquals]
    simp [hempty]
  · rw [if_neg hv, cut?_append noEquals]
    simp

theorem pairChars_eq_nil {pair : String × String} : pairChars pair = [] ↔ pair = ("", "") := by
  obtain ⟨name, value⟩ := pair
  have toList_nil (s : String) : s.toList = [] ↔ s = "" := by
    rw [← String.toList_inj]
    rfl
  unfold pairChars
  by_cases hv : value.toList = []
  · simp [toList_nil, (toList_nil value).1 hv]
  · have hne : value ≠ "" := fun heq => hv ((toList_nil value).2 heq)
    simp [hv, hne]

theorem notMem_pairChars {pair : String × String} (h : Plain pair) : '&' ∉ pairChars pair := by
  have name : '&' ∉ pair.1.toList := fun hmem => (h.name '&' hmem).1 rfl
  have value : '&' ∉ pair.2.toList := fun hmem => (h.value '&' hmem).1 rfl
  unfold pairChars
  split
  · exact name
  · simp [name, value]

theorem mem_intercalate {c sep : Char} {pieces : List (List Char)}
    (h : c ∈ [sep].intercalate pieces) : c = sep ∨ ∃ piece ∈ pieces, c ∈ piece := by
  induction pieces with
  | nil => simp [List.intercalate_nil] at h
  | cons piece pieces ih =>
    cases pieces with
    | nil =>
      rw [List.intercalate_singleton] at h
      exact .inr ⟨piece, List.mem_cons_self, h⟩
    | cons next rest =>
      rw [List.intercalate_cons_cons, List.mem_append, List.mem_append, List.mem_singleton] at h
      rcases h with (h | h) | h
      · exact .inr ⟨piece, List.mem_cons_self, h⟩
      · exact .inl h
      · rcases ih h with heq | ⟨piece', hpiece', hc⟩
        · exact .inl heq
        · exact .inr ⟨piece', List.mem_cons_of_mem _ hpiece', hc⟩

theorem notMem_chars {q : Query} (h : ∀ pair ∈ q, Plain pair) : '#' ∉ chars q := by
  intro hmem
  rcases mem_intercalate hmem with heq | ⟨piece, hpiece, hc⟩
  · revert heq
    decide
  · obtain ⟨pair, hpair, rfl⟩ := List.mem_map.1 hpiece
    have name : '#' ∉ pair.1.toList := fun hmem => ((h pair hpair).name '#' hmem).2.2 rfl
    have value : '#' ∉ pair.2.toList := fun hmem => ((h pair hpair).value '#' hmem).2 rfl
    unfold pairChars at hc
    split at hc
    · exact name hc
    · simp [name, value] at hc

theorem withoutMark_append (s : List Char) {rest : List Char} (h : rest.head? ≠ some '?') :
    withoutMark (s ++ rest) = withoutMark s ++ rest := by
  cases s with
  | nil => exact withoutMark_eq_self h
  | cons c s =>
    by_cases hc : c = '?'
    · subst hc
      rfl
    · simp [withoutMark, hc]

/-- What follows the name of the first parameter on the wire does not depend on the name. -/
theorem exists_intercalate_eq (value : String) (pieces : List (List Char)) :
    ∃ rest : List Char, rest.head? ≠ some '?' ∧ ∀ name,
      ['&'].intercalate (pairChars (name, value) :: pieces) = name.toList ++ rest := by
  have first : ∃ rest : List Char, rest.head? ≠ some '?' ∧
      ∀ name, pairChars (name, value) = name.toList ++ rest := by
    by_cases hv : value.toList.isEmpty = true
    · exact ⟨[], by simp, fun name => by simp [pairChars, hv]⟩
    · exact ⟨'=' :: value.toList, by simp, fun name => by simp [pairChars, hv]⟩
  obtain ⟨rest, hrest, hpair⟩ := first
  cases pieces with
  | nil => exact ⟨rest, hrest, fun name => by rw [List.intercalate_singleton, hpair]⟩
  | cons next more =>
    refine ⟨rest ++ '&' :: ['&'].intercalate (next :: more), ?_, fun name => ?_⟩
    · cases rest with
      | nil => simp
      | cons c rest => simpa using hrest
    · rw [List.intercalate_cons_cons, hpair]
      simp

/-- A question mark in front of what is sent is one in front of the first name. -/
theorem withoutMark_intercalate (name value : String) (pieces : List (List Char)) :
    withoutMark (['&'].intercalate (pairChars (name, value) :: pieces)) =
      ['&'].intercalate (pairChars (map withoutMark name, value) :: pieces) := by
  obtain ⟨rest, hrest, hname⟩ := exists_intercalate_eq value pieces
  rw [hname, hname, withoutMark_append _ hrest, toList_map]

theorem plain_withoutMark {name value : String} (h : Plain (name, value)) :
    Plain (map withoutMark name, value) := by
  refine ⟨fun c hc => ?_, h.value⟩
  rw [toList_map] at hc
  exact h.name c (mem_of_mem_withoutMark hc)

theorem map_ofPiece {q : Query} (h : ∀ pair ∈ q, Plain pair) :
    ((q.map pairChars).filter fun piece => !piece.isEmpty).map ofPiece =
      q.filter (· ≠ ("", "")) := by
  have same : ((fun piece : List Char => !piece.isEmpty) ∘ pairChars) =
      fun pair => decide (pair ≠ ("", "")) := by
    funext pair
    by_cases hp : pair = ("", "")
    · simp [hp, pairChars_eq_nil.2]
    · have hne : pairChars pair ≠ [] := fun heq => hp (pairChars_eq_nil.1 heq)
      simp [hp, hne]
  rw [List.filter_map, same, List.map_map]
  calc (q.filter (· ≠ ("", ""))).map (ofPiece ∘ pairChars)
      = (q.filter (· ≠ ("", ""))).map id := by
        refine List.map_congr_left fun pair hpair => ?_
        exact ofPiece_pairChars (h pair (List.mem_filter.1 hpair).1)
    _ = q.filter (· ≠ ("", "")) := List.map_id _

theorem ofRaw_chars {q : Query} (h : ∀ pair ∈ q, Plain pair) : ofRaw (chars q) = received q := by
  cases q with
  | nil => rfl
  | cons pair rest =>
    obtain ⟨name, value⟩ := pair
    have plain : ∀ pair ∈ (map withoutMark name, value) :: rest, Plain pair := by
      intro pair hpair
      rcases List.mem_cons.1 hpair with rfl | hpair
      · exact plain_withoutMark (h (name, value) List.mem_cons_self)
      · exact h pair (List.mem_cons_of_mem _ hpair)
    have pieces : ∀ piece ∈ ((map withoutMark name, value) :: rest).map pairChars, '&' ∉ piece := by
      intro piece hpiece
      obtain ⟨pair, hpair, rfl⟩ := List.mem_map.1 hpiece
      exact notMem_pairChars (plain pair hpair)
    -- one question mark is taken off, then the pieces between the separators are the pairs again
    rw [ofRaw, chars, List.map_cons, withoutMark_intercalate, ← List.map_cons,
      List.splitOn_intercalate '&' pieces (by simp), map_ofPiece plain]
    rfl

end Query
end SignedHttp

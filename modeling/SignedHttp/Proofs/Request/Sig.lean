import SignedHttp.Proofs.Request.Query
import SignedHttp.Proofs.Run.Lockstep
import SignedHttp.Proofs.Text.Stops

/-!
# SignedHttp.Proofs.Request.Sig

Addresses that differ in nothing but the value of a query parameter `sig`. A `SigFrame` is what
stands around such a value, and a `SigPair` two values that are equally long. If a token is appended
to the query of a request, its frame is found in the query again, with more around it
(`Query.chars_append_text`), and from there in the address, unless that ends at a `#` before
(`Request.address_appendRawQuery`). Whether there is an address at all does not depend on the value.
-/

namespace SignedHttp

/-- What stands around the value of a query parameter `sig`. -/
structure SigFrame where
  before : List Char
  after : List Char
  opens : before = [] ∨ ∃ front, before = front ++ ['?'] ∨ before = front ++ ['&']
  closes : after = [] ∨ ∃ back, after = '&' :: back

/-- A value that a query parameter may have. -/
def SigValue (v : List Char) : Prop := ∀ c ∈ v, Target.isQueryChar c = true ∧ c ≠ '&'

theorem SigValue.of_all {v : List Char}
    (h : v.all (fun c => Target.isQueryChar c && c != '&') = true) : SigValue v := fun c hc => by
  simpa using List.all_eq_true.1 h c hc

/-- Two values of a query parameter that take equally many bytes. -/
structure SigPair where
  one : List Char
  other : List Char
  value_one : SigValue one
  value_other : SigValue other
  size : (Utf8.encode one).length = (Utf8.encode other).length

namespace SigFrame

def text (f : SigFrame) (v : List Char) : List Char := f.before ++ ("sig=".toList ++ v) ++ f.after

/-- More of a query in front. -/
def under (x : List Char) {sep : Char} (h : sep = '?' ∨ sep = '&') (f : SigFrame) : SigFrame where
  before := x ++ sep :: f.before
  after := f.after
  opens := by
    obtain hf | ⟨front, hf | hf⟩ := f.opens
    · rw [hf]
      exact .inr ⟨x, h.imp (fun h => by rw [h]) fun h => by rw [h]⟩
    · exact .inr ⟨x ++ sep :: front, .inl (by rw [hf]; simp)⟩
    · exact .inr ⟨x ++ sep :: front, .inr (by rw [hf]; simp)⟩
  closes := f.closes

theorem text_under (x : List Char) {sep : Char} (h : sep = '?' ∨ sep = '&') (f : SigFrame)
    (v : List Char) : (f.under x h).text v = x ++ sep :: f.text v := by
  simp [text, under]

theorem size_text (f : SigFrame) (p : SigPair) :
    (Utf8.encode (f.text p.one)).length = (Utf8.encode (f.text p.other)).length := by
  simp only [text, Utf8.length_encode_append, p.size]

end SigFrame

/-- Texts that are the same but for the value of a query parameter `sig`. -/
inductive SameButSig : List Char → List Char → Prop
  | same (s : List Char) : SameButSig s s
  | apart (f : SigFrame) (p : SigPair) : SameButSig (f.text p.one) (f.text p.other)

theorem SameButSig.under {s t : List Char} (h : SameButSig s t) (x : List Char) :
    SameButSig (x ++ '?' :: s) (x ++ '?' :: t) := by
  cases h with
  | same => exact .same _
  | apart f p =>
    rw [← f.text_under x (.inl rfl), ← f.text_under x (.inl rfl)]
    exact .apart _ p

/-! ## In the query of a request -/

/-- The parameter has no longer name that ends in `sig`: a question mark in front of it is the one
that a token may start with. -/
def SigFrame.IsToken (f : SigFrame) : Prop :=
  f.before = [] ∨ f.before = ['?'] ∨ ∃ front, f.before = front ++ ['&']

namespace Query

theorem splitOn_closed (f : SigFrame) :
    ∃ back, ∀ piece, '&' ∉ piece → (piece ++ f.after).splitOn '&' = piece :: back := by
  obtain hf | ⟨more, hf⟩ := f.closes
  · exact ⟨[], fun piece h => by rw [hf, List.append_nil, List.splitOn_eq_singleton h]⟩
  · exact ⟨more.splitOn '&', fun piece h => by
      rw [hf, List.splitOn_append_cons_self_of_not_mem h]⟩

/-- Whatever the value is, one piece of a token has it, and the others are the same. -/
theorem splitOn_text {f : SigFrame} (h : f.IsToken) :
    ∃ mark front back, (mark = [] ∨ f.before = ['?'] ∧ mark = ['?']) ∧ ∀ v, '&' ∉ v →
      (f.text v).splitOn '&' = front ++ (mark ++ ("sig=".toList ++ v)) :: back := by
  obtain ⟨back, closed⟩ := splitOn_closed f
  have named {v : List Char} (hv : '&' ∉ v) : '&' ∉ "sig=".toList ++ v := by simp [hv]
  rcases h with hf | hf | ⟨front, hf⟩
  · refine ⟨[], [], back, .inl rfl, fun v hv => ?_⟩
    rw [SigFrame.text, hf, List.nil_append, closed _ (named hv)]
    rfl
  · refine ⟨['?'], [], back, .inr ⟨hf, rfl⟩, fun v hv => ?_⟩
    have marked : '&' ∉ ['?'] ++ ("sig=".toList ++ v) := by simp [hv]
    rw [SigFrame.text, hf, closed _ marked, List.nil_append]
  · refine ⟨[], front.splitOn '&', back, .inl rfl, fun v hv => ?_⟩
    rw [SigFrame.text, hf, List.append_assoc, List.append_assoc, List.singleton_append,
      List.splitOn_append_cons_self, closed _ (named hv), List.nil_append]

/-- Without its question mark a token is one around the same value. -/
theorem withoutMark_text {f : SigFrame} (h : f.IsToken) :
    ∃ g : SigFrame, g.IsToken ∧ g.before ≠ ['?'] ∧ ∀ v, withoutMark (f.text v) = g.text v := by
  rcases h with hf | hf | ⟨front, hf⟩
  · exact ⟨f, .inl hf, by simp [hf], fun v => by simp [SigFrame.text, hf, withoutMark]⟩
  · exact ⟨⟨[], f.after, .inl rfl, f.closes⟩, .inl rfl, by simp, fun v => by
      simp [SigFrame.text, hf, withoutMark]⟩
  · refine ⟨⟨withoutMark front ++ ['&'], f.after, .inr ⟨_, .inr rfl⟩, f.closes⟩,
      .inr (.inr ⟨_, rfl⟩), ?_, fun v => ?_⟩
    · intro heq
      simpa using congrArg List.getLast? heq
    · simp only [SigFrame.text, hf, List.append_assoc, List.singleton_append]
      exact withoutMark_append _ (by simp)

theorem pairChars_ofPiece {v : List Char} (h : v ≠ []) :
    pairChars (ofPiece ("sig=".toList ++ v)) = "sig=".toList ++ v := by
  have cut : Text.cut? '=' ("sig=".toList ++ v) = some ("sig".toList, v) :=
    Text.cut?_append (a := "sig".toList) (by decide) v
  rw [ofPiece, cut]
  simp [pairChars, h]

theorem intercalate_text (xs ys : List (List Char)) :
    ∃ g : SigFrame, ∀ v, ['&'].intercalate (xs ++ ("sig=".toList ++ v) :: ys) = g.text v := by
  induction xs with
  | nil =>
    cases ys with
    | nil =>
      exact ⟨⟨[], [], .inl rfl, .inl rfl⟩, fun v => by
        rw [List.nil_append, List.intercalate_singleton, SigFrame.text, List.append_nil,
          List.nil_append]⟩
    | cons y ys =>
      exact ⟨⟨[], '&' :: ['&'].intercalate (y :: ys), .inl rfl, .inr ⟨_, rfl⟩⟩, fun v => by
        rw [List.nil_append, List.intercalate_cons_cons, SigFrame.text, List.nil_append,
          List.append_assoc, List.singleton_append]⟩
  | cons x xs ih =>
    obtain ⟨g, hg⟩ := ih
    refine ⟨g.under x (.inr rfl), fun v => ?_⟩
    rw [SigFrame.text_under, ← hg]
    cases xs <;> simp [List.intercalate_cons_cons]

/-- In a query that a token has been appended to, the value stands as it does in the token. -/
theorem chars_append_text (q : Query) {f : SigFrame} (h : f.IsToken) :
    ∃ g : SigFrame, ∀ v, v ≠ [] → '&' ∉ v → chars (q ++ ofRaw (f.text v)) = g.text v := by
  obtain ⟨f', token, unmarked, same⟩ := withoutMark_text h
  obtain ⟨mark, front, back, hmark, pieces⟩ := splitOn_text token
  obtain rfl : mark = [] := hmark.resolve_right fun h => unmarked h.1
  let pairs (pieces : List (List Char)) : Query :=
    (pieces.filter fun piece => !piece.isEmpty).map ofPiece
  obtain ⟨g, hg⟩ := intercalate_text ((q ++ pairs front).map pairChars)
    ((pairs back).map pairChars)
  refine ⟨g, fun v hv hamp => ?_⟩
  have raw : ofRaw (f.text v) = pairs front ++ ofPiece ("sig=".toList ++ v) :: pairs back := by
    rw [ofRaw, same, pieces v hamp]
    simp [pairs]
  rw [raw, ← hg, chars, ← List.append_assoc, List.map_append, List.map_cons,
    pairChars_ofPiece hv]

end Query

/-! ## In an address -/

/-- Paths that are the same, and queries that are the same but for the value. -/
structure Target.SameButSig (t₁ t₂ : Target) : Prop where
  path : t₁.path = t₂.path
  query : Option.Rel SignedHttp.SameButSig t₁.query t₂.query

namespace Target

theorem SameButSig.refl (t : Target) : SameButSig t t := ⟨rfl, rel_refl .same _⟩

theorem SameButSig.chars {t₁ t₂ : Target} (h : SameButSig t₁ t₂) :
    SignedHttp.SameButSig t₁.chars t₂.chars := by
  obtain ⟨path, query⟩ := t₁
  obtain ⟨_, _⟩ := t₂
  obtain ⟨rfl, hq⟩ := h
  cases hq with
  | none => exact .same _
  | some hq => exact hq.under path

/-- The query of an address ends before the value or goes on after it, whatever it is. -/
theorem takeWhile_text (f : SigFrame) :
    (∃ s, ∀ v, SigValue v → (f.text v).takeWhile (· != '#') = s) ∨
    ∃ g : SigFrame, ∀ v, SigValue v → (f.text v).takeWhile (· != '#') = g.text v := by
  by_cases ends : '#' ∈ f.before
  · obtain ⟨a, b, hf⟩ := List.append_of_mem ends
    refine .inl ⟨a.takeWhile (· != '#'), fun v _ => ?_⟩
    rw [SigFrame.text, hf, List.append_assoc, List.append_assoc, List.cons_append]
    exact Text.takeWhile_append_stops (Text.stops_cons rfl) a
  · refine .inr ⟨⟨f.before, f.after.takeWhile (· != '#'), f.opens, ?_⟩, fun v hv => ?_⟩
    · obtain hf | ⟨back, hf⟩ := f.closes
      · rw [hf]
        exact .inl rfl
      · rw [hf]
        exact .inr ⟨back.takeWhile (· != '#'), rfl⟩
    · have value : '#' ∉ v := fun h => absurd (hv '#' h).1 (by decide)
      have plain : ∀ c ∈ f.before ++ ("sig=".toList ++ v), (c != '#') = true := by
        intro c hc
        have all : '#' ∉ f.before ++ ("sig=".toList ++ v) := by simp [ends, value]
        exact bne_iff_ne.2 fun h => all (h ▸ hc)
      exact List.takeWhile_append_of_pos plain

/-- Whether a query has nothing but characters of one does not depend on the value. -/
theorem all_text (f : SigFrame) {v : List Char} (h : SigValue v) :
    (f.text v).all isQueryChar = (f.before ++ f.after).all isQueryChar := by
  have value : v.all isQueryChar = true := List.all_eq_true.2 fun c hc => (h c hc).1
  have name : "sig=".toList.all isQueryChar = true := by decide
  simp only [SigFrame.text, List.all_append, value, name, Bool.and_true]

/-- A query is read up to the first `#`, and only if it has nothing but characters of one. -/
theorem query_text (path : List Char) (f : SigFrame) (p : SigPair) {one other : List Char}
    (h₁ : one = (f.text p.one).takeWhile (· != '#'))
    (h₂ : other = (f.text p.other).takeWhile (· != '#')) :
    Concur Eq SameButSig
      (if one.all isQueryChar then (.ok ⟨path, some one⟩ : Except Uri.Fault Target)
        else .error .badCharacter)
      (if other.all isQueryChar then .ok ⟨path, some other⟩ else .error .badCharacter) := by
  subst h₁ h₂
  obtain ⟨s, hs⟩ | ⟨g, hg⟩ := takeWhile_text f
  · rw [hs _ p.value_one, hs _ p.value_other]
    exact Concur.refl (fun _ => rfl) .refl _
  · rw [hg _ p.value_one, hg _ p.value_other, all_text g p.value_one, all_text g p.value_other]
    by_cases legal : (g.before ++ g.after).all isQueryChar = true
    · rw [if_pos legal, if_pos legal]
      exact .ok ⟨rfl, .some (.apart g p)⟩
    · rw [if_neg legal, if_neg legal]
      exact .error rfl

theorem scan_text (path : List Char) (f : SigFrame) (p : SigPair) :
    Concur Eq SameButSig (scan (path ++ '?' :: f.text p.one))
      (scan (path ++ '?' :: f.text p.other)) := by
  have before (q : List Char) : (path ++ '?' :: q).takeWhile (!endsPath ·) =
      path.takeWhile (!endsPath ·) := Text.takeWhile_append_stops (Text.stops_cons rfl) path
  have behind (q : List Char) : (path ++ '?' :: q).dropWhile (!endsPath ·) =
      path.dropWhile (!endsPath ·) ++ '?' :: q :=
    Text.dropWhile_append_stops (Text.stops_cons rfl) path
  unfold scan
  simp only [before, behind]
  by_cases legal : (!(path.takeWhile (!endsPath ·)).all isPathChar) = true
  · rw [if_pos legal, if_pos legal]
    exact .error rfl
  rw [if_neg legal, if_neg legal]
  cases path.dropWhile (!endsPath ·) with
  | nil => exact query_text _ f p rfl rfl
  | cons c rest =>
    by_cases hc : c = '?'
    · subst hc
      exact query_text _ (f.under rest (.inl rfl)) p (by rw [f.text_under]; rfl)
        (by rw [f.text_under]; rfl)
    · simp only [List.cons_append]
      split
      · rename_i heq
        exact absurd (List.cons.inj heq).1 hc
      · split
        · rename_i heq
          exact absurd (List.cons.inj heq).1 hc
        · exact .ok (.refl _)

theorem ofChars_text (path : List Char) (f : SigFrame) (p : SigPair) :
    Concur Eq SameButSig (ofChars (path ++ '?' :: f.text p.one))
      (ofChars (path ++ '?' :: f.text p.other)) := by
  have size : Uri.isTooLong (path ++ '?' :: f.text p.one) =
      Uri.isTooLong (path ++ '?' :: f.text p.other) := by
    have inner := (f.under path (.inl rfl)).size_text p
    rw [f.text_under, f.text_under] at inner
    rw [Uri.isTooLong, Uri.isTooLong, inner]
  have scanned := scan_text path f p
  unfold ofChars
  rw [← size]
  by_cases long : Uri.isTooLong (path ++ '?' :: f.text p.one) = true
  · rw [if_pos long, if_pos long]
    exact .error rfl
  rw [if_neg long, if_neg long]
  cases path with
  | nil => exact scanned
  | cons c rest =>
    have more (v : List Char) : (rest ++ '?' :: f.text v).isEmpty = false := by
      cases rest <;> rfl
    simp only [List.cons_append, more]
    by_cases begins : (c == '/' || endsPath c || c == '*' && false) = true
    · rw [if_pos begins, if_pos begins]
      exact scanned
    · rw [if_neg begins, if_neg begins]
      exact .error rfl

end Target

/-- Addresses that are the same but for the value of a query parameter `sig`. -/
structure Uri.SameButSig (a b : Uri) : Prop where
  scheme : a.scheme = b.scheme
  authority : a.authority = b.authority
  target : a.target.SameButSig b.target

namespace Uri.SameButSig

variable {a b : Uri}

theorem refl (a : Uri) : a.SameButSig a := ⟨rfl, rfl, .refl _⟩

theorem text (h : a.SameButSig b) : SignedHttp.SameButSig a.text.toList b.text.toList := by
  obtain ⟨scheme, authority, path, query⟩ := a
  obtain ⟨_, _, _, _⟩ := b
  obtain ⟨rfl, rfl, rfl, hq⟩ := h
  unfold Uri.text
  rw [String.toList_ofList, String.toList_ofList]
  cases hq with
  | none => exact .same _
  | some hq =>
    simp only [Target.chars, ← List.append_assoc]
    exact hq.under _

end Uri.SameButSig

theorem SigPair.empty_iff (p : SigPair) : p.one = [] ↔ p.other = [] := by
  rw [← Utf8.length_encode_eq_zero_iff, p.size, Utf8.length_encode_eq_zero_iff]

namespace Request

theorem targetChars_appendRawQuery (r : Request) {f : SigFrame} (h : f.IsToken) :
    ∃ g : SigFrame, ∀ v, v ≠ [] → '&' ∉ v → ∀ s : String, s.toList = f.text v →
      (r.appendRawQuery s).targetChars = r.path.toList ++ '?' :: g.text v := by
  obtain ⟨g, hg⟩ := Query.chars_append_text r.query h
  refine ⟨g, fun v hv hamp s hs => ?_⟩
  have query : (r.appendRawQuery s).query.chars = g.text v := by
    rw [← hg v hv hamp, ← hs]
    rfl
  have some : (r.appendRawQuery s).query.isEmpty = false := by
    cases hq : (r.appendRawQuery s).query with
    | nil =>
      rw [hq] at query
      simp [Query.chars, SigFrame.text] at query
    | cons => rfl
  unfold targetChars
  rw [some, query]
  rfl

/-- Tokens that are the same but for the value lead to addresses that are the same but for it, or to
none for the same reason. -/
theorem address_appendRawQuery (r : Request) {f : SigFrame} (h : f.IsToken) (p : SigPair)
    {s t : String} (hs : s.toList = f.text p.one) (ht : t.toList = f.text p.other) :
    Concur Eq Uri.SameButSig (r.appendRawQuery s).address (r.appendRawQuery t).address := by
  by_cases empty : p.one = []
  · have same : s = t := by
      rw [← String.toList_inj, hs, ht, p.empty_iff.1 empty, empty]
    rw [same]
    exact Concur.refl (fun _ => rfl) .refl _
  have filled : p.other ≠ [] := fun h => empty (p.empty_iff.2 h)
  have plain {v : List Char} (hv : SigValue v) : '&' ∉ v := fun hmem => (hv '&' hmem).2 rfl
  obtain ⟨g, hg⟩ := r.targetChars_appendRawQuery h
  have target := Target.ofChars_text r.path.toList g p
  rw [← hg _ empty (plain p.value_one) s hs, ← hg _ filled (plain p.value_other) t ht] at target
  unfold address
  generalize Target.ofChars (r.appendRawQuery s).targetChars = t₁ at target ⊢
  generalize Target.ofChars (r.appendRawQuery t).targetChars = t₂ at target ⊢
  cases target with
  | ok h => exact .ok ⟨rfl, rfl, h⟩
  | error h =>
    cases h
    exact .error rfl

end Request
end SignedHttp

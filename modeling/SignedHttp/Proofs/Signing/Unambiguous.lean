import Mathlib.Data.List.Forall2
import SignedHttp.Proofs.Signing.Content

/-!
# SignedHttp.Proofs.Signing.Unambiguous

The canonical text is unambiguous up to its query (`canonical_unambiguous`): from the text of a
request that can be sent one can tell the method, the value that is signed for each header, the
`x-ms-` headers, the path and the lines of the query. No signature can therefore be moved to a
request that differs in any of them.

The text is read from the left. The method and the signed values are lines without line feeds, and
there are as many of them as the variant says (`lines_inj`). An `x-ms-` line starts with an `x` and
the resource with a slash, so the first slash at the start of a line ends the headers
(`lines_inj_of_slash`). The path ends where its line does (`append_inj_of_lines`). Nothing in a
header, nor in the type of a body that can be sent, can forge a line feed.
-/

namespace SignedHttp

open Header

namespace SharedKey

/-! ## Reading lines -/

/-- A text of one line. -/
def IsLine (s : String) : Prop := '\n' ∉ s.toList

theorem lines_cons (x : String) (xs : List String) :
    lines (x :: xs) = x.toList ++ '\n' :: lines xs := by
  simp [lines]

theorem lines_cons_inj {x y : String} {xs ys : List String} {rest rest' : List Char}
    (hx : IsLine x) (hy : IsLine y) (h : lines (x :: xs) ++ rest = lines (y :: ys) ++ rest') :
    x = y ∧ lines xs ++ rest = lines ys ++ rest' := by
  rw [lines_cons, lines_cons, List.append_assoc, List.append_assoc, List.cons_append,
    List.cons_append] at h
  obtain ⟨hhead, htail⟩ := Text.append_cons_inj hx hy h
  exact ⟨String.toList_inj.1 hhead, htail⟩

theorem lines_inj {xs ys : List String} {rest rest' : List Char} (hx : ∀ x ∈ xs, IsLine x)
    (hy : ∀ y ∈ ys, IsLine y) (hlength : xs.length = ys.length)
    (h : lines xs ++ rest = lines ys ++ rest') : xs = ys ∧ rest = rest' := by
  induction xs generalizing ys with
  | nil =>
    have hnil : ys = [] := List.eq_nil_of_length_eq_zero hlength.symm
    subst hnil
    exact ⟨rfl, h⟩
  | cons x xs ih =>
    cases ys with
    | nil => cases hlength
    | cons y ys =>
      obtain ⟨rfl, htail⟩ :=
        lines_cons_inj (hx x List.mem_cons_self) (hy y List.mem_cons_self) h
      obtain ⟨rfl, hrest⟩ := ih (fun x h => hx x (List.mem_cons_of_mem _ h))
        (fun y h => hy y (List.mem_cons_of_mem _ h)) (Nat.succ.inj hlength) htail
      exact ⟨rfl, hrest⟩

/-- A line that cannot be taken for the resource. -/
def IsNamedLine (s : String) : Prop := IsLine s ∧ s.toList.head? = some 'x'

theorem lines_ne_slash {x : String} {xs : List String} {rest rest' : List Char}
    (hx : IsNamedLine x) : lines (x :: xs) ++ rest ≠ '/' :: rest' := by
  intro h
  obtain ⟨tail, htail⟩ := List.head?_eq_some_iff.1 hx.2
  rw [lines_cons, htail] at h
  cases h

theorem lines_inj_of_slash {xs ys : List String} {rest rest' : List Char}
    (hx : ∀ x ∈ xs, IsNamedLine x) (hy : ∀ y ∈ ys, IsNamedLine y)
    (h : lines xs ++ '/' :: rest = lines ys ++ '/' :: rest') : xs = ys ∧ rest = rest' := by
  induction xs generalizing ys with
  | nil =>
    cases ys with
    | nil => exact ⟨rfl, (List.cons.inj h).2⟩
    | cons y ys => exact absurd h.symm (lines_ne_slash (hy y List.mem_cons_self))
  | cons x xs ih =>
    cases ys with
    | nil => exact absurd h (lines_ne_slash (hx x List.mem_cons_self))
    | cons y ys =>
      obtain ⟨rfl, htail⟩ :=
        lines_cons_inj (hx x List.mem_cons_self).1 (hy y List.mem_cons_self).1 h
      obtain ⟨rfl, hrest⟩ := ih (fun x h => hx x (List.mem_cons_of_mem _ h))
        (fun y h => hy y (List.mem_cons_of_mem _ h)) htail
      exact ⟨rfl, hrest⟩

/-- The query lines start on a new line, if there are any. -/
theorem queryLines_cases (q : Query) : queryLines q = [] ∨ ∃ rest, queryLines q = '\n' :: rest := by
  unfold queryLines
  cases parameters q with
  | nil => exact .inl rfl
  | cons p ps => exact .inr ⟨_, rfl⟩

theorem append_inj_of_lines {path path' : List Char} {q q' : Query} (hp : '\n' ∉ path)
    (hp' : '\n' ∉ path') (h : path ++ queryLines q = path' ++ queryLines q') :
    path = path' ∧ queryLines q = queryLines q' := by
  rcases queryLines_cases q with hq | ⟨rest, hq⟩ <;>
    rcases queryLines_cases q' with hq' | ⟨rest', hq'⟩ <;> rw [hq, hq'] at h ⊢
  · rw [List.append_nil, List.append_nil] at h
    exact ⟨h, rfl⟩
  · rw [List.append_nil] at h
    exact absurd (by simp [h]) hp
  · rw [List.append_nil] at h
    exact absurd (by simp [← h]) hp'
  · obtain ⟨hpath, hrest⟩ := Text.append_cons_inj hp hp' h
    exact ⟨hpath, by rw [hrest]⟩

/-! ## What stands in the lines -/

theorem isLine_of_visible {s : String} (h : s.toList.all isVisibleChar = true) : IsLine s := by
  intro hmem
  have visible := List.all_eq_true.1 h '\n' hmem
  revert visible
  decide

theorem isLine_method (m : Method) : IsLine m.text := by
  intro hmem
  have legal := m.legal
  unfold isMethod at legal
  have token := List.all_eq_true.1 (Bool.and_eq_true_iff.1 legal).2 '\n' hmem
  revert token
  decide

theorem notMem_name (name : Name) {c : Char} (h : isTokenChar c = false) :
    c ∉ name.text.toList := by
  intro hmem
  have legal := name.legal
  unfold isName at legal
  have token := List.all_eq_true.1 (Bool.and_eq_true_iff.1 legal).2 c hmem
  rw [Bool.and_eq_true_iff, h] at token
  cases token.1

theorem isLine_headerText {r : Request} {name : Name} {s : String}
    (h : r.headerText name = .ok s) : IsLine s := by
  cases hv : r.headers.first? name with
  | none =>
    unfold Request.headerText at h
    rw [hv] at h
    cases h
    simp [IsLine]
  | some value =>
    rw [headerText_of_some hv] at h
    split at h
    · next htext =>
      cases h
      exact isLine_of_visible (Value.text?_eq_some_iff.1 htext).2
    · cases h

/-- The type of a body that can be sent is a line. -/
theorem isLine_bodyType {r : Request} {headers : Headers} {type : String}
    (hsent : r.sentHeaders = .ok headers) (h : bodyType? r = some type) : IsLine type := by
  rcases Request.sentHeaders_cases hsent with ⟨hnone, -⟩ | ⟨_, value, htype, made, -⟩
  · rw [h] at hnone
    cases hnone
  · rw [h] at htype
    cases htype
    intro hmem
    have legal := value.legal
    rw [(Value.ofText?_eq_some_iff.1 made).1, all_encode] at legal
    have linefeed := List.all_eq_true.1 legal '\n' hmem
    revert linefeed
    decide

theorem isLine_signedValue {r : Request} {headers : Headers} {v : Variant} {name : Name}
    {s : String} (hsent : r.sentHeaders = .ok headers) (h : signedValue r v name = .ok s) :
    IsLine s := by
  unfold signedValue at h
  obtain ⟨value, ht, h⟩ := ok_of_bind h
  have line := isLine_headerText ht
  split at h
  · cases hb : bodyType? r with
    | some type =>
      rw [hb] at h
      cases h
      exact isLine_bodyType hsent hb
    | none =>
      rw [hb] at h
      cases h
      split
      · simp [IsLine]
      · exact line
  · cases h
    exact line

/-! ## The lines of the named headers -/

theorem isLine_of_texts {values : List Value} {texts : List String}
    (h : values.mapM Value.text? = some texts) : ∀ t ∈ texts, IsLine t := by
  intro t ht
  obtain ⟨value, -, hvalue⟩ := exists_of_mem (mapM_eq_some h) t ht
  exact isLine_of_visible (Value.text?_eq_some_iff.1 hvalue).2

theorem isLine_joined {values : List Value} {s : String} (h : Request.joined values = .ok s) :
    IsLine s := by
  unfold Request.joined at h
  cases ht : values.mapM Value.text? with
  | none =>
    rw [ht] at h
    cases h
  | some texts =>
    rw [ht] at h
    cases h
    intro hmem
    rw [String.toList_intercalate] at hmem
    rcases Query.mem_intercalate hmem with hsep | ⟨piece, hpiece, hc⟩
    · revert hsep
      decide
    · obtain ⟨t, htext, rfl⟩ := List.mem_map.1 hpiece
      exact isLine_of_texts ht t htext hc

/-- The line of a header that is signed with its name. -/
def namedLine (p : String × String) : String := p.1 ++ ":" ++ p.2

theorem of_mem_headersStartingWith {r : Request} {start : String} {headers : List (String × String)}
    (h : r.headersStartingWith start = .ok headers) :
    ∀ p ∈ headers, (∃ n : Name, n.text = p.1) ∧ start.toList <+: p.1.toList ∧ IsLine p.2 := by
  rw [Request.headersStartingWith_eq] at h
  obtain ⟨texts, ht, h⟩ := ok_of_bind h
  cases h
  intro p hp
  obtain ⟨name, hname, hpair⟩ := exists_of_mem (mapM_eq_ok ht) p (List.mem_filter.1 hp).1
  obtain ⟨hstart, n, hn, -⟩ := Request.mem_namesStartingWith.1 hname
  obtain ⟨text, hj, hpair⟩ := ok_of_bind hpair
  cases hpair
  exact ⟨⟨n, hn⟩, List.isPrefixOf_iff_prefix.1 hstart, isLine_joined hj⟩

theorem namedLine_inj {p p' : String × String} (hp : ∃ n : Name, n.text = p.1)
    (hp' : ∃ n : Name, n.text = p'.1) (h : namedLine p = namedLine p') : p = p' := by
  obtain ⟨name, value⟩ := p
  obtain ⟨name', value'⟩ := p'
  obtain ⟨n, rfl⟩ := hp
  obtain ⟨n', rfl⟩ := hp'
  have heq := String.toList_inj.2 h
  simp only [namedLine, String.toList_append] at heq
  have hcut : n.text.toList ++ ':' :: value.toList = n'.text.toList ++ ':' :: value'.toList := by
    simpa using heq
  obtain ⟨hname, hvalue⟩ :=
    Text.append_cons_inj (notMem_name n (by decide)) (notMem_name n' (by decide)) hcut
  rw [String.toList_inj.1 hname, String.toList_inj.1 hvalue]

theorem map_namedLine_inj {ps ps' : List (String × String)}
    (hps : ∀ p ∈ ps, ∃ n : Name, n.text = p.1) (hps' : ∀ p ∈ ps', ∃ n : Name, n.text = p.1)
    (h : ps.map namedLine = ps'.map namedLine) : ps = ps' := by
  induction ps generalizing ps' with
  | nil => rw [List.map_eq_nil_iff.1 h.symm]
  | cons p ps ih =>
    cases ps' with
    | nil => cases h
    | cons p' ps' =>
      obtain ⟨hhead, htail⟩ := List.cons.inj h
      rw [namedLine_inj (hps p List.mem_cons_self) (hps' p' List.mem_cons_self) hhead,
        ih (fun p hp => hps p (List.mem_cons_of_mem _ hp))
          (fun p hp => hps' p (List.mem_cons_of_mem _ hp)) htail]

theorem isNamedLine {r : Request} {headers : List (String × String)}
    (h : r.headersStartingWith "x-ms-" = .ok headers) :
    ∀ s ∈ headers.map namedLine, IsNamedLine s := by
  intro s hs
  obtain ⟨p, hp, rfl⟩ := List.mem_map.1 hs
  obtain ⟨⟨n, hn⟩, ⟨tail, htail⟩, line⟩ := of_mem_headersStartingWith h p hp
  constructor
  · have name : '\n' ∉ p.1.toList := hn ▸ notMem_name n (by decide)
    intro hmem
    simp only [namedLine, String.toList_append, List.mem_append] at hmem
    rcases hmem with (hmem | hmem) | hmem
    · exact name hmem
    · revert hmem
      decide
    · exact line hmem
  · simp only [namedLine, String.toList_append, ← htail]
    rfl

/-! ## The whole text -/

theorem canonical_eq_ok {r : Request} {v : Variant} {account text : String}
    (h : canonical r v account = .ok text) :
    ∃ values headers, List.Forall₂ (fun name value => signedValue r v name = .ok value)
        v.signedHeaders values ∧
      r.headersStartingWith "x-ms-" = .ok headers ∧
      text.toList = lines (r.method.text :: values) ++ (lines (headers.map namedLine) ++
        '/' :: (account.toList ++ (r.path.toList ++ queryLines r.query))) := by
  unfold canonical at h
  obtain ⟨values, hv, h⟩ := ok_of_bind h
  obtain ⟨named, hl, h⟩ := ok_of_bind h
  obtain ⟨headers, hh, hl⟩ := ok_of_bind hl
  cases hl
  cases h
  refine ⟨values, headers, mapM_eq_ok hv, hh, ?_⟩
  rw [String.toList_ofList]
  simp [lines, resourceChars, queryLines]
  rfl

/-- Requests that can be sent and have the same canonical text differ at most in what does not stand
in it, and in queries whose lines are the same. -/
theorem canonical_unambiguous {v : Variant} {account text : String} {r r' : Request}
    {m m' : Message} (hm : r.message = .ok m) (hm' : r'.message = .ok m')
    (hpath : '\n' ∉ r.path.toList) (hpath' : '\n' ∉ r'.path.toList)
    (h : canonical r v account = .ok text) (h' : canonical r' v account = .ok text) :
    r.method = r'.method ∧
    (∀ name ∈ v.signedHeaders, ∃ value,
      signedValue r v name = .ok value ∧ signedValue r' v name = .ok value) ∧
    (∃ headers, r.headersStartingWith "x-ms-" = .ok headers ∧
      r'.headersStartingWith "x-ms-" = .ok headers) ∧
    r.path = r'.path ∧ queryLines r.query = queryLines r'.query := by
  obtain ⟨values, headers, hvalues, hheaders, htext⟩ := canonical_eq_ok h
  obtain ⟨values', headers', hvalues', hheaders', htext'⟩ := canonical_eq_ok h'
  have fixed (r : Request) (m : Message) (hm : r.message = .ok m) (values : List String)
      (hvalues : List.Forall₂ (fun name value => signedValue r v name = .ok value)
        v.signedHeaders values) : ∀ s ∈ r.method.text :: values, IsLine s := by
    intro s hs
    rcases List.mem_cons.1 hs with rfl | hs
    · exact isLine_method r.method
    · obtain ⟨name, -, hname⟩ := exists_of_mem hvalues s hs
      exact isLine_signedValue (Request.message_eq_ok hm).2.1 hname
  have count : (r.method.text :: values).length = (r'.method.text :: values').length := by
    rw [List.length_cons, List.length_cons, ← hvalues.length_eq, ← hvalues'.length_eq]
  obtain ⟨hlines, hrest⟩ := lines_inj (fixed r m hm values hvalues)
    (fixed r' m' hm' values' hvalues') count (htext.symm.trans htext')
  obtain ⟨hmethod, rfl⟩ := List.cons.inj hlines
  obtain ⟨hnamed, hresource⟩ :=
    lines_inj_of_slash (isNamedLine hheaders) (isNamedLine hheaders') hrest
  have same : headers = headers' :=
    map_namedLine_inj (fun p hp => (of_mem_headersStartingWith hheaders p hp).1)
      (fun p hp => (of_mem_headersStartingWith hheaders' p hp).1) hnamed
  obtain ⟨hpaths, hquery⟩ :=
    append_inj_of_lines hpath hpath' (List.append_cancel_left hresource)
  refine ⟨?_, exists_of_forall₂ hvalues hvalues', ⟨headers, hheaders, same ▸ hheaders'⟩,
    String.toList_inj.1 hpaths, hquery⟩
  cases hr : r.method
  cases hr' : r'.method
  simp_all

/-- A line feed in the value of a parameter can stand for another parameter, so that the queries
themselves need not be the same. -/
theorem hiddenParameter_unambiguous : ∃ m m' text,
    (block [("a", "1%0Ab:2")]).message = .ok m ∧
    (block [("a", "1"), ("b", "2")]).message = .ok m' ∧
    canonical (block [("a", "1%0Ab:2")]) .full "account" = .ok text ∧
    canonical (block [("a", "1"), ("b", "2")]) .full "account" = .ok text ∧
    (block [("a", "1%0Ab:2")]).query ≠ (block [("a", "1"), ("b", "2")]).query ∧
    queryLines (block [("a", "1%0Ab:2")]).query =
      queryLines (block [("a", "1"), ("b", "2")]).query := by
  obtain ⟨m, hm⟩ := exists_of_isOk (x := (block [("a", "1%0Ab:2")]).message) (by decide +kernel)
  obtain ⟨m', hm'⟩ :=
    exists_of_isOk (x := (block [("a", "1"), ("b", "2")]).message) (by decide +kernel)
  have h : canonical (block [("a", "1%0Ab:2")]) .full "account" =
      .ok "PUT\n\n\n\n\ntext/plain\n\n\n\n\n\n\n/account/box\na:1\nb:2" :=
    eq_ok_of_toOption (by decide +kernel)
  have h' : canonical (block [("a", "1"), ("b", "2")]) .full "account" =
      .ok "PUT\n\n\n\n\ntext/plain\n\n\n\n\n\n\n/account/box\na:1\nb:2" :=
    eq_ok_of_toOption (by decide +kernel)
  obtain ⟨-, -, -, -, query⟩ := canonical_unambiguous hm hm' (by decide) (by decide) h h'
  exact ⟨m, m', _, hm, hm', h, h', by decide, query⟩

end SharedKey
end SignedHttp

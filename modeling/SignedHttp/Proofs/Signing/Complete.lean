import SignedHttp.Proofs.Signing.Unambiguous

/-!
# SignedHttp.Proofs.Signing.Complete

What stands in the canonical text, and what does not (`canonical_complete`). There is a text unless
a value that has to be signed cannot be read, that is, unless it has a byte that is neither visible
nor a tab (`Header.Value.Unreadable`). The text then has a line for each `x-ms-` header whose values,
joined, are not empty (`ListsNamed`) and one for each name in the query, with all values that the
name has there (`ListsQuery`): no line is missing, none is there twice, and the names ascend, as do
the values of a name.
-/

namespace SignedHttp

open Header

/-! ## Values that cannot be read -/

namespace Utf8

/-- A tab, or a byte of visible ASCII. -/
def IsVisible (b : UInt8) : Prop := b = 0x09 ∨ (0x20 ≤ b ∧ b ≤ 0x7E)

theorem isVisible_iff {b : UInt8} :
    IsVisible b ↔ b.toNat = 0x09 ∨ (0x20 ≤ b.toNat ∧ b.toNat ≤ 0x7E) := by
  simp [IsVisible, ← UInt8.toNat_inj, UInt8.le_iff_toNat_le]

end Utf8

/-- A value with a byte that is neither visible nor a tab. -/
def Header.Value.Unreadable (v : Value) : Prop := ∃ b ∈ v.bytes, ¬ Utf8.IsVisible b

theorem Header.Value.unreadable_iff {v : Value} : v.Unreadable ↔ v.text? = none := by
  have visible (b : UInt8) : ¬ Utf8.IsVisible b ↔ ¬ isVisibleByte b = true :=
    not_congr (Utf8.isVisible_iff.trans isVisibleByte_iff.symm)
  rw [Unreadable, text?_eq_none_iff, List.all_eq_false]
  simp only [visible]

namespace Request

variable {r : Request} {e : Error}

/-- The failure to read a value as text. -/
def unreadable : Error := { cause := .unreadableHeader }

theorem headerText_eq_error_iff {name : Name} :
    r.headerText name = .error e ↔
      e = unreadable ∧ ∃ value, r.headers.first? name = some value ∧ value.Unreadable := by
  unfold headerText
  cases r.headers.first? name with
  | none => simp
  | some value =>
    simp only [Option.some.injEq, exists_eq_left', Value.unreadable_iff]
    cases value.text? with
    | none => simp [fails, unreadable, eq_comm]
    | some s => simp

/-! ## The headers that are signed with their names -/

theorem texts_eq {values : List Value} {texts : List String}
    (h : values.mapM Value.text? = some texts) : texts = values.map (·.content) := by
  exact eq_map_of_forall₂ (mapM_eq_some h) fun value text htext =>
    (Value.content_of_text? htext).symm

theorem texts_eq_none_iff {values : List Value} :
    values.mapM Value.text? = none ↔ ∃ value ∈ values, value.Unreadable := by
  induction values with
  | nil => simp
  | cons value values ih =>
    rw [List.mapM_cons, List.exists_mem_cons_iff, ← ih, Value.unreadable_iff]
    cases value.text? <;> cases values.mapM Value.text? <;> simp

/-- The values of a header as one text. -/
def joinedText (values : List Value) : String := ",".intercalate (values.map (·.content))

theorem joined_eq_ok {values : List Value} {text : String} (h : joined values = .ok text) :
    text = joinedText values := by
  unfold joined at h
  cases ht : values.mapM Value.text? with
  | none =>
    rw [ht] at h
    cases h
  | some texts =>
    rw [ht] at h
    cases h
    rw [texts_eq ht, joinedText]

theorem joined_eq_error_iff {values : List Value} :
    joined values = .error e ↔ e = unreadable ∧ ∃ value ∈ values, value.Unreadable := by
  rw [← texts_eq_none_iff]
  unfold joined
  cases values.mapM Value.text? <;> simp [fails, unreadable, eq_comm]

variable {start : String}

theorem headersStartingWith_eq_ok {headers : List (String × String)}
    (h : r.headersStartingWith start = .ok headers) :
    headers = ((r.namesStartingWith start).map fun name =>
      (name, joinedText (r.valuesOf name))).filter fun p => !p.2.isEmpty := by
  rw [headersStartingWith_eq] at h
  obtain ⟨texts, ht, h⟩ := ok_of_bind h
  cases h
  rw [eq_map_of_forall₂ (mapM_eq_ok ht)]
  intro name pair hpair
  obtain ⟨text, hj, hpair⟩ := ok_of_bind hpair
  cases hpair
  rw [joined_eq_ok hj]

theorem pairwise_headersStartingWith {headers : List (String × String)}
    (h : r.headersStartingWith start = .ok headers) :
    (headers.map (·.1)).Pairwise (· < ·) := by
  have names : (r.namesStartingWith start).Pairwise (· < ·) :=
    (Ascending.pairwise_ofList _).filter _
  have found : (((r.namesStartingWith start).map fun name =>
      (name, joinedText (r.valuesOf name))).map (·.1)) = r.namesStartingWith start := by
    simp [Function.comp_def]
  rw [headersStartingWith_eq_ok h]
  exact (found ▸ names).sublist (List.filter_sublist.map _)

theorem mem_headersStartingWith {headers : List (String × String)}
    (h : r.headersStartingWith start = .ok headers) {name text : String} :
    (name, text) ∈ headers ↔ text ≠ "" ∧ start.toList.isPrefixOf name.toList = true ∧
      ∃ n : Name, n.text = name ∧ joinedText (r.headers.values n) = text := by
  rw [headersStartingWith_eq_ok h, List.mem_filter, List.mem_map]
  constructor
  · rintro ⟨⟨found, hfound, heq⟩, hne⟩
    cases heq
    obtain ⟨hstart, n, rfl, -⟩ := mem_namesStartingWith.1 hfound
    exact ⟨by simpa using hne, hstart, n, rfl, by rw [valuesOf_text]⟩
  · rintro ⟨hne, hstart, n, rfl, rfl⟩
    refine ⟨⟨n.text, mem_namesStartingWith.2 ⟨hstart, n, rfl, ?_⟩, by rw [valuesOf_text]⟩,
      by simpa using hne⟩
    intro hnil
    have none : r.headers.values n = [] := List.map_eq_nil_iff.1 hnil
    rw [joinedText, none] at hne
    exact hne rfl

theorem headersStartingWith_eq_error_iff :
    r.headersStartingWith start = .error e ↔
      e = unreadable ∧ ∃ name : Name, start.toList.isPrefixOf name.text.toList = true ∧
        ∃ value ∈ r.headers.values name, value.Unreadable := by
  have fails {e : Error} (h : r.headersStartingWith start = .error e) : e = unreadable ∧
      ∃ name : Name, start.toList.isPrefixOf name.text.toList = true ∧
        ∃ value ∈ r.headers.values name, value.Unreadable := by
    rw [headersStartingWith_eq] at h
    obtain ⟨name, hname, hj⟩ := mapM_eq_error (bind_pure_eq_error.1 h)
    obtain ⟨he, unread⟩ := joined_eq_error_iff.1 (bind_pure_eq_error.1 hj)
    obtain ⟨hstart, n, rfl, -⟩ := mem_namesStartingWith.1 hname
    rw [valuesOf_text] at unread
    exact ⟨he, n, hstart, unread⟩
  refine ⟨fails, ?_⟩
  rintro ⟨rfl, n, hstart, value, hvalue, unread⟩
  cases h : r.headersStartingWith start with
  | error e => rw [(fails h).1]
  | ok headers =>
    -- the value would have been read on the way
    have hname : n.text ∈ r.namesStartingWith start :=
      mem_namesStartingWith.2 ⟨hstart, n, rfl, List.ne_nil_of_mem (List.mem_map_of_mem hvalue)⟩
    rw [headersStartingWith_eq] at h
    obtain ⟨texts, ht, -⟩ := ok_of_bind h
    obtain ⟨pair, hpair⟩ := ok_of_mem_mapM ht n.text hname
    obtain ⟨text, hj, -⟩ := ok_of_bind hpair
    rw [valuesOf_text, joined_eq_error_iff.2 ⟨rfl, value, hvalue, unread⟩] at hj
    cases hj

end Request

namespace SharedKey

variable {r : Request} {v : Variant} {e : Error}

/-! ## The whole text -/

theorem signedValue_eq_error_iff {name : Name} :
    signedValue r v name = .error e ↔ r.headerText name = .error e := by
  unfold signedValue
  cases r.headerText name with
  | error e' => exact Iff.of_eq rfl
  | ok value =>
    refine ⟨fun h => ?_, nofun⟩
    dsimp only [bind, Except.bind] at h
    split at h
    · split at h <;> cases h
    · cases h

/-- A request with a value that has to be signed and cannot be read: the first one of a signed
header, or any one of an `x-ms-` header. -/
def Unreadable (v : Variant) (r : Request) : Prop :=
  (∃ name ∈ v.signedHeaders, ∃ value, r.headers.first? name = some value ∧ value.Unreadable) ∨
  ∃ name : Name, isNamed name = true ∧ ∃ value ∈ r.headers.values name, value.Unreadable

theorem canonical_eq_error_iff (r : Request) (v : Variant) (account : String) (e : Error) :
    canonical r v account = .error e ↔ e = Request.unreadable ∧ Unreadable v r := by
  have headers {e : Error} : headerLines r = .error e ↔
      e = Request.unreadable ∧ ∃ name : Name, isNamed name = true ∧
        ∃ value ∈ r.headers.values name, value.Unreadable :=
    bind_pure_eq_error.trans Request.headersStartingWith_eq_error_iff
  unfold canonical
  cases hv : v.signedHeaders.mapM (signedValue r v) with
  | error e' =>
    obtain ⟨name, hname, hf⟩ := mapM_eq_error hv
    obtain ⟨rfl, unread⟩ := Request.headerText_eq_error_iff.1 (signedValue_eq_error_iff.1 hf)
    constructor
    · rintro ⟨⟩
      exact ⟨rfl, .inl ⟨name, hname, unread⟩⟩
    · rintro ⟨rfl, -⟩
      rfl
  | ok values =>
    have read : ¬ ∃ name ∈ v.signedHeaders, ∃ value,
        r.headers.first? name = some value ∧ value.Unreadable := by
      rintro ⟨name, hname, unread⟩
      obtain ⟨value, hf⟩ := ok_of_mem_mapM hv name hname
      rw [signedValue_eq_error_iff.2 (Request.headerText_eq_error_iff.2 ⟨rfl, unread⟩)] at hf
      cases hf
    rw [Unreadable, or_iff_right read, ← headers]
    exact bind_pure_eq_error

/-- A list of all `x-ms-` headers with a text, by ascending name. -/
structure ListsNamed (r : Request) (headers : List (String × String)) : Prop where
  ascending : (headers.map (·.1)).Pairwise (· < ·)
  mem : ∀ name text, (name, text) ∈ headers ↔ text ≠ "" ∧
    ∃ n : Name, n.text = name ∧ isNamed n = true ∧ Request.joinedText (r.headers.values n) = text

/-- A list of all values in a query, decoded, by lowercase name. Names and values ascend. -/
structure ListsQuery (q : Query) (groups : List (String × List String)) : Prop where
  ascending : (groups.map (·.1)).Pairwise (· < ·)
  values : ∀ group ∈ groups, group.2 ≠ [] ∧ group.2.Pairwise (· < ·)
  mem : ∀ name value, (∃ values, (name, values) ∈ groups ∧ value ∈ values) ↔
    ∃ n, (n, value) ∈ q.decoded ∧ Text.map Text.lower n = name

theorem listsNamed {headers : List (String × String)}
    (h : r.headersStartingWith "x-ms-" = .ok headers) : ListsNamed r headers where
  ascending := Request.pairwise_headersStartingWith h
  mem name text := by
    rw [Request.mem_headersStartingWith h]
    refine and_congr_right fun _ => ⟨?_, ?_⟩
    · rintro ⟨hstart, n, rfl, htext⟩
      exact ⟨n, rfl, hstart, htext⟩
    · rintro ⟨n, rfl, hstart, htext⟩
      exact ⟨hstart, n, rfl, htext⟩

theorem listsQuery (q : Query) : ListsQuery q (parameters q) where
  ascending := by
    rw [parameters, Ascending.map_fst_groups]
    exact Ascending.pairwise_ofList _
  values := by
    rintro ⟨name, values⟩ h
    refine ⟨Ascending.ne_nil_of_mem_groups h, ?_⟩
    obtain ⟨-, rfl⟩ := Ascending.mem_groups.1 h
    exact Ascending.pairwise_ofList _
  mem name value := by
    rw [parameters, Ascending.exists_mem_groups, List.mem_map]
    constructor
    · rintro ⟨⟨n, value'⟩, hpair, heq⟩
      cases heq
      exact ⟨n, hpair, rfl⟩
    · rintro ⟨n, hpair, rfl⟩
      exact ⟨(n, value), hpair, rfl⟩

/-- There is a canonical text unless a value that has to be signed cannot be read. It consists of the
method, the values of the signed headers, a line for each `x-ms-` header with a text, the account,
the path and a line for each name in the query. -/
theorem canonical_complete (r : Request) (v : Variant) (account : String) :
    (∀ e, canonical r v account = .error e ↔ e = Request.unreadable ∧ Unreadable v r) ∧
    ∀ text, canonical r v account = .ok text →
      ∃ values headers groups,
        List.Forall₂ (fun name value => signedValue r v name = .ok value) v.signedHeaders values ∧
        ListsNamed r headers ∧ ListsQuery r.query groups ∧
        text.toList = lines (r.method.text :: values) ++ lines (headers.map namedLine) ++
          ('/' :: account.toList) ++ r.path.toList ++ groups.flatMap parameterChars := by
  refine ⟨canonical_eq_error_iff r v account, fun text htext => ?_⟩
  obtain ⟨values, headers, hvalues, hheaders, layout⟩ := canonical_eq_ok htext
  refine ⟨values, headers, parameters r.query, hvalues, listsNamed hheaders, listsQuery r.query, ?_⟩
  rw [layout, queryLines]
  simp only [List.append_assoc, List.cons_append]

def metaA : Name := ⟨"x-ms-meta-a", by decide⟩

/-- A header that is given in two lines, and a parameter that has two values. -/
def doubled : Request where
  method := ⟨"GET", Eq.refl true⟩
  scheme := "https"
  authority := "host"
  path := "/box"
  headers := ⟨[(⟨"x-ms-meta-b", by decide⟩, .ofText "green" (by decide)),
    (metaA, .ofText "red" (by decide)), (metaA, .ofText "blue" (by decide))]⟩
  query := [("Part", "2"), ("part", "%31")]

/-- The same with one more value, which is no UTF-8. -/
def garbled : Request :=
  { doubled with headers := doubled.headers.add metaA ⟨[0xFF], false, by decide⟩ }

theorem doubled_complete :
    canonical doubled .lite "account" =
      .ok "GET\n\n\n\nx-ms-meta-a:red,blue\nx-ms-meta-b:green\n/account/box\npart:1,2" ∧
    (∃ values headers groups, ListsNamed doubled headers ∧ ListsQuery doubled.query groups ∧
      ("x-ms-meta-a", "red,blue") ∈ headers ∧ (∃ texts, ("part", texts) ∈ groups ∧ "1" ∈ texts) ∧
      "GET\n\n\n\nx-ms-meta-a:red,blue\nx-ms-meta-b:green\n/account/box\npart:1,2".toList =
        lines ("GET" :: values) ++ lines (headers.map namedLine) ++ "/account".toList ++
          "/box".toList ++ groups.flatMap parameterChars) ∧
    canonical garbled .lite "account" = .error Request.unreadable := by
  have text : canonical doubled .lite "account" =
      .ok "GET\n\n\n\nx-ms-meta-a:red,blue\nx-ms-meta-b:green\n/account/box\npart:1,2" := by
    decide +kernel
  obtain ⟨values, headers, groups, -, named, listed, layout⟩ :=
    (canonical_complete doubled .lite "account").2 _ text
  refine ⟨text, ⟨values, headers, groups, named, listed, ?_, ?_, layout⟩, ?_⟩
  · exact (named.mem _ _).2 ⟨by decide, metaA, rfl, rfl, by decide +kernel⟩
  · exact (listed.mem _ _).2 ⟨"part", by decide +kernel, by decide +kernel⟩
  · refine ((canonical_complete garbled .lite "account").1 _).2 ⟨rfl, .inr ⟨metaA, rfl, ?_⟩⟩
    refine ⟨⟨[0xFF], false, by decide⟩, by decide +kernel, 0xFF, by simp, ?_⟩
    rw [Utf8.isVisible_iff]
    decide

end SharedKey
end SignedHttp

import Mathlib.Logic.Relation
import SignedHttp.Proofs.Signing.Received

/-!
# SignedHttp.Proofs.Signing.Content

The canonical text depends on nothing but what is signed (`canonical_determined`). Two requests with
the same signed content (`SameContent`) have the same text, or fail with the same error. What does
not belong to that content can be changed freely, and what does can be written in other ways: in
another order, more than once, or encoded differently (`Retouched`).

* `groups_congr` takes care of the query: only the set of its parameters matters.
* `headersStartingWith_congr` does the same for the headers that are signed with their names: the
  list of them is determined by the values of each.
-/

namespace SignedHttp

open Header

namespace Request

variable {r r' : Request}

/-- What a header holds in its values. -/
def contents (r : Request) (name : Name) : List Bytes := (r.headers.values name).map (·.bytes)

/-! ## One header -/

theorem text?_congr {v w : Value} (h : v.bytes = w.bytes) : v.text? = w.text? := by
  unfold Value.text?
  rw [h]

theorem headerText_congr {name : Name}
    (h : (r.headers.first? name).map (·.bytes) = (r'.headers.first? name).map (·.bytes)) :
    r.headerText name = r'.headerText name := by
  unfold headerText
  cases hv : r.headers.first? name with
  | none =>
    rw [hv] at h
    rw [Option.map_eq_none_iff.1 h.symm]
  | some v =>
    rw [hv] at h
    obtain ⟨w, hw, hbytes⟩ := Option.map_eq_some_iff.1 h.symm
    rw [hw]
    dsimp only
    rw [text?_congr hbytes]

theorem joined_congr : ∀ {vs ws : List Value}, vs.map (·.bytes) = ws.map (·.bytes) →
    joined vs = joined ws := by
  intro vs ws h
  have texts : ∀ {vs ws : List Value}, vs.map (·.bytes) = ws.map (·.bytes) →
      vs.mapM Value.text? = ws.mapM Value.text? := by
    intro vs
    induction vs with
    | nil =>
      intro ws h
      rw [List.map_eq_nil_iff.1 h.symm]
    | cons v vs ih =>
      intro ws h
      cases ws with
      | nil => cases h
      | cons w ws =>
        obtain ⟨hhead, htail⟩ := List.cons.inj h
        rw [List.mapM_cons, List.mapM_cons, text?_congr hhead, ih htail]
  unfold joined
  rw [texts h]

/-! ## The headers whose names start alike -/

/-- The names of all headers that start with a text, in ascending order. -/
def namesStartingWith (r : Request) (start : String) : List String :=
  (Ascending.ofList (r.headers.fields.map (·.1.text))).filter fun name =>
    start.toList.isPrefixOf name.toList

def valuesOf (r : Request) (name : String) : List Value :=
  Ascending.valuesOf name (r.headers.fields.map fun f => (f.1.text, f.2))

theorem valuesOf_text (r : Request) (name : Name) :
    r.valuesOf name.text = r.headers.values name := by
  have same : ((fun p : String × Value => p.1 == name.text) ∘ fun f : Name × Value =>
      (f.1.text, f.2)) = fun f => decide (f.1 = name) := by
    funext f
    have hname : f.1 = name ↔ f.1.text = name.text := by
      constructor
      · intro h
        rw [h]
      · intro h
        cases hf : f.1
        cases name
        simp_all
    simp [hname, beq_eq_decide]
  unfold valuesOf Ascending.valuesOf Headers.values
  rw [List.filter_map, List.map_map, same]
  rfl

theorem headersStartingWith_eq (r : Request) (start : String) :
    r.headersStartingWith start = (do
      let texts ← (r.namesStartingWith start).mapM fun name => do
        let text ← joined (r.valuesOf name)
        pure (name, text)
      .ok (texts.filter fun p => !p.2.isEmpty)) := by
  have found : (r.headers.byName.filter fun p => start.toList.isPrefixOf p.1.toList) =
      (r.namesStartingWith start).map fun name => (name, r.valuesOf name) := by
    unfold Headers.byName Ascending.collect namesStartingWith valuesOf
    rw [List.filter_map, List.map_map]
    rfl
  simp only [headersStartingWith, found, List.mapM_map]
  rfl

theorem mem_namesStartingWith {start name : String} :
    name ∈ r.namesStartingWith start ↔ start.toList.isPrefixOf name.toList = true ∧
      ∃ n : Name, n.text = name ∧ r.contents n ≠ [] := by
  unfold namesStartingWith contents Headers.values
  rw [List.mem_filter, Ascending.mem_ofList, List.mem_map, and_comm]
  refine and_congr_right fun _ => ⟨?_, ?_⟩
  · rintro ⟨f, hf, rfl⟩
    refine ⟨f.1, rfl, fun hnil => ?_⟩
    simp only [List.map_eq_nil_iff, List.filter_eq_nil_iff, decide_eq_true_eq] at hnil
    exact hnil f hf rfl
  · rintro ⟨n, rfl, hne⟩
    obtain ⟨text, htext⟩ := List.exists_mem_of_ne_nil _ hne
    simp only [List.mem_map, List.mem_filter, decide_eq_true_eq] at htext
    obtain ⟨v, ⟨f, ⟨hf, hname⟩, -⟩, -⟩ := htext
    exact ⟨f, hf, by rw [hname]⟩

theorem headersStartingWith_congr {start : String}
    (h : ∀ name : Name, start.toList.isPrefixOf name.text.toList = true →
      r.contents name = r'.contents name) :
    r.headersStartingWith start = r'.headersStartingWith start := by
  have names : r.namesStartingWith start = r'.namesStartingWith start := by
    have ascending (r : Request) : (r.namesStartingWith start).Pairwise (· < ·) :=
      (Ascending.pairwise_ofList _).filter _
    refine (ascending r).eq_of_mem_iff (ascending r') fun name => ?_
    rw [mem_namesStartingWith, mem_namesStartingWith]
    refine and_congr_right fun hstart => exists_congr fun n => and_congr_right fun hn => ?_
    rw [h n (hn ▸ hstart)]
  rw [headersStartingWith_eq, headersStartingWith_eq, names]
  congr 1
  refine mapM_of_agree fun name hname => ?_
  obtain ⟨hstart, n, rfl, -⟩ := mem_namesStartingWith.1 hname
  rw [valuesOf_text, valuesOf_text, joined_congr (h n hstart)]

end Request

namespace SharedKey

/-! ## The same content -/

/-- A header that is signed together with its name. -/
def isNamed (name : Name) : Bool := "x-ms-".toList.isPrefixOf name.text.toList

/-- The parameters of a query as they are signed: names in lowercase and values, both decoded. -/
def signedPairs (q : Query) : List (String × String) :=
  q.decoded.map fun (name, value) => (Text.map Text.lower name, value)

/-- What a key signs is the same in two requests. -/
structure SameContent (v : Variant) (r r' : Request) : Prop where
  method : r.method = r'.method
  path : r.path = r'.path
  query : ∀ pair, pair ∈ signedPairs r.query ↔ pair ∈ signedPairs r'.query
  signed : ∀ name ∈ v.signedHeaders,
    (r.headers.first? name).map (·.bytes) = (r'.headers.first? name).map (·.bytes)
  type : r.headers.contains contentType = false →
    r.body.bind (·.contentType) = r'.body.bind (·.contentType)
  named : ∀ name, isNamed name = true → r.contents name = r'.contents name

variable {v : Variant} {r r' : Request}

theorem contentType_mem_signedHeaders (v : Variant) : contentType ∈ v.signedHeaders := by
  cases v <;> decide

theorem SameContent.contains (h : SameContent v r r') :
    r.headers.contains contentType = r'.headers.contains contentType := by
  have first := congrArg Option.isSome (h.signed contentType (contentType_mem_signedHeaders v))
  rwa [Option.isSome_map, Option.isSome_map] at first

theorem SameContent.bodyType? (h : SameContent v r r') :
    SharedKey.bodyType? r = SharedKey.bodyType? r' := by
  unfold SharedKey.bodyType?
  rw [← h.contains]
  by_cases hc : r.headers.contains contentType = true
  · rw [if_pos hc, if_pos hc]
  · rw [if_neg hc, if_neg hc, h.type (by simpa using hc)]

theorem SameContent.signedValue (h : SameContent v r r') {name : Name}
    (hname : name ∈ v.signedHeaders) :
    SharedKey.signedValue r v name = SharedKey.signedValue r' v name := by
  unfold SharedKey.signedValue
  rw [Request.headerText_congr (h.signed name hname), h.bodyType?]

theorem SameContent.canonical (h : SameContent v r r') (account : String) :
    SharedKey.canonical r v account = SharedKey.canonical r' v account := by
  have values : v.signedHeaders.mapM (SharedKey.signedValue r v) =
      v.signedHeaders.mapM (SharedKey.signedValue r' v) :=
    mapM_of_agree fun name hname => h.signedValue hname
  have named : headerLines r = headerLines r' := by
    unfold headerLines
    rw [Request.headersStartingWith_congr h.named]
  have query : parameters r.query = parameters r'.query := Ascending.groups_congr h.query
  unfold SharedKey.canonical resourceChars
  rw [values, named, h.method, h.path, query]

theorem SameContent.refl (v : Variant) (r : Request) : SameContent v r r :=
  ⟨rfl, rfl, fun _ => Iff.rfl, fun _ _ => rfl, fun _ => rfl, fun _ _ => rfl⟩

theorem SameContent.trans {r'' : Request} (h : SameContent v r r') (h' : SameContent v r' r'') :
    SameContent v r r'' where
  method := h.method.trans h'.method
  path := h.path.trans h'.path
  query pair := (h.query pair).trans (h'.query pair)
  signed name hname := (h.signed name hname).trans (h'.signed name hname)
  type absent := (h.type absent).trans (h'.type (h.contains ▸ absent))
  named name hname := (h.named name hname).trans (h'.named name hname)

/-! ## Other ways to write the same content -/

/-- A change of a request that leaves what is signed alone. -/
inductive Retouched (v : Variant) (r : Request) : Request → Prop where
  | permuted {query : Query} : r.query.Perm query → Retouched v r { r with query }
  | doubled {pair : String × String} :
      pair ∈ r.query → Retouched v r { r with query := pair :: r.query }
  | renamed {front back : Query} {name name' value : String} :
      r.query = front ++ (name, value) :: back →
      Text.lower (Percent.decode name'.toList) = Text.lower (Percent.decode name.toList) →
      Retouched v r { r with query := front ++ (name', value) :: back }
  | reencoded {front back : Query} {name value value' : String} :
      r.query = front ++ (name, value) :: back →
      Percent.decode value'.toList = Percent.decode value.toList →
      Retouched v r { r with query := front ++ (name, value') :: back }
  /-- The headers stand in another order, but not those of one name. -/
  | reordered {headers : Headers} :
      r.headers.fields.Perm headers.fields →
      (∀ name, headers.values name = r.headers.values name) → Retouched v r { r with headers }
  | otherHeaders {headers : Headers} :
      (∀ name, name ∈ v.signedHeaders ∨ isNamed name = true →
        headers.values name = r.headers.values name) → Retouched v r { r with headers }
  | body {body : Body} {content : Bytes} :
      r.body = some body → Retouched v r { r with body := some { body with content } }
  | origin {scheme authority : String} : Retouched v r { r with scheme, authority }
  | timeout {timeout : Option Duration} : Retouched v r { r with timeout }

theorem sameContent_of_query {query : Query}
    (h : ∀ pair, pair ∈ signedPairs r.query ↔ pair ∈ signedPairs query) :
    SameContent v r { r with query } :=
  { SameContent.refl v r with query := h }

theorem sameContent_of_headers {headers : Headers}
    (h : ∀ name, name ∈ v.signedHeaders ∨ isNamed name = true →
      headers.values name = r.headers.values name) : SameContent v r { r with headers } where
  method := rfl
  path := rfl
  query _ := Iff.rfl
  signed name hname := by
    rw [Headers.first?, Headers.first?, h name (.inl hname)]
  type _ := rfl
  named name hname := by
    rw [Request.contents, Request.contents, h name (.inr hname)]

theorem signedPairs_append (p q : Query) :
    signedPairs (p ++ q) = signedPairs p ++ signedPairs q := by
  simp [signedPairs, Query.decoded]

theorem signedPairs_cons (name value : String) (q : Query) :
    signedPairs ((name, value) :: q) =
      (String.ofList (Text.lower (Percent.decode name.toList)),
        String.ofList (Percent.decode value.toList)) :: signedPairs q := by
  simp [signedPairs, Query.decoded, Text.map]

theorem Retouched.sameContent (h : Retouched v r r') : SameContent v r r' := by
  cases h with
  | permuted h =>
    refine sameContent_of_query fun pair => List.Perm.mem_iff ?_
    exact (h.map _).map _
  | @doubled pair h =>
    refine sameContent_of_query fun other => ?_
    have known : signedPairs [pair] ⊆ signedPairs r.query := by
      obtain ⟨front, back, hquery⟩ := List.append_of_mem h
      rw [hquery, List.append_cons, signedPairs_append, signedPairs_append]
      intro x hx
      simp [hx]
    rw [← List.singleton_append, signedPairs_append, List.mem_append]
    exact ⟨.inr, fun hother => hother.elim (fun hp => known hp) id⟩
  | renamed hquery hname =>
    refine sameContent_of_query fun pair => ?_
    rw [hquery, signedPairs_append, signedPairs_append, signedPairs_cons, signedPairs_cons, hname]
  | reencoded hquery hvalue =>
    refine sameContent_of_query fun pair => ?_
    rw [hquery, signedPairs_append, signedPairs_append, signedPairs_cons, signedPairs_cons, hvalue]
  | reordered _ h => exact sameContent_of_headers fun name _ => h name
  | otherHeaders h => exact sameContent_of_headers h
  | body h => exact { SameContent.refl v r with type := fun _ => by simp [h] }
  | origin => exact { SameContent.refl v r with }
  | timeout => exact { SameContent.refl v r with }

theorem sameContent_of_retouched (h : Relation.ReflTransGen (Retouched v) r r') :
    SameContent v r r' := by
  induction h with
  | refl => exact .refl v r
  | tail _ step ih => exact ih.trans step.sameContent

/-- The canonical text is determined by what is signed, and so is the failure to make one up. -/
theorem canonical_determined (v : Variant) (account : String) (r r' : Request) :
    (SameContent v r r' → canonical r v account = canonical r' v account) ∧
    (Relation.ReflTransGen (Retouched v) r r' →
      canonical r v account = canonical r' v account) :=
  ⟨fun h => h.canonical account, fun h => (sameContent_of_retouched h).canonical account⟩

def block (query : Query) : Request := { upload "text/plain" with query }

/-- The same upload, written in another way. -/
def sameBlock : Request :=
  { block [("comp", "block"), ("BlockID", "YQ=="), ("comp", "block")] with scheme := "http" }

theorem block_retouched : Relation.ReflTransGen (Retouched .full)
    (block [("comp", "block"), ("blockid", "YQ%3D%3D")]) sameBlock := by
  have swapped : Retouched .full (block [("comp", "block"), ("blockid", "YQ%3D%3D")])
      (block [("blockid", "YQ%3D%3D"), ("comp", "block")]) :=
    .permuted (List.Perm.swap _ _ [])
  have renamed : Retouched .full (block [("blockid", "YQ%3D%3D"), ("comp", "block")])
      (block [("BlockID", "YQ%3D%3D"), ("comp", "block")]) := by
    have first : (block [("blockid", "YQ%3D%3D"), ("comp", "block")]).query =
        [] ++ ("blockid", "YQ%3D%3D") :: [("comp", "block")] := rfl
    exact .renamed first (by decide +kernel)
  have reencoded : Retouched .full (block [("BlockID", "YQ%3D%3D"), ("comp", "block")])
      (block [("BlockID", "YQ=="), ("comp", "block")]) := by
    have first : (block [("BlockID", "YQ%3D%3D"), ("comp", "block")]).query =
        [] ++ ("BlockID", "YQ%3D%3D") :: [("comp", "block")] := rfl
    exact .reencoded first (by decide +kernel)
  have doubled : Retouched .full (block [("BlockID", "YQ=="), ("comp", "block")])
      (block [("comp", "block"), ("BlockID", "YQ=="), ("comp", "block")]) :=
    .doubled (by decide)
  exact .tail (.tail (.tail (.tail (.single swapped) renamed) reencoded) doubled) .origin

theorem block_determined :
    SameContent .full (block [("comp", "block"), ("blockid", "YQ%3D%3D")]) sameBlock ∧
    Relation.ReflTransGen (Retouched .full)
      (block [("comp", "block"), ("blockid", "YQ%3D%3D")]) sameBlock ∧
    canonical (block [("comp", "block"), ("blockid", "YQ%3D%3D")]) .full "account" =
      canonical sameBlock .full "account" ∧
    (canonical sameBlock .full "account").toOption = some
      "PUT\n\n\n\n\ntext/plain\n\n\n\n\n\n\n/account/box\nblockid:YQ==\ncomp:block" :=
  ⟨sameContent_of_retouched block_retouched, block_retouched,
    (canonical_determined .full "account" _ sameBlock).2 block_retouched, by decide +kernel⟩

end SharedKey
end SignedHttp

import SignedHttp.Proofs.Http.Header
import SignedHttp.Proofs.Request.Built
import SignedHttp.Proofs.Text.Ascending
import SignedHttp.Proofs.Time.Order
import SignedHttp.Signing

/-!
# SignedHttp.Proofs.Signing.Received

Whether what is signed is what is sent. A server that knows the key makes a request of the message,
makes up its canonical text and compares signatures. `canonical_received` says exactly when its text
is the one that was signed, whatever steps the request was built in: the query has to mean the same
when it is read back, and the type of the body, where it is filled in as a header, has to be signed
as that header is (`SharedKey.TypeSurvives`). Everything else comes through: the method, the path,
the `x-ms-` headers and all other signed headers.

The type of a body does not always survive. The full variant signs it as it is, but takes a header
with the type `0` for nothing (`zeroType_refused`).
-/

namespace SignedHttp

open Header

/-! ## Headers that do not matter -/

theorem Headers.first?_set_of_ne (h : Headers) {name other : Name} (value : Value)
    (ne : other ≠ name) : (h.set name value).first? other = h.first? other := by
  rw [first?, values_set_of_ne h value ne, first?]

theorem Headers.first?_set_self (h : Headers) (name : Name) (value : Value) :
    (h.set name value).first? name = some value := by
  rw [first?, values_set_self]
  rfl

namespace SharedKey

/-- Two requests look the same as far as the canonical text goes, the type of the body, the path and
the query apart. -/
structure Alike (r r' : Request) : Prop where
  method : r'.method = r.method
  first? : ∀ name, name ≠ contentType → name ≠ authorization →
    r'.headers.first? name = r.headers.first? name
  lines : headerLines r' = headerLines r

theorem headerLines_set (r r' : Request) {name : Name} (value : Value)
    (hname : "x-ms-".toList.isPrefixOf name.text.toList = false)
    (h : r'.headers = r.headers.set name value) : headerLines r' = headerLines r := by
  have found := Headers.filter_byName_set (fun s => "x-ms-".toList.isPrefixOf s.toList) r.headers
    value hname
  unfold headerLines Request.headersStartingWith
  rw [h]
  simp only [found]

theorem Alike.set {r r' : Request} (alike : Alike r r') {r'' : Request} {name : Name}
    (value : Value) (hname : name = contentType ∨ name = authorization)
    (hmethod : r''.method = r'.method) (h : r''.headers = r'.headers.set name value) :
    Alike r r'' where
  method := hmethod.trans alike.method
  first? := by
    intro other htype hauth
    have ne : other ≠ name := by
      rcases hname with rfl | rfl
      · exact htype
      · exact hauth
    rw [h, Headers.first?_set_of_ne _ value ne]
    exact alike.first? other htype hauth
  lines := by
    rw [headerLines_set r' r'' value ?_ h, alike.lines]
    rcases hname with rfl | rfl <;> decide

/-! ## The type of the body -/

/-- The type of the body, if it is filled in as a header, is signed as that header is. -/
def TypeSurvives (v : Variant) (r : Request) : Prop :=
  ∀ type, bodyType? r = some type →
    type.toList.all isVisibleChar = true ∧ ¬ (v = .full ∧ type = "0")

theorem signedValue_of_ne {r r' : Request} (alike : Alike r r') (v : Variant) {name : Name}
    (htype : name ≠ contentType) (hauth : name ≠ authorization) :
    signedValue r' v name = signedValue r v name := by
  unfold signedValue Request.headerText
  rw [alike.first? name htype hauth]
  simp only [if_neg htype]

theorem signedValue_contentType_of_none {r r' : Request} (v : Variant)
    (h : r'.headers.first? contentType = r.headers.first? contentType) (hr : bodyType? r = none)
    (hr' : bodyType? r' = none) : signedValue r' v contentType = signedValue r v contentType := by
  unfold signedValue Request.headerText
  rw [h, hr, hr']

theorem headerText_of_some {r : Request} {name : Name} {value : Value}
    (h : r.headers.first? name = some value) :
    r.headerText name =
      match value.text? with
      | some s => .ok s
      | none => fails .unreadableHeader := by
  unfold Request.headerText
  cases ht : value.text? <;> simp only [h, ht]

theorem bodyType?_of_first? {r r' : Request}
    (h : r'.headers.first? contentType = r.headers.first? contentType) (hbody : r'.body = r.body) :
    bodyType? r' = bodyType? r := by
  unfold bodyType? Headers.contains
  rw [h, hbody]

theorem signedValue_of_bodyType {r : Request} (v : Variant) {type : String}
    (h : bodyType? r = some type) : signedValue r v contentType = .ok type := by
  have absent : r.headers.first? contentType = none := by
    unfold bodyType? Headers.contains at h
    cases hf : r.headers.first? contentType with
    | none => rfl
    | some value =>
      rw [hf] at h
      cases h
  unfold signedValue Request.headerText
  rw [absent, h]
  rfl

/-- A header with a type that cannot be read is not signed, and the full variant signs nothing for
the type `0`. -/
theorem signedValue_of_header {r : Request} (v : Variant) {type : String} {value : Value}
    (made : Value.ofText? type = some value) (h : r.headers.first? contentType = some value) :
    signedValue r v contentType =
      if type.toList.all isVisibleChar = true then
        .ok (if v = .full ∧ type = "0" then "" else type)
      else fails .unreadableHeader := by
  have filled : bodyType? r = none := by
    unfold bodyType? Headers.contains
    rw [h]
    rfl
  unfold signedValue
  rw [headerText_of_some h, filled, Value.text?_of_ofText? made]
  by_cases hv : type.toList.all isVisibleChar = true
  · rw [if_pos hv, if_pos hv]
    rfl
  · rw [if_neg hv, if_neg hv]
    rfl

/-! ## The canonical text -/

theorem signedHeaders_split (v : Variant) :
    ∃ before after, v.signedHeaders = before ++ contentType :: after ∧
      ∀ name ∈ before ++ after, name ≠ contentType ∧ name ≠ authorization := by
  cases v with
  | full =>
    exact ⟨[contentEncoding, contentLanguage, contentLength, contentMd5],
      [date, ifModifiedSince, ifMatch, ifNoneMatch, ifUnmodifiedSince, range], rfl, by decide⟩
  | lite => exact ⟨[contentMd5], [date], rfl, by decide⟩
  | queue => exact ⟨[contentMd5], [date], rfl, by decide⟩

def queryLines (q : Query) : List Char := (parameters q).flatMap parameterChars

/-- The canonical texts of two requests that look alike, side by side. -/
theorem canonical_alike {r r' : Request} (alike : Alike r r') (hpath : r'.path = r.path)
    {v : Variant} {account text : String} (h : canonical r v account = .ok text) :
    ∃ front back : List Char, ∃ type,
      signedValue r v contentType = .ok type ∧
      text = String.ofList (front ++ (type.toList ++ '\n' :: (back ++ queryLines r.query))) ∧
      canonical r' v account = (signedValue r' v contentType).map fun type' =>
        String.ofList (front ++ (type'.toList ++ '\n' :: (back ++ queryLines r'.query))) := by
  obtain ⟨before, after, hnames, hne⟩ := signedHeaders_split v
  unfold canonical at h ⊢
  obtain ⟨values, hv, h⟩ := ok_of_bind h
  obtain ⟨headers, hl, h⟩ := ok_of_bind h
  cases h
  rw [hnames] at hv
  obtain ⟨front, type, back, htype, rfl, hvalues⟩ := mapM_of_split
    (g := signedValue r' v) (fun name hname =>
      signedValue_of_ne alike v (hne name hname).1 (hne name hname).2) hv
  refine ⟨lines [r.method.text] ++ lines front,
    lines back ++ headers ++ ('/' :: account.toList ++ r.path.toList), type, htype, ?_, ?_⟩
  · simp [lines, resourceChars, queryLines]
  · rw [hnames, hvalues, alike.lines, hl, alike.method]
    cases signedValue r' v contentType with
    | error e => rfl
    | ok type' =>
      simp [bind, Except.bind, Except.map, lines, resourceChars, queryLines, hpath]

theorem ofList_append_inj {front a b : List Char} :
    String.ofList (front ++ a) = String.ofList (front ++ b) ↔ a = b := by
  rw [String.ofList_inj, List.append_right_inj]

section

variable {r r' : Request} {v : Variant} {account text : String}

/-- Where the type is signed alike, the texts differ in the query at most. -/
theorem canonical_eq_iff (alike : Alike r r') (hpath : r'.path = r.path)
    (h : canonical r v account = .ok text)
    (same : signedValue r' v contentType = signedValue r v contentType) :
    canonical r' v account = .ok text ↔ queryLines r'.query = queryLines r.query := by
  obtain ⟨front, back, type, htype, rfl, hcanonical⟩ := canonical_alike alike hpath h
  rw [hcanonical, same, htype]
  simp only [Except.map, Except.ok.injEq]
  rw [ofList_append_inj]
  simp

/-- A type that is filled in from the body is signed alike, or the texts differ in its line. -/
theorem canonical_eq_iff_of_bodyType (alike : Alike r r') (hpath : r'.path = r.path)
    (h : canonical r v account = .ok text) {type : String} {value : Value}
    (hbody : bodyType? r = some type) (made : Value.ofText? type = some value)
    (hsent : r'.headers.first? contentType = some value) :
    canonical r' v account = .ok text ↔
      TypeSurvives v r ∧ queryLines r'.query = queryLines r.query := by
  have before := signedValue_of_bodyType v hbody
  have after := signedValue_of_header v made hsent
  have survives : TypeSurvives v r ↔ type.toList.all isVisibleChar = true ∧
      ¬ (v = .full ∧ type = "0") := by
    simp [TypeSurvives, hbody]
  by_cases hv : type.toList.all isVisibleChar = true
  · by_cases hzero : v = .full ∧ type = "0"
    · obtain ⟨front, back, line, htype, rfl, hcanonical⟩ := canonical_alike alike hpath h
      rw [before] at htype
      cases htype
      rw [if_pos hv, if_pos hzero] at after
      rw [survives, hcanonical, after]
      simp only [Except.map, Except.ok.injEq]
      -- the line is empty now, and a line feed stands where `0` stood
      rw [ofList_append_inj]
      simp [hzero.1, hzero.2]
    · rw [if_pos hv, if_neg hzero, ← before] at after
      rw [canonical_eq_iff alike hpath h after, survives]
      simp only [hv, hzero, not_false_eq_true, and_self, true_and]
  · obtain ⟨front, back, line, htype, rfl, hcanonical⟩ := canonical_alike alike hpath h
    rw [if_neg hv] at after
    rw [survives, hcanonical, after]
    simp [Except.map, fails, hv]

end

/-- The query, read back, gives the same lines. -/
def QuerySurvives (q : Query) : Prop := queryLines q.received = queryLines q

theorem querySurvives_of_notMem {q : Query} (h : ("", "") ∉ q)
    (h' : ∀ pair, q.head? = some pair → pair.1.toList.head? ≠ some '?') : QuerySurvives q := by
  rw [QuerySurvives, Query.received_eq_self h h']

end SharedKey

/-! ## Signing and sending -/

theorem Request.sentHeaders_cases {r : Request} {headers : Headers}
    (h : r.sentHeaders = .ok headers) :
    (SharedKey.bodyType? r = none ∧ headers = r.headers) ∨
    ∃ type value, SharedKey.bodyType? r = some type ∧ Value.ofText? type = some value ∧
      headers = r.headers.set contentType value := by
  unfold sentHeaders at h
  unfold SharedKey.bodyType?
  cases hb : r.body.bind (·.contentType) with
  | none =>
    rw [hb] at h
    cases h
    exact .inl ⟨by simp, rfl⟩
  | some type =>
    rw [hb] at h
    dsimp only at h
    by_cases hc : r.headers.contains contentType = true
    · rw [if_pos hc] at h
      cases h
      exact .inl ⟨by rw [if_pos hc], rfl⟩
    · rw [if_neg hc] at h
      cases hv : Value.ofText? type with
      | none =>
        rw [hv] at h
        cases h
      | some value =>
        rw [hv] at h
        cases h
        exact .inr ⟨type, value, by rw [if_neg hc], hv, rfl⟩

namespace Scheme

open SharedKey

/-- What a shared key makes of a request: the date, and, unless there is no canonical text or no
header for its signature, a proof of identity. -/
theorem sign_cases {s : Scheme} {v : Variant} (hscheme : s.variant? = some v) (now : Instant)
    (account : String) (key : Bytes) (r : Request) :
    (∃ e, s.sign now (some (.sharedKey account key)) r = ⟨.error e, stamped r now⟩ ∧
      ∀ text, canonical (stamped r now) v account = .ok text →
        (authorizationText v account (signature key text)).toList.all isValueChar = false) ∨
    ∃ text proof, canonical (stamped r now) v account = .ok text ∧
      proof.bytes = Utf8.encode (authorizationText v account (signature key text)).toList ∧
      proof.sensitive = true ∧
      s.sign now (some (.sharedKey account key)) r =
        ⟨.ok (), { stamped r now with
          headers := (stamped r now).headers.set authorization proof }⟩ := by
  unfold sign signedWith
  rw [hscheme]
  dsimp only
  cases hc : canonical (stamped r now) v account with
  | error e => exact .inl ⟨e, rfl, nofun⟩
  | ok text =>
    cases hv : Value.ofText? (authorizationText v account (signature key text)) with
    | some value =>
      refine .inr ⟨text, value.secret, rfl, (Value.ofText?_eq_some_iff.1 hv).1, rfl, ?_⟩
      simp [bind, Except.bind, authorized, hv, outcome]
    | none =>
      refine .inl ⟨{ cause := .badHeaderValue }, ?_, fun text' htext => ?_⟩
      · simp [bind, Except.bind, authorized, hv, outcome, fails]
      · cases htext
        exact Value.ofText?_eq_none_iff.1 hv

theorem sign_eq_ok {s : Scheme} {v : Variant} {now : Instant} {account : String} {key : Bytes}
    {r r₁ : Request} (hscheme : s.variant? = some v)
    (h : s.sign now (some (.sharedKey account key)) r = ⟨.ok (), r₁⟩) :
    ∃ text proof, canonical (stamped r now) v account = .ok text ∧
      proof.bytes = Utf8.encode (authorizationText v account (signature key text)).toList ∧
      r₁ = { stamped r now with headers := (stamped r now).headers.set authorization proof } := by
  obtain ⟨e, failed, -⟩ | ⟨text, proof, htext, hproof, -, signed⟩ :=
    sign_cases hscheme now account key r
  · rw [failed] at h
    cases h
  · rw [signed] at h
    cases h
    exact ⟨text, proof, htext, hproof, rfl⟩

end Scheme

/-- Whether a server that knows the key of an account finds the signature of a message right. -/
def Message.verifies (m : Message) (v : SharedKey.Variant) (account : String) (key : Bytes) :
    Bool :=
  match Request.ofMessage m with
  | .error _ => false
  | .ok r =>
    match SharedKey.canonical r v account with
    | .error _ => false
    | .ok text =>
      (m.headers.first? authorization).map (·.bytes) = some (Utf8.encode
        (SharedKey.authorizationText v account (SharedKey.signature key text)).toList)

section

open SharedKey

variable {s : Scheme} {v : Variant} {now : Instant} {account : String} {key : Bytes}
variable {r r₁ : Request} {m : Message}

/-- What the server makes of a message looks like the request as it was stamped. The type of the
body is the same header in both, or it is filled in from the body. -/
theorem received_of_sent {proof : Value} (hr : r₁ = { Scheme.stamped r now with
      headers := (Scheme.stamped r now).headers.set authorization proof })
    (hsent : r₁.sentHeaders = .ok m.headers) :
    Alike (Scheme.stamped r now) (r₁.received m.headers) ∧
    m.headers.first? authorization = some proof ∧
    ((bodyType? r = none ∧ signedValue (r₁.received m.headers) v contentType =
        signedValue (Scheme.stamped r now) v contentType) ∨
      ∃ type value, bodyType? r = some type ∧ bodyType? (Scheme.stamped r now) = some type ∧
        Value.ofText? type = some value ∧
        (r₁.received m.headers).headers.first? contentType = some value) := by
  have ofStamp : bodyType? (Scheme.stamped r now) = bodyType? r :=
    bodyType?_of_first? (Headers.first?_set_of_ne _ _ (by decide)) rfl
  have ofProof : bodyType? r₁ = bodyType? (Scheme.stamped r now) := by
    rw [hr]
    exact bodyType?_of_first? (Headers.first?_set_of_ne _ _ (by decide)) rfl
  have found : r₁.headers.first? authorization = some proof := by
    rw [hr]
    exact Headers.first?_set_self _ _ _
  have signed : Alike (Scheme.stamped r now) r₁ := by
    have same : Alike (Scheme.stamped r now) (Scheme.stamped r now) := ⟨rfl, fun _ _ _ => rfl, rfl⟩
    exact same.set proof (.inr rfl) (by rw [hr]) (by rw [hr])
  rcases Request.sentHeaders_cases hsent with
    ⟨hnone, hheaders⟩ | ⟨type, value, hsome, made, hheaders⟩
  · rw [hheaders]
    refine ⟨⟨signed.method, signed.first?, signed.lines⟩, found,
      .inl ⟨by rw [← ofStamp, ← ofProof, hnone], ?_⟩⟩
    refine signedValue_contentType_of_none v ?_ (by rw [← ofProof, hnone]) ?_
    · rw [hr]
      exact Headers.first?_set_of_ne _ _ (by decide)
    · unfold bodyType?
      split <;> rfl
  · rw [hheaders]
    refine ⟨signed.set value (.inl rfl) rfl rfl, ?_,
      .inr ⟨type, value, by rw [← ofStamp, ← ofProof, hsome], by rw [← ofProof, hsome], made,
        Headers.first?_set_self _ _ _⟩⟩
    rw [Headers.first?_set_of_ne _ _ (by decide), found]

theorem authorizationText_inj {mark mark' : String} :
    Utf8.encode (authorizationText v account mark).toList =
      Utf8.encode (authorizationText v account mark').toList ↔ mark = mark' := by
  refine ⟨fun h => ?_, fun h => by rw [h]⟩
  have same := String.toList_inj.1 (Utf8.eq_of_encode_eq h)
  unfold authorizationText at same
  exact (String.append_right_inj _).1 same

theorem verifies_iff {r' : Request} {text : String} (hread : Request.ofMessage m = .ok r')
    (carried : (m.headers.first? authorization).map (·.bytes) =
      some (Utf8.encode (authorizationText v account (signature key text)).toList)) :
    m.verifies v account key = true ↔
      ∃ text', canonical r' v account = .ok text' ∧ signature key text' = signature key text := by
  unfold Message.verifies
  rw [hread, carried]
  dsimp only
  cases hc : canonical r' v account with
  | error e => simp
  | ok text' =>
    simp only [Option.some.injEq, decide_eq_true_eq, authorizationText_inj, Except.ok.injEq,
      exists_eq_left']
    exact eq_comm

/-- A server that knows the key makes up the text that was signed if and only if the type of the
body and the query survive the way. Only then it finds the signature right, unless another text has
the same signature. -/
theorem canonical_received (built : r.Built) (hscheme : s.variant? = some v)
    (hsign : s.sign now (some (.sharedKey account key)) r = ⟨.ok (), r₁⟩)
    (hm : r₁.message = .ok m) :
    ∃ text r',
      canonical (Scheme.stamped r now) v account = .ok text ∧
      (m.headers.first? authorization).map (·.bytes) =
        some (Utf8.encode (authorizationText v account (signature key text)).toList) ∧
      Request.ofMessage m = .ok r' ∧
      (canonical r' v account = .ok text ↔ TypeSurvives v r ∧ QuerySurvives r.query) ∧
      (m.verifies v account key = true ↔
        (TypeSurvives v r ∧ QuerySurvives r.query) ∨
        ∃ text', text' ≠ text ∧ canonical r' v account = .ok text' ∧
          signature key text' = signature key text) := by
  obtain ⟨text, proof, htext, hproof, hr⟩ := Scheme.sign_eq_ok hscheme hsign
  have sound : r₁.Sound := by
    have unsigned := Request.sound_of_built built
    rw [hr]
    exact ⟨unsigned.rooted, unsigned.path, unsigned.query⟩
  obtain ⟨hsent, hread⟩ := Request.ofMessage_message sound hm
  obtain ⟨alike, found, htype⟩ := received_of_sent (v := v) hr hsent
  have hpath : (r₁.received m.headers).path = (Scheme.stamped r now).path := by
    rw [hr]
    rfl
  have hquery : queryLines (r₁.received m.headers).query =
      queryLines (Scheme.stamped r now).query ↔ QuerySurvives r.query := by
    rw [hr]
    exact Iff.rfl
  have agrees : canonical (r₁.received m.headers) v account = .ok text ↔
      TypeSurvives v r ∧ QuerySurvives r.query := by
    rcases htype with ⟨hnone, same⟩ | ⟨type, value, hsome, hstamped, made, hvalue⟩
    · rw [canonical_eq_iff alike hpath htext same, hquery]
      simp [TypeSurvives, hnone]
    · rw [canonical_eq_iff_of_bodyType alike hpath htext hstamped made hvalue, hquery]
      simp only [TypeSurvives, hsome, hstamped]
  have carried : (m.headers.first? authorization).map (·.bytes) =
      some (Utf8.encode (authorizationText v account (signature key text)).toList) := by
    rw [found, Option.map_some, hproof]
  refine ⟨text, r₁.received m.headers, htext, carried, hread, agrees, ?_⟩
  rw [verifies_iff hread carried, ← agrees]
  constructor
  · rintro ⟨text', hcanonical, hsame⟩
    by_cases heq : text' = text
    · exact .inl (heq ▸ hcanonical)
    · exact .inr ⟨text', heq, hcanonical, hsame⟩
  · rintro (hcanonical | ⟨text', -, hcanonical, hsame⟩)
    · exact ⟨text, hcanonical, rfl⟩
    · exact ⟨text', hcanonical, hsame⟩

def upload (type : String) : Request where
  method := ⟨"PUT", by decide⟩
  scheme := "https"
  authority := "host"
  path := "/box"
  query := [("part", "1")]
  body := some ⟨[], some type⟩

theorem Signing.eq_of_result {x : Signing} (h : x.result.isOk = true) :
    x = ⟨.ok (), x.request⟩ := by
  obtain ⟨result, request⟩ := x
  cases result <;> cases h
  rfl

theorem built_upload (type : String) : (upload type).Built := by
  have plain : Request.new ⟨"PUT", by decide⟩ "https://host/box?part=1" =
      .ok { upload "" with body := none } :=
    eq_ok_of_toOption (by decide +kernel)
  exact .withBody (.new plain)

/-- The key of the account, `key` in ASCII. -/
def uploadKey : Bytes := [0x6B, 0x65, 0x79]

/-- The upload, signed at the start of 1970. -/
def signedUpload (type : String) : Signing :=
  Scheme.sharedKey.sign (.atSecond 0) (some (.sharedKey "account" uploadKey)) (upload type)

theorem signedUpload_eq (type : String) (h : (signedUpload type).result.isOk = true) :
    signedUpload type = ⟨.ok (), (signedUpload type).request⟩ :=
  Signing.eq_of_result h

/-- The type of the upload survives, and the server finds the signature right. -/
theorem plainType_verifies : ∃ m, (upload "text/plain").Built ∧
    signedUpload "text/plain" = ⟨.ok (), (signedUpload "text/plain").request⟩ ∧
    (signedUpload "text/plain").request.message = .ok m ∧
    m.verifies .full "account" uploadKey = true := by
  have hsign := signedUpload_eq "text/plain" (by decide +kernel)
  obtain ⟨m, hm⟩ := exists_of_isOk (x := (signedUpload "text/plain").request.message)
    (by decide +kernel)
  obtain ⟨text, r', -, -, -, -, verdict⟩ :=
    canonical_received (built_upload "text/plain") (by rfl : Scheme.sharedKey.variant? = some .full)
      hsign hm
  have type : TypeSurvives .full (upload "text/plain") := by
    intro type htype
    cases htype
    decide +kernel
  have query : QuerySurvives (upload "text/plain").query :=
    querySurvives_of_notMem (by decide) fun pair hpair => by
      cases hpair
      decide
  exact ⟨m, built_upload "text/plain", hsign, hm, verdict.2 (.inl ⟨type, query⟩)⟩

/-- The same upload with the type `0`: it is signed with that type, but the server, which finds it
in a header, makes up a text without it. -/
theorem zeroType_refused : ∃ m, (upload "0").Built ∧
    signedUpload "0" = ⟨.ok (), (signedUpload "0").request⟩ ∧
    (signedUpload "0").request.message = .ok m ∧
    m.verifies .full "account" uploadKey = false := by
  have hsign := signedUpload_eq "0" (by decide +kernel)
  obtain ⟨m, hm⟩ := exists_of_isOk (x := (signedUpload "0").request.message) (by decide +kernel)
  have verdict : ((signedUpload "0").request.message.map
      (·.verifies .full "account" uploadKey)).toOption = some false := by
    decide +kernel
  rw [hm] at verdict
  exact ⟨m, built_upload "0", hsign, hm, Option.some.inj verdict⟩

end

end SignedHttp

import SignedHttp.Proofs.Http.Uri
import SignedHttp.Proofs.Request.Query
import SignedHttp.Proofs.Results
import SignedHttp.Request

/-!
# SignedHttp.Proofs.Request.Built

Requests that are built step by step (`Request.Built`), and what a server makes of their messages
(`ofMessage_message`). Whatever the steps are, the path starts with a slash and ends before any
query or fragment would start, and the parameters are plain (`Request.Sound`), so the address is
read as it was written: the same origin, the same path, and the parameters of `Query.received`.
-/

namespace SignedHttp

namespace Target

/-- A path from the root that ends before a query or a fragment starts, and a query that ends before
a fragment does. -/
structure Sound (t : Target) : Prop where
  rooted : t.path.head? = some '/'
  path : ∀ c ∈ t.path, endsPath c = false
  query : ∀ q, t.query = some q → '#' ∉ q

theorem Legal.sound {t : Target} (h : t.Legal) : t.Sound where
  rooted := h.rooted
  path c hc := not_endsPath_of_isPathChar (h.path c hc)
  query q hq hmem := ne_hash_of_isQueryChar (h.query q hq '#' hmem) rfl

variable {path q : List Char} {t : Target}

theorem scan_of_ofChars {s : List Char} (rooted : s.head? = some '/') (h : ofChars s = .ok t) :
    scan s = .ok t := by
  obtain ⟨rest, rfl⟩ := List.head?_eq_some_iff.1 rooted
  unfold ofChars at h
  split at h
  · cases h
  · exact h

theorem takeWhile_path (free : ∀ c ∈ path, endsPath c = false) (rest : List Char) :
    (path ++ rest).takeWhile (!endsPath ·) = path ++ rest.takeWhile (!endsPath ·) :=
  List.takeWhile_append_of_pos fun c hc => by simp [free c hc]

theorem dropWhile_path (free : ∀ c ∈ path, endsPath c = false) (rest : List Char) :
    (path ++ rest).dropWhile (!endsPath ·) = rest.dropWhile (!endsPath ·) :=
  List.dropWhile_append_of_pos fun c hc => by simp [free c hc]

theorem eq_of_scan_path (free : ∀ c ∈ path, endsPath c = false) (h : scan path = .ok t) :
    t = ⟨rooted path, none⟩ := by
  have htake := takeWhile_path free []
  have hdrop := dropWhile_path free []
  rw [List.append_nil, List.takeWhile_nil, List.append_nil] at htake
  rw [List.append_nil, List.dropWhile_nil] at hdrop
  unfold scan at h
  rw [htake, hdrop] at h
  dsimp only at h
  split at h <;> cases h
  rfl

theorem eq_of_scan_query (free : ∀ c ∈ path, endsPath c = false) (hq : '#' ∉ q)
    (h : scan (path ++ '?' :: q) = .ok t) : t = ⟨rooted path, some q⟩ := by
  have htake := takeWhile_path free ('?' :: q)
  have hdrop := dropWhile_path free ('?' :: q)
  rw [List.takeWhile_cons_of_neg (by decide), List.append_nil] at htake
  rw [List.dropWhile_cons_of_neg (by decide)] at hdrop
  have whole : q.takeWhile (· != '#') = q := by
    have hall : (q ++ []).takeWhile (· != '#') = q ++ [].takeWhile (· != '#') := by
      refine List.takeWhile_append_of_pos fun c hc => ?_
      simp only [bne_iff_ne, ne_eq]
      exact fun heq => hq (heq ▸ hc)
    simpa using hall
  simp only [scan, htake, hdrop, whole] at h
  split at h
  · cases h
  · split at h <;> cases h
    rfl

end Target

namespace Request

/-- The parts of a request that stand in its address. -/
structure Sound (r : Request) : Prop where
  rooted : r.path.toList.head? = some '/'
  path : ∀ c ∈ r.path.toList, Target.endsPath c = false
  query : ∀ pair ∈ r.query, Query.Plain pair

/-- Requests that are built from an address, step by step. -/
inductive Built : Request → Prop where
  | new {method : Method} {uri : String} {r : Request} : Request.new method uri = .ok r → Built r
  | setHeader {r r' : Request} {name value : String} :
      Built r → r.setHeader name value = .ok r' → Built r'
  | addHeader {r r' : Request} {name value : String} :
      Built r → r.addHeader name value = .ok r' → Built r'
  | pushQuery {r : Request} {name value : String} : Built r → Built (r.pushQuery name value)
  | appendRawQuery {r : Request} {raw : String} :
      Built r → '#' ∉ raw.toList → Built (r.appendRawQuery raw)
  | withBody {r : Request} {body : Body} : Built r → Built (r.withBody body)

/-- A request takes over the parts of the address it is built from. -/
theorem new_eq_ok {method : Method} {text : String} {r : Request}
    (h : Request.new method text = .ok r) :
    ∃ u authority, Uri.ofText text = .ok u ∧ u.authority = some authority ∧ r = {
      method
      scheme := String.ofList (u.scheme.getD "https".toList)
      authority := String.ofList authority
      path := String.ofList u.target.path
      query := (u.target.query.map Query.ofRaw).getD [] } := by
  unfold Request.new at h
  cases hu : Uri.ofText text with
  | error fault =>
    rw [hu] at h
    cases h
  | ok u =>
    rw [hu] at h
    dsimp only at h
    unfold ofUri at h
    cases ha : u.authority with
    | none =>
      rw [ha] at h
      cases h
    | some authority =>
      rw [ha] at h
      cases h
      exact ⟨u, authority, rfl, ha, rfl⟩

theorem sound_of_new {method : Method} {uri : String} {r : Request}
    (h : Request.new method uri = .ok r) : r.Sound := by
  obtain ⟨u, authority, hu, ha, rfl⟩ := new_eq_ok h
  have sound := (Uri.reads_of_ofText hu ha).wellFormed.target.sound
  refine ⟨?_, ?_, ?_⟩
  · rw [String.toList_ofList]
    exact sound.rooted
  · rw [String.toList_ofList]
    exact sound.path
  · cases hq : u.target.query with
    | none => simp
    | some q => exact Query.plain_ofRaw (sound.query q hq)

theorem exists_headers {r r' : Request} {name value : String}
    {f : Header.Name → Header.Value → Headers}
    (h : (do
      let (name, value) ← field name value
      .ok { r with headers := f name value }) = Except.ok r') :
    ∃ headers, r' = { r with headers } := by
  obtain ⟨fields, -, h⟩ := ok_of_bind h
  cases h
  exact ⟨_, rfl⟩

theorem sound_of_built {r : Request} (h : r.Built) : r.Sound := by
  induction h with
  | new h => exact sound_of_new h
  | setHeader _ h ih =>
    obtain ⟨headers, rfl⟩ := exists_headers h
    exact ⟨ih.rooted, ih.path, ih.query⟩
  | addHeader _ h ih =>
    obtain ⟨headers, rfl⟩ := exists_headers h
    exact ⟨ih.rooted, ih.path, ih.query⟩
  | @pushQuery r name value _ ih =>
    refine ⟨ih.rooted, ih.path, fun pair hpair => ?_⟩
    rcases List.mem_append.1 hpair with hpair | hpair
    · exact ih.query pair hpair
    · rw [List.mem_singleton.1 hpair]
      exact Query.plain_encoded name value
  | appendRawQuery _ h ih =>
    refine ⟨ih.rooted, ih.path, fun pair hpair => ?_⟩
    rcases List.mem_append.1 hpair with hpair | hpair
    · exact ih.query pair hpair
    · exact Query.plain_ofRaw h pair hpair
  | withBody _ ih => exact ⟨ih.rooted, ih.path, ih.query⟩

/-! ## What the server makes of a message -/

theorem head?_targetChars {r : Request} (rooted : r.path.toList.head? = some '/') :
    r.targetChars.head? = some '/' := by
  obtain ⟨rest, hpath⟩ := List.head?_eq_some_iff.1 rooted
  unfold targetChars
  split
  · exact rooted
  · rw [hpath, List.cons_append, List.head?_cons]

theorem target_eq {r : Request} (sound : r.Sound) {t : Target}
    (h : Target.ofChars r.targetChars = .ok t) :
    t = ⟨r.path.toList, if r.query.isEmpty then none else some (Query.chars r.query)⟩ := by
  obtain ⟨rest, hpath⟩ := List.head?_eq_some_iff.1 sound.rooted
  have rooted : Target.rooted r.path.toList = r.path.toList := by
    simp [Target.rooted, hpath]
  have scanned := Target.scan_of_ofChars (head?_targetChars sound.rooted) h
  unfold targetChars at scanned
  by_cases hq : r.query.isEmpty = true
  · rw [if_pos hq] at scanned ⊢
    rw [Target.eq_of_scan_path sound.path scanned, rooted]
  · rw [if_neg hq] at scanned ⊢
    rw [Target.eq_of_scan_query sound.path (Query.notMem_chars sound.query) scanned, rooted]

/-- What a server makes of a request that is sent with some headers. -/
def received (r : Request) (headers : Headers) : Request where
  method := r.method
  scheme := r.scheme
  authority := r.authority
  path := r.path
  query := r.query.received
  headers

/-- The parts of a message. -/
theorem message_eq_ok {r : Request} {m : Message} (h : r.message = .ok m) :
    r.address = .ok m.address ∧ r.sentHeaders = .ok m.headers ∧ m.method = r.method ∧
      m.body = (r.body.map (·.content)).getD [] ∧ m.timeout = r.timeout := by
  unfold message at h
  obtain ⟨address, ha, h⟩ := ok_of_bind h
  obtain ⟨headers, hh, h⟩ := ok_of_bind h
  cases h
  exact ⟨ha, hh, rfl, rfl, rfl⟩

theorem ofMessage_message {r : Request} (sound : r.Sound) {m : Message} (h : r.message = .ok m) :
    r.sentHeaders = .ok m.headers ∧ ofMessage m = .ok (r.received m.headers) := by
  unfold message at h
  obtain ⟨address, ha, h⟩ := ok_of_bind h
  obtain ⟨headers, hh, h⟩ := ok_of_bind h
  cases h
  refine ⟨hh, ?_⟩
  unfold Request.address at ha
  cases ht : Target.ofChars r.targetChars with
  | error e =>
    rw [ht] at ha
    cases ha
  | ok t =>
    rw [ht] at ha
    cases ha
    rw [target_eq sound ht]
    unfold ofMessage ofUri received
    cases hq : r.query with
    | nil => simp [bind, Except.bind, Query.received]
    | cons pair rest =>
      have hraw := Query.ofRaw_chars sound.query
      rw [hq] at hraw
      simp [bind, Except.bind, hraw]

end Request
end SignedHttp

import SignedHttp.Proofs.Executor.Twins
import SignedHttp.Proofs.Http.Header
import SignedHttp.Proofs.Redact
import SignedHttp.Proofs.Signing.Signature
import SignedHttp.Proofs.Time.Order

/-!
# SignedHttp.Proofs.Executor.Secrecy

The key of an account shows in nothing but signatures (`execute_keepsKey`). If two runs differ in
nothing but the bytes of keys, and these are equally many, then both have the same outcome, log the
same, send at the same instants and leave the same behind; and a request of the one is that of the
other but for the signature in its proof of identity, which is sensitive in both.

What a signature is does not depend on the key (`Base64.IsSignature`), so neither does whether it
can be sent. The rest is what `Twins` says of two runs.
-/

namespace SignedHttp

namespace SharedKey

open Header

variable {variant : Variant} {account : String} {k₁ k₂ : Bytes}

/-- A proof of identity of an account as it may be sent: sensitive, and with some signature. -/
structure IsProof (variant : Variant) (account : String) (v : Header.Value) : Prop where
  sensitive : v.sensitive = true
  signed : ∃ s, Base64.IsSignature s ∧
    v.bytes = Utf8.encode (variant.word ++ " " ++ account ++ ":" ++ s).toList

/-- Either no proof of identity of an account can be sent, or every one can. -/
theorem authorized_cases (variant : Variant) (account : String) (r : Request) :
    (∀ s, Base64.IsSignature s →
      Scheme.authorized r (authorizationText variant account s) = fails .badHeaderValue) ∨
    ∀ s, Base64.IsSignature s → ∃ v, IsProof variant account v ∧
      Scheme.authorized r (authorizationText variant account s) =
        .ok { r with headers := r.headers.set authorization v } := by
  by_cases legal : (variant.word ++ " " ++ account ++ ":").toList.all isValueChar = true
  · refine .inr fun s hs => ?_
    have hlegal : (Utf8.encode (authorizationText variant account s).toList).all isValueByte =
        true := by
      rw [all_encode, legal_authorizationText hs, legal]
    refine ⟨(Value.ofText _ hlegal).secret, ⟨rfl, s, hs, rfl⟩, ?_⟩
    simp only [Scheme.authorized, Header.Value.ofText?, hlegal, dite_true]
  · refine .inl fun s hs => ?_
    rw [← legal_authorizationText (s := s) hs] at legal
    simp only [Scheme.authorized, Header.Value.ofText?_eq_none_iff.2 (Bool.eq_false_iff.2 legal)]

/-- Whether a request can be signed does not depend on the key. -/
theorem signedWith_cases (variant : Variant) (account : String) (r : Request) :
    (∃ e, ∀ key, Scheme.signedWith variant account key r = .error e) ∨
    ∀ key, ∃ v, IsProof variant account v ∧
      Scheme.signedWith variant account key r =
        .ok { r with headers := r.headers.set authorization v } := by
  unfold Scheme.signedWith
  cases canonical r variant account with
  | error e => exact .inl ⟨e, fun _ => rfl⟩
  | ok text =>
    obtain illegal | legal := authorized_cases variant account r
    · exact .inl ⟨_, fun key => illegal _ (isSignature_signature key text)⟩
    · exact .inr fun key => legal _ (isSignature_signature key text)

end SharedKey

/-! ## Requests that differ in their signatures -/

/-- Two messages that are the same but for the proof of identity, which has the same place in both
and is that of the same account. -/
structure Message.SameButProof (variant : SharedKey.Variant) (m₁ m₂ : Message) : Prop where
  method : m₁.method = m₂.method
  address : m₁.address = m₂.address
  body : m₁.body = m₂.body
  timeout : m₁.timeout = m₂.timeout
  headers : ∃ before after account proof₁ proof₂,
    m₁.headers.fields = before ++ (Header.authorization, proof₁) :: after ∧
    m₂.headers.fields = before ++ (Header.authorization, proof₂) :: after ∧
    (∀ field ∈ before ++ after, field.1 ≠ Header.authorization) ∧
    SharedKey.IsProof variant account proof₁ ∧ SharedKey.IsProof variant account proof₂

/-- Nothing differs but proofs of identity. -/
def Guise.proof (variant : SharedKey.Variant) : Guise where
  address := Eq
  message := Message.SameButProof variant
  refl _ := rfl
  uri h := by rw [Message.uri, Message.uri, h.address]

/-- A request with a proof of identity. -/
def Request.proved (r : Request) (proof : Header.Value) : Request :=
  { r with headers := r.headers.set Header.authorization proof }

open Header in
/-- The headers of a request are sent with its proof of identity in the same place, whatever that
is. -/
theorem Request.sentHeaders_proved (r : Request) :
    (∃ e, ∀ v, (r.proved v).sentHeaders = .error e) ∨
    ∃ before after, (∀ field ∈ before ++ after, field.1 ≠ authorization) ∧
      ∀ v, (r.proved v).sentHeaders = .ok ⟨before ++ (authorization, v) :: after⟩ := by
  have others : ∀ field ∈ r.headers.fields.filter (·.1 ≠ authorization), field.1 ≠ authorization :=
    fun field h => by simpa using (List.mem_filter.1 h).2
  have ne : contentType ≠ authorization := by decide
  have typed (v : Header.Value) :
      (r.headers.set authorization v).contains contentType = r.headers.contains contentType := by
    unfold Headers.contains Headers.first?
    rw [Headers.values_set_of_ne _ _ ne]
  have plain : ∃ before after, (∀ field ∈ before ++ after, field.1 ≠ authorization) ∧
      ∀ v, (Except.ok (r.headers.set authorization v) : Except Error Headers) =
        .ok ⟨before ++ (authorization, v) :: after⟩ :=
    ⟨_, [], by rwa [List.append_nil], fun v => rfl⟩
  unfold sentHeaders proved
  dsimp only
  simp only [typed]
  cases r.body.bind (·.contentType) with
  | none => exact .inr plain
  | some type =>
    by_cases hc : r.headers.contains contentType = true
    · simp only [hc, if_true]
      exact .inr plain
    · simp only [hc]
      cases Header.Value.ofText? type with
      | none => exact .inl ⟨_, fun _ => rfl⟩
      | some value =>
        refine .inr ⟨(r.headers.fields.filter (·.1 ≠ authorization)).filter (·.1 ≠ contentType),
          [(contentType, value)], fun field h => ?_, fun v => ?_⟩
        · rcases List.mem_append.1 h with h | h
          · exact others field (List.mem_filter.1 h).1
          · rw [List.mem_singleton.1 h]
            exact ne
        · have kept : [(authorization, v)].filter (·.1 ≠ contentType) = [(authorization, v)] := by
            simp [ne.symm]
          simp only [Headers.set, List.filter_append, kept, List.append_assoc, List.cons_append,
            List.nil_append, Bool.false_eq_true, if_false]

namespace SharedKey

variable {variant : Variant} {account : String} {proof₁ proof₂ : Header.Value}

theorem fits_proved (r : Request) (h₁ : IsProof variant account proof₁)
    (h₂ : IsProof variant account proof₂) :
    (Guise.proof variant).Fits (r.proved proof₁) (r.proved proof₂) where
  method := rfl
  uri := Concur.refl (fun _ => rfl) (fun _ => rfl) _
  message := by
    have address (v : Header.Value) : (r.proved v).address = r.address := rfl
    unfold Request.message
    rw [address, address]
    cases r.address with
    | error e => exact .error rfl
    | ok uri =>
      obtain ⟨e, failed⟩ | ⟨before, after, others, sent⟩ := r.sentHeaders_proved
      · rw [failed, failed]
        exact .error rfl
      · rw [sent, sent]
        exact .ok ⟨rfl, rfl, rfl, rfl, before, after, account, proof₁, proof₂, rfl, rfl, others,
          h₁, h₂⟩

end SharedKey

/-! ## Credentials that differ in their keys -/

/-- The same credential, or keys of one account with equally many bytes. -/
inductive Credential.SameButKey : Credential → Credential → Prop
  | same (c : Credential) : SameButKey c c
  | sharedKey (account : String) {k₁ k₂ : Bytes} : k₁.length = k₂.length →
      SameButKey (.sharedKey account k₁) (.sharedKey account k₂)

/-- Texts of keys that are equally long, or are none, give alike credentials or none. -/
theorem Credential.ofSharedKey_keys {k₁ k₂ : String}
    (h : (Base64.decode? (Text.trim k₁.toList)).map List.length =
      (Base64.decode? (Text.trim k₂.toList)).map List.length) (account : String) :
    Concur Eq Credential.SameButKey (ofSharedKey account k₁) (ofSharedKey account k₂) := by
  unfold ofSharedKey
  by_cases ha : account.isEmpty = true
  · rw [if_pos ha, if_pos ha]
    exact .error rfl
  rw [if_neg ha, if_neg ha]
  match Base64.decode? (Text.trim k₁.toList), Base64.decode? (Text.trim k₂.toList), h with
  | none, none, _ => exact .error rfl
  | some [], some [], _ => exact .error rfl
  | some (a :: as), some (b :: bs), h => exact .ok (.sharedKey account (Option.some.inj h))

theorem isEmpty_eq_of_length {α : Type} {xs ys : List α} (h : xs.length = ys.length) :
    xs.isEmpty = ys.isEmpty := by
  cases xs <;> cases ys <;> first | rfl | cases h

/-- The bytes of keys may differ, but not how many there are. -/
def Likeness.keys : Likeness where
  credential := Credential.SameButKey
  key k₁ k₂ := (Base64.decode? (Text.trim k₁.toList)).map List.length =
    (Base64.decode? (Text.trim k₂.toList)).map List.length
  token := Eq
  refl := .same
  refl_key _ := rfl
  refl_token _ := rfl
  text h := by
    cases h with
    | same => rfl
    | sharedKey account h => rw [Credential.text, Credential.text, Redact.bytes_eq_iff.2 h]
  isValid h now := by
    cases h with
    | same => rfl
    | sharedKey account h =>
      simp only [Credential.isValid, Credential.isFilled, isEmpty_eq_of_length h]
      rfl
  ofSharedKey := Credential.ofSharedKey_keys
  ofSasToken h := by
    rw [h]
    exact .same _
  sasTokenLog := Credential.sasTokenLog_congr

namespace Executor

open Run

variable {s₁ s₂ : Signer} {variant : SharedKey.Variant}

/-- Two keys of one account sign a request alike, or neither of them can. -/
theorem outcome_keys (variant : SharedKey.Variant) (account : String) (k₁ k₂ : Bytes)
    (r : Request) :
    (Scheme.outcome r (Scheme.signedWith variant account k₁ r)).result =
      (Scheme.outcome r (Scheme.signedWith variant account k₂ r)).result ∧
    ((Scheme.outcome r (Scheme.signedWith variant account k₁ r)).result = .ok () →
      (Guise.proof variant).Fits (Scheme.outcome r (Scheme.signedWith variant account k₁ r)).request
        (Scheme.outcome r (Scheme.signedWith variant account k₂ r)).request) := by
  obtain ⟨e, failed⟩ | signed := SharedKey.signedWith_cases variant account r
  · rw [failed, failed]
    exact ⟨rfl, fun h => by cases h⟩
  · obtain ⟨v₁, proof₁, signed₁⟩ := signed k₁
    obtain ⟨v₂, proof₂, signed₂⟩ := signed k₂
    rw [signed₁, signed₂]
    exact ⟨rfl, fun _ => SharedKey.fits_proved r proof₁ proof₂⟩

theorem sign_keys {scheme : Scheme} (hscheme : scheme.variant? = some variant)
    {c₁ c₂ : Option Credential} (h : Option.Rel Credential.SameButKey c₁ c₂) (now : Instant)
    (r : Request) :
    (scheme.sign now c₁ r).result = (scheme.sign now c₂ r).result ∧
    ((scheme.sign now c₁ r).result = .ok () →
      (Guise.proof variant).Fits (scheme.sign now c₁ r).request
        (scheme.sign now c₂ r).request) := by
  have refused (c : Option Credential) :
      (⟨fails (scheme.unfit c), r⟩ : Signing).result = .ok () → False := fun h => by cases h
  unfold Scheme.sign
  rw [hscheme]
  cases h with
  | none => exact ⟨rfl, fun h => (refused none h).elim⟩
  | @some c₁ _ h =>
    cases h with
    | sharedKey account _ => exact outcome_keys variant account _ _ _
    | same =>
      cases c₁ with
      | sharedKey account key => exact outcome_keys variant account key key _
      | sasToken token expiresAt => exact ⟨rfl, fun h => (refused _ h).elim⟩
      | bearerToken token expiresAt scope claims => exact ⟨rfl, fun h => (refused _ h).elim⟩

theorem signLog_keys {scheme : Scheme} {c₁ c₂ : Option Credential}
    (h : Option.Rel Credential.SameButKey c₁ c₂) (now : Instant) (r : Request) :
    scheme.signLog now c₁ r = scheme.signLog now c₂ r := by
  cases h with
  | none => rfl
  | some h =>
    cases h with
    | same => rfl
    | sharedKey account _ =>
      unfold Scheme.signLog
      cases scheme.variant? <;> rfl

/-- A scheme with a shared key makes requests that differ in nothing but signatures. -/
theorem signs_keys {scheme : Scheme} (hscheme : scheme.variant? = some variant) :
    Signer.Signs .keys scheme (Guise.proof variant).Fits where
  log := signLog_keys
  result h now r := (sign_keys hscheme h now r).1
  request h now r := (sign_keys hscheme h now r).2

/-- Two runs that differ in nothing but the bytes of keys have the same outcome, log the same lines
and send at the same instants requests that differ in nothing but the signature. -/
theorem execute_keepsKey (signers : s₁.Akin .keys s₂) {env₁ env₂ : Environment}
    (environments : env₁.Akin .keys env₂) (hscheme : s₁.scheme.variant? = some variant)
    (build : Build) (deadline : Instant) :
    (execute s₁ build deadline).outcome env₁ = (execute s₂ build deadline).outcome env₂ ∧
    Event.lines ((execute s₁ build deadline).events env₁) =
      Event.lines ((execute s₂ build deadline).events env₂) ∧
    List.Forall₂ (fun s t => s.key = t.key ∧ s.time = t.time ∧
        s.message.SameButProof variant t.message)
      (Event.sendings ((execute s₁ build deadline).events env₁))
      (Event.sendings ((execute s₂ build deadline).events env₂)) ∧
    ((execute s₁ build deadline).leaves env₁).Akin .keys
      ((execute s₂ build deadline).leaves env₂) := by
  have alongside : Abreast .keys (Guise.proof variant) deadline (Twins _ _ env₁ env₂) fun _ =>
      Twins _ _ env₁ env₂ := abreast_twins deadline
  obtain ⟨outcome, lines, sendings, akin⟩ :=
    ends_of_twins (alongside.execute signers (signs_keys hscheme) build) environments
  refine ⟨?_, eq_of_forall₂ Log.Line.Akin.eq lines, sendings, akin⟩
  exact (outcome.mono (fun _ _ h => h.eq) fun _ _ h => h).eq

/-- A signer that has nothing but a key. -/
def keyed (key : Bytes) : Signer where
  provider := .fixed (.sharedKey "account" key)

/-- A request is answered at once. -/
def answering : Environment where
  clock := { now := .atSecond 0 }
  transport := some [{ reply := .ok ⟨⟨200⟩, {}, []⟩ }]

theorem keyed_keepsKey :
    (Event.sendings ((execute (keyed [1]) (fun _ => .ok bare) (.atSecond 9)).events
      answering)).length = 1 ∧
    (execute (keyed [1]) (fun _ => .ok bare) (.atSecond 9)).outcome answering =
      (execute (keyed [2]) (fun _ => .ok bare) (.atSecond 9)).outcome answering ∧
    Event.lines ((execute (keyed [1]) (fun _ => .ok bare) (.atSecond 9)).events answering) =
      Event.lines ((execute (keyed [2]) (fun _ => .ok bare) (.atSecond 9)).events answering) := by
  have signers : (keyed [1]).Akin .keys (keyed [2]) :=
    ⟨.nil, .fixed (.sharedKey "account" rfl), rfl⟩
  have same := execute_keepsKey signers (.refl answering) rfl (fun _ => .ok bare) (.atSecond 9)
  exact ⟨by decide +kernel, same.1, same.2.1⟩

end Executor
end SignedHttp

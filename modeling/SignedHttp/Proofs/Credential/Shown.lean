import SignedHttp.ConnectionString
import SignedHttp.Proofs.Redact
import SignedHttp.Proofs.Text.Ascending
import SignedHttp.Proofs.Time.Rfc3339

/-!
# SignedHttp.Proofs.Credential.Shown

What logs show of a credential does not tell its secrets (`Credential.text_hidesSecrets`). Of a key
they show the length, of a token the ends, if it is long enough to have some, and of claims the
names; of a connection string the keys and the name of the account, whichever field that is from.
They show no less than that: the fields of a record can be told apart, so credentials that look the
same are the same but for what is hidden (`Credential.text_eq_iff`, `ConnectionString.text_eq_iff`).
-/

namespace SignedHttp

open Text

namespace Redact

variable {s t : String} {x y : List Char}

/-- Tokens of which logs show the same. -/
def LooksLike (s t : String) : Prop := Alike s.toList t.toList

/-- Tokens of fewer than twelve bytes, or of more with the same three bytes at each end. -/
inductive Similar (s t : String) : Prop
  | short : s ≠ "" → t ≠ "" → (Utf8.encode s.toList).length < 12 →
      (Utf8.encode t.toList).length < 12 → Similar s t
  | long : 12 ≤ (Utf8.encode s.toList).length → 12 ≤ (Utf8.encode t.toList).length →
      (Utf8.encode s.toList).take 3 = (Utf8.encode t.toList).take 3 →
      (Utf8.encode s.toList).drop ((Utf8.encode s.toList).length - 3) =
        (Utf8.encode t.toList).drop ((Utf8.encode t.toList).length - 3) → Similar s t

theorem Similar.looksLike (h : Similar s t) : LooksLike s t := by
  cases h with
  | short hs ht short short' =>
    have filled {r : String} (hr : r ≠ "") : r.toList ≠ [] :=
      fun none => hr (String.toList_eq_nil_iff.1 none)
    exact alike_of_short (filled hs) (filled ht) short short'
  | long long long' start finish => exact alike_of_long long long' start finish

theorem text_eq_iff : text s = text t ↔ LooksLike s t := by
  rw [text, text, String.ofList_inj, chars_eq_iff, LooksLike]

theorem text_append_inj (h : (text s).toList ++ ',' :: x = (text t).toList ++ ',' :: y) :
    text s = text t ∧ x = y := by
  simp only [text, String.toList_ofList] at h
  obtain ⟨same, later⟩ := chars_append_inj h
  exact ⟨congrArg String.ofList same, later⟩

end Redact

namespace Credential

variable {T : String → String → Prop} {c c' : Credential}

/-- Credentials that differ in nothing but keys of one length, tokens that are related somehow, and
the values of claims. -/
inductive SameButSecrets (T : String → String → Prop) : Credential → Credential → Prop
  | sharedKey (account : String) {key key' : Bytes} : key.length = key'.length →
      SameButSecrets T (.sharedKey account key) (.sharedKey account key')
  | sasToken {token token' : String} (expiresAt : Option Instant) : T token token' →
      SameButSecrets T (.sasToken token expiresAt) (.sasToken token' expiresAt)
  | bearerToken {token token' : String} (expiresAt : Option Instant) (scope : Option String)
      {claims claims' : List (String × String)} : T token token' →
      claims.map (·.1) = claims'.map (·.1) →
      SameButSecrets T (.bearerToken token expiresAt scope claims)
        (.bearerToken token' expiresAt scope claims')

theorem SameButSecrets.mono {U : String → String → Prop} (h : SameButSecrets T c c')
    (imp : ∀ {s t}, T s t → U s t) : SameButSecrets U c c' := by
  cases h with
  | sharedKey account h => exact .sharedKey account h
  | sasToken expiresAt h => exact .sasToken expiresAt (imp h)
  | bearerToken expiresAt scope h names => exact .bearerToken expiresAt scope (imp h) names

theorem claims_eq (claims : List (String × String)) :
    (claims.map fun (name, _) => quote name) = (claims.map (·.1)).map quote := by
  rw [List.map_map]
  rfl

theorem selfDelimiting_instantText : SelfDelimiting instantText :=
  Rfc3339.selfDelimiting_text.optional

theorem text_eq_of_looksLike (h : SameButSecrets Redact.LooksLike c c') : c.text = c'.text := by
  cases h with
  | sharedKey account h => rw [text, text, Redact.bytes_eq_iff.2 h]
  | sasToken expiresAt h => rw [text, text, Redact.text_eq_iff.2 h]
  | bearerToken expiresAt scope h names =>
    rw [text, text, Redact.text_eq_iff.2 h, claims_eq, claims_eq, names]

theorem looksLike_of_text_eq (h : c.text = c'.text) : SameButSecrets Redact.LooksLike c c' := by
  cases c <;> cases c'
  case sharedKey.sharedKey account key account' key' =>
    obtain ⟨rfl, last⟩ := selfDelimiting_quote.valueOn_cons_inj (record_value_inj h)
    exact .sharedKey account (Redact.bytes_eq_iff.1 (valueOn_nil_inj last))
  case sasToken.sasToken token expiresAt token' expiresAt' =>
    obtain ⟨shown, last⟩ :=
      valueOn_cons_inj (fun _ _ cut => Redact.text_append_inj cut) (record_value_inj h)
    rw [selfDelimiting_instantText.eq (valueOn_nil_inj last)]
    exact .sasToken expiresAt' (Redact.text_eq_iff.1 shown)
  case bearerToken.bearerToken token expiresAt scope claims token' expiresAt' scope' claims' =>
    obtain ⟨shown, second⟩ :=
      valueOn_cons_inj (fun _ _ cut => Redact.text_append_inj cut) (record_value_inj h)
    obtain ⟨rfl, third⟩ := selfDelimiting_instantText.valueOn_cons_inj second
    obtain ⟨rfl, last⟩ := selfDelimiting_quote.optional.valueOn_cons_inj third
    have names := valueOn_nil_inj last
    rw [claims_eq, claims_eq] at names
    exact .bearerToken expiresAt scope (Redact.text_eq_iff.1 shown) (selfDelimiting_quotes.eq names)
  all_goals
    -- credentials of two kinds are records of two names
    exact absurd (record_name_inj (by decide) (by decide) h) (by decide)

theorem text_eq_iff : c.text = c'.text ↔ SameButSecrets Redact.LooksLike c c' :=
  ⟨looksLike_of_text_eq, text_eq_of_looksLike⟩

end Credential

namespace ConnectionString

variable {c c' : ConnectionString} {key : String}

theorem isSome_get?_iff : (c.get? key).isSome = true ↔ key ∈ c.fields.map (·.1) := by
  rw [get?, List.lookup_isSome_iff, List.mem_map]
  constructor
  · rintro ⟨pair, hpair, hkey⟩
    exact ⟨pair, List.mem_reverse.1 hpair, (beq_iff_eq.1 hkey).symm⟩
  · rintro ⟨pair, hpair, rfl⟩
    exact ⟨pair, List.mem_reverse.2 hpair, beq_self_eq_true _⟩

/-- Of a connection string the account and the keys are shown, and nothing else. -/
theorem text_eq_iff : c.text = c'.text ↔
    (∀ key, (c.get? key).isSome = (c'.get? key).isSome) ∧ c.accountName = c'.accountName := by
  have keys : (∀ key, (c.get? key).isSome = (c'.get? key).isSome) ↔
      ∀ key, key ∈ c.fields.map (·.1) ↔ key ∈ c'.fields.map (·.1) := by
    refine forall_congr' fun key => ?_
    rw [Bool.eq_iff_iff, isSome_get?_iff, isSome_get?_iff]
  rw [keys]
  constructor
  · intro h
    obtain ⟨account, last⟩ := selfDelimiting_quote.optional.valueOn_cons_inj (record_value_inj h)
    have shown := selfDelimiting_quotes.eq (valueOn_nil_inj last)
    refine ⟨fun key => ?_, account⟩
    rw [← Ascending.mem_ofList, shown, Ascending.mem_ofList]
  · rintro ⟨same, account⟩
    rw [text, text, account, Ascending.ofList_congr same]

end ConnectionString

namespace Credential

/-- What logs show hides the secrets. Credentials look the same if they differ in nothing but keys
of one length, tokens that are short or have the same ends, and the values of claims; so do
connection strings with the same keys and the same account. Nothing else is hidden: tokens that are
told apart have different ends, or only one of them is empty or has ends to show. -/
theorem text_hidesSecrets :
    (∀ c c' : Credential, SameButSecrets Redact.Similar c c' → c.text = c'.text) ∧
    (∀ c c' : Credential, c.text = c'.text ↔ SameButSecrets Redact.LooksLike c c') ∧
    ∀ c c' : ConnectionString, c.text = c'.text ↔
      (∀ key, (c.get? key).isSome = (c'.get? key).isSome) ∧ c.accountName = c'.accountName := by
  refine ⟨fun c c' h => ?_, fun c c' => text_eq_iff, fun c c' => ConnectionString.text_eq_iff⟩
  exact text_eq_iff.2 (h.mono Redact.Similar.looksLike)

/-- A token with a character of three bytes at each end, and a claim. -/
def framed : Credential :=
  .bearerToken "日 first 本" (some (.atSecond 0)) (some "logs") [("sub", "one")]

/-- Another token with the same characters at its ends. -/
def framedAgain : Credential :=
  .bearerToken "日 another token 本" (some (.atSecond 0)) (some "logs") [("sub", "two")]

/-- Both are shown with these characters. -/
theorem framed_hidesSecrets : SameButSecrets Redact.Similar framed framedAgain ∧
    framed ≠ framedAgain ∧ framed.text = framedAgain.text := by
  have similar : Redact.Similar "日 first 本" "日 another token 本" :=
    .long (by decide) (by decide) (by decide) (by decide)
  have same : SameButSecrets Redact.Similar framed framedAgain :=
    .bearerToken _ _ similar rfl
  exact ⟨same, by decide, text_hidesSecrets.1 framed framedAgain same⟩

end Credential
end SignedHttp

import Mathlib.Data.List.Forall2
import SignedHttp.Proofs.Run.Lockstep

/-!
# SignedHttp.Proofs.Signer.Likeness

Signing with one secret or with another. A `Likeness` says which secrets may stand in place of each
other; what logs show of a credential, and whether it can be used, must not tell them apart. Sources
of credentials are alike (`Provider.Akin`) if they are the same but for such secrets.

`Unison L S` says that the relation `S` between environments survives whatever signing and waiting
for the rate limiter do to both of them. Concur sources then answer alike, and two signers look up
their credentials in lockstep (`Signer.lockstep_credential`).
-/

namespace SignedHttp

/-- Which secrets may stand in place of each other. -/
structure Likeness where
  credential : Credential → Credential → Prop
  /-- Keys of accounts, in base64. -/
  key : String → String → Prop
  /-- Query tokens as they come in. -/
  token : String → String → Prop
  refl : ∀ c, credential c c
  refl_key : ∀ k, key k k
  refl_token : ∀ t, token t t
  text : ∀ {c₁ c₂}, credential c₁ c₂ → c₁.text = c₂.text
  isValid : ∀ {c₁ c₂}, credential c₁ c₂ → ∀ now, c₁.isValid now = c₂.isValid now
  ofSharedKey : ∀ {k₁ k₂}, key k₁ k₂ → ∀ account,
    Concur Eq credential (Credential.ofSharedKey account k₁) (Credential.ofSharedKey account k₂)
  ofSasToken : ∀ {t₁ t₂}, token t₁ t₂ →
    credential (Credential.ofSasToken t₁) (Credential.ofSasToken t₂)
  sasTokenLog : ∀ {t₁ t₂}, token t₁ t₂ → Credential.sasTokenLog t₁ = Credential.sasTokenLog t₂

theorem Credential.sasTokenLog_congr {t₁ t₂ : String} (h : t₁ = t₂) :
    sasTokenLog t₁ = sasTokenLog t₂ := by
  rw [h]

/-- Every secret is like itself only. -/
def Likeness.identity : Likeness where
  credential := Eq
  key := Eq
  token := Eq
  refl _ := rfl
  refl_key _ := rfl
  refl_token _ := rfl
  text h := by rw [h]
  isValid h now := by rw [h]
  ofSharedKey h account := by
    rw [h]
    exact Concur.refl (fun _ => rfl) (fun _ => rfl) _
  ofSasToken h := by rw [h]
  sasTokenLog := Credential.sasTokenLog_congr

variable {L : Likeness}

/-! ## Texts by name -/

section Named

variable {R : String → String → String → Prop} {fs gs : List (String × String)}

/-- Two lists of named texts: the names are the same, and the texts of a name are related. -/
def Named (R : String → String → String → Prop) : List (String × String) →
    List (String × String) → Prop :=
  List.Forall₂ fun f g => f.1 = g.1 ∧ R f.1 f.2 g.2

theorem Named.refl (h : ∀ name v, R name v v) (fs : List (String × String)) : Named R fs fs :=
  List.forall₂_same.2 fun f _ => ⟨rfl, h f.1 f.2⟩

theorem Named.names (h : Named R fs gs) : fs.map (·.1) = gs.map (·.1) := by
  induction h with
  | nil => rfl
  | cons hfg _ ih => rw [List.map_cons, List.map_cons, hfg.1, ih]

theorem Named.lookup (h : Named R fs gs) (name : String) :
    Option.Rel (R name) (fs.lookup name) (gs.lookup name) := by
  induction h with
  | nil => exact .none
  | @cons f g fs gs hfg _ ih =>
    obtain ⟨k, v⟩ := f
    obtain ⟨k', w⟩ := g
    obtain ⟨rfl, hvw⟩ := hfg
    by_cases hname : name = k
    · subst hname
      simpa using hvw
    · simpa [List.lookup_cons, beq_eq_false_iff_ne.2 hname] using ih

end Named

/-! ## What comes in -/

/-- Credentials as they come in that are the same but for secrets. -/
inductive Credential.Given.Akin (L : Likeness) : Credential.Given → Credential.Given → Prop
  | sharedKey {k₁ k₂ : String} (account : String) : L.key k₁ k₂ →
      Akin L (.sharedKey account k₁) (.sharedKey account k₂)
  | sasToken {t₁ t₂ : String} : L.token t₁ t₂ → Akin L (.sasToken t₁) (.sasToken t₂)
  | bearerToken (token : String) (expiresAt : Option Instant) :
      Akin L (.bearerToken token expiresAt) (.bearerToken token expiresAt)
  | ready {c₁ c₂ : Credential} : L.credential c₁ c₂ → Akin L (.ready c₁) (.ready c₂)

namespace Credential.Given.Akin

variable {g₁ g₂ : Credential.Given}

theorem refl (g : Credential.Given) : Akin L g g := by
  cases g with
  | sharedKey account k => exact .sharedKey account (L.refl_key k)
  | sasToken t => exact .sasToken (L.refl_token t)
  | bearerToken token expiresAt => exact .bearerToken token expiresAt
  | ready c => exact .ready (L.refl c)

theorem log (h : Akin L g₁ g₂) : g₁.log = g₂.log := by
  cases h with
  | sharedKey => rfl
  | sasToken ht => simpa only [Credential.Given.log] using L.sasTokenLog ht
  | bearerToken => rfl
  | ready => rfl

theorem credential (h : Akin L g₁ g₂) : Concur Eq L.credential g₁.credential g₂.credential := by
  cases h with
  | sharedKey account hk => exact L.ofSharedKey hk account
  | sasToken ht => exact .ok (L.ofSasToken ht)
  | bearerToken => exact .ok (L.refl _)
  | ready hc => exact .ok hc

end Credential.Given.Akin

/-- How the texts of one field of two connection strings are related. -/
def Likeness.field (L : Likeness) (name : String) : String → String → Prop :=
  if name = "AccountKey" then L.key else if name = "SharedAccessSignature" then L.token else Eq

theorem Likeness.field_refl (name v : String) : L.field name v v := by
  unfold field
  split
  · exact L.refl_key v
  · split
    · exact L.refl_token v
    · rfl

/-- Connection strings that are the same but for secrets. -/
def ConnectionString.Akin (L : Likeness) (c₁ c₂ : ConnectionString) : Prop :=
  Named L.field c₁.fields c₂.fields

namespace ConnectionString.Akin

variable {c₁ c₂ : ConnectionString}

theorem refl (c : ConnectionString) : Akin L c c := Named.refl L.field_refl c.fields

theorem get? (h : Akin L c₁ c₂) (key : String) :
    Option.Rel (L.field key) (c₁.get? key) (c₂.get? key) :=
  Named.lookup (List.forall₂_reverse_iff.2 h) key

theorem isDevelopment (h : Akin L c₁ c₂) : c₁.isDevelopment = c₂.isDevelopment := by
  have same : c₁.get? "UseDevelopmentStorage" = c₂.get? "UseDevelopmentStorage" := by
    have found := h.get? "UseDevelopmentStorage"
    simp only [Likeness.field] at found
    exact eq_of_rel found
  rw [ConnectionString.isDevelopment, ConnectionString.isDevelopment, same]

theorem getOr (h : Akin L c₁ c₂) (key development : String) :
    Option.Rel (L.field key) (c₁.getOr key development) (c₂.getOr key development) := by
  have found := h.get? key
  unfold ConnectionString.getOr
  rw [h.isDevelopment]
  match c₁.get? key, c₂.get? key, found with
  | _, _, .some hv => exact .some hv
  | _, _, .none =>
    dsimp only
    split
    · exact .some (L.field_refl key development)
    · exact .none

theorem accountName (h : Akin L c₁ c₂) : c₁.accountName = c₂.accountName :=
  eq_of_rel (h.getOr "AccountName" developmentAccount)

theorem text (h : Akin L c₁ c₂) : c₁.text = c₂.text := by
  rw [ConnectionString.text, ConnectionString.text, h.accountName, Named.names h]

theorem given? (h : Akin L c₁ c₂) :
    Option.Rel (Credential.Given.Akin L) c₁.given? c₂.given? := by
  have token : Option.Rel L.token c₁.sasToken c₂.sasToken := h.get? "SharedAccessSignature"
  have key : Option.Rel L.key c₁.accountKey c₂.accountKey := h.getOr "AccountKey" developmentKey
  unfold ConnectionString.given?
  rw [h.accountName]
  match c₁.sasToken, c₂.sasToken, token with
  | _, _, .some ht => exact .some (.sasToken ht)
  | _, _, .none =>
    cases c₂.accountName with
    | none => exact .none
    | some account =>
      match c₁.accountKey, c₂.accountKey, key with
      | _, _, .some hk => exact .some (.sharedKey account hk)
      | _, _, .none => exact .none

end ConnectionString.Akin

/-- How the texts of one secret are related. -/
def Likeness.secret (L : Likeness) (name : String) : String → String → Prop :=
  if name = "AZBLOB_ACCOUNT_KEY" ∨ name = "AZURE_STORAGE_ACCOUNT_KEY" then L.key
  else if name = "AZURE_STORAGE_SAS_TOKEN" then L.token
  else if name = "AZURE_STORAGE_CONNECTION_STRING" then
    fun v₁ v₂ => Concur Eq (ConnectionString.Akin L) (ConnectionString.ofText v₁)
      (ConnectionString.ofText v₂)
  else Eq

theorem Likeness.secret_refl (name v : String) : L.secret name v v := by
  unfold secret
  split
  · exact L.refl_key v
  · split
    · exact L.refl_token v
    · split
      · exact Concur.refl (fun _ => rfl) ConnectionString.Akin.refl _
      · rfl

/-- Named secrets that are the same but for the secrets. -/
def Secrets.Akin (L : Likeness) : Secrets → Secrets → Prop := Named L.secret

namespace Secrets.Akin

variable {s₁ s₂ : Secrets}

theorem refl (s : Secrets) : Akin L s s := Named.refl L.secret_refl s

theorem get? (h : Akin L s₁ s₂) (name : String) :
    Option.Rel (L.secret name) (s₁.get? name) (s₂.get? name) := h.lookup name

theorem accountName (h : Akin L s₁ s₂) : s₁.accountName = s₂.accountName := by
  have older : s₁.get? "AZBLOB_ACCOUNT_NAME" = s₂.get? "AZBLOB_ACCOUNT_NAME" :=
    eq_of_rel (h.get? "AZBLOB_ACCOUNT_NAME")
  have newer : s₁.get? "AZURE_STORAGE_ACCOUNT_NAME" = s₂.get? "AZURE_STORAGE_ACCOUNT_NAME" :=
    eq_of_rel (h.get? "AZURE_STORAGE_ACCOUNT_NAME")
  rw [Secrets.accountName, Secrets.accountName, older, newer]

theorem accountKey (h : Akin L s₁ s₂) : Option.Rel L.key s₁.accountKey s₂.accountKey := by
  have older : Option.Rel L.key (s₁.get? "AZBLOB_ACCOUNT_KEY") (s₂.get? "AZBLOB_ACCOUNT_KEY") :=
    h.get? "AZBLOB_ACCOUNT_KEY"
  have newer : Option.Rel L.key (s₁.get? "AZURE_STORAGE_ACCOUNT_KEY")
      (s₂.get? "AZURE_STORAGE_ACCOUNT_KEY") := h.get? "AZURE_STORAGE_ACCOUNT_KEY"
  unfold Secrets.accountKey
  match s₁.get? "AZBLOB_ACCOUNT_KEY", s₂.get? "AZBLOB_ACCOUNT_KEY", older with
  | _, _, .some hk => exact .some hk
  | _, _, .none => exact newer

theorem sasToken (h : Akin L s₁ s₂) : Option.Rel L.token s₁.sasToken s₂.sasToken :=
  h.get? "AZURE_STORAGE_SAS_TOKEN"

theorem bearerToken (h : Akin L s₁ s₂) : s₁.bearerToken = s₂.bearerToken :=
  eq_of_rel (h.get? "AZURE_STORAGE_BEARER_TOKEN")

theorem connectionString (h : Akin L s₁ s₂) :
    Option.Rel (fun v₁ v₂ => Concur Eq (ConnectionString.Akin L) (ConnectionString.ofText v₁)
      (ConnectionString.ofText v₂)) s₁.connectionString s₂.connectionString :=
  h.get? "AZURE_STORAGE_CONNECTION_STRING"

/-- The same is said of the credential among the secrets, if there is one. -/
theorem given? (h : Akin L s₁ s₂) :
    Option.Rel (fun f g => f.1 = g.1 ∧ Credential.Given.Akin L f.2 g.2) s₁.given? s₂.given? := by
  have key := h.accountKey
  have token := h.sasToken
  unfold Secrets.given?
  rw [h.accountName, h.bearerToken]
  match s₂.accountName, s₁.accountKey, s₂.accountKey, key with
  | some account, _, _, .some hk => exact .some ⟨rfl, .sharedKey account hk⟩
  | some _, _, _, .none | none, _, _, _ =>
    match s₁.sasToken, s₂.sasToken, token with
    | _, _, .some ht => exact .some ⟨rfl, .sasToken ht⟩
    | _, _, .none => exact rel_refl (fun f => ⟨rfl, .refl f.2⟩) _

end Secrets.Akin
/-! ## Sources of credentials -/

/-- Sources of credentials that are the same but for secrets. -/
inductive Provider.Akin (L : Likeness) : Provider → Provider → Prop
  | fixed {c₁ c₂ : Credential} : L.credential c₁ c₂ → Akin L (.fixed c₁) (.fixed c₂)
  | secrets : Akin L .secrets .secrets
  | connectionString {g₁ g₂ : Option ConnectionString} :
      Option.Rel (ConnectionString.Akin L) g₁ g₂ →
      Akin L (.connectionString g₁) (.connectionString g₂)
  | refresh (supply : Nat) : Akin L (.refresh supply) (.refresh supply)
  | chain {ps qs : List Provider} : List.Forall₂ (Akin L) ps qs → Akin L (.chain ps) (.chain qs)
  | standard {ps qs : List Provider} : List.Forall₂ (Akin L) ps qs →
      Akin L (.standard ps) (.standard qs)

namespace Provider

theorem Akin.connectionString_text {g₁ g₂ : Option ConnectionString}
    (h : Option.Rel (ConnectionString.Akin L) g₁ g₂) :
    g₁.map (·.text) = g₂.map (·.text) := by
  cases h with
  | none => rfl
  | some hc => rw [Option.map_some, Option.map_some, hc.text]

mutual

theorem Akin.refl : ∀ p : Provider, Akin L p p
  | .fixed c => .fixed (L.refl c)
  | .secrets => .secrets
  | .connectionString g => .connectionString (rel_refl ConnectionString.Akin.refl g)
  | .refresh supply => .refresh supply
  | .chain ps => .chain (Akin.refl_all ps)
  | .standard ps => .standard (Akin.refl_all ps)

theorem Akin.refl_all : ∀ ps : List Provider, List.Forall₂ (Akin L) ps ps
  | [] => .nil
  | p :: ps => .cons (Akin.refl p) (Akin.refl_all ps)

end

mutual

/-- Logs show alike sources the same way. -/
theorem text_eq : ∀ {p q : Provider}, Akin L p q → p.text = q.text
  | _, _, .fixed hc => by rw [Provider.text, Provider.text, L.text hc]
  | _, _, .secrets => rfl
  | _, _, .connectionString hg => by
    rw [Provider.text, Provider.text, Akin.connectionString_text hg]
  | _, _, .refresh _ => rfl
  | .chain ps, .chain qs, .chain h => by rw [Provider.text, Provider.text, texts_eq h]
  | .standard ps, .standard qs, .standard h => by rw [Provider.text, Provider.text, texts_eq h]

theorem texts_eq : ∀ {ps qs : List Provider}, List.Forall₂ (Akin L) ps qs → texts ps = texts qs
  | [], [], .nil => rfl
  | _ :: _, _ :: _, .cons h hs => by rw [texts, texts, text_eq h, texts_eq hs]

end

end Provider

/-- What a supply does in one run and in the other. -/
structure Refresh.Akin (L : Likeness) (r₁ r₂ : Refresh) : Prop where
  sleep : r₁.sleep = r₂.sleep
  answer : Concur Eq (Option.Rel L.credential) r₁.answer r₂.answer

/-- Supplies that are the same but for secrets. -/
def Supplies.Akin (L : Likeness) : Supplies → Supplies → Prop :=
  List.Forall₂ (List.Forall₂ (Refresh.Akin L))

theorem Supplies.Akin.refl (s : Supplies) : Supplies.Akin L s s :=
  List.forall₂_same.2 fun _ _ => List.forall₂_same.2 fun _ _ =>
    ⟨rfl, Concur.refl (fun _ => rfl) (rel_refl L.refl) _⟩

/-! ## Without any difference -/

section Identity

theorem eq_of_forall₂ {α : Type} {R : α → α → Prop} (h : ∀ {a b}, R a b → a = b) {l₁ l₂ : List α}
    (all : List.Forall₂ R l₁ l₂) : l₁ = l₂ := by
  rw [← List.forall₂_eq_eq_eq]
  exact all.imp fun _ _ => h

theorem Likeness.eq_of_field {name v₁ v₂ : String} (h : Likeness.identity.field name v₁ v₂) :
    v₁ = v₂ := by
  unfold field at h
  split at h
  · exact h
  · split at h <;> exact h

theorem ConnectionString.Akin.eq {c₁ c₂ : ConnectionString}
    (h : c₁.Akin Likeness.identity c₂) : c₁ = c₂ := by
  have fields : c₁.fields = c₂.fields :=
    eq_of_forall₂ (fun hf => Prod.ext hf.1 (Likeness.eq_of_field hf.2)) h
  cases c₁
  cases c₂
  cases fields
  rfl

mutual

theorem Provider.Akin.eq : ∀ {p q : Provider}, p.Akin Likeness.identity q → p = q
  | _, _, .fixed hc => by cases hc; rfl
  | _, _, .secrets => rfl
  | _, _, .connectionString .none => rfl
  | _, _, .connectionString (.some hc) => by rw [hc.eq]
  | _, _, .refresh _ => rfl
  | .chain ps, .chain qs, .chain h => by rw [Provider.Akin.eq_all h]
  | .standard ps, .standard qs, .standard h => by rw [Provider.Akin.eq_all h]

theorem Provider.Akin.eq_all : ∀ {ps qs : List Provider},
    List.Forall₂ (Provider.Akin Likeness.identity) ps qs → ps = qs
  | [], [], .nil => rfl
  | _ :: _, _ :: _, .cons h hs => by rw [Provider.Akin.eq h, Provider.Akin.eq_all hs]

end

theorem Refresh.Akin.eq {r₁ r₂ : Refresh} (h : r₁.Akin Likeness.identity r₂) : r₁ = r₂ := by
  obtain ⟨sleep, answer⟩ := h
  cases r₁
  cases r₂
  cases sleep
  cases (answer.mono (fun _ _ h => h) fun _ _ => eq_of_rel).eq
  rfl

theorem Supplies.Akin.eq {s₁ s₂ : Supplies} (h : Supplies.Akin Likeness.identity s₁ s₂) : s₁ = s₂ :=
  eq_of_forall₂ (eq_of_forall₂ Refresh.Akin.eq) h

end Identity

end SignedHttp

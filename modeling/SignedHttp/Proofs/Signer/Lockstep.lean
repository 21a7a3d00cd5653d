import SignedHttp.Proofs.Signer.Frame
import SignedHttp.Proofs.Signer.Likeness

/-!
# SignedHttp.Proofs.Signer.Lockstep

Two signers side by side. `Unison L S` says that the relation `S` between environments survives
whatever signing and waiting for the rate limiter do to both of them. Concur sources then answer
alike, whatever they are put together from (`Provider.lockstep_ask`), so two signers find alike
credentials (`Signer.lockstep_credential`) and, if their scheme makes alike requests of those, sign
in lockstep (`Signer.lockstep_sign`).
-/

namespace SignedHttp
namespace Run

/-- A relation between two environments that survives signing and waiting for the rate limiter. -/
structure Unison (L : Likeness) (S : Environment → Environment → Prop) : Prop where
  clock : ∀ {env₁ env₂}, S env₁ env₂ → env₁.clock = env₂.clock
  limiter : ∀ {env₁ env₂}, S env₁ env₂ → env₁.limiter = env₂.limiter
  cache : ∀ {env₁ env₂}, S env₁ env₂ → Option.Rel L.credential env₁.cache env₂.cache
  supplies : ∀ {env₁ env₂}, S env₁ env₂ → Supplies.Akin L env₁.supplies env₂.supplies
  logged : ∀ {env₁ env₂} line, S env₁ env₂ →
    S (env₁.noted (.logged line)) (env₂.noted (.logged line))
  asked : ∀ {env₁ env₂} {p₁ p₂ : Option Credential}, Option.Rel L.credential p₁ p₂ →
    S env₁ env₂ → S (env₁.noted (.asked p₁)) (env₂.noted (.asked p₂))
  consulted : ∀ {env₁ env₂} {leaf₁ leaf₂ : Provider} {p₁ p₂ : Option Credential},
    leaf₁.Akin L leaf₂ → Option.Rel L.credential p₁ p₂ → S env₁ env₂ →
    S (env₁.noted (.consulted leaf₁ p₁)) (env₂.noted (.consulted leaf₂ p₂))
  stored : ∀ {env₁ env₂} {c₁ c₂ : Option Credential}, Option.Rel L.credential c₁ c₂ →
    S env₁ env₂ → S (Environment.noted { env₁ with cache := c₁ } (.cached c₁))
      (Environment.noted { env₂ with cache := c₂ } (.cached c₂))
  signed : ∀ {env₁ env₂} {c₁ c₂ : Option Credential}, Option.Rel L.credential c₁ c₂ →
    S env₁ env₂ → S (env₁.noted (.signed c₁)) (env₂.noted (.signed c₂))
  slept : ∀ {env₁ env₂} {wait : Wait} {d : Duration} {clock : Clock},
    env₁.clock.sleep? d = some clock → S env₁ env₂ →
    S (env₁.woken wait d clock) (env₂.woken wait d clock)
  supplied : ∀ {env₁ env₂} {s₁ s₂ : Supplies}, Supplies.Akin L s₁ s₂ → S env₁ env₂ →
    S { env₁ with supplies := s₁ } { env₂ with supplies := s₂ }
  limited : ∀ {env₁ env₂} (limiter : RateLimiter), S env₁ env₂ →
    S { env₁ with limiter := some limiter } { env₂ with limiter := some limiter }

namespace Unison

variable {L : Likeness} {S : Environment → Environment → Prop}

theorem lockstep_log (u : Unison L S) (lines : List Log.Line) :
    Lockstep S (log lines) (log lines) (fun _ _ => S) (Both Eq S) :=
  Run.lockstep_log (fun line _ _ => u.logged line) lines

theorem lockstep_sleep (u : Unison L S) (wait : Wait) (d : Duration) :
    Lockstep S (sleep wait d) (sleep wait d) (fun _ _ => S) (Both Eq S) :=
  Run.lockstep_sleep (fun _ _ => u.clock) (fun _ _ _ => u.slept) fun _ _ hS => ⟨rfl, hS⟩

theorem lockstep_acquire (u : Unison L S) :
    Lockstep S acquire acquire (fun _ _ => S) (Both Eq S) := by
  refine lockstep_get.bind ?_
  rintro env₁ env₂ _ _ ⟨rfl, rfl, hS⟩
  rw [← u.clock hS, ← u.limiter hS]
  cases env₁.limiter with
  | none => exact .ok hS
  | some limiter =>
    dsimp only
    cases limiter.reserve? env₁.clock.now with
    | none => exact .error ⟨rfl, hS⟩
    | some reserved =>
      obtain ⟨wait, limiter'⟩ := reserved
      have waits : Lockstep S
          (if wait ≠ .zero then do
            log [Log.debug ("rate limiter delays request for " ++ wait.text)]
            sleep .slot wait
          else pure ())
          (if wait ≠ .zero then do
            log [Log.debug ("rate limiter delays request for " ++ wait.text)]
            sleep .slot wait
          else pure ()) (fun _ _ => S) (Both Eq S) := by
        by_cases hw : wait ≠ .zero
        · rw [if_pos hw]
          exact (u.lockstep_log _).bind fun _ _ => u.lockstep_sleep .slot wait
        · rw [if_neg hw]
          exact lockstep_pure fun _ _ hS => hS
      have limited := u.limited limiter' hS
      rw [← u.clock hS] at limited
      exact waits _ _ limited

end Unison
end Run

namespace Provider

open Run

variable {L : Likeness} {S : Environment → Environment → Prop}

/-- The answers of two sources, one for each run, and the environments that they leave. -/
abbrev Answers (L : Likeness) (S : Environment → Environment → Prop) :
    Option Credential → Option Credential → Environment → Environment → Prop :=
  Both (Option.Rel L.credential) S

theorem lockstep_found (c₁ c₂ : Credential) :
    Lockstep (Both L.credential S c₁ c₂) (pure (some c₁) : Run (Option Credential))
      (pure (some c₂)) (Answers L S) (Both Eq S) :=
  lockstep_pure fun _ _ h => ⟨.some h.1, h.2⟩

theorem lockstep_decode (u : Unison L S) {g₁ g₂ : Credential.Given} (h : g₁.Akin L g₂) :
    Lockstep S (decode g₁) (decode g₂) (Both L.credential S) (Both Eq S) := by
  unfold decode
  rw [h.log]
  exact (u.lockstep_log _).bind fun _ _ => lockstep_lift h.credential fun _ => rfl

theorem lockstep_askSecrets (u : Unison L S) {s₁ s₂ : Secrets} (h : s₁.Akin L s₂) :
    Lockstep S (askSecrets s₁) (askSecrets s₂) (Answers L S) (Both Eq S) := by
  unfold askSecrets
  match s₁.given?, s₂.given?, h.given? with
  | _, _, .none => exact lockstep_pure fun _ _ hS => ⟨.none, hS⟩
  | some (remark, g₁), some (_, g₂), .some ⟨same, hg⟩ =>
    cases same
    exact (u.lockstep_log [Log.debug remark]).bind fun _ _ =>
      (lockstep_decode u hg).bind lockstep_found

theorem lockstep_askString (u : Unison L S) {c₁ c₂ : ConnectionString} (h : c₁.Akin L c₂) :
    Lockstep S (askString c₁) (askString c₂) (Answers L S) (Both Eq S) := by
  unfold askString
  rw [h.text]
  match c₁.given?, c₂.given?, h.given? with
  | _, _, .none => exact lockstep_pure fun _ _ hS => ⟨.none, hS⟩
  | _, _, .some hg =>
    refine (lockstep_decode u hg).bind fun a b env₁ env₂ hab => ?_
    exact ((u.lockstep_log _).bind fun _ _ =>
      lockstep_pure fun _ _ hS => ⟨.some hab.1, hS⟩) env₁ env₂ hab.2

theorem lockstep_askSecretString (u : Unison L S) {s₁ s₂ : Secrets} (h : s₁.Akin L s₂) :
    Lockstep S (askSecretString s₁) (askSecretString s₂) (Answers L S) (Both Eq S) := by
  unfold askSecretString
  match s₁.connectionString, s₂.connectionString, h.connectionString with
  | _, _, .none => exact lockstep_pure fun _ _ hS => ⟨.none, hS⟩
  | _, _, .some ht =>
    refine (lockstep_lift ht fun _ => rfl).bind fun c₁ c₂ env₁ env₂ hc => ?_
    exact lockstep_askString u hc.1 env₁ env₂ hc.2

theorem rel_getElem? {α β : Type} {R : α → β → Prop} {l₁ : List α} {l₂ : List β}
    (h : List.Forall₂ R l₁ l₂) (n : Nat) : Option.Rel R l₁[n]? l₂[n]? := by
  induction h generalizing n with
  | nil => exact .none
  | cons hab _ ih =>
    cases n with
    | zero => exact .some hab
    | succ n => exact ih n

theorem forall₂_set {α β : Type} {R : α → β → Prop} {l₁ : List α} {l₂ : List β} {a : α} {b : β}
    (h : List.Forall₂ R l₁ l₂) (hab : R a b) (n : Nat) :
    List.Forall₂ R (l₁.set n a) (l₂.set n b) := by
  induction h generalizing n with
  | nil => exact .nil
  | cons hxy hs ih =>
    cases n with
    | zero => exact .cons hab hs
    | succ n => exact .cons hxy (ih n)

theorem lockstep_takeRefresh (u : Unison L S) (supply : Nat) :
    Lockstep S (takeRefresh supply) (takeRefresh supply) (Both (Refresh.Akin L) S)
      (Both Eq S) := by
  refine lockstep_get.bind ?_
  rintro env₁ env₂ _ _ ⟨rfl, rfl, hS⟩
  have alike := u.supplies hS
  have found := rel_getElem? alike supply
  generalize env₁.supplies[supply]? = answers₁ at found ⊢
  generalize env₂.supplies[supply]? = answers₂ at found ⊢
  have nothing : (Refresh.Akin L) { answer := .ok none } { answer := .ok none } :=
    ⟨rfl, .ok .none⟩
  cases found with
  | none => exact .ok ⟨nothing, hS⟩
  | some answers =>
    cases answers with
    | nil => exact .ok ⟨nothing, hS⟩
    | cons next rest => exact .ok ⟨next, u.supplied (forall₂_set alike rest supply) hS⟩

theorem lockstep_askSupply (u : Unison L S) (supply : Nat) :
    Lockstep S (askSupply supply) (askSupply supply) (Answers L S) (Both Eq S) := by
  refine (lockstep_takeRefresh u supply).bind ?_
  rintro ⟨sleep, answer₁⟩ ⟨_, answer₂⟩ env₁ env₂ ⟨⟨rfl, answer⟩, hS⟩
  have slept {x y : Run (Option Credential)} (h : Lockstep S x y (Answers L S) (Both Eq S))
      (d : Duration) : Lockstep S (Run.sleep .refresh d >>= fun _ => x)
        (Run.sleep .refresh d >>= fun _ => y) (Answers L S) (Both Eq S) :=
    (u.lockstep_sleep .refresh d).bind fun _ _ => h
  dsimp only at answer
  cases answer with
  | ok hc =>
    have found {c₁ c₂ : Option Credential} (hc : Option.Rel L.credential c₁ c₂) :
        Lockstep S (pure c₁) (pure c₂) (Answers L S) (Both Eq S) :=
      lockstep_pure fun _ _ hS => ⟨hc, hS⟩
    cases sleep with
    | none => exact found hc env₁ env₂ hS
    | some d => exact slept (found hc) d env₁ env₂ hS
  | @error cause _ same =>
    subst same
    have failed : Lockstep S (fail { cause }) (fail { cause }) (Answers L S) (Both Eq S) :=
      lockstep_fail fun _ _ hS => ⟨rfl, hS⟩
    cases sleep with
    | none => exact failed env₁ env₂ hS
    | some d => exact slept failed d env₁ env₂ hS

theorem lockstep_consult (u : Unison L S) {leaf₁ leaf₂ : Provider} {p₁ p₂ : Option Credential}
    (leaf : leaf₁.Akin L leaf₂) (previous : Option.Rel L.credential p₁ p₂) :
    Lockstep S (note (.consulted leaf₁ p₁)) (note (.consulted leaf₂ p₂)) (fun _ _ => S)
      (Both Eq S) :=
  lockstep_note fun _ _ => u.consulted leaf previous

section Ask

variable {s₁ s₂ : Secrets} {p₁ p₂ : Option Credential}

mutual

theorem lockstep_ask (u : Unison L S) (secrets : s₁.Akin L s₂)
    (previous : Option.Rel L.credential p₁ p₂) :
    ∀ {p q : Provider}, p.Akin L q →
      Lockstep S (ask s₁ p₁ p) (ask s₂ p₂ q) (Answers L S) (Both Eq S)
  | _, _, .fixed hc => by
    rw [ask, ask]
    exact (lockstep_consult u (.fixed hc) previous).bind fun _ _ =>
      lockstep_pure fun _ _ hS => ⟨.some hc, hS⟩
  | _, _, .secrets => by
    rw [ask, ask]
    exact (lockstep_consult u .secrets previous).bind fun _ _ => lockstep_askSecrets u secrets
  | _, _, .connectionString (.some hc) => by
    rw [ask, ask]
    exact (lockstep_consult u (.connectionString (.some hc)) previous).bind fun _ _ =>
      lockstep_askString u hc
  | _, _, .connectionString .none => by
    rw [ask]
    exact (lockstep_consult u (.connectionString .none) previous).bind fun _ _ =>
      lockstep_askSecretString u secrets
  | _, _, .refresh supply => by
    rw [ask]
    exact (lockstep_consult u (.refresh supply) previous).bind fun _ _ =>
      lockstep_askSupply u supply
  | .chain ps, .chain qs, .chain h => by
    rw [ask, ask]
    exact lockstep_askFirst u secrets previous h
  | .standard ps, .standard qs, .standard h => by
    rw [ask, ask]
    exact lockstep_askFirst u secrets previous h

theorem lockstep_askFirst (u : Unison L S) (secrets : s₁.Akin L s₂)
    (previous : Option.Rel L.credential p₁ p₂) :
    ∀ {ps qs : List Provider}, List.Forall₂ (Provider.Akin L) ps qs →
      Lockstep S (askFirst s₁ p₁ ps) (askFirst s₂ p₂ qs) (Answers L S) (Both Eq S)
  | [], [], .nil => by
    rw [askFirst, askFirst]
    exact lockstep_pure fun _ _ hS => ⟨.none, hS⟩
  | p :: ps, q :: qs, .cons h hs => by
    rw [askFirst, askFirst, text_eq h]
    refine (u.lockstep_log _).bind fun _ _ => (lockstep_ask u secrets previous h).bind ?_
    rintro _ _ env₁ env₂ ⟨answer, hS⟩
    cases answer with
    | none => exact lockstep_askFirst u secrets previous hs env₁ env₂ hS
    | some hc =>
      exact ((u.lockstep_log _).bind fun _ _ =>
        lockstep_pure fun _ _ hS => ⟨.some hc, hS⟩) env₁ env₂ hS

end

end Ask

end Provider

namespace Signer

open Run

variable {L : Likeness} {S : Environment → Environment → Prop} {s₁ s₂ : Signer}

/-- Signers that are the same but for secrets. -/
structure Akin (L : Likeness) (s₁ s₂ : Signer) : Prop where
  secrets : s₁.secrets.Akin L s₂.secrets
  provider : s₁.provider.Akin L s₂.provider
  scheme : s₁.scheme = s₂.scheme

theorem Akin.refl (s : Signer) : Akin L s s :=
  ⟨Secrets.Akin.refl s.secrets, Provider.Akin.refl s.provider, rfl⟩

theorem lockstep_ask (u : Unison L S) (h : s₁.Akin L s₂) {p₁ p₂ : Option Credential}
    (previous : Option.Rel L.credential p₁ p₂) :
    Lockstep S (s₁.ask p₁) (s₂.ask p₂) (Both (Option.Rel L.credential) S) (Both Eq S) :=
  (lockstep_note fun _ _ => u.asked previous).bind fun _ _ =>
    Provider.lockstep_ask u h.secrets previous h.provider

theorem lockstep_refresh (u : Unison L S) (h : s₁.Akin L s₂) :
    Lockstep S s₁.refresh s₂.refresh (Both (Option.Rel L.credential) S) (Both Eq S) := by
  refine (u.lockstep_log _).bind fun _ _ => lockstep_get.bind ?_
  rintro env₁ env₂ _ _ ⟨rfl, rfl, hS⟩
  refine ((lockstep_ask u h (u.cache hS)).bind ?_) env₁ env₂ hS
  rintro c₁ c₂ env₁ env₂ ⟨fresh, hS⟩
  exact .ok ⟨fresh, u.stored fresh hS⟩

theorem usable_eq {c₁ c₂ : Option Credential} (h : Option.Rel L.credential c₁ c₂) (now : Instant) :
    Credential.usable c₁ now = Credential.usable c₂ now := by
  cases h with
  | none => rfl
  | some hc => exact L.isValid hc now

theorem lockstep_credential (u : Unison L S) (h : s₁.Akin L s₂) :
    Lockstep S s₁.credential s₂.credential (Both (Option.Rel L.credential) S) (Both Eq S) := by
  refine lockstep_get.bind ?_
  rintro env₁ env₂ _ _ ⟨rfl, rfl, hS⟩
  have cache := u.cache hS
  rw [← u.clock hS, usable_eq cache]
  by_cases hu : Credential.usable env₂.cache env₁.clock.now = true
  · simp only [hu, if_true]
    exact .ok ⟨cache, hS⟩
  · simp only [hu]
    exact lockstep_refresh u h env₁ env₂ hS

/-- A scheme makes of alike credentials requests that `Q` relates, if it makes any, and logs the
same. -/
structure Signs (L : Likeness) (scheme : Scheme) (Q : Request → Request → Prop) : Prop where
  log : ∀ {c₁ c₂}, Option.Rel L.credential c₁ c₂ → ∀ now r,
    scheme.signLog now c₁ r = scheme.signLog now c₂ r
  result : ∀ {c₁ c₂}, Option.Rel L.credential c₁ c₂ → ∀ now r,
    (scheme.sign now c₁ r).result = (scheme.sign now c₂ r).result
  request : ∀ {c₁ c₂}, Option.Rel L.credential c₁ c₂ → ∀ now r,
    (scheme.sign now c₁ r).result = .ok () →
    Q (scheme.sign now c₁ r).request (scheme.sign now c₂ r).request

theorem lockstep_sign {Q : Request → Request → Prop} (u : Unison L S) (h : s₁.Akin L s₂)
    (signs : Signs L s₁.scheme Q) (r : Request) :
    Lockstep S (s₁.sign r) (s₂.sign r) (Both Q S) (Both Eq S) := by
  refine (lockstep_credential u h).bind ?_
  rintro c₁ c₂ env₁ env₂ ⟨found, hS⟩
  refine ((lockstep_now fun _ _ => u.clock).bind ?_) env₁ env₂ hS
  rintro now _ env₁ env₂ ⟨rfl, hS⟩
  rw [← h.scheme, signs.log found now r]
  refine ((u.lockstep_log _).bind fun _ _ => ?_) env₁ env₂ hS
  dsimp only
  rw [← signs.result found now r]
  cases hr : (s₁.scheme.sign now c₁ r).result with
  | ok =>
    exact (lockstep_note fun _ _ => u.signed found).bind fun _ _ =>
      lockstep_pure fun _ _ hS => ⟨signs.request found now r hr, hS⟩
  | error e => exact lockstep_fail fun _ _ hS => ⟨rfl, hS⟩

end Signer
end SignedHttp

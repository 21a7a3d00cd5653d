import SignedHttp.Proofs.Signer.Frame

/-!
# SignedHttp.Proofs.Signer.Lookup

How a lookup of a credential goes (`looked_credential`), and what lookups make of the cache.

* `Signer.asked`, `Signer.answer?`: what can be seen of one lookup, the questions to the source and
  its answer.
* `Follows s start looks env`: what leads from `start` to `env` are the lookups that begin in the
  environments `looks`, requests that are signed with what they find, and besides them only things
  that have nothing to do with credentials.
* `Follows.cache`, `Follows.questions`, `Follows.signed_of`: wherever that leads, the cache holds
  the last answer of the source, nobody else has asked it, and nothing is signed with anything else.
-/

namespace SignedHttp

/-- The source is asked for a credential, its answer is kept, or a request is signed. -/
def Event.isCredential : Event → Bool
  | .asked _ | .consulted _ _ | .cached _ | .signed _ => true
  | .logged _ | .slept _ _ _ | .built _ | .sent _ _ _ | .returned _ _ | .paused _ _
  | .cleared _ => false

@[simp] theorem Event.questions_append (es es' : List Event) :
    questions (es ++ es') = questions es ++ questions es' := List.filterMap_append

theorem Event.questions_concat {e : Event} (es : List Event) (h : ∀ previous, e ≠ .asked previous) :
    questions (es ++ [e]) = questions es := by
  have none : questions [e] = [] := by
    cases e with
    | asked previous => exact absurd rfl (h previous)
    | _ => rfl
  rw [questions_append, none, List.append_nil]

theorem Event.questions_eq_nil {es : List Event} (h : ∀ e ∈ es, e.isCredential = false) :
    questions es = [] := by
  refine List.filterMap_eq_nil_iff.2 fun e he => ?_
  cases e with
  | asked previous => cases h _ he
  | _ => rfl

namespace Signer

open Run

variable {s : Signer} {env env' start : Environment}

/-! ## One lookup -/

/-- The ways in which a lookup can go, with the environment that it leaves. -/
inductive Looked (s : Signer) (env : Environment) :
    EStateM.Result Stop Environment (Option Credential) → Prop where
  | found : Credential.usable env.cache env.clock.now = true → Looked s env (.ok env.cache env)
  | renewed {line : Log.Line} {fresh : Option Credential} {mid : Environment} :
      Credential.usable env.cache env.clock.now = false →
      s.provider.ask s.secrets env.cache ((env.noted (.logged line)).noted (.asked env.cache)) =
        .ok fresh mid →
      Looked s env (.ok fresh (Environment.noted { mid with cache := fresh } (.cached fresh)))
  | failed {line : Log.Line} {e : Stop} {mid : Environment} :
      Credential.usable env.cache env.clock.now = false →
      s.provider.ask s.secrets env.cache ((env.noted (.logged line)).noted (.asked env.cache)) =
        .error e mid →
      Looked s env (.error e mid)

theorem credential_of_usable (h : Credential.usable env.cache env.clock.now = true) :
    s.credential env = .ok env.cache env := by
  unfold credential
  rw [bind_apply, get_apply]
  dsimp only
  rw [if_pos h]
  rfl

theorem looked_credential (s : Signer) (env : Environment) : Looked s env (s.credential env) := by
  cases hu : Credential.usable env.cache env.clock.now with
  | true =>
    rw [credential_of_usable hu]
    exact .found hu
  | false =>
    unfold credential
    rw [bind_apply, get_apply]
    dsimp only
    rw [if_neg (by simp [hu])]
    unfold refresh ask
    rw [bind_apply, log_apply]
    dsimp only
    rw [bind_apply, get_apply]
    dsimp only
    rw [bind_apply, bind_apply, note_apply]
    dsimp only
    cases ha : s.provider.ask s.secrets (env.noted (.logged _)).cache
        ((env.noted (.logged _)).noted (.asked (env.noted (.logged _)).cache)) with
    | error e mid => exact .failed hu ha
    | ok fresh mid => exact .renewed hu ha

/-- What the source is asked in a lookup. -/
def asked (s : Signer) (env : Environment) : List (Option Credential) :=
  Event.questions (s.credential.events env)

/-- The answer of the source in a lookup, if it is asked and does not fail. -/
def answer? (s : Signer) (env : Environment) : Option (Option Credential) :=
  if s.asked env = [] then none else (s.credential.outcome env).toOption

/-- Asking the source does not touch the cache, and asks nobody else. -/
theorem keptByAsking_unasked (start : Environment) (c : Option Credential)
    (questions : List (Option Credential)) :
    KeptByAsking fun env =>
      env.cache = c ∧ Since start (fun es => Event.questions es = questions) env where
  logged _ h := ⟨h.1, h.2.noted fun es hes => by rw [Event.questions_concat es (by simp), hes]⟩
  consulted _ _ h :=
    ⟨h.1, h.2.noted fun es hes => by rw [Event.questions_concat es (by simp), hes]⟩
  sleep _ h := ⟨h.1, h.2.woken fun es hes => by rw [Event.questions_concat es (by simp), hes]⟩
  supplies _ h := h

theorem asked_eq {questions : List (Option Credential)}
    (h : Since env (fun es => Event.questions es = questions) (s.credential.leaves env)) :
    s.asked env = questions := by
  obtain ⟨es, htrace, hes⟩ := h
  rw [asked, events_eq htrace, hes]

theorem keptByLookup_unsigned (start : Environment) :
    KeptByLookup (Since start fun es => ∀ c, .signed c ∉ es) := by
  have quiet (es : List Event) {e : Event} (he : ∀ c, e ≠ .signed c) (h : ∀ c, .signed c ∉ es) :
      ∀ c, .signed c ∉ es ++ [e] := by
    intro c hmem
    rcases List.mem_append.1 hmem with hmem | hmem
    · exact h c hmem
    · exact he c (List.mem_singleton.1 hmem).symm
  refine ⟨fun _ h => ?_, fun _ h => ?_, fun _ _ h => ?_, fun _ h => ?_, fun _ h => ?_, fun _ h => h⟩
  · exact h.noted fun es => quiet es (by simp)
  · exact h.noted fun es => quiet es (by simp)
  · exact h.noted fun es => quiet es (by simp)
  · exact Since.noted h fun es => quiet es (by simp)
  · exact h.woken fun es => quiet es (by simp)

theorem since_looked (s : Signer) (env : Environment) :
    Since env (fun es => Event.questions es = s.asked env ∧ ∀ c, .signed c ∉ es)
      (s.credential.leaves env) := by
  have here : Since env (fun es => ∀ c, .signed c ∉ es) env := ⟨[], by simp, by simp⟩
  obtain ⟨es, htrace, unsigned⟩ := (keeps_credential (keptByLookup_unsigned env) s).leaves here
  exact ⟨es, htrace, by rw [asked, events_eq htrace], unsigned⟩

theorem asked_of_usable (h : Credential.usable env.cache env.clock.now = true) :
    s.asked env = [] := by
  refine asked_eq ?_
  unfold leaves
  rw [credential_of_usable h]
  exact ⟨[], by simp [final], rfl⟩

/-- If what the cache holds cannot be used, the source is asked with it, and its answer, unless it
fails, is what is found and what is kept. -/
theorem lookup_of_unusable (s : Signer) (h : Credential.usable env.cache env.clock.now = false) :
    s.asked env = [env.cache] ∧
    (s.credential.leaves env).cache = (s.credential.outcome env).toOption.getD env.cache ∧
    ∃ line, s.credential.outcome env = (s.provider.ask s.secrets env.cache).outcome
      ((env.noted (.logged line)).noted (.asked env.cache)) := by
  have answered (line : Log.Line) :
      (final (s.provider.ask s.secrets env.cache
        ((env.noted (.logged line)).noted (.asked env.cache)))).cache = env.cache ∧
      Since env (fun es => Event.questions es = [env.cache]) (final (s.provider.ask s.secrets
        env.cache ((env.noted (.logged line)).noted (.asked env.cache)))) :=
    (Provider.keeps_ask (keptByAsking_unasked env env.cache [env.cache]) s.secrets env.cache
      s.provider).leaves ⟨rfl, [.logged line, .asked env.cache], by simp, rfl⟩
  have asked : Since env (fun es => Event.questions es = [env.cache]) (s.credential.leaves env) →
      s.asked env = [env.cache] := asked_eq
  have looked := looked_credential s env
  unfold leaves outcome at *
  generalize s.credential env = result at looked asked ⊢
  cases looked with
  | found hu =>
    rw [hu] at h
    cases h
  | @renewed line fresh mid _ ha =>
    obtain ⟨-, since⟩ := answered line
    rw [ha] at since
    refine ⟨asked (Since.noted since fun es hes => ?_), rfl, line, by rw [ha]; rfl⟩
    rw [Event.questions_concat es (by simp), hes]
  | @failed line e mid _ ha =>
    obtain ⟨same, since⟩ := answered line
    rw [ha] at same since
    exact ⟨asked since, same, line, by rw [ha]⟩

theorem answer?_of_usable (h : Credential.usable env.cache env.clock.now = true) :
    s.answer? env = none := by
  rw [answer?, if_pos (asked_of_usable h)]

theorem answer?_of_unusable (h : Credential.usable env.cache env.clock.now = false) :
    s.answer? env = (s.credential.outcome env).toOption := by
  rw [answer?, if_neg (by simp [(lookup_of_unusable s h).1])]

/-- After a lookup the cache holds the answer of the source, or what it held before. -/
theorem cache_leaves (s : Signer) (env : Environment) :
    (s.credential.leaves env).cache = (s.answer? env).getD env.cache := by
  cases hu : Credential.usable env.cache env.clock.now with
  | true =>
    rw [answer?_of_usable hu]
    unfold leaves
    rw [credential_of_usable hu]
    rfl
  | false => rw [answer?_of_unusable hu, (lookup_of_unusable s hu).2.1]

/-- How a lookup goes where the cache holds `c`: a credential that can be used is found without a
question to the source. Otherwise the source is asked once, with `c`; its answer is what is found
and kept, and if it fails `c` stays. -/
structure Obeys (s : Signer) (c : Option Credential) (env : Environment) : Prop where
  cache : env.cache = c
  found : Credential.usable c env.clock.now = true →
    s.asked env = [] ∧ s.credential env = .ok c env
  renewed : Credential.usable c env.clock.now = false →
    s.asked env = [c] ∧ ∃ line, s.credential.outcome env =
      (s.provider.ask s.secrets c).outcome ((env.noted (.logged line)).noted (.asked c))
  kept : (s.credential.leaves env).cache = (s.credential.outcome env).toOption.getD c

theorem obeys (s : Signer) (env : Environment) : Obeys s env.cache env where
  cache := rfl
  found hu := ⟨asked_of_usable hu, credential_of_usable hu⟩
  renewed hu := by
    obtain ⟨asked, -, line, outcome⟩ := lookup_of_unusable s hu
    exact ⟨asked, line, outcome⟩
  kept := by
    cases hu : Credential.usable env.cache env.clock.now with
    | true =>
      unfold leaves outcome
      rw [credential_of_usable hu]
      rfl
    | false => exact (lookup_of_unusable s hu).2.1

/-! ## Many lookups -/

/-- Something happens that has nothing to do with credentials. -/
structure Idle (env env' : Environment) : Prop where
  cache : env'.cache = env.cache
  since : Since env (fun es => ∀ e ∈ es, e.isCredential = false) env'

/-- What the lookup that began in `env` has found, if nothing has been done since but writing to the
log. -/
structure Found (s : Signer) (env : Environment) (c : Option Credential) (mid : Environment) :
    Prop where
  outcome : s.credential.outcome env = .ok c
  trace : ∃ lines : List Log.Line, mid.trace = (s.credential.leaves env).trace ++ lines.map .logged

/-- The lookups that begin in the environments `looks`, one after another, lead to `env`. -/
inductive Follows (s : Signer) (start : Environment) : List Environment → Environment → Prop where
  | refl : Follows s start [] start
  | idle {looks : List Environment} {env env' : Environment} :
      Follows s start looks env → Idle env env' → Follows s start looks env'
  | look {looks : List Environment} {env : Environment} :
      Follows s start looks env → Follows s start (looks ++ [env]) (s.credential.leaves env)
  | signed {looks : List Environment} {env mid : Environment} {c : Option Credential} :
      Follows s start (looks ++ [env]) mid → Found s env c mid →
      Follows s start (looks ++ [env]) (mid.noted (.signed c))

/-- The last answer of the source in some lookups, or what the cache held before them. -/
def latest (s : Signer) (c : Option Credential) (looks : List Environment) : Option Credential :=
  (looks.filterMap s.answer?).getLast?.getD c

theorem latest_concat (s : Signer) (c : Option Credential) (looks : List Environment)
    (env : Environment) :
    s.latest c (looks ++ [env]) = (s.answer? env).getD (s.latest c looks) := by
  unfold latest
  rw [List.filterMap_append]
  cases ha : s.answer? env with
  | none => simp [ha]
  | some answer => simp [ha]

variable {looks before after : List Environment}

theorem Follows.cache (h : Follows s start looks env) : env.cache = s.latest start.cache looks := by
  induction h with
  | refl => rfl
  | idle _ step ih => rw [step.cache, ih]
  | look _ ih => rw [cache_leaves, latest_concat, ih]
  | signed _ _ ih => exact ih

theorem Follows.questions (h : Follows s start looks env) :
    Since start (fun es => Event.questions es = looks.flatMap s.asked) env := by
  induction h with
  | refl => exact ⟨[], by simp, rfl⟩
  | idle _ step ih =>
    obtain ⟨es, htrace, hes⟩ := ih
    obtain ⟨es', htrace', quiet⟩ := step.since
    refine ⟨es ++ es', by rw [htrace', htrace, List.append_assoc], ?_⟩
    dsimp only at hes ⊢
    rw [Event.questions_append, hes, Event.questions_eq_nil quiet, List.append_nil]
  | @look looks env _ ih =>
    obtain ⟨es, htrace, hes⟩ := ih
    obtain ⟨es', htrace', hes', -⟩ := since_looked s env
    refine ⟨es ++ es', by rw [htrace', htrace, List.append_assoc], ?_⟩
    dsimp only at hes hes' ⊢
    rw [Event.questions_append, hes, hes', List.flatMap_append, List.flatMap_singleton]
  | signed _ _ ih =>
    exact ih.noted fun es hes => by rw [Event.questions_concat es (by simp), hes]

/-- Each of the lookups begins where those before it lead to. -/
theorem Follows.start_of (h : Follows s start looks env)
    (hlooks : looks = before ++ env' :: after) : Follows s start before env' := by
  induction h generalizing after with
  | refl => cases before <;> cases hlooks
  | idle _ _ ih => exact ih hlooks
  | look follows ih =>
    rcases split_concat hlooks with ⟨rfl, rfl⟩ | ⟨rest, -, hrest⟩
    · exact follows
    · exact ih hrest
  | signed _ _ ih => exact ih hlooks

/-- One of the lookups has found `c`, and that was just before all of `pre` had happened. -/
def SignedAfter (s : Signer) (start : Environment) (looks : List Environment) (pre : List Event)
    (c : Option Credential) : Prop :=
  ∃ before env after, looks = before ++ env :: after ∧ s.credential.outcome env = .ok c ∧
    ∃ lines : List Log.Line,
      start.trace ++ pre = (s.credential.leaves env).trace ++ lines.map .logged

theorem Follows.signed_of (h : Follows s start looks env) {es pre post : List Event}
    {c : Option Credential} (htrace : env.trace = start.trace ++ es)
    (hes : es = pre ++ .signed c :: post) : SignedAfter s start looks pre c := by
  induction h generalizing es post with
  | refl =>
    have none : es = [] := by simpa using htrace
    rw [hes] at none
    exact absurd none (by simp)
  | idle follows step ih =>
    obtain ⟨es₀, htrace₀, -⟩ := follows.questions
    obtain ⟨es', htrace', quiet⟩ := step.since
    rw [htrace', htrace₀, List.append_assoc, List.append_cancel_left_eq] at htrace
    -- nothing is signed in what comes last, so the split lies before it
    have unsigned : .signed c ∉ es' := fun hmem => nomatch quiet _ hmem
    obtain ⟨mid, hmid⟩ := split_front unsigned (htrace.trans hes)
    exact ih htrace₀ hmid
  | @look looks env follows ih =>
    obtain ⟨es₀, htrace₀, -⟩ := follows.questions
    obtain ⟨es', htrace', -, unsigned⟩ := since_looked s env
    rw [htrace', htrace₀, List.append_assoc, List.append_cancel_left_eq] at htrace
    obtain ⟨mid, hmid⟩ := split_front (unsigned c) (htrace.trans hes)
    obtain ⟨before, env₁, after, hlooks, found⟩ := ih htrace₀ hmid
    exact ⟨before, env₁, after ++ [env], by rw [hlooks, List.append_assoc]; rfl, found⟩
  | @signed looks env mid c' follows found ih =>
    obtain ⟨es₀, htrace₀, -⟩ := follows.questions
    rw [Environment.noted_trace, htrace₀, List.append_assoc, List.append_cancel_left_eq] at htrace
    rcases split_concat (htrace.trans hes) with ⟨rfl, he⟩ | ⟨rest, -, hrest⟩
    · cases he
      obtain ⟨lines, hlines⟩ := found.trace
      exact ⟨looks, env, [], rfl, found.outcome, lines, by rw [← htrace₀, hlines]⟩
    · exact ih htrace₀ hrest

end Signer
end SignedHttp

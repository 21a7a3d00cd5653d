import SignedHttp.Proofs.Executor.Turns
import SignedHttp.Proofs.Signer.Lookup

/-!
# SignedHttp.Proofs.Executor.Cache

The law of the cache (`runAll_cacheLaw`). Whatever executors that share a signer do as they take
turns, and whatever fails meanwhile: when a lookup begins, the cache holds the last answer that the
source has given, and the lookup goes as that tells it to.

The invariant is that the environment follows from the first one by lookups, by signing with what
they find, and by things that have nothing to do with credentials (`Signer.Follows`). Everything but
a lookup and a signing is of the last kind, so what there is to show is where those of a run are.
-/

namespace SignedHttp
namespace Signer

open Run

variable {s : Signer} {env start : Environment}

/-! ## Where lookups are -/

theorem Idle.noted {e : Event} (h : e.isCredential = false) : Idle env (env.noted e) where
  cache := rfl
  since := ⟨[e], by simp, by simp [h]⟩

theorem Idle.same {env' : Environment} (cache : env'.cache = env.cache)
    (trace : env'.trace = env.trace) : Idle env env' where
  cache := cache
  since := ⟨[], by simp [trace], by simp⟩

def Accounted (s : Signer) (start env : Environment) : Prop := ∃ looks, Follows s start looks env

variable {env' : Environment}

theorem Accounted.idle (h : Accounted s start env) (step : Idle env env') :
    Accounted s start env' := by
  obtain ⟨looks, follows⟩ := h
  exact ⟨looks, follows.idle step⟩

theorem Accounted.noted {e : Event} (he : e.isCredential = false) (h : Accounted s start env) :
    Accounted s start (env.noted e) :=
  h.idle (.noted he)

theorem Accounted.same (h : Accounted s start env) (cache : env'.cache = env.cache)
    (trace : env'.trace = env.trace) : Accounted s start env' :=
  h.idle (.same cache trace)

theorem leads_credential_accounted :
    Leads (Accounted s start) s.credential
      (fun c mid => ∃ looks env, Follows s start (looks ++ [env]) mid ∧ Found s env c mid)
      (Accounted s start) := by
  rintro env ⟨looks, follows⟩
  have look := follows.look
  cases hs : s.credential env with
  | ok c mid =>
    have hmid : s.credential.leaves env = mid := by rw [leaves, hs]; rfl
    have outcome : s.credential.outcome env = .ok c := by rw [outcome, hs]; rfl
    exact ⟨looks, env, hmid ▸ look, outcome, [], by rw [hmid]; simp⟩
  | error e mid =>
    have hmid : s.credential.leaves env = mid := by rw [leaves, hs]; rfl
    exact ⟨looks ++ [env], hmid ▸ look⟩

theorem keeps_sign_accounted (r : Request) : Keeps (Accounted s start) (s.sign r) := by
  refine leads_sign leads_credential_accounted ?_ ?_ ?_ r
  · -- a line between the lookup and the signature
    rintro c mid line ⟨looks, env, follows, found⟩
    obtain ⟨lines, hlines⟩ := found.trace
    refine ⟨looks, env, follows.idle (.noted rfl), found.outcome, lines ++ [line], ?_⟩
    simp [hlines]
  · rintro c mid ⟨looks, env, follows, found⟩
    exact ⟨looks ++ [env], follows.signed found⟩
  · rintro c mid ⟨looks, env, follows, -⟩
    exact ⟨looks ++ [env], follows⟩

theorem keptAside_accounted : Executor.KeptAside (Accounted s start) where
  note {env e} aside := .noted (by cases e <;> first | rfl | cases aside)
  clock _ h := h.same rfl rfl
  throttles _ h := h.same rfl rfl

theorem keeps_acquire_accounted : Keeps (Accounted s start) acquire :=
  keeps_acquire_of (fun _ => .noted rfl) keptAside_accounted.slept fun _ h => h.same rfl rfl

theorem Accounted.departed (h : Accounted s start env) (d : Executor.Departure)
    (left : List Exchange) : Accounted s start (Executor.departed d left env) :=
  (h.noted (e := .sent d.key d.message env.clock.now) rfl).same rfl rfl

/-! ## What is not a lookup -/

/-- However signing ends after the lookup, the cache stays. -/
theorem cache_sign (s : Signer) (r : Request) (env : Environment) :
    ((s.sign r).leaves env).cache = (s.credential.leaves env).cache := by
  have looks : Leads (· = env) s.credential
      (fun _ env' => env'.cache = (s.credential.leaves env).cache)
      fun env' => env'.cache = (s.credential.leaves env).cache :=
    leads_of_leaves fun _ h => by rw [h]
  exact (leads_sign looks (fun _ _ _ h => h) (fun _ _ h => h) (fun _ _ h => h) r).leaves rfl

theorem keptAside_cache (c : Option Credential) : Executor.KeptAside fun env => env.cache = c where
  note _ h := h
  clock _ h := h
  throttles _ h := h

theorem cache_send (d : Executor.Departure) (x : Exchange) (left : List Exchange)
    (env : Environment) : ((Executor.send d x left).leaves env).cache = env.cache :=
  ((keptAside_cache env.cache).send (Q := fun env' => env'.cache = env.cache) (fun _ _ h => h)
    x left).leaves rfl

theorem cache_conclude (d : Executor.Departure) (deadline : Instant) (n : Nat) (r : Response)
    (env : Environment) : ((Executor.conclude d deadline n r).leaves env).cache = env.cache :=
  ((keptAside_cache env.cache).conclude d n r).leaves rfl

/-! ## Executors with one signer -/

/-- What the events `es` from `start` to `env` say about the cache, if `looks` are the environments
in which the lookups among them begin. -/
structure CacheLaw (s : Signer) (start : Environment) (looks : List Environment) (es : List Event)
    (env : Environment) : Prop where
  follows : Follows s start looks env
  /-- The cache holds the last answer of the source. -/
  cache : env.cache = s.latest start.cache looks
  obeys : ∀ before env after, looks = before ++ env :: after →
    Obeys s (s.latest start.cache before) env
  questions : Event.questions es = looks.flatMap s.asked
  signed : ∀ pre c post, es = pre ++ .signed c :: post → SignedAfter s start looks pre c

theorem Follows.cacheLaw {looks : List Environment} {es : List Event}
    (h : Follows s start looks env) (htrace : env.trace = start.trace ++ es) :
    CacheLaw s start looks es env := by
  refine ⟨h, h.cache, ?_, ?_, fun pre c post => h.signed_of htrace⟩
  · intro before env after hlooks
    rw [← (h.start_of hlooks).cache]
    exact Signer.obeys s env
  · obtain ⟨es', htrace', questions⟩ := h.questions
    rw [List.append_cancel_left (htrace.symm.trans htrace'), questions]

end Signer

namespace Deed

open Run Signer

variable {c : Common} {s : Signer} {start : Environment}

theorem keeps_run_accounted (shared : c.signer = true) (d : Deed) :
    Keeps (Accounted s start) (d.run c s) :=
  keeps_run keptAside_accounted
    (leads_of_leaves fun env ⟨looks, follows⟩ => ⟨looks ++ [env], follows.look⟩)
    keeps_sign_accounted keeps_acquire_accounted (fun _ _ => .noted rfl)
    (fun departure left _ h => h.departed departure left) (fun _ h => h)
    (fun seat env h => h.same (seat.enter_cache env shared) (seat.enter_trace c env)) d

/-- The law of the cache. Whatever executors with one signer do, and whatever of it fails, the cache
holds the last answer of the source, and every lookup obeys it. -/
theorem runAll_cacheLaw (shared : c.signer = true) (s : Signer) (ds : List Deed)
    (start : Environment) :
    (∃ looks, CacheLaw s start looks ((runAll c s ds).events start)
        ((runAll c s ds).leaves start)) ∧
      (∀ r env, ((s.sign r).leaves env).cache = (s.credential.leaves env).cache) ∧
      (∀ d x left env, ((Executor.send d x left).leaves env).cache = env.cache) ∧
      ∀ d deadline n r env, ((Executor.conclude d deadline n r).leaves env).cache = env.cache := by
  have accounted : Accounted s start ((runAll c s ds).leaves start) := by
    refine (keeps_runAll (fun s' same d => ?_) ds).leaves ⟨[], .refl⟩
    rw [same shared]
    exact keeps_run_accounted shared d
  obtain ⟨looks, follows⟩ := accounted
  obtain ⟨es, htrace, -⟩ := follows.questions
  have law := follows.cacheLaw htrace
  rw [← events_eq htrace] at law
  exact ⟨⟨looks, law⟩, cache_sign s, cache_send, cache_conclude⟩

/-- A token that lasts for three seconds. -/
def shortLived : Credential := .ofBearerToken "first" (some (.atSecond 3))

def renewing : Signer := { scheme := .bearer, provider := .refresh 0 }

/-- The supply has one token, fails when it is asked for another, and then has nothing. -/
def supplied : Environment where
  clock := { now := .atSecond 0 }
  supplies := [[{ answer := .ok (some shortLived) }, { answer := .error .timeoutOutOfRange }]]
  transport := some [{ reply := .ok ⟨⟨200⟩, {}, []⟩ }]

/-- The token is fetched for a request, and another executor finds it while it lasts. After that the
source fails, which leaves the token in the cache, and then its answer takes the token's place. -/
def renewals : List Deed :=
  [.execute (fun _ => .ok Executor.bare) (.atSecond 60), .handOver {}, .credential,
    .advance (.ofSecs 5), .execute (fun _ => .ok Executor.bare) (.atSecond 60),
    .sign Executor.bare]

theorem renewals_cacheLaw :
    ∃ looks, CacheLaw renewing supplied looks
        ((runAll { signer := true } renewing renewals).events supplied)
        ((runAll { signer := true } renewing renewals).leaves supplied) ∧
      looks.flatMap renewing.asked = [none, some shortLived, some shortLived] ∧
      renewing.latest none looks = none := by
  have run : Event.questions ((runAll { signer := true } renewing renewals).events supplied) =
        [none, some shortLived, some shortLived] ∧
      ((runAll { signer := true } renewing renewals).leaves supplied).cache = none := by
    decide +kernel
  obtain ⟨looks, law⟩ :=
    (runAll_cacheLaw (c := { signer := true }) rfl renewing renewals supplied).1
  exact ⟨looks, law, law.questions.symm.trans run.1, law.cache.symm.trans run.2⟩

end Deed
end SignedHttp

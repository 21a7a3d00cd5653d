import SignedHttp.Proofs.Executor.Frame

/-!
# SignedHttp.Proofs.Executor.Turns

Executors that take turns. `Common` says what they share: the signer with its cache, the limiter,
the known pauses, or any of these. A session of theirs is a list of things that are done
(`Deed.runAll`), one of which is that somebody else goes on (`Deed.handOver`). A deed that fails
keeps nobody from going on, but one that gets out of range is the last.

* `keeps_runAll`: what every deed keeps is kept by the whole session. For an assertion that nothing
  aside and no signing makes false, `keeps_runAll_of` leaves only slots and departures to look at.
* `Made`: what a computation does can be done by deeds. That is so of a deed and of a sequence of
  computations of which it is so, so that it can be read off the text of a program.
-/

namespace SignedHttp

/-- What executors that take turns share. What they do not share each of them has for itself. -/
structure Common where
  /-- The signer, its cache, and the supplies of credentials. -/
  signer : Bool := false
  limiter : Bool := false
  throttles : Bool := false

/-- What an executor goes on with when it is its turn, as far as that is its own. -/
structure Seat where
  signer : Signer := {}
  cache : Option Credential := none
  supplies : Supplies := []
  limiter : Option RateLimiter := none
  throttles : Throttles := .empty
  transport : Option (List Exchange) := none

namespace Seat

variable (c : Common) (seat : Seat) (env : Environment)

def enter : Environment :=
  { env with
    cache := if c.signer then env.cache else seat.cache
    supplies := if c.signer then env.supplies else seat.supplies
    limiter := if c.limiter then env.limiter else seat.limiter
    throttles := if c.throttles then env.throttles else seat.throttles
    transport := seat.transport }

@[simp] theorem enter_clock : (seat.enter c env).clock = env.clock := rfl

@[simp] theorem enter_trace : (seat.enter c env).trace = env.trace := rfl

variable {c}

theorem enter_cache (shared : c.signer = true) : (seat.enter c env).cache = env.cache := by
  simp [enter, shared]

theorem enter_limiter (shared : c.limiter = true) : (seat.enter c env).limiter = env.limiter := by
  simp [enter, shared]

theorem enter_throttles (shared : c.throttles = true) :
    (seat.enter c env).throttles = env.throttles := by
  simp [enter, shared]

end Seat

/-- Something that is done while executors take turns. -/
inductive Deed
  | credential
  | sign (r : Request)
  | execute (build : Executor.Build) (deadline : Instant)
  /-- A slot is taken, and nothing is sent in it. -/
  | acquire
  | record (key : String) (pause : Throttle)
  /-- The pause of a resource is asked for, and forgotten if it is over. -/
  | pending (key : String)
  | clear (key : String)
  | advance (d : Duration)
  | sleep (d : Duration)
  | handOver (seat : Seat)

namespace Deed

open Run Executor

def run (c : Common) (s : Signer) : Deed → Run Unit
  | credential => attempt s.credential
  | sign r => attempt (s.sign r)
  | execute build deadline => attempt (Executor.execute s build deadline)
  | acquire => attempt Run.acquire
  | record key pause => attempt (Run.record key pause)
  | pending key => attempt (Run.now >>= Run.pending key)
  | clear key => attempt (Run.clear key)
  | advance d => attempt (Run.advance d)
  | sleep d => attempt (Run.sleep .pastime d)
  | handOver seat => modify (seat.enter c)

/-- Who signs after a deed. -/
def signer (c : Common) (s : Signer) : Deed → Signer
  | handOver seat => if c.signer then s else seat.signer
  | _ => s

def runAll (c : Common) (s : Signer) : List Deed → Run Unit
  | [] => pure ()
  | d :: ds => do
    d.run c s
    runAll c (d.signer c s) ds

variable {c : Common} {s : Signer}

theorem signer_eq (shared : c.signer = true) (d : Deed) : d.signer c s = s := by
  cases d <;> simp [signer, shared]

/-! ## What a session keeps -/

variable {P Q : Environment → Prop}

theorem keeps_runAll (each : ∀ s', (c.signer = true → s' = s) → ∀ d : Deed, Keeps P (d.run c s'))
    (ds : List Deed) : Keeps P (runAll c s ds) := by
  induction ds generalizing s with
  | nil => exact keeps_pure ()
  | cons d ds ih =>
    refine (each s (fun _ => rfl) d).bind fun _ => ih fun s' same => each s' fun shared => ?_
    rw [same shared, signer_eq shared]

/-- A deed keeps an assertion that cannot be made false aside, if looking up and signing keep it, a
slot leads from it to some `Q`, and the departure of a request leads back. -/
theorem keeps_run (aside : KeptAside P) (looks : Keeps P s.credential)
    (signs : ∀ r, Keeps P (s.sign r)) (acquires : Leads P Run.acquire (fun _ => Q) P)
    (logged : ∀ env line, Q env → Q (env.noted (.logged line)))
    (departs : ∀ d left env, Q env → P (departed d left env)) (weaker : ∀ env, Q env → P env)
    (enters : ∀ seat env, P env → P (Seat.enter c seat env)) (d : Deed) :
    Keeps P (d.run c s) := by
  cases d with
  | credential => exact keeps_attempt looks
  | sign r => exact keeps_attempt (signs r)
  | execute build deadline =>
    exact keeps_attempt (aside.execute signs acquires logged departs weaker)
  | acquire => exact keeps_attempt (acquires.mono (fun _ h => h) (fun _ => weaker) fun _ h => h)
  | record key pause =>
    exact keeps_attempt fun env h => aside.note (e := .paused key pause) rfl (aside.throttles _ h)
  | pending key => exact keeps_attempt fun env h => aside.throttles _ h
  | clear key =>
    exact keeps_attempt fun env h => aside.note (e := .cleared key) rfl (aside.throttles _ h)
  | advance d =>
    exact keeps_attempt (keeps_advance fun hc h => aside.clock (Clock.now_of_advance? hc) h)
  | sleep d => exact keeps_attempt (keeps_sleep aside.slept)
  | handOver seat => exact fun env h => enters seat env h

theorem keeps_runAll_of (aside : KeptAside P) (signing : KeptBySigning P)
    (acquires : Leads P Run.acquire (fun _ => Q) P)
    (logged : ∀ env line, Q env → Q (env.noted (.logged line)))
    (departs : ∀ d left env, Q env → P (departed d left env)) (weaker : ∀ env, Q env → P env)
    (enters : ∀ seat env, P env → P (Seat.enter c seat env)) (ds : List Deed) :
    Keeps P (runAll c s ds) :=
  keeps_runAll (fun s' _ => keeps_run aside (Signer.keeps_credential signing.lookup s')
    (Signer.keeps_sign signing s') acquires logged departs weaker enters) ds

/-! ## What can be done by deeds -/

variable {α β : Type} {env : Environment}

/-- From wherever a computation starts, some deeds do what it does. -/
def Made (c : Common) (s : Signer) (x : Run α) : Prop :=
  ∀ env, ∃ ds, runAll c s ds env = attempt x env

theorem runAll_append (shared : c.signer = true) (ds ds' : List Deed) :
    runAll c s (ds ++ ds') = runAll c s ds >>= fun _ => runAll c s ds' := by
  induction ds with
  | nil => simp [runAll]
  | cons d ds ih => simp [runAll, signer_eq shared, ih]

theorem made_of_run {x : Run α} (d : Deed) (h : d.run c s = attempt x) : Made c s x :=
  fun _ => ⟨[d], by simp [runAll, h]⟩

theorem made_pure (a : α) : Made c s (pure a : Run α) := fun _ => ⟨[], rfl⟩

theorem made_lift (r : Except Error α) : Made c s (lift r) := by
  cases r with
  | ok a => exact made_pure a
  | error e => exact fun _ => ⟨[], rfl⟩

theorem made_get : Made c s (get : Run Environment) := fun _ => ⟨[], rfl⟩

theorem made_now : Made c s now := fun _ => ⟨[], rfl⟩

theorem Made.tried {x : Run α} (h : Made c s x) : Made c s x.tried := by
  intro env
  obtain ⟨ds, hds⟩ := h env
  exact ⟨ds, hds.trans (attempt_tried x env).symm⟩

theorem Made.bind (shared : c.signer = true) {x : Run α} {f : α → Run β} (hx : Made c s x)
    (hf : ∀ a, Made c s (f a)) : Made c s (x >>= f) := by
  intro env
  obtain ⟨ds, hds⟩ := hx env
  cases h : x env with
  | error e mid =>
    have ends : (x >>= f) env = .error e mid := by rw [bind_apply, h]
    refine ⟨ds, ?_⟩
    cases e with
    | failed e => rw [hds, attempt_of_failed h, attempt_of_failed ends]
    | overflow => rw [hds, attempt_of_overflow h, attempt_of_overflow ends]
  | ok a mid =>
    obtain ⟨ds', hds'⟩ := hf a mid
    have goesOn : attempt (x >>= f) env = attempt (f a) mid := by
      simp only [attempt, Run.tried, bind_apply, h]
    refine ⟨ds ++ ds', ?_⟩
    rw [runAll_append shared, bind_apply, hds, attempt_of_ok h, goesOn]
    exact hds'

end Deed
end SignedHttp

import SignedHttp.Proofs.Executor.Lockstep
import SignedHttp.Proofs.Executor.Turns

/-!
# SignedHttp.Proofs.Session

Sessions as executors that take turns. A sequence of calls (`made_executeAll`) and every action of a
session (`made_act`) can be done by deeds. The desks of a session are executors that share a signer
and perhaps a limiter, so that an action from any of them is its deeds between two hand-overs, and
whatever happens in a session happens as such executors take turns (`performAll_inTurn`). What holds
of them, however they take turns, holds of every session.
-/

namespace SignedHttp

open Run Deed

variable {c : Common} {s : Signer} {α : Type}

/-! ## What can be done by deeds -/

theorem made_execute (build : Executor.Build) (deadline : Instant) :
    Made c s (Executor.execute s build deadline) := made_of_run (.execute build deadline) rfl

theorem made_advance (d : Duration) : Made c s (advance d) := made_of_run (.advance d) rfl

theorem Deed.Made.map (shared : c.signer = true) {β : Type} {x : Run α} (h : Made c s x)
    (f : α → β) : Made c s (f <$> x) := by
  rw [← bind_pure_comp]
  exact h.bind shared fun a => made_pure (f a)

theorem Deed.Made.times (shared : c.signer = true) {x : Run α} (h : Made c s x) (n : Nat) :
    Made c s (times x n) := by
  induction n with
  | zero => exact made_pure []
  | succ n ih => exact h.bind shared fun a => ih.bind shared fun rest => made_pure (a :: rest)

/-- Calls one after another are deeds one after another. -/
theorem made_executeAll (shared : c.signer = true) (cs : List Executor.Call) :
    Made c s (Executor.executeAll s cs) := by
  induction cs with
  | nil => exact made_pure []
  | cons call cs ih =>
    have called : Made c s (call.run s) := (made_advance call.idle).bind shared fun _ =>
      (made_execute call.build call.deadline).tried
    exact called.bind shared fun result => ih.bind shared fun results =>
      made_pure (result :: results)

/-- Where an executor is that goes on in an environment. -/
def Environment.seat (env : Environment) : Seat where
  cache := env.cache
  supplies := env.supplies
  limiter := env.limiter
  throttles := env.throttles
  transport := env.transport

theorem Environment.enter_seat {env env' : Environment} (shared : c.signer = true)
    (clock : env'.clock = env.clock) (cache : env'.cache = env.cache)
    (supplies : env'.supplies = env.supplies) (history : env'.history = env.history)
    (limiter : c.limiter = true → env'.limiter = env.limiter)
    (throttles : c.throttles = true → env'.throttles = env.throttles) :
    env'.seat.enter c env = env' := by
  obtain ⟨clock', cache', supplies', limiter', throttles', transport', history'⟩ := env'
  cases clock
  cases cache
  cases supplies
  cases history
  unfold Seat.enter seat
  rw [if_pos shared, if_pos shared]
  congr 1
  · split
    · exact (limiter ‹_›).symm
    · rfl
  · split
    · exact (throttles ‹_›).symm
    · rfl

namespace Session

/-- An action that neither asks the source of credentials past the cache nor for the pauses of
another time. -/
def Ordinary : Action → Prop
  | .provide _ | .pending _ _ (some _) => False
  | _ => True

theorem made_executeOrders (shared : c.signer = true) (orders : List Order) (limit : Limit) :
    Made c s (executeOrders s orders limit) := by
  cases limit with
  | deadline t => exact made_execute _ t
  | timeout d =>
    unfold executeOrders Executor.executeWithin
    dsimp only
    split
    · refine made_now.bind shared fun now => ?_
      split
      · exact made_execute _ _
      · exact made_lift (.error _)
    · exact made_lift (.error _)

theorem made_act (shared : c.signer = true) {a : Action} (ordinary : Ordinary a) :
    Made c s (act s a) := by
  have entries : Made c s entries := made_get.bind shared fun env => made_pure env.throttles.size
  cases a with
  | advance d => exact (made_advance d).bind shared fun _ => made_pure Value.nothing
  | sleep d =>
    exact (made_of_run (.sleep d) rfl).bind shared fun _ => made_pure Value.nothing
  | secret name => exact made_pure _
  | provide previous => cases ordinary
  | credential => exact (made_of_run .credential rfl).map shared Value.credential
  | credentials n =>
    have one : Made c s s.credential := made_of_run .credential rfl
    exact (one.tried.times shared n).map shared Value.credentials
  | sign order =>
    refine Made.map shared ?_ Value.request
    exact (made_lift order.build).bind shared fun r => made_of_run (.sign r) rfl
  | acquire n =>
    have one : Made c s Run.acquire := made_of_run .acquire rfl
    exact (one.times shared n).bind shared fun _ => made_pure Value.nothing
  | record desk key pause =>
    exact (made_of_run (.record key pause) rfl).bind shared fun _ => entries.map shared Value.count
  | pending desk key time =>
    cases time with
    | some t => cases ordinary
    | none =>
      exact (made_of_run (.pending key) rfl).bind shared fun pause =>
        entries.map shared (Value.pause pause)
  | clear desk key =>
    exact (made_of_run (.clear key) rfl).bind shared fun _ => entries.map shared Value.count
  | size desk => exact entries.bind shared fun n => made_pure (Value.size n (n == 0))
  | execute desk orders limit =>
    exact (made_executeOrders shared orders limit).map shared Value.response

/-! ## The desks -/

/-- The actions from a desk see what the executors have in common. -/
def Shares (c : Common) (s : Session) : Option Desk → Prop
  | some .shared => True
  | some .separate => c.throttles = false ∧ (c.limiter = true → s.ownLimiter = none)
  | none => c.throttles = false

variable {s : Session} {desk : Option Desk}

theorem enter_seenFrom (shared : c.signer = true) (shares : s.Shares c desk) :
    (s.seenFrom desk).seat.enter c s.env = s.seenFrom desk := by
  obtain _ | _ | _ := desk
  · have own : c.throttles = false := shares
    exact Environment.enter_seat shared rfl rfl rfl rfl (fun _ => rfl) (by simp [own])
  · exact Environment.enter_seat shared rfl rfl rfl rfl (fun _ => rfl) fun _ => rfl
  · obtain ⟨own, limited⟩ := shares
    refine Environment.enter_seat shared rfl rfl rfl rfl (fun h => ?_) (by simp [own])
    simp [seenFrom, limited h]

theorem enter_left (shared : c.signer = true) (shares : s.Shares c desk) (env : Environment) :
    (s.left desk env).env.seat.enter c env = (s.left desk env).env := by
  obtain _ | _ | _ := desk
  · have own : c.throttles = false := shares
    exact Environment.enter_seat shared rfl rfl rfl rfl (fun _ => rfl) (by simp [own])
  · exact Environment.enter_seat shared rfl rfl rfl rfl (fun _ => rfl) fun _ => rfl
  · obtain ⟨own, limited⟩ := shares
    refine Environment.enter_seat shared rfl rfl rfl rfl (fun h => ?_) (by simp [own])
    simp [left, limited h]

theorem left_trace (s : Session) (desk : Option Desk) (env : Environment) :
    (s.left desk env).env.trace = env.trace := by
  obtain _ | _ | _ := desk <;> rfl

theorem left_signer (s : Session) (desk : Option Desk) (env : Environment) :
    (s.left desk env).signer = s.signer := by
  obtain _ | _ | _ := desk <;> rfl

theorem Shares.left {other : Option Desk} (h : s.Shares c other) (env : Environment) :
    (s.left desk env).Shares c other := by
  obtain _ | _ | _ := other
  · exact h
  · trivial
  · refine ⟨h.1, fun limited => ?_⟩
    obtain _ | _ | _ := desk <;> simp [Session.left, h.2 limited]

/-! ## Sessions -/

/-- Whatever is done, the history is only added to. -/
theorem since_runAll (signer : Signer) (ds : List Deed) (env : Environment) :
    Since env (fun _ => True) ((runAll c signer ds).leaves env) := by
  have stable : Stable (Since env fun _ => True) := stable_since fun _ _ _ _ => trivial
  have aside : Executor.KeptAside (Since env fun _ => True) :=
    ⟨fun _ h => h.noted fun _ _ => trivial, fun _ h => h, fun _ h => h⟩
  exact (keeps_runAll_of aside stable.signing (keeps_acquire stable)
    (fun _ _ h => h.noted fun _ _ => trivial) (fun d left _ h => h.noted fun _ _ => trivial)
    (fun _ h => h) (fun _ _ h => h) ds).leaves (.refl trivial env)

theorem runAll_handOver (shared : c.signer = true) (signer : Signer) (seat : Seat)
    (ds : List Deed) (env : Environment) :
    runAll c signer (.handOver seat :: ds) env = runAll c signer ds (seat.enter c env) := by
  show runAll c (Deed.signer c signer (.handOver seat)) ds (seat.enter c env) = _
  rw [signer_eq shared]

/-- An action is some deeds between two hand-overs, the second of which is missing if the action
gets out of range. -/
theorem perform_inTurn (shared : c.signer = true) {a : Action} (ordinary : Ordinary a)
    (shares : s.Shares c a.desk) :
    ∃ ds, ((runAll c s.signer ds).leaves s.env).trace = (s.perform a).2.env.trace ∧
      ((s.perform a).1 ≠ .error .overflow →
        runAll c s.signer ds s.env = .ok () (s.perform a).2.env) := by
  obtain ⟨ds, hds⟩ := made_act (s := s.signer) shared ordinary (s.seenFrom a.desk)
  have enters (rest : List Deed) :
      runAll c s.signer (.handOver (s.seenFrom a.desk).seat :: rest) s.env =
        runAll c s.signer rest (s.seenFrom a.desk) := by
    rw [runAll_handOver shared, enter_seenFrom shared shares]
  have goesOn {mid : Environment}
      (h : attempt (act s.signer a) (s.seenFrom a.desk) = .ok () mid) :
      runAll c s.signer (.handOver (s.seenFrom a.desk).seat ::
          (ds ++ [.handOver (s.left a.desk mid).env.seat])) s.env =
        .ok () (s.left a.desk mid).env := by
    rw [enters, runAll_append shared, bind_apply, hds, h]
    dsimp only
    rw [runAll_handOver shared, enter_left shared shares]
    rfl
  unfold perform Session.run
  cases h : act s.signer a (s.seenFrom a.desk) with
  | ok v mid =>
    have whole := goesOn (attempt_of_ok h)
    exact ⟨_, by rw [leaves_eq_of_ok whole], fun _ => whole⟩
  | error e mid =>
    cases e with
    | failed e =>
      have whole := goesOn (attempt_of_failed h)
      exact ⟨_, by rw [leaves_eq_of_ok whole], fun _ => whole⟩
    | overflow =>
      refine ⟨.handOver (s.seenFrom a.desk).seat :: ds, ?_, fun ends => absurd rfl ends⟩
      have whole := (enters ds).trans (hds.trans (attempt_of_overflow h))
      rw [leaves_eq_of_error whole, left_trace]

theorem perform_left (s : Session) (a : Action) :
    ∃ env, (s.perform a).2 = s.left a.desk env := by
  unfold perform Session.run
  cases act s.signer a (s.seenFrom a.desk) with
  | ok v mid => exact ⟨mid, rfl⟩
  | error e mid => exact ⟨mid, rfl⟩

theorem performAll_of_overflow {a : Action} {as : List Action}
    (ends : (s.perform a).1 = .error .overflow) : s.performAll (a :: as) = [(s.step a).1] := by
  have result : (s.step a).1.result = .error .overflow := ends
  unfold performAll
  dsimp only
  rw [result]

theorem performAll_of_ne {a : Action} {as : List Action}
    (goesOn : (s.perform a).1 ≠ .error .overflow) :
    s.performAll (a :: as) = (s.step a).1 :: (s.perform a).2.performAll as := by
  have result : (s.step a).1.result ≠ .error .overflow := goesOn
  rw [performAll]
  dsimp only
  split
  · exact absurd ‹_› result
  · rfl

theorem trace_performAll (shared : c.signer = true) (as : List Action)
    (ordinary : ∀ a ∈ as, Ordinary a) (shares : ∀ a ∈ as, s.Shares c a.desk) :
    ∃ ds, ((runAll c s.signer ds).leaves s.env).trace =
      s.env.trace ++ (s.performAll as).flatMap (·.events) := by
  induction as generalizing s with
  | nil => exact ⟨[], by simp [runAll, leaves, final, pure_apply, performAll]⟩
  | cons a as ih =>
    obtain ⟨ds, htrace, hds⟩ :=
      perform_inTurn shared (ordinary a List.mem_cons_self) (shares a List.mem_cons_self)
    obtain ⟨es, hes, -⟩ := since_runAll (c := c) s.signer ds s.env
    have events : (s.step a).1.events = es := by
      show (s.perform a).2.env.trace.drop s.env.trace.length = es
      rw [← htrace, hes, List.drop_left]
    by_cases ends : (s.perform a).1 = .error .overflow
    · refine ⟨ds, ?_⟩
      rw [performAll_of_overflow ends, List.flatMap_singleton, events, hes]
    · obtain ⟨mid, hmid⟩ := s.perform_left a
      obtain ⟨ds', hds'⟩ := ih (s := (s.perform a).2)
        (fun a' ha' => ordinary a' (List.mem_cons_of_mem a ha'))
        (fun a' ha' => hmid ▸ (shares a' (List.mem_cons_of_mem a ha')).left mid)
      rw [hmid, left_signer, ← hmid] at hds'
      refine ⟨ds ++ ds', ?_⟩
      have runs : (runAll c s.signer (ds ++ ds')).leaves s.env =
          (runAll c s.signer ds').leaves (s.perform a).2.env := by
        unfold leaves
        rw [runAll_append shared, bind_apply, hds ends]
      rw [runs, hds', ← htrace, hes, performAll_of_ne ends, List.flatMap_cons, events,
        List.append_assoc]

/-- What happens in a session is what happens as executors that share a signer take turns. -/
theorem performAll_inTurn (shared : c.signer = true) (s : Session) (as : List Action)
    (ordinary : ∀ a ∈ as, Ordinary a) (shares : ∀ a ∈ as, s.Shares c a.desk) :
    ∃ ds, (runAll c s.signer ds).events s.env = (s.performAll as).flatMap (·.events) := by
  obtain ⟨ds, htrace⟩ := trace_performAll shared as ordinary shares
  exact ⟨ds, events_eq htrace⟩

end Session
end SignedHttp

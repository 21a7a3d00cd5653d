import SignedHttp.Proofs.Executor.Dispatch
import SignedHttp.Proofs.Executor.Frame
import SignedHttp.Proofs.Executor.Waiting

/-!
# SignedHttp.Proofs.Executor.Progress

How each request of a run comes to be sent (`dispatch_of_sent`).

* `execute_accounted`: what is sent during a run is what one of its attempts has prepared.
* `Progress`: what holds when an attempt begins. Each attempt before it has been built and sent once
  and was answered once, and the pauses which those answers announced are over. A retry keeps this
  (`Progress.retry`), and so every attempt begins with it (`progress_of_continues`).
-/

namespace SignedHttp
namespace Executor

open Run

variable {s : Signer} {build : Build} {deadline : Instant} {env env' env₁ : Environment}

/-! ## What is sent belongs to an attempt -/

/-- An attempt of a run prepares the message that is sent after the events `pre`. -/
def SentBy (s : Signer) (build : Build) (deadline : Instant) (start : Attempt) (pre : List Event)
    (key : String) (m : Message) (t : Instant) : Prop :=
  ∃ a d env₁, Continues s build deadline start a ∧
    prepare s build deadline a.number a.env = .ok d env₁ ∧
    env₁.trace = start.env.trace ++ pre ∧ d.key = key ∧ d.message = m ∧ env₁.clock.now = t

def Accounted (s : Signer) (build : Build) (deadline : Instant) (start : Attempt)
    (es : List Event) : Prop :=
  ∀ pre key m t post, es = pre ++ .sent key m t :: post →
    SentBy s build deadline start pre key m t

variable {a b : Attempt} {d : Departure} {front es : List Event}

theorem accounted_of_sends (h : Event.sends es = 0) : Accounted s build deadline a es := by
  rintro pre key m t post rfl
  exact absurd (by simp) (Event.notMem_of_sends h key m t)

theorem accounted_departure (hp : prepare s build deadline a.number a.env = .ok d env₁)
    (htrace : env₁.trace = a.env.trace ++ front) (silent : Event.sends front = 0)
    (rest : ∀ mid key m t post, es = mid ++ .sent key m t :: post →
      SentBy s build deadline a (front ++ .sent d.key d.message env₁.clock.now :: mid) key m t) :
    Accounted s build deadline a (front ++ .sent d.key d.message env₁.clock.now :: es) := by
  intro pre key m t post hes
  obtain ⟨mid, rfl, hback⟩ := split_append (Event.notMem_of_sends silent key m t) hes
  cases mid with
  | nil =>
    cases hback
    exact ⟨a, d, env₁, .refl, hp, by rw [htrace, List.append_nil], rfl, rfl, rfl⟩
  | cons e mid =>
    obtain ⟨rfl, hrest⟩ := List.cons.inj hback
    exact rest mid key m t post hrest

theorem sends_of_preparing {n : Nat} (h : Preparing n es) : Event.sends es = 0 := by
  refine List.countP_eq_zero.2 fun e he hsent => ?_
  cases e with
  | sent key m t => cases h.2 _ he
  | _ => cases hsent

theorem since_prepared {n : Nat} (hp : prepare s build deadline n env = .ok d env₁) :
    ∃ front, env₁.trace = env.trace ++ front ∧ Event.sends front = 0 := by
  obtain ⟨front, htrace, preparing⟩ := (prepare_quiet n).ok rfl hp
  exact ⟨front, htrace, sends_of_preparing preparing⟩

theorem since_unprepared {n : Nat} {e : Stop}
    (hp : prepare s build deadline n env = .error e env') :
    Since env (fun es => Event.sends es = 0) env' := by
  obtain ⟨es, htrace, preparing⟩ := (prepare_quiet n).error rfl hp
  exact ⟨es, htrace, sends_of_preparing preparing⟩

theorem since_sent (d : Departure) (x : Exchange) (left : List Exchange) (env : Environment) :
    ∃ tail, (final (send d x left env)).trace =
        env.trace ++ .sent d.key d.message env.clock.now :: tail ∧ Event.sends tail = 0 := by
  cases hs : send d x left env with
  | ok r env' =>
    obtain ⟨-, clock, -, rfl⟩ := send_eq_ok hs
    exact ⟨_, replied_trace d x left clock, rfl⟩
  | error e env' =>
    obtain ⟨-, rfl⟩ | ⟨cause, clock, -, -, -, rfl⟩ := send_eq_error hs
    · exact ⟨[], departed_trace d left, rfl⟩
    · exact ⟨_, replied_trace d x left clock, rfl⟩

/-- What an attempt does aside sends nothing. -/
theorem keptAside_unsent (start : Environment) :
    KeptAside (Since start fun es => Event.sends es = 0) where
  note {env e} aside h := h.noted fun es hes => by
    rw [Event.sends_append, hes]
    cases e <;> first | rfl | cases aside
  clock _ h := h
  throttles _ h := h

theorem since_concluded (deadline : Instant) (d : Departure) (n : Nat) (r : Response)
    (env : Environment) :
    Since env (fun es => Event.sends es = 0) (final (conclude d deadline n r env)) :=
  ((keptAside_unsent env).conclude d n r).leaves ⟨[], by simp, rfl⟩

theorem since_answered {x : Exchange} {left : List Exchange} {r : Response}
    {env₂ : Environment} (deadline : Instant) (n : Nat) (hs : send d x left env₁ = .ok r env₂) :
    ∃ tail, (final (conclude d deadline n r env₂)).trace =
        env₁.trace ++ .sent d.key d.message env₁.clock.now :: tail ∧ Event.sends tail = 0 := by
  obtain ⟨tail, htail, unsent⟩ := since_sent d x left env₁
  obtain ⟨es, hes, idle⟩ := since_concluded deadline d n r env₂
  rw [hs] at htail
  have answered : env₂.trace = env₁.trace ++ .sent d.key d.message env₁.clock.now :: tail := htail
  exact ⟨tail ++ es, by rw [hes, answered]; simp, by rw [Event.sends_append, unsent, idle]⟩

theorem accounted_last (hp : prepare s build deadline a.number a.env = .ok d env₁)
    (htrace : env'.trace = env₁.trace ++ .sent d.key d.message env₁.clock.now :: es)
    (silent : Event.sends es = 0) : Since a.env (Accounted s build deadline a) env' := by
  obtain ⟨front, hfront, quiet⟩ := since_prepared hp
  refine ⟨_, by rw [htrace, hfront, List.append_assoc], accounted_departure hp hfront quiet ?_⟩
  rintro mid key m t post rfl
  exact absurd (by simp) (Event.notMem_of_sends silent key m t)

theorem Accounted.retry (h : Retries s build deadline a b)
    (rest : Since b.env (Accounted s build deadline b) env') :
    Since a.env (Accounted s build deadline a) env' := by
  obtain ⟨later, hlater, accounted⟩ := rest
  obtain ⟨x, d, env₁, r, env₂, -, -, hp, hs, hc⟩ := id h
  obtain ⟨front, hfront, quiet⟩ := since_prepared hp
  obtain ⟨tail, htail, silent⟩ := since_answered deadline a.number hs
  rw [hc] at htail
  have reply : b.env.trace =
      a.env.trace ++ (front ++ .sent d.key d.message env₁.clock.now :: tail) := by
    have retried : b.env.trace = env₁.trace ++ .sent d.key d.message env₁.clock.now :: tail :=
      htail
    rw [retried, hfront, List.append_assoc]
  refine ⟨front ++ .sent d.key d.message env₁.clock.now :: (tail ++ later),
    by rw [hlater, reply]; simp, accounted_departure hp hfront quiet ?_⟩
  intro mid key m t post hes
  obtain ⟨mid', rfl, hback⟩ := split_append (Event.notMem_of_sends silent key m t) hes
  obtain ⟨a', d', env₁', reaches, hp', htrace, hd⟩ := accounted mid' key m t post hback
  refine ⟨a', d', env₁', .head h reaches, hp', ?_, hd⟩
  rw [htrace, reply]
  simp

/-- What a run sends from an attempt on: nothing, or one last request, or what the next attempt and
those after it send besides that of this one. -/
inductive Onward (s : Signer) (build : Build) (deadline : Instant) (a : Attempt)
    (env' : Environment) : Prop where
  | silent : Since a.env (fun es => Event.sends es = 0) env' → Onward s build deadline a env'
  | last {d : Departure} {env₁ : Environment} {tail : List Event} :
      prepare s build deadline a.number a.env = .ok d env₁ →
      env'.trace = env₁.trace ++ .sent d.key d.message env₁.clock.now :: tail →
      Event.sends tail = 0 → Onward s build deadline a env'
  | again {b : Attempt} :
      Retries s build deadline a b → env' = final (b.result s build deadline) →
      Onward s build deadline a env'

theorem onward_result (s : Signer) (build : Build) (deadline : Instant) (a : Attempt) :
    Onward s build deadline a (final (a.result s build deadline)) := by
  obtain ⟨left, n, env⟩ := a
  unfold Attempt.result
  cases left with
  | nil =>
    dsimp only
    rw [attempts, bind_apply]
    cases hp : prepare s build deadline n env with
    | error e env' => exact .silent (since_unprepared hp)
    | ok d env₁ =>
      obtain ⟨tail, htail, silent⟩ := since_sent d { reply := .error .noResponseLeft } [] env₁
      exact .last hp htail silent
  | cons x left =>
    dsimp only
    have turn := attempts_turn s build deadline x left n env
    generalize attempts s build deadline (x :: left) n env = result at turn ⊢
    cases turn with
    | unprepared hp => exact .silent (since_unprepared hp)
    | @unanswered d env₁ env' e hp hs =>
      obtain ⟨tail, htail, silent⟩ := since_sent d x left env₁
      rw [hs] at htail
      exact .last hp htail silent
    | refused hp hs hc =>
      obtain ⟨tail, htail, silent⟩ := since_answered deadline n hs
      rw [hc] at htail
      exact .last hp htail silent
    | answered hp hs hc | exhausted hp hs hc =>
      obtain ⟨tail, htail, silent⟩ := since_answered deadline n hs
      rw [hc] at htail
      exact .last hp htail silent
    | again h => exact .again h rfl

theorem length_of_retries (h : Retries s build deadline a b) : b.left.length < a.left.length := by
  obtain ⟨x, d, env₁, r, env₂, hleft, -⟩ := h
  simp [hleft]

theorem result_accounted (a : Attempt) :
    Since a.env (Accounted s build deadline a) (final (a.result s build deadline)) := by
  cases onward_result s build deadline a with
  | silent h =>
    obtain ⟨es, htrace, silent⟩ := h
    exact ⟨es, htrace, accounted_of_sends silent⟩
  | last hp htail silent => exact accounted_last hp htail silent
  | @again b h hfinal =>
    rw [hfinal]
    exact Accounted.retry h (result_accounted b)
termination_by a.left.length
decreasing_by exact length_of_retries h

/-- A run of an executor is a run from its first attempt on, unless there is no transport. -/
theorem leaves_execute (s : Signer) (build : Build) (deadline : Instant) (env : Environment) :
    (execute s build deadline).leaves env = final ((first env).result s build deadline) ∨
      Since env (fun es => Event.sends es = 0) ((execute s build deadline).leaves env) := by
  unfold leaves
  cases ht : env.transport with
  | some left =>
    have hfirst : first env = ⟨left, 1, env⟩ := by simp [first, ht]
    rw [execute_of_transport ht, hfirst]
    exact .inl rfl
  | none =>
    rw [execute_of_no_transport ht]
    cases hp : prepare s build deadline 1 env with
    | error e env' => exact .inr (since_unprepared hp)
    | ok d env₁ => exact .inr (since_prepared hp)

theorem execute_accounted (s : Signer) (build : Build) (deadline : Instant) (env : Environment) :
    Accounted s build deadline (first env) ((execute s build deadline).events env) := by
  have accounted : Since env (Accounted s build deadline (first env))
      ((execute s build deadline).leaves env) := by
    rcases leaves_execute s build deadline env with hfirst | ⟨es, htrace, silent⟩
    · rw [hfirst]
      exact result_accounted (first env)
    · exact ⟨es, htrace, accounted_of_sends silent⟩
  obtain ⟨es, htrace, hes⟩ := accounted
  rw [events_eq htrace]
  exact hes

/-! ## What holds when an attempt begins -/

/-- The events `es` lead from the start of a run to an attempt. Every attempt before it was built,
sent and answered once, and the pauses that were announced are over. -/
structure Progress (env : Environment) (a : Attempt) (es : List Event) : Prop where
  passes : Passes env es a.env
  number : a.number = Event.sends es + 1
  builds : Event.builds es = List.range' 1 (Event.sends es)
  replies : (Event.replies es).length = Event.sends es
  announced : env.clock.now.isLeap = false → Event.NoLeap es →
    ∀ reply t, .returned reply t ∈ es →
      ∃ r resumeAt, reply = .ok r ∧ resume? r t = some resumeAt ∧ resumeAt ≤ a.env.clock.now

theorem replied_passes (d : Departure) {x : Exchange} {clock : Clock} (left : List Exchange)
    (h : env.clock.advance? x.takes = some clock) :
    Passes env [.sent d.key d.message env.clock.now, .returned x.reply clock.now]
      (replied d x left clock env) where
  trace := replied_trace d x left clock
  now := rfl
  later := Instant.le_of_add? (Clock.now_of_advance? h)
  civil hnow := (Instant.value_of_add? hnow (Clock.now_of_advance? h)).2

/-- What happens in an attempt that is throttled. -/
def retried (n : Nat) (tail : List Event) (key : String) (m : Message) (t₀ : Instant) (r : Response)
    (t resumeAt : Instant) (waits : List Event) : List Event :=
  [.built n] ++ tail ++
    [.sent key m t₀, .returned (.ok r) t, .paused key ⟨resumeAt, retryAfter? r⟩] ++ waits

theorem retries_passes (h : Retries s build deadline a b) :
    ∃ tail key m t₀ r t resumeAt waits, b.number = a.number + 1 ∧
      Passes a.env (retried a.number tail key m t₀ r t resumeAt waits) b.env ∧
      Event.IsInterim tail ∧ Event.IsInterim waits ∧ resume? r t = some resumeAt ∧
      (a.env.clock.now.isLeap = false → resumeAt.isLeap = false →
        resumeAt ≤ b.env.clock.now) := by
  obtain ⟨x, d, env₁, r, env₂, -, ⟨hnumber, -⟩, hp, hs, hc⟩ := h
  obtain ⟨-, before, c, delay, line, -, -, -, prepared, tail, -⟩ := prepare_eq_ok hp
  obtain ⟨hreply, clock, hclock, rfl⟩ := send_eq_ok hs
  obtain ⟨-, resumeAt, hresume, hw⟩ := conclude_eq_again hc
  obtain ⟨⟨waits, waited, idle⟩, ended⟩ := waitOut_passes hw
  have answered := prepared.trans (replied_passes d b.left hclock)
  have announced : Passes (replied d x b.left clock env₁) [.paused d.key ⟨resumeAt, retryAfter? r⟩]
      (held d.key ⟨resumeAt, retryAfter? r⟩ (replied d x b.left clock env₁)) :=
    .still (held_trace d.key _) rfl rfl
  have whole := (answered.trans announced).trans waited
  refine ⟨_, d.key, d.message, env₁.clock.now, r, clock.now, resumeAt, waits, hnumber, ?_, tail,
    idle, hresume, fun hnow hresumeAt => ended ?_ hresumeAt⟩
  · rw [hreply] at whole
    simpa [retried] using whole
  · exact (answered.trans announced).civil hnow

section Retried

variable {n : Nat} {tail waits : List Event} (interim : Event.IsInterim tail)
  (idle : Event.IsInterim waits) (key : String) (m : Message) (t₀ : Instant) (r : Response)
  (t resumeAt : Instant)
include interim idle

theorem sends_retried : Event.sends (retried n tail key m t₀ r t resumeAt waits) = 1 := by
  rw [retried, Event.sends_append, Event.sends_append, Event.sends_append, interim.sends,
    idle.sends]
  rfl

theorem builds_retried : Event.builds (retried n tail key m t₀ r t resumeAt waits) = [n] := by
  rw [retried, Event.builds_append, Event.builds_append, Event.builds_append, interim.builds,
    idle.builds]
  rfl

theorem replies_retried : Event.replies (retried n tail key m t₀ r t resumeAt waits) = [.ok r] := by
  rw [retried, Event.replies_append, Event.replies_append, Event.replies_append, interim.replies,
    idle.replies]
  rfl

theorem eq_of_returned_retried {reply : Except Error.Cause Response} {t' : Instant}
    (h : .returned reply t' ∈ retried n tail key m t₀ r t resumeAt waits) :
    reply = .ok r ∧ t' = t := by
  have quiet {es : List Event} (hes : Event.IsInterim es) : .returned reply t' ∉ es := by
    intro hmem
    cases hes _ hmem
  simpa [retried, quiet interim, quiet idle] using h

end Retried

/-- A retry keeps what holds when an attempt begins. -/
theorem Progress.retry (h : Progress env a es) (step : Retries s build deadline a b) :
    ∃ es', Progress env b (es ++ es') := by
  obtain ⟨tail, key, m, t₀, r, t, resumeAt, waits, hnumber, passes, interim, idle, hresume,
    ended⟩ := retries_passes step
  refine ⟨retried a.number tail key m t₀ r t resumeAt waits, h.passes.trans passes, ?_, ?_, ?_, ?_⟩
  · rw [hnumber, h.number, Event.sends_append, sends_retried interim idle]
  · rw [Event.builds_append, builds_retried interim idle, Event.sends_append,
      sends_retried interim idle, h.builds, h.number, List.range'_1_concat, Nat.add_comm]
  · rw [Event.replies_append, replies_retried interim idle, List.length_append, h.replies,
      Event.sends_append, sends_retried interim idle]
    rfl
  · intro hnow noLeap reply t' hmem
    rcases List.mem_append.1 hmem with hmem | hmem
    · obtain ⟨r', R, hr', hR, hle⟩ := h.announced hnow
        (fun e he => noLeap e (List.mem_append_left _ he)) reply t' hmem
      exact ⟨r', R, hr', hR, Instant.le_trans hle passes.later⟩
    · obtain ⟨rfl, rfl⟩ := eq_of_returned_retried interim idle _ _ _ _ _ _ hmem
      have civil : resumeAt.isLeap = false :=
        noLeap (.paused key ⟨resumeAt, retryAfter? r⟩)
          (List.mem_append_right _ (by simp [retried]))
      exact ⟨r, resumeAt, rfl, hresume, ended (h.passes.civil hnow) civil⟩

theorem progress_of_continues (h : Continues s build deadline (first env) a) :
    ∃ es, Progress env a es := by
  induction h with
  | refl =>
    refine ⟨[], .refl env, rfl, rfl, rfl, fun _ _ reply t hmem => ?_⟩
    cases hmem
  | tail _ step ih =>
    obtain ⟨es, progress⟩ := ih
    obtain ⟨es', next⟩ := progress.retry step
    exact ⟨es ++ es', next⟩

/-- Whatever a run sends has been built for this attempt and signed at an instant by which every
pause that was announced is over. -/
theorem dispatch_of_sent {pre post : List Event} {key : String} {m : Message} {t : Instant}
    (h : (execute s build deadline).events env = pre ++ .sent key m t :: post) :
    ∃ r before c delay line, build (Event.sends pre + 1) = .ok r ∧ key = r.resourceKey ∧
      Event.builds pre = List.range' 1 (Event.sends pre + 1) ∧
      (Event.replies pre).length = Event.sends pre ∧
      pre = before ++ .signed c :: (delay ++ [.logged line]) ∧
      Dispatch s r before (Event.present env.clock.now before) c delay m t ∧
      (env.clock.now.isLeap = false → Event.NoLeap pre → ∀ reply t', .returned reply t' ∈ pre →
        ∃ r' resumeAt, reply = .ok r' ∧ resume? r' t' = some resumeAt ∧
          resumeAt ≤ Event.present env.clock.now before) := by
  obtain ⟨a, d, env₁, reaches, hp, htrace, rfl, rfl, rfl⟩ :=
    execute_accounted s build deadline env pre key m t post h
  obtain ⟨es, progress⟩ := progress_of_continues reaches
  obtain ⟨r, before, c, delay, line, signedAt, hbuild, hkey, passes, interim, hsigned, later,
    dispatch⟩ := prepare_eq_ok hp
  have hpre : pre = es ++ ([.built a.number] ++
      (before ++ .signed c :: (delay ++ [.logged line]))) := by
    have whole := (progress.passes.trans passes).trace
    rw [htrace] at whole
    exact List.append_cancel_left whole
  have sends : Event.sends pre = Event.sends es := by
    rw [hpre, Event.sends_append, Event.sends_append, interim.sends]
    rfl
  have number : a.number = Event.sends pre + 1 := by rw [progress.number, sends]
  have present : Event.present env.clock.now (es ++ .built a.number :: before) = signedAt := by
    rw [hsigned, progress.passes.now, Event.present_append]
    rfl
  refine ⟨r, es ++ .built a.number :: before, c, delay, line, number ▸ hbuild, hkey, ?_, ?_,
    by simp [hpre], ?_, ?_⟩
  · rw [hpre, Event.builds_append, Event.builds_append, interim.builds, progress.builds,
      ← hpre, sends, List.range'_1_concat, progress.number, Nat.add_comm]
    rfl
  · rw [hpre, Event.replies_append, Event.replies_append, interim.replies, ← hpre, sends,
      ← progress.replies]
    simp [Event.replies]
  · rw [present]
    have supplied := dispatch.supplied.prepend (es ++ [.built a.number])
    exact ⟨by simpa using supplied, dispatch.carries, dispatch.delay⟩
  · intro hnow noLeap reply t' hmem
    have early : .returned reply t' ∈ es := by
      rw [hpre] at hmem
      rcases List.mem_append.1 hmem with hmem | hmem
      · exact hmem
      · exfalso
        rcases List.mem_append.1 hmem with hmem | hmem
        · simp at hmem
        · cases interim _ hmem
    obtain ⟨r', resumeAt, hr', hresume, ended⟩ := progress.announced hnow
      (fun e he => noLeap e (hpre ▸ List.mem_append_left _ he)) reply t' early
    rw [present]
    exact ⟨r', resumeAt, hr', hresume, Instant.le_trans ended later⟩

end Executor
end SignedHttp

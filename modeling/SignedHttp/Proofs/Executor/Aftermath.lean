import SignedHttp.Proofs.Executor.Progress
import SignedHttp.Proofs.Executor.Sharing

/-!
# SignedHttp.Proofs.Executor.Aftermath

What a run leaves of the known pauses (`execute_throttles`). The pause of a resource that no attempt
is for stays as it was. What becomes of the others depends on how the last attempt ends
(`Aftermath`): an answer that does not throttle leaves its resource without a pause, throttling
leaves one that is at least as long as the server asked for, and an attempt that gets neither leaves
them all alone, except that it may forget the pause of its own resource once that is over
(`Spared`).

The attempts before the last one were all throttled. `Retries.get?_of_ne` and `Retries.late` say
what such an attempt can change, and by induction what all of them together can.
-/

namespace SignedHttp

namespace Executor

open Run

variable {s : Signer} {build : Build} {deadline : Instant} {env env' : Environment}
  {a b : Attempt} {t : Throttles}

/-- The pauses after something that an attempt does before it is answered: those that were known
when it began, perhaps without that of its own resource, which is over. -/
def Spared (build : Build) (a : Attempt) (t : Throttles) : Prop :=
  t = a.env.throttles ∨ ∃ r pause, build a.number = .ok r ∧
    a.env.throttles.get? r.resourceKey = some pause ∧ pause.resumeAt ≤ a.env.clock.now ∧
    t = a.env.throttles.clear r.resourceKey

theorem Spared.get?_of_ne {key : String} (h : Spared build a t)
    (ne : ∀ r, build a.number = .ok r → r.resourceKey ≠ key) :
    t.get? key = a.env.throttles.get? key := by
  obtain rfl | ⟨r, pause, hbuild, -, -, rfl⟩ := h
  · rfl
  · rw [Throttles.get?_clear, if_neg (ne r hbuild).symm]

/-- Nothing is added to the pauses. -/
theorem Spared.of_get? {key : String} {pause : Throttle} (h : Spared build a t)
    (known : t.get? key = some pause) : a.env.throttles.get? key = some pause := by
  obtain rfl | ⟨r, ended, -, -, -, rfl⟩ := h
  · exact known
  · rw [Throttles.get?_clear] at known
    split at known
    · cases known
    · exact known

/-- A pause that is still running is spared. -/
theorem Spared.get?_of_lt {r : Request} {pause : Throttle} (h : Spared build a t)
    (hbuild : build a.number = .ok r)
    (known : a.env.throttles.get? r.resourceKey = some pause)
    (running : a.env.clock.now < pause.resumeAt) : t.get? r.resourceKey = some pause := by
  obtain rfl | ⟨r', ended, hbuild', known', past, -⟩ := h
  · exact known
  · cases hbuild.symm.trans hbuild'
    cases known.symm.trans known'
    exact absurd past fun le => Instant.not_lt.2 le running

/-! ## What the parts of an attempt do to the pauses -/

theorem stable_throttles (t : Throttles) : Stable fun env => env.throttles = t where
  note _ _ h := h
  sleep _ _ h := h
  cache _ h := h
  supplies _ h := h
  limiter _ h := h

theorem throttles_waitOut (label : String) (pause : Throttle) (deadline : Instant)
    (env : Environment) :
    ((waitOut label pause deadline).leaves env).throttles = env.throttles :=
  (keeps_waitOut_of (P := fun env' => env'.throttles = env.throttles) (fun _ h => h)
    (fun _ h => h) label pause).leaves rfl

theorem throttles_send (d : Departure) (x : Exchange) (left : List Exchange) (env : Environment) :
    ((send d x left).leaves env).throttles = env.throttles := by
  unfold leaves
  cases hs : send d x left env with
  | ok r env' =>
    obtain ⟨-, clock, -, rfl⟩ := send_eq_ok hs
    rfl
  | error e env' =>
    obtain ⟨-, rfl⟩ | ⟨cause, clock, -, -, -, rfl⟩ := send_eq_error hs <;> rfl

/-- Heeding the pause of a resource forgets it if it is over, and changes nothing else. -/
theorem throttles_heed (key : String) (deadline : Instant) (env : Environment) :
    ((heed key deadline).leaves env).throttles = env.throttles ∨
      ∃ pause, env.throttles.get? key = some pause ∧ pause.resumeAt ≤ env.clock.now ∧
        ((heed key deadline).leaves env).throttles = env.throttles.clear key := by
  unfold leaves
  rw [heed_apply]
  obtain ⟨pause, -, -, hpending⟩ | ⟨pause, known, past, hpending⟩ | ⟨-, hpending⟩ :=
    env.throttles.pending_cases key env.clock.now
  · rw [hpending]
    exact .inl (throttles_waitOut key pause deadline env)
  · rw [hpending]
    exact .inr ⟨pause, known, past, rfl⟩
  · rw [hpending]
    exact .inl rfl

/-- What follows a computation leaves the pauses as they are then. -/
theorem throttles_bind {α β : Type} {x : Run α} {f : α → Run β}
    (h : ∀ a mid, ((f a).leaves mid).throttles = mid.throttles) (env : Environment) :
    ((x >>= f).leaves env).throttles = (x.leaves env).throttles := by
  unfold leaves at h ⊢
  rw [bind_apply]
  cases x env with
  | ok a mid => exact h a mid
  | error e mid => rfl

theorem spared_prepare (s : Signer) (build : Build) (deadline : Instant) (a : Attempt) :
    Spared build a ((prepare s build deadline a.number).leaves a.env).throttles := by
  unfold leaves
  rw [prepare_apply]
  cases hbuild : build a.number with
  | error e => exact .inl rfl
  | ok r =>
    have rest : ((heed r.resourceKey deadline >>= fun _ => dispatch s a.number r).leaves
        (a.env.noted (.built a.number))).throttles =
        ((heed r.resourceKey deadline).leaves (a.env.noted (.built a.number))).throttles :=
      throttles_bind (fun _ mid =>
        (keeps_dispatch (stable_throttles mid.throttles) a.number r).leaves rfl) _
    obtain same | ⟨pause, known, past, cleared⟩ := throttles_heed r.resourceKey deadline
      (a.env.noted (.built a.number))
    · exact .inl (rest.trans same)
    · exact .inr ⟨r, pause, hbuild, known, past, rest.trans cleared⟩

theorem spared_of_prepare {d : Departure} {env₁ : Environment}
    (hp : prepare s build deadline a.number a.env = .ok d env₁) :
    Spared build a env₁.throttles ∧
      ∃ r, build a.number = .ok r ∧ d.key = r.resourceKey := by
  have spared := spared_prepare s build deadline a
  rw [leaves_eq_of_ok hp] at spared
  obtain ⟨r, -, -, -, -, -, hbuild, hkey, -⟩ := prepare_eq_ok hp
  exact ⟨spared, r, hbuild, hkey⟩

theorem throttles_of_send {d : Departure} {x : Exchange} {left : List Exchange} {r : Response}
    {env₂ : Environment} (hs : send d x left env = .ok r env₂) :
    env₂.throttles = env.throttles := by
  rw [← leaves_eq_of_ok hs, throttles_send]

/-! ## An attempt that is throttled -/

/-- A retry comes after a pause of the resource of the attempt, which ends by the deadline. -/
theorem throttles_of_retries (h : Retries s build deadline a b) :
    ∃ r pause t, build a.number = .ok r ∧ ¬ deadline < pause.resumeAt ∧ Spared build a t ∧
      b.env.throttles = t.record r.resourceKey pause := by
  obtain ⟨x, d, env₁, r, env₂, -, -, hp, hs, hc⟩ := h
  obtain ⟨spared, req, hbuild, hkey⟩ := spared_of_prepare hp
  obtain ⟨-, resumeAt, -, hw⟩ := conclude_eq_again hc
  refine ⟨req, ⟨resumeAt, retryAfter? r⟩, env₁.throttles, hbuild, (waitOut_eq_ok hw).1, spared, ?_⟩
  rw [← leaves_eq_of_ok hw, throttles_waitOut, ← hkey, ← throttles_of_send hs]
  rfl

theorem Retries.get?_of_ne {key : String} (h : Retries s build deadline a b)
    (ne : ∀ r, build a.number = .ok r → r.resourceKey ≠ key) :
    b.env.throttles.get? key = a.env.throttles.get? key := by
  obtain ⟨r, pause, t, hbuild, -, spared, hb⟩ := throttles_of_retries h
  rw [hb, Throttles.get?_record_of_ne (ne r hbuild).symm, spared.get?_of_ne ne]

/-- A pause that outlasts the deadline is not one that the run has recorded itself. -/
theorem Retries.late {key : String} {pause : Throttle} (h : Retries s build deadline a b)
    (known : b.env.throttles.get? key = some pause) (late : deadline < pause.resumeAt) :
    a.env.throttles.get? key = some pause := by
  obtain ⟨r, new, t, -, early, spared, hb⟩ := throttles_of_retries h
  rw [hb] at known
  by_cases hkey : key = r.resourceKey
  · subst hkey
    obtain recorded | former := t.get?_record_cases r.resourceKey new
    · cases recorded.symm.trans known
      exact absurd late early
    · exact spared.of_get? (former.symm.trans known)
  · rw [Throttles.get?_record_of_ne hkey] at known
    exact spared.of_get? known

/-! ## The attempts of a run -/

theorem get?_of_continues {key : String} (h : Continues s build deadline a b)
    (ne : ∀ c r, Continues s build deadline a c → build c.number = .ok r → r.resourceKey ≠ key) :
    b.env.throttles.get? key = a.env.throttles.get? key := by
  induction h with
  | refl => rfl
  | tail reaches step ih => exact (step.get?_of_ne fun r => ne _ r reaches).trans ih

theorem late_of_continues {key : String} {pause : Throttle} (h : Continues s build deadline a b)
    (known : b.env.throttles.get? key = some pause) (late : deadline < pause.resumeAt) :
    a.env.throttles.get? key = some pause := by
  induction h with
  | refl => exact known
  | tail _ step ih => exact ih (step.late known late)

/-- From every attempt on there is a last one. -/
theorem exists_last (s : Signer) (build : Build) (deadline : Instant) (a : Attempt) :
    ∃ b, Continues s build deadline a b ∧ ∀ c, ¬ Retries s build deadline b c := by
  by_cases h : ∃ b, Retries s build deadline a b
  · obtain ⟨b, retries⟩ := h
    obtain ⟨c, reaches, last⟩ := exists_last s build deadline b
    exact ⟨c, .head retries reaches, last⟩
  · exact ⟨a, .refl, fun b retries => h ⟨b, retries⟩⟩
termination_by a.left.length
decreasing_by exact length_of_retries retries

/-! ## The last attempt -/

/-- A pause of the resource of an attempt that is still running when the attempt begins and outlasts
the deadline is left as it is, and was known (`known`) when the run began. -/
def KeepsPending (build : Build) (deadline : Instant) (known : Throttles) (a : Attempt)
    (t : Throttles) : Prop :=
  ∀ req pause, build a.number = .ok req → a.env.throttles.get? req.resourceKey = some pause →
    a.env.clock.now < pause.resumeAt → deadline < pause.resumeAt →
    t.get? req.resourceKey = some pause ∧ known.get? req.resourceKey = some pause

/-- What an attempt with the events `es`, after which there is no other, leaves of the pauses if
`known` are those that were known when the run began. -/
structure Aftermath (build : Build) (deadline : Instant) (known : Throttles) (a : Attempt)
    (es : List Event) (t : Throttles) : Prop where
  /-- An answer that does not throttle ends the pause of its resource. -/
  answered : ∀ r time, .returned (.ok r) time ∈ es → r.status ≠ .tooManyRequests →
    ∃ req, build a.number = .ok req ∧ t.get? req.resourceKey = none
  /-- The server asks for a pause until `resumeAt`, and there is no other attempt. -/
  outlasting : ∀ r time resumeAt, .returned (.ok r) time ∈ es → r.status = .tooManyRequests →
    resume? r time = some resumeAt →
    ∃ req pause, build a.number = .ok req ∧ t.get? req.resourceKey = some pause ∧
      resumeAt ≤ pause.resumeAt
  pending : KeepsPending build deadline known a t
  /-- No answer arrives, or one that throttles without saying for how long. -/
  spared : (∀ r time, .returned (.ok r) time ∈ es →
    r.status = .tooManyRequests ∧ resume? r time = none) → Spared build a t

variable {known : Throttles}

/-- A pause that is still running when an attempt begins and outlasts the deadline ends the run. -/
theorem get?_of_outlasting {req : Request} {pause : Throttle}
    (reaches : Continues s build deadline (first env) a) (hbuild : build a.number = .ok req)
    (hknown : a.env.throttles.get? req.resourceKey = some pause)
    (running : a.env.clock.now < pause.resumeAt) (late : deadline < pause.resumeAt) :
    ((execute s build deadline).leaves env).throttles.get? req.resourceKey = some pause := by
  have hpending : (a.env.throttles.pending req.resourceKey a.env.clock.now).1 = some pause := by
    unfold Throttles.pending
    rw [hknown]
    dsimp only
    rw [if_pos running]
  obtain ⟨line, env', hp, -⟩ := prepare_eq_error_of_outlasting (s := s) hbuild hpending late
  have spared := spared_prepare s build deadline a
  rw [leaves_eq_of_error hp] at spared
  rw [leaves_eq_of_error (execute_of_unprepared reaches hp)]
  exact spared.get?_of_lt hbuild hknown running

/-- How a run can leave the environment in its last attempt. -/
inductive Finishes (s : Signer) (build : Build) (deadline : Instant) (a : Attempt) :
    Environment → Prop where
  | unprepared {e : Stop} {env' : Environment} :
      prepare s build deadline a.number a.env = .error e env' →
      Finishes s build deadline a env'
  | unconnected {d : Departure} {env₁ : Environment} :
      prepare s build deadline a.number a.env = .ok d env₁ → Finishes s build deadline a env₁
  | unanswered {d : Departure} {env₁ env' : Environment} {x : Exchange} {left : List Exchange}
      {e : Stop} :
      prepare s build deadline a.number a.env = .ok d env₁ →
      send d x left env₁ = .error e env' → Finishes s build deadline a env'
  | concluded {d : Departure} {env₁ env₂ : Environment} {x : Exchange} {left : List Exchange}
      {r : Response} :
      prepare s build deadline a.number a.env = .ok d env₁ → send d x left env₁ = .ok r env₂ →
      Finishes s build deadline a ((conclude d deadline a.number r).leaves env₂)

theorem finishes_of_last (last : ∀ b, ¬ Retries s build deadline a b) :
    Finishes s build deadline a (final (a.result s build deadline)) := by
  obtain ⟨left, n, env⟩ := a
  unfold Attempt.result
  cases left with
  | nil =>
    dsimp only
    rw [attempts, bind_apply]
    cases hp : prepare s build deadline n env with
    | error e env' => exact .unprepared hp
    | ok d env₁ =>
      dsimp only
      cases hs : send d { reply := .error .noResponseLeft } [] env₁ with
      | error e env' => exact .unanswered hp hs
      | ok r env₂ => cases (send_eq_ok hs).1
  | cons x left =>
    dsimp only
    have turn := attempts_turn s build deadline x left n env
    generalize attempts s build deadline (x :: left) n env = result at turn ⊢
    cases turn with
    | unprepared hp => exact .unprepared hp
    | unanswered hp hs => exact .unanswered hp hs
    | refused hp hs hc =>
      have left := Finishes.concluded (a := ⟨x :: left, n, env⟩) hp hs
      rwa [leaves_eq_of_error hc] at left
    | answered hp hs hc | exhausted hp hs hc =>
      have left := Finishes.concluded (a := ⟨x :: left, n, env⟩) hp hs
      rwa [leaves_eq_of_ok hc] at left
    | again h => exact absurd h (last _)

/-- A run ends with an attempt after which there is no other. -/
theorem execute_finishes (s : Signer) (build : Build) (deadline : Instant) (env : Environment) :
    ∃ a, Continues s build deadline (first env) a ∧ (∀ b, ¬ Retries s build deadline a b) ∧
      Finishes s build deadline a ((execute s build deadline).leaves env) := by
  unfold leaves
  cases ht : env.transport with
  | some left =>
    have hfirst : first env = ⟨left, 1, env⟩ := by simp [first, ht]
    obtain ⟨a, reaches, last⟩ := exists_last s build deadline (first env)
    refine ⟨a, reaches, last, ?_⟩
    have same := result_eq_of_continues reaches
    rw [hfirst] at same
    have whole : execute s build deadline env = a.result s build deadline :=
      (execute_of_transport ht).trans same
    rw [whole]
    exact finishes_of_last last
  | none =>
    refine ⟨first env, .refl, not_retries_first ht, ?_⟩
    rw [execute_of_no_transport ht]
    cases hp : prepare s build deadline 1 env with
    | error e env' => exact .unprepared (a := first env) hp
    | ok d env₁ => exact .unconnected (a := first env) hp

/-! ## What the last attempt leaves -/

section Last

variable {pre tail es : List Event} {d : Departure} {env₁ env₂ : Environment} {x : Exchange}
  {left : List Exchange} {r : Response}

/-- An attempt to which no answer arrives. -/
theorem aftermath_of_unanswered (pending : KeepsPending build deadline known a t)
    (quiet : ∀ r time, .returned (.ok r) time ∉ es) (spared : Spared build a t) :
    Aftermath build deadline known a es t where
  answered r time h := absurd h (quiet r time)
  outlasting r time _ h := absurd h (quiet r time)
  pending := pending
  spared _ := spared

/-- An attempt to which an answer arrives. -/
theorem aftermath_of_answered {time : Instant} (pending : KeepsPending build deadline known a t)
    (front : ∀ reply t, .returned reply t ∉ pre) (back : ∀ reply t, .returned reply t ∉ tail)
    (refusal : r.status ≠ .tooManyRequests →
      ∃ req, build a.number = .ok req ∧ t.get? req.resourceKey = none)
    (usable : r.status = .tooManyRequests → ∀ resumeAt, resume? r time = some resumeAt →
      ∃ req pause, build a.number = .ok req ∧ t.get? req.resourceKey = some pause ∧
        resumeAt ≤ pause.resumeAt)
    (unusable : r.status = .tooManyRequests → resume? r time = none → Spared build a t) :
    Aftermath build deadline known a (pre ++ .returned (.ok r) time :: tail) t := by
  have only {r' : Response} {time' : Instant}
      (h : .returned (.ok r') time' ∈ pre ++ .returned (.ok r) time :: tail) :
      r' = r ∧ time' = time := by
    simpa [front, back] using h
  refine ⟨fun r' time' h => ?_, fun r' time' resumeAt h => ?_, pending, fun h => ?_⟩
  · obtain ⟨rfl, rfl⟩ := only h
    exact refusal
  · obtain ⟨rfl, rfl⟩ := only h
    exact fun ht => usable ht resumeAt
  · obtain ⟨ht, hr⟩ := h r time (by simp)
    exact unusable ht hr

/-- The attempt ends when its answer has been dealt with. -/
theorem aftermath_of_conclude (hp : prepare s build deadline a.number a.env = .ok d env₁)
    (hs : send d x left env₁ = .ok r env₂)
    (pending : KeepsPending build deadline known a
      ((conclude d deadline a.number r).leaves env₂).throttles) :
    ∃ es, ((conclude d deadline a.number r).leaves env₂).trace = a.env.trace ++ es ∧
      Aftermath build deadline known a es
        ((conclude d deadline a.number r).leaves env₂).throttles := by
  obtain ⟨spared, req, hbuild, hkey⟩ := spared_of_prepare hp
  obtain ⟨-, pre, t₀, hpre, htrace⟩ := since_answer ((prepare_quiet a.number).ok rfl hp) hs
  have front (reply : Except Error.Cause Response) (t : Instant) :
      .returned reply t ∉ pre ++ [.sent d.key d.message t₀] := by
    simpa using Event.notMem_of_isPreparation hpre.2 reply t
  have since {env' : Environment} {tail : List Event} (h : env'.trace = env₂.trace ++ tail) :
      env'.trace = a.env.trace ++
        (pre ++ [.sent d.key d.message t₀] ++ .returned (.ok r) env₂.clock.now :: tail) := by
    rw [h, htrace]
    simp
  have freed : (released d.key env₂).throttles.get? req.resourceKey = none := by
    show (env₂.throttles.clear d.key).get? req.resourceKey = none
    rw [Throttles.get?_clear, if_pos hkey.symm]
  have paused {resumeAt : Instant} {env' : Environment} (ht : r.status = .tooManyRequests)
      (hr : resume? r env₂.clock.now = some resumeAt)
      (hw : (waitOut d.message.uri ⟨resumeAt, retryAfter? r⟩ deadline).leaves
        (held d.key ⟨resumeAt, retryAfter? r⟩ env₂) = env')
      (pending : KeepsPending build deadline known a env'.throttles) :
      ∃ es, env'.trace = a.env.trace ++ es ∧
        Aftermath build deadline known a es env'.throttles := by
    obtain ⟨waits, htrace, quiet⟩ := since_waited d deadline ⟨resumeAt, retryAfter? r⟩ env₂
    rw [hw] at htrace
    obtain ⟨pause, recorded, long, -⟩ :=
      env₂.throttles.get?_record d.key ⟨resumeAt, retryAfter? r⟩
    have known : env'.throttles.get? req.resourceKey = some pause := by
      rw [← hw, throttles_waitOut, ← hkey]
      exact recorded
    refine ⟨_, since htrace, aftermath_of_answered pending front
      (by simpa using Event.notMem_of_isPreparation quiet) (fun h => absurd ht h)
      (fun _ resumeAt' hr' => ?_) fun _ hr' => ?_⟩
    · cases hr.symm.trans hr'
      exact ⟨req, pause, hbuild, known, long⟩
    · cases hr.symm.trans hr'
  cases hc : conclude d deadline a.number r env₂ with
  | ok answer env' =>
    rw [leaves_eq_of_ok hc] at pending ⊢
    cases answer with
    | none =>
      obtain ⟨ht, resumeAt, hr, hw⟩ := conclude_eq_again hc
      exact paused ht hr (leaves_eq_of_ok hw) pending
    | some r' =>
      obtain ⟨success, -, rfl⟩ := conclude_eq_answered hc
      have noThrottling : r.status ≠ .tooManyRequests := by
        intro ht
        rw [ht] at success
        cases success
      exact ⟨_, since (released_trace d.key), aftermath_of_answered pending front (by simp)
        (fun _ => ⟨req, hbuild, freed⟩) (fun ht => absurd ht noThrottling)
        fun ht => absurd ht noThrottling⟩
  | error e env' =>
    rw [leaves_eq_of_error hc] at pending ⊢
    obtain ⟨-, ht, -, rfl⟩ | ⟨ht, hr, -, line, rfl⟩ | ⟨ht, resumeAt, hr, hw⟩ := conclude_eq_error hc
    · exact ⟨_, since (released_trace d.key), aftermath_of_answered pending front (by simp)
        (fun _ => ⟨req, hbuild, freed⟩) (fun ht' => absurd ht' ht) fun ht' => absurd ht' ht⟩
    · refine ⟨_, since (Environment.noted_trace _ _), aftermath_of_answered pending front
        (by simp) (fun h => absurd ht h) (fun _ resumeAt hr' => ?_) fun _ _ => ?_⟩
      · rw [hr] at hr'
        cases hr'
      · rw [← throttles_of_send hs] at spared
        exact spared
    · exact paused ht hr (leaves_eq_of_error hw) pending

theorem aftermath_of_finishes (h : Finishes s build deadline a env')
    (pending : KeepsPending build deadline known a env'.throttles) :
    ∃ es, env'.trace = a.env.trace ++ es ∧
      Aftermath build deadline known a es env'.throttles := by
  have quiet {n : Nat} {es : List Event} (h : Preparing n es) (r : Response) (t : Instant) :
      .returned (.ok r) t ∉ es := Event.notMem_of_isPreparation h.2 (.ok r) t
  cases h with
  | unprepared hp =>
    have spared := spared_prepare s build deadline a
    rw [leaves_eq_of_error hp] at spared
    obtain ⟨es, htrace, hes⟩ := (prepare_quiet a.number).error rfl hp
    exact ⟨es, htrace, aftermath_of_unanswered pending (quiet hes) spared⟩
  | unconnected hp =>
    obtain ⟨es, htrace, hes⟩ := (prepare_quiet a.number).ok rfl hp
    exact ⟨es, htrace, aftermath_of_unanswered pending (quiet hes) (spared_of_prepare hp).1⟩
  | @unanswered d env₁ _ x left e hp hs =>
    obtain ⟨es, htrace, hes⟩ := (prepare_quiet a.number).ok rfl hp
    have spared := (spared_of_prepare hp).1
    obtain ⟨-, rfl⟩ | ⟨cause, clock, hr, -, -, rfl⟩ := send_eq_error hs
    · refine ⟨_, by rw [departed_trace, htrace, List.append_assoc], ?_⟩
      exact aftermath_of_unanswered pending (by simp [quiet hes]) spared
    · refine ⟨_, by rw [replied_trace, htrace, List.append_assoc], ?_⟩
      exact aftermath_of_unanswered pending (by simp [quiet hes, hr]) spared
  | concluded hp hs => exact aftermath_of_conclude hp hs pending

/-- The answer to a request changes nothing about other resources. -/
theorem get?_conclude_of_ne {key : String} (ne : key ≠ d.key) (n : Nat) (r : Response)
    (env : Environment) :
    ((conclude d deadline n r).leaves env).throttles.get? key = env.throttles.get? key := by
  have freed : (released d.key env).throttles.get? key = env.throttles.get? key := by
    show (env.throttles.clear d.key).get? key = env.throttles.get? key
    rw [Throttles.get?_clear, if_neg ne]
  have waited (resumeAt : Instant) :
      ((waitOut d.message.uri ⟨resumeAt, retryAfter? r⟩ deadline).leaves
        (held d.key ⟨resumeAt, retryAfter? r⟩ env)).throttles.get? key =
        env.throttles.get? key := by
    rw [throttles_waitOut]
    exact Throttles.get?_record_of_ne ne
  cases hc : conclude d deadline n r env with
  | ok answer env' =>
    rw [leaves_eq_of_ok hc]
    cases answer with
    | some r' =>
      obtain ⟨-, -, rfl⟩ := conclude_eq_answered hc
      exact freed
    | none =>
      obtain ⟨-, resumeAt, -, hw⟩ := conclude_eq_again hc
      rw [← leaves_eq_of_ok hw]
      exact waited resumeAt
  | error e env' =>
    rw [leaves_eq_of_error hc]
    obtain ⟨-, -, -, rfl⟩ | ⟨-, -, -, line, rfl⟩ | ⟨-, resumeAt, -, hw⟩ := conclude_eq_error hc
    · exact freed
    · rfl
    · rw [← leaves_eq_of_error hw]
      exact waited resumeAt

theorem Finishes.get?_of_ne {key : String} (h : Finishes s build deadline a env')
    (ne : ∀ r, build a.number = .ok r → r.resourceKey ≠ key) :
    env'.throttles.get? key = a.env.throttles.get? key := by
  cases h with
  | unprepared hp =>
    have spared := spared_prepare s build deadline a
    rw [leaves_eq_of_error hp] at spared
    exact spared.get?_of_ne ne
  | unconnected hp => exact (spared_of_prepare hp).1.get?_of_ne ne
  | @unanswered d env₁ _ x left e hp hs =>
    rw [← leaves_eq_of_error hs, throttles_send]
    exact (spared_of_prepare hp).1.get?_of_ne ne
  | concluded hp hs =>
    obtain ⟨spared, req, hbuild, hkey⟩ := spared_of_prepare hp
    rw [get?_conclude_of_ne (hkey ▸ (ne req hbuild).symm), throttles_of_send hs]
    exact spared.get?_of_ne ne

end Last

/-- What a run leaves of the known pauses: what was known of a resource that no attempt is for, and
of the others what the last attempt makes of them. -/
theorem execute_throttles (s : Signer) (build : Build) (deadline : Instant) (env : Environment) :
    (∀ key, (∀ a r, Continues s build deadline (first env) a → build a.number = .ok r →
        r.resourceKey ≠ key) →
      ((execute s build deadline).leaves env).throttles.get? key = env.throttles.get? key) ∧
    ∃ a es, Continues s build deadline (first env) a ∧ (∀ b, ¬ Retries s build deadline a b) ∧
      ((execute s build deadline).leaves env).trace = a.env.trace ++ es ∧
      Aftermath build deadline env.throttles a es
        ((execute s build deadline).leaves env).throttles := by
  obtain ⟨a, reaches, last, finishes⟩ := execute_finishes s build deadline env
  refine ⟨fun key ne => ?_, a, ?_⟩
  · exact (finishes.get?_of_ne fun r => ne a r reaches).trans (get?_of_continues reaches ne)
  · have pending : KeepsPending build deadline env.throttles a
        ((execute s build deadline).leaves env).throttles := by
      intro req pause hbuild known running late
      exact ⟨get?_of_outlasting reaches hbuild known running late,
        late_of_continues reaches known late⟩
    obtain ⟨es, htrace, aftermath⟩ := aftermath_of_finishes finishes pending
    exact ⟨es, reaches, last, htrace, aftermath⟩

/-- Two resources are in a pause. One call goes to the first of them. -/
def paused (second : Nat) (transport : Option (List Exchange)) : Environment where
  clock := { now := .atSecond second }
  throttles := ⟨[("https://host/", ⟨.atSecond 3, some "3"⟩),
    ("https://other/", ⟨.atSecond 30, none⟩)], by decide⟩
  transport

/-- The other resource stays in its pause. That of the call ends with the answer, and stays as it is
if it outlasts the deadline. -/
theorem paused_throttles :
    (∀ second transport, ((execute { scheme := .bearer } (fun _ => .ok bare) (.atSecond 9)).leaves
      (paused second transport)).throttles.get? "https://other/" = some ⟨.atSecond 30, none⟩) ∧
    ((execute { scheme := .bearer } (fun _ => .ok bare) (.atSecond 9)).leaves
      (paused 5 (some [{ reply := .ok fine }]))).throttles.get? "https://host/" = none ∧
    ((execute { scheme := .bearer } (fun _ => .ok bare) (.atSecond 2)).leaves
      (paused 0 none)).throttles.get? "https://host/" = some ⟨.atSecond 3, some "3"⟩ := by
  refine ⟨fun second transport => ?_, ?_, ?_⟩
  · refine ((execute_throttles _ _ _ _).1 "https://other/" fun a r _ hbuild => ?_).trans rfl
    cases hbuild
    decide
  · obtain ⟨a, es, reaches, -, htrace, aftermath⟩ :=
      (execute_throttles { scheme := .bearer } (fun _ => .ok bare) (.atSecond 9)
        (paused 5 (some [{ reply := .ok fine }]))).2
    obtain rfl : a = first (paused 5 (some [{ reply := .ok fine }])) := by
      rcases reaches.cases_head with same | ⟨b, ⟨x, d, env₁, r, env₂, hleft, -, -, hs, hc⟩, -⟩
      · exact same.symm
      · have hx : { reply := .ok fine } = x := (List.cons.inj hleft).1
        subst hx
        cases (send_eq_ok hs).1
        cases (conclude_eq_again hc).1
    have answered : Event.replies es = [.ok fine] := by
      rw [← events_eq htrace]
      exact Event.replies_eq_take (n := 1) (execute_regular _ _ _ _).ordered (by decide +kernel)
    obtain ⟨pre, t, post, rfl, -⟩ := Event.exists_returned answered
    obtain ⟨req, hbuild, forgotten⟩ := aftermath.answered fine t (by simp) (by decide)
    cases hbuild
    exact forgotten
  · obtain ⟨a, es, reaches, -, -, aftermath⟩ :=
      (execute_throttles { scheme := .bearer } (fun _ => .ok bare) (.atSecond 2) (paused 0 none)).2
    obtain rfl : a = first (paused 0 none) := by
      rcases reaches.cases_head with same | ⟨b, step, -⟩
      · exact same.symm
      · exact absurd step (not_retries_first rfl b)
    exact (aftermath.pending bare ⟨.atSecond 3, some "3"⟩ rfl rfl (by decide) (by decide)).1

end Executor
end SignedHttp

import SignedHttp.Proofs.Executor.Pauses
import SignedHttp.Proofs.Executor.Replies

/-!
# SignedHttp.Proofs.Executor.Waiting

The deadline bounds the waiting for pauses (`execute_waits`). Without leap seconds every pause that
is slept away ends exactly at its end, which is not after the deadline, and all of them together
take no longer than there is time until the deadline. A pause that outlasts the deadline ends the
run at once, whether an answer has just announced it or it is known from before.

The sum is bounded by an invariant of the path that a run is (`Waits`): what has been slept away so
far fits between the start and the present, or the deadline if that is earlier. Other sleeps move
the present only.
-/

namespace SignedHttp

/-- The nanoseconds slept for pauses. -/
def Event.pauseTime : List Event → Nat
  | [] => 0
  | .slept (.pause _) d _ :: es => d.ns + pauseTime es
  | _ :: es => pauseTime es

theorem Event.pauseTime_append (es : List Event) (e : Event) :
    pauseTime (es ++ [e]) = pauseTime es + pauseTime [e] := by
  induction es using pauseTime.induct with
  | case1 => simp [pauseTime]
  | case2 pause d t es ih =>
    simp only [List.cons_append, pauseTime, ih]
    omega
  | case3 e' es h ih => simp only [List.cons_append, pauseTime, ih]

namespace Executor

open Run

variable {start deadline : Instant} {m m' : Moment}

/-! ## The invariant of the waits -/

/-- The sleeps for pauses so far end where they should, and fit into the time that has gone by. -/
structure Waits (start deadline : Instant) (m : Moment) : Prop where
  exact : ∀ pause d t, .slept (.pause pause) d t ∈ m.events → t = pause.resumeAt ∧ t ≤ deadline
  later : start.value ≤ m.now.value
  total : start.value + Event.pauseTime m.events ≤
    max start.value (min m.now.value deadline.value)

/-- An event that is no sleep for a pause, while time goes by. -/
theorem Waits.add {e : Event} (h : Waits start deadline m) (he : Event.pauseTime [e] = 0)
    (other : ∀ pause d t, e ≠ .slept (.pause pause) d t) (hevents : m'.events = m.events ++ [e])
    (hnow : m.now.value ≤ m'.now.value) : Waits start deadline m' where
  exact := by
    intro pause d t hmem
    rw [hevents] at hmem
    rcases List.mem_append.1 hmem with hmem | hmem
    · exact h.exact pause d t hmem
    · exact absurd (List.mem_singleton.1 hmem).symm (other pause d t)
  later := Int.le_trans h.later hnow
  total := by
    have total := h.total
    rw [hevents, Event.pauseTime_append, he]
    omega

theorem Waits.pass (h : Waits start deadline m) (hevents : m'.events = m.events)
    (hnow : m.now.value ≤ m'.now.value) : Waits start deadline m' where
  exact := by
    rw [hevents]
    exact h.exact
  later := Int.le_trans h.later hnow
  total := by
    have total := h.total
    rw [hevents]
    omega

theorem Waits.wait {pause : Throttle} (h : Waits start deadline m) (civil : m.Civil)
    (hdeadline : deadline.isLeap = false) (hpause : pause.resumeAt.isLeap = false)
    (hnow : m.now ≤ pause.resumeAt) (hle : pause.resumeAt ≤ deadline) :
    Waits start deadline {
      m.add (.slept (.pause pause) (pause.resumeAt.remaining m.now) pause.resumeAt) with
      now := pause.resumeAt } where
  exact := by
    intro pause' d t hmem
    rcases List.mem_append.1 hmem with hmem | hmem
    · exact h.exact pause' d t hmem
    · cases List.mem_singleton.1 hmem
      exact ⟨rfl, hle⟩
  later := Int.le_trans h.later ((Instant.le_iff_value civil.now hpause).1 hnow)
  total := by
    have total := h.total
    have later := h.later
    have hstep := (Instant.le_iff_value civil.now hpause).1 hnow
    have hlast := (Instant.le_iff_value hpause hdeadline).1 hle
    have slept : Event.pauseTime
        [.slept (.pause pause) (pause.resumeAt.remaining m.now) pause.resumeAt] =
        (pause.resumeAt.value - m.now.value).toNat := by
      simp [Event.pauseTime, Instant.remaining_ns hpause civil.now]
    -- the sleep fills the time from the present to the end of the pause
    simp only [Moment.add, Event.pauseTime_append, slept]
    omega

theorem Waits.step (h : Waits start deadline m) (civil : m.Civil)
    (hdeadline : deadline.isLeap = false) (step : Step (· ≤ deadline) m m') :
    Waits start deadline m' := by
  have later {d : Duration} {t : Instant} (moved : m.now.add? d = some t) :
      m.now.value ≤ t.value := by
    rw [(Instant.value_of_add? civil.now moved).1]
    omega
  cases step with
  | @noted e plain =>
    refine h.add ?_ ?_ rfl (Int.le_refl _)
    · cases e <;> first | rfl | cases plain
    · rintro pause d t rfl
      cases plain
  | passed moved => exact h.pass rfl (later moved)
  | @slept wait d t other moved =>
    refine h.add ?_ ?_ rfl (later moved)
    · cases wait <;> first | rfl | exact absurd rfl (other _)
    · rintro pause d t ⟨⟩
      exact other pause rfl
  | waited hpause hnow hle => exact h.wait civil hdeadline hpause hnow hle
  | dropped _ => exact h.pass rfl (Int.le_refl _)
  | sent _ => exact h.add rfl (by simp) rfl (Int.le_refl _)
  | paused _ => exact h.add rfl (by simp) rfl (Int.le_refl _)
  | cleared => exact h.add rfl (by simp) rfl (Int.le_refl _)

theorem waits_of_path (hdeadline : deadline.isLeap = false) (civil : m.Civil)
    (path : Path (· ≤ deadline) m m') (h : Waits start deadline m) : Waits start deadline m' := by
  induction path with
  | refl => exact h
  | tail path step ih => exact ih.step (civil_of_path path civil) hdeadline step

/-! ## A pause that is known from before -/

variable {s : Signer} {build : Build} {env : Environment}

theorem prepare_eq_error_of_outlasting {n : Nat} {r : Request} {pause : Throttle}
    (hbuild : build n = .ok r)
    (hpending : (env.throttles.pending r.resourceKey env.clock.now).1 = some pause)
    (hlate : deadline < pause.resumeAt) :
    ∃ line env', prepare s build deadline n env =
      .error (.failed (outlasted r.resourceKey pause deadline)) env' ∧
      env'.trace = env.trace ++ [.built n, .logged line] := by
  have heeded : ∃ line env', heed r.resourceKey deadline (env.noted (.built n)) =
      .error (.failed (outlasted r.resourceKey pause deadline)) env' ∧
      env'.trace = env.trace ++ [.built n, .logged line] := by
    rw [heed_apply, Environment.noted_throttles, Environment.noted_clock, hpending]
    obtain ⟨line, hw⟩ := waitOut_beyond r.resourceKey
      { env.noted (.built n) with
        throttles := (env.throttles.pending r.resourceKey env.clock.now).2 } hlate
    exact ⟨line, _, hw, by simp [Environment.trace, Environment.noted]⟩
  obtain ⟨line, env', hheed, htrace⟩ := heeded
  refine ⟨line, env', ?_, htrace⟩
  rw [prepare_apply, hbuild]
  dsimp only
  rw [bind_apply, hheed]

abbrev Continues (s : Signer) (build : Build) (deadline : Instant) : Attempt → Attempt → Prop :=
  Relation.ReflTransGen (Retries s build deadline)

theorem result_eq_of_continues {a b : Attempt} (h : Continues s build deadline a b) :
    a.result s build deadline = b.result s build deadline := by
  induction h with
  | refl => rfl
  | tail _ step ih => rw [ih, result_eq_of_retries step]

theorem eq_first_of_continues {a : Attempt} (ht : env.transport = none)
    (h : Continues s build deadline (first env) a) : a = first env := by
  rcases h.cases_head with same | ⟨b, step, -⟩
  · exact same.symm
  · exact absurd step (not_retries_first ht b)

theorem result_of_unprepared {a : Attempt} {e : Stop} {env' : Environment}
    (h : prepare s build deadline a.number a.env = .error e env') :
    a.result s build deadline = .error e env' := by
  unfold Attempt.result
  cases a.left <;> rw [attempts, bind_apply, h]

/-- A run ends where one of its attempts cannot be prepared. -/
theorem execute_of_unprepared {a : Attempt} {e : Stop} {env' : Environment}
    (h : Continues s build deadline (first env) a)
    (hp : prepare s build deadline a.number a.env = .error e env') :
    execute s build deadline env = .error e env' := by
  cases ht : env.transport with
  | some left =>
    have hfirst : (first env).result s build deadline = attempts s build deadline left 1 env := by
      simp [first, Attempt.result, ht]
    rw [execute_of_transport ht, ← hfirst, result_eq_of_continues h, result_of_unprepared hp]
  | none =>
    obtain rfl := eq_first_of_continues ht h
    have hp' : prepare s build deadline 1 env = .error e env' := hp
    rw [execute_of_no_transport ht, hp']

/-! ## Whole runs -/

theorem execute_waits (s : Signer) (build : Build) (deadline : Instant) (env : Environment)
    (hnow : env.clock.now.isLeap = false) (hdeadline : deadline.isLeap = false)
    (hknown : env.throttles.NoLeap)
    (hpaused : Event.NoLeap ((execute s build deadline).events env)) :
    (∀ pause d t, .slept (.pause pause) d t ∈ (execute s build deadline).events env →
      t = pause.resumeAt ∧ t ≤ deadline) ∧
    (Event.pauseTime ((execute s build deadline).events env) : Int) ≤
      max 0 (deadline.minus env.clock.now) ∧
    (∀ pre r t post resumeAt,
      (execute s build deadline).events env = pre ++ .returned (.ok r) t :: post →
      r.status = .tooManyRequests → resume? r t = some resumeAt → deadline < resumeAt →
      ∃ before key m t₀ line, pre = before ++ [.sent key m t₀] ∧
        post = [.paused key ⟨resumeAt, retryAfter? r⟩, .logged line] ∧
        EndsThrottled m.uri (retryAfter? r) ((execute s build deadline).outcome env)) ∧
    (∀ a r pause, Continues s build deadline (first env) a → build a.number = .ok r →
      (a.env.throttles.pending r.resourceKey a.env.clock.now).1 = some pause →
      deadline < pause.resumeAt →
      (∃ line, ((execute s build deadline).leaves env).trace =
        a.env.trace ++ [.built a.number, .logged line]) ∧
      EndsThrottled r.resourceKey pause.retryAfter ((execute s build deadline).outcome env)) := by
  have civil : env.start.Civil := ⟨hnow, hknown⟩
  have underway : Underway (· ≤ deadline) env.start env (fun _ _ => True)
      ((execute s build deadline).leaves env) := by
    refine (keeps_execute_underway civil (fun _ h => h) s build).leaves ?_
    exact ⟨[], by simp, fun _ => ⟨.refl, trivial⟩⟩
  obtain ⟨es, htrace, hpath⟩ := underway
  have hevents := events_eq htrace
  have waits : Waits env.clock.now deadline
      ⟨es, ((execute s build deadline).leaves env).clock.now,
        ((execute s build deadline).leaves env).throttles⟩ := by
    refine waits_of_path hdeadline civil (hpath (hevents ▸ hpaused)).1
      ⟨by simp [Environment.start], Int.le_refl _, ?_⟩
    simp only [Environment.start, Event.pauseTime]
    omega
  refine ⟨?_, ?_, ?_, ?_⟩
  · rw [hevents]
    exact waits.exact
  · rw [hevents, Instant.minus_eq hdeadline hnow]
    have total := waits.total
    dsimp only at total
    omega
  · intro pre r t post resumeAt hes hstatus hresume hlate
    obtain ⟨before, key, m, t₀, hpre, settles⟩ :=
      (execute_regular s build deadline env).lawful pre (.ok r) t post hes
    have answers : Answers deadline key m.uri r t ((execute s build deadline).outcome env) post :=
      settles
    obtain ⟨⟨line, hpost⟩, ended⟩ := answers.outlasting hstatus resumeAt hresume hlate
    exact ⟨before, key, m, t₀, line, hpre, hpost, ended⟩
  · intro a r pause hreach hbuild hpending hlate
    obtain ⟨line, env', hp, hlast⟩ :=
      prepare_eq_error_of_outlasting (s := s) hbuild hpending hlate
    have ended := execute_of_unprepared hreach hp
    unfold leaves outcome
    rw [ended]
    exact ⟨⟨line, hlast⟩, outlasted r.resourceKey pause deadline, rfl, rfl, rfl, rfl⟩

/-- A resource is in a pause of five seconds; after it the server asks for another ten. -/
def twicePaused : Environment where
  clock := { now := .atSecond 0 }
  throttles := ⟨[("https://host/", ⟨.atSecond 5, some "5"⟩)], by decide⟩
  transport := some [
    { reply := .ok ⟨.tooManyRequests, ⟨[(Header.retryAfter, .ofText "10" (by decide))]⟩, []⟩ },
    { reply := .ok ⟨⟨200⟩, {}, []⟩ }]

/-- Both pauses are slept away if the second one ends just when the deadline comes. -/
theorem twicePaused_waits :
    Event.pauseTime ((execute { scheme := .bearer } (fun _ => .ok bare)
      (.atSecond 15)).events twicePaused) = 15000000000 ∧
    (Event.pauseTime ((execute { scheme := .bearer } (fun _ => .ok bare)
      (.atSecond 15)).events twicePaused) : Int) ≤
      max 0 ((Instant.atSecond 15).minus twicePaused.clock.now) :=
  ⟨by decide +kernel,
    (execute_waits { scheme := .bearer } (fun _ => .ok bare) (.atSecond 15) twicePaused
      rfl rfl (by decide) (by decide +kernel)).2.1⟩

end Executor
end SignedHttp

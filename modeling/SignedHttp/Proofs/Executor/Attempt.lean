import SignedHttp.Proofs.Signer.Frame

/-!
# SignedHttp.Proofs.Executor.Attempt

What one attempt can do, and how attempts follow each other.

* `waitOut_beyond`, `waitOut_within`, `send_overflow`, `send_apply`, `conclude_*`: the ways in which
  each part of an attempt can end, with the environment that it leaves.
* `Retries`: an attempt is throttled and another one follows. A run from an attempt is the run from
  the attempt that follows it (`result_eq_of_retries`).
* `keeps_execute`: an assertion that preparing, sending and concluding keep holds after a whole run.
-/

namespace SignedHttp
namespace Executor

open Run

variable {env : Environment} {s : Signer} {build : Build} {deadline : Instant}

/-! ## Waiting for a pause to end -/

/-- The failure to wait for a pause that outlasts the deadline. -/
def outlasted (label : String) (pause : Throttle) (deadline : Instant) : Error where
  cause := .pausedBeyond label pause.resumeAt deadline
  uri := some label
  retryAfter := pause.retryAfter

theorem waitOut_beyond (label : String) (env : Environment) {pause : Throttle}
    (h : deadline < pause.resumeAt) :
    ∃ line, waitOut label pause deadline env =
      .error (.failed (outlasted label pause deadline)) (env.noted (.logged line)) := by
  unfold waitOut
  rw [if_pos h]
  exact ⟨_, rfl⟩

/-- A pause that ends by the deadline has ended, is slept away, or its end is out of range. -/
theorem waitOut_within (label : String) (env : Environment) {pause : Throttle}
    (h : ¬ deadline < pause.resumeAt) :
    (pause.resumeAt.remaining env.clock.now = .zero ∧
      waitOut label pause deadline env = .ok () env) ∨
    (∃ line clock, pause.resumeAt.remaining env.clock.now ≠ .zero ∧
      env.clock.sleep? (pause.resumeAt.remaining env.clock.now) = some clock ∧
      waitOut label pause deadline env =
        .ok () ((env.noted (.logged line)).woken (.pause pause)
          (pause.resumeAt.remaining env.clock.now) clock)) ∨
    (∃ line, env.clock.sleep? (pause.resumeAt.remaining env.clock.now) = none ∧
      waitOut label pause deadline env = .error .overflow (env.noted (.logged line))) := by
  unfold waitOut
  rw [if_neg h, bind_apply, now_apply]
  dsimp only
  by_cases hw : pause.resumeAt.remaining env.clock.now = .zero
  · rw [if_neg fun h => h hw]
    exact .inl ⟨hw, rfl⟩
  · rw [if_pos hw, bind_apply, log_apply]
    dsimp only
    cases hc : env.clock.sleep? (pause.resumeAt.remaining env.clock.now) with
    | some clock => exact .inr (.inl ⟨_, clock, hw, rfl, sleep_eq hc⟩)
    | none => exact .inr (.inr ⟨_, rfl, sleep_eq_overflow hc⟩)

theorem waitOut_eq_ok {label : String} {pause : Throttle} {env' : Environment}
    (h : waitOut label pause deadline env = .ok () env') :
    ¬ deadline < pause.resumeAt ∧
      ((pause.resumeAt.remaining env.clock.now = .zero ∧ env' = env) ∨
      ∃ line clock, pause.resumeAt.remaining env.clock.now ≠ .zero ∧
        env.clock.sleep? (pause.resumeAt.remaining env.clock.now) = some clock ∧
        env' = (env.noted (.logged line)).woken (.pause pause)
          (pause.resumeAt.remaining env.clock.now) clock) := by
  by_cases hd : deadline < pause.resumeAt
  · obtain ⟨line, hw⟩ := waitOut_beyond label env hd
    rw [hw] at h
    cases h
  · refine ⟨hd, ?_⟩
    obtain ⟨hz, hw⟩ | ⟨line, clock, hz, hc, hw⟩ | ⟨line, hc, hw⟩ :=
      waitOut_within label env hd
    · rw [hw] at h
      cases h
      exact .inl ⟨hz, rfl⟩
    · rw [hw] at h
      cases h
      exact .inr ⟨line, clock, hz, hc, rfl⟩
    · rw [hw] at h
      cases h

theorem waitOut_eq_error {label : String} {pause : Throttle} {e : Stop} {env' : Environment}
    (h : waitOut label pause deadline env = .error e env') :
    (deadline < pause.resumeAt ∧ e = .failed (outlasted label pause deadline) ∨
      ¬ deadline < pause.resumeAt ∧
        env.clock.sleep? (pause.resumeAt.remaining env.clock.now) = none ∧ e = .overflow) ∧
    ∃ line, env' = env.noted (.logged line) := by
  by_cases hd : deadline < pause.resumeAt
  · obtain ⟨line, hw⟩ := waitOut_beyond label env hd
    rw [hw] at h
    cases h
    exact ⟨.inl ⟨hd, rfl⟩, line, rfl⟩
  · obtain ⟨hz, hw⟩ | ⟨line, clock, hz, hc, hw⟩ | ⟨line, hc, hw⟩ :=
      waitOut_within label env hd
    · rw [hw] at h
      cases h
    · rw [hw] at h
      cases h
    · rw [hw] at h
      cases h
      exact ⟨.inr ⟨hd, hc, rfl⟩, line, rfl⟩

theorem heed_apply (key : String) :
    heed key deadline env =
      match (env.throttles.pending key env.clock.now).1 with
      | some pause =>
        waitOut key pause deadline
          { env with throttles := (env.throttles.pending key env.clock.now).2 }
      | none =>
        .ok () { env with throttles := (env.throttles.pending key env.clock.now).2 } := by
  unfold heed
  rw [bind_apply, now_apply]
  dsimp only
  rw [bind_apply, pending_apply]
  cases (env.throttles.pending key env.clock.now).1 <;> rfl

theorem keeps_waitOut_of {P : Environment → Prop}
    (logged : ∀ {env} line, P env → P (env.noted (.logged line)))
    (slept : ∀ {env pause d clock}, env.clock.sleep? d = some clock → P env →
      P (env.woken (.pause pause) d clock)) (label : String) (pause : Throttle) :
    Keeps P (waitOut label pause deadline) := by
  intro mid hP
  cases hw : waitOut label pause deadline mid with
  | ok a env' =>
    obtain ⟨-, ⟨-, rfl⟩ | ⟨line, clock, -, hc, rfl⟩⟩ := waitOut_eq_ok hw
    · exact hP
    · exact slept hc (logged line hP)
  | error e env' =>
    obtain ⟨-, line, rfl⟩ := waitOut_eq_error hw
    exact logged line hP

theorem keeps_heed_of {P : Environment → Prop}
    (logged : ∀ {env} line, P env → P (env.noted (.logged line)))
    (slept : ∀ {env pause d clock}, env.clock.sleep? d = some clock → P env →
      P (env.woken (.pause pause) d clock))
    (dropped : ∀ {env} throttles, P env → P { env with throttles }) (key : String) :
    Keeps P (heed key deadline) := by
  intro mid hP
  rw [heed_apply]
  have known := dropped (mid.throttles.pending key mid.clock.now).2 hP
  cases (mid.throttles.pending key mid.clock.now).1 with
  | none => exact known
  | some pause => exact keeps_waitOut_of logged slept key pause _ known

/-! ## Sending -/

/-- The environment in which a request is on its way. -/
def departed (d : Departure) (left : List Exchange) (env : Environment) : Environment :=
  { env.noted (.sent d.key d.message env.clock.now) with transport := some left }

/-- The failure to get an answer to a request. -/
def lost (d : Departure) (cause : Error.Cause) : Error where
  cause := .sendFailed d.message.uri
  uri := some d.message.uri
  source := some cause

/-- The environment in which the reply to a request has arrived. -/
def replied (d : Departure) (x : Exchange) (left : List Exchange) (clock : Clock)
    (env : Environment) : Environment :=
  { departed d left env with clock }.noted (.returned x.reply clock.now)

theorem depart_apply (d : Departure) (left : List Exchange) :
    depart d left env = .ok () (departed d left env) := rfl

theorem send_overflow {d : Departure} {x : Exchange} {left : List Exchange}
    (h : env.clock.advance? x.takes = none) :
    send d x left env = .error .overflow (departed d left env) := by
  have moved : advance x.takes (departed d left env) = .error .overflow (departed d left env) :=
    advance_eq_overflow h
  simp only [send, bind_apply, depart_apply, moved]

theorem send_apply {d : Departure} {x : Exchange} {left : List Exchange} {clock : Clock}
    (h : env.clock.advance? x.takes = some clock) :
    send d x left env =
      match x.reply with
      | .ok r => .ok r (replied d x left clock env)
      | .error cause => .error (.failed (lost d cause)) (replied d x left clock env) := by
  have moved : advance x.takes (departed d left env) =
      .ok () { departed d left env with clock } := advance_eq h
  simp only [send, bind_apply, depart_apply, moved, now_apply, note_apply, replied]
  cases x.reply <;> rfl

theorem send_eq_ok {d : Departure} {x : Exchange} {left : List Exchange} {r : Response}
    {env' : Environment} (h : send d x left env = .ok r env') :
    x.reply = .ok r ∧ ∃ clock, env.clock.advance? x.takes = some clock ∧
      env' = replied d x left clock env := by
  cases hc : env.clock.advance? x.takes with
  | none =>
    rw [send_overflow hc] at h
    cases h
  | some clock =>
    rw [send_apply hc] at h
    cases hr : x.reply <;> rw [hr] at h <;> cases h
    exact ⟨rfl, clock, rfl, rfl⟩

theorem send_eq_error {d : Departure} {x : Exchange} {left : List Exchange} {e : Stop}
    {env' : Environment} (h : send d x left env = .error e env') :
    (e = .overflow ∧ env' = departed d left env) ∨
    ∃ cause clock, x.reply = .error cause ∧ env.clock.advance? x.takes = some clock ∧
      e = .failed (lost d cause) ∧ env' = replied d x left clock env := by
  cases hc : env.clock.advance? x.takes with
  | none =>
    rw [send_overflow hc] at h
    cases h
    exact .inl ⟨rfl, rfl⟩
  | some clock =>
    rw [send_apply hc] at h
    cases hr : x.reply <;> rw [hr] at h <;> cases h
    exact .inr ⟨_, clock, rfl, rfl, rfl, rfl⟩

@[simp] theorem departed_trace (d : Departure) (left : List Exchange) :
    (departed d left env).trace = env.trace ++ [.sent d.key d.message env.clock.now] := by
  simp [departed, Environment.trace, Environment.noted]

@[simp] theorem replied_trace (d : Departure) (x : Exchange) (left : List Exchange)
    (clock : Clock) :
    (replied d x left clock env).trace =
      env.trace ++ [.sent d.key d.message env.clock.now, .returned x.reply clock.now] := by
  simp [replied, departed, Environment.trace, Environment.noted]

/-! ## Concluding -/

/-- The environment in which the pause of a resource is forgotten. -/
def released (key : String) (env : Environment) : Environment :=
  { env with throttles := env.throttles.clear key }.noted (.cleared key)

/-- The environment in which a pause of a resource is recorded. -/
def held (key : String) (pause : Throttle) (env : Environment) : Environment :=
  { env with throttles := env.throttles.record key pause }.noted (.paused key pause)

@[simp] theorem released_trace (key : String) :
    (released key env).trace = env.trace ++ [.cleared key] := by
  simp [released, Environment.trace, Environment.noted]

@[simp] theorem held_trace (key : String) (pause : Throttle) :
    (held key pause env).trace = env.trace ++ [.paused key pause] := by
  simp [held, Environment.trace, Environment.noted]

variable {d : Departure} {n : Nat} {r : Response}

theorem conclude_success (h : r.status.isSuccess = true) :
    conclude d deadline n r env = .ok (some r) (released d.key env) := by
  simp only [conclude, h, if_true, bind_apply, clear_apply, pure_apply, released]

/-- The failure that an answer is which is neither success nor throttling. -/
def refused (d : Departure) (r : Response) : Error where
  cause := .answered r.status r.headers
  uri := some d.message.uri

theorem conclude_refused (h : r.status.isSuccess = false) (h' : r.status ≠ .tooManyRequests) :
    conclude d deadline n r env = .error (.failed (refused d r)) (released d.key env) := by
  simp only [conclude, h, Bool.false_eq_true, if_false, h', bind_apply, clear_apply, fail_apply,
    released, refused]

/-- The failure that an answer is which says to come back later but not when. -/
def unusable (d : Departure) (r : Response) : Error where
  cause := .pausedWithoutEnd d.message.uri
  uri := some d.message.uri
  retryAfter := retryAfter? r

/-- The instant at which an answer that arrives at `t` allows another attempt, if it can be told. -/
def resume? (r : Response) (t : Instant) : Option Instant :=
  (retryAfter? r).bind (RetryAfter.resume? · t)

theorem comeBack_unusable (d : Departure) (deadline : Instant) (n : Nat)
    (h : resume? r env.clock.now = none) :
    ∃ line, comeBack d deadline n r env =
      .error (.failed (unusable d r)) (env.noted (.logged line)) := by
  unfold resume? at h
  simp only [comeBack, bind_apply, now_apply, h]
  exact ⟨_, rfl⟩

theorem comeBack_usable {resumeAt : Instant} (h : resume? r env.clock.now = some resumeAt) :
    comeBack d deadline n r env =
      waitOut d.message.uri ⟨resumeAt, retryAfter? r⟩ deadline
        (held d.key ⟨resumeAt, retryAfter? r⟩ env) := by
  unfold resume? at h
  simp only [comeBack, bind_apply, now_apply, h, record_apply, held]

theorem conclude_throttled (h : r.status = .tooManyRequests) :
    conclude d deadline n r env =
      match comeBack d deadline n r env with
      | .ok _ env' => .ok none env'
      | .error e env' => .error e env' := by
  have failure : ¬ r.status.isSuccess = true := by
    rw [h]
    decide
  unfold conclude
  rw [if_neg failure, if_pos h, bind_apply]
  cases comeBack d deadline n r env <;> rfl

theorem conclude_eq_answered {r' : Response} {env' : Environment}
    (h : conclude d deadline n r env = .ok (some r') env') :
    r.status.isSuccess = true ∧ r' = r ∧ env' = released d.key env := by
  by_cases hs : r.status.isSuccess = true
  · rw [conclude_success hs] at h
    cases h
    exact ⟨hs, rfl, rfl⟩
  · exfalso
    by_cases ht : r.status = .tooManyRequests
    · rw [conclude_throttled ht] at h
      cases hc : comeBack d deadline n r env <;> rw [hc] at h <;> cases h
    · rw [conclude_refused (by simpa using hs) ht] at h
      cases h

theorem conclude_eq_again {env' : Environment} (h : conclude d deadline n r env = .ok none env') :
    r.status = .tooManyRequests ∧ ∃ resumeAt, resume? r env.clock.now = some resumeAt ∧
      waitOut d.message.uri ⟨resumeAt, retryAfter? r⟩ deadline
        (held d.key ⟨resumeAt, retryAfter? r⟩ env) = .ok () env' := by
  by_cases hs : r.status.isSuccess = true
  · rw [conclude_success hs] at h
    cases h
  by_cases ht : r.status = .tooManyRequests
  · refine ⟨ht, ?_⟩
    rw [conclude_throttled ht] at h
    cases hr : resume? r env.clock.now with
    | none =>
      obtain ⟨line, hc⟩ := comeBack_unusable d deadline n hr
      rw [hc] at h
      cases h
    | some resumeAt =>
      refine ⟨resumeAt, rfl, ?_⟩
      rw [comeBack_usable hr] at h
      cases hw : waitOut d.message.uri ⟨resumeAt, retryAfter? r⟩ deadline
          (held d.key ⟨resumeAt, retryAfter? r⟩ env) <;> rw [hw] at h <;> cases h
      rfl
  · rw [conclude_refused (by simpa using hs) ht] at h
    cases h

theorem conclude_eq_error {e : Stop} {env' : Environment}
    (h : conclude d deadline n r env = .error e env') :
    (r.status.isSuccess = false ∧ r.status ≠ .tooManyRequests ∧ e = .failed (refused d r) ∧
      env' = released d.key env) ∨
    (r.status = .tooManyRequests ∧ resume? r env.clock.now = none ∧ e = .failed (unusable d r) ∧
      ∃ line, env' = env.noted (.logged line)) ∨
    (r.status = .tooManyRequests ∧ ∃ resumeAt, resume? r env.clock.now = some resumeAt ∧
      waitOut d.message.uri ⟨resumeAt, retryAfter? r⟩ deadline
        (held d.key ⟨resumeAt, retryAfter? r⟩ env) = .error e env') := by
  by_cases hs : r.status.isSuccess = true
  · rw [conclude_success hs] at h
    cases h
  by_cases ht : r.status = .tooManyRequests
  · rw [conclude_throttled ht] at h
    cases hr : resume? r env.clock.now with
    | none =>
      obtain ⟨line, hc⟩ := comeBack_unusable d deadline n hr
      rw [hc] at h
      cases h
      exact .inr (.inl ⟨ht, rfl, rfl, line, rfl⟩)
    | some resumeAt =>
      rw [comeBack_usable hr] at h
      cases hw : waitOut d.message.uri ⟨resumeAt, retryAfter? r⟩ deadline
          (held d.key ⟨resumeAt, retryAfter? r⟩ env) <;> rw [hw] at h <;> cases h
      exact .inr (.inr ⟨ht, resumeAt, rfl, hw⟩)
  · rw [conclude_refused (by simpa using hs) ht] at h
    cases h
    exact .inl ⟨by simpa using hs, ht, rfl, rfl⟩

/-! ## One attempt and the next -/

theorem following_of_lt (h : n + 1 < UInt32.size) : following n env = .ok (n + 1) env := by
  unfold following
  rw [if_pos h]
  rfl

theorem following_of_le (h : UInt32.size ≤ n + 1) : following n env = .error .overflow env := by
  unfold following
  rw [if_neg (Nat.not_lt.2 h)]
  rfl

theorem keeps_following {P : Environment → Prop} (n : Nat) : Keeps P (following n) := by
  intro env hP
  by_cases h : n + 1 < UInt32.size
  · rw [following_of_lt h]
    exact hP
  · rw [following_of_le (Nat.le_of_not_lt h)]
    exact hP

/-- Where a run is when an attempt begins. -/
structure Attempt where
  left : List Exchange
  number : Nat
  env : Environment

/-- The end of a run from an attempt on. -/
def Attempt.result (s : Signer) (build : Build) (deadline : Instant) (a : Attempt) :
    EStateM.Result Stop Environment Response :=
  attempts s build deadline a.left a.number a.env

/-- An attempt is throttled, and after the pause another one begins. -/
def Retries (s : Signer) (build : Build) (deadline : Instant) (a b : Attempt) : Prop :=
  ∃ x d env₁ r env₂, a.left = x :: b.left ∧ (b.number = a.number + 1 ∧ b.number < UInt32.size) ∧
    prepare s build deadline a.number a.env = .ok d env₁ ∧
    send d x b.left env₁ = .ok r env₂ ∧
    conclude d deadline a.number r env₂ = .ok none b.env

/-- How a run can go on from an attempt that has an exchange to use. -/
inductive Turn (s : Signer) (build : Build) (deadline : Instant) (x : Exchange)
    (left : List Exchange) (n : Nat) (env : Environment) :
    EStateM.Result Stop Environment Response → Prop where
  | unprepared {e : Stop} {env' : Environment} :
      prepare s build deadline n env = .error e env' →
      Turn s build deadline x left n env (.error e env')
  | unanswered {d : Departure} {env₁ env' : Environment} {e : Stop} :
      prepare s build deadline n env = .ok d env₁ → send d x left env₁ = .error e env' →
      Turn s build deadline x left n env (.error e env')
  | refused {d : Departure} {r : Response} {env₁ env₂ env' : Environment} {e : Stop} :
      prepare s build deadline n env = .ok d env₁ → send d x left env₁ = .ok r env₂ →
      conclude d deadline n r env₂ = .error e env' →
      Turn s build deadline x left n env (.error e env')
  | answered {d : Departure} {r r' : Response} {env₁ env₂ env' : Environment} :
      prepare s build deadline n env = .ok d env₁ → send d x left env₁ = .ok r env₂ →
      conclude d deadline n r env₂ = .ok (some r') env' →
      Turn s build deadline x left n env (.ok r' env')
  /-- The attempt is throttled, but the one after it would have no number. -/
  | exhausted {d : Departure} {r : Response} {env₁ env₂ env' : Environment} :
      prepare s build deadline n env = .ok d env₁ → send d x left env₁ = .ok r env₂ →
      conclude d deadline n r env₂ = .ok none env' → UInt32.size ≤ n + 1 →
      Turn s build deadline x left n env (.error .overflow env')
  | again {b : Attempt} :
      Retries s build deadline ⟨x :: left, n, env⟩ b →
      Turn s build deadline x left n env (b.result s build deadline)

theorem attempts_turn (s : Signer) (build : Build) (deadline : Instant) (x : Exchange)
    (left : List Exchange) (n : Nat) (env : Environment) :
    Turn s build deadline x left n env (attempts s build deadline (x :: left) n env) := by
  rw [attempts, bind_apply]
  cases hp : prepare s build deadline n env with
  | error e env' => exact .unprepared hp
  | ok d env₁ =>
    dsimp only
    rw [bind_apply]
    cases hs : send d x left env₁ with
    | error e env' => exact .unanswered hp hs
    | ok r env₂ =>
      dsimp only
      rw [bind_apply]
      cases hc : conclude d deadline n r env₂ with
      | error e env' => exact .refused hp hs hc
      | ok answer env₃ =>
        cases answer with
        | some r' => exact .answered hp hs hc
        | none =>
          dsimp only
          rw [bind_apply]
          by_cases hn : n + 1 < UInt32.size
          · rw [following_of_lt hn]
            exact .again (b := ⟨left, n + 1, env₃⟩)
              ⟨x, d, env₁, r, env₂, rfl, ⟨rfl, hn⟩, hp, hs, hc⟩
          · rw [following_of_le (Nat.le_of_not_lt hn)]
            exact .exhausted hp hs hc (Nat.le_of_not_lt hn)

theorem result_eq_of_retries {a b : Attempt} (h : Retries s build deadline a b) :
    a.result s build deadline = b.result s build deadline := by
  obtain ⟨x, d, env₁, r, env₂, hleft, ⟨hn, hlt⟩, hp, hs, hc⟩ := h
  unfold Attempt.result
  rw [hleft, attempts, bind_apply, hp]
  dsimp only
  rw [bind_apply, hs]
  dsimp only
  rw [bind_apply, hc]
  dsimp only
  rw [bind_apply, following_of_lt (hn ▸ hlt), hn]

/-- The first attempt of a run. -/
def first (env : Environment) : Attempt := ⟨env.transport.getD [], 1, env⟩

theorem execute_of_transport {left : List Exchange} (h : env.transport = some left) :
    execute s build deadline env = attempts s build deadline left 1 env := by
  unfold execute
  rw [bind_apply, get_apply]
  simp only [h]

theorem execute_of_no_transport (h : env.transport = none) :
    execute s build deadline env =
      match prepare s build deadline 1 env with
      | .ok d env' => .error (.failed (lost d .notConnected)) env'
      | .error e env' => .error e env' := by
  unfold execute
  rw [bind_apply, get_apply]
  simp only [h]
  rw [bind_apply]
  cases prepare s build deadline 1 env <;> rfl

/-- Without a transport there is only one attempt. -/
theorem not_retries_first (h : env.transport = none) (b : Attempt) :
    ¬ Retries s build deadline (first env) b := by
  rintro ⟨x, d, env₁, r, env₂, hleft, -⟩
  simp [first, h] at hleft

/-! ## What a whole run keeps -/

variable {P : Environment → Prop}

/-- What is left of an attempt when the pause of its resource has been heeded. -/
def dispatch (s : Signer) (n : Nat) (r : Request) : Run Departure := do
  let signed ← s.sign r
  acquire
  let message ← load n signed
  pure ⟨r.resourceKey, message⟩

theorem prepare_apply (s : Signer) (build : Build) (deadline : Instant) (n : Nat)
    (env : Environment) :
    prepare s build deadline n env =
      match build n with
      | .error e => .error (.failed e) (env.noted (.built n))
      | .ok r =>
        (heed r.resourceKey deadline >>= fun _ => dispatch s n r) (env.noted (.built n)) := by
  unfold prepare
  rw [bind_apply, note_apply]
  dsimp only
  rw [bind_apply]
  cases build n <;> rfl

/-- What an attempt leads to before its request is sent. -/
theorem leads_prepare_of {E : Environment → Prop} {R : String → Environment → Prop}
    {Q : Departure → Environment → Prop} (n : Nat)
    (built : ∀ env, P env → E (env.noted (.built n)))
    (heeds : ∀ key, Leads E (heed key deadline) (fun _ => R key) E)
    (dispatches : ∀ r, Leads (R r.resourceKey) (dispatch s n r) Q E) :
    Leads P (prepare s build deadline n) Q E :=
  Leads.bind (Q := fun _ => E) built fun _ => Leads.bind (keeps_lift (build n)) fun r =>
    (heeds r.resourceKey).bind fun _ => dispatches r

/-- What is left of an attempt leads to what its parts do; `S` is what holds when the slot has
come. -/
theorem leads_dispatch {E R S : Environment → Prop} {Q : Departure → Environment → Prop} {n : Nat}
    {r : Request} (signs : Leads R (s.sign r) (fun _ => R) E)
    (acquires : Leads R acquire (fun _ => S) E)
    (loads : ∀ signed, Leads S (load n signed) (fun m => Q ⟨r.resourceKey, m⟩) E) :
    Leads R (dispatch s n r) Q E :=
  signs.bind fun signed => acquires.bind fun _ => (loads signed).bind fun _ _ hQ => hQ

theorem keeps_load (logged : ∀ env line, P env → P (env.noted (.logged line))) (n : Nat)
    (r : Request) : Keeps P (load n r) :=
  (keeps_lift _).bind fun _ => (keeps_log logged _).bind fun _ => keeps_lift _

theorem keeps_dispatch (h : Stable P) (n : Nat) (r : Request) : Keeps P (dispatch s n r) :=
  leads_dispatch (Signer.keeps_sign h.signing s r) (keeps_acquire h) fun signed =>
    keeps_load (fun _ line hP => h.signing.lookup.logged line hP) n signed

theorem leads_prepare {E : Environment → Prop} {R : String → Environment → Prop} (n : Nat)
    (built : ∀ env, P env → E (env.noted (.built n)))
    (heeds : ∀ key, Leads E (heed key deadline) (fun _ => R key) E)
    (stable : ∀ key, Stable (R key)) (weaker : ∀ key env, R key env → E env) :
    Leads P (prepare s build deadline n) (fun d => R d.key) E := by
  refine leads_prepare_of n built heeds fun r => ?_
  have stays {α : Type} {x : Run α} (h : Keeps (R r.resourceKey) x) :
      Leads (R r.resourceKey) x (fun _ => R r.resourceKey) E :=
    h.mono (fun _ hR => hR) (fun _ _ hR => hR) fun env hR => weaker r.resourceKey env hR
  have kept := stable r.resourceKey
  exact leads_dispatch (stays (Signer.keeps_sign kept.signing s r)) (stays (keeps_acquire kept))
    fun signed => stays (keeps_load (fun _ line hP => kept.signing.lookup.logged line hP) n signed)

/-- An assertion that every part of an attempt keeps holds after a whole run. -/
theorem keeps_execute {Q : Departure → Environment → Prop}
    (prepares : ∀ n, Leads P (prepare s build deadline n) Q P)
    (sends : ∀ d x left, Leads (Q d) (send d x left) (fun _ => P) P)
    (weaker : ∀ d env, Q d env → P env)
    (concludes : ∀ d n r, Keeps P (conclude d deadline n r)) :
    Keeps P (execute s build deadline) := by
  have kept : ∀ xs n, Keeps P (attempts s build deadline xs n) := by
    intro xs
    induction xs with
    | nil => exact fun n => (prepares n).bind fun d => sends d _ _
    | cons x left ih =>
      intro n
      refine (prepares n).bind fun d => (sends d x left).bind fun r =>
        Leads.bind (concludes d n r) fun answer => ?_
      cases answer with
      | some r => exact keeps_pure r
      | none => exact (keeps_following n).bind ih
  refine leads_get.bind ?_
  rintro env env' ⟨rfl, hP⟩
  cases env.transport with
  | some xs => exact kept xs 1 env hP
  | none => exact (prepares 1).bind (fun d env hQ => weaker d env hQ) env hP

/-- A request without a body, query or headers. -/
def bare : Request where
  method := ⟨"GET", Eq.refl true⟩
  scheme := "https"
  authority := "host"
  path := "/"

/-- An answer that says to come back after a second. -/
def inOneSecond : Response where
  status := .tooManyRequests
  headers := ⟨[(Header.retryAfter, .ofText "1" (by decide))]⟩
  body := []

end Executor
end SignedHttp

import SignedHttp.Proofs.Executor.Progress
import SignedHttp.Proofs.Retry.After

/-!
# SignedHttp.Proofs.Executor.Bound

How many requests a run sends (`execute_bounded`). There is no limit on the number of retries, so
what bounds them is what each of them uses up: an exchange of the transport, and, if every answer
that says to come back later says after how many seconds, a second of the time until the deadline.

* `Shrinks`: among attempts with `I`, which a retry keeps, a retry lowers `measure`.
* `sends_le`: a run sends no more requests than its measure says, and one.
-/

namespace SignedHttp
namespace Executor

open Run

variable {s : Signer} {build : Build} {deadline : Instant} {env : Environment} {a b : Attempt}

/-! ## What a measure bounds -/

def Shrinks (s : Signer) (build : Build) (deadline : Instant) (I : Attempt → Prop)
    (measure : Attempt → Nat) : Prop :=
  ∀ a b, I a → Retries s build deadline a b → I b ∧ measure b < measure a

/-- What is sent in an attempt that gets as far as sending. -/
theorem sends_prepared {n : Nat} {d : Departure} {env₁ env' : Environment} {tail : List Event}
    (hp : prepare s build deadline n env = .ok d env₁)
    (htail : env'.trace = env₁.trace ++ .sent d.key d.message env₁.clock.now :: tail)
    (silent : Event.sends tail = 0) : Since env (fun es => Event.sends es = 1) env' := by
  obtain ⟨front, hfront, quiet⟩ := since_prepared hp
  refine ⟨front ++ ([.sent d.key d.message env₁.clock.now] ++ tail), by simp [htail, hfront], ?_⟩
  dsimp only
  rw [Event.sends_append, Event.sends_append, quiet, silent]
  rfl

theorem sends_retry (h : Retries s build deadline a b) :
    Since a.env (fun es => Event.sends es = 1) b.env := by
  obtain ⟨x, d, env₁, r, env₂, -, -, hp, hs, hc⟩ := h
  obtain ⟨tail, htail, silent⟩ := since_answered deadline a.number hs
  rw [hc] at htail
  exact sends_prepared hp htail silent

/-- The attempt that is retried has sent one request, and the measure pays for it. -/
theorem sends_le {I : Attempt → Prop} {measure : Attempt → Nat}
    (h : Shrinks s build deadline I measure) (a : Attempt) (hI : I a) :
    Since a.env (fun es => Event.sends es ≤ measure a + 1) (final (a.result s build deadline)) := by
  cases onward_result s build deadline a with
  | silent unsent =>
    obtain ⟨es, htrace, none⟩ := unsent
    exact ⟨es, htrace, Nat.le_trans (Nat.le_of_eq none) (Nat.zero_le _)⟩
  | last hp htail silent =>
    obtain ⟨es, htrace, one⟩ := sends_prepared hp htail silent
    exact ⟨es, htrace, Nat.le_trans (Nat.le_of_eq one) (Nat.le_add_left 1 _)⟩
  | @again b retries hfinal =>
    -- the request of this attempt is paid for by what the measure loses
    obtain ⟨hI', less⟩ := h a b hI retries
    obtain ⟨front, hfront, sent⟩ := sends_retry retries
    obtain ⟨es, htrace, rest⟩ := sends_le h b hI'
    refine ⟨front ++ es, by rw [hfinal, htrace, hfront, List.append_assoc], ?_⟩
    dsimp only at sent rest ⊢
    rw [Event.sends_append, sent]
    omega
termination_by a.left.length
decreasing_by exact length_of_retries retries

theorem execute_sends_le {I : Attempt → Prop} {measure : Attempt → Nat}
    (h : Shrinks s build deadline I measure) (hI : I (first env)) :
    Event.sends ((execute s build deadline).events env) ≤ measure (first env) + 1 := by
  have bounded : Since env (fun es => Event.sends es ≤ measure (first env) + 1)
      ((execute s build deadline).leaves env) := by
    rcases leaves_execute s build deadline env with hfirst | ⟨es, htrace, silent⟩
    · rw [hfirst]
      exact sends_le h (first env) hI
    · exact ⟨es, htrace, Nat.le_trans (Nat.le_of_eq silent) (Nat.zero_le _)⟩
  obtain ⟨es, htrace, hes⟩ := bounded
  rw [events_eq htrace]
  exact hes

/-! ## What a retry uses up -/

theorem shrinks_exchanges :
    Shrinks s build deadline (fun _ => True) fun a => a.left.length :=
  fun _ _ _ retries => ⟨trivial, length_of_retries retries⟩

/-- If an answer says to come back later, it says after how many seconds, and that is not at
once. -/
def NamesSeconds (r : Response) : Prop :=
  r.status = .tooManyRequests →
    ∃ text secs, retryAfter? r = some text ∧
      RetryAfter.delay? (Text.trim text.toList) = some secs ∧ 1 ≤ secs

/-- No leap second is near, and every answer to come that asks for a pause names the seconds. -/
structure Paid (deadline : Instant) (a : Attempt) : Prop where
  now : a.env.clock.now.isLeap = false
  deadline : deadline.isLeap = false
  names : ∀ x ∈ a.left, ∀ r, x.reply = .ok r → NamesSeconds r

def secondsLeft (deadline : Instant) (a : Attempt) : Nat :=
  (deadline.minus a.env.clock.now / 1000000000).toNat

/-- A retry comes at least a second later, and not past the deadline. -/
theorem second_of_retries (h : Retries s build deadline a b) (paid : Paid deadline a) :
    a.env.clock.now.value + 1000000000 ≤ b.env.clock.now.value ∧
      a.env.clock.now.value + 1000000000 ≤ deadline.value ∧ b.env.clock.now.isLeap = false := by
  obtain ⟨x, d, env₁, r, env₂, hleft, -, hp, hs, hc⟩ := h
  obtain ⟨-, before, c, delay, line, -, -, -, prepared, -⟩ := prepare_eq_ok hp
  obtain ⟨hreply, clock, hclock, rfl⟩ := send_eq_ok hs
  obtain ⟨throttled, resumeAt, hresume, hw⟩ := conclude_eq_again hc
  have answered := prepared.trans (replied_passes d b.left hclock)
  have hnow : clock.now.isLeap = false := answered.civil paid.now
  have later : a.env.clock.now.value ≤ clock.now.value :=
    (Instant.le_iff_value paid.now hnow).1 answered.later
  obtain ⟨text, secs, htext, hsecs, one⟩ :=
    paid.names x (hleft ▸ List.mem_cons_self) r hreply throttled
  -- the pause ends that many seconds after the answer
  have announced : clock.now.add? (.ofSecs secs) = some resumeAt := by
    have resumed : resume? r clock.now = some resumeAt := hresume
    unfold resume? at resumed
    rw [htext, Option.bind_some, RetryAfter.resume?_of_delay hsecs] at resumed
    exact resumed
  obtain ⟨hvalue, civil⟩ := Instant.value_of_add? hnow announced
  obtain ⟨within, -⟩ := waitOut_eq_ok hw
  have early := (Instant.le_iff_value civil paid.deadline).1 (Instant.not_lt.1 within)
  obtain ⟨⟨waits, waited, -⟩, ended⟩ := waitOut_passes hw
  have hb : b.env.clock.now.isLeap = false := waited.civil hnow
  have ended := (Instant.le_iff_value civil hb).1 (ended hnow civil)
  have seconds : (Duration.ofSecs secs).ns = secs * 1000000000 := by
    simp [Duration.ofSecs, Duration.ofParts]
  refine ⟨?_, ?_, hb⟩ <;> omega

theorem shrinks_seconds : Shrinks s build deadline (Paid deadline) (secondsLeft deadline) := by
  intro a b paid retries
  obtain ⟨later, within, hb⟩ := second_of_retries retries paid
  obtain ⟨x, d, env₁, r, env₂, hleft, -⟩ := retries
  refine ⟨⟨hb, paid.deadline, fun x' hx' => paid.names x' (hleft ▸ List.mem_cons_of_mem x hx')⟩, ?_⟩
  unfold secondsLeft
  rw [Instant.minus_eq paid.deadline hb, Instant.minus_eq paid.deadline paid.now]
  omega

/-- A run ends, after one request more than there are exchanges at most. If every answer that asks
for a pause names the seconds, it sends one request more than there are seconds until the deadline
at most, however long the transport goes on. -/
theorem execute_bounded (s : Signer) (build : Build) (deadline : Instant) (env : Environment) :
    Event.sends ((execute s build deadline).events env) ≤ (env.transport.getD []).length + 1 ∧
    (env.clock.now.isLeap = false → deadline.isLeap = false →
      (∀ x ∈ env.transport.getD [], ∀ r, x.reply = .ok r → NamesSeconds r) →
      (Event.sends ((execute s build deadline).events env) : Int) ≤
        max 0 (deadline.minus env.clock.now / 1000000000) + 1) := by
  refine ⟨execute_sends_le shrinks_exchanges trivial, fun hnow hdeadline names => ?_⟩
  have bound : Event.sends ((execute s build deadline).events env) ≤
      secondsLeft deadline (first env) + 1 :=
    execute_sends_le shrinks_seconds ⟨hnow, hdeadline, names⟩
  have seconds : secondsLeft deadline (first env) =
      (deadline.minus env.clock.now / 1000000000).toNat := rfl
  omega

def alwaysLater : Environment where
  clock := { now := .atSecond 0 }
  transport := some (List.replicate 4 { reply := .ok inOneSecond })

/-- In two seconds there is time for three requests, no matter how many answers are to come. -/
theorem alwaysLater_bounded :
    Event.sends ((execute { scheme := .bearer } (fun _ => .ok bare) (.atSecond 2)).events
      alwaysLater) = 3 ∧
    (Event.sends ((execute { scheme := .bearer } (fun _ => .ok bare) (.atSecond 2)).events
      alwaysLater) : Int) ≤
        max 0 ((Instant.atSecond 2).minus alwaysLater.clock.now / 1000000000) + 1 := by
  refine ⟨by decide +kernel, (execute_bounded { scheme := .bearer } (fun _ => .ok bare)
    (.atSecond 2) alwaysLater).2 rfl rfl fun x hx r hr => ?_⟩
  rw [List.eq_of_mem_replicate hx] at hr
  cases hr
  exact fun _ => ⟨"1", 1, by decide, by decide, Nat.le_refl 1⟩

end Executor
end SignedHttp

import SignedHttp.Proofs.Executor.Progress

/-!
# SignedHttp.Proofs.Executor.Expiry

What can be said of the expiry of the credentials that requests carry (`execute_carriesValid`). If
every credential is valid when the source gives it, then a request is signed with one that is valid
at that instant. After that the request waits for the limiter, and nothing looks at the credential
again. It is still valid when the request is sent if it does not expire before the slot comes, but
only then (`slowSlot_expires`).
-/

namespace SignedHttp

namespace Event

/-- If a credential is given at an instant, it is valid then. -/
def isFresh (now : Instant) : Event → Bool
  | .cached (some c) => c.isValid now
  | .cached none | .logged _ | .asked _ | .consulted _ _ | .slept _ _ _ | .built _ | .signed _
  | .sent _ _ _ | .returned _ _ | .paused _ _ | .cleared _ => true

/-- Every credential is valid when the source gives it. -/
def fresh (now : Instant) : List Event → Bool
  | [] => true
  | e :: es => e.isFresh now && fresh (e.instant?.getD now) es

/-- The credential that was last signed with. -/
def inHand (c : Option Credential) : List Event → Option Credential
  | [] => c
  | .signed c' :: es => inHand c' es
  | _ :: es => inHand c es

/-- The messages that are sent, each with the credential that it was signed with and the time. -/
def carried (c : Option Credential) : List Event → List (Option Credential × Message × Instant)
  | [] => []
  | .signed c' :: es => carried c' es
  | .sent _ m t :: es => (c, m, t) :: carried c es
  | _ :: es => carried c es

variable {now : Instant} {c c' : Option Credential} {es es' : List Event}

theorem fresh_append :
    fresh now (es ++ es') = (fresh now es && fresh (present now es) es') := by
  induction es generalizing now with
  | nil => rfl
  | cons e es ih => simp only [List.cons_append, fresh, ih, present, Bool.and_assoc]

theorem isValid_of_fresh {pre post : List Event} {credential : Credential}
    (h : fresh now (pre ++ .cached (some credential) :: post) = true) :
    credential.isValid (present now pre) = true := by
  rw [fresh_append, fresh, Bool.and_eq_true, Bool.and_eq_true] at h
  exact h.2.1

theorem inHand_append : inHand c (es ++ es') = inHand (inHand c es) es' := by
  induction es generalizing c with
  | nil => rfl
  | cons e es ih => cases e <;> exact ih

theorem exists_of_mem_carried {m : Message} {t : Instant} (h : (c, m, t) ∈ carried c' es) :
    ∃ pre key post, es = pre ++ .sent key m t :: post ∧ inHand c' pre = c := by
  induction es generalizing c' with
  | nil => cases h
  | cons e es ih =>
    have later {c₀ : Option Credential} (hmem : (c, m, t) ∈ carried c₀ es)
        (hhand : ∀ pre, inHand c' (e :: pre) = inHand c₀ pre) :
        ∃ pre key post, e :: es = pre ++ .sent key m t :: post ∧ inHand c' pre = c := by
      obtain ⟨pre, key, post, rfl, hc⟩ := ih hmem
      exact ⟨e :: pre, key, post, rfl, by rw [hhand, hc]⟩
    cases e with
    | signed credential => exact later h fun _ => rfl
    | sent key m' t' =>
      rcases List.mem_cons.1 h with heq | hmem
      · cases heq
        exact ⟨[], key, es, rfl, rfl⟩
      · exact later hmem fun _ => rfl
    | _ => exact later h fun _ => rfl

end Event

namespace Run

/-- Nothing is signed while a request waits for the limiter. -/
theorem inHand_of_delay {signedAt t : Instant} {delay : List Event} (h : Delay signedAt delay t)
    (line : Log.Line) (c : Option Credential) :
    Event.inHand c (delay ++ [.logged line]) = c := by
  cases h <;> rfl

end Run

namespace Signer

/-- The credential that a request is signed with is valid if the source gives only valid ones. -/
theorem Supplied.isValid {start : Instant} {before : List Event} {c : Credential}
    (h : Supplied (some c) before (Event.present start before))
    (fresh : Event.fresh start before = true) :
    c.isValid (Event.present start before) = true := by
  rcases h with usable | ⟨asked, lines, rfl⟩
  · exact usable
  · have given := Event.isValid_of_fresh fresh
    have still : Event.present start (asked ++ .cached (some c) :: lines.map .logged) =
        Event.present start asked := by
      rw [Event.present_append]
      exact Event.present_lines lines
    rw [still]
    exact given

end Signer

theorem Credential.isValid_iff_of_isValid {c : Credential} {now t : Instant}
    (h : c.isValid now = true) : c.isValid t = true ↔ Credential.precedes t c.expiresAt = true := by
  unfold isValid at *
  rw [(Bool.and_eq_true_iff.1 h).1, Bool.true_and]

namespace Executor

open Run

/-- A request carries a credential that is valid when it is signed, and when it is sent unless it
expires while the request waits for the limiter. -/
theorem execute_carriesValid (s : Signer) (build : Build) (deadline : Instant) (env : Environment)
    (fresh : Event.fresh env.clock.now ((execute s build deadline).events env) = true)
    {c : Credential} {m : Message} {t : Instant}
    (h : (some c, m, t) ∈ Event.carried none ((execute s build deadline).events env)) :
    ∃ before delay line key post signedAt r r₁,
      (execute s build deadline).events env =
        before ++ .signed (some c) :: (delay ++ .logged line :: .sent key m t :: post) ∧
      signedAt = Event.present env.clock.now before ∧
      s.scheme.sign signedAt (some c) r = ⟨.ok (), r₁⟩ ∧ r₁.message = .ok m ∧
      c.isValid signedAt = true ∧ Delay signedAt delay t ∧
      (c.isValid t = true ↔ Credential.precedes t c.expiresAt = true) ∧
      (delay = [] → c.isValid t = true) := by
  obtain ⟨pre, key, post, hes, hhand⟩ := Event.exists_of_mem_carried h
  obtain ⟨r, before, c', delay, line, -, -, -, -, hpre, dispatch, -⟩ := dispatch_of_sent hes
  obtain ⟨r₁, hsign, hm⟩ := dispatch.carries
  have same : c' = some c := by
    rw [hpre, Event.inHand_append] at hhand
    exact (inHand_of_delay dispatch.delay line c').symm.trans hhand
  subst same
  have valid : c.isValid (Event.present env.clock.now before) = true := by
    refine dispatch.supplied.isValid ?_
    rw [hes, hpre, List.append_assoc, Event.fresh_append, Bool.and_eq_true] at fresh
    exact fresh.1
  refine ⟨before, delay, line, key, post, _, r, r₁, by rw [hes, hpre]; simp, rfl, hsign, hm, valid,
    dispatch.delay, Credential.isValid_iff_of_isValid valid, fun hdelay => ?_⟩
  have atOnce : t = Event.present env.clock.now before := by
    have delayed := dispatch.delay
    rw [hdelay] at delayed
    cases delayed
    rfl
  rw [atOnce]
  exact valid

/-- A token that expires after five seconds. -/
def shortLived : Credential := .bearerToken "short" (some (.atSecond 5)) none []

/-- The source gives the token, and the limiter has no slot for some seconds. -/
def slowSlot (seconds : Nat) : Environment where
  clock := { now := .atSecond 0 }
  supplies := [[{ answer := .ok (some shortLived) }]]
  limiter := some { interval := .ofSecs 1, nextSlot := some (.atSecond seconds) }
  transport := some [{ reply := .ok ⟨⟨200⟩, {}, []⟩ }]

def tokenHolder : Signer where
  scheme := .bearer
  provider := .refresh 0

def slowRun (seconds : Nat) : List Event :=
  (execute tokenHolder (fun _ => .ok bare) (.atSecond 60)).events (slowSlot seconds)

/-- A token that has not expired when the slot comes is still valid when the request is sent. -/
theorem slowSlot_carriesValid :
    Event.fresh (slowSlot 3).clock.now (slowRun 3) = true ∧
    ∃ m, (some shortLived, m, .atSecond 3) ∈ Event.carried none (slowRun 3) ∧
      shortLived.isValid (.atSecond 3) = true := by
  have run : Event.fresh (slowSlot 3).clock.now (slowRun 3) = true ∧
      (Event.carried none (slowRun 3)).map (fun p => (p.1, p.2.2)) =
        [(some shortLived, .atSecond 3)] := by
    decide +kernel
  obtain ⟨⟨c, m, t⟩, hmem, heq⟩ :=
    List.mem_map.1 (run.2 ▸ List.mem_singleton_self (some shortLived, Instant.atSecond 3))
  cases heq
  obtain ⟨-, -, -, -, -, -, -, -, -, -, -, -, -, -, iff, -⟩ :=
    execute_carriesValid tokenHolder (fun _ => .ok bare) (.atSecond 60) (slowSlot 3) run.1 hmem
  exact ⟨run.1, m, hmem, iff.2 (by decide)⟩

/-- A request can be sent with a token that has expired meanwhile. -/
theorem slowSlot_expires :
    tokenHolder.scheme = .bearer ∧
    Event.fresh (slowSlot 10).clock.now (slowRun 10) = true ∧
    ∃ m, (some shortLived, m, .atSecond 10) ∈ Event.carried none (slowRun 10) ∧
      (m.headers.first? Header.authorization).bind (·.text?) = some "Bearer short" ∧
      shortLived.isValid (.atSecond 10) = false := by
  have run : Event.fresh (slowSlot 10).clock.now (slowRun 10) = true ∧
      (Event.carried none (slowRun 10)).map (fun p =>
        (p.1, (p.2.1.headers.first? Header.authorization).bind (·.text?), p.2.2)) =
        [(some shortLived, some "Bearer short", .atSecond 10)] := by
    decide +kernel
  obtain ⟨⟨c, m, t⟩, hmem, heq⟩ := List.mem_map.1 (run.2 ▸ List.mem_singleton_self
    (some shortLived, some "Bearer short", Instant.atSecond 10))
  simp only [Prod.mk.injEq] at heq
  obtain ⟨rfl, proof, rfl⟩ := heq
  exact ⟨rfl, run.1, m, hmem, proof, by decide⟩

end Executor
end SignedHttp

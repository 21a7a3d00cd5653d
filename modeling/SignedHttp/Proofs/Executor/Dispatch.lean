import SignedHttp.Proofs.Executor.Replies
import SignedHttp.Proofs.Run.Present

/-!
# SignedHttp.Proofs.Executor.Dispatch

What an attempt does before its request is sent (`prepare_eq_ok`). The request is built, the pause
of its resource is waited out, it is signed with a credential that can be used at that instant or
that the source has just given (`Signer.Supplied`), and then nothing but the limiter delays it
(`Dispatch`).
-/

namespace SignedHttp

namespace Event

/-- Something that happens between building a request and sending it. -/
def isInterim : Event → Bool
  | .logged _ | .asked _ | .consulted _ _ | .cached _ | .slept _ _ _ | .signed _ => true
  | .built _ | .sent _ _ _ | .returned _ _ | .paused _ _ | .cleared _ => false

def isSent : Event → Bool
  | .sent _ _ _ => true
  | .logged _ | .asked _ | .consulted _ _ | .cached _ | .slept _ _ _ | .built _ | .signed _
  | .returned _ _ | .paused _ _ | .cleared _ => false

/-- How many requests have been sent. -/
def sends (es : List Event) : Nat := es.countP isSent

def attempt? : Event → Option Nat
  | .built n => some n
  | .logged _ | .asked _ | .consulted _ _ | .cached _ | .slept _ _ _ | .signed _ | .sent _ _ _
  | .returned _ _ | .paused _ _ | .cleared _ => none

/-- The attempts for which a request has been built. -/
def builds (es : List Event) : List Nat := es.filterMap attempt?

@[simp] theorem sends_append (es es' : List Event) : sends (es ++ es') = sends es + sends es' :=
  List.countP_append

@[simp] theorem builds_append (es es' : List Event) :
    builds (es ++ es') = builds es ++ builds es' := List.filterMap_append

theorem notMem_of_sends {es : List Event} (h : sends es = 0) (key : String) (m : Message)
    (t : Instant) : .sent key m t ∉ es := by
  intro hmem
  exact absurd rfl (List.countP_eq_zero.1 h _ hmem)

/-- Every request that is sent has its place among the events. -/
theorem exists_sent {es : List Event} {n : Nat} (h : n < sends es) :
    ∃ pre key m t post, es = pre ++ .sent key m t :: post ∧ sends pre = n := by
  induction es generalizing n with
  | nil => cases h
  | cons e es ih =>
    have rest {k : Nat} (hk : k < sends es) (hn : sends [e] + k = n) :
        ∃ pre key m t post, e :: es = pre ++ .sent key m t :: post ∧ sends pre = n := by
      obtain ⟨pre, key, m, t, post, rfl, hpre⟩ := ih hk
      refine ⟨[e] ++ pre, key, m, t, post, rfl, ?_⟩
      rw [sends_append, hpre, hn]
    have split : sends [e] + sends es = sends (e :: es) := (sends_append [e] es).symm
    cases e with
    | sent key m t =>
      have one : sends [.sent key m t] = 1 := rfl
      cases n with
      | zero => exact ⟨[], key, m, t, es, rfl, rfl⟩
      | succ k =>
        rw [one] at split rest
        exact rest (by omega) (Nat.add_comm 1 k)
    | _ => exact rest h (Nat.zero_add n)

def IsInterim (es : List Event) : Prop := ∀ e ∈ es, e.isInterim = true

variable {es es' : List Event}

theorem isInterim_nil : IsInterim [] := by simp [IsInterim]

theorem IsInterim.cons {e : Event} (he : e.isInterim = true) (h : IsInterim es) :
    IsInterim (e :: es) := by
  intro e' he'
  rcases List.mem_cons.1 he' with rfl | he'
  · exact he
  · exact h e' he'

theorem IsInterim.append (h : IsInterim es) (h' : IsInterim es') : IsInterim (es ++ es') := by
  intro e he
  rcases List.mem_append.1 he with he | he
  · exact h e he
  · exact h' e he

theorem isInterim_lines (lines : List Log.Line) : IsInterim (lines.map .logged) := by
  intro e he
  obtain ⟨line, -, rfl⟩ := List.mem_map.1 he
  rfl

theorem isInterim_of_isRoutine (h : Run.IsRoutine es) : IsInterim es := by
  intro e he
  have routine := h e he
  cases e <;> first | rfl | cases routine

theorem isInterim_of_delay {t t' : Instant} (h : Run.Delay t es t') : IsInterim es := by
  cases h with
  | none => exact isInterim_nil
  | slot _ _ => exact .cons rfl (.cons rfl isInterim_nil)

theorem IsInterim.sends (h : IsInterim es) : Event.sends es = 0 := by
  refine List.countP_eq_zero.2 fun e he hsent => ?_
  cases e with
  | sent key m t => cases h _ he
  | _ => cases hsent

theorem IsInterim.builds (h : IsInterim es) : Event.builds es = [] := by
  refine List.filterMap_eq_nil_iff.2 fun e he => ?_
  cases e with
  | built n => cases h _ he
  | _ => rfl

theorem IsInterim.replies (h : IsInterim es) : Event.replies es = [] := by
  refine replies_eq_nil fun reply t he => ?_
  cases h _ he

end Event

namespace Signer

open Run

variable {s : Signer} {r r₁ : Request} {c : Option Credential} {env env' : Environment}

/-- A credential can be used at an instant, or the source has just given it. -/
def Supplied (c : Option Credential) (es : List Event) (t : Instant) : Prop :=
  Credential.usable c t = true ∨
    ∃ (asked : List Event) (lines : List Log.Line), es = asked ++ .cached c :: lines.map .logged

theorem Supplied.prepend {es : List Event} {t : Instant} (front : List Event)
    (h : Supplied c es t) : Supplied c (front ++ es) t := by
  rcases h with usable | ⟨asked, lines, rfl⟩
  · exact .inl usable
  · exact .inr ⟨front ++ asked, lines, by rw [List.append_assoc]⟩

theorem refresh_eq_ok (h : s.refresh env = .ok c env') :
    ∃ asked, Passes env (asked ++ [.cached c]) env' ∧ IsRoutine asked := by
  obtain ⟨⟨⟩, env₁, hlog, h⟩ := bind_eq_ok h
  obtain ⟨start, mid, hget, h⟩ := bind_eq_ok h
  cases hget
  obtain ⟨fresh, env₂, hask, h⟩ := bind_eq_ok h
  obtain ⟨⟨⟩, env₃, hstore, h⟩ := bind_eq_ok h
  obtain ⟨⟨⟩, env₄, hnote, h⟩ := bind_eq_ok h
  cases hstore
  obtain rfl := note_eq_ok hnote
  cases h
  have logged : Spends env IsRoutine env₁ :=
    ((stable_routine env).keeps_log _).ok (spends_refl env) hlog
  obtain ⟨asked, passes, routine⟩ : Spends env IsRoutine env₂ :=
    (keeps_ask (stable_routine env).signing.lookup s env₁.cache).ok logged hask
  exact ⟨asked, passes.trans (.still (Environment.noted_trace _ _) rfl rfl), routine⟩

theorem credential_eq_ok (h : s.credential env = .ok c env') :
    ∃ es, Passes env es env' ∧ Event.IsInterim es ∧
      (Credential.usable c env'.clock.now = true ∨ ∃ asked, es = asked ++ [.cached c]) := by
  obtain ⟨start, mid, hget, h⟩ := bind_eq_ok h
  cases hget
  by_cases hu : Credential.usable env.cache env.clock.now = true
  · rw [if_pos hu] at h
    cases h
    exact ⟨[], .refl env, Event.isInterim_nil, .inl hu⟩
  · rw [if_neg hu] at h
    obtain ⟨asked, passes, routine⟩ := refresh_eq_ok h
    exact ⟨_, passes,
      (Event.isInterim_of_isRoutine routine).append (.cons rfl Event.isInterim_nil),
      .inr ⟨asked, rfl⟩⟩

theorem sign_eq_ok (h : s.sign r env = .ok r₁ env') :
    ∃ before c, Passes env (before ++ [.signed c]) env' ∧ Event.IsInterim before ∧
      Supplied c before env'.clock.now ∧
      s.scheme.sign env'.clock.now c r = ⟨.ok (), r₁⟩ := by
  obtain ⟨c, env₁, hcredential, h⟩ := bind_eq_ok h
  obtain ⟨now, mid, hnow, h⟩ := bind_eq_ok h
  cases hnow
  obtain ⟨⟨⟩, env₂, hlog, h⟩ := bind_eq_ok h
  obtain ⟨es, passes, interim, supplied⟩ := credential_eq_ok hcredential
  have logged := Passes.log hlog
  have still : env₂.clock.now = env₁.clock.now := by rw [logged.now, Event.present_lines]
  dsimp only at h
  cases hresult : (s.scheme.sign env₁.clock.now c r).result with
  | error e =>
    rw [hresult] at h
    cases h
  | ok =>
    rw [hresult] at h
    obtain ⟨⟨⟩, env₃, hnote, h⟩ := bind_eq_ok h
    obtain rfl := note_eq_ok hnote
    cases h
    refine ⟨es ++ _, c, (passes.trans logged).trans (.noted rfl),
      interim.append (Event.isInterim_lines _), ?_, ?_⟩
    · rw [Environment.noted_clock, still]
      rcases supplied with usable | ⟨asked, rfl⟩
      · exact .inl usable
      · exact .inr ⟨asked, _, by rw [List.append_assoc]; rfl⟩
    · rw [Environment.noted_clock, still, ← hresult]

end Signer

namespace Executor

open Run

variable {s : Signer} {build : Build} {deadline : Instant} {env env' env₁ : Environment}

/-! ## What an attempt does before its request is sent -/

theorem waitOut_passes {label : String} {pause : Throttle}
    (h : waitOut label pause deadline env = .ok () env') :
    (∃ es, Passes env es env' ∧ Event.IsInterim es) ∧
    (env.clock.now.isLeap = false → pause.resumeAt.isLeap = false →
      pause.resumeAt ≤ env'.clock.now) := by
  obtain ⟨-, ⟨ended, rfl⟩ | ⟨line, clock, running, hsleep, rfl⟩⟩ := waitOut_eq_ok h
  · refine ⟨⟨[], .refl _, Event.isInterim_nil⟩, fun hnow hpause => ?_⟩
    exact (Instant.remaining_eq_zero hpause hnow).1 ended
  · refine ⟨⟨_, (Passes.logged line).trans (.woken hsleep),
      .cons rfl (.cons rfl Event.isInterim_nil)⟩, fun hnow hpause => ?_⟩
    have moved := Clock.now_of_sleep? hsleep
    rw [Instant.add?_remaining hpause hnow (Instant.le_of_remaining hpause hnow running)] at moved
    rw [Environment.woken_clock, ← Option.some.inj moved]
    exact Instant.le_refl _

theorem heed_passes {key : String} (h : heed key deadline env = .ok () env') :
    ∃ es, Passes env es env' ∧ Event.IsInterim es := by
  rw [heed_apply] at h
  cases hp : (env.throttles.pending key env.clock.now).1 with
  | none =>
    rw [hp] at h
    cases h
    exact ⟨[], .still (by simp [Environment.trace]) rfl rfl, Event.isInterim_nil⟩
  | some pause =>
    rw [hp] at h
    obtain ⟨es, passes, interim⟩ := (waitOut_passes h).1
    have dropped : Passes env []
        { env with throttles := (env.throttles.pending key env.clock.now).2 } :=
      .still (by simp [Environment.trace]) rfl rfl
    exact ⟨es, dropped.trans passes, interim⟩

theorem load_eq_ok {n : Nat} {r : Request} {m : Message} (h : load n r env = .ok m env') :
    (∃ line, Passes env [.logged line] env') ∧ r.message = .ok m := by
  obtain ⟨uri, env₁, huri, h⟩ := bind_eq_ok h
  obtain ⟨⟨⟩, env₂, hlog, hmessage⟩ := bind_eq_ok h
  obtain ⟨-, rfl⟩ := lift_eq_ok huri
  obtain ⟨hm, rfl⟩ := lift_eq_ok hmessage
  exact ⟨⟨_, .log hlog⟩, hm⟩

/-- How a message comes to be sent at `t`: after the events `before` the request `r` is signed with
the credential `c`, and then it waits for the limiter. -/
structure Dispatch (s : Signer) (r : Request) (before : List Event) (signedAt : Instant)
    (c : Option Credential) (delay : List Event) (m : Message) (t : Instant) : Prop where
  supplied : Signer.Supplied c before signedAt
  carries : ∃ r₁, s.scheme.sign signedAt c r = ⟨.ok (), r₁⟩ ∧ r₁.message = .ok m
  delay : Delay signedAt delay t

theorem prepare_eq_ok {n : Nat} {d : Departure} (h : prepare s build deadline n env = .ok d env₁) :
    ∃ r before c delay line signedAt, build n = .ok r ∧ d.key = r.resourceKey ∧
      Passes env (.built n :: (before ++ .signed c :: (delay ++ [.logged line]))) env₁ ∧
      Event.IsInterim (before ++ .signed c :: (delay ++ [.logged line])) ∧
      signedAt = Event.present env.clock.now before ∧ env.clock.now ≤ signedAt ∧
      Dispatch s r before signedAt c delay d.message env₁.clock.now := by
  obtain ⟨⟨⟩, envBuilt, hnote, h⟩ := bind_eq_ok h
  obtain ⟨r, mid, hlift, h⟩ := bind_eq_ok h
  obtain ⟨⟨⟩, envHeeded, hheed, h⟩ := bind_eq_ok h
  obtain ⟨r₁, envSigned, hsign, h⟩ := bind_eq_ok h
  obtain ⟨⟨⟩, envFree, hacquire, h⟩ := bind_eq_ok h
  obtain ⟨m, mid', hload, h⟩ := bind_eq_ok h
  cases h
  obtain rfl := note_eq_ok hnote
  obtain ⟨hr, rfl⟩ := lift_eq_ok hlift
  obtain ⟨waits, waited, quiet⟩ := heed_passes hheed
  obtain ⟨before, c, signed, interim, supplied, carries⟩ := Signer.sign_eq_ok hsign
  obtain ⟨delay, acquired, delayed⟩ := acquire_eq_ok hacquire
  obtain ⟨⟨line, loaded⟩, hm⟩ := load_eq_ok hload
  have heeded : Passes env (.built n :: waits) envHeeded := (Passes.noted rfl).trans waited
  have whole := heeded.trans (signed.trans (acquired.trans loaded))
  have signedAt : envSigned.clock.now = Event.present env.clock.now (waits ++ before) := by
    rw [(heeded.trans signed).now]
    simp [Event.present, Event.instant?]
  have tail : Event.IsInterim (.signed c :: (delay ++ [.logged line])) :=
    .cons rfl ((Event.isInterim_of_delay delayed).append (.cons rfl Event.isInterim_nil))
  refine ⟨r, waits ++ before, c, delay, line, envSigned.clock.now, hr, rfl, ?_,
    (quiet.append interim).append tail, signedAt, (heeded.trans signed).later,
    ⟨supplied.prepend waits, ⟨r₁, carries, hm⟩, ?_⟩⟩
  · simpa using whole
  · have still : env₁.clock.now = envFree.clock.now := loaded.now
    rw [still]
    exact delayed

end Executor
end SignedHttp

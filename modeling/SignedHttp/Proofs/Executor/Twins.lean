import SignedHttp.Proofs.Executor.Lockstep

/-!
# SignedHttp.Proofs.Executor.Twins

Two runs that differ in nothing but secrets. They start in environments that are the same but for
the credentials in the cache and in the supplies (`Environment.Akin`), and whatever happens in one
of them happens in the other, except for secrets and for what they do to requests (`Event.Akin`).
`Twins` is the relation that holds all the way (`abreast_twins`), whatever may differ, and
`ends_of_twins` is what two such runs have in common when they are over.
-/

namespace SignedHttp

variable {L : Likeness} {G : Guise}

/-- Environments that are the same but for secrets. What has happened in them does not matter. -/
structure Environment.Akin (L : Likeness) (env₁ env₂ : Environment) : Prop where
  clock : env₁.clock = env₂.clock
  cache : Option.Rel L.credential env₁.cache env₂.cache
  supplies : Supplies.Akin L env₁.supplies env₂.supplies
  limiter : env₁.limiter = env₂.limiter
  throttles : env₁.throttles = env₂.throttles
  transport : env₁.transport = env₂.transport

theorem Environment.Akin.refl (env : Environment) : env.Akin L env :=
  ⟨rfl, rel_refl L.refl _, Supplies.Akin.refl _, rfl, rfl, rfl⟩

/-- What happens in one run and in the other. -/
inductive Event.Akin (L : Likeness) (G : Guise) : Event → Event → Prop
  | logged {l₁ l₂ : Log.Line} : l₁.Akin G.address l₂ → Akin L G (.logged l₁) (.logged l₂)
  | asked {p₁ p₂ : Option Credential} : Option.Rel L.credential p₁ p₂ →
      Akin L G (.asked p₁) (.asked p₂)
  | consulted {leaf₁ leaf₂ : Provider} {p₁ p₂ : Option Credential} : leaf₁.Akin L leaf₂ →
      Option.Rel L.credential p₁ p₂ → Akin L G (.consulted leaf₁ p₁) (.consulted leaf₂ p₂)
  | cached {c₁ c₂ : Option Credential} : Option.Rel L.credential c₁ c₂ →
      Akin L G (.cached c₁) (.cached c₂)
  | slept (wait : Wait) (d : Duration) (wake : Instant) :
      Akin L G (.slept wait d wake) (.slept wait d wake)
  | built (attempt : Nat) : Akin L G (.built attempt) (.built attempt)
  | signed {c₁ c₂ : Option Credential} : Option.Rel L.credential c₁ c₂ →
      Akin L G (.signed c₁) (.signed c₂)
  | sent {m₁ m₂ : Message} (key : String) (time : Instant) : G.message m₁ m₂ →
      Akin L G (.sent key m₁ time) (.sent key m₂ time)
  | returned (reply : Except Error.Cause Response) (time : Instant) :
      Akin L G (.returned reply time) (.returned reply time)
  | paused (key : String) (pause : Throttle) : Akin L G (.paused key pause) (.paused key pause)
  | cleared (key : String) : Akin L G (.cleared key) (.cleared key)

/-- Two runs that have started in `start₁` and `start₂`. -/
structure Twins (L : Likeness) (G : Guise) (start₁ start₂ env₁ env₂ : Environment) : Prop where
  akin : env₁.Akin L env₂
  events : ∃ es₁ es₂, env₁.trace = start₁.trace ++ es₁ ∧ env₂.trace = start₂.trace ++ es₂ ∧
    List.Forall₂ (Event.Akin L G) es₁ es₂

namespace Twins

variable {start₁ start₂ env₁ env₂ : Environment}

theorem start (h : start₁.Akin L start₂) : Twins L G start₁ start₂ start₁ start₂ :=
  ⟨h, [], [], by simp, by simp, .nil⟩

theorem extend {env₁' env₂' : Environment} {e₁ e₂ : Event} (h : Twins L G start₁ start₂ env₁ env₂)
    (akin : env₁'.Akin L env₂') (event : e₁.Akin L G e₂) (trace₁ : env₁'.trace = env₁.trace ++ [e₁])
    (trace₂ : env₂'.trace = env₂.trace ++ [e₂]) : Twins L G start₁ start₂ env₁' env₂' := by
  obtain ⟨-, es₁, es₂, h₁, h₂, hes⟩ := h
  refine ⟨akin, es₁ ++ [e₁], es₂ ++ [e₂], ?_, ?_, List.rel_append hes (.cons event .nil)⟩
  · rw [trace₁, h₁, List.append_assoc]
  · rw [trace₂, h₂, List.append_assoc]

theorem noted (h : Twins L G start₁ start₂ env₁ env₂) {e₁ e₂ : Event} (event : e₁.Akin L G e₂) :
    Twins L G start₁ start₂ (env₁.noted e₁) (env₂.noted e₂) :=
  h.extend ⟨h.akin.clock, h.akin.cache, h.akin.supplies, h.akin.limiter, h.akin.throttles,
    h.akin.transport⟩ event (Environment.noted_trace _ _) (Environment.noted_trace _ _)

theorem events_akin (h : Twins L G start₁ start₂ env₁ env₂) :
    List.Forall₂ (Event.Akin L G) (env₁.trace.drop start₁.trace.length)
      (env₂.trace.drop start₂.trace.length) := by
  obtain ⟨-, es₁, es₂, h₁, h₂, hes⟩ := h
  rw [h₁, h₂, List.drop_left, List.drop_left]
  exact hes

end Twins

theorem Log.Line.Akin.same (line : Log.Line) : line.Akin G.address line :=
  .refl (G.refl "") line

/-! ## What two runs log and send -/

/-- A request as it leaves: the resource that it is for, the message and the time. -/
structure Sending where
  key : String
  message : Message
  time : Instant

namespace Event

def sending? : Event → Option Sending
  | .sent key message time => some ⟨key, message, time⟩
  | _ => none

def sendings (es : List Event) : List Sending := es.filterMap sending?

variable {es₁ es₂ : List Event}

theorem akin_lines (h : List.Forall₂ (Event.Akin L G) es₁ es₂) :
    List.Forall₂ (Log.Line.Akin G.address) (Event.lines es₁) (Event.lines es₂) := by
  refine List.rel_filterMap (fun e₁ e₂ h => ?_) h
  cases h with
  | logged h => exact .some h
  | _ => exact .none

theorem akin_sendings (h : List.Forall₂ (Event.Akin L G) es₁ es₂) :
    List.Forall₂ (fun s t => s.key = t.key ∧ s.time = t.time ∧ G.message s.message t.message)
      (sendings es₁) (sendings es₂) := by
  refine List.rel_filterMap (fun e₁ e₂ h => ?_) h
  cases h with
  | sent key time h => exact .some ⟨rfl, rfl, h⟩
  | _ => exact .none

end Event

namespace Executor

open Run

variable {start₁ start₂ : Environment}

theorem unison_twins : Unison L (Twins L G start₁ start₂) where
  clock h := h.akin.clock
  limiter h := h.akin.limiter
  cache h := h.akin.cache
  supplies h := h.akin.supplies
  logged line h := h.noted (.logged (.same line))
  asked hp h := h.noted (.asked hp)
  consulted leaf hp h := h.noted (.consulted leaf hp)
  stored hc h := h.extend ⟨h.akin.clock, hc, h.akin.supplies, h.akin.limiter, h.akin.throttles,
    h.akin.transport⟩ (.cached hc) (Environment.noted_trace _ _) (Environment.noted_trace _ _)
  signed hc h := h.noted (.signed hc)
  slept _ h := h.extend ⟨rfl, h.akin.cache, h.akin.supplies, h.akin.limiter, h.akin.throttles,
    h.akin.transport⟩ (.slept _ _ _) (Environment.woken_trace _ _ _ _)
    (Environment.woken_trace _ _ _ _)
  supplied hs h := ⟨⟨h.akin.clock, h.akin.cache, hs, h.akin.limiter, h.akin.throttles,
    h.akin.transport⟩, h.events⟩
  limited _ h := ⟨⟨h.akin.clock, h.akin.cache, h.akin.supplies, rfl, h.akin.throttles,
    h.akin.transport⟩, h.events⟩

theorem twins_advanced {env₁ env₂ : Environment} (h : Twins L G start₁ start₂ env₁ env₂)
    (clock : Clock) : Twins L G start₁ start₂ { env₁ with clock } { env₂ with clock } :=
  ⟨⟨rfl, h.akin.cache, h.akin.supplies, h.akin.limiter, h.akin.throttles, h.akin.transport⟩,
    h.events⟩

theorem twins_throttles {env₁ env₂ : Environment} (h : Twins L G start₁ start₂ env₁ env₂)
    {t₁ t₂ : Throttles} (same : t₁ = t₂) :
    Twins L G start₁ start₂ { env₁ with throttles := t₁ } { env₂ with throttles := t₂ } :=
  ⟨⟨h.akin.clock, h.akin.cache, h.akin.supplies, h.akin.limiter, same, h.akin.transport⟩, h.events⟩

/-- Nothing that an attempt does tells two runs apart that differ in nothing but secrets. -/
theorem abreast_twins (deadline : Instant) :
    Abreast L G deadline (Twins L G start₁ start₂) fun _ => Twins L G start₁ start₂ where
  transport h := h.akin.transport
  built n h := h.noted (.built n)
  heeds key := by
    refine lockstep_heed_of (fun {env₁ env₂} h => ?_) fun pause =>
      lockstep_waitOut_of unison_twins.clock (fun akin h => h.noted (.logged akin))
        unison_twins.slept (G.refl key) pause
    have same : env₁.throttles.pending key env₁.clock.now =
        env₂.throttles.pending key env₂.clock.now := by
      rw [h.akin.throttles, h.akin.clock]
    exact ⟨congrArg Prod.fst same, twins_throttles h (congrArg Prod.snd same)⟩
  weaker _ h := h
  unison _ := unison_twins
  logged _ akin h := h.noted (.logged akin)
  sent {env₁ env₂ m₁ m₂} key left hm h := by
    have gone : (Event.sent key m₁ env₁.clock.now).Akin L G (.sent key m₂ env₂.clock.now) := by
      rw [h.akin.clock]
      exact .sent key _ hm
    exact h.extend ⟨h.akin.clock, h.akin.cache, h.akin.supplies, h.akin.limiter, h.akin.throttles,
      rfl⟩ gone (departed_trace _ _) (departed_trace _ _)
  returned _ reply _ h := (twins_advanced h _).noted (.returned reply _)
  cleared key h :=
    (twins_throttles h (congrArg (Throttles.clear · key) h.akin.throttles)).noted (.cleared key)
  paused key pause h :=
    (twins_throttles h (congrArg (Throttles.record · key pause) h.akin.throttles)).noted
      (.paused key pause)

/-- Computations in lockstep end alike, and alike is what they log, send and leave behind. -/
theorem ends_of_twins {α β : Type} {R : α → β → Prop} {x : Run α} {y : Run β}
    (h : Lockstep (Twins L G start₁ start₂) x y (Both R (Twins L G start₁ start₂))
      (Fails G (Twins L G start₁ start₂))) (akin : start₁.Akin L start₂) :
    Concur (Stop.Akin G.address) R (x.outcome start₁) (y.outcome start₂) ∧
    List.Forall₂ (Log.Line.Akin G.address) (Event.lines (x.events start₁))
      (Event.lines (y.events start₂)) ∧
    List.Forall₂ (fun s t => s.key = t.key ∧ s.time = t.time ∧ G.message s.message t.message)
      (Event.sendings (x.events start₁)) (Event.sendings (y.events start₂)) ∧
    (x.leaves start₁).Akin L (y.leaves start₂) := by
  obtain ⟨outcome, twins⟩ := h.ends (.start akin)
  have events := twins.events_akin
  exact ⟨outcome, Event.akin_lines events, Event.akin_sendings events, twins.akin⟩

end Executor
end SignedHttp

import SignedHttp.Proofs.Run.Trace

/-!
# SignedHttp.Proofs.Signer.Frame

What signing a request and waiting for the rate limiter leave alone. Both write down nothing but
events of their own (`Event.isRoutine`) and touch nothing but the clock, the cache, the supplies and
the limiter; the clock moves only while somebody sleeps for a supply or for a slot.

`Stable P` says that none of these effects can make `P` false, `KeptBySigning P` that those of
signing cannot, `KeptByLookup P` that those of looking up a credential cannot, `KeptByAsking P`
that those of the source cannot, and `KeptByAnswering P` that those of a part of it cannot. The
induction over the sources of credentials is done once
(`keeps_ask`, `keeps_askFirst`); after it, `keeps_sign` and `keeps_acquire` carry any such assertion
through the whole of signing and waiting.
-/

namespace SignedHttp

/-- Somebody sleeps for a supply of credentials or for a slot of the rate limiter. -/
def Wait.isRoutine : Wait → Bool
  | .refresh | .slot => true
  | .pastime | .pause _ => false

/-- Something that happens while a request is signed or waits for the rate limiter. -/
def Event.isRoutine : Event → Bool
  | .logged _ | .asked _ | .consulted _ _ | .cached _ | .signed _ => true
  | .slept wait _ _ => wait.isRoutine
  | .built _ | .sent _ _ _ | .returned _ _ | .paused _ _ | .cleared _ => false

namespace Run

/-- An assertion that neither signing nor waiting for the rate limiter can make false. -/
structure Stable (P : Environment → Prop) : Prop where
  note : ∀ {env : Environment} {e : Event}, (∀ wait d t, e ≠ .slept wait d t) →
    e.isRoutine = true → P env → P (env.noted e)
  sleep : ∀ {env : Environment} {wait : Wait} {d : Duration} {clock : Clock},
    wait.isRoutine = true → env.clock.sleep? d = some clock → P env →
    P (env.woken wait d clock)
  cache : ∀ {env : Environment} (cache : Option Credential), P env → P { env with cache }
  supplies : ∀ {env : Environment} (supplies : Supplies), P env → P { env with supplies }
  limiter : ∀ {env : Environment} (limiter : RateLimiter), P env →
    P { env with limiter := some limiter }

/-- An assertion that signing a request cannot make false. -/
structure KeptBySigning (P : Environment → Prop) : Prop where
  note : ∀ {env : Environment} {e : Event}, (∀ wait d t, e ≠ .slept wait d t) →
    e.isRoutine = true → P env → P (env.noted e)
  sleep : ∀ {env : Environment} {d : Duration} {clock : Clock},
    env.clock.sleep? d = some clock → P env → P (env.woken .refresh d clock)
  cache : ∀ {env : Environment} (cache : Option Credential), P env → P { env with cache }
  supplies : ∀ {env : Environment} (supplies : Supplies), P env → P { env with supplies }

/-- An assertion that looking up a credential cannot make false. -/
structure KeptByLookup (P : Environment → Prop) : Prop where
  logged : ∀ {env : Environment} (line : Log.Line), P env → P (env.noted (.logged line))
  asked : ∀ {env : Environment} (previous : Option Credential), P env →
    P (env.noted (.asked previous))
  consulted : ∀ {env : Environment} (leaf : Provider) (previous : Option Credential), P env →
    P (env.noted (.consulted leaf previous))
  stored : ∀ {env : Environment} (answer : Option Credential), P env →
    P (Environment.noted { env with cache := answer } (.cached answer))
  sleep : ∀ {env : Environment} {d : Duration} {clock : Clock},
    env.clock.sleep? d = some clock → P env → P (env.woken .refresh d clock)
  supplies : ∀ {env : Environment} (supplies : Supplies), P env → P { env with supplies }

/-- An assertion that asking a source of credentials cannot make false. -/
structure KeptByAsking (P : Environment → Prop) : Prop where
  logged : ∀ {env : Environment} (line : Log.Line), P env → P (env.noted (.logged line))
  consulted : ∀ {env : Environment} (leaf : Provider) (previous : Option Credential), P env →
    P (env.noted (.consulted leaf previous))
  sleep : ∀ {env : Environment} {d : Duration} {clock : Clock},
    env.clock.sleep? d = some clock → P env → P (env.woken .refresh d clock)
  supplies : ∀ {env : Environment} (supplies : Supplies), P env → P { env with supplies }

/-- An assertion that a part of the source cannot make false once it has been consulted. -/
structure KeptByAnswering (P : Environment → Prop) : Prop where
  logged : ∀ {env : Environment} (line : Log.Line), P env → P (env.noted (.logged line))
  sleep : ∀ {env : Environment} {d : Duration} {clock : Clock},
    env.clock.sleep? d = some clock → P env → P (env.woken .refresh d clock)
  supplies : ∀ {env : Environment} (supplies : Supplies), P env → P { env with supplies }

/-- Routine events cannot make a fact about the events so far false that holds of more of them. -/
theorem stable_since {start : Environment} {K : List Event → Prop}
    (h : ∀ es e, e.isRoutine = true → K es → K (es ++ [e])) : Stable (Since start K) where
  note _ routine hs := hs.noted fun es => h es _ routine
  sleep routine _ hs := hs.noted fun es => h es _ routine
  cache _ hs := hs
  supplies _ hs := hs
  limiter _ hs := hs

variable {α : Type} {P : Environment → Prop}

theorem Stable.signing (h : Stable P) : KeptBySigning P :=
  ⟨h.note, h.sleep rfl, h.cache, h.supplies⟩

theorem KeptBySigning.lookup (h : KeptBySigning P) : KeptByLookup P where
  logged _ := h.note (by simp) rfl
  asked _ := h.note (by simp) rfl
  consulted _ _ := h.note (by simp) rfl
  stored answer hP := h.note (by simp) rfl (h.cache answer hP)
  sleep := h.sleep
  supplies := h.supplies

theorem KeptByLookup.asking (h : KeptByLookup P) : KeptByAsking P :=
  ⟨h.logged, h.consulted, h.sleep, h.supplies⟩

theorem KeptByAsking.answering (h : KeptByAsking P) : KeptByAnswering P :=
  ⟨h.logged, h.sleep, h.supplies⟩

theorem KeptByAnswering.keeps_log (h : KeptByAnswering P) (lines : List Log.Line) :
    Keeps P (log lines) :=
  Run.keeps_log (fun _ line hP => h.logged line hP) lines

theorem Stable.keeps_log (h : Stable P) (lines : List Log.Line) : Keeps P (log lines) :=
  h.signing.lookup.asking.answering.keeps_log lines

theorem keeps_sleep {wait : Wait} {d : Duration}
    (h : ∀ {env clock}, env.clock.sleep? d = some clock → P env → P (env.woken wait d clock)) :
    Keeps P (Run.sleep wait d) := by
  intro env hP
  cases hc : env.clock.sleep? d with
  | some clock =>
    rw [sleep_eq hc]
    exact h hc hP
  | none =>
    rw [sleep_eq_overflow hc]
    exact hP

theorem keeps_advance {d : Duration}
    (h : ∀ {env clock}, env.clock.advance? d = some clock → P env → P { env with clock }) :
    Keeps P (Run.advance d) := by
  intro env hP
  cases hc : env.clock.advance? d with
  | some clock =>
    rw [advance_eq hc]
    exact h hc hP
  | none =>
    rw [advance_eq_overflow hc]
    exact hP

/-- The ways in which waiting for a slot can end, with the environment that it leaves. -/
inductive Acquired (env : Environment) : EStateM.Result Stop Environment Unit → Prop where
  | unlimited : env.limiter = none → Acquired env (.ok () env)
  | noSlot {limiter : RateLimiter} : env.limiter = some limiter →
      limiter.reserve? env.clock.now = none → Acquired env (.error .overflow env)
  | atOnce {limiter limiter' : RateLimiter} : env.limiter = some limiter →
      limiter.reserve? env.clock.now = some (.zero, limiter') →
      Acquired env (.ok () { env with limiter := some limiter' })
  | delayed {limiter limiter' : RateLimiter} {wait : Duration} {line : Log.Line} {clock : Clock} :
      env.limiter = some limiter → limiter.reserve? env.clock.now = some (wait, limiter') →
      wait ≠ .zero → env.clock.sleep? wait = some clock →
      Acquired env (.ok ()
        (({ env with limiter := some limiter' }.noted (.logged line)).woken .slot wait clock))
  | beyond {limiter limiter' : RateLimiter} {wait : Duration} {line : Log.Line} :
      env.limiter = some limiter → limiter.reserve? env.clock.now = some (wait, limiter') →
      env.clock.sleep? wait = none →
      Acquired env (.error .overflow ({ env with limiter := some limiter' }.noted (.logged line)))

theorem acquired_acquire (env : Environment) : Acquired env (acquire env) := by
  unfold acquire
  rw [bind_apply, get_apply]
  dsimp only
  cases hl : env.limiter with
  | none => exact .unlimited hl
  | some limiter =>
    dsimp only
    cases hr : limiter.reserve? env.clock.now with
    | none => exact .noSlot hl hr
    | some reserved =>
      obtain ⟨wait, limiter'⟩ := reserved
      dsimp only
      by_cases hw : wait = .zero
      · subst hw
        exact .atOnce hl hr
      · rw [if_pos hw]
        have awaited (line : Log.Line) : Acquired env (sleep .slot wait
            (Environment.noted { env with limiter := some limiter' } (.logged line))) := by
          cases hc : env.clock.sleep? wait with
          | none =>
            have slept : sleep .slot wait (Environment.noted { env with limiter := some limiter' }
                (.logged line)) = .error .overflow _ := sleep_eq_overflow hc
            rw [slept]
            exact .beyond hl hr hc
          | some clock =>
            have slept : sleep .slot wait (Environment.noted { env with limiter := some limiter' }
                (.logged line)) = .ok () _ := sleep_eq hc
            rw [slept]
            exact .delayed hl hr hw hc
        exact awaited _

theorem keeps_acquire_of (logged : ∀ {env} line, P env → P (env.noted (.logged line)))
    (slept : ∀ {env d clock}, env.clock.sleep? d = some clock → P env → P (env.woken .slot d clock))
    (limited : ∀ {env} limiter, P env → P { env with limiter := some limiter }) :
    Keeps P acquire := by
  intro env hP
  have acquired := acquired_acquire env
  generalize acquire env = result at acquired ⊢
  cases acquired with
  | unlimited _ => exact hP
  | noSlot _ _ => exact hP
  | atOnce _ _ => exact limited _ hP
  | @delayed _ limiter' _ line _ _ _ _ hc => exact slept hc (logged line (limited limiter' hP))
  | @beyond _ limiter' _ line _ _ _ => exact logged line (limited limiter' hP)

theorem keeps_acquire (h : Stable P) : Keeps P acquire :=
  keeps_acquire_of (fun _ => h.note (by simp) rfl) (h.sleep rfl) h.limiter

end Run

namespace Provider

open Run

variable {P : Environment → Prop}

theorem keeps_decode (h : KeptByAnswering P) (given : Credential.Given) :
    Keeps P (decode given) :=
  (h.keeps_log _).bind fun _ => keeps_lift _

theorem keeps_askSecrets (h : KeptByAnswering P) (secrets : Secrets) :
    Keeps P (askSecrets secrets) := by
  unfold askSecrets
  cases secrets.given? with
  | none => exact keeps_pure none
  | some found =>
    exact (h.keeps_log _).bind fun _ => (keeps_decode h found.2).bind fun c => keeps_pure (some c)

theorem keeps_askString (h : KeptByAnswering P) (c : ConnectionString) :
    Keeps P (askString c) := by
  unfold askString
  cases c.given? with
  | none => exact keeps_pure none
  | some given =>
    exact (keeps_decode h given).bind fun c => (h.keeps_log _).bind fun _ => keeps_pure (some c)

theorem keeps_askSecretString (h : KeptByAnswering P) (secrets : Secrets) :
    Keeps P (askSecretString secrets) := by
  unfold askSecretString
  cases secrets.connectionString with
  | none => exact keeps_pure none
  | some s => exact (keeps_lift _).bind fun c => keeps_askString h c

theorem keeps_takeRefresh (h : KeptByAnswering P) (supply : Nat) :
    Keeps P (takeRefresh supply) := by
  refine leads_get.bind ?_
  rintro env env' ⟨rfl, hP⟩
  cases hs : env.supplies[supply]? with
  | none => exact hP
  | some answers =>
    cases answers with
    | nil => exact hP
    | cons next rest => exact h.supplies (env.supplies.set supply rest) hP

theorem keeps_askSupply (h : KeptByAnswering P) (supply : Nat) : Keeps P (askSupply supply) := by
  refine (keeps_takeRefresh h supply).bind fun next => ?_
  obtain ⟨sleep, answer⟩ := next
  have slept {x : Run (Option Credential)} (hx : Keeps P x) (d : Duration) :
      Keeps P (Run.sleep .refresh d >>= fun _ => x) := (keeps_sleep h.sleep).bind fun _ => hx
  cases answer with
  | ok credential =>
    cases sleep with
    | some d => exact slept (keeps_pure credential) d
    | none => exact keeps_pure credential
  | error cause =>
    cases sleep with
    | some d => exact slept (keeps_fail _) d
    | none => exact keeps_fail _

theorem keeps_consult (h : KeptByAsking P) (leaf : Provider) (previous : Option Credential) :
    Keeps P (note (.consulted leaf previous)) :=
  fun _ hP => h.consulted leaf previous hP

mutual

theorem keeps_ask (h : KeptByAsking P) (secrets : Secrets) (previous : Option Credential) :
    ∀ p : Provider, Keeps P (ask secrets previous p)
  | fixed c => by
    rw [ask]
    exact (keeps_consult h _ previous).bind fun _ => keeps_pure (some c)
  | .secrets => by
    rw [ask]
    exact (keeps_consult h _ previous).bind fun _ => keeps_askSecrets h.answering secrets
  | connectionString (some c) => by
    rw [ask]
    exact (keeps_consult h _ previous).bind fun _ => keeps_askString h.answering c
  | connectionString none => by
    rw [ask]
    exact (keeps_consult h _ previous).bind fun _ => keeps_askSecretString h.answering secrets
  | refresh supply => by
    rw [ask]
    exact (keeps_consult h _ previous).bind fun _ => keeps_askSupply h.answering supply
  | chain providers => by
    rw [ask]
    exact keeps_askFirst h secrets previous providers
  | standard providers => by
    rw [ask]
    exact keeps_askFirst h secrets previous providers

theorem keeps_askFirst (h : KeptByAsking P) (secrets : Secrets) (previous : Option Credential) :
    ∀ ps : List Provider, Keeps P (askFirst secrets previous ps)
  | [] => by
    rw [askFirst]
    exact keeps_pure none
  | p :: ps => by
    rw [askFirst]
    refine (h.answering.keeps_log _).bind fun _ =>
      (keeps_ask h secrets previous p).bind fun answer => ?_
    cases answer with
    | some c => exact (h.answering.keeps_log _).bind fun _ => keeps_pure (some c)
    | none => exact keeps_askFirst h secrets previous ps

end

end Provider

namespace Signer

open Run

variable {P : Environment → Prop}

theorem keeps_ask (h : KeptByLookup P) (s : Signer) (previous : Option Credential) :
    Keeps P (s.ask previous) := by
  refine Leads.bind (Q := fun _ => P) (fun _ hP => h.asked previous hP) fun _ => ?_
  exact Provider.keeps_ask h.asking s.secrets previous s.provider

theorem keeps_refresh (h : KeptByLookup P) (s : Signer) : Keeps P s.refresh := by
  refine (h.asking.answering.keeps_log _).bind fun _ => leads_get.bind fun env => ?_
  have stored (fresh : Option Credential) : Keeps P (do
      modify fun env => { env with cache := fresh }
      note (.cached fresh)
      pure fresh) := fun _ hP => h.stored fresh hP
  exact ((keeps_ask h s env.cache).bind stored).mono (fun _ hP => hP.2) (fun _ _ hP => hP)
    fun _ hP => hP

theorem keeps_credential (h : KeptByLookup P) (s : Signer) : Keeps P s.credential := by
  refine leads_get.bind ?_
  rintro env env' ⟨rfl, hP⟩
  by_cases hu : Credential.usable env.cache env.clock.now = true
  · simp only [hu, if_true]
    exact hP
  · simp only [hu, Bool.false_eq_true, if_false]
    exact keeps_refresh h s env hP

/-- What signing leads to: a credential is looked up, and used or not. -/
theorem leads_sign {Q : Option Credential → Environment → Prop} {E : Environment → Prop}
    {s : Signer} (looks : Leads P s.credential Q E)
    (logged : ∀ c env line, Q c env → Q c (env.noted (.logged line)))
    (signed : ∀ c env, Q c env → E (env.noted (.signed c))) (weaker : ∀ c env, Q c env → E env)
    (r : Request) : Leads P (s.sign r) (fun _ => E) E := by
  refine looks.bind fun c => ?_
  have rest : Leads (Q c) now (fun _ => Q c) E := fun env hQ => hQ
  refine rest.bind fun now => Leads.bind (Q := fun _ => Q c) ?_ fun _ => ?_
  · exact (Run.keeps_log (logged c) _).mono (fun _ hQ => hQ) (fun _ _ hQ => hQ) (weaker c)
  · dsimp only
    cases (s.scheme.sign now c r).result with
    | ok => exact Leads.bind (Q := fun _ => E) (fun env hQ => signed c env hQ) fun _ => keeps_pure _
    | error e => exact fun env hQ => weaker c env hQ

theorem keeps_sign (h : KeptBySigning P) (s : Signer) (r : Request) : Keeps P (s.sign r) :=
  leads_sign (keeps_credential h.lookup s) (fun _ _ line => h.lookup.logged line)
    (fun _ _ => h.note (by simp) rfl) (fun _ _ hP => hP) r

end Signer
end SignedHttp

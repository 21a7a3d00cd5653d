import SignedHttp.Proofs.Executor.Lockstep
import SignedHttp.Proofs.Executor.Sharing
import SignedHttp.Proofs.Executor.Waiting

/-!
# SignedHttp.Proofs.Executor.Fading

Pauses that are over cannot be seen (`executeAll_faded`). Whatever is executed, it goes the same way
whether a pause that is over is still known or not, and leaves the same pauses behind, except that
the one that is over may be known still. The first attempt for its resource forgets it, and from
there on nothing at all is different.

The two runs are kept side by side by `Faded`. Recording a pause of the same resource would break
that relation, as the longer of two pauses counts; but a pause is recorded only when that of its
resource has been heeded, and that is where the difference ends (`FadedFor`).
-/

namespace SignedHttp

namespace Environment

/-- No pause of a resource is still running. -/
def Over (env : Environment) (key : String) : Prop :=
  ∀ pause, env.throttles.get? key = some pause → pause.resumeAt ≤ env.clock.now

/-- The environment without the pause of a resource. -/
def without (env : Environment) (key : String) : Environment :=
  { env with throttles := env.throttles.clear key }

end Environment

namespace Executor

open Run

variable {key other : String} {env₁ env₂ : Environment}

/-- Environments that are the same, except that a pause of `key` that is over may be known in the
first one only. -/
def Faded (key : String) (env₁ env₂ : Environment) : Prop :=
  env₁ = env₂ ∨ (env₁.Over key ∧ env₂ = env₁.without key)

/-- When the pause of a resource has been heeded, there is no difference in it any more. -/
def FadedFor (key other : String) (env₁ env₂ : Environment) : Prop :=
  Faded key env₁ env₂ ∧ (other = key → env₁ = env₂)

theorem Faded.refl (key : String) (env : Environment) : Faded key env env := .inl rfl

namespace Faded

theorem clock (h : Faded key env₁ env₂) : env₁.clock = env₂.clock := by
  obtain rfl | ⟨-, rfl⟩ := h <;> rfl

theorem limiter (h : Faded key env₁ env₂) : env₁.limiter = env₂.limiter := by
  obtain rfl | ⟨-, rfl⟩ := h <;> rfl

theorem cache (h : Faded key env₁ env₂) : env₁.cache = env₂.cache := by
  obtain rfl | ⟨-, rfl⟩ := h <;> rfl

theorem supplies (h : Faded key env₁ env₂) : env₁.supplies = env₂.supplies := by
  obtain rfl | ⟨-, rfl⟩ := h <;> rfl

theorem transport (h : Faded key env₁ env₂) : env₁.transport = env₂.transport := by
  obtain rfl | ⟨-, rfl⟩ := h <;> rfl

/-- What is done to both environments and does not depend on a pause that is over. -/
theorem step (h : Faded key env₁ env₂) {f : Environment → Environment}
    (same : f (env₁.without key) = (f env₁).without key)
    (past : env₁.Over key → (f env₁).Over key) : Faded key (f env₁) (f env₂) := by
  obtain rfl | ⟨hpast, rfl⟩ := h
  · exact .refl key _
  · exact .inr ⟨past hpast, same⟩

end Faded

theorem FadedFor.step (h : FadedFor key other env₁ env₂) {f : Environment → Environment}
    (same : other ≠ key → f (env₁.without key) = (f env₁).without key)
    (past : other ≠ key → env₁.Over key → (f env₁).Over key) :
    FadedFor key other (f env₁) (f env₂) := by
  refine ⟨?_, fun hkey => by rw [h.2 hkey]⟩
  by_cases ne : other = key
  · rw [h.2 ne]
    exact .refl key _
  · exact h.1.step (same ne) (past ne)

theorem over_later {env env' : Environment}
    (same : env'.throttles.get? key = env.throttles.get? key)
    (later : env.clock.now ≤ env'.clock.now) (h : env.Over key) : env'.Over key :=
  fun pause known => Instant.le_trans (h pause (same.symm.trans known)) later

theorem FadedFor.noted (h : FadedFor key other env₁ env₂) (e : Event) :
    FadedFor key other (env₁.noted e) (env₂.noted e) :=
  h.step (f := (·.noted e)) (fun _ => rfl) fun _ => over_later rfl (Instant.le_refl _)

theorem unison_faded (key other : String) : Unison Likeness.identity (FadedFor key other) where
  clock h := h.1.clock
  limiter h := h.1.limiter
  cache h := by
    rw [h.1.cache]
    exact rel_refl (fun _ => rfl) _
  supplies h := by
    rw [h.1.supplies]
    exact Supplies.Akin.refl _
  logged line h := h.noted _
  asked hp h := by
    rw [eq_of_rel hp]
    exact h.noted _
  consulted leaf hp h := by
    rw [eq_of_rel hp, leaf.eq]
    exact h.noted _
  stored {_ _ c₁ c₂} hc h := by
    rw [eq_of_rel hc]
    exact h.step (f := fun env => Environment.noted { env with cache := c₂ } (.cached c₂))
      (fun _ => rfl) fun _ => over_later rfl (Instant.le_refl _)
  signed hc h := by
    rw [eq_of_rel hc]
    exact h.noted _
  slept {_ _ wait d clock} hc h :=
    h.step (f := (·.woken wait d clock)) (fun _ => rfl) fun _ =>
      over_later rfl (Instant.le_of_add? (Clock.now_of_sleep? hc))
  supplied {_ _ s₁ s₂} hs h := by
    rw [hs.eq]
    exact h.step (f := fun env => { env with supplies := s₂ }) (fun _ => rfl) fun _ =>
      over_later rfl (Instant.le_refl _)
  limited limiter h := h.step (f := fun env => { env with limiter := some limiter })
    (fun _ => rfl) fun _ => over_later rfl (Instant.le_refl _)

theorem released_without (key other : String) (env : Environment) :
    released other (env.without key) = (released other env).without key := by
  unfold released Environment.without
  rw [Throttles.clear_comm]
  rfl

theorem held_without (ne : other ≠ key) (pause : Throttle) (env : Environment) :
    held other pause (env.without key) = (held other pause env).without key := by
  unfold held Environment.without
  rw [← Throttles.clear_record_of_ne ne]
  rfl

/-- Heeding the pause of a resource makes the difference in it disappear. -/
theorem faded_pending (other : String) (h : Faded key env₁ env₂) :
    (env₁.throttles.pending other env₁.clock.now).1 =
        (env₂.throttles.pending other env₂.clock.now).1 ∧
      FadedFor key other
        { env₁ with throttles := (env₁.throttles.pending other env₁.clock.now).2 }
        { env₂ with throttles := (env₂.throttles.pending other env₂.clock.now).2 } := by
  obtain rfl | ⟨past, rfl⟩ := h
  · exact ⟨rfl, .refl key _, fun _ => rfl⟩
  show _ = ((env₁.throttles.clear key).pending other env₁.clock.now).1 ∧
    FadedFor key other _ { env₁ with
      throttles := ((env₁.throttles.clear key).pending other env₁.clock.now).2 }
  by_cases ne : other = key
  · subst ne
    have forgotten : (env₁.throttles.clear other).pending other env₁.clock.now =
        (none, env₁.throttles.clear other) := by
      unfold Throttles.pending
      rw [Throttles.get?_clear, if_pos rfl]
    rw [Throttles.pending_of_over past, forgotten]
    exact ⟨rfl, .refl other _, fun _ => rfl⟩
  · rw [Throttles.pending_clear_of_ne ne]
    refine ⟨rfl, .inr ⟨?_, rfl⟩, fun same => absurd same ne⟩
    exact over_later (Throttles.get?_pending_of_ne ne) (Instant.le_refl env₁.clock.now) past

/-- In lockstep, up to a pause that is over. -/
theorem abreast_faded (key : String) (deadline : Instant) :
    Abreast Likeness.identity Guise.identity deadline (Faded key) (FadedFor key) where
  transport h := h.transport
  built n h := h.step (f := (·.noted (.built n))) rfl (over_later rfl (Instant.le_refl _))
  heeds other := by
    have waits (pause : Throttle) : Lockstep (FadedFor key other) (waitOut other pause deadline)
        (waitOut other pause deadline) (fun _ _ => FadedFor key other)
        (Fails Guise.identity (FadedFor key other)) :=
      lockstep_waitOut_of (unison_faded key other).clock
        (fun akin h => by
          rw [Log.Line.Akin.eq akin]
          exact h.noted _)
        (unison_faded key other).slept rfl pause
    exact (lockstep_heed_of (faded_pending other) waits).mono (fun _ _ h => h)
      (fun _ _ _ _ h => h) fun _ _ _ _ hF => ⟨hF.1, hF.2.1⟩
  weaker _ h := h.1
  unison other := unison_faded key other
  logged other akin h := by
    rw [akin.eq]
    exact h.noted _
  sent {_ _ m₁ m₂} other left hm h := by
    cases hm
    exact h.step (f := departed ⟨other, m₁⟩ left) (fun _ => rfl) fun _ =>
      over_later rfl (Instant.le_refl _)
  returned {_ _ d clock} other reply hc h :=
    h.step (f := fun env => Environment.noted { env with clock } (.returned reply clock.now))
      (fun _ => rfl) fun _ => over_later rfl (Instant.le_of_add? (Clock.now_of_advance? hc))
  cleared other h := h.step (fun _ => released_without key other _) fun ne =>
    over_later (by
      show (Throttles.clear _ other).get? key = _
      rw [Throttles.get?_clear, if_neg ne.symm]) (Instant.le_refl _)
  paused other pause h := h.step (fun ne => held_without ne pause _) fun ne =>
    over_later (Throttles.get?_record_of_ne ne.symm) (Instant.le_refl _)

/-! ## The attempts of a call -/

variable {s : Signer} {build : Build} {deadline : Instant} {a b : Attempt}

/-- The request of an attempt is for a resource. -/
def Attempt.Targets (build : Build) (key : String) (a : Attempt) : Prop :=
  ∃ r, build a.number = .ok r ∧ r.resourceKey = key

/-- An attempt as it is made in another environment. -/
def Attempt.inside (a : Attempt) (env : Environment) : Attempt := { a with env }

theorem signs_identity (scheme : Scheme) :
    Signer.Signs Likeness.identity scheme Guise.identity.Fits where
  log h now r := by rw [eq_of_rel h]
  result h now r := by rw [eq_of_rel h]
  request h now r _ := by
    rw [eq_of_rel h]
    exact Guise.fits_identity _

/-- An attempt for the resource is prepared in the same way, and there is no difference left. -/
theorem prepare_eq_of_targets (s : Signer) (deadline : Instant) (h : Faded key a.env env₂)
    (targets : a.Targets build key) :
    prepare s build deadline a.number a.env = prepare s build deadline a.number env₂ := by
  obtain ⟨r, hbuild, rfl⟩ := targets
  have noted : Faded r.resourceKey (a.env.noted (.built a.number)) (env₂.noted (.built a.number)) :=
    (abreast_faded r.resourceKey deadline).built a.number h
  obtain ⟨same, -, equal⟩ := faded_pending r.resourceKey noted
  have heeded : heed r.resourceKey deadline (a.env.noted (.built a.number)) =
      heed r.resourceKey deadline (env₂.noted (.built a.number)) := by
    rw [heed_apply, heed_apply, same, equal rfl]
  rw [prepare_apply, prepare_apply, hbuild]
  dsimp only
  rw [bind_apply, bind_apply, heeded]

theorem result_eq_of_targets (h : Faded key a.env env₂) (targets : a.Targets build key) :
    a.result s build deadline = (a.inside env₂).result s build deadline := by
  have prepared := prepare_eq_of_targets s deadline h targets
  obtain ⟨left, n, env₁⟩ := a
  unfold Attempt.result Attempt.inside
  cases left <;>
  · dsimp only
    rw [attempts, bind_apply, bind_apply, prepared]

/-- An attempt that follows the other in one run follows it in the other run, too. -/
theorem retries_of_faded (step : Retries s build deadline a b) (h : Faded key a.env env₂) :
    ∃ mid, Retries s build deadline (a.inside env₂) (b.inside mid) ∧ Faded key b.env mid ∧
      (a.env = env₂ ∨ a.Targets build key → b.env = mid) := by
  by_cases same : a.env = env₂ ∨ a.Targets build key
  · refine ⟨b.env, ?_, .refl key _, fun _ => rfl⟩
    obtain rfl | targets := same
    · exact step
    · obtain ⟨x, d, mid, r, mid', hleft, hn, hp, rest⟩ := step
      have prepared := (prepare_eq_of_targets s deadline h targets).symm.trans hp
      exact ⟨x, d, mid, r, mid', hleft, hn, prepared, rest⟩
  · obtain ⟨mid, step, faded⟩ := (abreast_faded key deadline).retries (Signer.Akin.refl s)
      (signs_identity s.scheme) step h
    exact ⟨mid, step, faded, fun h => absurd h same⟩

/-- Between `a` and `b`, or with `a`, there is an attempt for the resource. -/
inductive Met (s : Signer) (build : Build) (deadline : Instant) (key : String) (a : Attempt) :
    Attempt → Prop
  | first {b c : Attempt} : Continues s build deadline a b → b.Targets build key →
      Retries s build deadline b c → Met s build deadline key a c
  | later {b c : Attempt} : Met s build deadline key a b → Retries s build deadline b c →
      Met s build deadline key a c

/-- The attempts of one run are those of the other. -/
theorem continues_of_faded (reaches : Continues s build deadline a b) (h : Faded key a.env env₂) :
    ∃ mid, Continues s build deadline (a.inside env₂) (b.inside mid) ∧ Faded key b.env mid := by
  induction reaches with
  | refl => exact ⟨env₂, .refl, h⟩
  | tail _ step ih =>
    obtain ⟨mid, reaches, faded⟩ := ih
    obtain ⟨mid', step', faded', -⟩ := retries_of_faded step faded
    exact ⟨mid', reaches.tail step', faded'⟩

theorem continues_of_met (met : Met s build deadline key a b) (h : Faded key a.env env₂) :
    Continues s build deadline (a.inside env₂) b := by
  induction met with
  | first reaches targets step =>
    obtain ⟨mid, reaches, faded⟩ := continues_of_faded reaches h
    obtain ⟨mid', step', -, equal⟩ := retries_of_faded step faded
    rw [← equal (.inr targets)] at step'
    exact reaches.tail step'
  | later _ step ih => exact ih.tail step

theorem first_inside (h : Faded key env₁ env₂) : (first env₁).inside env₂ = first env₂ := by
  unfold first Attempt.inside
  rw [h.transport]

/-- A call that makes an attempt for the resource ends in the same way. -/
theorem execute_eq_of_targets (reaches : Continues s build deadline (first env₁) a)
    (targets : a.Targets build key) (h : Faded key env₁ env₂) :
    execute s build deadline env₁ = execute s build deadline env₂ := by
  have same := h.transport
  cases ht : env₁.transport with
  | some xs =>
    obtain ⟨mid, reaches', faded⟩ := continues_of_faded reaches h
    have ends : (first env₁).result s build deadline = (first env₂).result s build deadline := by
      rw [result_eq_of_continues reaches, result_eq_of_targets faded targets,
        ← result_eq_of_continues reaches', first_inside h]
    rw [execute_of_transport ht, execute_of_transport (same ▸ ht)]
    simpa [Attempt.result, first, ht, ← same] using ends
  | none =>
    obtain rfl := eq_first_of_continues ht reaches
    have prepared : prepare s build deadline 1 env₁ = prepare s build deadline 1 env₂ :=
      prepare_eq_of_targets s deadline h targets
    rw [execute_of_no_transport ht, execute_of_no_transport (same ▸ ht), prepared]

/-! ## One call after another -/

theorem Faded.advanced {d : Duration} {clock : Clock} (h : Faded key env₁ env₂)
    (hc : env₁.clock.advance? d = some clock) :
    Faded key { env₁ with clock } { env₂ with clock } :=
  h.step (f := fun env => { env with clock }) rfl
    (over_later rfl (Instant.le_of_add? (Clock.now_of_advance? hc)))

variable {cs : List Call} {c : Call}

/-- When the calls `cs` have been made, the call `c` begins in the environment `start`. -/
def Begins (s : Signer) (env : Environment) (cs : List Call) (c : Call) (start : Environment) :
    Prop :=
  ∃ results mid, executeAll s cs env = .ok results mid ∧ advance c.idle mid = .ok () start

/-- When the calls `cs` have been made, the call `c` gets to the attempt `a`. -/
def Reaches (s : Signer) (env : Environment) (cs : List Call) (c : Call) (a : Attempt) : Prop :=
  ∃ start, Begins s env cs c start ∧ Continues s c.build c.deadline (first start) a

/-- One of the calls `cs` makes an attempt for the resource. -/
def Targeted (s : Signer) (key : String) (env : Environment) (cs : List Call) : Prop :=
  ∃ before c after a, cs = before ++ c :: after ∧ Reaches s env before c a ∧ a.Targets c.build key

/-- One of the calls `cs` makes an attempt for the resource, or the call `c` before `a`. -/
def TargetedBefore (s : Signer) (key : String) (env : Environment) (cs : List Call) (c : Call)
    (a : Attempt) : Prop :=
  Targeted s key env cs ∨
    ∃ start, Begins s env cs c start ∧ Met s c.build c.deadline key (first start) a

theorem lockstep_advance_faded (key : String) (d : Duration) :
    Lockstep (Faded key) (advance d) (advance d) (Both Eq (Faded key)) (Both Eq (Faded key)) :=
  (lockstep_advance (fun _ _ => Faded.clock) (fun _ _ _ hc h => h.advanced hc)
    fun _ _ h => ⟨rfl, h⟩).mono (fun _ _ h => h) (fun _ _ _ _ h => ⟨rfl, h⟩) fun _ _ _ _ h => h

theorem lockstep_run_faded (s : Signer) (key : String) (c : Call) :
    Lockstep (Faded key) (c.run s) (c.run s) (Both (Results Guise.identity) (Faded key))
      (Fails Guise.identity (Faded key)) :=
  Call.lockstep_run (abreast_faded key)
    (fun hc h => h.advanced hc) Faded.clock (Signer.Akin.refl s) (signs_identity s.scheme) c

theorem lockstep_executeAll_faded (s : Signer) (key : String) (cs : List Call) :
    Lockstep (Faded key) (executeAll s cs) (executeAll s cs) (Both Eq (Faded key))
      (Both Eq (Faded key)) := by
  refine (lockstep_executeAll (lockstep_run_faded s key) cs).mono (fun _ _ h => h) ?_ ?_
  · rintro rs rs' env₁ env₂ ⟨results, h⟩
    exact ⟨eq_of_forall₂ (fun akin => (akin.mono (fun _ _ => Error.Akin.eq) fun _ _ h => h).eq)
      results, h⟩
  · rintro e f env₁ env₂ ⟨stop, h⟩
    exact ⟨stop.eq, h⟩

/-- A computation that goes on in one of two runs in lockstep goes on in the other. -/
theorem ok_of_lockstep {α : Type} {S : Environment → Environment → Prop} {x : Run α}
    (h : Lockstep S x x (Both Eq S) (Both Eq S)) (hS : S env₁ env₂) {r : α} {mid : Environment}
    (hx : x env₁ = .ok r mid) : ∃ mid', x env₂ = .ok r mid' ∧ S mid mid' := by
  have both := h env₁ env₂ hS
  rw [hx] at both
  cases hy : x env₂ with
  | error => rw [hy] at both; cases both
  | ok r' mid' =>
    rw [hy] at both
    cases both with | ok hT =>
    obtain ⟨rfl, hT⟩ := hT
    exact ⟨mid', rfl, hT⟩

theorem begins_of_faded {start : Environment} (begins : Begins s env₁ cs c start)
    (h : Faded key env₁ env₂) : ∃ start', Begins s env₂ cs c start' ∧ Faded key start start' := by
  obtain ⟨results, mid, hcalls, hidle⟩ := begins
  obtain ⟨mid', hcalls', faded⟩ := ok_of_lockstep (lockstep_executeAll_faded s key cs) h hcalls
  obtain ⟨start', hidle', faded'⟩ := ok_of_lockstep (lockstep_advance_faded key c.idle) faded hidle
  exact ⟨start', ⟨results, mid', hcalls', hidle'⟩, faded'⟩

/-- When a call has made an attempt for the resource, nothing is different any more. -/
theorem executeAll_eq_of_targeted (targeted : Targeted s key env₁ cs) (h : Faded key env₁ env₂) :
    executeAll s cs env₁ = executeAll s cs env₂ := by
  obtain ⟨before, c, after, a, rfl, ⟨start, ⟨results, mid, hcalls, hidle⟩, reaches⟩, targets⟩ :=
    targeted
  obtain ⟨mid', hcalls', faded⟩ := ok_of_lockstep (lockstep_executeAll_faded s key before) h hcalls
  obtain ⟨start', hidle', faded'⟩ := ok_of_lockstep (lockstep_advance_faded key c.idle) faded hidle
  have call : c.run s mid = c.run s mid' := by
    unfold Call.run
    rw [bind_apply, bind_apply, hidle, hidle']
    dsimp only [tried]
    rw [execute_eq_of_targets reaches targets faded']
  have rest : executeAll s (c :: after) mid = executeAll s (c :: after) mid' := by
    rw [executeAll, bind_apply, bind_apply, call]
  rw [executeAll_append, bind_apply, bind_apply, hcalls, hcalls']
  dsimp only
  rw [bind_apply, bind_apply, rest]

/-- Environments that are the same but for the pauses, and these perhaps for that of one resource;
if `met`, they are all the same. -/
def SameBut (key : String) (met : Prop) (env₁ env₂ : Environment) : Prop :=
  ∃ throttles, env₂ = { env₁ with throttles } ∧
    (∀ other, other ≠ key → throttles.get? other = env₁.throttles.get? other) ∧
    (met → throttles = env₁.throttles)

theorem SameBut.refl (key : String) (met : Prop) (env : Environment) : SameBut key met env env :=
  ⟨env.throttles, rfl, fun _ _ => rfl, fun _ => rfl⟩

theorem Faded.sameBut (h : Faded key env₁ env₂) {met : Prop} (unmet : ¬ met) :
    SameBut key met env₁ env₂ := by
  obtain rfl | ⟨-, rfl⟩ := h
  · exact .refl key met _
  · refine ⟨_, rfl, fun other ne => ?_, fun h => absurd h unmet⟩
    rw [Throttles.get?_clear, if_neg ne]

theorem reaches_of_faded (reaches : Reaches s env₁ cs c a) (h : Faded key env₁ env₂) :
    ∃ mid, Reaches s env₂ cs c (a.inside mid) ∧
      SameBut key (TargetedBefore s key env₁ cs c a) a.env mid := by
  obtain ⟨start, begins, continues⟩ := reaches
  by_cases met : TargetedBefore s key env₁ cs c a
  · refine ⟨a.env, ?_, .refl key _ _⟩
    obtain targeted | ⟨start, begins, met⟩ := met
    · rw [Begins, executeAll_eq_of_targeted targeted h] at begins
      exact ⟨start, begins, continues⟩
    · obtain ⟨start', begins', faded⟩ := begins_of_faded begins h
      exact ⟨start', begins', first_inside faded ▸ continues_of_met met faded⟩
  · obtain ⟨start', begins', faded⟩ := begins_of_faded begins h
    obtain ⟨mid, continues', faded'⟩ := continues_of_faded continues faded
    exact ⟨mid, ⟨start', begins', first_inside faded ▸ continues'⟩, faded'.sameBut met⟩

/-- Whether a pause that is over is known or not makes no difference: calls have the same results,
the environments are the same but for that pause, and it is forgotten with the first attempt for its
resource. -/
theorem executeAll_faded (s : Signer) (cs : List Call) {env : Environment} {key : String}
    {pause : Throttle} (known : env.throttles.get? key = some pause)
    (past : pause.resumeAt ≤ env.clock.now) :
    (executeAll s cs).outcome (env.without key) = (executeAll s cs).outcome env ∧
    SameBut key (Targeted s key env cs) ((executeAll s cs).leaves env)
      ((executeAll s cs).leaves (env.without key)) ∧
    ∀ c a, Reaches s env cs c a → ∃ mid, Reaches s (env.without key) cs c (a.inside mid) ∧
      SameBut key (TargetedBefore s key env cs c a) a.env mid := by
  have faded : Faded key env (env.without key) := by
    refine .inr ⟨fun pause' known' => ?_, rfl⟩
    cases known.symm.trans known'
    exact past
  obtain ⟨outcome, left⟩ := (lockstep_executeAll_faded s key cs).ends faded
  refine ⟨outcome.eq.symm, ?_, fun c a reaches => reaches_of_faded reaches faded⟩
  by_cases targeted : Targeted s key env cs
  · unfold leaves
    rw [← executeAll_eq_of_targeted targeted faded]
    exact .refl key _ _
  · exact left.sameBut targeted

/-- The pause of a resource has been over for two seconds. -/
def outdated : Environment where
  clock := { now := .atSecond 5 }
  throttles := ⟨[("https://host/", ⟨.atSecond 3, some "3"⟩)], by decide⟩
  transport := some [{ reply := .ok inOneSecond }, { reply := .ok ⟨⟨200⟩, {}, []⟩ }]

/-- A call whose first answer says to come back after a second. -/
def patient : Call where
  build _ := .ok bare
  deadline := .atSecond 9

theorem outdated_unseen :
    ((executeAll { scheme := .bearer } [patient]).events outdated).filterMap Event.departure? =
      [("https://host/", .atSecond 5), ("https://host/", .atSecond 6)] ∧
    (executeAll { scheme := .bearer } [patient]).outcome (outdated.without "https://host/") =
      (executeAll { scheme := .bearer } [patient]).outcome outdated :=
  ⟨by decide +kernel, (@executeAll_faded { scheme := .bearer } [patient] outdated "https://host/"
    ⟨.atSecond 3, some "3"⟩ rfl (by decide)).1⟩

end Executor
end SignedHttp

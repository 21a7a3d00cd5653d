import SignedHttp.Session

/-!
# SignedHttp.Proofs.Run.Trace

What a computation does, read off from outside: how it ends (`Run.outcome`), the environment that it
leaves (`Run.leaves`) and the events that it adds to the history (`Run.events`).

* `Run.Keeps P x`: `x` cannot make the assertion `P` on environments false, whichever way it ends.
  Every assertion about a whole run is carried through it in this form.
* `Run.Leads P x Q E`: from `P`, `x` ends well only with `Q` and fails only with `E`.
-/

namespace SignedHttp

def Environment.noted (env : Environment) (e : Event) : Environment :=
  { env with history := env.history.push e }

/-- The environment after somebody has slept until a clock shows a later time. -/
def Environment.woken (env : Environment) (wait : Wait) (d : Duration) (clock : Clock) :
    Environment :=
  { env with clock }.noted (.slept wait d clock.now)

def Environment.trace (env : Environment) : List Event := env.history.toList

namespace Environment

variable (env : Environment) (e : Event)

@[simp] theorem noted_clock : (env.noted e).clock = env.clock := rfl
@[simp] theorem noted_cache : (env.noted e).cache = env.cache := rfl
@[simp] theorem noted_supplies : (env.noted e).supplies = env.supplies := rfl
@[simp] theorem noted_limiter : (env.noted e).limiter = env.limiter := rfl
@[simp] theorem noted_throttles : (env.noted e).throttles = env.throttles := rfl
@[simp] theorem noted_transport : (env.noted e).transport = env.transport := rfl

@[simp] theorem noted_trace : (env.noted e).trace = env.trace ++ [e] := by
  simp [noted, trace]

variable (wait : Wait) (d : Duration) (clock : Clock)

@[simp] theorem woken_clock : (env.woken wait d clock).clock = clock := rfl
@[simp] theorem woken_throttles : (env.woken wait d clock).throttles = env.throttles := rfl

@[simp] theorem woken_trace :
    (env.woken wait d clock).trace = env.trace ++ [.slept wait d clock.now] := by
  simp [woken, trace, noted]

end Environment

namespace Run

variable {α β : Type} {env : Environment}

def ending : EStateM.Result Stop Environment α → Except Stop α
  | .ok a _ => .ok a
  | .error e _ => .error e

def final : EStateM.Result Stop Environment α → Environment
  | .ok _ env => env
  | .error _ env => env

def outcome (x : Run α) (env : Environment) : Except Stop α := ending (x env)

def leaves (x : Run α) (env : Environment) : Environment := final (x env)

def events (x : Run α) (env : Environment) : List Event :=
  (x.leaves env).trace.drop env.trace.length

/-! ## The parts of a computation -/

theorem pure_apply (a : α) : (pure a : Run α) env = .ok a env := rfl

theorem get_apply : (get : Run Environment) env = .ok env env := rfl

theorem bind_apply (x : Run α) (f : α → Run β) :
    (x >>= f) env =
      match x env with
      | .ok a env' => f a env'
      | .error e env' => .error e env' := by
  cases h : x env <;> simp [bind, EStateM.bind, h]

theorem note_apply (e : Event) : note e env = .ok () (env.noted e) := rfl

theorem now_apply : now env = .ok env.clock.now env := rfl

theorem fail_apply (e : Error) : (fail e : Run α) env = .error (.failed e) env := rfl

theorem log_apply (line : Log.Line) : log [line] env = .ok () (env.noted (.logged line)) := rfl

theorem record_apply (key : String) (pause : Throttle) :
    record key pause env =
      .ok () ({ env with throttles := env.throttles.record key pause }.noted (.paused key pause)) :=
  rfl

theorem clear_apply (key : String) :
    clear key env =
      .ok () ({ env with throttles := env.throttles.clear key }.noted (.cleared key)) := rfl

theorem pending_apply (key : String) (now : Instant) :
    pending key now env =
      .ok (env.throttles.pending key now).1
        { env with throttles := (env.throttles.pending key now).2 } := rfl

theorem advance_eq {d : Duration} {clock : Clock} (h : env.clock.advance? d = some clock) :
    advance d env = .ok () { env with clock } := by
  simp only [advance, bind_apply, get_apply, h]
  rfl

theorem advance_eq_overflow {d : Duration} (h : env.clock.advance? d = none) :
    advance d env = .error .overflow env := by
  simp only [advance, bind_apply, get_apply, h]
  rfl

theorem sleep_eq {wait : Wait} {d : Duration} {clock : Clock}
    (h : env.clock.sleep? d = some clock) :
    sleep wait d env = .ok () (env.woken wait d clock) := by
  simp only [sleep, bind_apply, get_apply, h]
  rfl

theorem sleep_eq_overflow {wait : Wait} {d : Duration} (h : env.clock.sleep? d = none) :
    sleep wait d env = .error .overflow env := by
  simp only [sleep, bind_apply, get_apply, h]
  rfl

section Inversion

variable {env' : Environment}

theorem leaves_eq_of_ok {x : Run α} {a : α} (h : x env = .ok a env') : x.leaves env = env' := by
  rw [leaves, h]
  rfl

theorem leaves_eq_of_error {x : Run α} {e : Stop} (h : x env = .error e env') :
    x.leaves env = env' := by
  rw [leaves, h]
  rfl

theorem bind_eq_ok {x : Run α} {f : α → Run β} {b : β} (h : (x >>= f) env = .ok b env') :
    ∃ a mid, x env = .ok a mid ∧ f a mid = .ok b env' := by
  rw [bind_apply] at h
  cases hx : x env with
  | error e mid =>
    rw [hx] at h
    cases h
  | ok a mid =>
    rw [hx] at h
    exact ⟨a, mid, rfl, h⟩

theorem lift_eq_ok {r : Except Error α} {a : α} (h : lift r env = .ok a env') :
    r = .ok a ∧ env' = env := by
  cases r with
  | error e => cases h
  | ok b =>
    cases h
    exact ⟨rfl, rfl⟩

theorem note_eq_ok {e : Event} (h : note e env = .ok () env') : env' = env.noted e := by
  cases h
  rfl

end Inversion

/-! ## What a computation leads to -/

/-- From `P` a computation ends well only with `Q` and fails only with `E`. -/
def Leads (P : Environment → Prop) (x : Run α) (Q : α → Environment → Prop)
    (E : Environment → Prop) : Prop :=
  ∀ env, P env →
    match x env with
    | .ok a env' => Q a env'
    | .error _ env' => E env'

def Keeps (P : Environment → Prop) (x : Run α) : Prop := Leads P x (fun _ => P) P

variable {P E : Environment → Prop} {Q : α → Environment → Prop} {R : β → Environment → Prop}

theorem Leads.ok {x : Run α} (h : Leads P x Q E) {a : α} {env' : Environment} (hP : P env)
    (hx : x env = .ok a env') : Q a env' := by
  have := h env hP
  rw [hx] at this
  exact this

theorem Leads.error {x : Run α} (h : Leads P x Q E) {e : Stop} {env' : Environment} (hP : P env)
    (hx : x env = .error e env') : E env' := by
  have := h env hP
  rw [hx] at this
  exact this

theorem Leads.bind {x : Run α} {f : α → Run β} (hx : Leads P x Q E)
    (hf : ∀ a, Leads (Q a) (f a) R E) : Leads P (x >>= f) R E := by
  intro env hP
  rw [bind_apply]
  cases h : x env with
  | ok a mid => exact hf a mid (hx.ok hP h)
  | error e mid => exact hx.error hP h

theorem Leads.mono {x : Run α} {P' E' : Environment → Prop} {Q' : α → Environment → Prop}
    (h : Leads P x Q E) (hP : ∀ env, P' env → P env) (hQ : ∀ a env, Q a env → Q' a env)
    (hE : ∀ env, E env → E' env) : Leads P' x Q' E' := by
  intro env hp
  cases hx : x env with
  | ok a mid => exact hQ a mid (h.ok (hP env hp) hx)
  | error e mid => exact hE mid (h.error (hP env hp) hx)

theorem Leads.leaves {x : Run α} {S : Environment → Prop} (h : Leads P x (fun _ => S) S)
    (hP : P env) : S (x.leaves env) := by
  unfold Run.leaves
  cases hx : x env with
  | ok a mid => exact h.ok hP hx
  | error e mid => exact h.error hP hx

theorem leads_of_leaves {x : Run α} {S : Environment → Prop}
    (h : ∀ env, P env → S (x.leaves env)) : Leads P x (fun _ => S) S := by
  intro env hP
  have left := h env hP
  unfold Run.leaves at left
  cases hx : x env <;> rwa [hx] at left

theorem Keeps.bind {x : Run α} {f : α → Run β} (hx : Keeps P x) (hf : ∀ a, Keeps P (f a)) :
    Keeps P (x >>= f) :=
  Leads.bind hx hf

theorem keeps_pure (a : α) : Keeps P (pure a : Run α) := fun _ h => h

theorem keeps_fail (e : Error) : Keeps P (fail e : Run α) := fun _ h => h

theorem keeps_lift (r : Except Error α) : Keeps P (lift r) := by
  cases r with
  | ok a => exact keeps_pure a
  | error e => exact keeps_fail e

theorem leads_get : Leads P get (fun a env => a = env ∧ P env) P := fun _ h => ⟨rfl, h⟩

theorem keeps_log (h : ∀ env line, P env → P (env.noted (.logged line))) (lines : List Log.Line) :
    Keeps P (log lines) := by
  induction lines with
  | nil => exact keeps_pure ()
  | cons line rest ih => exact Keeps.bind (fun env hP => h env line hP) fun _ => ih

theorem keeps_tried {x : Run α} (h : Keeps P x) : Keeps P x.tried := by
  intro env hP
  unfold tried
  cases hx : x env with
  | ok a mid => exact h.ok hP hx
  | error e mid =>
    cases e with
    | failed e => exact h.error hP hx
    | overflow => exact h.error hP hx

/-! ## Going on after a failure -/

/-- An attempt at something after which others go on, even if it fails. -/
def attempt (x : Run α) : Run Unit := do
  let _ ← x.tried
  pure ()

theorem keeps_attempt {x : Run α} (h : Keeps P x) : Keeps P (attempt x) :=
  (keeps_tried h).bind fun _ => keeps_pure ()

theorem attempt_of_ok {x : Run α} {a : α} {env' : Environment} (h : x env = .ok a env') :
    attempt x env = .ok () env' := by
  simp only [attempt, tried, bind_apply, h]
  rfl

theorem attempt_of_failed {x : Run α} {e : Error} {env' : Environment}
    (h : x env = .error (.failed e) env') : attempt x env = .ok () env' := by
  simp only [attempt, tried, bind_apply, h]
  rfl

theorem attempt_of_overflow {x : Run α} {env' : Environment} (h : x env = .error .overflow env') :
    attempt x env = .error .overflow env' := by
  simp only [attempt, tried, bind_apply, h]

theorem attempt_tried (x : Run α) (env : Environment) : attempt x.tried env = attempt x env := by
  cases h : x env with
  | ok a mid =>
    rw [attempt_of_ok h]
    exact attempt_of_ok (a := .ok a) (by simp only [tried, h])
  | error e mid =>
    cases e with
    | failed e =>
      rw [attempt_of_failed h]
      exact attempt_of_ok (a := .error e) (by simp only [tried, h])
    | overflow =>
      rw [attempt_of_overflow h]
      exact attempt_of_overflow (by simp only [tried, h])

/-! ## What a computation adds to the history -/

/-- The environment has the history of another one and then some events of which `K` holds. -/
def Since (start : Environment) (K : List Event → Prop) (env : Environment) : Prop :=
  ∃ es, env.trace = start.trace ++ es ∧ K es

theorem Since.refl {K : List Event → Prop} (h : K []) (env : Environment) : Since env K env :=
  ⟨[], by simp, h⟩

theorem Since.noted {start : Environment} {K K' : List Event → Prop} {e : Event}
    (h : Since start K env) (hK : ∀ es, K es → K' (es ++ [e])) : Since start K' (env.noted e) := by
  obtain ⟨es, htrace, hes⟩ := h
  exact ⟨es ++ [e], by simp [htrace], hK es hes⟩

theorem Since.woken {start : Environment} {K K' : List Event → Prop} {wait : Wait} {d : Duration}
    {clock : Clock} (h : Since start K env)
    (hK : ∀ es, K es → K' (es ++ [.slept wait d clock.now])) :
    Since start K' (env.woken wait d clock) := by
  obtain ⟨es, htrace, hes⟩ := h
  exact ⟨es ++ [.slept wait d clock.now], by simp [htrace], hK es hes⟩

theorem events_eq {x : Run α} {es : List Event} (h : (x.leaves env).trace = env.trace ++ es) :
    x.events env = es := by
  simp [events, h]

/-- A list that is split at an element which its front does not have is split in its back. -/
theorem split_append {α : Type} {front back before after : List α} {e : α} (he : e ∉ front)
    (h : front ++ back = before ++ e :: after) :
    ∃ mid, before = front ++ mid ∧ back = mid ++ e :: after := by
  rcases List.append_eq_append_iff.1 h with ⟨mid, hb, ha⟩ | ⟨rest, hf, ha⟩
  · exact ⟨mid, hb, ha⟩
  · cases rest with
    | nil => exact ⟨[], by simpa using hf.symm, by simpa using ha.symm⟩
    | cons x rest =>
      have hx : e = x := (List.cons.inj ha).1
      exact absurd (by simp [hf, hx]) he

/-- A list that is split at an element which its back does not have is split in its front. -/
theorem split_front {α : Type} {front back before after : List α} {e : α} (he : e ∉ back)
    (h : front ++ back = before ++ e :: after) : ∃ mid, front = before ++ e :: mid := by
  rcases List.append_eq_append_iff.1 h with ⟨mid, -, ha⟩ | ⟨rest, hf, ha⟩
  · exact absurd (by simp [ha]) he
  · cases rest with
    | nil => exact absurd (by rw [← List.nil_append back, ← ha]; exact List.mem_cons_self) he
    | cons x rest =>
      obtain ⟨rfl, -⟩ := List.cons.inj ha
      exact ⟨rest, hf⟩

/-- Where a list with one more element is split. -/
theorem split_concat {α : Type} {front before after : List α} {e x : α}
    (h : front ++ [e] = before ++ x :: after) :
    (front = before ∧ e = x) ∨ ∃ rest, after = rest ++ [e] ∧ front = before ++ x :: rest := by
  rcases List.eq_nil_or_concat after with rfl | ⟨rest, last, rfl⟩
  · obtain ⟨hfront, he⟩ := List.append_inj' h rfl
    exact .inl ⟨hfront, List.singleton_inj.1 he⟩
  · rw [List.concat_eq_append, ← List.cons_append, ← List.append_assoc] at h
    obtain ⟨hfront, he⟩ := List.append_inj' h rfl
    rw [List.singleton_inj.1 he]
    exact .inr ⟨rest, List.concat_eq_append, hfront⟩

end Run
end SignedHttp

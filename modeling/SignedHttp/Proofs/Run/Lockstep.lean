import SignedHttp.Proofs.Run.Trace

/-!
# SignedHttp.Proofs.Run.Lockstep

Two computations side by side. `Run.Lockstep S x y T F`: from environments that `S` relates, `x` and
`y` end in the same way, well with `T` and with a failure with `F`. What is put together from parts
that go in lockstep goes in lockstep itself, so a relation between two runs is carried through them
part by part, as `Run.Leads` carries an assertion through one.
-/

namespace SignedHttp

/-- Both work and the values are related, or both fail for related reasons. -/
inductive Concur {ε δ α β : Type} (E : ε → δ → Prop) (R : α → β → Prop) :
    Except ε α → Except δ β → Prop
  | ok {a : α} {b : β} : R a b → Concur E R (.ok a) (.ok b)
  | error {e : ε} {f : δ} : E e f → Concur E R (.error e) (.error f)

theorem Concur.refl {ε α : Type} {E : ε → ε → Prop} {R : α → α → Prop} (failures : ∀ e, E e e)
    (values : ∀ a, R a a) (x : Except ε α) : Concur E R x x := by
  cases x with
  | ok a => exact .ok (values a)
  | error e => exact .error (failures e)

theorem Concur.mono {ε δ α β : Type} {E E' : ε → δ → Prop} {R R' : α → β → Prop} {x : Except ε α}
    {y : Except δ β} (h : Concur E R x y) (failures : ∀ e f, E e f → E' e f)
    (values : ∀ a b, R a b → R' a b) : Concur E' R' x y := by
  cases h with
  | ok h => exact .ok (values _ _ h)
  | error h => exact .error (failures _ _ h)

theorem Concur.map {ε δ α β γ κ : Type} {E : ε → δ → Prop} {R : α → β → Prop} {T : γ → κ → Prop}
    {x : Except ε α} {y : Except δ β} {f : α → γ} {g : β → κ} (h : Concur E R x y)
    (values : ∀ a b, R a b → T (f a) (g b)) : Concur E T (x.map f) (y.map g) := by
  cases h with
  | ok h => exact .ok (values _ _ h)
  | error h => exact .error h

theorem Concur.bind {ε δ α β γ κ : Type} {E : ε → δ → Prop} {R : α → β → Prop} {T : γ → κ → Prop}
    {x : Except ε α} {y : Except δ β} {f : α → Except ε γ} {g : β → Except δ κ}
    (h : Concur E R x y) (rest : ∀ a b, R a b → Concur E T (f a) (g b)) :
    Concur E T (x >>= f) (y >>= g) := by
  cases h with
  | ok h => exact rest _ _ h
  | error h => exact .error h

theorem Concur.eq {ε α : Type} {x y : Except ε α} (h : Concur Eq Eq x y) : x = y := by
  cases h with
  | ok h => rw [h]
  | error h => rw [h]

theorem eq_of_rel {α : Type} {x y : Option α} (h : Option.Rel Eq x y) : x = y := by
  cases h with
  | none => rfl
  | some hab => rw [hab]

theorem rel_refl {α : Type} {R : α → α → Prop} (h : ∀ a, R a a) (x : Option α) :
    Option.Rel R x x := by
  cases x with
  | none => exact .none
  | some a => exact .some (h a)

namespace Run

/-- Two ways in which computations end, both well or both not. -/
inductive Matches {α β : Type} (T : α → β → Environment → Environment → Prop)
    (F : Stop → Stop → Environment → Environment → Prop) :
    EStateM.Result Stop Environment α → EStateM.Result Stop Environment β → Prop
  | ok {a : α} {b : β} {env₁ env₂ : Environment} : T a b env₁ env₂ →
      Matches T F (.ok a env₁) (.ok b env₂)
  | error {e f : Stop} {env₁ env₂ : Environment} : F e f env₁ env₂ →
      Matches T F (.error e env₁) (.error f env₂)

/-- From environments that `S` relates two computations end in the same way, well with `T` and with
a failure with `F`. -/
def Lockstep {α β : Type} (S : Environment → Environment → Prop) (x : Run α) (y : Run β)
    (T : α → β → Environment → Environment → Prop)
    (F : Stop → Stop → Environment → Environment → Prop) : Prop :=
  ∀ env₁ env₂, S env₁ env₂ → Matches T F (x env₁) (y env₂)

/-- The values are related, and so are the environments. -/
def Both {α β : Type} (R : α → β → Prop) (S : Environment → Environment → Prop) (a : α) (b : β)
    (env₁ env₂ : Environment) : Prop :=
  R a b ∧ S env₁ env₂

variable {α β γ δ : Type} {S S' : Environment → Environment → Prop}
  {T T' : α → β → Environment → Environment → Prop}
  {F F' : Stop → Stop → Environment → Environment → Prop}

theorem Lockstep.bind {x : Run α} {y : Run β} {f : α → Run γ} {g : β → Run δ}
    {R : γ → δ → Environment → Environment → Prop} (h : Lockstep S x y T F)
    (rest : ∀ a b, Lockstep (T a b) (f a) (g b) R F) : Lockstep S (x >>= f) (y >>= g) R F := by
  intro env₁ env₂ hS
  have first := h env₁ env₂ hS
  rw [bind_apply, bind_apply]
  generalize x env₁ = r₁ at first ⊢
  generalize y env₂ = r₂ at first ⊢
  cases first with
  | ok hT => exact rest _ _ _ _ hT
  | error hF => exact .error hF

theorem Lockstep.mono {x : Run α} {y : Run β} (h : Lockstep S x y T F)
    (start : ∀ env₁ env₂, S' env₁ env₂ → S env₁ env₂)
    (well : ∀ a b env₁ env₂, T a b env₁ env₂ → T' a b env₁ env₂)
    (ill : ∀ e f env₁ env₂, F e f env₁ env₂ → F' e f env₁ env₂) : Lockstep S' x y T' F' := by
  intro env₁ env₂ hS
  have both := h env₁ env₂ (start env₁ env₂ hS)
  generalize x env₁ = r₁ at both ⊢
  generalize y env₂ = r₂ at both ⊢
  cases both with
  | ok hT => exact .ok (well _ _ _ _ hT)
  | error hF => exact .error (ill _ _ _ _ hF)

theorem lockstep_pure {a : α} {b : β} (h : ∀ env₁ env₂, S env₁ env₂ → T a b env₁ env₂) :
    Lockstep S (pure a) (pure b) T F :=
  fun env₁ env₂ hS => .ok (h env₁ env₂ hS)

theorem lockstep_fail {e f : Error}
    (h : ∀ env₁ env₂, S env₁ env₂ → F (.failed e) (.failed f) env₁ env₂) :
    Lockstep S (fail e : Run α) (fail f : Run β) T F :=
  fun env₁ env₂ hS => .error (h env₁ env₂ hS)

theorem lockstep_get :
    Lockstep S get get (fun a b env₁ env₂ => a = env₁ ∧ b = env₂ ∧ S env₁ env₂) F :=
  fun _ _ hS => .ok ⟨rfl, rfl, hS⟩

theorem lockstep_modify {f g : Environment → Environment}
    (h : ∀ env₁ env₂, S env₁ env₂ → S' (f env₁) (g env₂)) :
    Lockstep S (modify f : Run Unit) (modify g : Run Unit) (fun _ _ => S') F :=
  fun env₁ env₂ hS => .ok (h env₁ env₂ hS)

theorem lockstep_note {e f : Event}
    (h : ∀ env₁ env₂, S env₁ env₂ → S' (env₁.noted e) (env₂.noted f)) :
    Lockstep S (note e) (note f) (fun _ _ => S') F :=
  lockstep_modify h

theorem lockstep_now (h : ∀ env₁ env₂, S env₁ env₂ → env₁.clock = env₂.clock) :
    Lockstep S now now (Both Eq S) F :=
  fun env₁ env₂ hS => .ok ⟨by rw [h env₁ env₂ hS], hS⟩

theorem lockstep_lift {E : Stop → Stop → Prop} {R : α → β → Prop} {x : Except Error α}
    {y : Except Error β} (h : Concur Eq R x y) (same : ∀ e, E e e) :
    Lockstep S (lift x) (lift y) (Both R S) (Both E S) := by
  cases h with
  | ok hab => exact lockstep_pure fun _ _ hS => ⟨hab, hS⟩
  | @error e _ he =>
    subst he
    exact lockstep_fail fun _ _ hS => ⟨same _, hS⟩

theorem lockstep_log
    (h : ∀ line env₁ env₂, S env₁ env₂ → S (env₁.noted (.logged line)) (env₂.noted (.logged line)))
    (lines : List Log.Line) : Lockstep S (log lines) (log lines) (fun _ _ => S) F := by
  induction lines with
  | nil => exact lockstep_pure fun _ _ hS => hS
  | cons line rest ih => exact (lockstep_note (h line)).bind fun _ _ => ih

theorem lockstep_advance {d : Duration} (clock : ∀ env₁ env₂, S env₁ env₂ → env₁.clock = env₂.clock)
    (moved : ∀ env₁ env₂ clock, env₁.clock.advance? d = some clock → S env₁ env₂ →
      S' { env₁ with clock } { env₂ with clock })
    (ill : ∀ env₁ env₂, S env₁ env₂ → F .overflow .overflow env₁ env₂) :
    Lockstep S (advance d) (advance d) (fun _ _ => S') F := by
  intro env₁ env₂ hS
  have same := clock env₁ env₂ hS
  cases hc : env₁.clock.advance? d with
  | some later =>
    rw [advance_eq hc, advance_eq (same ▸ hc)]
    exact .ok (moved env₁ env₂ later hc hS)
  | none =>
    rw [advance_eq_overflow hc, advance_eq_overflow (same ▸ hc)]
    exact .error (ill env₁ env₂ hS)

theorem lockstep_sleep {wait : Wait} {d : Duration}
    (clock : ∀ env₁ env₂, S env₁ env₂ → env₁.clock = env₂.clock)
    (woken : ∀ env₁ env₂ clock, env₁.clock.sleep? d = some clock → S env₁ env₂ →
      S' (env₁.woken wait d clock) (env₂.woken wait d clock))
    (ill : ∀ env₁ env₂, S env₁ env₂ → F .overflow .overflow env₁ env₂) :
    Lockstep S (sleep wait d) (sleep wait d) (fun _ _ => S') F := by
  intro env₁ env₂ hS
  have same := clock env₁ env₂ hS
  cases hc : env₁.clock.sleep? d with
  | some later =>
    rw [sleep_eq hc, sleep_eq (same ▸ hc)]
    exact .ok (woken env₁ env₂ later hc hS)
  | none =>
    rw [sleep_eq_overflow hc, sleep_eq_overflow (same ▸ hc)]
    exact .error (ill env₁ env₂ hS)

/-- How two computations in lockstep end, and the environments that they leave. -/
theorem Lockstep.ends {x : Run α} {y : Run β} {E : Stop → Stop → Prop} {R : α → β → Prop}
    {env₁ env₂ : Environment} (h : Lockstep S x y (Both R S') (Both E S')) (hS : S env₁ env₂) :
    Concur E R (x.outcome env₁) (y.outcome env₂) ∧ S' (x.leaves env₁) (y.leaves env₂) := by
  have both := h env₁ env₂ hS
  unfold outcome leaves
  generalize x env₁ = r₁ at both ⊢
  generalize y env₂ = r₂ at both ⊢
  cases both with
  | ok hT => exact ⟨.ok hT.1, hT.2⟩
  | error hF => exact ⟨.error hF.1, hF.2⟩

end Run
end SignedHttp

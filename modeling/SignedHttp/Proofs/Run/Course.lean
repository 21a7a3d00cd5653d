import SignedHttp.Proofs.Run.Trace

/-!
# SignedHttp.Proofs.Run.Course

A computation cut into steps, between which others may take their turn. `Course.run` carries out all
the steps at once; `Course.once` is a computation that is one single step. Courses are put together
like computations, and `run` respects that (`run_bind`, `run_tried`), so a course that is written as
a computation is written is a way to carry that computation out.
-/

namespace SignedHttp

/-- What is left of a computation. Where it goes on after a step depends on the environment in which
the step was made. -/
inductive Course (α : Type)
  | ended (result : Except Stop α)
  | step (effect : Environment → Environment) (rest : Environment → Course α)

namespace Course

open Run

variable {α β : Type}

def run : Course α → Run α
  | ended (.ok a) => pure a
  | ended (.error e) => throw e
  | step effect rest => fun env => (rest env).run (effect env)

def once (x : Run α) : Course α := step x.leaves fun env => ended (x.outcome env)

def bind : Course α → (α → Course β) → Course β
  | ended (.ok a), f => f a
  | ended (.error e), _ => ended (.error e)
  | step effect rest, f => step effect fun env => (rest env).bind f

instance : Monad Course where
  pure a := ended (.ok a)
  bind := bind

/-- A failure is a result too. -/
def tried : Course α → Course (Except Error α)
  | ended (.ok a) => ended (.ok (.ok a))
  | ended (.error (.failed e)) => ended (.ok (.error e))
  | ended (.error .overflow) => ended (.error .overflow)
  | step effect rest => step effect fun env => (rest env).tried

@[simp] theorem run_pure (a : α) : (pure a : Course α).run = pure a := rfl

@[simp] theorem run_once (x : Run α) : (once x).run = x := by
  funext env
  show (ended (x.outcome env)).run (x.leaves env) = x env
  unfold outcome leaves
  cases x env <;> rfl

@[simp] theorem run_bind (c : Course α) (f : α → Course β) :
    (c >>= f).run = c.run >>= fun a => (f a).run := by
  show (c.bind f).run = _
  induction c with
  | ended result => cases result <;> rfl
  | step effect rest ih =>
    funext env
    show ((rest env).bind f).run (effect env) = _
    rw [ih env, bind_apply, bind_apply]
    rfl

theorem run_tried (c : Course α) : c.tried.run = c.run.tried := by
  induction c with
  | ended result =>
    cases result with
    | ok a => rfl
    | error e => cases e <;> rfl
  | step effect rest ih =>
    funext env
    show (rest env).tried.run (effect env) = _
    rw [ih env]
    rfl

end Course
end SignedHttp

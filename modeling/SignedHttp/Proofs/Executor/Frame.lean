import SignedHttp.Proofs.Executor.Attempt
import SignedHttp.Proofs.Time.Order

/-!
# SignedHttp.Proofs.Executor.Frame

What an attempt does besides signing, waiting for the limiter and handing its request over. It
writes down events of its own (`Event.isAside`), lets time go by and changes the known pauses.
`KeptAside P` says that none of this makes `P` false, so that of a run nothing else needs to be
looked at (`KeptAside.execute`): what signing does to `P`, what is known when a slot has come, and
what becomes of that when the request leaves.
-/

namespace SignedHttp

/-- Something that happens in an attempt, but not in signing its request or sending it. -/
def Event.isAside : Event → Bool
  | .logged _ | .slept _ _ _ | .built _ | .returned _ _ | .paused _ _ | .cleared _ => true
  | .asked _ | .consulted _ _ | .cached _ | .signed _ | .sent _ _ _ => false

namespace Executor

open Run

/-- An assertion that cannot be made false by what an attempt does aside. -/
structure KeptAside (P : Environment → Prop) : Prop where
  note : ∀ {env : Environment} {e : Event}, e.isAside = true → P env → P (env.noted e)
  clock : ∀ {env : Environment} {d : Duration} {clock : Clock},
    env.clock.now.add? d = some clock.now → P env → P { env with clock }
  throttles : ∀ {env : Environment} (throttles : Throttles), P env → P { env with throttles }

variable {P Q : Environment → Prop} {s : Signer} {build : Build} {deadline : Instant}

namespace KeptAside

theorem slept (h : KeptAside P) {env : Environment} {wait : Wait} {d : Duration} {clock : Clock}
    (hc : env.clock.sleep? d = some clock) (hP : P env) : P (env.woken wait d clock) :=
  h.note rfl (h.clock (Clock.now_of_sleep? hc) hP)

theorem waitOut (h : KeptAside P) (label : String) (pause : Throttle) :
    Keeps P (waitOut label pause deadline) :=
  keeps_waitOut_of (fun _ => h.note rfl) h.slept label pause

theorem heed (h : KeptAside P) (key : String) : Keeps P (heed key deadline) :=
  keeps_heed_of (fun _ => h.note rfl) h.slept h.throttles key

theorem conclude (h : KeptAside P) (d : Departure) (n : Nat) (r : Response) :
    Keeps P (conclude d deadline n r) := by
  intro env hP
  have free : P (released d.key env) := h.note rfl (h.throttles _ hP)
  have known (resumeAt : Instant) : P (held d.key ⟨resumeAt, retryAfter? r⟩ env) :=
    h.note rfl (h.throttles _ hP)
  cases hc : Executor.conclude d deadline n r env with
  | error e env' =>
    obtain ⟨-, -, -, rfl⟩ | ⟨-, -, -, line, rfl⟩ | ⟨-, resumeAt, -, hw⟩ := conclude_eq_error hc
    · exact free
    · exact h.note rfl hP
    · exact (h.waitOut _ _).error (known resumeAt) hw
  | ok answer env' =>
    cases answer with
    | some r' =>
      obtain ⟨-, -, rfl⟩ := conclude_eq_answered hc
      exact free
    | none =>
      obtain ⟨-, resumeAt, -, hw⟩ := conclude_eq_again hc
      exact (h.waitOut _ _).ok (known resumeAt) hw

theorem send (h : KeptAside P) {d : Departure}
    (departs : ∀ left env, Q env → P (departed d left env)) (x : Exchange) (left : List Exchange) :
    Leads Q (send d x left) (fun _ => P) P := by
  intro env hQ
  have gone := departs left env hQ
  have back {clock : Clock} (hc : env.clock.advance? x.takes = some clock) :
      P (replied d x left clock env) :=
    h.note rfl (h.clock (Clock.now_of_advance? hc) gone)
  cases hs : Executor.send d x left env with
  | ok r env' =>
    obtain ⟨-, clock, hc, rfl⟩ := send_eq_ok hs
    exact back hc
  | error e env' =>
    obtain ⟨-, rfl⟩ | ⟨cause, clock, -, hc, -, rfl⟩ := send_eq_error hs
    · exact gone
    · exact back hc

/-- A whole run keeps what is kept aside, if `Q` holds between the slot of a request and its
departure. -/
theorem execute (h : KeptAside P) (signs : ∀ r, Keeps P (s.sign r))
    (acquires : Leads P acquire (fun _ => Q) P)
    (logged : ∀ env line, Q env → Q (env.noted (.logged line)))
    (departs : ∀ d left env, Q env → P (departed d left env)) (weaker : ∀ env, Q env → P env) :
    Keeps P (execute s build deadline) := by
  refine keeps_execute (Q := fun _ => Q) (fun n => ?_) (fun d => h.send (departs d))
    (fun _ => weaker) h.conclude
  -- `P` holds until the slot has come, and `Q` from there on
  exact leads_prepare_of n (fun env hP => h.note rfl hP) h.heed fun r =>
    leads_dispatch (signs r) acquires fun signed =>
      (keeps_load logged n signed).mono (fun _ hQ => hQ) (fun _ _ hQ => hQ) weaker

end KeptAside

end Executor
end SignedHttp

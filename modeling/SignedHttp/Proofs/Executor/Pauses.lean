import Mathlib.Logic.Relation
import SignedHttp.Proofs.Executor.Attempt
import SignedHttp.Proofs.Retry.Throttles

/-!
# SignedHttp.Proofs.Executor.Pauses

What a run does to time and to the known pauses, as a transition system.

* `Moment`: what has happened so far, the present, and the pauses.
* `Step`: the ways in which one moment leads to another. A request leaves only while its resource is
  not in a pause, and a pause is slept away only if its end is allowed and only until that end.
* `keeps_execute_underway`: every run of an executor is a path of such steps, as long as there are
  no leap seconds. What the steps preserve therefore holds throughout every run.
-/

namespace SignedHttp

/-! ## Without leap seconds -/

/-- A pause is recorded that ends in a leap second. -/
def Event.isLeap : Event → Bool
  | .paused _ pause => pause.resumeAt.isLeap
  | .logged _ | .asked _ | .consulted _ _ | .cached _ | .slept _ _ _ | .built _ | .signed _
  | .sent _ _ _ | .returned _ _ | .cleared _ => false

def Event.NoLeap (es : List Event) : Prop := ∀ e ∈ es, e.isLeap = false

instance (es : List Event) : Decidable (Event.NoLeap es) :=
  inferInstanceAs (Decidable (∀ e ∈ es, e.isLeap = false))

namespace Throttles

def NoLeap (t : Throttles) : Prop := ∀ e ∈ t.entries, e.2.resumeAt.isLeap = false

instance (t : Throttles) : Decidable t.NoLeap :=
  inferInstanceAs (Decidable (∀ e ∈ t.entries, e.2.resumeAt.isLeap = false))

variable {t : Throttles} {key : String} {pause : Throttle}

theorem NoLeap.get? (h : t.NoLeap) (hp : t.get? key = some pause) :
    pause.resumeAt.isLeap = false := by
  obtain ⟨front, back, hentries, -⟩ := List.lookup_eq_some_iff.1 hp
  exact h (key, pause) (by simp [hentries])

theorem NoLeap.clear (h : t.NoLeap) (key : String) : (t.clear key).NoLeap :=
  fun e he => h e (List.mem_filter.1 he).1

theorem NoLeap.record (h : t.NoLeap) (key : String) (hp : pause.resumeAt.isLeap = false) :
    (t.record key pause).NoLeap := by
  have put : (t.put key pause).NoLeap := by
    intro e he
    rcases List.mem_append.1 he with he | he
    · exact h e (List.mem_filter.1 he).1
    · rw [List.mem_singleton.1 he]
      exact hp
  unfold Throttles.record
  cases t.get? key with
  | none => exact put
  | some known =>
    dsimp only
    split
    · exact h
    · exact put

end Throttles

/-! ## Moments -/

/-- What has happened, when it is, and which pauses are known. -/
structure Moment where
  events : List Event
  now : Instant
  throttles : Throttles

namespace Moment

def add (m : Moment) (e : Event) : Moment := { m with events := m.events ++ [e] }

/-- No leap second is in sight. -/
structure Civil (m : Moment) : Prop where
  now : m.now.isLeap = false
  throttles : m.throttles.NoLeap

/-- The pause of a resource is over, if it has one. -/
def Past (m : Moment) (key : String) : Prop :=
  ∀ pause, m.throttles.get? key = some pause → pause.resumeAt ≤ m.now

end Moment

/-- An event that has nothing to do with time, pauses or the transport. -/
def Event.isPlain : Event → Bool
  | .logged _ | .asked _ | .consulted _ _ | .cached _ | .built _ | .signed _ | .returned _ _ => true
  | .slept _ _ _ | .sent _ _ _ | .paused _ _ | .cleared _ => false

/-- How one moment leads to another if pauses are slept away that end at the allowed instants. -/
inductive Step (allowed : Instant → Prop) : Moment → Moment → Prop where
  | noted {m : Moment} {e : Event} : e.isPlain = true → Step allowed m (m.add e)
  | passed {m : Moment} {d : Duration} {t : Instant} :
      m.now.add? d = some t → Step allowed m { m with now := t }
  | slept {m : Moment} {wait : Wait} {d : Duration} {t : Instant} :
      (∀ pause, wait ≠ .pause pause) → m.now.add? d = some t →
      Step allowed m { m.add (.slept wait d t) with now := t }
  | waited {m : Moment} {pause : Throttle} :
      pause.resumeAt.isLeap = false → m.now ≤ pause.resumeAt → allowed pause.resumeAt →
      Step allowed m {
        m.add (.slept (.pause pause) (pause.resumeAt.remaining m.now) pause.resumeAt) with
        now := pause.resumeAt }
  /-- A pause that is over is forgotten. -/
  | dropped {m : Moment} {key : String} :
      m.Past key → Step allowed m { m with throttles := m.throttles.clear key }
  | sent {m : Moment} {key : String} {message : Message} :
      m.Past key → Step allowed m (m.add (.sent key message m.now))
  | paused {m : Moment} {key : String} {pause : Throttle} :
      pause.resumeAt.isLeap = false →
      Step allowed m { m.add (.paused key pause) with throttles := m.throttles.record key pause }
  | cleared {m : Moment} {key : String} :
      Step allowed m { m.add (.cleared key) with throttles := m.throttles.clear key }

variable {allowed : Instant → Prop} {m m' : Moment}

theorem Step.civil (h : Step allowed m m') (hm : m.Civil) : m'.Civil := by
  cases h with
  | noted _ => exact ⟨hm.now, hm.throttles⟩
  | passed h => exact ⟨(Instant.value_of_add? hm.now h).2, hm.throttles⟩
  | slept _ h => exact ⟨(Instant.value_of_add? hm.now h).2, hm.throttles⟩
  | waited hp _ _ => exact ⟨hp, hm.throttles⟩
  | dropped _ => exact ⟨hm.now, hm.throttles.clear _⟩
  | sent _ => exact ⟨hm.now, hm.throttles⟩
  | paused hp => exact ⟨hm.now, hm.throttles.record _ hp⟩
  | cleared => exact ⟨hm.now, hm.throttles.clear _⟩

abbrev Path (allowed : Instant → Prop) : Moment → Moment → Prop :=
  Relation.ReflTransGen (Step allowed)

theorem civil_of_path (h : Path allowed m m') (hm : m.Civil) : m'.Civil := by
  induction h with
  | refl => exact hm
  | tail _ step ih => exact step.civil ih

/-! ## Runs as paths -/

/-- The moment at which a run begins, as far as the run is concerned. -/
def Environment.start (env : Environment) : Moment := ⟨[], env.clock.now, env.throttles⟩

namespace Run

/-- If no pause that is recorded since the start ends in a leap second, `K` holds of this moment. -/
def Throughout (start : Environment) (K : Moment → Prop) (env : Environment) : Prop :=
  ∃ es, env.trace = start.trace ++ es ∧
    (Event.NoLeap es → K ⟨es, env.clock.now, env.throttles⟩)

variable {start env env' : Environment} {K K' : Moment → Prop} {new : List Event}

theorem Throughout.extend (h : Throughout start K env) (htrace : env'.trace = env.trace ++ new)
    (hK : ∀ es, Event.NoLeap new → K ⟨es, env.clock.now, env.throttles⟩ →
      K' ⟨es ++ new, env'.clock.now, env'.throttles⟩) : Throughout start K' env' := by
  obtain ⟨es, hes, hm⟩ := h
  refine ⟨es ++ new, by rw [htrace, hes, List.append_assoc], fun noLeap => ?_⟩
  exact hK es (fun e he => noLeap e (List.mem_append_right _ he))
    (hm fun e he => noLeap e (List.mem_append_left _ he))

theorem Throughout.mono (h : Throughout start K env) (htrace : env'.trace = env.trace)
    (hK : ∀ es, K ⟨es, env.clock.now, env.throttles⟩ →
      K' ⟨es, env'.clock.now, env'.throttles⟩) : Throughout start K' env' := by
  obtain ⟨es, hes, hm⟩ := h
  exact ⟨es, by rw [htrace, hes], fun noLeap => hK es (hm noLeap)⟩

def Reached (allowed : Instant → Prop) (first : Moment) (G : Instant → Throttles → Prop)
    (m : Moment) : Prop :=
  Path allowed first m ∧ G m.now m.throttles

variable {allowed : Instant → Prop} {first : Moment} {G : Instant → Throttles → Prop}

theorem Throughout.noted {e : Event} (h : Throughout start (Reached allowed first G) env)
    (plain : e.isPlain = true) : Throughout start (Reached allowed first G) (env.noted e) :=
  h.extend (env.noted_trace e) fun _ _ hm => ⟨hm.1.tail (.noted plain), hm.2⟩

/-- Signing and waiting for the limiter are steps, and no time that goes by makes `G` false. -/
theorem stable_reached (later : ∀ now t throttles, now ≤ t → G now throttles → G t throttles) :
    Stable (Throughout start (Reached allowed first G)) where
  note {env e} slept routine h := by
    refine h.noted ?_
    cases e <;> first | rfl | exact absurd rfl (slept _ _ _) | cases routine
  sleep {env wait d clock} routine hsleep h := by
    refine h.extend (env.woken_trace wait d clock) fun es _ hm => ?_
    have moved := Clock.now_of_sleep? hsleep
    refine ⟨hm.1.tail (.slept ?_ moved), later _ _ _ (Instant.le_of_add? moved) hm.2⟩
    rintro pause rfl
    cases routine
  cache _ h := h
  supplies _ h := h
  limiter _ h := h

theorem Throughout.weaken (h : Throughout start (Reached allowed first G) env) :
    Throughout start (Reached allowed first fun _ _ => True) env :=
  h.mono rfl fun _ hm => ⟨hm.1, trivial⟩

end Run

namespace Executor

open Run

variable {start : Environment} {allowed : Instant → Prop} {first : Moment} {deadline : Instant}

abbrev Underway (allowed : Instant → Prop) (first : Moment) (start : Environment)
    (G : Instant → Throttles → Prop) : Environment → Prop :=
  Throughout start (Reached allowed first G)

section Civil

variable (civil : first.Civil) (within : ∀ t, t ≤ deadline → allowed t)
include civil within

/-- After waiting for a pause its end has come. -/
theorem leads_waitOut {F : Throttles → Prop} (label : String) (pause : Throttle) :
    Leads (Underway allowed first start fun _ throttles =>
        pause.resumeAt.isLeap = false ∧ F throttles)
      (waitOut label pause deadline)
      (fun _ => Underway allowed first start fun now throttles =>
        pause.resumeAt ≤ now ∧ F throttles)
      (Underway allowed first start fun _ _ => True) := by
  intro env h
  have logged (line : Log.Line) := h.noted (e := .logged line) rfl
  cases hw : waitOut label pause deadline env with
  | error e env' =>
    obtain ⟨-, line, rfl⟩ := waitOut_eq_error hw
    exact (logged line).weaken
  | ok a env' =>
    obtain ⟨early, ⟨ended, rfl⟩ | ⟨line, clock, running, hsleep, rfl⟩⟩ := waitOut_eq_ok hw
    · refine h.mono rfl fun es hm => ⟨hm.1, ?_, hm.2.2⟩
      exact (Instant.remaining_eq_zero hm.2.1 (civil_of_path hm.1 civil).now).1 ended
    · refine (logged line).extend (Environment.woken_trace _ _ _ _) fun es _ hm => ?_
      obtain ⟨path, hp, hF⟩ := hm
      have hc : env.clock.now.isLeap = false := (civil_of_path path civil).now
      have hle : env.clock.now ≤ pause.resumeAt := Instant.le_of_remaining hp hc running
      -- with leap seconds somebody could wake up before the end of the pause
      have wakes : clock.now = pause.resumeAt := by
        have moved := Clock.now_of_sleep? hsleep
        rw [Instant.add?_remaining hp hc hle] at moved
        exact (Option.some.inj moved).symm
      rw [Environment.woken_clock, Environment.woken_throttles, wakes]
      exact ⟨path.tail (.waited hp hle (within _ (Instant.not_lt.1 early))),
        Instant.le_refl _, hF⟩

/-- After heeding the pause of a resource it is over. -/
theorem leads_heed (key : String) :
    Leads (Underway allowed first start fun _ _ => True) (heed key deadline)
      (fun _ => Underway allowed first start fun now throttles =>
        ∀ pause, throttles.get? key = some pause → pause.resumeAt ≤ now)
      (Underway allowed first start fun _ _ => True) := by
  intro env h
  rw [heed_apply]
  obtain ⟨pause, hknown, -, hpending⟩ | ⟨pause, hknown, ended, hpending⟩ | ⟨hknown, hpending⟩ :=
    env.throttles.pending_cases key env.clock.now
  · rw [hpending]
    have known : Underway allowed first start (fun _ throttles =>
        pause.resumeAt.isLeap = false ∧ throttles.get? key = some pause) env :=
      h.mono rfl fun es hm => ⟨hm.1, (civil_of_path hm.1 civil).throttles.get? hknown, hknown⟩
    refine (leads_waitOut civil within key pause).mono (fun _ h => h) (fun _ env h => ?_)
      (fun _ h => h) env known
    refine h.mono rfl fun es hm => ⟨hm.1, fun pause' hknown' => ?_⟩
    rw [hm.2.2] at hknown'
    cases hknown'
    exact hm.2.1
  · rw [hpending]
    refine h.mono rfl fun es hm => ⟨hm.1.tail (.dropped fun pause' hknown' => ?_), ?_⟩
    · cases hknown.symm.trans hknown'
      exact ended
    · intro pause' hknown'
      rw [Throttles.get?_clear, if_pos rfl] at hknown'
      cases hknown'
  · rw [hpending]
    refine h.mono rfl fun es hm => ⟨hm.1, fun pause' hknown' => ?_⟩
    cases hknown.symm.trans hknown'

end Civil

theorem leads_send (d : Departure) (x : Exchange) (left : List Exchange) :
    Leads (Underway allowed first start fun now throttles =>
        ∀ pause, throttles.get? d.key = some pause → pause.resumeAt ≤ now)
      (send d x left) (fun _ => Underway allowed first start fun _ _ => True)
      (Underway allowed first start fun _ _ => True) := by
  intro env h
  have gone : Underway allowed first start (fun _ _ => True) (departed d left env) :=
    h.extend (departed_trace d left) fun es _ hm => ⟨hm.1.tail (.sent hm.2), trivial⟩
  have back {clock : Clock} (moved : env.clock.advance? x.takes = some clock) :
      Underway allowed first start (fun _ _ => True) (replied d x left clock env) := by
    refine Throughout.noted (gone.mono rfl fun es hm => ?_) rfl
    exact ⟨hm.1.tail (.passed (Clock.now_of_advance? moved)), trivial⟩
  cases hs : send d x left env with
  | ok r env' =>
    obtain ⟨-, clock, moved, rfl⟩ := send_eq_ok hs
    exact back moved
  | error e env' =>
    obtain ⟨-, rfl⟩ | ⟨cause, clock, -, moved, -, rfl⟩ := send_eq_error hs
    · exact gone
    · exact back moved

theorem keeps_conclude (civil : first.Civil) (within : ∀ t, t ≤ deadline → allowed t)
    (d : Departure) (n : Nat) (r : Response) :
    Keeps (Underway allowed first start fun _ _ => True) (conclude d deadline n r) := by
  intro env h
  have free : Underway allowed first start (fun _ _ => True) (released d.key env) :=
    h.extend (released_trace d.key) fun es _ hm => ⟨hm.1.tail .cleared, trivial⟩
  have kept (resumeAt : Instant) : Underway allowed first start
      (fun _ _ => resumeAt.isLeap = false ∧ True) (held d.key ⟨resumeAt, retryAfter? r⟩ env) := by
    refine h.extend (held_trace d.key _) fun es noLeap hm => ?_
    have hp : resumeAt.isLeap = false := noLeap _ (List.mem_singleton_self _)
    exact ⟨hm.1.tail (.paused hp), hp, trivial⟩
  cases hc : conclude d deadline n r env with
  | error e env' =>
    obtain ⟨-, -, -, rfl⟩ | ⟨-, -, -, line, rfl⟩ | ⟨-, resumeAt, -, hw⟩ := conclude_eq_error hc
    · exact free
    · exact h.noted rfl
    · exact (leads_waitOut civil within _ _).error (kept resumeAt) hw
  | ok answer env' =>
    cases answer with
    | some r' =>
      obtain ⟨-, -, rfl⟩ := conclude_eq_answered hc
      exact free
    | none =>
      obtain ⟨-, resumeAt, -, hw⟩ := conclude_eq_again hc
      exact ((leads_waitOut civil within _ _).ok (kept resumeAt) hw).weaken

/-- A whole run is a path. -/
theorem keeps_execute_underway (civil : first.Civil) (within : ∀ t, t ≤ deadline → allowed t)
    (s : Signer) (build : Build) :
    Keeps (Underway allowed first start fun _ _ => True) (execute s build deadline) := by
  refine keeps_execute (Q := fun d => Underway allowed first start fun now throttles =>
    ∀ pause, throttles.get? d.key = some pause → pause.resumeAt ≤ now) ?_ leads_send
    (fun _ _ h => h.weaken) (keeps_conclude civil within)
  intro n
  refine leads_prepare n (fun env h => h.noted rfl) (leads_heed civil within) (fun key => ?_)
    fun _ _ h => h.weaken
  exact stable_reached fun now t throttles hle hG pause hknown =>
    Instant.le_trans (hG pause hknown) hle

end Executor
end SignedHttp

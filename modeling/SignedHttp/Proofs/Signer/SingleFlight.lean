import Mathlib.Logic.Function.Iterate
import SignedHttp.Proofs.Run.Crowd
import SignedHttp.Proofs.Signer.Course
import SignedHttp.Proofs.Signer.Lookup
import SignedHttp.Proofs.Time.Order

/-!
# SignedHttp.Proofs.Signer.SingleFlight

Many callers that look up a credential at the same time (`credential_singleFlight`). They take a
lock for it, so what they come to is what they come to one after another, in the order in which they
get the lock. Of lookups one after another only the first one asks the source while its answer can
be used: the answer is in the cache when the next one looks, and the clock has not moved since.
-/

namespace SignedHttp

open Run

namespace Run

variable {α : Type} {x : Run α} {env env' : Environment} {n : Nat}

theorem leaves_of_tried {a : Except Error α} (h : x.tried env = .ok a env') :
    x.leaves env = env' := by
  unfold tried at h
  unfold leaves
  cases hx : x env with
  | ok b mid =>
    rw [hx] at h
    cases h
    rfl
  | error e mid =>
    rw [hx] at h
    cases e with
    | failed e =>
      cases h
      rfl
    | overflow => cases h

theorem eq_ok_of_tried {a : Except Error α} {b : α} (h : x.tried env = .ok a env')
    (hb : x.outcome env = .ok b) : a = .ok b := by
  unfold tried at h
  unfold outcome at hb
  cases hx : x env with
  | ok b' mid =>
    rw [hx] at h hb
    cases h
    cases hb
    rfl
  | error e mid =>
    rw [hx] at hb
    cases hb

/-- Callers one after another: each of them begins in the environment that the one before it has
left. -/
theorem times_tried {answers : List (Except Error α)}
    (h : times x.tried n env = .ok answers env') :
    x.leaves^[n] env = env' ∧ answers.length = n ∧
      ∀ k a, answers[k]? = some a → ∃ next, x.tried (x.leaves^[k] env) = .ok a next := by
  induction n generalizing env answers with
  | zero =>
    cases h
    exact ⟨rfl, rfl, fun k a hk => by simp at hk⟩
  | succ n ih =>
    obtain ⟨a, next, rest, hx, hrest, rfl⟩ := times_eq_ok h
    obtain ⟨hleaves, hlength, hrest⟩ := ih hrest
    have moved : x.leaves env = next := leaves_of_tried hx
    refine ⟨?_, by rw [List.length_cons, hlength], fun k b hb => ?_⟩
    · rw [Function.iterate_succ_apply, moved, hleaves]
    · cases k with
      | zero =>
        cases hb
        exact ⟨next, hx⟩
      | succ k =>
        rw [Function.iterate_succ_apply, moved]
        exact hrest k b hb

end Run

namespace Signer

variable {s : Signer} {env start : Environment} {n : Nat}

/-! ## Lookups one after another -/

def after (s : Signer) (env : Environment) (n : Nat) : Environment := s.credential.leaves^[n] env

theorem after_succ (s : Signer) (env : Environment) (n : Nat) :
    s.after env (n + 1) = s.credential.leaves (s.after env n) :=
  Function.iterate_succ_apply' _ _ _

theorem follows_after (s : Signer) (start : Environment) (n : Nat) :
    Follows s start ((List.range n).map (s.after start)) (s.after start n) := by
  induction n with
  | zero => exact .refl
  | succ n ih =>
    rw [List.range_succ, List.map_append, List.map_singleton, after_succ]
    exact ih.look

/-- An answer stays in the cache as long as there is no other one. -/
theorem cache_after {i j : Nat} {answer : Option Credential} (hij : i < j)
    (hanswer : s.answer? (s.after start i) = some answer)
    (others : ∀ k, i < k → k < j → s.answer? (s.after start k) = none) :
    (s.after start j).cache = answer := by
  obtain ⟨d, rfl⟩ : ∃ d, j = i + d + 1 := ⟨j - i - 1, by omega⟩
  induction d with
  | zero => rw [Nat.add_zero, after_succ, cache_leaves, hanswer, Option.getD_some]
  | succ d ih =>
    rw [after_succ, cache_leaves, others (i + (d + 1)) (by omega) (by omega), Option.getD_none]
    exact ih (by omega) fun k hik hkj => others k hik (by omega)

/-- Once an answer is in the cache that can be used, lookups find it and change nothing. -/
theorem after_of_usable (h : Credential.usable env.cache env.clock.now = true) (n : Nat) :
    s.after env n = env := by
  induction n with
  | zero => rfl
  | succ n ih =>
    rw [after_succ, ih]
    unfold leaves
    rw [credential_of_usable h]
    rfl

/-! ## Lookups at the same time -/

/-- What callers come to whose turns are in the order of a schedule. -/
def crowd (s : Signer) (start : Environment) (schedule : List Nat) :
    Crowd (Except Error (Option Credential)) :=
  Crowd.play s.course.tried start schedule

theorem run_tried_course (s : Signer) : s.course.tried.run = s.credential.tried := by
  rw [Course.run_tried, run_course]

theorem crowd_sequential {schedule : List Nat} (free : (s.crowd start schedule).holder = none) :
    Crowd.Sequential s.credential.tried start (s.crowd start schedule) := by
  have sequential := (Crowd.orderly_play s.course.tried start schedule).sequential free
  rwa [run_tried_course] at sequential

theorem env_of_sequential {m : Crowd (Except Error (Option Credential))}
    (h : Crowd.Sequential s.credential.tried start m) : m.env = s.after start m.entered.length := by
  obtain ⟨answers, htimes, -⟩ := h.answered
  exact (times_tried htimes).1.symm

section First

variable {answer : Option Credential}
  (empty : Credential.usable start.cache start.clock.now = false)
  (found : s.credential.outcome start = .ok answer)
  (lasts : Credential.usable answer (s.after start 1).clock.now = true)
include empty found lasts

/-- If the first answer can be used when it is stored, everybody else finds it. -/
theorem after_of_first (k : Nat) :
    s.after start (k + 1) = s.after start 1 ∧ s.asked (s.after start (k + 1)) = [] ∧
      s.credential.outcome (s.after start (k + 1)) = .ok answer := by
  have stored : (s.after start 1).cache = answer := by
    show (s.credential.leaves start).cache = answer
    rw [(lookup_of_unusable s empty).2.1, found]
    rfl
  have usable : Credential.usable (s.after start 1).cache (s.after start 1).clock.now = true := by
    rw [stored]
    exact lasts
  have still : s.after start (k + 1) = s.after start 1 := by
    have rest := after_of_usable (s := s) usable k
    rwa [after, after, ← Function.iterate_add_apply] at rest
  refine ⟨still, ?_, ?_⟩
  · rw [still]
    exact asked_of_usable usable
  · rw [still, outcome, credential_of_usable usable, stored]
    rfl

theorem questions_of_first (n : Nat) :
    ((List.range (n + 1)).flatMap fun k => s.asked (s.after start k)) = [start.cache] := by
  have rest : ((List.range n).map Nat.succ).flatMap (fun k => s.asked (s.after start k)) = [] := by
    refine List.flatMap_eq_nil_iff.2 fun k hk => ?_
    obtain ⟨j, -, rfl⟩ := List.mem_map.1 hk
    exact (after_of_first empty found lasts j).2.1
  rw [List.range_succ_eq_map, List.flatMap_cons, rest, List.append_nil]
  exact (lookup_of_unusable s empty).1

theorem answers_of_first {m : Crowd (Except Error (Option Credential))}
    (h : Crowd.Sequential s.credential.tried start m) :
    ∀ c ∈ m.entered, m.phase c = .done (.ok answer) := by
  obtain ⟨answers, htimes, hphase⟩ := h.answered
  obtain ⟨-, -, each⟩ := times_tried htimes
  have same : ∀ a ∈ answers, a = .ok answer := by
    intro a ha
    obtain ⟨k, hk⟩ := List.mem_iff_getElem?.1 ha
    obtain ⟨next, hnext⟩ := each k a hk
    cases k with
    | zero => exact eq_ok_of_tried hnext found
    | succ k => exact eq_ok_of_tried hnext (after_of_first empty found lasts k).2.2
  intro c hc
  have hmem : m.phase c ∈ answers.map .done := by
    rw [← hphase]
    exact List.mem_map_of_mem hc
  obtain ⟨a, ha, hdone⟩ := List.mem_map.1 hmem
  rw [← hdone, same a ha]

end First

/-- What callers at the same time come to when all of them have been served. -/
structure SingleFlight (s : Signer) (start : Environment)
    (m : Crowd (Except Error (Option Credential))) : Prop where
  /-- They have got what they get one after another, in the order in which they got the lock. -/
  sequential : Crowd.Sequential s.credential.tried start m
  env : m.env = s.after start m.entered.length
  questions : Since start (fun es => Event.questions es =
    (List.range m.entered.length).flatMap fun k => s.asked (s.after start k)) m.env
  /-- After an answer the source is not asked until somebody finds that it cannot be used. -/
  again : ∀ i j answer, i < j → j < m.entered.length →
    s.answer? (s.after start i) = some answer →
    (∀ k, i < k → k < j → s.answer? (s.after start k) = none) →
    s.asked (s.after start j) ≠ [] →
    (s.after start j).cache = answer ∧
      Credential.usable answer (s.after start j).clock.now = false
  /-- A first answer that can be used when it is stored is everybody's, and the only one. -/
  only : ∀ answer, m.entered ≠ [] → Credential.usable start.cache start.clock.now = false →
    s.credential.outcome start = .ok answer →
    Credential.usable answer (s.after start 1).clock.now = true →
    Since start (fun es => Event.questions es = [start.cache]) m.env ∧
      ∀ c ∈ m.entered, m.phase c = .done (.ok answer)

theorem singleFlight_of_sequential {m : Crowd (Except Error (Option Credential))}
    (h : Crowd.Sequential s.credential.tried start m) : SingleFlight s start m := by
  have henv := env_of_sequential h
  have questions : Since start (fun es => Event.questions es =
      (List.range m.entered.length).flatMap fun k => s.asked (s.after start k)) m.env := by
    obtain ⟨es, htrace, hes⟩ := (follows_after s start m.entered.length).questions
    rw [← henv] at htrace
    exact ⟨es, htrace, hes.trans (List.flatMap_map ..)⟩
  refine ⟨h, henv, questions, ?_, fun answer some empty found lasts => ⟨?_, ?_⟩⟩
  · intro i j answer hij _ hanswer others asked
    have cache := cache_after hij hanswer others
    refine ⟨cache, ?_⟩
    cases hu : Credential.usable answer (s.after start j).clock.now with
    | false => rfl
    | true => exact absurd (asked_of_usable (by rw [cache, hu])) asked
  · obtain ⟨n, hn⟩ := Nat.exists_eq_succ_of_ne_zero (mt List.length_eq_zero_iff.1 some)
    rwa [hn, questions_of_first empty found lasts n] at questions
  · exact answers_of_first empty found lasts h

/-- However the turns of callers at the same time are ordered, everybody who has come can be served,
and whenever everybody has been, they have had a single flight. -/
theorem credential_singleFlight (s : Signer) (start : Environment) (schedule : List Nat) :
    (∀ answers env, times s.credential.tried ((s.crowd start schedule).entered ++
        (s.crowd start schedule).queue).length start = .ok answers env →
      ∃ more, (s.crowd start (schedule ++ more)).holder = none ∧
        (s.crowd start (schedule ++ more)).entered =
          (s.crowd start schedule).entered ++ (s.crowd start schedule).queue) ∧
    ((s.crowd start schedule).holder = none → SingleFlight s start (s.crowd start schedule)) := by
  refine ⟨fun answers env total => ?_, fun free => ?_⟩
  · rw [← run_tried_course] at total
    exact Crowd.play_exists_finish schedule total
  · exact singleFlight_of_sequential (crowd_sequential free)

/-- A supply that takes a second for its answer. -/
def slowSupply : Environment where
  clock := { now := .atSecond 0 }
  supplies := [[{ sleep := some (.ofSecs 1), answer := .ok (some (.ofBearerToken "first" none)) },
    { answer := .ok (some (.ofBearerToken "second" none)) }]]

/-- Two more callers come while the first one is at it. -/
def threeAtOnce : Crowd (Except Error (Option Credential)) :=
  Signer.crowd { scheme := .bearer, provider := .refresh 0 } slowSupply
    ([0, 1, 0, 0, 2, 0, 0, 0, 1, 0, 2] ++ List.replicate 4 0 ++ [1, 2, 1, 2, 2])

theorem threeAtOnce_singleFlight :
    threeAtOnce.holder = none ∧ threeAtOnce.entered = [0, 1, 2] ∧
    Event.questions threeAtOnce.env.trace = [none] ∧
    SingleFlight { scheme := .bearer, provider := .refresh 0 } slowSupply threeAtOnce := by
  have run : threeAtOnce.holder = none ∧ threeAtOnce.entered = [0, 1, 2] ∧
      Event.questions threeAtOnce.env.trace = [none] := by
    decide +kernel
  exact ⟨run.1, run.2.1, run.2.2, (credential_singleFlight _ _ _).2 run.1⟩

end Signer
end SignedHttp

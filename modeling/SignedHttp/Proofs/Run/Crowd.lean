import Mathlib.Data.List.Nodup
import Mathlib.Logic.Function.Basic
import SignedHttp.Proofs.Run.Course

/-!
# SignedHttp.Proofs.Run.Crowd

Many callers of one computation that have to take a lock for it. The lock goes to whoever asked for
it first; a caller that has it carries out the computation step by step, and somebody else's turn
may come between any two steps. `play` lets callers have turns as a schedule says.

* `Served`: the invariant. What has happened so far is what the same callers do one after another,
  in the order in which they got the lock, except that the last of them may be in the middle of it.
* `orderly_play`: that holds after every schedule.
* `play_exists_finish`: a schedule can be continued until nobody is left waiting, unless somebody
  leaves the range of instants. Nobody gets any further after that.
-/

namespace SignedHttp

open Run

namespace Run

variable {α : Type} {x : Run α} {n : Nat} {env mid env' : Environment} {answers : List α} {a : α}

theorem times_eq_ok (h : times x (n + 1) env = .ok answers env') :
    ∃ a next rest, x env = .ok a next ∧ times x n next = .ok rest env' ∧ answers = a :: rest := by
  obtain ⟨a, next, hx, h⟩ := bind_eq_ok h
  obtain ⟨rest, last, hrest, h⟩ := bind_eq_ok h
  cases h
  exact ⟨a, next, rest, hx, hrest, rfl⟩

theorem times_succ {next : Environment} {rest : List α} (hx : x env = .ok a next)
    (hrest : times x n next = .ok rest env') : times x (n + 1) env = .ok (a :: rest) env' := by
  unfold times
  rw [bind_apply, hx]
  dsimp only
  rw [bind_apply, hrest]
  rfl

theorem times_concat (h : times x n env = .ok answers mid) (hx : x mid = .ok a env') :
    times x (n + 1) env = .ok (answers ++ [a]) env' := by
  induction n generalizing env answers with
  | zero =>
    cases h
    exact times_succ hx rfl
  | succ n ih =>
    obtain ⟨first, next, rest, hfirst, hrest, rfl⟩ := times_eq_ok h
    exact times_succ hfirst (ih hrest)

/-- If more callers come to an end, so does the next one. -/
theorem ok_of_times {more : Nat} {all : List α} (h : times x (n + (more + 1)) env = .ok all env')
    (hn : times x n env = .ok answers mid) : ∃ a next, x mid = .ok a next := by
  induction n generalizing env answers all with
  | zero =>
    cases hn
    rw [Nat.zero_add] at h
    obtain ⟨a, next, -, hx, -⟩ := times_eq_ok h
    exact ⟨a, next, hx⟩
  | succ n ih =>
    rw [Nat.add_right_comm] at h
    obtain ⟨first, next, rest, hfirst, hrest, rfl⟩ := times_eq_ok hn
    obtain ⟨first', next', all, hfirst', hall, -⟩ := times_eq_ok h
    cases hfirst.symm.trans hfirst'
    exact ih hall hrest

end Run

/-! ## Callers and the lock -/

inductive Phase (α : Type)
  | away
  | waiting
  /-- The caller has the lock, and this is left to do. -/
  | inside (left : Course α)
  | done (answer : α)

/-- Callers, the lock, and what they work on. -/
structure Crowd (α : Type) where
  env : Environment
  holder : Option Nat := none
  queue : List Nat := []
  phase : Nat → Phase α := fun _ => .away
  /-- Who has got the lock so far, in this order. -/
  entered : List Nat := []

namespace Crowd

variable {α : Type}

/-- The lock is free, and a caller takes it. -/
def enter (x : Course α) (m : Crowd α) (c : Nat) : Crowd α where
  env := m.env
  holder := some c
  queue := m.queue
  phase := Function.update m.phase c (.inside x)
  entered := m.entered ++ [c]

def enqueue (m : Crowd α) (c : Nat) : Crowd α :=
  { m with queue := m.queue ++ [c], phase := Function.update m.phase c .waiting }

/-- A caller asks for the lock. -/
def arrive (x : Course α) (m : Crowd α) (c : Nat) : Crowd α :=
  if m.holder.isNone then m.enter x c else m.enqueue c

def release (m : Crowd α) (c : Nat) (answer : α) : Crowd α :=
  { m with holder := none, phase := Function.update m.phase c (.done answer) }

/-- A caller goes, and the first one that waits gets the lock. -/
def leave (x : Course α) (m : Crowd α) (c : Nat) (answer : α) : Crowd α :=
  match m.queue with
  | [] => m.release c answer
  | next :: rest => { m.release c answer with queue := rest }.enter x next

def proceed (m : Crowd α) (c : Nat) (env : Environment) (left : Course α) : Crowd α :=
  { m with env, phase := Function.update m.phase c (.inside left) }

/-- A caller has a turn. Who waits for the lock, or has been served, does nothing with it; nor does
one that has left the range of instants. -/
def turn (x : Course α) (m : Crowd α) (c : Nat) : Crowd α :=
  match m.phase c with
  | .away => m.arrive x c
  | .inside (.step effect rest) => m.proceed c (effect m.env) (rest m.env)
  | .inside (.ended (.ok answer)) => m.leave x c answer
  | _ => m

def turns (x : Course α) (m : Crowd α) (schedule : List Nat) : Crowd α :=
  schedule.foldl (turn x) m

/-- A schedule is carried out from the beginning, when nobody has come yet. -/
def play (x : Course α) (env : Environment) (schedule : List Nat) : Crowd α :=
  turns x { env } schedule

/-! ## The invariant -/

section Served

variable {x : Course α} {start mid : Environment} {served : List Nat} {answers : List α}
  {m : Crowd α} {c : Nat} {a : α}

/-- The callers `served` have had the lock and given it back. They have got the answers which they
get one after another, and `mid` is the environment after that. -/
structure Served (x : Course α) (start : Environment) (served : List Nat) (answers : List α)
    (mid : Environment) (m : Crowd α) : Prop where
  entered : m.entered = served ++ m.holder.toList
  distinct : (m.entered ++ m.queue).Nodup
  present : ∀ c, m.phase c ≠ .away ↔ c ∈ m.entered ++ m.queue
  waiting : ∀ c ∈ m.queue, m.phase c = .waiting
  done : served.map m.phase = answers.map .done
  times : times x.run served.length start = .ok answers mid
  free : m.holder = none → m.queue = [] ∧ m.env = mid
  inside : ∀ c, m.holder = some c → ∃ left, m.phase c = .inside left ∧ left.run m.env = x.run mid

/-- The lock is free, and `c` is about to take it. -/
structure Ready (x : Course α) (start : Environment) (served : List Nat) (answers : List α)
    (c : Nat) (m : Crowd α) : Prop where
  entered : m.entered = served
  distinct : (served ++ c :: m.queue).Nodup
  present : ∀ d, d ≠ c → (m.phase d ≠ .away ↔ d ∈ served ++ m.queue)
  waiting : ∀ d ∈ m.queue, m.phase d = .waiting
  done : served.map m.phase = answers.map .done
  times : Run.times x.run served.length start = .ok answers m.env

/-! ### One caller moves on -/

section Update

variable {phase : Nat → Phase α} {p : Phase α} {callers : List Nat}

theorem map_update_of_notMem (hc : c ∉ callers) :
    callers.map (Function.update phase c p) = callers.map phase :=
  List.map_congr_left fun _ hd => Function.update_of_ne (by rintro rfl; exact hc hd) _ _

theorem waiting_update (h : ∀ d ∈ callers, phase d = .waiting) (hc : c ∉ callers) :
    ∀ d ∈ callers, Function.update phase c p d = .waiting := by
  intro d hd
  rw [Function.update_of_ne (by rintro rfl; exact hc hd)]
  exact h d hd

theorem present_update (h : ∀ d, d ≠ c → (phase d ≠ .away ↔ d ∈ callers)) (hp : p ≠ .away)
    (hc : c ∈ callers) : ∀ d, Function.update phase c p d ≠ .away ↔ d ∈ callers := by
  intro d
  by_cases hd : d = c
  · subst hd
    rw [Function.update_self]
    exact ⟨fun _ => hc, fun _ => hp⟩
  · rw [Function.update_of_ne hd]
    exact h d hd

end Update

/-! ### Taking the lock -/

theorem Ready.enter (h : Ready x start served answers c m) :
    Served x start served answers m.env (m.enter x c) := by
  obtain ⟨fresh, -⟩ := List.nodup_cons.1 (List.nodup_middle.1 h.distinct)
  obtain ⟨unserved, unqueued⟩ := not_or.1 (mt List.mem_append.2 fresh)
  have entered : (m.enter x c).entered = served ++ [c] := by
    show m.entered ++ [c] = _
    rw [h.entered]
  refine ⟨entered, ?_, ?_, waiting_update h.waiting unqueued,
    (map_update_of_notMem unserved).trans h.done, h.times, nofun, ?_⟩
  · rw [entered, List.append_assoc]
    exact h.distinct
  · rw [entered]
    refine present_update (fun d hd => ?_) nofun (by simp)
    rw [h.present d hd]
    simp [Crowd.enter, hd]
  · rintro d ⟨⟩
    exact ⟨x, Function.update_self c _ _, rfl⟩

theorem Served.ready (h : Served x start served answers mid m) (hc : m.phase c = .away)
    (free : m.holder = none) : Ready x start served answers c m := by
  obtain ⟨noQueue, hmid⟩ := h.free free
  have entered : m.entered = served := by
    rw [h.entered, free]
    exact List.append_nil _
  have fresh : c ∉ served := by
    intro hmem
    refine (h.present c).2 (List.mem_append_left _ ?_) hc
    rwa [entered]
  refine ⟨entered, ?_, fun d _ => ?_, h.waiting, h.done, ?_⟩
  · have distinct := h.distinct
    rw [entered, noQueue, List.append_nil] at distinct
    rw [noQueue, List.nodup_middle, List.append_nil]
    exact List.nodup_cons.2 ⟨fresh, distinct⟩
  · rw [h.present d, entered]
  · rw [hmid]
    exact h.times

theorem Served.enqueue (h : Served x start served answers mid m) (hc : m.phase c = .away)
    {holder : Nat} (held : m.holder = some holder) :
    Served x start served answers mid (m.enqueue c) := by
  have fresh : c ∉ m.entered ++ m.queue := fun hmem => (h.present c).2 hmem hc
  obtain ⟨unentered, unqueued⟩ := not_or.1 (mt List.mem_append.2 fresh)
  have unserved : c ∉ served := by
    intro hmem
    rw [h.entered] at unentered
    exact unentered (List.mem_append_left _ hmem)
  refine ⟨h.entered, ?_, ?_, fun d hd => ?_, (map_update_of_notMem unserved).trans h.done, h.times,
    ?_, fun d hd => ?_⟩
  · show (m.entered ++ (m.queue ++ [c])).Nodup
    rw [← List.append_assoc, List.nodup_middle, List.append_nil]
    exact List.nodup_cons.2 ⟨fresh, h.distinct⟩
  · refine present_update (fun d hd => ?_) nofun (by simp [Crowd.enqueue])
    rw [h.present d]
    simp [Crowd.enqueue, hd]
  · rcases List.mem_append.1 hd with hd | hd
    · exact waiting_update h.waiting unqueued d hd
    · rw [List.mem_singleton.1 hd]
      exact Function.update_self c _ _
  · intro free
    cases held.symm.trans free
  · obtain ⟨left, hleft, hrun⟩ := h.inside d hd
    have other : d ≠ c := by
      rintro rfl
      cases hleft.symm.trans hc
    exact ⟨left, (Function.update_of_ne other _ _).trans hleft, hrun⟩

/-! ### Having the lock -/

/-- Whoever is in the middle of it has the lock. -/
theorem Served.holder_eq (h : Served x start served answers mid m) {left : Course α}
    (hc : m.phase c = .inside left) : m.holder = some c := by
  have hmem : c ∈ m.entered ++ m.queue := (h.present c).1 (by rw [hc]; exact nofun)
  rcases List.mem_append.1 hmem with hmem | hmem
  · rw [h.entered] at hmem
    rcases List.mem_append.1 hmem with hmem | hmem
    · have hdone : m.phase c ∈ answers.map .done := by
        rw [← h.done]
        exact List.mem_map_of_mem hmem
      rw [hc] at hdone
      obtain ⟨answer, -, himp⟩ := List.mem_map.1 hdone
      cases himp
    · exact Option.mem_toList.1 hmem
  · cases (h.waiting c hmem).symm.trans hc

theorem Served.unserved (h : Served x start served answers mid m) (held : m.holder = some c) :
    c ∉ served ∧ c ∉ m.queue := by
  have distinct := h.distinct
  rw [h.entered, held, Option.toList_some, List.append_assoc] at distinct
  obtain ⟨fresh, -⟩ := List.nodup_cons.1 (List.nodup_middle.1 distinct)
  exact not_or.1 (mt List.mem_append.2 fresh)

theorem Served.work (h : Served x start served answers mid m) {left rest : Course α}
    {env : Environment} (hc : m.phase c = .inside left) (hrun : rest.run env = left.run m.env) :
    Served x start served answers mid (m.proceed c env rest) := by
  have held := h.holder_eq hc
  obtain ⟨unserved, unqueued⟩ := h.unserved held
  have present : c ∈ m.entered ++ m.queue := (h.present c).1 (by rw [hc]; exact nofun)
  refine ⟨h.entered, h.distinct, present_update (fun d _ => h.present d) nofun present,
    waiting_update h.waiting unqueued, (map_update_of_notMem unserved).trans h.done, h.times, ?_,
    fun d hd => ?_⟩
  · intro free
    cases held.symm.trans free
  · cases held.symm.trans hd
    obtain ⟨left', hleft, hrun'⟩ := h.inside c held
    cases hc.symm.trans hleft
    exact ⟨rest, Function.update_self c _ _, hrun.trans hrun'⟩

/-! ### Giving the lock back -/

theorem Served.leave (h : Served x start served answers mid m)
    (hc : m.phase c = .inside (.ended (.ok a))) :
    Served x start (served ++ [c]) (answers ++ [a]) m.env (m.leave x c a) := by
  have held := h.holder_eq hc
  obtain ⟨unserved, unqueued⟩ := h.unserved held
  have entered : m.entered = served ++ [c] := by rw [h.entered, held, Option.toList_some]
  have done : (served ++ [c]).map (m.release c a).phase = (answers ++ [a]).map .done := by
    have own : (m.release c a).phase c = .done a := Function.update_self c _ _
    rw [List.map_append, List.map_append, List.map_singleton, List.map_singleton, own]
    congr 1
    exact (map_update_of_notMem unserved).trans h.done
  -- nothing is left for `c` to do, so this is where all of `x` leads to from `mid`
  have times : Run.times x.run (served ++ [c]).length start = .ok (answers ++ [a]) m.env := by
    obtain ⟨left, hleft, hrun⟩ := h.inside c held
    cases hc.symm.trans hleft
    rw [List.length_append]
    exact times_concat h.times hrun.symm
  have present : ∀ d, (m.release c a).phase d ≠ .away ↔ d ∈ served ++ [c] ++ m.queue := by
    rw [← entered]
    exact present_update (fun d _ => h.present d) nofun
      ((h.present c).1 (by rw [hc]; exact nofun))
  have waiting : ∀ d ∈ m.queue, (m.release c a).phase d = .waiting :=
    waiting_update h.waiting unqueued
  have distinct : (served ++ [c] ++ m.queue).Nodup := entered ▸ h.distinct
  unfold Crowd.leave
  cases hq : m.queue with
  | nil =>
    show Served x start (served ++ [c]) (answers ++ [a]) m.env (m.release c a)
    rw [← entered] at distinct present
    exact ⟨entered.trans (List.append_nil _).symm, distinct, present, waiting, done, times,
      fun _ => ⟨hq, rfl⟩, nofun⟩
  | cons next rest =>
    rw [hq] at distinct present waiting
    have ready : Ready x start (served ++ [c]) (answers ++ [a]) next
        { m.release c a with queue := rest } := by
      refine ⟨entered, distinct, fun d hd => ?_, fun d hd => ?_, done, times⟩
      · show _ ↔ d ∈ served ++ [c] ++ rest
        rw [present d]
        simp [hd]
      · exact waiting d (List.mem_cons_of_mem next hd)
    exact ready.enter

/-! ### Every schedule -/

/-- Those who have had the lock have been served one after another. -/
def Orderly (x : Course α) (start : Environment) (m : Crowd α) : Prop :=
  ∃ served answers mid, Served x start served answers mid m

theorem Orderly.turn (h : Orderly x start m) (c : Nat) : Orderly x start (m.turn x c) := by
  obtain ⟨served, answers, mid, h⟩ := h
  have still : Orderly x start m := ⟨served, answers, mid, h⟩
  unfold Crowd.turn
  cases hc : m.phase c with
  | away =>
    dsimp only
    unfold arrive
    cases hl : m.holder with
    | none => exact ⟨served, answers, m.env, (h.ready hc hl).enter⟩
    | some holder => exact ⟨served, answers, mid, h.enqueue hc hl⟩
  | waiting => exact still
  | done _ => exact still
  | inside left =>
    cases left with
    | step effect rest => exact ⟨served, answers, mid, h.work hc rfl⟩
    | ended result =>
      cases result with
      | ok a => exact ⟨_, _, _, h.leave hc⟩
      | error e => exact still

theorem Orderly.turns (h : Orderly x start m) (schedule : List Nat) :
    Orderly x start (m.turns x schedule) := by
  induction schedule generalizing m with
  | nil => exact h
  | cons c schedule ih => exact ih (h.turn c)

theorem orderly_play (x : Course α) (start : Environment) (schedule : List Nat) :
    Orderly x start (play x start schedule) := by
  refine Orderly.turns ⟨[], [], start, ?_⟩ schedule
  exact ⟨rfl, List.nodup_nil, fun c => by simp, nofun, rfl, rfl, fun _ => ⟨rfl, rfl⟩, nofun⟩

/-- Callers that have come and gone as `entered` says, and got what they get one after another. -/
structure Sequential (x : Run α) (start : Environment) (m : Crowd α) : Prop where
  everybody : ∀ c, m.phase c ≠ .away ↔ c ∈ m.entered
  distinct : m.entered.Nodup
  answered : ∃ answers, Run.times x m.entered.length start = .ok answers m.env ∧
    m.entered.map m.phase = answers.map .done

/-- When nobody has the lock, everybody who has come has been served. -/
theorem Orderly.sequential (h : Orderly x start m) (free : m.holder = none) :
    Sequential x.run start m := by
  obtain ⟨served, answers, mid, h⟩ := h
  obtain ⟨noQueue, hmid⟩ := h.free free
  have entered : m.entered = served := by
    rw [h.entered, free]
    exact List.append_nil _
  have present := h.present
  have distinct := h.distinct
  rw [noQueue, List.append_nil] at present distinct
  refine ⟨present, distinct, answers, ?_, ?_⟩
  · rw [entered, hmid]
    exact h.times
  · rw [entered]
    exact h.done

/-! ### To the end -/

theorem leave_proceed (x : Course α) (m : Crowd α) (c : Nat) (a : α) (env env' : Environment)
    (left : Course α) :
    ({ m.proceed c env left with env := env' }).leave x c a =
      ({ m with env := env' }).leave x c a := by
  have forgotten (answer : Phase α) : Function.update (Function.update m.phase c (.inside left)) c
      answer = Function.update m.phase c answer := Function.update_idem _ _ _
  unfold Crowd.leave release proceed
  dsimp only
  rw [forgotten]

theorem exists_leave {env' : Environment} (left : Course α) (hc : m.phase c = .inside left)
    (hrun : left.run m.env = .ok a env') :
    ∃ more, m.turns x more = ({ m with env := env' }).leave x c a := by
  induction left generalizing m with
  | ended result =>
    cases result with
    | error e => cases hrun
    | ok b =>
      cases hrun
      refine ⟨[c], ?_⟩
      show m.turn x c = _
      unfold Crowd.turn
      rw [hc]
  | step effect rest ih =>
    obtain ⟨more, hmore⟩ := ih m.env (m := m.proceed c (effect m.env) (rest m.env))
      (Function.update_self c _ _) hrun
    refine ⟨c :: more, ?_⟩
    have stepped : m.turn x c = m.proceed c (effect m.env) (rest m.env) := by
      unfold Crowd.turn
      rw [hc]
    show (m.turn x c).turns x more = _
    rw [stepped, hmore, leave_proceed]

/-- The caller that has the lock can be served, if everybody who has come comes to an end. -/
theorem Served.exists_served {all : List α} {env' : Environment}
    (h : Served x start served answers mid m) (held : m.holder = some c)
    (total : Run.times x.run (m.entered ++ m.queue).length start = .ok all env') :
    ∃ more a next, m.turns x more = ({ m with env := next }).leave x c a ∧
      Served x start (served ++ [c]) (answers ++ [a]) next
        (({ m with env := next }).leave x c a) := by
  obtain ⟨left, hc, hleft⟩ := h.inside c held
  have length : (m.entered ++ m.queue).length = served.length + (m.queue.length + 1) := by
    rw [h.entered, held, Option.toList_some, List.append_assoc, List.length_append]
    rfl
  rw [length] at total
  obtain ⟨a, next, hx⟩ := ok_of_times total h.times
  rw [hx] at hleft
  obtain ⟨more, hmore⟩ := exists_leave left hc hleft
  refine ⟨more, a, next, hmore, ?_⟩
  have finished : Served x start served answers mid (m.proceed c next (.ended (.ok a))) :=
    h.work hc hleft.symm
  have same : (m.proceed c next (.ended (.ok a))).leave x c a =
      ({ m with env := next }).leave x c a := leave_proceed x m c a next next _
  rw [← same]
  exact finished.leave (Function.update_self c _ _)

theorem Served.exists_finish {all : List α} {env' : Environment}
    (h : Served x start served answers mid m)
    (total : Run.times x.run (m.entered ++ m.queue).length start = .ok all env') :
    ∃ more, (m.turns x more).holder = none ∧
      (m.turns x more).entered = m.entered ++ m.queue := by
  -- who waits gets the lock in turn, so the queue gets shorter whenever it is given back
  generalize hq : m.queue = queue at total
  induction queue generalizing m served answers mid with
  | nil =>
    rw [List.append_nil]
    cases held : m.holder with
    | none => exact ⟨[], held, rfl⟩
    | some c =>
      obtain ⟨more, a, next, hmore, -⟩ := h.exists_served held (hq ▸ total)
      refine ⟨more, ?_⟩
      rw [hmore]
      unfold Crowd.leave
      dsimp only
      rw [hq]
      exact ⟨rfl, rfl⟩
  | cons first queue ih =>
    cases held : m.holder with
    | none =>
      obtain ⟨noQueue, -⟩ := h.free held
      cases hq.symm.trans noQueue
    | some c =>
      obtain ⟨more, a, next, hmore, h'⟩ := h.exists_served held (hq ▸ total)
      have entered : (({ m with env := next }).leave x c a).entered = m.entered ++ [first] ∧
          (({ m with env := next }).leave x c a).queue = queue := by
        unfold Crowd.leave
        dsimp only
        rw [hq]
        exact ⟨rfl, rfl⟩
      rw [← hmore] at h' entered
      obtain ⟨rest, free, served⟩ := ih h' entered.2 (by
        rw [entered.1, List.append_assoc]
        exact total)
      have both : m.turns x (more ++ rest) = (m.turns x more).turns x rest := List.foldl_append
      refine ⟨more ++ rest, ?_, ?_⟩
      · rw [both, free]
      · rw [both, served, entered.1, List.append_assoc]
        rfl

/-- A schedule can be continued until everybody who has come has been served. -/
theorem play_exists_finish {all : List α} {env' : Environment} (schedule : List Nat)
    (total : Run.times x.run ((play x start schedule).entered ++
      (play x start schedule).queue).length start = .ok all env') :
    ∃ more, (play x start (schedule ++ more)).holder = none ∧
      (play x start (schedule ++ more)).entered =
        (play x start schedule).entered ++ (play x start schedule).queue := by
  obtain ⟨served, answers, mid, h⟩ := orderly_play x start schedule
  obtain ⟨more, hmore⟩ := h.exists_finish total
  have continued : play x start (schedule ++ more) = (play x start schedule).turns x more :=
    List.foldl_append
  exact ⟨more, by rwa [continued]⟩

end Served

end Crowd
end SignedHttp

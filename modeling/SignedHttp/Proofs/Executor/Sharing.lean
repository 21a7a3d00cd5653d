import SignedHttp.Proofs.Executor.Pauses
import SignedHttp.Proofs.Executor.Turns

/-!
# SignedHttp.Proofs.Executor.Sharing

Executors that share one set of pauses respect them (`runAll_respects`): whatever they do as they
take turns, whatever else is recorded and cleared, and however time goes by meanwhile, no request
for a resource leaves before the end of any pause that was recorded for the resource since its pause
was last cleared.

The set of pauses holds only the longest pause of a resource, and only while it runs, so the
invariant (`Heeded`) says of every pause that still stands that it is over or that a known one is at
least as long. It is preserved by every step, whoever makes it.
-/

namespace SignedHttp

/-- A pause was recorded for a resource and nothing was cleared for it since. -/
def Event.Stands (key : String) (pause : Throttle) (es : List Event) : Prop :=
  ∃ before since, es = before ++ .paused key pause :: since ∧ .cleared key ∉ since

/-- Every request for a resource leaves after the end of every pause that stands. -/
def Event.Respectful (es : List Event) : Prop :=
  ∀ before mid after key pause message t,
    es = before ++ .paused key pause :: mid ++ .sent key message t :: after →
    .cleared key ∉ mid → pause.resumeAt ≤ t

namespace Event

def departure? : Event → Option (String × Instant)
  | .sent key _ t => some (key, t)
  | _ => none

variable {key : String} {pause : Throttle} {es : List Event} {e : Event}

theorem stands_concat (h : Stands key pause (es ++ [e])) :
    e = .paused key pause ∨ (Stands key pause es ∧ e ≠ .cleared key) := by
  obtain ⟨before, since, hes, hclear⟩ := h
  rcases Run.split_concat hes with ⟨-, rfl⟩ | ⟨rest, rfl, rfl⟩
  · exact .inl rfl
  · simp only [List.mem_append, List.mem_singleton, not_or] at hclear
    exact .inr ⟨⟨before, rest, rfl, hclear.1⟩, fun he => hclear.2 he.symm⟩

end Event

/-! ## The invariant of the pauses -/

/-- A pause is over, or one that is at least as long is known. -/
def Moment.Minds (m : Moment) (key : String) (pause : Throttle) : Prop :=
  pause.resumeAt ≤ m.now ∨
    ∃ known, m.throttles.get? key = some known ∧ pause.resumeAt ≤ known.resumeAt

/-- No request has left before the end of a pause that stood, and every pause that stands now is
minded. -/
structure Heeded (m : Moment) : Prop where
  sent : ∀ key message t before after, m.events = before ++ .sent key message t :: after →
    ∀ pause, Event.Stands key pause before → pause.resumeAt ≤ t
  kept : ∀ key pause, Event.Stands key pause m.events → m.Minds key pause

variable {m m' : Moment} {key : String} {pause : Throttle} {e : Event}

theorem Moment.Minds.later (h : m.Minds key pause) (hnow : m.now ≤ m'.now)
    (hknown : m'.throttles.get? key = m.throttles.get? key) : m'.Minds key pause := by
  rcases h with ended | ⟨known, hk, hle⟩
  · exact .inl (Instant.le_trans ended hnow)
  · exact .inr ⟨known, hknown.trans hk, hle⟩

/-- Where the pause of a resource is over, so are those that it minds. -/
theorem Moment.Minds.le_now (h : m.Minds key pause) (past : m.Past key) :
    pause.resumeAt ≤ m.now := by
  rcases h with ended | ⟨known, hk, hle⟩
  · exact ended
  · exact Instant.le_trans hle (past known hk)

theorem Heeded.extend (h : Heeded m) (hevents : m'.events = m.events ++ [e])
    (hsent : ∀ key message t, e = .sent key message t →
      ∀ pause, Event.Stands key pause m.events → pause.resumeAt ≤ t)
    (hkept : ∀ key pause, Event.Stands key pause (m.events ++ [e]) → m'.Minds key pause) :
    Heeded m' where
  sent := by
    intro key message t before after hes pause stands
    rw [hevents] at hes
    rcases Run.split_concat hes with ⟨hbefore, he⟩ | ⟨rest, -, hrest⟩
    · rw [← hbefore] at stands
      exact hsent key message t he pause stands
    · exact h.sent key message t before rest hrest pause stands
  kept := by
    rw [hevents]
    exact hkept

/-- Something happens that is neither a request that leaves nor a pause, while time goes by. -/
theorem Heeded.pass (h : Heeded m) (hevents : m'.events = m.events ++ [e])
    (hsent : ∀ key message t, e ≠ .sent key message t)
    (hpaused : ∀ key pause, e ≠ .paused key pause)
    (hnow : m.now ≤ m'.now) (hknown : m'.throttles = m.throttles) : Heeded m' := by
  refine h.extend hevents (fun key message t he => absurd he (hsent key message t)) ?_
  intro key pause stands
  rcases Event.stands_concat stands with he | ⟨stands, -⟩
  · exact absurd he (hpaused key pause)
  · exact (h.kept key pause stands).later hnow (by rw [hknown])

theorem Heeded.step {allowed : Instant → Prop} (h : Heeded m) (step : Step allowed m m') :
    Heeded m' := by
  cases step with
  | noted plain =>
    refine h.pass rfl ?_ ?_ (Instant.le_refl _) rfl
    · rintro key message t rfl
      cases plain
    · rintro key pause rfl
      cases plain
  | passed moved =>
    exact ⟨h.sent, fun key pause stands =>
      (h.kept key pause stands).later (Instant.le_of_add? moved) rfl⟩
  | slept _ moved => exact h.pass rfl (by simp) (by simp) (Instant.le_of_add? moved) rfl
  | waited _ hnow _ => exact h.pass rfl (by simp) (by simp) hnow rfl
  | @dropped dropped past =>
    refine ⟨h.sent, fun key pause stands => ?_⟩
    have minds := h.kept key pause stands
    -- the known pause may have been all that minded this one, but then both are over
    by_cases hkey : key = dropped
    · exact .inl (minds.le_now (hkey ▸ past))
    · exact minds.later (Instant.le_refl _) (by rw [Throttles.get?_clear, if_neg hkey])
  | @sent key message past =>
    refine h.extend rfl ?_ ?_
    · rintro _ _ _ ⟨⟩ pause stands
      exact (h.kept key pause stands).le_now past
    · intro key' pause stands
      rcases Event.stands_concat stands with he | ⟨stands, -⟩
      · cases he
      · exact (h.kept key' pause stands).later (Instant.le_refl _) rfl
  | @paused key pause _ =>
    obtain ⟨known, hknown, hnew, hformer⟩ := m.throttles.get?_record key pause
    refine h.extend rfl (by simp) fun key' pause' stands => ?_
    rcases Event.stands_concat stands with he | ⟨stands, -⟩
    · cases he
      exact .inr ⟨known, hknown, hnew⟩
    · have minds := h.kept key' pause' stands
      -- what the former pause minded is minded by the longer of the two
      by_cases hkey : key' = key
      · subst hkey
        rcases minds with ended | ⟨former, hf, hle⟩
        · exact .inl ended
        · exact .inr ⟨known, hknown, Instant.le_trans hle (hformer former hf)⟩
      · exact minds.later (Instant.le_refl _) (Throttles.get?_record_of_ne hkey)
  | @cleared cleared =>
    refine h.extend rfl (by simp) fun key pause stands => ?_
    rcases Event.stands_concat stands with he | ⟨stands, hne⟩
    · cases he
    · have hkey : key ≠ cleared := fun hkey => hne (by rw [hkey])
      exact (h.kept key pause stands).later (Instant.le_refl _)
        (by rw [Throttles.get?_clear, if_neg hkey])

theorem heeded_of_path {allowed : Instant → Prop} (path : Path allowed m m') (h : Heeded m) :
    Heeded m' := by
  induction path with
  | refl => exact h
  | tail _ step ih => exact ih.step step

/-! ## Executors that share their pauses -/

namespace Deed

open Run Executor

variable {c : Common} {s : Signer} {first : Moment} {start : Environment}

theorem keeps_pending (key : String) :
    Keeps (Underway (fun _ => True) first start fun _ _ => True) (now >>= Run.pending key) := by
  intro env h
  rw [bind_apply, now_apply]
  dsimp only
  rw [pending_apply]
  obtain ⟨_, -, -, kept⟩ | ⟨pause, hknown, ended, forgotten⟩ | ⟨-, kept⟩ :=
    env.throttles.pending_cases key env.clock.now
  · rw [kept]
    exact h
  · rw [forgotten]
    refine h.mono rfl fun es hm => ⟨hm.1.tail (.dropped fun pause' hknown' => ?_), trivial⟩
    cases hknown.symm.trans hknown'
    exact ended
  · rw [kept]
    exact h

theorem keeps_run_underway (shared : c.throttles = true) (civil : first.Civil) (d : Deed) :
    Keeps (Underway (fun _ => True) first start fun _ _ => True) (d.run c s) := by
  have stable : Stable (Underway (fun _ => True) first start fun _ _ => True) :=
    stable_reached fun _ _ _ _ _ => trivial
  cases d with
  | credential => exact keeps_attempt (Signer.keeps_credential stable.signing.lookup s)
  | sign r => exact keeps_attempt (Signer.keeps_sign stable.signing s r)
  | execute build deadline =>
    exact keeps_attempt (keeps_execute_underway civil (fun _ _ => trivial) s build)
  | acquire => exact keeps_attempt (keeps_acquire stable)
  | record key pause =>
    refine keeps_attempt fun env h => h.extend (held_trace key pause) fun es noLeap hm => ?_
    exact ⟨hm.1.tail (.paused (noLeap _ (List.mem_singleton_self _))), trivial⟩
  | pending key => exact keeps_attempt (keeps_pending key)
  | clear key =>
    exact keeps_attempt fun env h =>
      h.extend (released_trace key) fun es _ hm => ⟨hm.1.tail .cleared, trivial⟩
  | advance d =>
    exact keeps_attempt (keeps_advance fun hc h =>
      h.mono rfl fun es hm => ⟨hm.1.tail (.passed (Clock.now_of_advance? hc)), trivial⟩)
  | sleep d =>
    exact keeps_attempt (keeps_sleep fun hc h =>
      h.extend (Environment.woken_trace _ _ _ _) fun es _ hm =>
        ⟨hm.1.tail (.slept (by simp) (Clock.now_of_sleep? hc)), trivial⟩)
  | handOver seat =>
    refine fun env h => h.mono (seat.enter_trace c env) fun es hm => ⟨?_, trivial⟩
    rw [Seat.enter_clock, seat.enter_throttles env shared]
    exact hm.1

theorem runAll_respects (shared : c.throttles = true) (s : Signer) (ds : List Deed)
    (env : Environment) (hnow : env.clock.now.isLeap = false) (hknown : env.throttles.NoLeap)
    (hpaused : Event.NoLeap ((runAll c s ds).events env)) :
    Event.Respectful ((runAll c s ds).events env) := by
  have civil : env.start.Civil := ⟨hnow, hknown⟩
  have underway : Underway (fun _ => True) env.start env (fun _ _ => True)
      ((runAll c s ds).leaves env) :=
    (keeps_runAll (fun _ _ => keeps_run_underway shared civil) ds).leaves
      ⟨[], by simp, fun _ => ⟨.refl, trivial⟩⟩
  obtain ⟨es, htrace, hpath⟩ := underway
  have hevents := events_eq htrace
  have heeded : Heeded ⟨es, ((runAll c s ds).leaves env).clock.now,
      ((runAll c s ds).leaves env).throttles⟩ := by
    refine heeded_of_path (hpath (hevents ▸ hpaused)).1 ⟨?_, ?_⟩
    · intro key message t before after hes
      cases before <;> cases hes
    · rintro key pause ⟨before, since, hes, -⟩
      cases before <;> cases hes
  intro before mid after key pause message t hes hmid
  exact heeded.sent key message t (before ++ .paused key pause :: mid) after
    (hevents ▸ hes) pause ⟨before, mid, rfl, hmid⟩

/-- Two executors, each with a signer and a transport of its own. The first one is told to come back
after five seconds and has no time for that; the second one has. -/
def relay : List Deed :=
  [.execute (fun _ => .ok bare) (.atSecond 1),
    .handOver {
      signer := { scheme := .bearer }
      transport := some [{ reply := .ok ⟨⟨200⟩, {}, []⟩ }] },
    .execute (fun _ => .ok bare) (.atSecond 9)]

def throttling : Environment where
  clock := { now := .atSecond 0 }
  transport := some [
    { reply := .ok ⟨.tooManyRequests, ⟨[(Header.retryAfter, .ofText "5" (by decide))]⟩, []⟩ }]

theorem relay_respects :
    ((runAll { throttles := true } { scheme := .bearer } relay).events throttling).filterMap
        Event.departure? =
      [("https://host/", .atSecond 0), ("https://host/", .atSecond 5)] ∧
    Event.Respectful
      ((runAll { throttles := true } { scheme := .bearer } relay).events throttling) :=
  ⟨by decide +kernel, runAll_respects rfl _ relay throttling rfl (by decide) (by decide +kernel)⟩

end Deed
end SignedHttp

import SignedHttp.Proofs.Executor.Attempt
import SignedHttp.Proofs.Time.Order

/-!
# SignedHttp.Proofs.Executor.Replies

The retry law. Whatever the requests, the cache, the limiter, the known pauses and the deadline are,
each reply that arrives during a run settles how the run goes on (`Settles`): success, refusal and
loss end it at once, with that answer or with an error that tells about it; throttling ends it too
unless it announces a pause that ends by the deadline, and then another attempt is made. The replies
are those of the transport, in order (`execute_replies`).

The proof follows the attempts. Nothing arrives while an attempt is prepared (`prepare_quiet`); one
that is sent adds the request and, right after it, the reply, so that a run is regular if what comes
after the reply is (`Regular.exchange`).
-/

namespace SignedHttp

namespace Event

def replies (es : List Event) : List (Except Error.Cause Response) :=
  es.filterMap fun
    | .returned reply _ => some reply
    | _ => none

/-- A request is built, signed or sent, or somebody sleeps. -/
def isEffort : Event → Bool
  | .built _ | .signed _ | .sent _ _ _ | .slept _ _ _ => true
  | .logged _ | .asked _ | .consulted _ _ | .cached _ | .returned _ _ | .paused _ _ | .cleared _ =>
    false

/-- Something that happens before a request is sent. -/
def isPreparation : Event → Bool
  | .sent _ _ _ | .returned _ _ | .paused _ _ | .cleared _ => false
  | .logged _ | .asked _ | .consulted _ _ | .cached _ | .slept _ _ _ | .built _ | .signed _ => true

theorem isPreparation_of_isRoutine {e : Event} (h : e.isRoutine = true) :
    e.isPreparation = true := by
  cases e <;> first | rfl | cases h

theorem replies_append (es es' : List Event) : replies (es ++ es') = replies es ++ replies es' :=
  List.filterMap_append

theorem replies_eq_nil {es : List Event} (h : ∀ reply t, .returned reply t ∉ es) :
    replies es = [] := by
  rw [replies, List.filterMap_eq_nil_iff]
  intro e he
  cases e <;> first | rfl | exact absurd he (h _ _)

theorem replies_eq_take {es : List Event} {rs : List (Except Error.Cause Response)} {n : Nat}
    (ordered : replies es <+: rs) (count : (replies es).length = n) : replies es = rs.take n := by
  rw [← count]
  exact List.prefix_iff_eq_take.1 ordered

theorem exists_returned {es : List Event} {reply : Except Error.Cause Response}
    {rest : List (Except Error.Cause Response)} (h : replies es = reply :: rest) :
    ∃ pre t post, es = pre ++ .returned reply t :: post ∧ replies post = rest := by
  obtain ⟨pre, e, post, rfl, -, he, hpost⟩ := List.filterMap_eq_cons_iff.1 h
  cases e with
  | returned reply' t =>
    cases he
    exact ⟨pre, t, post, rfl, hpost⟩
  | _ => cases he

theorem notMem_of_isPreparation {es : List Event} (h : ∀ e ∈ es, e.isPreparation = true)
    (reply : Except Error.Cause Response) (t : Instant) : .returned reply t ∉ es := by
  intro he
  cases h _ he

end Event

namespace Executor

open Run

/-- A run ends with the failure of a request to `uri` that is throttled, as a text announced. -/
def EndsThrottled (uri : String) (text : Option String) (ended : Except Stop Response) : Prop :=
  ∃ e, ended = .error (.failed e) ∧ e.kind = .throttled ∧ e.uri = some uri ∧ e.retryAfter = text

/-- What an answer means that arrives at `t` for a request to `uri` for the resource `key`: the run
ends as `ended` says after the events `post`. -/
structure Answers (deadline : Instant) (key uri : String) (r : Response) (t : Instant)
    (ended : Except Stop Response) (post : List Event) : Prop where
  success : r.status.isSuccess = true → post = [.cleared key] ∧ ended = .ok r
  refusal : r.status.isSuccess = false → r.status ≠ .tooManyRequests →
    post = [.cleared key] ∧ ∃ e, ended = .error (.failed e) ∧ e.kind = .httpStatus ∧
      e.status? = some r.status ∧ e.reason? = r.status.reason? ∧ e.headers? = some r.headers ∧
      e.uri = some uri
  unusable : r.status = .tooManyRequests → resume? r t = none →
    (∃ line, post = [.logged line]) ∧ EndsThrottled uri (retryAfter? r) ended
  outlasting : r.status = .tooManyRequests → ∀ resumeAt, resume? r t = some resumeAt →
    deadline < resumeAt →
    (∃ line, post = [.paused key ⟨resumeAt, retryAfter? r⟩, .logged line]) ∧
      EndsThrottled uri (retryAfter? r) ended
  /-- Throttling that announces a pause within the deadline leads to another attempt, unless the
  end of the pause is out of the range of the clock, or the attempt has the last number. -/
  retried : r.status = .tooManyRequests → ∀ resumeAt, resume? r t = some resumeAt →
    ¬ deadline < resumeAt → ended = .error .overflow ∨ ∃ n, .built n ∈ post

def Settles (deadline : Instant) (key uri : String) (t : Instant) (ended : Except Stop Response)
    (post : List Event) : Except Error.Cause Response → Prop
  | .error cause =>
    post = [] ∧ ∃ e, ended = .error (.failed e) ∧ e.kind = .transport ∧ e.uri = some uri ∧
      e.source = some cause
  | .ok r => Answers deadline key uri r t ended post

/-- Every reply among the events of a run follows the request that it is for, and settles how the
run goes on. -/
def Lawful (deadline : Instant) (ended : Except Stop Response) (es : List Event) : Prop :=
  ∀ pre reply t post, es = pre ++ .returned reply t :: post →
    ∃ before key m t₀, pre = before ++ [.sent key m t₀] ∧
      Settles deadline key m.uri t ended post reply

/-- What a run does from an attempt on if the transport has the given replies left. -/
structure Regular (deadline : Instant) (replies : List (Except Error.Cause Response))
    (ended : Except Stop Response) (es : List Event) : Prop where
  builds : ∃ n, .built n ∈ es
  ordered : Event.replies es <+: replies
  lawful : Lawful deadline ended es

variable {env : Environment} {s : Signer} {build : Build} {deadline : Instant}

/-! ## Before the request is sent -/

section Quiet

variable {K : List Event → Prop} (quiet : ∀ es e, e.isPreparation = true → K es → K (es ++ [e]))
include quiet

theorem keeps_waitOut (label : String) (pause : Throttle) :
    Keeps (Since env K) (waitOut label pause deadline) :=
  keeps_waitOut_of (fun _ h => h.noted fun es => quiet es _ rfl)
    (fun _ h => h.woken fun es => quiet es _ rfl) label pause

theorem keeps_heed (key : String) : Keeps (Since env K) (heed key deadline) :=
  keeps_heed_of (fun _ h => h.noted fun es => quiet es _ rfl)
    (fun _ h => h.woken fun es => quiet es _ rfl) (fun _ h => h) key

theorem stable_quiet : Stable (Since env K) :=
  stable_since fun es _ routine => quiet es _ (Event.isPreparation_of_isRoutine routine)

end Quiet

/-- The events of an attempt that is not sent yet. -/
def Preparing (n : Nat) (es : List Event) : Prop :=
  .built n ∈ es ∧ ∀ e ∈ es, e.isPreparation = true

theorem all_append {es : List Event} {e : Event} (h : ∀ e ∈ es, e.isPreparation = true)
    (he : e.isPreparation = true) : ∀ e' ∈ es ++ [e], e'.isPreparation = true := by
  intro e' he'
  rcases List.mem_append.1 he' with hm | hm
  · exact h e' hm
  · rw [List.mem_singleton.1 hm]
    exact he

theorem Preparing.append {n : Nat} (es : List Event) (e : Event) (he : e.isPreparation = true)
    (h : Preparing n es) : Preparing n (es ++ [e]) :=
  ⟨List.mem_append_left _ h.1, all_append h.2 he⟩

/-- Nothing is sent and nothing arrives while an attempt is prepared. -/
theorem prepare_quiet (n : Nat) :
    Leads (· = env) (prepare s build deadline n) (fun _ => Since env (Preparing n))
      (Since env (Preparing n)) := by
  refine leads_prepare n ?_ (keeps_heed Preparing.append) (fun _ => stable_quiet Preparing.append)
    fun _ _ h => h
  rintro env rfl
  exact ⟨[.built n], by simp, by simp [Preparing, Event.isPreparation]⟩

/-! ## After the reply -/

theorem lawful_of_no_replies {ended : Except Stop Response} {es : List Event}
    (h : ∀ reply t, .returned reply t ∉ es) : Lawful deadline ended es := by
  rintro pre reply t post rfl
  exact absurd (by simp) (h reply t)

theorem Lawful.prepend {ended : Except Stop Response} {front es : List Event}
    (h : Lawful deadline ended es) (quiet : ∀ reply t, .returned reply t ∉ front) :
    Lawful deadline ended (front ++ es) := by
  intro pre reply t post hes
  obtain ⟨mid, rfl, rfl⟩ := split_append (quiet reply t) hes
  obtain ⟨before, key, m, t₀, rfl, settles⟩ := h mid reply t post rfl
  exact ⟨front ++ before, key, m, t₀, by rw [List.append_assoc], settles⟩

theorem Lawful.exchange {key : String} {m : Message} {t₀ t : Instant}
    {reply : Except Error.Cause Response} {ended : Except Stop Response} {post : List Event}
    (h : Lawful deadline ended post) (settles : Settles deadline key m.uri t ended post reply) :
    Lawful deadline ended (.sent key m t₀ :: .returned reply t :: post) := by
  intro pre reply' t' post' hes
  rcases pre with - | ⟨e, - | ⟨e', pre⟩⟩
  · cases hes
  · cases hes
    exact ⟨[], key, m, t₀, rfl, settles⟩
  · simp only [List.cons_append, List.cons.injEq] at hes
    obtain ⟨rfl, rfl, hes⟩ := hes
    obtain ⟨before, key', m', t₀', rfl, settles'⟩ := h pre reply' t' post' hes
    exact ⟨.sent key m t₀ :: .returned reply t :: before, key', m', t₀', rfl, settles'⟩

variable {d : Departure} {r : Response} {key uri : String} {t : Instant}
  {ended : Except Stop Response} {post : List Event}

theorem settles_lost (d : Departure) (cause : Error.Cause) :
    Settles deadline d.key d.message.uri t (.error (.failed (lost d cause))) [] (.error cause) :=
  ⟨rfl, lost d cause, rfl, rfl, rfl, rfl⟩

theorem settles_answered (h : r.status.isSuccess = true) :
    Settles deadline key uri t (.ok r) [.cleared key] (.ok r) := by
  have noThrottling : r.status ≠ .tooManyRequests := by
    intro ht
    rw [ht] at h
    cases h
  refine Answers.mk (fun _ => ⟨rfl, rfl⟩) (fun hs => ?_) ?_ ?_ ?_
  · rw [h] at hs
    cases hs
  all_goals exact fun ht => absurd ht noThrottling

theorem settles_refused (h : r.status.isSuccess = false) (h' : r.status ≠ .tooManyRequests) :
    Settles deadline d.key d.message.uri t (.error (.failed (refused d r))) [.cleared d.key]
      (.ok r) := by
  refine Answers.mk (fun hs => ?_) (fun _ _ => ⟨rfl, refused d r, rfl, rfl, rfl, rfl, rfl, rfl⟩)
    ?_ ?_ ?_
  · rw [h] at hs
    cases hs
  all_goals exact fun ht => absurd ht h'

theorem settles_unusable {line : Log.Line} (h : r.status = .tooManyRequests)
    (hr : resume? r t = none) :
    Settles deadline d.key d.message.uri t (.error (.failed (unusable d r))) [.logged line]
      (.ok r) := by
  refine Answers.mk (fun hs => ?_) (fun _ h' => absurd h h')
    (fun _ _ => ⟨⟨line, rfl⟩, unusable d r, rfl, rfl, rfl, rfl⟩) ?_ ?_
  · rw [h] at hs
    cases hs
  all_goals
    intro _ resumeAt hr'
    rw [hr] at hr'
    cases hr'

theorem settles_throttled {resumeAt : Instant} (h : r.status = .tooManyRequests)
    (hr : resume? r t = some resumeAt)
    (outlasting : deadline < resumeAt →
      (∃ line, post = [.paused key ⟨resumeAt, retryAfter? r⟩, .logged line]) ∧
        EndsThrottled uri (retryAfter? r) ended)
    (retried : ¬ deadline < resumeAt → ended = .error .overflow ∨ ∃ n, .built n ∈ post) :
    Settles deadline key uri t ended post (.ok r) := by
  refine Answers.mk (fun hs => ?_) (fun _ h' => absurd h h') (fun _ hn => ?_)
    (fun _ resumeAt' hr' => ?_) (fun _ resumeAt' hr' => ?_)
  · rw [h] at hs
    cases hs
  · rw [hr] at hn
    cases hn
  · rw [hr] at hr'
    cases hr'
    exact outlasting
  · rw [hr] at hr'
    cases hr'
    exact retried

/-! ## Whole runs -/

variable {replies : List (Except Error.Cause Response)} {n : Nat} {es : List Event}

theorem Preparing.regular (h : Preparing n es) : Regular deadline replies ended es where
  builds := ⟨n, h.1⟩
  ordered := by
    rw [Event.replies_eq_nil (Event.notMem_of_isPreparation h.2)]
    exact List.nil_prefix
  lawful := lawful_of_no_replies (Event.notMem_of_isPreparation h.2)

theorem Preparing.regular_sent {m : Message} {t₀ : Instant} (h : Preparing n es) :
    Regular deadline replies ended (es ++ [.sent key m t₀]) := by
  have none (reply : Except Error.Cause Response) (t : Instant) :
      .returned reply t ∉ es ++ [.sent key m t₀] := by
    simpa using Event.notMem_of_isPreparation h.2 reply t
  refine ⟨⟨n, List.mem_append_left _ h.1⟩, ?_, lawful_of_no_replies none⟩
  rw [Event.replies_eq_nil none]
  exact List.nil_prefix

/-- A run in which a reply arrives, if it is regular after that. -/
theorem Preparing.regular_exchange {m : Message} {t₀ : Instant}
    {reply : Except Error.Cause Response} (h : Preparing n es)
    (ordered : Event.replies post <+: replies) (lawful : Lawful deadline ended post)
    (settles : Settles deadline key m.uri t ended post reply) :
    Regular deadline (reply :: replies) ended
      (es ++ .sent key m t₀ :: .returned reply t :: post) := by
  have quiet := Event.notMem_of_isPreparation h.2
  refine ⟨⟨n, List.mem_append_left _ h.1⟩, ?_, (lawful.exchange settles).prepend quiet⟩
  rw [Event.replies_append, Event.replies_eq_nil quiet]
  exact List.cons_prefix_cons.2 ⟨rfl, ordered⟩

/-- A run in which the reply is the last event that matters. -/
theorem Preparing.regular_end {m : Message} {t₀ : Instant} {reply : Except Error.Cause Response}
    (h : Preparing n es) (quiet : ∀ reply t, .returned reply t ∉ post)
    (settles : Settles deadline key m.uri t ended post reply) :
    Regular deadline (reply :: replies) ended
      (es ++ .sent key m t₀ :: .returned reply t :: post) := by
  refine h.regular_exchange ?_ (lawful_of_no_replies quiet) settles
  rw [Event.replies_eq_nil quiet]
  exact List.nil_prefix

section Step

variable {env env₁ env₂ env' : Environment} {x : Exchange} {left : List Exchange} {e : Stop}

theorem regular_unanswered (hp : Since env (Preparing n) env₁)
    (hs : send d x left env₁ = .error e env') :
    Since env (Regular deadline (x.reply :: replies) (.error e)) env' := by
  obtain ⟨es, htrace, hes⟩ := hp
  obtain ⟨rfl, rfl⟩ | ⟨cause, clock, hr, -, rfl, rfl⟩ := send_eq_error hs
  · exact ⟨_, by rw [departed_trace, htrace, List.append_assoc], hes.regular_sent⟩
  · refine ⟨_, by rw [replied_trace, htrace, List.append_assoc], ?_⟩
    rw [hr]
    exact hes.regular_end (by simp) (settles_lost d cause)

/-- What the history holds when an answer has arrived. -/
theorem since_answer (hp : Since env (Preparing n) env₁) (hs : send d x left env₁ = .ok r env₂) :
    x.reply = .ok r ∧ ∃ es t₀, Preparing n es ∧
      env₂.trace = env.trace ++
        (es ++ [.sent d.key d.message t₀, .returned (.ok r) env₂.clock.now]) := by
  obtain ⟨es, htrace, hes⟩ := hp
  obtain ⟨hr, clock, -, rfl⟩ := send_eq_ok hs
  exact ⟨hr, es, env₁.clock.now, hes, by rw [replied_trace, htrace, List.append_assoc, hr]; rfl⟩

theorem regular_refused (hp : Since env (Preparing n) env₁)
    (hs : send d x left env₁ = .ok r env₂) (hc : conclude d deadline n r env₂ = .error e env') :
    Since env (Regular deadline (x.reply :: replies) (.error e)) env' := by
  obtain ⟨hr, es, t₀, hes, htrace⟩ := since_answer hp hs
  rw [hr]
  obtain ⟨hs, ht, rfl, rfl⟩ | ⟨ht, hresume, rfl, line, rfl⟩ | ⟨ht, resumeAt, hresume, hw⟩ :=
    conclude_eq_error hc
  · exact ⟨es ++ .sent d.key d.message t₀ :: .returned (.ok r) env₂.clock.now :: [.cleared d.key],
      by simp [htrace], hes.regular_end (by simp) (settles_refused hs ht)⟩
  · exact ⟨es ++ .sent d.key d.message t₀ :: .returned (.ok r) env₂.clock.now :: [.logged line],
      by simp [htrace], hes.regular_end (by simp) (settles_unusable ht hresume)⟩
  · obtain ⟨hlate, line, rfl⟩ := waitOut_eq_error hw
    refine ⟨es ++ .sent d.key d.message t₀ :: .returned (.ok r) env₂.clock.now ::
      [.paused d.key ⟨resumeAt, retryAfter? r⟩, .logged line], by simp [htrace],
      hes.regular_end (by simp) (settles_throttled ht hresume ?_ ?_)⟩
    · intro late
      obtain ⟨-, rfl⟩ | ⟨early, -⟩ := hlate
      · exact ⟨⟨line, rfl⟩, _, rfl, rfl, rfl, rfl⟩
      · exact absurd late early
    · intro early
      obtain ⟨late, -⟩ | ⟨-, -, rfl⟩ := hlate
      · exact absurd late early
      · exact .inl rfl

theorem regular_answered {r' : Response} (hp : Since env (Preparing n) env₁)
    (hs : send d x left env₁ = .ok r env₂)
    (hc : conclude d deadline n r env₂ = .ok (some r') env') :
    Since env (Regular deadline (x.reply :: replies) (.ok r')) env' := by
  obtain ⟨hr, es, t₀, hes, htrace⟩ := since_answer hp hs
  obtain ⟨hsuccess, rfl, rfl⟩ := conclude_eq_answered hc
  rw [hr]
  exact ⟨es ++ .sent d.key d.message t₀ :: .returned (.ok r') env₂.clock.now :: [.cleared d.key],
    by simp [htrace], hes.regular_end (by simp) (settles_answered hsuccess)⟩

/-- Nothing arrives while the pause is waited out that an answer announces. -/
theorem since_waited (d : Departure) (deadline : Instant) (pause : Throttle) (env : Environment) :
    ∃ waits, ((waitOut d.message.uri pause deadline).leaves (held d.key pause env)).trace =
        env.trace ++ .paused d.key pause :: waits ∧ ∀ e ∈ waits, e.isPreparation = true := by
  obtain ⟨waits, htrace, quiet⟩ : Since (held d.key pause env)
      (fun es => ∀ e ∈ es, e.isPreparation = true) _ :=
    (keeps_waitOut (fun _ _ he h => all_append h he) d.message.uri pause).leaves (.refl (by simp) _)
  exact ⟨waits, by rw [htrace, held_trace, List.append_assoc]; rfl, quiet⟩

/-- An attempt that is throttled, but none can follow it. -/
theorem regular_exhausted (hp : Since env (Preparing n) env₁) (hs : send d x left env₁ = .ok r env₂)
    (hc : conclude d deadline n r env₂ = .ok none env') :
    Since env (Regular deadline (x.reply :: replies) (.error .overflow)) env' := by
  obtain ⟨hr, es, t₀, hes, htrace⟩ := since_answer hp hs
  obtain ⟨ht, resumeAt, hresume, hw⟩ := conclude_eq_again hc
  obtain ⟨waits, hwaits, quiet⟩ := since_waited d deadline ⟨resumeAt, retryAfter? r⟩ env₂
  rw [leaves_eq_of_ok hw] at hwaits
  rw [hr]
  refine ⟨es ++ .sent d.key d.message t₀ :: .returned (.ok r) env₂.clock.now ::
    (.paused d.key ⟨resumeAt, retryAfter? r⟩ :: waits), ?_,
    hes.regular_end ?_ (settles_throttled ht hresume ?_ ?_)⟩
  · simp [hwaits, htrace]
  · simpa using Event.notMem_of_isPreparation quiet
  · exact fun late => absurd late (waitOut_eq_ok hw).1
  · exact fun _ => .inl rfl

theorem regular_retried {env₃ : Environment} (hp : Since env (Preparing n) env₁)
    (hs : send d x left env₁ = .ok r env₂) (hc : conclude d deadline n r env₂ = .ok none env₃)
    (rest : Since env₃ (Regular deadline replies ended) env') :
    Since env (Regular deadline (x.reply :: replies) ended) env' := by
  obtain ⟨hr, es, t₀, hes, htrace⟩ := since_answer hp hs
  obtain ⟨ht, resumeAt, hresume, hw⟩ := conclude_eq_again hc
  obtain ⟨waits, hwaits, quiet⟩ := since_waited d deadline ⟨resumeAt, retryAfter? r⟩ env₂
  rw [leaves_eq_of_ok hw] at hwaits
  obtain ⟨later, hlater, regular⟩ := rest
  have silent (reply : Except Error.Cause Response) (t : Instant) :
      .returned reply t ∉ .paused d.key ⟨resumeAt, retryAfter? r⟩ :: waits := by
    simpa using Event.notMem_of_isPreparation quiet reply t
  rw [hr]
  refine ⟨es ++ .sent d.key d.message t₀ :: .returned (.ok r) env₂.clock.now ::
    (.paused d.key ⟨resumeAt, retryAfter? r⟩ :: waits ++ later), ?_,
    hes.regular_exchange ?_ (regular.lawful.prepend silent) (settles_throttled ht hresume ?_ ?_)⟩
  · simp [hlater, hwaits, htrace]
  · rw [Event.replies_append, Event.replies_eq_nil silent]
    exact regular.ordered
  · exact fun late => absurd late (waitOut_eq_ok hw).1
  · intro _
    obtain ⟨n', hn'⟩ := regular.builds
    exact .inr ⟨n', List.mem_append_right _ hn'⟩

end Step

theorem attempts_regular (left : List Exchange) :
    ∀ (n : Nat) (env : Environment),
      Since env (Regular deadline (left.map (·.reply) ++ [.error .noResponseLeft])
        (ending (attempts s build deadline left n env)))
        (final (attempts s build deadline left n env)) := by
  -- a retry leaves one exchange fewer, and the events of the rest stand behind those of the attempt
  induction left with
  | nil =>
    intro n env
    rw [attempts, bind_apply]
    cases hp : prepare s build deadline n env with
    | error e env' =>
      obtain ⟨es, htrace, hes⟩ := (prepare_quiet n).error rfl hp
      exact ⟨es, htrace, hes.regular⟩
    | ok d env₁ =>
      dsimp only
      cases hs : send d { reply := .error .noResponseLeft } [] env₁ with
      | error e env' => exact regular_unanswered ((prepare_quiet n).ok rfl hp) hs
      | ok r env₂ => cases (send_eq_ok hs).1
  | cons x left ih =>
    intro n env
    have turn := attempts_turn s build deadline x left n env
    generalize attempts s build deadline (x :: left) n env = result at turn ⊢
    cases turn with
    | unprepared hp =>
      obtain ⟨es, htrace, hes⟩ := (prepare_quiet n).error rfl hp
      exact ⟨es, htrace, hes.regular⟩
    | unanswered hp hs => exact regular_unanswered ((prepare_quiet n).ok rfl hp) hs
    | refused hp hs hc => exact regular_refused ((prepare_quiet n).ok rfl hp) hs hc
    | answered hp hs hc => exact regular_answered ((prepare_quiet n).ok rfl hp) hs hc
    | exhausted hp hs hc => exact regular_exhausted ((prepare_quiet n).ok rfl hp) hs hc
    | @again b h =>
      obtain ⟨x', d, env₁, r, env₂, hleft, -, hp, hs, hc⟩ := h
      cases hleft
      exact regular_retried ((prepare_quiet n).ok rfl hp) hs hc (ih b.number b.env)

theorem execute_regular (s : Signer) (build : Build) (deadline : Instant) (env : Environment) :
    Regular deadline ((env.transport.getD []).map (·.reply) ++ [.error .noResponseLeft])
      ((execute s build deadline).outcome env) ((execute s build deadline).events env) := by
  have regular : Since env
      (Regular deadline ((env.transport.getD []).map (·.reply) ++ [.error .noResponseLeft])
        ((execute s build deadline).outcome env)) ((execute s build deadline).leaves env) := by
    unfold outcome leaves
    cases ht : env.transport with
    | some left =>
      rw [execute_of_transport ht]
      exact attempts_regular left 1 env
    | none =>
      rw [execute_of_no_transport ht]
      cases hp : prepare s build deadline 1 env with
      | error e env' =>
        obtain ⟨es, htrace, hes⟩ := (prepare_quiet 1).error rfl hp
        exact ⟨es, htrace, hes.regular⟩
      | ok d env₁ =>
        obtain ⟨es, htrace, hes⟩ := (prepare_quiet 1).ok rfl hp
        exact ⟨es, htrace, hes.regular⟩
  obtain ⟨es, htrace, hes⟩ := regular
  rw [events_eq htrace]
  exact hes

/-- Only an answer that announces a pause within the deadline is followed by any effort. -/
theorem Settles.announces {reply : Except Error.Cause Response}
    (h : Settles deadline key uri t ended post reply) (effort : ∃ e ∈ post, e.isEffort = true) :
    ∃ r resumeAt, reply = .ok r ∧ r.status = .tooManyRequests ∧ resume? r t = some resumeAt ∧
      ¬ deadline < resumeAt := by
  obtain ⟨e, he, heffort⟩ := effort
  cases reply with
  | error cause =>
    obtain ⟨rfl, -⟩ := h
    cases he
  | ok r =>
    have answers : Answers deadline key uri r t ended post := h
    have idle {key : String} (hpost : post = [.cleared key]) : False := by
      rw [hpost, List.mem_singleton] at he
      rw [he] at heffort
      cases heffort
    by_cases hs : r.status.isSuccess = true
    · exact (idle (answers.success hs).1).elim
    by_cases ht : r.status = .tooManyRequests
    · cases hr : resume? r t with
      | none =>
        obtain ⟨⟨line, rfl⟩, -⟩ := answers.unusable ht hr
        rw [List.mem_singleton.1 he] at heffort
        cases heffort
      | some resumeAt =>
        refine ⟨r, resumeAt, rfl, ht, hr, fun late => ?_⟩
        obtain ⟨⟨line, rfl⟩, -⟩ := answers.outlasting ht resumeAt hr late
        simp only [List.mem_cons, List.not_mem_nil, or_false] at he
        rcases he with rfl | rfl <;> cases heffort
    · exact (idle (answers.refusal (by simpa using hs) ht).1).elim

/-- The retry law. -/
theorem execute_replies (s : Signer) (build : Build) (deadline : Instant) (env : Environment) :
    Event.replies ((execute s build deadline).events env) <+:
      (env.transport.getD []).map (·.reply) ++ [.error .noResponseLeft] ∧
    Lawful deadline ((execute s build deadline).outcome env)
      ((execute s build deadline).events env) ∧
    ∀ pre reply t post, (execute s build deadline).events env = pre ++ .returned reply t :: post →
      (∃ e ∈ post, e.isEffort = true) →
      ∃ r value text resumeAt, reply = .ok r ∧ r.status = .tooManyRequests ∧
        r.headers.first? Header.retryAfter = some value ∧ value.text? = some text ∧
        RetryAfter.resume? text t = some resumeAt ∧ resumeAt ≤ deadline := by
  have regular := execute_regular s build deadline env
  refine ⟨regular.ordered, regular.lawful, fun pre reply t post hes effort => ?_⟩
  obtain ⟨before, key, m, t₀, -, settles⟩ := regular.lawful pre reply t post hes
  obtain ⟨r, resumeAt, rfl, hstatus, hresume, early⟩ := settles.announces effort
  obtain ⟨text, htext, hparsed⟩ := Option.bind_eq_some_iff.1 hresume
  obtain ⟨value, hvalue, hread⟩ := Option.bind_eq_some_iff.1 htext
  exact ⟨r, value, text, resumeAt, rfl, hstatus, hvalue, hread, hparsed, Instant.not_lt.1 early⟩

def fine : Response := ⟨⟨200⟩, {}, []⟩

/-- The server asks for a pause of a second before it answers. -/
def calledBack : Environment where
  clock := { now := .atSecond 0 }
  transport := some [{ reply := .ok inOneSecond }, { reply := .ok fine }]

theorem calledBack_replies :
    ∃ pre t mid key m t₀ t' text resumeAt,
      (execute { scheme := .bearer } (fun _ => .ok bare) (.atSecond 9)).events calledBack =
        pre ++ .returned (.ok inOneSecond) t ::
          (mid ++ [.sent key m t₀, .returned (.ok fine) t', .cleared key]) ∧
      (execute { scheme := .bearer } (fun _ => .ok bare) (.atSecond 9)).outcome calledBack =
        .ok fine ∧
      RetryAfter.resume? text t = some resumeAt ∧ resumeAt ≤ .atSecond 9 := by
  obtain ⟨ordered, lawful, announced⟩ :=
    execute_replies { scheme := .bearer } (fun _ => .ok bare) (.atSecond 9) calledBack
  generalize hes : (execute { scheme := .bearer } (fun _ => .ok bare) (.atSecond 9)).events
    calledBack = es at ordered lawful announced
  have two : (Event.replies es).length = 2 := by
    rw [← hes]
    decide +kernel
  have replies : Event.replies es = [.ok inOneSecond, .ok fine] :=
    Event.replies_eq_take ordered two
  obtain ⟨pre, t, post, rfl, hpost⟩ := Event.exists_returned replies
  obtain ⟨mid, t', rest, rfl, -⟩ := Event.exists_returned hpost
  obtain ⟨before, key, m, t₀, hbefore, settles⟩ :=
    lawful (pre ++ .returned (.ok inOneSecond) t :: mid) (.ok fine) t' rest (by simp)
  obtain ⟨rfl, ended⟩ := settles.success rfl
  -- the request for the second reply is sent after the first one
  obtain ⟨-, he⟩ | ⟨mid, rfl, -⟩ := split_concat hbefore.symm
  · cases he
  obtain ⟨r, value, text, resumeAt, -, -, -, -, hresume, early⟩ := announced pre _ t _ rfl
    ⟨.sent key m t₀, by simp, rfl⟩
  exact ⟨pre, t, mid, key, m, t₀, t', text, resumeAt, by simp, ended, hresume, early⟩

end Executor
end SignedHttp

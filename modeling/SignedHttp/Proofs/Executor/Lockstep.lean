import SignedHttp.Proofs.Executor.Attempt
import SignedHttp.Proofs.Signer.Lockstep

/-!
# SignedHttp.Proofs.Executor.Lockstep

Two executions side by side. A `Guise` says how the requests of the two may differ, and their
addresses; lines of the log and errors may then differ in an address that they name, but in nothing
else (`Log.Line.Akin`, `Error.Akin`).

`Abreast L G deadline S R` says that the relation `S` between environments survives what an
attempt does to both of them besides building and signing its request; `R key` is what is known
from the moment when the pause of the resource `key` has been heeded. Concur signers then execute in
lockstep (`Abreast.execute`).
-/

namespace SignedHttp

/-! ## What may differ in a request -/

/-- How the requests of two runs may differ, and the addresses in their errors and logs. -/
structure Guise where
  address : String → String → Prop
  message : Message → Message → Prop
  refl : ∀ u, address u u
  uri : ∀ {m₁ m₂}, message m₁ m₂ → address m₁.uri m₂.uri

/-- Nothing may differ. -/
def Guise.identity : Guise where
  address := Eq
  message := Eq
  refl _ := rfl
  uri h := by rw [h]

/-- Requests that are ready to be sent, or fail to be, alike. -/
structure Guise.Fits (G : Guise) (r₁ r₂ : Request) : Prop where
  method : r₁.method = r₂.method
  uri : Concur Eq G.address r₁.uri r₂.uri
  message : Concur Eq G.message r₁.message r₂.message

theorem Guise.fits_identity (r : Request) : Guise.identity.Fits r r :=
  ⟨rfl, Concur.refl (fun _ => rfl) (fun _ => rfl) _, Concur.refl (fun _ => rfl) (fun _ => rfl) _⟩

variable {U : String → String → Prop}

/-- Lines that are the same but for an address. -/
def Log.Line.Akin (U : String → String → Prop) (l₁ l₂ : Log.Line) : Prop :=
  l₁.level = l₂.level ∧ ∃ front u₁ u₂ back, U u₁ u₂ ∧
    l₁.text = front ++ u₁ ++ back ∧ l₂.text = front ++ u₂ ++ back

theorem Log.Line.Akin.named {u₁ u₂ : String} (h : U u₁ u₂) (level : Log.Level)
    (front back : String) :
    Log.Line.Akin U ⟨level, front ++ u₁ ++ back⟩ ⟨level, front ++ u₂ ++ back⟩ :=
  ⟨rfl, front, u₁, u₂, back, h, rfl, rfl⟩

theorem Log.Line.Akin.refl (h : U "" "") (line : Log.Line) : Log.Line.Akin U line line :=
  ⟨rfl, line.text, "", "", "", h, by simp, by simp⟩

theorem Log.Line.Akin.eq {l₁ l₂ : Log.Line} (h : Log.Line.Akin Eq l₁ l₂) : l₁ = l₂ := by
  obtain ⟨level₁, text₁⟩ := l₁
  obtain ⟨level₂, text₂⟩ := l₂
  obtain ⟨rfl, front, u, _, back, rfl, rfl, rfl⟩ := h
  rfl

namespace Error

/-- Causes that are the same but for an address. -/
inductive Cause.Akin (U : String → String → Prop) : Cause → Cause → Prop
  | same (c : Cause) : Akin U c c
  | pausedBeyond {u₁ u₂ : String} (resumeAt deadline : Instant) : U u₁ u₂ →
      Akin U (.pausedBeyond u₁ resumeAt deadline) (.pausedBeyond u₂ resumeAt deadline)
  | pausedWithoutEnd {u₁ u₂ : String} : U u₁ u₂ →
      Akin U (.pausedWithoutEnd u₁) (.pausedWithoutEnd u₂)
  | sendFailed {u₁ u₂ : String} : U u₁ u₂ → Akin U (.sendFailed u₁) (.sendFailed u₂)

/-- Errors that are the same but for an address. -/
structure Akin (U : String → String → Prop) (e₁ e₂ : Error) : Prop where
  cause : e₁.cause.Akin U e₂.cause
  uri : Option.Rel U e₁.uri e₂.uri
  retryAfter : e₁.retryAfter = e₂.retryAfter
  source : e₁.source = e₂.source

theorem Akin.refl (h : ∀ u, U u u) (e : Error) : Akin U e e :=
  ⟨.same e.cause, rel_refl h e.uri, rfl, rfl⟩

theorem Akin.eq {e₁ e₂ : Error} (h : Akin Eq e₁ e₂) : e₁ = e₂ := by
  obtain ⟨cause₁, uri₁, retryAfter₁, source₁⟩ := e₁
  obtain ⟨cause₂, uri₂, retryAfter₂, source₂⟩ := e₂
  obtain ⟨cause, uri, rfl, rfl⟩ := h
  cases eq_of_rel uri
  cases cause with
  | same => rfl
  | pausedBeyond _ _ h => cases h; rfl
  | pausedWithoutEnd h => cases h; rfl
  | sendFailed h => cases h; rfl

end Error

/-- Reasons to stop that are the same but for an address. -/
inductive Stop.Akin (U : String → String → Prop) : Stop → Stop → Prop
  | failed {e₁ e₂ : Error} : e₁.Akin U e₂ → Akin U (.failed e₁) (.failed e₂)
  | overflow : Akin U .overflow .overflow

theorem Stop.Akin.refl (h : ∀ u, U u u) (e : Stop) : Stop.Akin U e e := by
  cases e with
  | failed e => exact .failed (.refl h e)
  | overflow => exact .overflow

theorem Stop.Akin.eq {e f : Stop} (h : Stop.Akin Eq e f) : e = f := by
  cases h with
  | failed h => rw [h.eq]
  | overflow => rfl

namespace Executor

open Run

/-! ## Waiting for a pause -/

section Waiting

variable {deadline : Instant} {S R : Environment → Environment → Prop}

/-- Both wait for a pause, of one label or of another. -/
theorem lockstep_waitOut_of {u₁ u₂ : String}
    (clock : ∀ {env₁ env₂}, R env₁ env₂ → env₁.clock = env₂.clock)
    (logged : ∀ {env₁ env₂ l₁ l₂}, Log.Line.Akin U l₁ l₂ → R env₁ env₂ →
      R (env₁.noted (.logged l₁)) (env₂.noted (.logged l₂)))
    (slept : ∀ {env₁ env₂ wait d clock}, env₁.clock.sleep? d = some clock → R env₁ env₂ →
      R (env₁.woken wait d clock) (env₂.woken wait d clock))
    (label : U u₁ u₂) (pause : Throttle) :
    Lockstep R (waitOut u₁ pause deadline) (waitOut u₂ pause deadline) (fun _ _ => R)
      (Both (Stop.Akin U) R) := by
  have line (level : Log.Level) (back : String) :
      Log.Line.Akin U ⟨level, u₁ ++ back⟩ ⟨level, u₂ ++ back⟩ := by
    simpa using Log.Line.Akin.named label level "" back
  have lines {l₁ l₂ : Log.Line} (akin : Log.Line.Akin U l₁ l₂) :
      Lockstep R (log [l₁]) (log [l₂]) (fun _ _ => R) (Both (Stop.Akin U) R) :=
    fun _ _ hR => .ok (logged akin hR)
  unfold waitOut
  by_cases hd : deadline < pause.resumeAt
  · rw [if_pos hd, if_pos hd]
    refine (lines ?_).bind fun _ _ => lockstep_fail fun _ _ hR => ⟨.failed ?_, hR⟩
    · simpa only [Log.warn, String.append_assoc] using line .warn _
    · exact ⟨.pausedBeyond _ _ label, .some label, rfl, rfl⟩
  · rw [if_neg hd, if_neg hd]
    refine (lockstep_now fun _ _ => clock).bind ?_
    rintro now _ env₁ env₂ ⟨rfl, hR⟩
    dsimp only
    by_cases hw : pause.resumeAt.remaining now ≠ .zero
    · rw [if_pos hw, if_pos hw]
      refine ((lines ?_).bind fun _ _ => lockstep_sleep (fun _ _ => clock) (fun _ _ _ => slept)
        fun _ _ hR => ⟨.overflow, hR⟩) env₁ env₂ hR
      simpa only [Log.debug, String.append_assoc] using line .debug _
    · rw [if_neg hw, if_neg hw]
      exact .ok hR

/-- Both heed the same pause of a resource, if there is one. -/
theorem lockstep_heed_of {key : String}
    (pending : ∀ {env₁ env₂}, S env₁ env₂ →
      (env₁.throttles.pending key env₁.clock.now).1 =
          (env₂.throttles.pending key env₂.clock.now).1 ∧
        R { env₁ with throttles := (env₁.throttles.pending key env₁.clock.now).2 }
          { env₂ with throttles := (env₂.throttles.pending key env₂.clock.now).2 })
    (waits : ∀ pause, Lockstep R (waitOut key pause deadline) (waitOut key pause deadline)
      (fun _ _ => R) (Both (Stop.Akin U) R)) :
    Lockstep S (heed key deadline) (heed key deadline) (fun _ _ => R)
      (Both (Stop.Akin U) R) := by
  intro env₁ env₂ hS
  obtain ⟨same, hR⟩ := pending hS
  rw [heed_apply, heed_apply, ← same]
  cases (env₁.throttles.pending key env₁.clock.now).1 with
  | none => exact .ok hR
  | some pause => exact waits pause _ _ hR

end Waiting

/-! ## Attempts side by side -/

/-- How both runs end where one does so with a failure. -/
abbrev Fails (G : Guise) (S : Environment → Environment → Prop) :
    Stop → Stop → Environment → Environment → Prop :=
  Both (Stop.Akin G.address) S

/-- A relation `S` between environments that survives what an attempt does besides building and
signing its request, and what is known when the pause of a resource has been heeded. -/
structure Abreast (L : Likeness) (G : Guise) (deadline : Instant)
    (S : Environment → Environment → Prop) (R : String → Environment → Environment → Prop) :
    Prop where
  transport : ∀ {env₁ env₂}, S env₁ env₂ → env₁.transport = env₂.transport
  built : ∀ {env₁ env₂} n, S env₁ env₂ → S (env₁.noted (.built n)) (env₂.noted (.built n))
  heeds : ∀ key, Lockstep S (heed key deadline) (heed key deadline) (fun _ _ => R key) (Fails G S)
  weaker : ∀ {env₁ env₂} key, R key env₁ env₂ → S env₁ env₂
  unison : ∀ key, Unison L (R key)
  logged : ∀ {env₁ env₂ l₁ l₂} key, Log.Line.Akin G.address l₁ l₂ → R key env₁ env₂ →
    R key (env₁.noted (.logged l₁)) (env₂.noted (.logged l₂))
  sent : ∀ {env₁ env₂ m₁ m₂} key left, G.message m₁ m₂ → R key env₁ env₂ →
    R key (departed ⟨key, m₁⟩ left env₁) (departed ⟨key, m₂⟩ left env₂)
  returned : ∀ {env₁ env₂ d clock} key reply, env₁.clock.advance? d = some clock →
    R key env₁ env₂ → R key (Environment.noted { env₁ with clock } (.returned reply clock.now))
      (Environment.noted { env₂ with clock } (.returned reply clock.now))
  cleared : ∀ {env₁ env₂} key, R key env₁ env₂ → R key (released key env₁) (released key env₂)
  paused : ∀ {env₁ env₂} key pause, R key env₁ env₂ →
    R key (held key pause env₁) (held key pause env₂)

namespace Abreast

variable {L : Likeness} {G : Guise} {deadline : Instant} {S : Environment → Environment → Prop}
  {R : String → Environment → Environment → Prop} {s₁ s₂ : Signer} {d₁ d₂ : Departure}

/-- Both runs are ready to send. -/
structure Departing (G : Guise) (R : String → Environment → Environment → Prop)
    (d₁ d₂ : Departure) (env₁ env₂ : Environment) : Prop where
  key : d₁.key = d₂.key
  message : G.message d₁.message d₂.message
  environments : R d₁.key env₁ env₂

/-- A part that fails for the same reason in both runs, if it does. -/
theorem part (h : Abreast L G deadline S R) {α β : Type} {key : String} {x : Run α} {y : Run β}
    {T : α → β → Environment → Environment → Prop} (hx : Lockstep (R key) x y T (Both Eq (R key))) :
    Lockstep (R key) x y T (Fails G S) := by
  refine hx.mono (fun _ _ hR => hR) (fun _ _ _ _ hT => hT) ?_
  rintro e _ env₁ env₂ ⟨rfl, hR⟩
  exact ⟨.refl G.refl e, h.weaker key hR⟩

theorem lockstep_line (h : Abreast L G deadline S R) (key : String) {l₁ l₂ : Log.Line}
    (akin : Log.Line.Akin G.address l₁ l₂) :
    Lockstep (R key) (log [l₁]) (log [l₂]) (fun _ _ => R key) (Fails G S) :=
  fun _ _ hR => .ok (h.logged key akin hR)

theorem lockstep_waitOut (h : Abreast L G deadline S R) (key : String) {u₁ u₂ : String}
    (label : G.address u₁ u₂) (pause : Throttle) :
    Lockstep (R key) (waitOut u₁ pause deadline) (waitOut u₂ pause deadline) (fun _ _ => R key)
      (Fails G S) :=
  (lockstep_waitOut_of (h.unison key).clock (h.logged key) (h.unison key).slept label pause).mono
    (fun _ _ hR => hR) (fun _ _ _ _ hR => hR) fun _ _ _ _ hF => ⟨hF.1, h.weaker key hF.2⟩

theorem lockstep_load (h : Abreast L G deadline S R) (key : String) (n : Nat) {r₁ r₂ : Request}
    (fits : G.Fits r₁ r₂) :
    Lockstep (R key) (load n r₁) (load n r₂) (Both G.message (R key)) (Fails G S) := by
  unfold load
  rw [fits.method]
  refine Lockstep.bind (h.part (lockstep_lift fits.uri fun _ => rfl)) ?_
  rintro u₁ u₂ env₁ env₂ ⟨uri, hR⟩
  refine ((h.lockstep_line key ?_).bind fun _ _ =>
    h.part (lockstep_lift fits.message fun _ => rfl)) env₁ env₂ hR
  simpa only [Log.debug, String.append_empty] using Log.Line.Akin.named uri .debug
    ("sending attempt " ++ String.ofList (Text.decimal n) ++ ": " ++ r₂.method.text ++ " ") ""

theorem lockstep_prepare (h : Abreast L G deadline S R) (signers : s₁.Akin L s₂)
    (signs : Signer.Signs L s₁.scheme G.Fits) (build : Build) (n : Nat) :
    Lockstep S (prepare s₁ build deadline n) (prepare s₂ build deadline n) (Departing G R)
      (Fails G S) := by
  unfold prepare
  refine (lockstep_note fun _ _ => h.built n).bind fun _ _ => ?_
  refine (lockstep_lift (Concur.refl (fun _ => rfl) (fun _ => rfl) (build n))
    (Stop.Akin.refl G.refl)).bind ?_
  rintro r _ env₁ env₂ ⟨rfl, hS⟩
  refine ((h.heeds r.resourceKey).bind fun _ _ =>
    (h.part (Signer.lockstep_sign (h.unison _) signers signs r)).bind ?_) env₁ env₂ hS
  rintro r₁ r₂ env₁ env₂ ⟨fits, hR⟩
  refine ((h.part (h.unison _).lockstep_acquire).bind fun _ _ =>
    (h.lockstep_load r.resourceKey n fits).bind fun m₁ m₂ => ?_) env₁ env₂ hR
  exact lockstep_pure fun _ _ hm => ⟨rfl, hm.1, hm.2⟩

theorem akin_lost (departing : G.message d₁.message d₂.message) (cause : Error.Cause) :
    (lost d₁ cause).Akin G.address (lost d₂ cause) :=
  ⟨.sendFailed (G.uri departing), .some (G.uri departing), rfl, rfl⟩

theorem lockstep_send (h : Abreast L G deadline S R) (x : Exchange) (left : List Exchange) :
    Lockstep (Departing G R d₁ d₂) (send d₁ x left) (send d₂ x left)
      (fun r₁ r₂ env₁ env₂ => r₁ = r₂ ∧ Departing G R d₁ d₂ env₁ env₂) (Fails G S) := by
  rintro env₁ env₂ departing
  obtain ⟨key, m₁⟩ := d₁
  obtain ⟨_, m₂⟩ := d₂
  obtain ⟨rfl, message, hR⟩ := departing
  have gone := h.sent key left message hR
  have same := (h.unison key).clock hR
  cases hc : env₁.clock.advance? x.takes with
  | none =>
    rw [send_overflow hc, send_overflow (same ▸ hc)]
    exact .error ⟨.overflow, h.weaker key gone⟩
  | some clock =>
    have back : R key (replied ⟨key, m₁⟩ x left clock env₁) (replied ⟨key, m₂⟩ x left clock env₂) :=
      h.returned key x.reply (d := x.takes) hc gone
    rw [send_apply hc, send_apply (same ▸ hc)]
    cases x.reply with
    | ok r => exact .ok ⟨rfl, rfl, message, back⟩
    | error cause => exact .error ⟨.failed (akin_lost message cause), h.weaker key back⟩

theorem lockstep_comeBack (h : Abreast L G deadline S R) (key : String) {m₁ m₂ : Message}
    (message : G.message m₁ m₂) (n : Nat) (r : Response) :
    Lockstep (R key) (comeBack ⟨key, m₁⟩ deadline n r) (comeBack ⟨key, m₂⟩ deadline n r)
      (fun _ _ => R key) (Fails G S) := by
  have uri := G.uri message
  refine (lockstep_now fun _ _ => (h.unison key).clock).bind ?_
  rintro now _ env₁ env₂ ⟨rfl, hR⟩
  dsimp only
  cases (retryAfter? r).bind (RetryAfter.resume? · now) with
  | none =>
    refine ((h.lockstep_line key ?_).bind fun _ _ =>
      lockstep_fail fun _ _ hR => ⟨.failed ?_, h.weaker key hR⟩) env₁ env₂ hR
    · simpa only [Log.warn, String.append_assoc] using Log.Line.Akin.named uri .warn
        ("attempt " ++ String.ofList (Text.decimal n) ++ " to ")
        (" throttled without usable Retry-After: " ++
          Text.optional ((retryAfter? r).map Text.quote))
    · exact ⟨.pausedWithoutEnd uri, .some uri, rfl, rfl⟩
  | some resumeAt =>
    exact h.lockstep_waitOut key uri _ _ _ (h.paused key ⟨resumeAt, retryAfter? r⟩ hR)

theorem lockstep_conclude (h : Abreast L G deadline S R) (n : Nat) (r : Response) :
    Lockstep (Departing G R d₁ d₂) (conclude d₁ deadline n r) (conclude d₂ deadline n r)
      (Both Eq S) (Fails G S) := by
  rintro env₁ env₂ departing
  obtain ⟨key, m₁⟩ := d₁
  obtain ⟨_, m₂⟩ := d₂
  obtain ⟨rfl, message, hR⟩ := departing
  by_cases hs : r.status.isSuccess = true
  · rw [conclude_success hs, conclude_success hs]
    exact .ok ⟨rfl, h.weaker key (h.cleared key hR)⟩
  by_cases ht : r.status = .tooManyRequests
  · have ends := h.lockstep_comeBack key message n r env₁ env₂ hR
    rw [conclude_throttled ht, conclude_throttled ht]
    generalize comeBack ⟨key, m₁⟩ deadline n r env₁ = x₁ at ends ⊢
    generalize comeBack ⟨key, m₂⟩ deadline n r env₂ = x₂ at ends ⊢
    cases ends with
    | ok hR => exact .ok ⟨rfl, h.weaker key hR⟩
    | error hF => exact .error hF
  · have hs : r.status.isSuccess = false := by simpa using hs
    rw [conclude_refused hs ht, conclude_refused hs ht]
    have refusal : (refused ⟨key, m₁⟩ r).Akin G.address (refused ⟨key, m₂⟩ r) :=
      ⟨.same _, .some (G.uri message), rfl, rfl⟩
    exact .error ⟨.failed refusal, h.weaker key (h.cleared key hR)⟩

/-- Both runs go on to another attempt, or neither has a number for it. -/
theorem lockstep_following (n : Nat) :
    Lockstep S (following n) (following n) (Both Eq S) (Fails G S) := by
  intro env₁ env₂ hS
  by_cases h : n + 1 < UInt32.size
  · rw [following_of_lt h, following_of_lt h]
    exact .ok ⟨rfl, hS⟩
  · rw [following_of_le (Nat.le_of_not_lt h), following_of_le (Nat.le_of_not_lt h)]
    exact .error ⟨.overflow, hS⟩

theorem attempts (h : Abreast L G deadline S R) (signers : s₁.Akin L s₂)
    (signs : Signer.Signs L s₁.scheme G.Fits) (build : Build) (xs : List Exchange) (n : Nat) :
    Lockstep S (attempts s₁ build deadline xs n) (attempts s₂ build deadline xs n) (Both Eq S)
      (Fails G S) := by
  induction xs generalizing n with
  | nil =>
    refine (h.lockstep_prepare signers signs build n).bind fun d₁ d₂ => ?_
    exact (h.lockstep_send _ []).mono (fun _ _ hd => hd)
      (fun _ _ _ _ hr => ⟨hr.1, h.weaker _ hr.2.environments⟩) fun _ _ _ _ hF => hF
  | cons x left ih =>
    refine (h.lockstep_prepare signers signs build n).bind fun d₁ d₂ =>
      (h.lockstep_send x left).bind ?_
    rintro r _ env₁ env₂ ⟨rfl, departing⟩
    refine ((h.lockstep_conclude n r).bind ?_) env₁ env₂ departing
    rintro answer _ env₁ env₂ ⟨rfl, hS⟩
    cases answer with
    | some r => exact .ok ⟨rfl, hS⟩
    | none =>
      refine ((lockstep_following n).bind ?_) env₁ env₂ hS
      rintro next _ env₁ env₂ ⟨rfl, hS⟩
      exact ih next env₁ env₂ hS

/-- Concur signers execute in lockstep. -/
theorem execute (h : Abreast L G deadline S R) (signers : s₁.Akin L s₂)
    (signs : Signer.Signs L s₁.scheme G.Fits) (build : Build) :
    Lockstep S (execute s₁ build deadline) (execute s₂ build deadline) (Both Eq S) (Fails G S) := by
  intro env₁ env₂ hS
  have same := h.transport hS
  cases ht : env₁.transport with
  | some xs =>
    rw [execute_of_transport ht, execute_of_transport (same ▸ ht)]
    exact h.attempts signers signs build xs 1 env₁ env₂ hS
  | none =>
    have prepared := h.lockstep_prepare signers signs build 1 env₁ env₂ hS
    rw [execute_of_no_transport ht, execute_of_no_transport (same ▸ ht)]
    generalize prepare s₁ build deadline 1 env₁ = x₁ at prepared ⊢
    generalize prepare s₂ build deadline 1 env₂ = x₂ at prepared ⊢
    cases prepared with
    | ok hd => exact .error ⟨.failed (akin_lost hd.message _), h.weaker _ hd.environments⟩
    | error hF => exact .error hF

/-- Where one run makes another attempt, so does the other run. -/
theorem retries (h : Abreast L G deadline S R) (signers : s₁.Akin L s₂)
    (signs : Signer.Signs L s₁.scheme G.Fits) {build : Build} {a₁ b₁ : Attempt}
    (step : Retries s₁ build deadline a₁ b₁) {env₂ : Environment} (hS : S a₁.env env₂) :
    ∃ mid, Retries s₂ build deadline ⟨a₁.left, a₁.number, env₂⟩ ⟨b₁.left, b₁.number, mid⟩ ∧
      S b₁.env mid := by
  obtain ⟨x, d₁, mid₁, r, mid₁', hleft, hn, hp, hs, hc⟩ := step
  have prepared := h.lockstep_prepare signers signs build a₁.number a₁.env env₂ hS
  rw [hp] at prepared
  cases hp₂ : prepare s₂ build deadline a₁.number env₂ with
  | error => rw [hp₂] at prepared; cases prepared
  | ok d₂ mid₂ =>
    rw [hp₂] at prepared
    cases prepared with | ok departing =>
    have answered := h.lockstep_send x b₁.left mid₁ mid₂ departing
    rw [hs] at answered
    cases hs₂ : send d₂ x b₁.left mid₂ with
    | error => rw [hs₂] at answered; cases answered
    | ok r₂ mid₂' =>
      rw [hs₂] at answered
      cases answered with | ok both =>
      obtain ⟨rfl, departing⟩ := both
      have concluded := h.lockstep_conclude a₁.number r mid₁' mid₂' departing
      rw [hc] at concluded
      cases hc₂ : conclude d₂ deadline a₁.number r mid₂' with
      | error => rw [hc₂] at concluded; cases concluded
      | ok answer mid =>
        rw [hc₂] at concluded
        cases concluded with | ok both =>
        obtain ⟨rfl, hS⟩ := both
        exact ⟨mid, ⟨x, d₂, mid₂, r, mid₂', hleft, hn, hp₂, hs₂, hc₂⟩, hS⟩

end Abreast

/-! ## One call after another -/

/-- A call of an executor, after some time in which nothing is done. -/
structure Call where
  build : Build
  deadline : Instant
  idle : Duration := .zero

def Call.run (s : Signer) (c : Call) : Run (Except Error Response) := do
  advance c.idle
  (execute s c.build c.deadline).tried

/-- Makes one call after another, and gives the result of each. -/
def executeAll (s : Signer) : List Call → Run (List (Except Error Response))
  | [] => pure []
  | c :: cs => do
    let result ← c.run s
    let results ← executeAll s cs
    pure (result :: results)

theorem executeAll_append (s : Signer) (cs cs' : List Call) :
    executeAll s (cs ++ cs') = executeAll s cs >>= fun results =>
      executeAll s cs' >>= fun results' => pure (results ++ results') := by
  induction cs with
  | nil => simp [executeAll]
  | cons c cs ih => simp [executeAll, ih]

section Calls

variable {L : Likeness} {G : Guise} {S : Environment → Environment → Prop}
  {R : String → Environment → Environment → Prop} {s₁ s₂ : Signer}

/-- Two results that are the same, but for an address if they are errors. -/
abbrev Results (G : Guise) : Except Error Response → Except Error Response → Prop :=
  Concur (Error.Akin G.address) Eq

theorem lockstep_tried {x y : Run Response} (h : Lockstep S x y (Both Eq S) (Fails G S)) :
    Lockstep S x.tried y.tried (Both (Results G) S) (Fails G S) := by
  intro env₁ env₂ hS
  have both := h env₁ env₂ hS
  unfold tried
  generalize x env₁ = r₁ at both ⊢
  generalize y env₂ = r₂ at both ⊢
  cases both with
  | ok hT => exact .ok ⟨.ok hT.1, hT.2⟩
  | error hF =>
    obtain ⟨stop, hS⟩ := hF
    cases stop with
    | failed akin => exact .ok ⟨.error akin, hS⟩
    | overflow => exact .error ⟨.overflow, hS⟩

theorem Call.lockstep_run (h : ∀ deadline, Abreast L G deadline S R)
    (moved : ∀ {env₁ env₂ d clock}, env₁.clock.advance? d = some clock → S env₁ env₂ →
      S { env₁ with clock } { env₂ with clock })
    (clock : ∀ {env₁ env₂}, S env₁ env₂ → env₁.clock = env₂.clock)
    (signers : s₁.Akin L s₂) (signs : Signer.Signs L s₁.scheme G.Fits) (c : Call) :
    Lockstep S (c.run s₁) (c.run s₂) (Both (Results G) S) (Fails G S) :=
  (lockstep_advance (fun _ _ => clock) (fun _ _ _ => moved) fun _ _ hS => ⟨.overflow, hS⟩).bind
    fun _ _ => lockstep_tried ((h c.deadline).execute signers signs c.build)

theorem lockstep_executeAll (h : ∀ c : Call, Lockstep S (c.run s₁) (c.run s₂) (Both (Results G) S)
      (Fails G S)) (cs : List Call) :
    Lockstep S (executeAll s₁ cs) (executeAll s₂ cs) (Both (List.Forall₂ (Results G)) S)
      (Fails G S) := by
  induction cs with
  | nil => exact lockstep_pure fun _ _ hS => ⟨.nil, hS⟩
  | cons c cs ih =>
    refine (h c).bind ?_
    rintro r₁ r₂ env₁ env₂ ⟨first, hS⟩
    refine (ih.bind ?_) env₁ env₂ hS
    rintro rs₁ rs₂ env₁ env₂ ⟨rest, hS⟩
    exact .ok ⟨.cons first rest, hS⟩

end Calls

end Executor
end SignedHttp

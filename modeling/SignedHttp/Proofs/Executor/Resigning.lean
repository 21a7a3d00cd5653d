import SignedHttp.Proofs.Executor.Progress
import SignedHttp.Proofs.Signing.Received

/-!
# SignedHttp.Proofs.Executor.Resigning

Every attempt of a run with a shared key is built and signed anew (`execute_resigns`). When a
request is sent, requests have been built for this attempt and those before it, and for no other.
What is sent is what was built for this attempt, but for the date, the proof and the type of the
body (`SharedKey.SignedAs`). The date is that of one instant, by which every pause that was
announced is over, and the proof is the signature of the text that the built request has with that
date.
-/

namespace SignedHttp

open Header

namespace SharedKey

/-- A message is a built request as the key of an account has signed it at an instant. -/
structure SignedAs (v : Variant) (account : String) (key : Bytes) (r : Request)
    (signedAt : Instant) (m : Message) : Prop where
  method : m.method = r.method
  address : r.address = .ok m.address
  body : m.body = (r.body.map (·.content)).getD []
  timeout : m.timeout = r.timeout
  date : m.headers.values Header.date = [HttpDate.value signedAt]
  authorization : ∃ text value, canonical (Scheme.stamped r signedAt) v account = .ok text ∧
    m.headers.values Header.authorization = [value] ∧
    value.bytes = Utf8.encode (authorizationText v account (signature key text)).toList
  /-- The type of the body is filled in if there is one and no header gives it. -/
  type : (bodyType? r = none ∧ m.headers.values contentType = r.headers.values contentType) ∨
    ∃ type value, bodyType? r = some type ∧ Value.ofText? type = some value ∧
      m.headers.values contentType = [value]
  others : ∀ name, name ≠ Header.date → name ≠ Header.authorization → name ≠ contentType →
    m.headers.values name = r.headers.values name

variable {s : Scheme} {v : Variant} {now : Instant} {r r₁ : Request} {m : Message}

/-- A scheme with a shared key takes no other credential. -/
theorem exists_key_of_sign {c : Option Credential} (hscheme : s.variant? = some v)
    (h : s.sign now c r = ⟨.ok (), r₁⟩) : ∃ account key, c = some (.sharedKey account key) := by
  unfold Scheme.sign at h
  rw [hscheme] at h
  cases c with
  | none => cases h
  | some credential =>
    cases credential with
    | sharedKey account key => exact ⟨account, key, rfl⟩
    | sasToken token expiresAt => cases h
    | bearerToken token expiresAt scope claims => cases h

theorem signedAs_of_sign {account : String} {key : Bytes} (hscheme : s.variant? = some v)
    (hsign : s.sign now (some (.sharedKey account key)) r = ⟨.ok (), r₁⟩)
    (hm : r₁.message = .ok m) : SignedAs v account key r now m := by
  obtain ⟨text, proof, htext, hproof, hr⟩ := Scheme.sign_eq_ok hscheme hsign
  obtain ⟨haddress, hsent, hmethod, hbody, htimeout⟩ := Request.message_eq_ok hm
  have type : bodyType? r₁ = bodyType? r := by
    rw [hr]
    refine bodyType?_of_first? ?_ rfl
    rw [Headers.first?_set_of_ne _ _ (by decide)]
    exact Headers.first?_set_of_ne _ _ (by decide)
  have date : r₁.headers.values Header.date = [HttpDate.value now] := by
    rw [hr, Headers.values_set_of_ne _ _ (by decide)]
    exact Headers.values_set_self _ _ _
  have carried : r₁.headers.values Header.authorization = [proof] := by
    rw [hr]
    exact Headers.values_set_self _ _ _
  have others (name : Name) (hdate : name ≠ Header.date) (hproof : name ≠ Header.authorization) :
      r₁.headers.values name = r.headers.values name := by
    rw [hr, Headers.values_set_of_ne _ _ hproof]
    exact Headers.values_set_of_ne _ _ hdate
  have same (name : Name) (hname : name ≠ contentType) :
      m.headers.values name = r₁.headers.values name := by
    rcases Request.sentHeaders_cases hsent with ⟨-, hheaders⟩ | ⟨_, value, -, -, hheaders⟩
    · rw [hheaders]
    · rw [hheaders, Headers.values_set_of_ne _ _ hname]
  refine ⟨?_, ?_, ?_, ?_, ?_, ⟨text, proof, htext, ?_, hproof⟩, ?_, ?_⟩
  · rw [hmethod, hr]
    rfl
  · rw [← haddress, hr]
    rfl
  · rw [hbody, hr]
    rfl
  · rw [htimeout, hr]
    rfl
  · rw [same _ (by decide), date]
  · rw [same _ (by decide), carried]
  · rcases Request.sentHeaders_cases hsent with
      ⟨hnone, hheaders⟩ | ⟨filled, value, htype, made, hheaders⟩
    · refine .inl ⟨type ▸ hnone, ?_⟩
      rw [hheaders, others _ (by decide) (by decide)]
    · refine .inr ⟨filled, value, type ▸ htype, made, ?_⟩
      rw [hheaders]
      exact Headers.values_set_self _ _ _
  · intro name hdate hproof htype
    rw [same name htype, others name hdate hproof]

end SharedKey

namespace Executor

open Run

/-- Every request of a run with a shared key is the one that was built for its attempt, signed after
the pause before it. -/
theorem execute_resigns (s : Signer) (build : Build) (deadline : Instant) (env : Environment)
    {v : SharedKey.Variant} (hscheme : s.scheme.variant? = some v)
    (hnow : env.clock.now.isLeap = false)
    (hpaused : Event.NoLeap ((execute s build deadline).events env))
    {pre post : List Event} {key : String} {m : Message} {t : Instant}
    (h : (execute s build deadline).events env = pre ++ .sent key m t :: post) :
    ∃ r account secret signedAt,
      Event.builds pre = List.range' 1 (Event.sends pre + 1) ∧
      build (Event.sends pre + 1) = .ok r ∧
      SharedKey.SignedAs v account secret r signedAt m ∧
      (∃ before delay line,
        pre = before ++ .signed (some (.sharedKey account secret)) :: (delay ++ [.logged line]) ∧
        signedAt = Event.present env.clock.now before ∧
        Signer.Supplied (some (.sharedKey account secret)) before signedAt ∧
        Delay signedAt delay t) ∧
      (Event.replies pre).length = Event.sends pre ∧
      (∀ reply t', .returned reply t' ∈ pre → ∃ r' resumeAt, reply = .ok r' ∧
        resume? r' t' = some resumeAt ∧ resumeAt ≤ signedAt) ∧
      signedAt ≤ t := by
  obtain ⟨r, before, c, delay, line, hbuild, -, hbuilds, hreplies, hpre, dispatch, announced⟩ :=
    dispatch_of_sent h
  obtain ⟨r₁, hsign, hm⟩ := dispatch.carries
  obtain ⟨account, secret, rfl⟩ := SharedKey.exists_key_of_sign hscheme hsign
  have noLeap : Event.NoLeap pre := by
    rw [h] at hpaused
    exact fun e he => hpaused e (List.mem_append_left _ he)
  exact ⟨r, account, secret, _, hbuilds, hbuild, SharedKey.signedAs_of_sign hscheme hsign hm,
    ⟨before, delay, line, hpre, rfl, dispatch.supplied, dispatch.delay⟩, hreplies,
    announced hnow noLeap, dispatch.delay.le⟩

/-- A signer with the key of the account. -/
def keyHolder : Signer where
  scheme := .sharedKey
  provider := .fixed (.sharedKey "account" uploadKey)

/-- The second request of a run with two pauses is signed after both of them. -/
theorem twicePaused_resigns :
    ∃ pre key m t post r account secret signedAt,
      (execute keyHolder (fun _ => .ok bare) (.atSecond 15)).events twicePaused =
        pre ++ .sent key m t :: post ∧
      Event.sends pre = 1 ∧ Event.builds pre = [1, 2] ∧
      SharedKey.SignedAs .full account secret r signedAt m ∧
      (∀ reply t', .returned reply t' ∈ pre → ∃ r' resumeAt, reply = .ok r' ∧
        resume? r' t' = some resumeAt ∧ resumeAt ≤ signedAt) ∧
      signedAt ≤ t := by
  have run : Event.sends ((execute keyHolder (fun _ => .ok bare) (.atSecond 15)).events
        twicePaused) = 2 ∧
      Event.NoLeap ((execute keyHolder (fun _ => .ok bare) (.atSecond 15)).events twicePaused) := by
    decide +kernel
  obtain ⟨pre, key, m, t, post, hes, hpre⟩ :=
    Event.exists_sent (n := 1) (by rw [run.1]; decide)
  obtain ⟨r, account, secret, signedAt, builds, -, signed, -, -, announced, early⟩ :=
    execute_resigns keyHolder (fun _ => .ok bare) (.atSecond 15) twicePaused
      (by rfl : Scheme.sharedKey.variant? = some .full) rfl run.2 hes
  refine ⟨pre, key, m, t, post, r, account, secret, signedAt, hes, hpre, ?_, signed, announced,
    early⟩
  rw [builds, hpre]
  rfl

end Executor
end SignedHttp

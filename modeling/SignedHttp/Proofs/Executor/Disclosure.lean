import SignedHttp.Proofs.Executor.Frame
import SignedHttp.Proofs.Executor.Twins
import SignedHttp.Proofs.Redact
import SignedHttp.Proofs.Request.Built
import SignedHttp.Proofs.Request.Sig

/-!
# SignedHttp.Proofs.Executor.Disclosure

What a query token shows of itself. If two sessions differ in nothing but the values of `sig` in
their tokens, and these are equally long and do not change the ends of the token, then both have the
same results, log the same and send the same at the same instants, but for the value of `sig` in the
address of a request (`executeAll_sameButSig`). There it does show, though a token is redacted
wherever it is shown by itself: the log names the address of every request that is sent
(`execute_shown`), and the errors that name a request name its address (`turnedAway_showsSig`).

The ends of a token are all that redaction leaves of it (`Redact.chars_eq`), and the value has no
say in when the token expires (`Credential.expiryText?_text`), so nothing but an address can tell
the tokens apart.
-/

namespace SignedHttp

/-! ## Tokens that differ in the value -/

namespace Credential

/-- Tokens that are the same but for the value of `sig`, and have the same characters at their
ends. -/
inductive SameToken : String → String → Prop
  | same (t : String) : SameToken t t
  | apart (f : SigFrame) (p : SigPair) : f.IsToken →
      (f.text p.one).take 3 = (f.text p.other).take 3 →
      (f.text p.one).reverse.take 3 = (f.text p.other).reverse.take 3 →
      SameToken (String.ofList (f.text p.one)) (String.ofList (f.text p.other))

/-- The fields that the pieces of a form are. -/
def pieceFields (pieces : List (List Char)) : List (List Char × List Char) :=
  (pieces.filter fun piece => !piece.isEmpty).map fun piece =>
    match Text.cut? '=' piece with
    | some (name, value) => (Percent.decodeForm name, Percent.decodeForm value)
    | none => (Percent.decodeForm piece, [])

theorem formFields_eq (s : List Char) : formFields s = pieceFields (s.splitOn '&') := rfl

theorem pieceFields_append_cons (front back : List (List Char)) {name : List Char}
    (h : '=' ∉ name) (v : List Char) :
    pieceFields (front ++ (name ++ '=' :: v) :: back) = pieceFields front ++
      (Percent.decodeForm name, Percent.decodeForm v) :: pieceFields back := by
  simp [pieceFields, Text.cut?_append h]

/-- When a token says that it expires does not depend on the value. -/
theorem expiryText?_text {f : SigFrame} (h : f.IsToken) :
    ∃ expiry, ∀ v, SigValue v → expiryText? (String.ofList (f.text v)) = expiry := by
  obtain ⟨mark, front, back, hmark, pieces⟩ := Query.splitOn_text h
  have noEquals : '=' ∉ mark ++ "sig".toList := by
    obtain rfl | ⟨-, rfl⟩ := hmark <;> decide
  have other : (['s', 'e'] == Percent.decodeForm (mark ++ "sig".toList)) = false := by
    obtain rfl | ⟨-, rfl⟩ := hmark <;> decide +kernel
  refine ⟨((pieceFields front ++ pieceFields back).lookup ['s', 'e']).map String.ofList,
    fun v hv => ?_⟩
  have plain : '&' ∉ v := fun hmem => (hv '&' hmem).2 rfl
  have piece : mark ++ ("sig=".toList ++ v) = mark ++ "sig".toList ++ '=' :: v := by simp
  rw [expiryText?, String.toList_ofList, formFields_eq, pieces v plain, piece,
    pieceFields_append_cons _ _ noEquals, List.lookup_append, List.lookup_cons, other,
    ← List.lookup_append]

theorem SameToken.expiryText? {s t : String} (h : SameToken s t) :
    expiryText? s = expiryText? t := by
  cases h with
  | same => rfl
  | apart f p token _ _ =>
    obtain ⟨expiry, same⟩ := expiryText?_text token
    rw [same _ p.value_one, same _ p.value_other]

theorem SameToken.text {s t : String} (h : SameToken s t) : Redact.text s = Redact.text t := by
  cases h with
  | same => rfl
  | apart f p _ start finish =>
    simp only [Redact.text, String.toList_ofList, Redact.chars_eq (by rw [f.size_text p]) start finish]

theorem SameToken.isEmpty {s t : String} (h : SameToken s t) : s.isEmpty = t.isEmpty := by
  cases h with
  | same => rfl
  | apart f p _ _ _ =>
    have filled (v : List Char) : (String.ofList (f.text v)).isEmpty = false := by
      simp [SigFrame.text]
    rw [filled, filled]

/-- The same credential, or tokens that are the same but for the value of `sig`. -/
inductive SameButSig : Credential → Credential → Prop
  | same (c : Credential) : SameButSig c c
  | sasToken {s t : String} (expiresAt : Option Instant) : SameToken s t →
      SameButSig (.sasToken s expiresAt) (.sasToken t expiresAt)

end Credential

/-- The values of `sig` in tokens may differ. -/
def Likeness.tokens : Likeness where
  credential := Credential.SameButSig
  key := Eq
  token s t := Credential.SameToken (Credential.tokenOf s) (Credential.tokenOf t)
  refl := .same
  refl_key _ := rfl
  refl_token _ := .same _
  text h := by
    cases h with
    | same => rfl
    | sasToken expiresAt h => rw [Credential.text, Credential.text, h.text]
  isValid h now := by
    cases h with
    | same => rfl
    | sasToken expiresAt h =>
      simp only [Credential.isValid, Credential.isFilled, h.isEmpty]
      rfl
  ofSharedKey h account := by
    rw [h]
    exact Concur.refl (fun _ => rfl) .same _
  ofSasToken h := by
    unfold Credential.ofSasToken
    dsimp only
    rw [h.expiryText?]
    exact .sasToken _ h
  sasTokenLog h := by rw [Credential.sasTokenLog, Credential.sasTokenLog, h.expiryText?]

/-! ## Requests with such tokens -/

/-- Two messages that are the same but for the value of `sig` in the address. -/
structure Message.SameButSig (m₁ m₂ : Message) : Prop where
  method : m₁.method = m₂.method
  address : m₁.address.SameButSig m₂.address
  headers : m₁.headers = m₂.headers
  body : m₁.body = m₂.body
  timeout : m₁.timeout = m₂.timeout

/-- Nothing differs but the value of `sig` in addresses. -/
def Guise.sig : Guise where
  address u₁ u₂ := SameButSig u₁.toList u₂.toList
  message := Message.SameButSig
  refl _ := .same _
  uri h := h.address.text

theorem Guise.fits_sig (r : Request) {s t : String} (h : Credential.SameToken s t) :
    Guise.sig.Fits (r.appendRawQuery s) (r.appendRawQuery t) := by
  have address : Concur Eq Uri.SameButSig (r.appendRawQuery s).address
      (r.appendRawQuery t).address := by
    cases h with
    | same => exact Concur.refl (fun _ => rfl) .refl _
    | apart f p token _ _ =>
      exact r.address_appendRawQuery token p String.toList_ofList String.toList_ofList
  have headers : Concur Eq Eq (r.appendRawQuery s).sentHeaders (r.appendRawQuery t).sentHeaders :=
    Concur.refl (fun _ => rfl) (fun _ => rfl) r.sentHeaders
  refine ⟨rfl, address.map fun _ _ h => h.text, address.bind fun _ _ haddress =>
    headers.bind fun _ _ hheaders => ?_⟩
  exact .ok ⟨rfl, haddress, hheaders, rfl, rfl⟩

namespace Executor

open Run

variable {s₁ s₂ : Signer}

/-- Tokens that are the same but for the value sign requests that are the same but for it. -/
theorem signs_tokens : Signer.Signs .tokens .sas Guise.sig.Fits where
  log h now r := by
    cases h with
    | none => rfl
    | some h => cases h <;> rfl
  result h now r := by
    cases h with
    | none => rfl
    | some h => cases h <;> rfl
  request h now r signed := by
    cases h with
    | none => cases signed
    | @some c _ h =>
      cases h with
      | sasToken expiresAt h => exact Guise.fits_sig r h
      | same =>
        cases c with
        | sasToken token expiresAt => exact Guise.fits_sig r (.same token)
        | sharedKey | bearerToken => cases signed

/-- Two sessions that differ in nothing but the value of `sig` in tokens have the same results, log
the same lines and send at the same instants the same requests, but for the value of `sig` in an
address that a line, an error or a request has. -/
theorem executeAll_sameButSig (signers : s₁.Akin .tokens s₂) {env₁ env₂ : Environment}
    (environments : env₁.Akin .tokens env₂) (hscheme : s₁.scheme = .sas) (cs : List Call) :
    Concur (Stop.Akin Guise.sig.address) (List.Forall₂ (Results .sig))
      ((executeAll s₁ cs).outcome env₁) ((executeAll s₂ cs).outcome env₂) ∧
    List.Forall₂ (Log.Line.Akin Guise.sig.address)
      (Event.lines ((executeAll s₁ cs).events env₁))
      (Event.lines ((executeAll s₂ cs).events env₂)) ∧
    List.Forall₂ (fun s t => s.key = t.key ∧ s.time = t.time ∧ s.message.SameButSig t.message)
      (Event.sendings ((executeAll s₁ cs).events env₁))
      (Event.sendings ((executeAll s₂ cs).events env₂)) ∧
    ((executeAll s₁ cs).leaves env₁).Akin .tokens ((executeAll s₂ cs).leaves env₂) := by
  have alongside (deadline : Instant) : Abreast .tokens .sig deadline (Twins _ _ env₁ env₂)
      fun _ => Twins _ _ env₁ env₂ := abreast_twins deadline
  have signs : Signer.Signs .tokens s₁.scheme Guise.sig.Fits := hscheme ▸ signs_tokens
  have calls (c : Call) := c.lockstep_run alongside (fun _ h => twins_advanced h _)
    (fun h => h.akin.clock) signers signs
  exact ends_of_twins (lockstep_executeAll calls cs) environments

/-- What stands around the value in some token. -/
def granting : SigFrame where
  before := "sv=2024-05-04&".toList
  after := "&sp=r".toList
  opens := .inr ⟨"sv=2024-05-04".toList, .inr rfl⟩
  closes := .inr ⟨"sp=r".toList, rfl⟩

def abcAndXyz : SigPair where
  one := "abc".toList
  other := "xyz".toList
  value_one := .of_all (by decide)
  value_other := .of_all (by decide)
  size := by decide

/-- A signer that has nothing but a token. -/
def granted (v : List Char) : Signer where
  provider := .fixed (.sasToken (String.ofList (granting.text v)) none)
  scheme := .sas

theorem granted_akin : (granted abcAndXyz.one).Akin .tokens (granted abcAndXyz.other) := by
  have token : granting.IsToken := .inr (.inr ⟨"sv=2024-05-04".toList, rfl⟩)
  exact ⟨.nil, .fixed (.sasToken none (.apart granting abcAndXyz token rfl rfl)), rfl⟩

/-- The server says to come back, but not when. -/
def turnedAway : Environment where
  clock := { now := .atSecond 0 }
  transport := some [{ reply := .ok ⟨.tooManyRequests, {}, []⟩ }]

/-- A call that nobody waits for long. -/
def hasty : Call where
  build _ := .ok bare
  deadline := .atSecond 60

theorem turnedAway_sameButSig :
    (Event.sendings ((executeAll (granted "abc".toList) [hasty]).events turnedAway)).length = 1 ∧
    List.Forall₂ (Log.Line.Akin Guise.sig.address)
      (Event.lines ((executeAll (granted "abc".toList) [hasty]).events turnedAway))
      (Event.lines ((executeAll (granted "xyz".toList) [hasty]).events turnedAway)) :=
  ⟨by decide +kernel, (executeAll_sameButSig granted_akin (.refl turnedAway) rfl [hasty]).2.1⟩

/-- The value shows in the log, and in the text and the address of an error. -/
theorem turnedAway_showsSig :
    (granted "abc".toList).Akin .tokens (granted "xyz".toList) ∧
    (granted "abc".toList).scheme = .sas ∧
    Event.lines ((executeAll (granted "abc".toList) [hasty]).events turnedAway) ≠
      Event.lines ((executeAll (granted "xyz".toList) [hasty]).events turnedAway) ∧
    ∃ e₁ e₂, (executeAll (granted "abc".toList) [hasty]).outcome turnedAway = .ok [.error e₁] ∧
      (executeAll (granted "xyz".toList) [hasty]).outcome turnedAway = .ok [.error e₂] ∧
      e₁.message ≠ e₂.message ∧ e₁.uri ≠ e₂.uri := by
  let address (v : String) := "https://host/?sv=2024-05-04&sig=" ++ v ++ "&sp=r"
  let refusal (v : String) : Error := ⟨.pausedWithoutEnd (address v), some (address v), none, none⟩
  refine ⟨granted_akin, rfl, by decide +kernel, refusal "abc", refusal "xyz", ?_, ?_, ?_, ?_⟩
  · decide +kernel
  · decide +kernel
  · decide +kernel
  · decide +kernel

/-! ## What shows -/

/-- The address of a message stands in a line. -/
def Shows (line : Log.Line) (m : Message) : Prop := m.uri.toList <:+: line.text.toList

/-- The address of every message that has been sent stands in some line. -/
def Shown (es : List Event) : Prop :=
  ∀ key m t, .sent key m t ∈ es → ∃ line, .logged line ∈ es ∧ Shows line m

theorem Shown.append {es : List Event} {e : Event} (h : Shown es)
    (sent : ∀ key m t, e = .sent key m t → ∃ line, .logged line ∈ es ∧ Shows line m) :
    Shown (es ++ [e]) := by
  intro key m t hmem
  have before : ∃ line, .logged line ∈ es ∧ Shows line m := by
    rcases List.mem_append.1 hmem with hmem | hmem
    · exact h key m t hmem
    · exact sent key m t (List.mem_singleton.1 hmem).symm
  obtain ⟨line, logged, showing⟩ := before
  exact ⟨line, List.mem_append_left _ logged, showing⟩

theorem uri_of_message {r : Request} {m : Message} (h : r.message = .ok m) :
    r.uri = .ok m.uri := by
  rw [Request.uri, (Request.message_eq_ok h).1]
  rfl

/-- A message is made after its address has been written down. -/
theorem load_shows {n : Nat} {r : Request} {m : Message} {env env' : Environment}
    (h : load n r env = .ok m env') : ∃ line, env' = env.noted (.logged line) ∧ Shows line m := by
  obtain ⟨uri, env₁, huri, h⟩ := bind_eq_ok h
  obtain ⟨⟨⟩, env₂, hlog, hmessage⟩ := bind_eq_ok h
  obtain ⟨address, rfl⟩ := lift_eq_ok huri
  obtain ⟨hm, rfl⟩ := lift_eq_ok hmessage
  cases hlog
  cases (uri_of_message hm).symm.trans address
  refine ⟨_, rfl, ?_⟩
  unfold Shows Log.debug
  rw [String.toList_append]
  exact (List.suffix_append _ _).isInfix

theorem keptAside_shown (start : Environment) : KeptAside (Since start Shown) where
  note {env e} aside h := h.noted fun es hes => hes.append fun key m t he => by
    rw [he] at aside
    cases aside
  clock _ h := h
  throttles _ h := h

theorem stable_shown (start : Environment) : Stable (Since start Shown) where
  note {env e} _ routine h := h.noted fun es hes => hes.append fun key m t he => by
    rw [he] at routine
    cases routine
  sleep _ _ h := h.woken fun es hes => hes.append fun key m t he => by cases he
  cache _ h := h
  supplies _ h := h
  limiter _ h := h

/-- The address of a message that is ready to be sent has been written down. -/
def Announced (start : Environment) (d : Departure) : Environment → Prop :=
  Since start fun es => Shown es ∧ ∃ line, .logged line ∈ es ∧ Shows line d.message

theorem leads_prepare_announced (start : Environment) (s : Signer) (build : Build)
    (deadline : Instant) (n : Nat) : Leads (Since start Shown) (prepare s build deadline n) (Announced start)
      (Since start Shown) := by
  have aside := keptAside_shown start
  have stable := stable_shown start
  refine leads_prepare_of n (fun _ hP => aside.note rfl hP) aside.heed fun r =>
    leads_dispatch (Signer.keeps_sign stable.signing s r) (keeps_acquire stable) fun signed => ?_
  intro env hP
  cases hl : load n signed env with
  | error e env' =>
    exact (keeps_load (fun _ _ => aside.note rfl) n signed).error hP hl
  | ok m env' =>
    obtain ⟨line, rfl, showing⟩ := load_shows hl
    exact hP.noted fun es hes =>
      ⟨hes.append fun key m t he => (by cases he), line, by simp, showing⟩

/-- Of every request that is sent the log shows the address, whatever is in it. -/
theorem execute_shown (s : Signer) (build : Build) (deadline : Instant) (env : Environment) :
    Shown ((execute s build deadline).events env) := by
  have kept : Keeps (Since env Shown) (execute s build deadline) := by
    refine keeps_execute (leads_prepare_announced env s build deadline) (fun d x left => ?_)
      (fun d mid h => ?_) (keptAside_shown env).conclude
    · refine (keptAside_shown env).send (fun left mid h => ?_) x left
      obtain ⟨es, htrace, shown, announced⟩ := h
      refine ⟨es ++ [.sent d.key d.message mid.clock.now], ?_, shown.append fun key m t he => ?_⟩
      · rw [departed_trace, htrace, List.append_assoc]
      · cases he
        exact announced
    · obtain ⟨es, htrace, shown, -⟩ := h
      exact ⟨es, htrace, shown⟩
  have nothing : Since env Shown env := ⟨[], by simp, fun _ _ _ h => by cases h⟩
  obtain ⟨es, htrace, shown⟩ := Leads.leaves kept nothing
  rwa [events_eq htrace]

end Executor
end SignedHttp

import SignedHttp.Proofs.Signing.Content
import SignedHttp.Proofs.Signing.Signature

/-!
# SignedHttp.Proofs.Signing.Endorsement

What signing with a shared key makes of a request (`sign_endorses`): it gets one date and one proof
of identity, which is right for the request as it then is, and nothing else about it changes. Where
signing fails, nothing but the date has changed.

The text is made up before the proof of identity is there, and is the same afterwards, because it
does not depend on that header (`canonical_of_values`). So signing again changes nothing.
-/

namespace SignedHttp

open Header

/-- Two headers that are set one after the other can be set again. -/
theorem Headers.set_again (h : Headers) {name other : Name} (value value' : Value)
    (ne : other ≠ name) :
    (((h.set name value).set other value').set name value).set other value' =
      (h.set name value).set other value' := by
  have same : (h.fields.filter fun f => decide (f.1 ≠ other) && (decide (f.1 ≠ name) &&
      (decide (f.1 ≠ other) && decide (f.1 ≠ name)))) =
      h.fields.filter fun f => decide (f.1 ≠ other) && decide (f.1 ≠ name) := by
    refine List.filter_congr fun field _ => ?_
    cases decide (field.1 ≠ other) <;> cases decide (field.1 ≠ name) <;> rfl
  simpa [set, List.filter_filter, ne, ne.symm] using same

/-- Requests that differ in nothing but headers of some names. -/
structure Request.SameUpTo (names : List Name) (r r' : Request) : Prop where
  headers : ∀ name, name ∉ names → r'.headers.values name = r.headers.values name
  rest : r' = { r with headers := r'.headers }

namespace SharedKey

variable {v : Variant} {r : Request}

theorem ne_authorization {name : Name} (h : name ∈ v.signedHeaders ∨ isNamed name = true) :
    name ≠ authorization := by
  rintro rfl
  cases v <;> revert h <;> decide

/-- A proof of identity is no part of what it proves. -/
theorem canonical_of_values (v : Variant) (account : String) (r : Request) {headers : Headers}
    (h : ∀ name, name ≠ authorization → headers.values name = r.headers.values name) :
    canonical { r with headers } v account = canonical r v account := by
  have same : SameContent v r { r with headers } :=
    sameContent_of_headers fun name hname => h name (ne_authorization hname)
  exact (same.canonical account).symm

/-- A request that the key of an account has signed at some time: its date is that time, its proof of
identity is sensitive and holds the signature of its canonical text as it now is, and apart from
these two headers it is the request that was to be signed. -/
structure Endorsed (v : Variant) (account : String) (key : Bytes) (now : Instant)
    (r r' : Request) : Prop where
  date : r'.headers.values date = [HttpDate.value now]
  proof : ∃ text proof, canonical r' v account = .ok text ∧
    r'.headers.values authorization = [proof] ∧ proof.sensitive = true ∧
    proof.bytes = Utf8.encode (v.word ++ " " ++ account ++ ":" ++
      Base64.encodeText (Hmac.sha256 key (Utf8.encode text.toList))).toList
  others : r.SameUpTo [Header.date, authorization] r'

end SharedKey

namespace Scheme

open SharedKey

theorem stamped_sameUpTo (r : Request) (now : Instant) : r.SameUpTo [date] (stamped r now) := by
  refine ⟨fun name hname => ?_, rfl⟩
  exact Headers.values_set_of_ne _ _ (by simpa using hname)

/-- The request with the time of signing and a proof of identity. -/
def endorsed (r : Request) (now : Instant) (proof : Value) : Request :=
  { stamped r now with headers := (stamped r now).headers.set authorization proof }

theorem endorsed_sameUpTo (r : Request) (now : Instant) (proof : Value) :
    r.SameUpTo [date, authorization] (endorsed r now proof) := by
  refine ⟨fun name hname => ?_, rfl⟩
  obtain ⟨hdate, hproof⟩ : name ≠ Header.date ∧ name ≠ authorization := by simpa using hname
  exact (Headers.values_set_of_ne _ _ hproof).trans (Headers.values_set_of_ne _ _ hdate)

theorem canonical_endorsed (v : Variant) (account : String) (r : Request) (now : Instant)
    (proof : Value) : canonical (endorsed r now proof) v account =
      canonical (stamped r now) v account :=
  canonical_of_values v account (stamped r now) fun _ hname => Headers.values_set_of_ne _ _ hname

/-- The same time once more makes no difference for the text. -/
theorem canonical_restamped (v : Variant) (account : String) (r : Request) (now : Instant)
    (proof : Value) : canonical (stamped (endorsed r now proof) now) v account =
      canonical (stamped r now) v account := by
  refine canonical_of_values v account (stamped r now) fun name hname => ?_
  by_cases hdate : name = Header.date
  · rw [hdate]
    exact (Headers.values_set_self _ _ _).trans (Headers.values_set_self _ _ _).symm
  · exact (Headers.values_set_of_ne _ _ hdate).trans (Headers.values_set_of_ne _ _ hname)

theorem endorsed_endorsed (r : Request) (now : Instant) (proof : Value) :
    endorsed (endorsed r now proof) now proof = endorsed r now proof := by
  have again := r.headers.set_again (HttpDate.value now) proof
    (by decide : authorization ≠ Header.date)
  simp only [endorsed, stamped, again]

/-- An endorsed request is endorsed again with the same proof of identity. -/
theorem sign_again {s : Scheme} {v : Variant} (hscheme : s.variant? = some v) {now : Instant}
    {account text : String} {key : Bytes} {r : Request} {proof : Value}
    (htext : canonical (stamped r now) v account = .ok text)
    (hproof : proof.bytes = Utf8.encode (authorizationText v account (signature key text)).toList)
    (secret : proof.sensitive = true) :
    s.sign now (some (.sharedKey account key)) (endorsed r now proof) =
      ⟨.ok (), endorsed r now proof⟩ := by
  have retext := (canonical_restamped v account r now proof).trans htext
  obtain ⟨e, -, unsent⟩ | ⟨text', proof', htext', hproof', secret', signed⟩ :=
    sign_cases hscheme now account key (endorsed r now proof)
  · have legal := proof.legal
    rw [hproof, all_encode, unsent text retext] at legal
    cases legal
  · cases retext.symm.trans htext'
    have same : proof' = proof := by
      cases proof
      cases proof'
      simp_all
    rw [signed, same]
    exact congrArg (Signing.mk (.ok ())) (endorsed_endorsed r now proof)

/-- Whether a signature can be sent depends on the account alone. -/
theorem isOk_sign {s : Scheme} {v : Variant} (hscheme : s.variant? = some v) (now : Instant)
    (account : String) (key : Bytes) (r : Request) :
    (s.sign now (some (.sharedKey account key)) r).result.isOk = true ↔
      (canonical (stamped r now) v account).isOk = true ∧
        (v.word ++ " " ++ account ++ ":").toList.all isValueChar = true := by
  obtain ⟨e, failed, unsent⟩ | ⟨text, proof, htext, hproof, -, signed⟩ :=
    sign_cases hscheme now account key r
  · rw [failed]
    constructor
    · intro h
      cases h
    · rintro ⟨hc, legal⟩
      obtain ⟨text, htext⟩ := exists_of_isOk hc
      have illegal := unsent text htext
      rw [legal_authorizationText (isSignature_signature key text), legal] at illegal
      cases illegal
  · have legal := proof.legal
    rw [hproof, all_encode, legal_authorizationText (isSignature_signature key text)] at legal
    rw [signed, htext]
    exact ⟨fun _ => ⟨rfl, legal⟩, fun _ => rfl⟩

/-- What signing with a shared key does, whatever the request, the key and the time are. If it
works, the request is endorsed, and signing it again changes nothing. If it fails, nothing but the
date may have changed. It works exactly if there is a canonical text and the account can be named in
a header. -/
theorem sign_endorses {s : Scheme} {v : Variant} (hscheme : s.variant? = some v) (now : Instant)
    (account : String) (key : Bytes) (r : Request) :
    (∀ r', s.sign now (some (.sharedKey account key)) r = ⟨.ok (), r'⟩ →
      Endorsed v account key now r r' ∧
      s.sign now (some (.sharedKey account key)) r' = ⟨.ok (), r'⟩) ∧
    (∀ e r', s.sign now (some (.sharedKey account key)) r = ⟨.error e, r'⟩ →
      r.SameUpTo [date] r') ∧
    ((s.sign now (some (.sharedKey account key)) r).result.isOk = true ↔
      (canonical (stamped r now) v account).isOk = true ∧
        (v.word ++ " " ++ account ++ ":").toList.all isValueChar = true) := by
  refine ⟨fun r' h => ?_, fun e r' h => ?_, isOk_sign hscheme now account key r⟩
  · obtain ⟨e, failed, -⟩ | ⟨text, proof, htext, hproof, secret, signed⟩ :=
      sign_cases hscheme now account key r
    · rw [failed] at h
      cases h
    · rw [signed] at h
      cases h
      have still := (canonical_endorsed v account r now proof).trans htext
      refine ⟨⟨?_, ⟨text, proof, still, Headers.values_set_self _ _ _, secret, hproof⟩,
        endorsed_sameUpTo r now proof⟩, sign_again hscheme htext hproof secret⟩
      exact (Headers.values_set_of_ne _ _ (by decide)).trans (Headers.values_set_self _ _ _)
  · obtain ⟨e', failed, -⟩ | ⟨text, proof, -, -, -, signed⟩ :=
      sign_cases hscheme now account key r
    · rw [failed] at h
      cases h
      exact stamped_sameUpTo r now
    · rw [signed] at h
      cases h

/-- The upload with two dates and two proofs of identity from before. -/
def staleUpload : Request :=
  { upload "text/plain" with
    headers := ⟨[(date, .ofText "Thu, 01 Jan 1970 00:00:00 +0000" (by decide)),
      (authorization, .ofText "SharedKey account:stale" (by decide)),
      (range, .ofText "bytes=0-9" (by decide)),
      (date, .ofText "stale" (by decide)),
      (authorization, .ofText "stale" (by decide))]⟩ }

theorem staleUpload_endorsed : ∃ r',
    Scheme.sharedKey.sign (.atSecond 86400) (some (.sharedKey "account" uploadKey)) staleUpload =
      ⟨.ok (), r'⟩ ∧
    Endorsed .full "account" uploadKey (.atSecond 86400) staleUpload r' ∧
    Scheme.sharedKey.sign (.atSecond 86400) (some (.sharedKey "account" uploadKey)) r' =
      ⟨.ok (), r'⟩ := by
  have hsign := Signing.eq_of_result (x := Scheme.sharedKey.sign (.atSecond 86400)
    (some (.sharedKey "account" uploadKey)) staleUpload) (by decide +kernel)
  obtain ⟨endorsed, again⟩ := (sign_endorses (by rfl : Scheme.sharedKey.variant? = some .full)
    (.atSecond 86400) "account" uploadKey staleUpload).1 _ hsign
  exact ⟨_, hsign, endorsed, again⟩

end Scheme
end SignedHttp

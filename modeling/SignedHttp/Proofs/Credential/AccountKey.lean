import SignedHttp.Credential
import SignedHttp.Proofs.Codec.Base64

/-!
# SignedHttp.Proofs.Credential.AccountKey

The key of an account is given in base64, as `Base64.encode` writes it and in no other way. With a
name for the account, and unless the key is empty, it makes a credential, which is then valid at
every instant; nothing else does, and the reason is always one of authentication.
-/

namespace SignedHttp
namespace Credential

variable {account key : String} {bytes : Bytes} {c : Credential}

/-- A credential that can sign with a key. -/
theorem isValid_sharedKey (hname : account ≠ "") (hkey : bytes ≠ []) (now : Instant) :
    (sharedKey account bytes).isValid now = true := by
  simp [isValid, isFilled, expiresAt, precedes, hname, hkey]

/-- What is given is accepted, or there is one of three things to say against it. -/
theorem ofSharedKey_cases (account key : String) :
    (account = "" ∧ ofSharedKey account key = fails .emptyAccountName) ∨
    (account ≠ "" ∧ Base64.decode? (Text.trim key.toList) = none ∧ ofSharedKey account key =
      .error { cause := .accountKeyNotBase64 account, source := some .notBase64 }) ∨
    (account ≠ "" ∧ Base64.decode? (Text.trim key.toList) = some [] ∧
      ofSharedKey account key = fails (.emptyAccountKey account)) ∨
    ∃ bytes, account ≠ "" ∧ bytes ≠ [] ∧ Base64.decode? (Text.trim key.toList) = some bytes ∧
      ofSharedKey account key = .ok (sharedKey account bytes) := by
  by_cases hname : account = ""
  · exact .inl ⟨hname, if_pos (String.isEmpty_iff.2 hname)⟩
  have named : ¬account.isEmpty = true := fun h => hname (String.isEmpty_iff.1 h)
  unfold ofSharedKey
  rw [if_neg named]
  cases Base64.decode? (Text.trim key.toList) with
  | none => exact .inr (.inl ⟨hname, rfl, rfl⟩)
  | some bytes =>
    cases bytes with
    | nil => exact .inr (.inr (.inl ⟨hname, rfl, rfl⟩))
    | cons b rest => exact .inr (.inr (.inr ⟨b :: rest, hname, nofun, rfl, rfl⟩))

theorem ofSharedKey_eq_ok_iff : ofSharedKey account key = .ok c ↔
    account ≠ "" ∧ ∃ bytes, bytes ≠ [] ∧ Text.trim key.toList = Base64.encode bytes ∧
      c = sharedKey account bytes := by
  simp only [← Base64.decode?_eq_some_iff]
  obtain ⟨hname, hc⟩ | ⟨-, hkey, hc⟩ | ⟨-, hkey, hc⟩ | ⟨bytes, hname, filled, hkey, hc⟩ :=
    ofSharedKey_cases account key
  · rw [hc]
    exact ⟨nofun, fun ⟨named, _⟩ => absurd hname named⟩
  · rw [hc, hkey]
    exact ⟨nofun, fun ⟨_, _, _, same, _⟩ => nomatch same⟩
  · rw [hc, hkey]
    exact ⟨nofun, fun ⟨_, _, filled, same, _⟩ => absurd (Option.some.inj same).symm filled⟩
  · rw [hc, hkey]
    constructor
    · rintro ⟨⟩
      exact ⟨hname, bytes, filled, rfl, rfl⟩
    · rintro ⟨-, bytes', -, same, rfl⟩
      cases same
      rfl

theorem kind_of_ofSharedKey {e : Error} (h : ofSharedKey account key = .error e) :
    e.kind = .authentication := by
  obtain ⟨-, hc⟩ | ⟨-, -, hc⟩ | ⟨-, -, hc⟩ | ⟨bytes, -, -, -, hc⟩ := ofSharedKey_cases account key
  · cases hc.symm.trans h
    rfl
  · cases hc.symm.trans h
    rfl
  · cases hc.symm.trans h
    rfl
  · cases hc.symm.trans h

/-- The law of account keys. A name and a text make a credential exactly if there is a name and the
text, without the blanks around it, is the base64 of some bytes; it holds the name and these bytes,
and is valid at every instant. Otherwise there is an error of authentication. -/
theorem ofSharedKey_canonical (account key : String) :
    (∀ c, ofSharedKey account key = .ok c ↔ account ≠ "" ∧ ∃ bytes, bytes ≠ [] ∧
      Text.trim key.toList = Base64.encode bytes ∧ c = sharedKey account bytes) ∧
    (∀ c, ofSharedKey account key = .ok c → ∀ now, c.isValid now = true) ∧
    ∀ e, ofSharedKey account key = .error e → e.kind = .authentication := by
  refine ⟨fun c => ofSharedKey_eq_ok_iff, fun c h now => ?_, fun e h => kind_of_ofSharedKey h⟩
  obtain ⟨hname, bytes, filled, -, rfl⟩ := ofSharedKey_eq_ok_iff.1 h
  exact isValid_sharedKey hname filled now

end Credential
end SignedHttp

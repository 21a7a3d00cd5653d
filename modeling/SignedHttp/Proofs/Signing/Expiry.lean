import SignedHttp.Proofs.Request.Address
import SignedHttp.Proofs.Text.Blank
import SignedHttp.Proofs.Time.Order
import SignedHttp.Signing

/-!
# SignedHttp.Proofs.Signing.Expiry

A query token expires when the request that carries it says so (`Scheme.sign_tellsExpiry`). The
token is read twice: as a form, to see when it expires, and as a raw query, to append it to that of
a request. Both cut it into the same pieces and each piece at the same place, and they decode names
and values alike unless there is a plus sign (`Credential.formFields_eq_decoded`). The question
marks in front, of which a raw query would drop one, are gone by then
(`Credential.head?_tokenOf`).
-/

namespace SignedHttp

theorem Percent.decodeForm_eq_decode {s : List Char} (h : '+' ∉ s) : decodeForm s = decode s := by
  have same : (s.map fun c => if c = '+' then ' ' else c) = s := by
    calc (s.map fun c => if c = '+' then ' ' else c)
      _ = s.map id := List.map_congr_left fun c hc => if_neg (ne_of_mem_of_not_mem hc h)
      _ = s := List.map_id s
  rw [decodeForm, same]

theorem Percent.decode_nil : decode [] = [] := by simp [decode, bytes, Utf8.decode]

namespace Credential

variable {s : List Char} {text : String}

theorem mem_of_mem_tokenOf {c : Char} (h : c ∈ (tokenOf text).toList) : c ∈ text.toList := by
  rw [tokenOf, String.toList_ofList] at h
  exact (Text.trim_sublist _).subset ((List.dropWhile_sublist _).subset h)

theorem head?_tokenOf (text : String) : (tokenOf text).toList.head? ≠ some '?' := by
  rw [tokenOf, String.toList_ofList]
  intro h
  have stopped := List.head?_dropWhile_not (· == '?') (Text.trim text.toList)
  rw [h] at stopped
  cases stopped

/-- A name and a value as strings. -/
def strings (field : List Char × List Char) : String × String :=
  (String.ofList field.1, String.ofList field.2)

theorem lookup_map_strings (name : List Char) (fields : List (List Char × List Char)) :
    (fields.map strings).lookup (String.ofList name) = (fields.lookup name).map String.ofList := by
  induction fields with
  | nil => rfl
  | cons field fields ih =>
    obtain ⟨n, value⟩ := field
    have same : (String.ofList name == String.ofList n) = (name == n) := by
      rw [Bool.eq_iff_iff, beq_iff_eq, beq_iff_eq, String.ofList_inj]
    rw [List.map_cons, strings, List.lookup_cons, List.lookup_cons, same]
    cases name == n with
    | false => exact ih
    | true => rfl

/-- What a form says without plus signs, the query that it is says too. -/
theorem formFields_eq_decoded (noPlus : '+' ∉ s) (unmarked : s.head? ≠ some '?') :
    (formFields s).map strings = (Query.ofRaw s).decoded := by
  unfold formFields Query.ofRaw Query.decoded
  rw [Query.withoutMark_eq_self unmarked, List.map_map, List.map_map]
  refine List.map_congr_left fun piece hpiece => ?_
  have inside := Query.of_mem_splitOn (List.mem_filter.1 hpiece).1
  have plain : '+' ∉ piece := fun hc => noPlus (inside '+' hc).1
  unfold Query.ofPiece strings
  simp only [Function.comp]
  cases hcut : Text.cut? '=' piece with
  | none => simp [Text.map, Percent.decodeForm_eq_decode plain, Percent.decode_nil]
  | some parts =>
    obtain ⟨name, value⟩ := parts
    obtain ⟨rfl, -⟩ := Text.cut?_eq_some_iff.1 hcut
    simp only [List.mem_append, List.mem_cons, not_or] at plain
    simp [Text.map, Percent.decodeForm_eq_decode plain.1, Percent.decodeForm_eq_decode plain.2.2]

theorem expiryText?_eq {token : String} (noPlus : '+' ∉ token.toList)
    (unmarked : token.toList.head? ≠ some '?') :
    expiryText? token = (Query.ofRaw token.toList).decoded.lookup "se" := by
  rw [← formFields_eq_decoded noPlus unmarked, expiryText?]
  exact (lookup_map_strings ['s', 'e'] _).symm

theorem isValid_sasToken {token : String} {expiry : Option Instant} {t : Instant} :
    (sasToken token expiry).isValid t = true ↔ token ≠ "" ∧ ∀ last ∈ expiry, t < last := by
  cases expiry <;> simp [isValid, isFilled, precedes, expiresAt]

end Credential

namespace Scheme

open Credential

/-- Signing with a token appends its parameters. The token expires at the instant that the first
parameter named `se` says, decoded as the server does it, and not at all if there is none or if it
is no timestamp. -/
theorem sign_tellsExpiry (text : String) (noPlus : '+' ∉ text.toList) (now : Instant)
    (r : Request) : ∃ token expiry, ∃ more : Query,
      ofSasToken text = .sasToken token expiry ∧
      Scheme.sas.sign now (some (ofSasToken text)) r =
        ⟨.ok (), { r with query := r.query ++ more }⟩ ∧
      expiry = (more.decoded.lookup "se").bind Rfc3339.ofText? ∧
      ∀ t, (ofSasToken text).isValid t = true ↔ token ≠ "" ∧ ∀ last ∈ expiry, t < last := by
  have plain : '+' ∉ (tokenOf text).toList := fun hc => noPlus (mem_of_mem_tokenOf hc)
  refine ⟨tokenOf text, _, Query.ofRaw (tokenOf text).toList, rfl, rfl, ?_, ?_⟩
  · rw [expiryText?_eq plain (head?_tokenOf text)]
  · intro t
    exact isValid_sasToken

/-- A token with marks and an empty piece in front, in which an escaped name of the expiry comes
before a plain one. -/
def namedTwice : String := "??&sv=2024&%73%65=1970-01-01T00%3A01%3A00Z&se=never"

/-- The first of the two counts. -/
theorem namedTwice_tellsExpiry : '+' ∉ namedTwice.toList ∧ ∃ more : Query,
    Scheme.sas.sign (.atSecond 0) (some (ofSasToken namedTwice)) Request.box =
      ⟨.ok (), { Request.box with query := more }⟩ ∧
    more.decoded.lookup "se" = some "1970-01-01T00:01:00Z" ∧
    ∀ t, (ofSasToken namedTwice).isValid t = true ↔ t < .atSecond 60 := by
  have noPlus : '+' ∉ namedTwice.toList := by decide
  obtain ⟨token, expiry, more, hc, signed, -, valid⟩ :=
    sign_tellsExpiry namedTwice noPlus (.atSecond 0) Request.box
  have appended : more = Query.ofRaw (tokenOf namedTwice).toList :=
    (congrArg (fun s : Signing => s.request.query) signed).symm
  have named : (ofSasToken namedTwice).expiresAt = some (.atSecond 60) := by decide +kernel
  have filled : (ofSasToken namedTwice).isFilled = true := by decide +kernel
  rw [hc] at named filled
  cases named
  refine ⟨noPlus, more, signed, by rw [appended]; decide +kernel, fun t => ?_⟩
  have some : token ≠ "" := by simpa [isFilled] using filled
  simpa [some] using valid t

end Scheme
end SignedHttp

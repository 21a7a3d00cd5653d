import SignedHttp.Proofs.Request.Address
import SignedHttp.Proofs.Time.Order
import SignedHttp.Signing

/-!
# SignedHttp.Proofs.Signing.Verbatim

A token that is appended to the query stands in the address as it is (`sign_verbatim`), if each of
its pieces has something after its first equals sign (`Query.IsFilled`). The token is cut into
parameters and put together again: such pieces come back as they were (`Query.kept_of_filled`), so
the token does (`Query.chars_ofRaw_of_filled`), and in front of it stands what the address had
before (`Request.targetChars_appendRawQuery_of_filled`). The characters in front are legal, since
the address could be written before (`Request.legal_of_uri`).
-/

namespace SignedHttp

namespace Query

/-- A piece has an equals sign, and something after the first one. -/
def IsFilled (piece : List Char) : Prop := piece.idxOf '=' + 1 < piece.length

instance (piece : List Char) : Decidable (IsFilled piece) := inferInstanceAs (Decidable (_ < _))

variable {raw piece : List Char}

theorem kept_of_filled (h : IsFilled piece) : kept piece = piece :=
  if_neg (Nat.ne_of_lt h)

theorem pieces_of_filled (h : ∀ piece ∈ raw.splitOn '&', IsFilled piece) :
    pieces raw = raw.splitOn '&' := by
  refine List.filter_eq_self.2 fun piece hpiece => ?_
  have filled := h piece hpiece
  cases piece with
  | nil => simp [IsFilled] at filled
  | cons c piece => rfl

/-- A raw query of such pieces is written as it was read. -/
theorem chars_ofRaw_of_filled (unmarked : raw.head? ≠ some '?')
    (h : ∀ piece ∈ raw.splitOn '&', IsFilled piece) : chars (ofRaw raw) = raw := by
  have same : (raw.splitOn '&').map kept = raw.splitOn '&' := by
    calc (raw.splitOn '&').map kept
      _ = (raw.splitOn '&').map id :=
        List.map_congr_left fun piece hpiece => kept_of_filled (h piece hpiece)
      _ = raw.splitOn '&' := List.map_id _
  rw [chars_ofRaw, withoutMark_eq_self unmarked, pieces_of_filled h, same]
  exact List.intercalate_splitOn '&'

theorem ofRaw_ne_nil_of_filled (unmarked : raw.head? ≠ some '?')
    (h : ∀ piece ∈ raw.splitOn '&', IsFilled piece) : ofRaw raw ≠ [] := by
  have filled := pieces_of_filled h
  unfold pieces at filled
  unfold ofRaw
  rw [withoutMark_eq_self unmarked, filled, ne_eq, List.map_eq_nil_iff]
  exact List.splitOn_ne_nil '&' raw

theorem chars_append {q more : Query} (hq : q ≠ []) (hmore : more ≠ []) :
    chars (q ++ more) = chars q ++ '&' :: chars more := by
  unfold chars
  induction q with
  | nil => exact absurd rfl hq
  | cons pair q ih =>
    cases q with
    | nil =>
      obtain ⟨next, rest, rfl⟩ := List.exists_cons_of_ne_nil hmore
      simp [List.intercalate_cons_cons]
    | cons next rest =>
      have tail := ih (by simp)
      simp only [List.cons_append, List.map_cons] at tail ⊢
      rw [List.intercalate_cons_cons, List.intercalate_cons_cons, tail]
      simp

end Query

namespace Request

variable {r : Request} {token : String}

/-- What an address needs in front of the first parameter that is appended to it. -/
def separator (r : Request) : String := if r.query.isEmpty then "?" else "&"

/-- An address that could be written is made of legal parts. -/
theorem legal_of_uri (sound : r.Sound) {text : String} (h : r.uri = .ok text) :
    r.target.Legal ∧ text = String.ofList (r.originChars ++ r.targetChars) := by
  unfold uri address at h
  cases ht : Target.ofChars r.targetChars with
  | error fault =>
    rw [ht] at h
    cases h
  | ok t =>
    rw [ht] at h
    cases h
    have start := head?_targetChars sound.rooted
    obtain rfl : t = r.target := target_eq sound ht
    constructor
    · refine Target.legal_of_scan (fun c hc => ?_) (Target.scan_of_ofChars start ht)
      rw [start, Option.some.injEq] at hc
      rw [← hc]
      rfl
    · rw [← chars_target]
      rfl

section Filled

variable (unmarked : token.toList.head? ≠ some '?')
  (filled : ∀ piece ∈ token.toList.splitOn '&', Query.IsFilled piece)

include unmarked filled

theorem target_appendRawQuery_of_filled (r : Request) :
    (r.appendRawQuery token).target = ⟨r.path.toList, some
      (if r.query = [] then token.toList else r.query.chars ++ '&' :: token.toList)⟩ := by
  have back := Query.chars_ofRaw_of_filled unmarked filled
  have some := Query.ofRaw_ne_nil_of_filled unmarked filled
  unfold target Query.written appendRawQuery
  dsimp only
  rw [if_neg (by simp [some])]
  by_cases none : r.query = []
  · rw [if_pos none, none, List.nil_append, back]
  · rw [if_neg none, Query.chars_append none some, back]

theorem targetChars_appendRawQuery_of_filled (r : Request) :
    (r.appendRawQuery token).targetChars = r.targetChars ++ r.separator.toList ++ token.toList := by
  rw [← chars_target, target_appendRawQuery_of_filled unmarked filled]
  unfold targetChars separator Target.chars
  by_cases none : r.query = []
  · simp [none]
  · simp [none]

theorem legal_appendRawQuery_of_filled (legal : r.target.Legal)
    (chars : ∀ c ∈ token.toList, Target.isQueryChar c = true) :
    (r.appendRawQuery token).target.Legal := by
  rw [target_appendRawQuery_of_filled unmarked filled]
  refine ⟨legal.rooted, legal.path, fun q hq c hc => ?_⟩
  cases hq
  by_cases none : r.query = []
  · rw [if_pos none] at hc
    exact chars c hc
  · rw [if_neg none] at hc
    rcases List.mem_append.1 hc with hc | hc
    · exact legal.query r.query.chars (if_neg (by simpa using none)) c hc
    · rcases List.mem_cons.1 hc with rfl | hc
      · decide
      · exact chars c hc

end Filled

end Request

namespace Scheme

open Request

/-- Signing with a token of such pieces changes nothing but the query of a request that has an
address, and the address afterwards is the one before, a separator and the token as it is. -/
theorem sign_verbatim {r : Request} {text token : String} (expiresAt : Option Instant)
    (now : Instant) (built : r.Built) (written : r.uri = .ok text)
    (legal : ∀ c ∈ token.toList, Target.isQueryChar c = true)
    (unmarked : token.toList.head? ≠ some '?')
    (filled : ∀ piece ∈ token.toList.splitOn '&', Query.IsFilled piece)
    (fits : (Utf8.encode (text ++ r.separator ++ token).toList).length ≤ Uri.maxLength) :
    ∃ more, Scheme.sas.sign now (some (.sasToken token expiresAt)) r =
        ⟨.ok (), { r with query := r.query ++ more }⟩ ∧
      Request.uri { r with query := r.query ++ more } = .ok (text ++ r.separator ++ token) := by
  refine ⟨Query.ofRaw token.toList, rfl, ?_⟩
  show (r.appendRawQuery token).uri = _
  obtain ⟨before, rfl⟩ := legal_of_uri (sound_of_built built) written
  have after := targetChars_appendRawQuery_of_filled unmarked filled r
  have whole : (String.ofList (r.originChars ++ r.targetChars) ++ r.separator ++ token) =
      String.ofList (r.originChars ++ (r.appendRawQuery token).targetChars) := by
    rw [after, ← String.toList_inj]
    simp
  rw [whole] at fits ⊢
  rw [String.toList_ofList] at fits
  have shorter := Utf8.length_encode_le
    (List.sublist_append_right r.originChars (r.appendRawQuery token).targetChars)
  exact uri_of_legal (legal_appendRawQuery_of_filled unmarked filled before legal)
    (Uri.isTooLong_eq_false.2 (shorter.trans fits))

/-- A request with an empty parameter and one that holds a question mark and a colon. -/
def crowded : Request := (box.pushQuery "" "").appendRawQuery "at=a:b?c"

/-- The token stays as it is, with an escape, and an equals sign, a question mark or nothing but
padding in its values. -/
theorem crowded_verbatim : ∃ more,
    Scheme.sas.sign (.atSecond 0) (some (.sasToken "sv=2024&sig=a%2B/=&q=?&x==" none)) crowded =
      ⟨.ok (), { crowded with query := crowded.query ++ more }⟩ ∧
    Request.uri { crowded with query := crowded.query ++ more } =
      .ok "https://host/box?&at=a:b?c&sv=2024&sig=a%2B/=&q=?&x==" := by
  have new : Request.new ⟨"GET", by decide⟩ "https://host/box" = .ok box :=
    eq_ok_of_toOption (by decide +kernel)
  have written : crowded.uri = .ok "https://host/box?&at=a:b?c" :=
    eq_ok_of_toOption (by decide +kernel)
  have built : crowded.Built := .appendRawQuery (.pushQuery (.new new)) (by decide +kernel)
  have legal : "sv=2024&sig=a%2B/=&q=?&x==".toList.all Target.isQueryChar = true := by
    decide +kernel
  exact sign_verbatim none (.atSecond 0) built written (List.all_eq_true.1 legal)
    (by decide +kernel) (by decide +kernel) (by decide +kernel)

end Scheme
end SignedHttp

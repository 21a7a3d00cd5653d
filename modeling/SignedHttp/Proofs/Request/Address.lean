import Mathlib.Data.List.Basic
import SignedHttp.Proofs.Request.Built

/-!
# SignedHttp.Proofs.Request.Address

The address of a request that is built from an address. Its parts may stand where they do
(`Request.Addressable`), so it can always be written, and it is read as it was written.

* `Request.new_pushAll`: parameters that are pushed, whatever their names and values, come back when
  a request is built from the address.
* `Request.address_of_new`: the address is the one that the request was built from, with its query
  in the form of `Query.rewritten`; a second question mark in front of the query is lost.
-/

namespace SignedHttp

namespace Query

open Text

theorem isQueryChar_of_isUnreserved {c : Char} (h : Percent.isUnreserved c = true) :
    Target.isQueryChar c = true := by
  have value : c.toNat = c.val.toNat := rfl
  unfold Percent.isUnreserved Char.isAlphanum Char.isAlpha Char.isUpper Char.isLower
    Char.isDigit at h
  simp only [Bool.or_eq_true, Bool.and_eq_true, decide_eq_true_eq, beq_iff_eq, or_assoc,
    ge_iff_le, UInt32.le_iff_toNat_le, Char.reduceVal, UInt32.reduceToNat] at h
  simp only [Target.isQueryChar, Bool.or_eq_true, Bool.and_eq_true, decide_eq_true_eq, beq_iff_eq]
  rcases h with upper | lower | digit | rfl | rfl | rfl | rfl
  · omega
  · omega
  · omega
  all_goals decide

/-- A parameter that gets encoded may stand in an address, whatever its name and value are. -/
theorem isQueryChar_of_mem_encoded {name value : String} {c : Char}
    (h : c ∈ pairChars (encoded name value)) : Target.isQueryChar c = true := by
  have escaped {s : List Char} (hc : c ∈ Percent.encode s) : Target.isQueryChar c = true := by
    rcases Percent.of_mem_encode hc with hc | rfl
    · exact isQueryChar_of_isUnreserved hc
    · decide
  unfold pairChars encoded at h
  dsimp only at h
  rw [toList_map, toList_map] at h
  split at h
  · exact escaped h
  · rcases List.mem_append.1 h with h | h
    · exact escaped h
    · rcases List.mem_cons.1 h with rfl | h
      · decide
      · exact escaped h

/-! ## The pieces of a query -/

/-- What stands between the separators of a query, empty pieces left out. -/
def pieces (q : List Char) : List (List Char) := (q.splitOn '&').filter fun piece => !piece.isEmpty

/-- A piece without its first equals sign, if it ends with that one. -/
def kept (piece : List Char) : List Char :=
  if piece.idxOf '=' + 1 = piece.length then piece.dropLast else piece

/-- The pieces of a query put together again, if it has any. -/
def rewritten (q : List Char) : Option (List Char) :=
  if (pieces q).isEmpty then none else some (['&'].intercalate ((pieces q).map kept))

theorem idxOf_append_cons {name : List Char} (h : '=' ∉ name) (value : List Char) :
    (name ++ '=' :: value).idxOf '=' = name.length := by
  rw [List.idxOf_append_of_notMem h, List.idxOf_cons_self, Nat.add_zero]

theorem pairChars_ofPiece_eq (piece : List Char) : pairChars (ofPiece piece) = kept piece := by
  unfold ofPiece
  cases hc : cut? '=' piece with
  | none =>
    have noEquals := cut?_eq_none_iff.1 hc
    have past : piece.idxOf '=' = piece.length := List.idxOf_eq_length_iff.2 noEquals
    simp [pairChars, kept, past]
  | some parts =>
    obtain ⟨name, value⟩ := parts
    obtain ⟨rfl, noEquals⟩ := cut?_eq_some_iff.1 hc
    unfold kept
    rw [idxOf_append_cons noEquals]
    cases value with
    | nil => simp [pairChars]
    | cons c value => simp [pairChars]

/-- What stands after the question mark of an address, if there is one. -/
def written (q : Query) : Option (List Char) := if q.isEmpty then none else some q.chars

theorem chars_ofRaw (raw : List Char) :
    chars (ofRaw raw) = ['&'].intercalate ((pieces (withoutMark raw)).map kept) := by
  have same : pairChars ∘ ofPiece = kept := funext pairChars_ofPiece_eq
  rw [chars, ofRaw, List.map_map, same]
  rfl

theorem written_ofRaw (raw : List Char) : written (ofRaw raw) = rewritten (withoutMark raw) := by
  have same : (ofRaw raw).isEmpty = (pieces (withoutMark raw)).isEmpty := List.isEmpty_map
  rw [written, rewritten, chars_ofRaw, same]

theorem kept_sublist (piece : List Char) : (kept piece).Sublist piece := by
  unfold kept
  split
  · exact List.dropLast_sublist piece
  · exact List.Sublist.refl piece

theorem withoutMark_sublist (s : List Char) : (withoutMark s).Sublist s := by
  unfold withoutMark
  split
  · exact List.sublist_cons_self _ _
  · exact List.Sublist.refl s

/-- Pieces that are shortened or left out give no more than there was. -/
theorem intercalate_kept_sublist (ps : List (List Char)) :
    (['&'].intercalate ((ps.filter fun piece => !piece.isEmpty).map kept)).Sublist
      (['&'].intercalate ps) := by
  induction ps with
  | nil => simp
  | cons p ps ih =>
    cases hp : p.isEmpty with
    | true =>
      rw [List.filter_cons_of_neg (by simp [hp])]
      cases ps with
      | nil => simp
      | cons next more =>
        rw [List.intercalate_cons_cons]
        exact ih.trans (List.sublist_append_right _ _)
    | false =>
      rw [List.filter_cons_of_pos (by simp [hp]), List.map_cons]
      cases ps with
      | nil =>
        rw [List.filter_nil, List.map_nil, List.intercalate_singleton, List.intercalate_singleton]
        exact kept_sublist p
      | cons next more =>
        rw [List.intercalate_cons_cons]
        cases hrest : ((next :: more).filter fun piece => !piece.isEmpty).map kept with
        | nil =>
          rw [List.intercalate_singleton, List.append_assoc]
          exact (kept_sublist p).trans (List.sublist_append_left _ _)
        | cons first rest =>
          rw [hrest] at ih
          rw [List.intercalate_cons_cons]
          exact ((kept_sublist p).append (List.Sublist.refl ['&'])).append ih

/-- Whatever a raw query holds, its parameters take no more room than it did. -/
theorem chars_ofRaw_sublist (raw : List Char) : (chars (ofRaw raw)).Sublist raw := by
  have whole : ['&'].intercalate ((withoutMark raw).splitOn '&') = withoutMark raw :=
    List.intercalate_splitOn '&'
  have fewer := intercalate_kept_sublist ((withoutMark raw).splitOn '&')
  rw [whole] at fewer
  rw [chars_ofRaw]
  exact fewer.trans (withoutMark_sublist raw)

theorem mem_chars {q : Query} {pair : String × String} {c : Char} (hpair : pair ∈ q)
    (hc : c ∈ pairChars pair) : c ∈ chars q := by
  unfold chars
  induction q with
  | nil => cases hpair
  | cons first q ih =>
    cases q with
    | nil =>
      rw [List.mem_singleton.1 hpair] at hc
      simpa using hc
    | cons next rest =>
      rw [List.map_cons, List.map_cons, List.intercalate_cons_cons, ← List.map_cons]
      rcases List.mem_cons.1 hpair with rfl | hpair
      · simp [hc]
      · exact List.mem_append_right _ (ih hpair)

theorem kept_cons {c : Char} (h : c ≠ '=') (piece : List Char) :
    kept (c :: piece) = c :: kept piece := by
  unfold kept
  rw [List.idxOf_cons_ne piece h, List.length_cons]
  by_cases hp : piece.idxOf '=' + 1 = piece.length
  · have filled : piece ≠ [] := by
      rintro rfl
      simp at hp
    rw [if_pos hp, if_pos (by omega), List.dropLast_cons_of_ne_nil filled]
  · rw [if_neg hp, if_neg (by omega)]

theorem intercalate_cons_self (c : Char) (piece : List Char) (ps : List (List Char)) :
    ['&'].intercalate ((c :: piece) :: ps) = c :: ['&'].intercalate (piece :: ps) := by
  cases ps with
  | nil => simp
  | cons next more => simp [List.intercalate_cons_cons]

/-- A question mark in front of a query is part of its first name. -/
theorem rewritten_mark (q : List Char) : rewritten ('?' :: q) ≠ rewritten q := by
  intro heq
  obtain ⟨first, more, hsplit⟩ := List.exists_cons_of_ne_nil (List.splitOn_ne_nil '&' q)
  have marked : ('?' :: q).splitOn '&' = ('?' :: first) :: more := by
    rw [List.splitOn_cons_eq_if_modifyHead, if_neg (by decide), hsplit, List.modifyHead_cons]
  unfold rewritten pieces at heq
  rw [marked, hsplit, List.filter_cons_of_pos (by simp), List.map_cons,
    kept_cons (by decide : '?' ≠ '='), intercalate_cons_self] at heq
  cases first with
  | nil =>
    rw [List.filter_cons_of_neg (by simp)] at heq
    cases hmore : more.filter fun piece => !piece.isEmpty with
    | nil => simp [hmore] at heq
    | cons next rest =>
      have longer := congrArg (Option.map List.length) heq
      simp [hmore, List.intercalate_cons_cons] at longer
      omega
  | cons c first =>
    rw [List.filter_cons_of_pos (by simp), List.map_cons] at heq
    have longer := congrArg (Option.map List.length) heq
    simp at longer

theorem rewritten_withoutMark (q : List Char) :
    rewritten (withoutMark q) = rewritten q ↔ q.head? ≠ some '?' := by
  cases q with
  | nil => simp [withoutMark]
  | cons c q =>
    by_cases hc : c = '?'
    · subst hc
      simpa [withoutMark] using (rewritten_mark q).symm
    · simp [withoutMark, hc]

end Query

namespace Request

/-! ## Requests with an address -/

/-- What follows the authority in the address of a request. -/
def target (r : Request) : Target := ⟨r.path.toList, r.query.written⟩

theorem chars_target (r : Request) : r.target.chars = r.targetChars := by
  unfold target targetChars Target.chars Query.written
  by_cases hq : r.query.isEmpty = true
  · rw [if_pos hq, if_pos hq]
  · rw [if_neg hq, if_neg hq]

/-- A request whose parts may stand in an address where they do. -/
structure Addressable (r : Request) : Prop where
  scheme : Uri.IsScheme r.scheme.toList
  authority : Uri.IsAuthority r.authority.toList
  rooted : r.path.toList.head? = some '/'
  path : ∀ c ∈ r.path.toList, Target.isPathChar c = true
  query : ∀ pair ∈ r.query, ∀ c ∈ Query.pairChars pair, Target.isQueryChar c = true

theorem Addressable.legal {r : Request} (h : r.Addressable) : r.target.Legal := by
  refine ⟨h.rooted, h.path, fun q hq c hc => ?_⟩
  unfold target Query.written at hq
  dsimp only at hq
  split at hq
  · cases hq
  · cases hq
    rcases Query.mem_intercalate hc with rfl | ⟨piece, hpiece, hc⟩
    · decide
    · obtain ⟨pair, hpair, rfl⟩ := List.mem_map.1 hpiece
      exact h.query pair hpair c hc

/-- The address is written as the parts say. -/
theorem address_of_legal {r : Request} (legal : r.target.Legal)
    (fits : Uri.isTooLong r.targetChars = false) :
    r.address = .ok ⟨some r.scheme.toList, some r.authority.toList, r.target⟩ := by
  unfold address
  rw [← chars_target] at fits ⊢
  rw [Target.ofChars_chars legal fits]

theorem uri_of_legal {r : Request} (legal : r.target.Legal)
    (fits : Uri.isTooLong r.targetChars = false) :
    r.uri = .ok (String.ofList (r.originChars ++ r.targetChars)) := by
  rw [uri, address_of_legal legal fits, ← chars_target]
  rfl

theorem addressable_of_new {method : Method} {text : String} {r : Request}
    (h : Request.new method text = .ok r) : r.Addressable := by
  obtain ⟨u, authority, hu, ha, rfl⟩ := new_eq_ok h
  have formed := (Uri.reads_of_ofText hu ha).wellFormed
  refine ⟨?_, ?_, ?_, ?_, ?_⟩
  · rw [String.toList_ofList]
    cases hs : u.scheme with
    | none => exact .https
    | some name => exact formed.scheme name hs
  · rw [String.toList_ofList]
    obtain ⟨_, ha', host⟩ := formed.authority
    cases ha.symm.trans ha'
    exact host
  · rw [String.toList_ofList]
    exact formed.target.rooted
  · rw [String.toList_ofList]
    exact formed.target.path
  · intro pair hpair c hc
    cases hq : u.target.query with
    | none => simp [hq] at hpair
    | some q =>
      rw [hq] at hpair
      exact formed.target.query q hq c ((Query.chars_ofRaw_sublist q).subset (Query.mem_chars hpair hc))

theorem written_of_new (u : Uri) :
    Query.written ((u.target.query.map Query.ofRaw).getD []) =
      (u.target.query.map Query.withoutMark).bind Query.rewritten := by
  cases u.target.query with
  | none => rfl
  | some q => exact Query.written_ofRaw q

theorem chars_written_sublist (path raw : List Char) :
    (Target.mk path (Query.ofRaw raw).written).chars.Sublist (Target.mk path (some raw)).chars := by
  unfold Target.chars Query.written
  by_cases none : (Query.ofRaw raw).isEmpty = true
  · rw [if_pos none]
    exact List.sublist_append_left _ _
  · rw [if_neg none]
    exact (List.Sublist.refl path).append (List.cons_sublist_cons.2 (Query.chars_ofRaw_sublist raw))

/-- What follows the authority is not longer than in the address that a request was built from. -/
theorem fits_of_new {method : Method} {text : String} {r : Request}
    (h : Request.new method text = .ok r) : Uri.isTooLong r.targetChars = false := by
  obtain ⟨u, authority, hu, ha, rfl⟩ := new_eq_ok h
  have fits := Uri.isTooLong_eq_false.1 (Uri.isTooLong_of_ofText hu)
  have shorter := (Uri.reads_of_ofText hu ha).length_le
  have fewer : (Target.mk u.target.path
      (Query.written ((u.target.query.map Query.ofRaw).getD []))).chars.Sublist u.target.chars := by
    obtain ⟨path, query⟩ := u.target
    cases query with
    | none => exact List.Sublist.refl path
    | some q => exact chars_written_sublist path q
  have bytes := Utf8.length_encode_le fewer
  rw [← chars_target, Uri.isTooLong_eq_false, target, String.toList_ofList]
  dsimp only
  omega

/-! ## Pushed parameters -/

/-- The request with more query parameters, which get encoded. -/
def pushAll (r : Request) (pairs : List (String × String)) : Request :=
  pairs.foldl (fun r pair => r.pushQuery pair.1 pair.2) r

theorem pushAll_eq (r : Request) (pairs : List (String × String)) :
    r.pushAll pairs =
      { r with query := r.query ++ pairs.map fun pair => Query.encoded pair.1 pair.2 } := by
  induction pairs generalizing r with
  | nil => simp [pushAll]
  | cons pair pairs ih =>
    show (r.pushQuery pair.1 pair.2).pushAll pairs = _
    rw [ih]
    simp [pushQuery]

theorem Addressable.pushQuery {r : Request} (h : r.Addressable) (name value : String) :
    (r.pushQuery name value).Addressable := by
  refine ⟨h.scheme, h.authority, h.rooted, h.path, fun pair hpair c hc => ?_⟩
  rcases List.mem_append.1 hpair with hpair | hpair
  · exact h.query pair hpair c hc
  · rw [List.mem_singleton.1 hpair] at hc
    exact Query.isQueryChar_of_mem_encoded hc

theorem Addressable.pushAll {r : Request} (h : r.Addressable) (pairs : List (String × String)) :
    (r.pushAll pairs).Addressable := by
  induction pairs generalizing r with
  | nil => exact h
  | cons pair pairs ih => exact ih (h.pushQuery pair.1 pair.2)

theorem built_pushAll {r : Request} (h : r.Built) (pairs : List (String × String)) :
    (r.pushAll pairs).Built := by
  induction pairs generalizing r with
  | nil => exact h
  | cons pair pairs ih => exact ih h.pushQuery

/-- A request that is built from an address of a request has the same parts, and the parameters that
a server would find there. -/
theorem new_uri {r : Request} (h : r.Addressable) (sound : r.Sound) (method : Method)
    (fits : (Utf8.encode (r.originChars ++ r.targetChars)).length ≤ Uri.maxLength) :
    r.uri = .ok (String.ofList (r.originChars ++ r.targetChars)) ∧
      Request.new method (String.ofList (r.originChars ++ r.targetChars)) = .ok {
        method
        scheme := r.scheme
        authority := r.authority
        path := r.path
        query := r.query.received } := by
  have shorter := Utf8.length_encode_le (List.sublist_append_right r.originChars r.targetChars)
  have written := uri_of_legal h.legal (Uri.isTooLong_eq_false.2 (shorter.trans fits))
  have whole : r.originChars ++ r.targetChars =
      r.scheme.toList ++ "://".toList ++ (r.authority.toList ++ r.target.chars) := by
    rw [originChars, chars_target, List.append_assoc]
  have query : (r.query.written.map Query.ofRaw).getD [] = r.query.received := by
    unfold Query.written
    cases hq : r.query with
    | nil => rfl
    | cons pair rest =>
      rw [← hq]
      have back := Query.ofRaw_chars sound.query
      simpa [hq] using back
  refine ⟨written, ?_⟩
  rw [← Uri.isTooLong_eq_false, whole] at fits
  have read := Uri.ofChars_text h.scheme h.authority h.legal fits
  unfold Request.new Uri.ofText
  rw [String.toList_ofList, whole, read]
  simp [ofUri, target, query]

end Request

namespace Query

theorem encoded_ne_empty {pair : String × String} (h : pair ≠ ("", "")) :
    encoded pair.1 pair.2 ≠ ("", "") := by
  intro heq
  have empty {s : String} (hs : Text.map Percent.encode s = "") : s = "" := by
    have none : Percent.encode s.toList = Percent.encode "".toList := by
      have chars := congrArg String.toList hs
      rw [Text.toList_map] at chars
      exact chars
    have back := congrArg Percent.decode none
    rwa [Percent.decode_encode, Percent.decode_encode, String.toList_inj] at back
  exact h (Prod.ext (empty (congrArg Prod.fst heq)) (empty (congrArg Prod.snd heq)))

theorem decoded_encoded (pairs : List (String × String)) :
    decoded (pairs.map fun pair => encoded pair.1 pair.2) = pairs := by
  have back (s : String) : Text.map Percent.decode (Text.map Percent.encode s) = s := by
    rw [Text.map, Text.toList_map, Percent.decode_encode, String.ofList_toList]
  rw [decoded, List.map_map]
  calc pairs.map _ = pairs.map id := List.map_congr_left fun pair _ => by simp [encoded, back]
    _ = pairs := List.map_id pairs

/-- Encoded parameters come back from the wire as they are. -/
theorem received_encoded {pairs : List (String × String)} (h : ("", "") ∉ pairs) :
    received (pairs.map fun pair => encoded pair.1 pair.2) =
      pairs.map fun pair => encoded pair.1 pair.2 := by
  refine received_eq_self ?_ ?_
  · intro hmem
    obtain ⟨pair, hpair, heq⟩ := List.mem_map.1 hmem
    exact encoded_ne_empty (fun empty => h (empty ▸ hpair)) heq
  · intro pair hpair hmark
    rw [List.head?_map, Option.map_eq_some_iff] at hpair
    obtain ⟨first, -, rfl⟩ := hpair
    rw [encoded, Text.toList_map] at hmark
    have mark := Percent.of_mem_encode (List.mem_of_mem_head? hmark)
    revert mark
    decide

end Query

namespace Request

/-- Parameters survive the wire, whatever their names and values are. Where they are pushed to a
request that is built from an address without parameters and none of them has an empty name and an
empty value, a request built from the resulting address, if it is not too long, goes to the same
place and has these parameters in this order. -/
theorem new_pushAll {method : Method} {text : String} {r : Request}
    {pairs : List (String × String)} (h : Request.new method text = .ok r) (none : r.query = [])
    (named : ("", "") ∉ pairs)
    (fits : (Utf8.encode ((r.pushAll pairs).originChars ++ (r.pushAll pairs).targetChars)).length ≤
      Uri.maxLength) :
    ∃ address r', (r.pushAll pairs).uri = .ok address ∧ Request.new method address = .ok r' ∧
      r'.scheme = r.scheme ∧ r'.authority = r.authority ∧ r'.path = r.path ∧
      Query.decoded r'.query = pairs := by
  have addressable := (addressable_of_new h).pushAll pairs
  have sound := sound_of_built (built_pushAll (.new h) pairs)
  obtain ⟨huri, hnew⟩ := new_uri addressable sound method fits
  have pushed := pushAll_eq r pairs
  rw [none, List.nil_append] at pushed
  refine ⟨_, _, huri, hnew, ?_⟩
  rw [pushed]
  refine ⟨rfl, rfl, rfl, ?_⟩
  rw [Query.received_encoded named, Query.decoded_encoded]

/-- A request without headers and parameters. -/
def box : Request where
  method := ⟨"GET", by decide⟩
  scheme := "https"
  authority := "host"
  path := "/box"

/-- Parameters that would be others if they were not encoded. -/
def awkward : List (String × String) :=
  [("a&b", "c=d"), ("?q", "#f"), ("100%", "%41"), ("", "é λ €"), ("tab\tline\n", "")]

theorem awkward_pushAll : ∃ address r', (box.pushAll awkward).uri = .ok address ∧
    Request.new ⟨"GET", by decide⟩ address = .ok r' ∧ r'.scheme = "https" ∧
    r'.authority = "host" ∧ r'.path = "/box" ∧ Query.decoded r'.query = awkward :=
  new_pushAll (eq_ok_of_toOption (by decide +kernel) :
    Request.new ⟨"GET", by decide⟩ "https://host/box" = .ok box) rfl (by decide) (by decide +kernel)

/-! ## Addresses that requests are built from -/

/-- The address of a request that is built from an address can always be written. It has the same
scheme, `https` if there was none, the same authority and the same path. Its query is made of the
pieces between the separators, without empty ones and without an equals sign that ends a piece and
is the first in it; but one question mark in front of the query is taken off before, so the pieces
are those of the query exactly if it does not start with one. -/
theorem address_of_new {method : Method} {text : String} {r : Request}
    (h : Request.new method text = .ok r) :
    ∃ u v, Uri.ofText text = .ok u ∧ r.address = .ok v ∧ r.uri = .ok v.text ∧
      v.scheme = some (u.scheme.getD "https".toList) ∧ v.authority = u.authority ∧
      v.target.path = u.target.path ∧
      v.target.query = (u.target.query.map Query.withoutMark).bind Query.rewritten ∧
      (v.target.query = u.target.query.bind Query.rewritten ↔
        ∀ q, u.target.query = some q → q.head? ≠ some '?') := by
  have written := address_of_legal (addressable_of_new h).legal (fits_of_new h)
  obtain ⟨u, authority, hu, ha, rfl⟩ := new_eq_ok h
  have query := written_of_new u
  refine ⟨u, _, hu, written, ?_, ?_, ?_, ?_, query, ?_⟩
  · rw [uri, written]
    rfl
  · exact congrArg some String.toList_ofList
  · exact (congrArg some String.toList_ofList).trans ha.symm
  · exact String.toList_ofList
  · show Query.written _ = _ ↔ _
    rw [query]
    cases hq : u.target.query with
    | none => simp
    | some q =>
      simpa using Query.rewritten_withoutMark q

/-- Empty pieces are left out, and `a=` is written as `a`. -/
theorem gaps_address : ∃ r u v, Request.new ⟨"GET", by decide⟩ "https://host/box?a=&&=b&c==&d?=e&" =
      .ok r ∧ Uri.ofText "https://host/box?a=&&=b&c==&d?=e&" = .ok u ∧ r.address = .ok v ∧
    v.target.query = u.target.query.bind Query.rewritten ∧
    v.target.query = some "a&=b&c==&d?=e".toList := by
  obtain ⟨r, hr⟩ := exists_of_isOk
    (x := Request.new ⟨"GET", by decide⟩ "https://host/box?a=&&=b&c==&d?=e&") (by decide +kernel)
  obtain ⟨u, v, hu, hv, -, -, -, -, -, same⟩ := address_of_new hr
  have query : ((Uri.ofText "https://host/box?a=&&=b&c==&d?=e&").toOption.bind (·.target.query)) =
      some "a=&&=b&c==&d?=e&".toList := by decide +kernel
  rw [hu] at query
  have unmarked : ∀ q, u.target.query = some q → q.head? ≠ some '?' := by
    intro q hq
    cases hq.symm.trans query
    decide
  have kept := same.2 unmarked
  refine ⟨r, u, v, hr, hu, hv, kept, kept.trans ?_⟩
  rw [show u.target.query = _ from query]
  decide +kernel

/-- A second question mark is part of the query that the address has, and is lost. -/
theorem mark_address : ∃ r u v, Request.new ⟨"GET", by decide⟩ "https://host/p??a=1" = .ok r ∧
    Uri.ofText "https://host/p??a=1" = .ok u ∧ r.address = .ok v ∧
    u.target.query.bind Query.rewritten = some "?a=1".toList ∧
    v.target.query = some "a=1".toList := by
  refine ⟨{ box with path := "/p", query := [("a", "1")] },
    ⟨some "https".toList, some "host".toList, ⟨"/p".toList, some "?a=1".toList⟩⟩,
    ⟨some "https".toList, some "host".toList, ⟨"/p".toList, some "a=1".toList⟩⟩, ?_, ?_, ?_, ?_, rfl⟩
  · exact eq_ok_of_toOption (by decide +kernel)
  · exact eq_ok_of_toOption (by decide +kernel)
  · exact eq_ok_of_toOption (by decide +kernel)
  · decide +kernel

end Request
end SignedHttp

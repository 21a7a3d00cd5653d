import Mathlib.Data.List.TakeWhile
import SignedHttp.Http.Uri
import SignedHttp.Proofs.Results
import SignedHttp.Proofs.Text.Stops
import SignedHttp.Proofs.Text.Utf8

/-!
# SignedHttp.Proofs.Http.Uri

Addresses, read and written. An address with a host has three parts: a scheme, an authority, and a
path with a query. What each of them may be is said without the reader (`Uri.IsScheme`,
`Uri.IsAuthority`, `Target.Legal`).

* `Uri.Reads.wellFormed`: whatever is read as an address with a host has such parts.
* `Uri.ofChars_text`: whatever has such parts is read as it was written, if it is not too long.
-/

namespace SignedHttp

namespace Target

/-- A path from the root and a query of the characters that may stand in them. -/
structure Legal (t : Target) : Prop where
  rooted : t.path.head? = some '/'
  path : ∀ c ∈ t.path, isPathChar c = true
  query : ∀ q, t.query = some q → ∀ c ∈ q, isQueryChar c = true

variable {t : Target} {s : List Char}

theorem not_endsPath_of_isPathChar {c : Char} (h : isPathChar c = true) : endsPath c = false := by
  cases hc : endsPath c with
  | false => rfl
  | true =>
    exfalso
    simp only [endsPath, Bool.or_eq_true, beq_iff_eq] at hc
    rcases hc with rfl | rfl <;> revert h <;> decide

theorem ne_hash_of_isQueryChar {c : Char} (h : isQueryChar c = true) : c ≠ '#' := by
  rintro rfl
  revert h
  decide

theorem head?_rooted (path : List Char) (h : path = [] ∨ path.head? = some '/') :
    (rooted path).head? = some '/' := by
  unfold rooted
  rcases h with rfl | h
  · rfl
  · rw [if_neg (by rintro hpath; simp_all), h]

theorem isPathChar_of_mem_rooted {path : List Char} (h : ∀ c ∈ path, isPathChar c = true) :
    ∀ c ∈ rooted path, isPathChar c = true := by
  intro c hc
  unfold rooted at hc
  split at hc
  · rw [List.mem_singleton.1 hc]
    decide
  · exact h c hc

/-- What is read as a path and a query after an authority consists of legal characters. -/
theorem legal_of_scan (h : ∀ c, s.head? = some c → Uri.endsAuthority c = true)
    (hscan : scan s = .ok t) : t.Legal := by
  have start : s.takeWhile (!endsPath ·) = [] ∨
      (s.takeWhile (!endsPath ·)).head? = some '/' := by
    cases s with
    | nil => exact .inl rfl
    | cons c rest =>
      have hc := h c rfl
      simp only [Uri.endsAuthority, Bool.or_eq_true, beq_iff_eq, or_assoc] at hc
      rcases hc with rfl | rfl | rfl
      · exact .inr rfl
      · exact .inl rfl
      · exact .inl rfl
  unfold scan at hscan
  dsimp only at hscan
  split at hscan
  · cases hscan
  · rename_i hpath
    have path : ∀ c ∈ s.takeWhile (!endsPath ·), isPathChar c = true := by
      simpa using hpath
    split at hscan
    · split at hscan
      · rename_i hquery
        cases hscan
        refine ⟨head?_rooted _ start, isPathChar_of_mem_rooted path, fun q hq => ?_⟩
        cases hq
        exact List.all_eq_true.1 hquery
      · cases hscan
    · cases hscan
      exact ⟨head?_rooted _ start, isPathChar_of_mem_rooted path, nofun⟩

/-- A legal path and query are read as they were written. -/
theorem scan_chars (h : t.Legal) : scan t.chars = .ok t := by
  obtain ⟨path, query⟩ := t
  have stays : ∀ c ∈ path, (!endsPath c) = true := by
    intro c hc
    simp [not_endsPath_of_isPathChar (h.path c hc)]
  have all : path.all isPathChar = true := List.all_eq_true.2 h.path
  have root : rooted path = path := by
    have hroot := h.rooted
    unfold rooted
    rw [if_neg (by rintro hpath; simp_all)]
  cases query with
  | none =>
    simp only [chars, scan, List.takeWhile_eq_self_iff.2 stays, List.dropWhile_eq_nil_iff.2 stays,
      all, root, Bool.not_true, Bool.false_eq_true, if_false]
  | some q =>
    have legal := h.query q rfl
    have whole : q.takeWhile (· != '#') = q :=
      List.takeWhile_eq_self_iff.2 fun c hc => by simpa using ne_hash_of_isQueryChar (legal c hc)
    have ends : Text.Stops (!endsPath ·) ('?' :: q) := Text.stops_cons rfl
    have front : (path ++ '?' :: q).takeWhile (!endsPath ·) = path :=
      Text.takeWhile_front stays ends
    have back : (path ++ '?' :: q).dropWhile (!endsPath ·) = '?' :: q :=
      Text.dropWhile_front stays ends
    simp only [chars, scan, front, back, whole, all, root, List.all_eq_true.2 legal,
      Bool.not_true, Bool.false_eq_true, if_false, if_true]

theorem exists_chars_eq (h : t.Legal) : ∃ more, t.chars = '/' :: more := by
  obtain ⟨rest, hpath⟩ := List.head?_eq_some_iff.1 h.rooted
  unfold chars
  cases t.query with
  | none => exact ⟨rest, hpath⟩
  | some q => exact ⟨rest ++ '?' :: q, by simp [hpath]⟩

theorem ofChars_chars (h : t.Legal) (fits : Uri.isTooLong t.chars = false) :
    ofChars t.chars = .ok t := by
  obtain ⟨more, hmore⟩ := exists_chars_eq h
  have scanned := scan_chars h
  unfold ofChars
  rw [fits]
  rw [hmore] at scanned ⊢
  exact scanned

/-- What is read as a path and a query is not longer than the text, apart from a slash that is put
in place of no path. -/
theorem chars_sublist_of_scan (h : scan s = .ok t) : t.chars.Sublist ('/' :: s) := by
  have root (path : List Char) : (rooted path).Sublist ('/' :: path) := by
    unfold rooted
    split
    · exact List.cons_sublist_cons.2 (List.nil_sublist path)
    · exact List.sublist_cons_self '/' path
  have whole : s.takeWhile (!endsPath ·) ++ s.dropWhile (!endsPath ·) = s :=
    List.takeWhile_append_dropWhile
  unfold scan at h
  dsimp only at h
  split at h
  · cases h
  · split at h
    · rename_i more hmore
      split at h
      · cases h
        have query : ('?' :: more.takeWhile (· != '#')).Sublist ('?' :: more) :=
          List.cons_sublist_cons.2 (List.takeWhile_sublist _)
        have parts := (root (s.takeWhile (!endsPath ·))).append query
        rw [hmore] at whole
        rwa [List.cons_append, whole] at parts
      · cases h
    · cases h
      exact (root _).trans (List.cons_sublist_cons.2 (List.takeWhile_sublist _))

theorem legal_slash : Legal ⟨['/'], none⟩ where
  rooted := rfl
  path := by simp [isPathChar]
  query := nofun

end Target

namespace Uri

/-! ## Schemes -/

/-- What may stand in front of `://`: one of the two common schemes in lowercase, or anything else
that is neither of them in any case. -/
inductive IsScheme : List Char → Prop where
  | http : IsScheme "http".toList
  | https : IsScheme "https".toList
  | other {s : List Char} : (∀ c ∈ s, isSchemeChar c = true) → s.length ≤ 64 →
      s.map Char.toLower ≠ "http".toList → s.map Char.toLower ≠ "https".toList → IsScheme s

theorem toLower_eq_colon {c : Char} : c.toLower = ':' ↔ c = ':' := by
  constructor
  · intro h
    unfold Char.toLower at h
    split at h
    · rename_i hc
      have val := congrArg (UInt32.toNat ∘ Char.val) h
      have low := UInt32.le_iff_toNat_le.1 hc.1
      have high := UInt32.le_iff_toNat_le.1 hc.2
      simp [UInt32.toNat_add] at val low high
      omega
    · exact h
  · rintro rfl
    rfl

/-- A text starts with a word and `://`, in any case, exactly if what stands in front of its first
colon is that word. -/
theorem startsWith_iff {name word : List Char} (hname : ':' ∉ name) (hword : ':' ∉ word)
    (rest : List Char) :
    ((name ++ "://".toList ++ rest).take (word.length + 3)).map Char.toLower =
      word ++ "://".toList ↔ name.map Char.toLower = word := by
  induction name generalizing word with
  | nil =>
    cases word with
    | nil => simp
    | cons w word =>
      have first : ':' ≠ w := fun heq => hword (heq ▸ List.mem_cons_self)
      simp [first]
  | cons c name ih =>
    simp only [List.mem_cons, not_or] at hname
    cases word with
    | nil =>
      have first : c.toLower ≠ ':' := fun heq => hname.1 (toLower_eq_colon.1 heq).symm
      simp [first]
    | cons w word =>
      simp only [List.mem_cons, not_or] at hword
      have later := ih hname.2 hword.2
      simp only [List.cons_append, List.length_cons, Nat.add_right_comm _ 1 3, List.take_succ_cons,
        List.map_cons, List.cons.injEq, later]

theorem startsWith_http {name : List Char} (h : ':' ∉ name) (rest : List Char) :
    ((name ++ "://".toList ++ rest).take 7).map Char.toLower = "http://".toList ↔
      name.map Char.toLower = "http".toList :=
  startsWith_iff h (by decide : ':' ∉ "http".toList) rest

theorem startsWith_https {name : List Char} (h : ':' ∉ name) (rest : List Char) :
    ((name ++ "://".toList ++ rest).take 8).map Char.toLower = "https://".toList ↔
      name.map Char.toLower = "https".toList :=
  startsWith_iff h (by decide : ':' ∉ "https".toList) rest

theorem notMem_of_isScheme {name : List Char} (h : IsScheme name) : ':' ∉ name ∧ '/' ∉ name := by
  cases h with
  | http => decide
  | https => decide
  | other hall =>
    constructor <;> intro hmem <;> have hchar := hall _ hmem <;> revert hchar <;> decide

/-- What is read as a scheme is one, and at least the `://` stands between the start of the text and
the rest. -/
theorem splitScheme_cases {s rest : List Char} {scheme : Option (List Char)}
    (h : splitScheme s = .ok (scheme, rest)) :
    (scheme = none ∧ rest = s) ∨
      ∃ name front, scheme = some name ∧ IsScheme name ∧ s = front ++ rest ∧ 3 ≤ front.length := by
  have front {n : Nat} {word : List Char} (hword : (s.take n).map Char.toLower = word) :
      (s.take n).length = word.length := by
    rw [← hword, List.length_map]
  unfold splitScheme at h
  split at h
  · rename_i hhttp
    cases h
    exact .inr ⟨_, s.take 7, rfl, .http, (List.take_append_drop 7 s).symm, by rw [front hhttp]; decide⟩
  · rename_i notHttp
    split at h
    · rename_i hhttps
      cases h
      exact .inr ⟨_, s.take 8, rfl, .https, (List.take_append_drop 8 s).symm,
        by rw [front hhttps]; decide⟩
    · rename_i notHttps
      split at h
      · split at h
        · rename_i name after hcut
          obtain ⟨heq, noColon⟩ := Text.cut?_eq_some_iff.1 hcut
          have parts : s = name ++ "://".toList ++ after := by simpa using heq
          split at h
          · rename_i hall
            split at h
            · cases h
            · rename_i hlen
              cases h
              have http := startsWith_http noColon rest
              have https := startsWith_https noColon rest
              rw [← parts] at http https
              refine .inr ⟨name, name ++ "://".toList, rfl, .other (List.all_eq_true.1 hall)
                (Nat.not_lt.1 hlen) (fun heq => notHttp (http.2 heq))
                (fun heq => notHttps (https.2 heq)), parts, by simp⟩
          · cases h
            exact .inl ⟨rfl, rfl⟩
        · cases h
          exact .inl ⟨rfl, rfl⟩
      · cases h
        exact .inl ⟨rfl, rfl⟩

/-- A scheme in front of `://` is read as it was written. -/
theorem splitScheme_append {name rest : List Char} (h : IsScheme name) (hrest : rest ≠ []) :
    splitScheme (name ++ "://".toList ++ rest) = .ok (some name, rest) := by
  have noColon := (notMem_of_isScheme h).1
  cases h with
  | http => rfl
  | https => rfl
  | other hall hlen notHttp notHttps =>
    have cut : Text.cut? ':' (name ++ "://".toList ++ rest) = some (name, '/' :: '/' :: rest) := by
      simpa using Text.cut?_append noColon ('/' :: '/' :: rest)
    have long : 3 < (name ++ "://".toList ++ rest).length := by
      have some := List.length_pos_iff.2 hrest
      simp
      omega
    unfold splitScheme
    rw [if_neg fun heq => notHttp ((startsWith_http noColon rest).1 heq),
      if_neg fun heq => notHttps ((startsWith_https noColon rest).1 heq), if_pos long, cut]
    show (if name.all isSchemeChar then if 64 < name.length then _ else Except.ok (some name, rest)
      else _) = _
    rw [if_pos (List.all_eq_true.2 hall), if_neg (Nat.not_lt.2 hlen)]

/-! ## Addresses with a host -/

/-- A host with what may stand around it. -/
structure IsAuthority (s : List Char) : Prop where
  filled : s ≠ []
  ends : ∀ c ∈ s, endsAuthority c = false
  checked : checkAuthority s = .ok ()

/-- How an address with a host is read: the whole text is the host, or a scheme stands in front of
it and a path and a query may follow. -/
inductive Reads : List Char → Uri → Prop where
  | host {s : List Char} : IsAuthority s → Reads s ⟨none, some s, ⟨['/'], none⟩⟩
  | full {front name authority rest : List Char} {t : Target} :
      3 ≤ front.length → IsScheme name → IsAuthority authority →
      (∀ c, rest.head? = some c → endsAuthority c = true) → Target.scan rest = .ok t →
      Reads (front ++ (authority ++ rest)) ⟨some name, some authority, t⟩

theorem endsAuthority_of_dropWhile (s : List Char) (c : Char)
    (h : (s.dropWhile (!endsAuthority ·)).head? = some c) : endsAuthority c = true := by
  have hc := List.head?_dropWhile_not (!endsAuthority ·) s
  rw [h] at hc
  simpa using hc

/-- What is read as an address that starts with a scheme or an authority. -/
theorem ofAuthority_eq_ok {s : List Char} {u : Uri} (h : ofAuthority s = .ok u) :
    ∃ scheme authority rest, splitScheme s = .ok (scheme, authority ++ rest) ∧
      IsAuthority authority ∧ (∀ c, rest.head? = some c → endsAuthority c = true) ∧
      ((scheme = none ∧ rest = [] ∧ u = ⟨none, some authority, ⟨['/'], none⟩⟩) ∨
        ∃ name t, scheme = some name ∧ Target.scan rest = .ok t ∧
          u = ⟨some name, some authority, t⟩) := by
  unfold ofAuthority at h
  obtain ⟨⟨scheme, after⟩, hs, h⟩ := ok_of_bind h
  dsimp only at h
  split at h
  · cases h
  · rename_i filled
    obtain ⟨⟨⟩, hc, h⟩ := ok_of_bind h
    have whole : after.takeWhile (!endsAuthority ·) ++ after.dropWhile (!endsAuthority ·) = after :=
      List.takeWhile_append_dropWhile
    have authority (some : after.takeWhile (!endsAuthority ·) ≠ []) :
        IsAuthority (after.takeWhile (!endsAuthority ·)) := by
      refine ⟨some, fun c hmem => ?_, hc⟩
      simpa using List.all_eq_true.1 List.all_takeWhile c hmem
    rw [← whole] at hs
    cases scheme with
    | none =>
      dsimp only at h
      split at h
      · rename_i noRest
        cases h
        refine ⟨none, _, _, hs, authority fun host => ?_, endsAuthority_of_dropWhile after,
          .inl ⟨rfl, List.isEmpty_iff.1 noRest, rfl⟩⟩
        rw [host, List.isEmpty_iff.1 noRest] at whole
        exact filled (List.isEmpty_iff.2 whole.symm)
      · cases h
    | some name =>
      dsimp only at h
      split at h
      · cases h
      · rename_i host
        obtain ⟨t, ht, h⟩ := ok_of_bind h
        cases h
        exact ⟨some name, _, _, hs, authority fun heq => host (List.isEmpty_iff.2 heq),
          endsAuthority_of_dropWhile after, .inr ⟨name, t, rfl, ht, rfl⟩⟩

theorem reads_of_ofAuthority {s : List Char} {u : Uri} (h : ofAuthority s = .ok u) : Reads s u := by
  obtain ⟨scheme, authority, rest, hs, host, ends, ⟨rfl, rfl, rfl⟩ | ⟨name, t, rfl, ht, rfl⟩⟩ :=
    ofAuthority_eq_ok h
  · obtain ⟨-, whole⟩ | ⟨name, front, hname, -⟩ := splitScheme_cases hs
    · rw [← whole, List.append_nil]
      exact .host host
    · cases hname
  · obtain ⟨hname, -⟩ | ⟨name', front, hname, scheme, rfl, long⟩ := splitScheme_cases hs
    · cases hname
    · cases hname
      exact .full long scheme host ends ht

theorem reads_of_ofText {s : String} {u : Uri} {authority : List Char} (h : ofText s = .ok u)
    (hauthority : u.authority = some authority) : Reads s.toList u := by
  unfold ofText ofChars at h
  split at h
  · cases h
  · split at h
    · cases h
    · obtain ⟨t, -, h⟩ := ok_of_bind h
      cases h
      cases hauthority
    · cases h
      cases hauthority
    · rename_i c _ _ hs
      split at h
      · cases h
      · rename_i stays
        obtain ⟨⟨⟩, hc, h⟩ := ok_of_bind h
        cases h
        rw [hs]
        exact .host ⟨by simp, by simpa using stays, hc⟩
    · exact reads_of_ofAuthority h

/-- An address with a host, each part of which may stand where it does. -/
structure WellFormed (u : Uri) : Prop where
  scheme : ∀ name, u.scheme = some name → IsScheme name
  authority : ∃ authority, u.authority = some authority ∧ IsAuthority authority
  target : u.target.Legal

theorem Reads.wellFormed {s : List Char} {u : Uri} (h : Reads s u) : u.WellFormed := by
  cases h with
  | host authority => exact ⟨nofun, ⟨_, rfl, authority⟩, Target.legal_slash⟩
  | full _ scheme authority ends hscan =>
    refine ⟨fun name hname => ?_, ⟨_, rfl, authority⟩, Target.legal_of_scan ends hscan⟩
    cases hname
    exact scheme

/-- The path and the query of an address are not longer than its text. -/
theorem Reads.length_le {s : List Char} {u : Uri} (h : Reads s u) :
    (Utf8.encode u.target.chars).length ≤ (Utf8.encode s).length := by
  cases h with
  | host authority =>
    have filled := List.length_pos_iff.2 authority.filled
    have bytes := Utf8.length_le_length_encode s
    have slash : (Utf8.encode ['/']).length = 1 := by decide
    show (Utf8.encode ['/']).length ≤ _
    omega
  | @full front _ authority rest t long _ _ _ hscan =>
    have bytes := Utf8.length_le_length_encode front
    have later := Utf8.length_encode_le (Target.chars_sublist_of_scan hscan)
    have slash : (Utf8.encode ('/' :: rest)).length = 1 + (Utf8.encode rest).length :=
      Utf8.length_encode_append ['/'] rest
    rw [Utf8.length_encode_append, Utf8.length_encode_append]
    dsimp only
    omega

theorem isTooLong_eq_false {s : List Char} :
    isTooLong s = false ↔ (Utf8.encode s).length ≤ maxLength := by
  simp [isTooLong]

theorem isTooLong_of_ofText {s : String} {u : Uri} (h : ofText s = .ok u) :
    isTooLong s.toList = false := by
  unfold ofText ofChars at h
  split at h
  · cases h
  · rename_i fits
    simpa using fits

/-! ## Addresses as they are written -/

theorem ofAuthority_text {name authority : List Char} {t : Target} (hname : IsScheme name)
    (hauthority : IsAuthority authority) (ht : t.Legal) :
    ofAuthority (name ++ "://".toList ++ (authority ++ t.chars)) =
      .ok ⟨some name, some authority, t⟩ := by
  obtain ⟨more, hmore⟩ := Target.exists_chars_eq ht
  have stays : ∀ c ∈ authority, (!endsAuthority c) = true := by
    intro c hc
    simp [hauthority.ends c hc]
  have ends : Text.Stops (!endsAuthority ·) t.chars := by
    rw [hmore]
    exact Text.stops_cons (by decide)
  have front : (authority ++ t.chars).takeWhile (!endsAuthority ·) = authority :=
    Text.takeWhile_front stays ends
  have back : (authority ++ t.chars).dropWhile (!endsAuthority ·) = t.chars :=
    Text.dropWhile_front stays ends
  have filled : (authority ++ t.chars).isEmpty = false := by simp [hauthority.filled]
  have host : authority.isEmpty = false := by simp [hauthority.filled]
  unfold ofAuthority
  rw [splitScheme_append hname (by simp [hauthority.filled])]
  simp [bind, Except.bind, filled, front, back, host, hauthority.checked, Target.scan_chars ht]

/-- An address of such parts is read as it was written, if it is not too long. -/
theorem ofChars_text {name authority : List Char} {t : Target} (hname : IsScheme name)
    (hauthority : IsAuthority authority) (ht : t.Legal)
    (fits : isTooLong (name ++ "://".toList ++ (authority ++ t.chars)) = false) :
    ofChars (name ++ "://".toList ++ (authority ++ t.chars)) =
      .ok ⟨some name, some authority, t⟩ := by
  have read := ofAuthority_text hname hauthority ht
  have start : ∃ c d more, c ≠ '/' ∧
      name ++ "://".toList ++ (authority ++ t.chars) = c :: d :: more := by
    cases hs : name with
    | nil => exact ⟨':', '/', _, by decide, rfl⟩
    | cons c rest =>
      have noSlash : c ≠ '/' := by
        rintro rfl
        exact (notMem_of_isScheme hname).2 (hs ▸ List.mem_cons_self)
      cases rest with
      | nil => exact ⟨c, ':', _, noSlash, rfl⟩
      | cons d rest => exact ⟨c, d, _, noSlash, rfl⟩
  obtain ⟨c, d, more, hc, htext⟩ := start
  unfold ofChars
  rw [fits]
  rw [htext] at read ⊢
  simp [hc, read]

end Uri
end SignedHttp

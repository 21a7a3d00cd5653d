import SignedHttp.ConnectionString
import SignedHttp.Proofs.Request.Query
import SignedHttp.Proofs.Results
import SignedHttp.Proofs.Text.Blank

/-!
# SignedHttp.Proofs.ConnectionString.Layout

Which texts are connection strings, and what they say (`ConnectionString.ofText_layout`). A text
that writes down pairs of a key and a value (`Writes`), with blanks and line feeds around all parts
and with blank fields in between, is read, and a key has the value that it is given last. So all
that is asked of a connection string depends on neither the blanks nor the order of different keys.
A text is turned down exactly if one of its fields is not blank and has no equals sign.

Blanks around the whole text are taken off first, but that makes no difference, since they are also
taken off around each field (`pieces_eq`).
-/

namespace SignedHttp
namespace ConnectionString

open Text

variable {s piece : List Char} {pair : String × String} {pairs pairs' : List (String × String)}
  {fields : List (List Char)} {key value text : String} {e : Error}

/-- What stands between the semicolons of a text without its line feeds. -/
def fieldsOf (s : List Char) : List (List Char) := (s.filter (· != '\n')).splitOn ';'

/-! ## Texts that write down pairs -/

/-- A key and a value that can stand in a connection string. -/
structure Plain (pair : String × String) : Prop where
  key : ∀ c ∈ pair.1.toList, c ≠ ';' ∧ c ≠ '=' ∧ c ≠ '\n'
  value : ∀ c ∈ pair.2.toList, c ≠ ';' ∧ c ≠ '\n'
  trimmedKey : IsTrimmed pair.1.toList
  trimmedValue : IsTrimmed pair.2.toList

instance (pair : String × String) : Decidable (Plain pair) :=
  decidable_of_iff
    ((pair.1.toList.all fun c => c != ';' && c != '=' && c != '\n') = true ∧
      (pair.2.toList.all fun c => c != ';' && c != '\n') = true ∧
      IsTrimmed pair.1.toList ∧ IsTrimmed pair.2.toList)
    ⟨fun ⟨key, value, first, last⟩ =>
      ⟨by simpa [and_assoc] using key, by simpa using value, first, last⟩,
      fun h => ⟨by simpa [and_assoc] using h.key, by simpa using h.value, h.trimmedKey,
        h.trimmedValue⟩⟩

/-- A field that gives a pair, with blanks around the key and the value. -/
inductive Gives (pair : String × String) : List Char → Prop
  | mk {a b c d : List Char} : Plain pair →
      AllBlank a → AllBlank b → AllBlank c → AllBlank d →
      Gives pair ((a ++ pair.1.toList ++ b) ++ '=' :: (c ++ pair.2.toList ++ d))

/-- Fields that give some pairs in turn, with blank fields before, between and after them. -/
inductive Lays : List (String × String) → List (List Char) → Prop
  | nil : Lays [] []
  | blank {pairs fields field} : AllBlank field → Lays pairs fields → Lays pairs (field :: fields)
  | pair {pair pairs field fields} : Gives pair field → Lays pairs fields →
      Lays (pair :: pairs) (field :: fields)

/-- A text of such fields with semicolons between them. -/
def Writes (pairs : List (String × String)) (text : String) : Prop :=
  ∃ fields, Lays pairs fields ∧ text = String.ofList ([';'].intercalate fields)

/-- The value that a key is given last. -/
def IsLast (key value : String) (pairs : List (String × String)) : Prop :=
  ∃ before after, pairs = before ++ (key, value) :: after ∧ ∀ pair ∈ after, pair.1 ≠ key

/-! ## Line feeds -/

theorem filter_intercalate (p : Char → Bool) {sep : Char} (hp : p sep = true)
    (pieces : List (List Char)) :
    ([sep].intercalate pieces).filter p = [sep].intercalate (pieces.map (List.filter p)) := by
  induction pieces with
  | nil => rfl
  | cons piece pieces ih =>
    cases pieces with
    | nil => simp
    | cons next rest =>
      have kept : [sep].filter p = [sep] := by simp [hp]
      rw [List.intercalate_cons_cons, List.filter_append, List.filter_append, ih, kept]
      simp [List.intercalate_cons_cons]

theorem filter_eq_self_of_free (h : ∀ c ∈ s, c ≠ '\n') : s.filter (· != '\n') = s :=
  List.filter_eq_self.2 fun c hc => by simpa using h c hc

theorem Gives.filter {field : List Char} (h : Gives pair field) :
    Gives pair (field.filter (· != '\n')) := by
  obtain ⟨plain, ha, hb, hc, hd⟩ := h
  have key := filter_eq_self_of_free fun c hc => (plain.key c hc).2.2
  have value := filter_eq_self_of_free fun c hc => (plain.value c hc).2
  rw [List.filter_append, List.filter_append, List.filter_append, List.filter_cons_of_pos (by decide),
    List.filter_append, List.filter_append, key, value]
  exact .mk plain (allBlank_filter _ ha) (allBlank_filter _ hb) (allBlank_filter _ hc)
    (allBlank_filter _ hd)

theorem Lays.filter (h : Lays pairs fields) :
    Lays pairs (fields.map (List.filter (· != '\n'))) := by
  induction h with
  | nil => exact .nil
  | blank hblank _ ih => exact .blank (allBlank_filter _ hblank) ih
  | pair hgives _ ih => exact .pair hgives.filter ih

/-! ## The pieces of a text -/

theorem semicolon_notMem (h : AllBlank s) : ';' ∉ s := h.notMem (by decide)

theorem equals_notMem (h : AllBlank s) : '=' ∉ s := h.notMem (by decide)

/-- Blanks around a text are blanks around its first and its last field. -/
theorem map_trim_splitOn {front back : List Char} (hfront : AllBlank front) (hback : AllBlank back)
    (s : List Char) :
    ((front ++ s ++ back).splitOn ';').map trim = (s.splitOn ';').map trim := by
  by_cases h : ';' ∈ s
  · obtain ⟨first, rest, rfl, free⟩ := List.eq_append_cons_of_mem h
    have whole : front ++ (first ++ ';' :: rest) ++ back =
        (front ++ first) ++ ';' :: ([] ++ rest ++ back) := by simp
    have start : trim (front ++ first) = trim first := by
      simpa using trim_surround hfront allBlank_nil first
    rw [whole, List.splitOn_append_cons_self_of_not_mem (by simp [free, semicolon_notMem hfront]),
      List.splitOn_append_cons_self_of_not_mem free, List.map_cons, List.map_cons, start,
      map_trim_splitOn allBlank_nil hback rest]
  · rw [List.splitOn_eq_singleton (by simp [h, semicolon_notMem hfront, semicolon_notMem hback]),
      List.splitOn_eq_singleton h, List.map_singleton, List.map_singleton,
      trim_surround hfront hback]
termination_by s.length

theorem pieces_eq (s : List Char) :
    pieces s = ((fieldsOf s).map trim).filter fun piece => !piece.isEmpty := by
  obtain ⟨front, back, hfront, hback, whole⟩ := exists_trim s
  have same := map_trim_splitOn (allBlank_filter (· != '\n') hfront)
    (allBlank_filter (· != '\n') hback) ((trim s).filter (· != '\n'))
  rw [← List.filter_append, ← List.filter_append, ← whole] at same
  unfold pieces fieldsOf
  rw [same]

theorem mem_pieces : piece ∈ pieces s ↔ ∃ field ∈ fieldsOf s, ¬ AllBlank field ∧ trim field = piece := by
  rw [pieces_eq, List.mem_filter, List.mem_map]
  constructor
  · rintro ⟨⟨field, hfield, rfl⟩, filled⟩
    refine ⟨field, hfield, fun blank => ?_, rfl⟩
    simp [trim_eq_nil_iff.2 blank] at filled
  · rintro ⟨field, hfield, filled, rfl⟩
    exact ⟨⟨field, hfield, rfl⟩, by simpa [trim_eq_nil_iff] using filled⟩

/-! ## Reading what is written -/

theorem Gives.free {field : List Char} (h : Gives pair field) : ';' ∉ field := by
  obtain ⟨plain, ha, hb, hc, hd⟩ := h
  have key : ';' ∉ pair.1.toList := fun hmem => (plain.key ';' hmem).1 rfl
  have value : ';' ∉ pair.2.toList := fun hmem => (plain.value ';' hmem).1 rfl
  simp [key, value, semicolon_notMem ha, semicolon_notMem hb, semicolon_notMem hc, semicolon_notMem hd]

theorem Lays.free (h : Lays pairs fields) : ∀ field ∈ fields, ';' ∉ field := by
  induction h with
  | nil => simp
  | blank hblank _ ih => exact List.forall_mem_cons.2 ⟨semicolon_notMem hblank, ih⟩
  | pair hgives _ ih => exact List.forall_mem_cons.2 ⟨hgives.free, ih⟩

/-- A field is cut at its equals sign, and the blanks around the two parts are taken off. -/
theorem Gives.field_trim {f : List Char} (h : Gives pair f) : field (trim f) = .ok pair := by
  obtain @⟨a, b, c, d, plain, ha, hb, hc, hd⟩ := h
  have noEquals : '=' ∉ trimStart (a ++ pair.1.toList ++ b) := by
    have key : '=' ∉ pair.1.toList := fun hmem => (plain.key '=' hmem).2.1 rfl
    have front : '=' ∉ a ++ pair.1.toList ++ b := by simp [key, equals_notMem ha, equals_notMem hb]
    exact fun hmem => front ((List.dropWhile_sublist _).subset hmem)
  have key : trim (a ++ pair.1.toList ++ b) = pair.1.toList := by
    rw [trim_surround ha hb, trim_of_isTrimmed plain.trimmedKey]
  have value : trim (c ++ pair.2.toList ++ d) = pair.2.toList := by
    rw [trim_surround hc hd, trim_of_isTrimmed plain.trimmedValue]
  rw [field, trim_append_cons (by decide), cut?_append noEquals]
  simp only [trim_trimStart, trim_trimEnd, key, value, String.ofList_toList]

theorem Gives.filled {f : List Char} (h : Gives pair f) : (trim f).isEmpty = false := by
  have equals : '=' ∈ trim f := by
    obtain ⟨-, -, -, -, -⟩ := h
    exact (mem_trim_iff (by decide)).2 (by simp)
  exact List.isEmpty_eq_false_iff.2 (List.ne_nil_of_mem equals)

theorem Lays.mapM_field (h : Lays pairs fields) :
    ((fields.map trim).filter fun piece => !piece.isEmpty).mapM field = .ok pairs := by
  induction h with
  | nil => rfl
  | blank hblank _ ih =>
    rw [List.map_cons, List.filter_cons_of_neg (by simp [trim_eq_nil_iff.2 hblank])]
    exact ih
  | pair hgives _ ih =>
    rw [List.map_cons, List.filter_cons_of_pos (by simp [hgives.filled]), List.mapM_cons,
      hgives.field_trim, ih]
    rfl

theorem Lays.fieldsOf_intercalate (h : Lays pairs fields) (hne : fields ≠ []) :
    fieldsOf ([';'].intercalate fields) = fields.map (List.filter (· != '\n')) := by
  rw [fieldsOf, filter_intercalate _ (by decide)]
  exact List.splitOn_intercalate ';' h.filter.free (by simpa using hne)

theorem ofText_of_writes (h : Writes pairs text) : ofText text = .ok ⟨pairs⟩ := by
  obtain ⟨fields, lays, rfl⟩ := h
  have read : (pieces ([';'].intercalate fields)).mapM field = .ok pairs := by
    by_cases hne : fields = []
    · subst hne
      cases lays
      rfl
    · rw [pieces_eq, lays.fieldsOf_intercalate hne]
      exact lays.filter.mapM_field
  rw [ofText, String.toList_ofList, read]
  rfl

/-! ## What is asked of a connection string -/

theorem get?_eq_some_iff {c : ConnectionString} :
    c.get? key = some value ↔ IsLast key value c.fields := by
  rw [get?, List.lookup_eq_some_iff]
  constructor
  · rintro ⟨before, after, whole, others⟩
    refine ⟨after.reverse, before.reverse, ?_, fun pair hpair => ?_⟩
    · simpa using congrArg List.reverse whole
    · have other := others pair (List.mem_reverse.1 hpair)
      exact fun heq => by simp [heq] at other
  · rintro ⟨before, after, whole, others⟩
    refine ⟨after.reverse, before.reverse, by simp [whole], fun pair hpair => ?_⟩
    have other := others pair (List.mem_reverse.1 hpair)
    simpa using other.symm

theorem lookup_filter (key : String) (pairs : List (String × String)) :
    (pairs.filter fun pair => pair.1 = key).lookup key = pairs.lookup key := by
  induction pairs with
  | nil => rfl
  | cons pair pairs ih =>
    obtain ⟨k, value⟩ := pair
    by_cases hk : k = key
    · simp [hk]
    · rw [List.filter_cons_of_neg (by simpa using hk), ih, List.lookup_cons,
        beq_eq_false_iff_ne.2 (Ne.symm hk)]

/-- Pairs in another order, but the same for each key. -/
def Reordered (pairs pairs' : List (String × String)) : Prop :=
  ∀ key, (pairs.filter fun pair => pair.1 = key) = pairs'.filter fun pair => pair.1 = key

theorem get?_of_reordered (h : Reordered pairs pairs') (key : String) :
    get? ⟨pairs⟩ key = get? ⟨pairs'⟩ key := by
  rw [get?, get?, ← lookup_filter, List.filter_reverse, h key, ← List.filter_reverse, lookup_filter]

/-- Connection strings that say the same. -/
structure SaysSame (c c' : ConnectionString) : Prop where
  accountName : c.accountName = c'.accountName
  accountKey : c.accountKey = c'.accountKey
  sasToken : c.sasToken = c'.sasToken
  credential : c.credential = c'.credential

theorem saysSame_of_get? {c c' : ConnectionString} (h : ∀ key, c.get? key = c'.get? key) :
    SaysSame c c' := by
  have getOr (key development : String) : c.getOr key development = c'.getOr key development := by
    rw [ConnectionString.getOr, ConnectionString.getOr, isDevelopment, isDevelopment, h, h]
  have accountName : c.accountName = c'.accountName := getOr _ _
  have accountKey : c.accountKey = c'.accountKey := getOr _ _
  have sasToken : c.sasToken = c'.sasToken := h _
  have given : c.given? = c'.given? := by
    rw [given?, given?, accountName, accountKey, sasToken]
  exact ⟨accountName, accountKey, sasToken, by rw [credential, credential, given]⟩

/-! ## Texts that are turned down -/

theorem field_eq_error_iff : field piece = .error e ↔
    '=' ∉ piece ∧ e = { cause := .fieldWithoutValue (String.ofList piece) } := by
  rw [← cut?_eq_none_iff, field]
  cases cut? '=' piece with
  | none => simp [fails, eq_comm]
  | some parts => simp

theorem ofText_eq_error {text : String} (h : ofText text = .error e) :
    ∃ piece ∈ pieces text.toList, field piece = .error e :=
  mapM_eq_error (bind_pure_eq_error.1 h)

theorem exists_error_iff {text : String} : (∃ e, ofText text = .error e) ↔
    ∃ f ∈ fieldsOf text.toList, ¬ AllBlank f ∧ '=' ∉ f := by
  constructor
  · rintro ⟨e, he⟩
    obtain ⟨piece, hpiece, hf⟩ := ofText_eq_error he
    obtain ⟨f, hmem, filled, rfl⟩ := mem_pieces.1 hpiece
    exact ⟨f, hmem, filled, fun hc => (field_eq_error_iff.1 hf).1 ((mem_trim_iff (by decide)).2 hc)⟩
  · rintro ⟨f, hmem, filled, noEquals⟩
    cases h : ofText text with
    | error e => exact ⟨e, rfl⟩
    | ok c =>
      -- the field would have been read on the way
      obtain ⟨pairs, hread, -⟩ := ok_of_bind h
      obtain ⟨pair, hpair⟩ := ok_of_mem_mapM hread (trim f) (mem_pieces.2 ⟨f, hmem, filled, rfl⟩)
      have bad : field (trim f) = .error _ :=
        field_eq_error_iff.2 ⟨fun hc => noEquals ((mem_trim_iff (by decide)).1 hc), rfl⟩
      rw [bad] at hpair
      cases hpair

/-- A text that writes down pairs is read, and a key has the value that it is given last; all that
is asked of it is the same for any text that writes down the same pairs, or the pairs in another
order of the keys. Any text is turned down exactly if one of its fields is not blank and has no
equals sign; the error is about the configuration and names such a field. -/
theorem ofText_layout :
    (∀ pairs text, Writes pairs text → ∃ c, ofText text = .ok c ∧
      (∀ key value, c.get? key = some value ↔ IsLast key value pairs) ∧
      ∀ pairs' text', Writes pairs' text' → Reordered pairs pairs' →
        ∃ c', ofText text' = .ok c' ∧ SaysSame c c') ∧
    ∀ text,
      ((∃ e, ofText text = .error e) ↔
        ∃ f ∈ fieldsOf text.toList, ¬ AllBlank f ∧ '=' ∉ f) ∧
      ∀ e, ofText text = .error e → e.kind = .configInvalid ∧
        ∃ f ∈ fieldsOf text.toList, '=' ∉ f ∧
          e = { cause := .fieldWithoutValue (String.ofList (trim f)) } := by
  refine ⟨fun pairs text writes => ?_, fun text => ⟨exists_error_iff, fun e he => ?_⟩⟩
  · refine ⟨⟨pairs⟩, ofText_of_writes writes, fun key value => get?_eq_some_iff, ?_⟩
    intro pairs' text' writes' reordered
    exact ⟨⟨pairs'⟩, ofText_of_writes writes', saysSame_of_get? (get?_of_reordered reordered)⟩
  · obtain ⟨piece, hpiece, hf⟩ := ofText_eq_error he
    obtain ⟨f, hmem, -, rfl⟩ := mem_pieces.1 hpiece
    obtain ⟨noEquals, rfl⟩ := field_eq_error_iff.1 hf
    exact ⟨rfl, f, hmem, fun hc => noEquals ((mem_trim_iff (by decide)).2 hc), rfl⟩

/-- The name of an account twice, and a key with padding. -/
def twiceNamed : List (String × String) :=
  [("AccountName", "a"), ("AccountKey", "a2V5=="), ("AccountName", "b")]

/-- The pairs on lines of their own, with a blank field and spaces around equals signs. -/
def onLines : String := "\n AccountName = a;\t;\n AccountKey=a2V5==;\n AccountName =b\n"

theorem writes_onLines : Writes twiceNamed onLines := by
  have plain : ∀ pair ∈ twiceNamed, Plain pair := by decide +kernel
  have feed : AllBlank ['\n', ' '] := by decide
  have space : AllBlank [' '] := by decide
  have first : Gives ("AccountName", "a") _ :=
    .mk (plain _ (by decide)) feed space space allBlank_nil
  have second : Gives ("AccountKey", "a2V5==") _ :=
    .mk (plain _ (by decide)) feed allBlank_nil allBlank_nil allBlank_nil
  have third : Gives ("AccountName", "b") _ :=
    .mk (plain _ (by decide)) feed space allBlank_nil (by decide : AllBlank ['\n'])
  have blank : AllBlank ['\t'] := by decide
  exact ⟨_, .pair first (.blank blank (.pair second (.pair third .nil))), by decide +kernel⟩

/-- The second name counts, wherever the key stands. -/
theorem onLines_layout : ∃ c, ofText onLines = .ok c ∧ c.get? "AccountName" = some "b" ∧
    ∀ text, Writes [("AccountName", "a"), ("AccountName", "b"), ("AccountKey", "a2V5==")] text →
      ∃ c', ofText text = .ok c' ∧ SaysSame c c' := by
  obtain ⟨c, hc, last, same⟩ := ofText_layout.1 twiceNamed onLines writes_onLines
  have reordered : Reordered twiceNamed
      [("AccountName", "a"), ("AccountName", "b"), ("AccountKey", "a2V5==")] := by
    intro key
    by_cases name : key = "AccountName"
    · rw [name]
      decide
    · simp [twiceNamed, List.filter_cons, Ne.symm name]
  have second : IsLast "AccountName" "b" twiceNamed := ⟨twiceNamed.take 2, [], rfl, by simp⟩
  exact ⟨c, hc, (last _ _).2 second, fun text writes => same _ text writes reordered⟩

end ConnectionString
end SignedHttp

import Mathlib.Tactic.IntervalCases
import SignedHttp.Proofs.Text.Reader
import SignedHttp.Proofs.Time.Reachable
import SignedHttp.Proofs.Time.Stamp
import SignedHttp.Reading

/-!
# SignedHttp.Proofs.Time.HttpDate

What is written as an HTTP date is read as the instant it was written for (`httpDate_of_written`).

The texts of the three forms are `mailChars`, `dashedChars` and `listingChars`; the text of a `Date`
header is the first of them with the zone `+0000` (`chars_eq`). For each form there are two steps.
Its reader takes the fields of the instant (`Instant.stamp`) from its text, reader by reader and
part by part (`mail_mailChars`, `dashed_dashedChars`, `listing_listingChars`), and the fields name
the instant (`Instant.instant?_stamp`). The readers of earlier forms fail right after the short name
of the day of the week, where only the mail form has a comma and only the dashed form more letters
(`mail_none`, `dashed_listingChars`).
-/

namespace SignedHttp
namespace HttpDate

open Text Text.Reader

/-! ## Texts in the three forms -/

/-- A time of day as clocks show it: a leap second is second 60. -/
def exactClock (t : Instant) : List Char :=
  two t.hour ++ [':'] ++ two t.minute ++ [':'] ++ two t.stamp.second

/-- The mail form with some zone: `Sun, 06 Nov 1994 08:49:37 GMT`. -/
def mailChars (zone : List Char) (t : Instant) : List Char :=
  weekdayName t ++ [',', ' '] ++ two t.date.day ++ [' '] ++ monthName t.date.month ++ [' '] ++
    yearText t.date.year ++ [' '] ++ exactClock t ++ [' '] ++ zone

/-- What the full name of the day of the week adds to the short one. -/
def weekdayEnding (t : Instant) : List Char :=
  (Date.weekdayEndings.getD (Date.weekday t.day) "").toList

/-- The dashed form: `Sunday, 06-Nov-94 08:49:37 GMT`. -/
def dashedChars (t : Instant) : List Char :=
  weekdayName t ++ weekdayEnding t ++ [',', ' '] ++ two t.date.day ++ ['-'] ++
    monthName t.date.month ++ ['-'] ++ two (t.date.year % 100).toNat ++ [' '] ++ exactClock t ++
    [' '] ++ ['G', 'M', 'T']

/-- A day of the month in two characters, the first of them a blank before the tenth. -/
def spaced (day : Nat) : List Char := if day < 10 then ' ' :: padded 1 day else two day

/-- The listing form: `Sun Nov  6 08:49:37 1994`. -/
def listingChars (t : Instant) : List Char :=
  weekdayName t ++ [' '] ++ monthName t.date.month ++ [' '] ++ spaced t.date.day ++ [' '] ++
    exactClock t ++ [' '] ++ yearText t.date.year

/-! ## The parts of a text -/

variable {t : Instant} {rest : List Char}

theorem day_le (t : Instant) : t.date.day ≤ 31 := by
  have real : t.date.isReal = true := Date.isReal_ofDays t.day
  have short : Date.daysInMonth t.date.year t.date.month ≤ 31 := by
    unfold Date.daysInMonth
    repeat' split
    all_goals decide
  simp only [Date.isReal, Bool.and_eq_true, decide_eq_true_eq] at real
  omega

/-- Every number but the year has two digits. -/
theorem two_digits (t : Instant) :
    t.date.day < 100 ∧ t.hour < 100 ∧ t.minute < 100 ∧ t.stamp.second < 100 := by
  have := day_le t
  have := t.hour_le
  have := t.minute_le
  have := t.stamp_second_le
  omega

theorem digits_two {n least : Nat} (h : n < 100) (hleast : least ≤ 2) :
    digits least 2 (two n ++ rest) = some (n, rest) :=
  digits_padded (by decide) h hleast (by decide) (.inl rfl)

theorem stops_two (n : Nat) (rest : List Char) : Stops isBlank (two n ++ rest) :=
  stops_padded (fun _ => isBlank_of_isDigit) 2 n rest

/-- Years from 0 on are written without a sign. -/
theorem yearText_eq (h : 0 ≤ t.date.year) : yearText t.date.year = padded 4 t.date.year.natAbs :=
  if_neg (by omega)

theorem isBlank_of_mem_yearText {c : Char} (h : 0 ≤ t.date.year)
    (hc : c ∈ yearText t.date.year) : isBlank c = false := by
  rw [yearText_eq h] at hc
  exact isBlank_of_isDigit (isDigit_of_mem_padded hc)

theorem yearText_ne_nil (h : 0 ≤ t.date.year) : yearText t.date.year ≠ [] := by
  rw [yearText_eq h]
  exact padded_ne_nil 4 _

/-- The names of the days of the week are apart from each other and from blanks. -/
theorem weekday_names : ∀ i < 7, (Date.weekdayNames.getD i "").toList.length = 3 ∧
    Date.weekdayNames.findIdx? (fun other =>
      sameLetters other.toList (Date.weekdayNames.getD i "").toList) = some i ∧
    (Date.weekdayNames.getD i "").toList.all (!isBlank ·) = true := by
  decide

/-- The names of the months are apart from each other and from blanks. -/
theorem month_names : ∀ i < 12, (Date.monthNames.getD i "").toList.length = 3 ∧
    Date.monthNames.findIdx? (fun other =>
      sameLetters other.toList (Date.monthNames.getD i "").toList) = some i ∧
    (Date.monthNames.getD i "").toList.all (!isBlank ·) = true := by
  decide

theorem weekday_weekdayName (t : Instant) (rest : List Char) :
    weekday (weekdayName t ++ rest) = some (Date.weekday t.day, rest) := by
  obtain ⟨hlength, hplace, -⟩ := weekday_names _ (names t).1
  exact oneOf_name hlength hplace rest

theorem month_monthName (t : Instant) (rest : List Char) :
    month (monthName t.date.month ++ rest) = some (t.date.month, rest) := by
  obtain ⟨-, low, high⟩ := names t
  obtain ⟨hlength, hplace, -⟩ := month_names (t.date.month - 1) (Nat.sub_one_lt_of_le low high)
  rw [month, monthName, next (oneOf_name hlength hplace rest), Nat.sub_add_cancel low]
  rfl

theorem stops_weekdayName (t : Instant) (rest : List Char) :
    Stops isBlank (weekdayName t ++ rest) := by
  obtain ⟨hlength, -, letters⟩ := weekday_names _ (names t).1
  exact stops_append (List.ne_nil_of_length_eq_add_one hlength) (noBlanks letters)

theorem stops_monthName (t : Instant) (rest : List Char) :
    Stops isBlank (monthName t.date.month ++ rest) := by
  obtain ⟨-, low, high⟩ := names t
  obtain ⟨hlength, -, letters⟩ := month_names (t.date.month - 1) (Nat.sub_one_lt_of_le low high)
  exact stops_append (List.ne_nil_of_length_eq_add_one hlength) (noBlanks letters)

/-- The full names go on with a letter. -/
theorem exists_weekdayEnding (t : Instant) : ∃ c more, weekdayEnding t = c :: more ∧
    (c == ',') = false ∧ ' '.toLower ≠ c.toLower := by
  have letters : ∀ i < 7, ∃ c more, (Date.weekdayEndings.getD i "").toList = c :: more ∧
      (c == ',') = false ∧ ' '.toLower ≠ c.toLower := by
    intro i hi
    interval_cases i <;> exact ⟨_, _, rfl, by decide, by decide⟩
  exact letters _ (names t).1

theorem stops_exactClock (t : Instant) (rest : List Char) :
    Stops isBlank (exactClock t ++ rest) := by
  simp only [exactClock, List.append_assoc]
  exact stops_two _ _

theorem clock_exactClock (t : Instant) (rest : List Char) :
    clock (exactClock t ++ rest) = some ((t.hour, t.minute, t.stamp.second), rest) := by
  obtain ⟨-, hour, minute, second⟩ := two_digits t
  simp only [exactClock, List.append_assoc, List.cons_append, List.nil_append]
  rw [clock, next (blanks_stops (stops_two _ _)), next (digits_two hour (by decide)),
    next (char_cons ':' _), next (blanks_stops (stops_two _ _)),
    next (digits_two minute (by decide)), next (char_cons ':' _),
    next (blanks_stops (stops_two _ _)), next (digits_two second (by decide))]
  rfl

/-! ## The mail form -/

theorem mailWeekday_weekdayName (t : Instant) (rest : List Char) :
    mailWeekday (weekdayName t ++ ',' :: rest) = some (some (Date.weekday t.day), rest) := by
  rw [mailWeekday, next (attempt_some (weekday_weekdayName t _)), Option.isSome_some, if_pos rfl,
    next (char_cons ',' rest)]
  rfl

/-- The mail form has a comma after the short name of the day of the week. -/
theorem mail_none (t : Instant) (h : Stops (· == ',') rest) :
    mail (weekdayName t ++ rest) = none := by
  have comma : mailWeekday (weekdayName t ++ rest) = none := by
    rw [mailWeekday, next (attempt_some (weekday_weekdayName t _)), Option.isSome_some, if_pos rfl,
      next_none (char_stops h)]
  rw [mail, next (blanks_stops (stops_weekdayName t _)), next_none comma]

theorem mailSecond_two {n : Nat} (h : n < 100) (rest : List Char) :
    mailSecond (':' :: (two n ++ rest)) = some (n, rest) := by
  have colon : (do blanks; char ':' : Reader Unit) (':' :: (two n ++ rest)) =
      some ((), two n ++ rest) := by
    rw [next (blanks_stops (stops_cons (by decide))), char_cons]
  rw [mailSecond, next (attempt_some colon), Option.isSome_some, if_pos rfl,
    digits_two h (by decide)]

/-- Years of four digits and more mean what they say. -/
theorem mailYear_eq (h : 0 ≤ t.date.year) :
    (mailYear (padded 4 t.date.year.natAbs).length t.date.year.natAbs : Int) = t.date.year := by
  have long := le_length_padded 4 t.date.year.natAbs
  rw [mailYear, if_neg (by omega), if_neg (by omega)]
  omega

/-- A word for the zone of Greenwich. -/
structure Greenwich (name : List Char) : Prop where
  reads : zone name = some (0, [])
  ne_nil : name ≠ []
  letters : ∀ c ∈ name, isBlank c = false

theorem greenwich_gmt : Greenwich ['G', 'M', 'T'] := ⟨rfl, by decide, noBlanks rfl⟩

theorem greenwich_zeros : Greenwich ['+', '0', '0', '0', '0'] := ⟨rfl, by decide, noBlanks rfl⟩

theorem mail_mailChars {name : List Char} (hyear : 0 ≤ t.date.year) (hname : Greenwich name) :
    mail (mailChars name t) = some (t.stamp, []) := by
  obtain ⟨day, hour, minute, second⟩ := two_digits t
  have colon (rest) : Stops isBlank (':' :: rest) := stops_cons (by decide)
  have stopsYear (rest) : Stops isBlank (yearText t.date.year ++ rest) :=
    stops_append (yearText_ne_nil hyear) fun _ => isBlank_of_mem_yearText hyear
  have year (rest) : numeral 2 (yearText t.date.year ++ ' ' :: rest) =
      some (((padded 4 t.date.year.natAbs).length, t.date.year.natAbs), ' ' :: rest) := by
    rw [yearText_eq hyear]
    exact numeral_padded (by decide) (stops_cons (by decide))
  simp only [mailChars, exactClock, List.append_assoc, List.cons_append, List.nil_append]
  rw [mail, next (blanks_stops (stops_weekdayName t _)), next (mailWeekday_weekdayName t _),
    next (blanks_space (stops_two _ _)), next (digits_two day (by decide)),
    next (blanks1_space (stops_monthName t _)), next (month_monthName t _),
    next (blanks1_space (stopsYear _)), next (year _)]
  dsimp only
  rw [next (blanks1_space (stops_two _ _)), next (digits_two hour (by decide)),
    next (blanks_stops (colon _)), next (char_cons ':' _), next (blanks_stops (stops_two _ _)),
    next (digits_two minute (by decide)), next (mailSecond_two second _),
    next (blanks1_space (stops_of_forall hname.letters)), next hname.reads, mailYear_eq hyear]
  rfl

/-! ## The dashed form -/

theorem weekdayInFull_ending (t : Instant) (rest : List Char) :
    weekdayInFull (weekdayName t ++ (weekdayEnding t ++ rest)) =
      some (Date.weekday t.day, rest) := by
  rw [weekdayInFull, next (weekday_weekdayName t _), ← weekdayEnding,
    next (attempt_some (anyCase_append _ rest))]
  rfl

theorem weekdayInFull_short (t : Instant) (rest : List Char) :
    weekdayInFull (weekdayName t ++ ' ' :: rest) = some (Date.weekday t.day, ' ' :: rest) := by
  obtain ⟨c, more, hending, -, letter⟩ := exists_weekdayEnding t
  have ending : attempt (anyCase (weekdayEnding t)) (' ' :: rest) = some (none, ' ' :: rest) := by
    rw [hending]
    exact attempt_none (anyCase_cons_none letter rest)
  rw [weekdayInFull, next (weekday_weekdayName t _), ← weekdayEnding, next ending]
  rfl

/-- Two digits are enough for a hundred years. -/
theorem century (h : 1970 ≤ t.date.year) (h' : t.date.year ≤ 2069) :
    (if (t.date.year % 100).toNat < 70 then ((t.date.year % 100).toNat : Int) + 2000
      else (t.date.year % 100).toNat + 1900) = t.date.year := by
  split <;> omega

theorem dashed_dashedChars (h : 1970 ≤ t.date.year) (h' : t.date.year ≤ 2069) :
    dashed (dashedChars t) = some (t.stamp, []) := by
  obtain ⟨day, -, -, -⟩ := two_digits t
  have year : (t.date.year % 100).toNat < 100 := by omega
  have greenwich : literal "GMT".toList ['G', 'M', 'T'] = some ((), []) := rfl
  simp only [dashedChars, List.append_assoc, List.cons_append, List.nil_append]
  rw [dashed, next (weekdayInFull_ending t _), next (char_cons ',' _),
    next (blanks_space (stops_two _ _)), next (digits_two day (by decide)), next (char_cons '-' _),
    next (month_monthName t _), next (char_cons '-' _), next (blanks_stops (stops_two _ _)),
    next (digits_two year (by decide)), next (blanks_space (stops_exactClock t _)),
    next (clock_exactClock t _)]
  dsimp only
  rw [next (blanks_space (stops_cons (by decide))), next greenwich, century h h']
  rfl

/-! ## The listing form -/

/-- The day is read with or without the blank before it. -/
theorem spaced_day (t : Instant) (rest : List Char) : ∃ shown,
    blanks (' ' :: (spaced t.date.day ++ ' ' :: rest)) = some ((), shown) ∧
      digits 1 2 shown = some (t.date.day, ' ' :: rest) := by
  obtain ⟨day, -, -, -⟩ := two_digits t
  have digit := stops_padded (fun _ => isBlank_of_isDigit) 1 t.date.day (' ' :: rest)
  by_cases h : t.date.day < 10
  · refine ⟨padded 1 t.date.day ++ ' ' :: rest, ?_, ?_⟩
    · rw [spaced, if_pos h]
      exact blanks_space digit
    · exact digits_padded (by decide) h (by decide) (by decide) (.inr (stops_cons (by decide)))
  · refine ⟨two t.date.day ++ ' ' :: rest, ?_, digits_two day (by decide)⟩
    rw [spaced, if_neg h]
    exact blanks_space (stops_two _ _)

theorem listingYear_yearText (h : 0 ≤ t.date.year) (h' : t.date.year ≤ 9999) :
    listingYear (yearText t.date.year) = some (t.date.year, []) := by
  have noSign : Stops (fun c => c == '+' || c == '-') (padded 4 t.date.year.natAbs ++ []) := by
    refine stops_padded (fun c hc => ?_) 4 _ []
    rw [Bool.or_eq_false_iff, beq_eq_false_iff_ne, beq_eq_false_iff_ne]
    constructor <;> rintro rfl <;> exact absurd hc (by decide)
  have year : digits 1 4 (padded 4 t.date.year.natAbs ++ []) = some (t.date.year.natAbs, []) :=
    digits_padded (by decide) (show t.date.year.natAbs < 10000 by omega) (by decide) (by decide)
      (.inl rfl)
  have same : (t.date.year.natAbs : Int) = t.date.year := by omega
  rw [yearText_eq h, ← List.append_nil (padded _ _), listingYear,
    next (attempt_none (charIf_stops noSign))]
  dsimp only
  rw [next year, same]
  rfl

theorem listing_listingChars (h : 0 ≤ t.date.year) (h' : t.date.year ≤ 9999) :
    listing (listingChars t) = some (t.stamp, []) := by
  simp only [listingChars, List.append_assoc, List.cons_append, List.nil_append]
  obtain ⟨shown, hblanks, hday⟩ := spaced_day t (exactClock t ++ ' ' :: yearText t.date.year)
  rw [listing, next (weekday_weekdayName t _), next (blanks_space (stops_monthName t _)),
    next (month_monthName t _), next hblanks, next hday, next (blanks_space (stops_exactClock t _)),
    next (clock_exactClock t _)]
  dsimp only
  rw [next (blanks_space (stops_of_forall fun _ => isBlank_of_mem_yearText h)),
    next (listingYear_yearText h h')]
  rfl

/-! ## Earlier forms -/

theorem mail_dashedChars (t : Instant) : mail (dashedChars t) = none := by
  obtain ⟨c, more, hending, comma, -⟩ := exists_weekdayEnding t
  simp only [dashedChars, hending, List.append_assoc, List.cons_append]
  exact mail_none t (stops_cons comma)

theorem mail_listingChars (t : Instant) : mail (listingChars t) = none := by
  simp only [listingChars, List.append_assoc, List.cons_append]
  exact mail_none t (stops_cons (by decide))

theorem dashed_listingChars (t : Instant) : dashed (listingChars t) = none := by
  simp only [listingChars, List.append_assoc, List.cons_append]
  rw [dashed, next (weekdayInFull_short t _), next_none (char_stops (stops_cons (by decide)))]

theorem inForm_none {form : Reader Stamp} {s : List Char} (h : form s = none) :
    inForm form s = none := by
  rw [inForm, all_none h, Option.bind_none]

/-! ## Whole texts -/

theorem inForm_stamp {form : Reader Stamp} {s : List Char} (h : form s = some (t.stamp, []))
    (hwhole : t.IsWhole) : inForm form s = some t := by
  rw [inForm, all_eq h, Option.bind_some, Instant.instant?_stamp hwhole]

theorem ofChars?_mailChars {name : List Char} (hwhole : t.IsWhole) (hyear : 0 ≤ t.date.year)
    (hname : Greenwich name) : ofChars? (mailChars name t) = some t := by
  rw [ofChars?, inForm_stamp (mail_mailChars hyear hname) hwhole, Option.some_or]

theorem ofChars?_dashedChars (hwhole : t.IsWhole) (h : 1970 ≤ t.date.year)
    (h' : t.date.year ≤ 2069) : ofChars? (dashedChars t) = some t := by
  rw [ofChars?, inForm_none (mail_dashedChars t), inForm_stamp (dashed_dashedChars h h') hwhole,
    Option.none_or, Option.some_or]

theorem ofChars?_listingChars (hwhole : t.IsWhole) (h : 0 ≤ t.date.year)
    (h' : t.date.year ≤ 9999) : ofChars? (listingChars t) = some t := by
  rw [ofChars?, inForm_none (mail_listingChars t), inForm_none (dashed_listingChars t),
    inForm_stamp (listing_listingChars h h') hwhole, Option.none_or, Option.none_or]

theorem trim_mailChars {name : List Char} (hname : Greenwich name) (t : Instant) :
    trim (mailChars name t) = mailChars name t := by
  refine trim_eq_self ?_ hname.ne_nil hname.letters
  simp only [List.append_assoc]
  exact stops_weekdayName t _

theorem trim_dashedChars (t : Instant) : trim (dashedChars t) = dashedChars t := by
  refine trim_eq_self ?_ greenwich_gmt.ne_nil greenwich_gmt.letters
  simp only [List.append_assoc]
  exact stops_weekdayName t _

theorem trim_listingChars (h : 0 ≤ t.date.year) : trim (listingChars t) = listingChars t := by
  refine trim_eq_self ?_ (yearText_ne_nil h) fun _ => isBlank_of_mem_yearText h
  simp only [List.append_assoc]
  exact stops_weekdayName t _

/-- What is written of an instant is written of its whole seconds. -/
theorem chars_eq (t : Instant) : chars t = mailChars ['+', '0', '0', '0', '0'] t.whole := rfl

theorem ofText?_text (h : 0 ≤ t.date.year) : ofText? (text t) = some t.whole := by
  have year : 0 ≤ t.whole.date.year := h
  rw [ofText?, text, String.toList_ofList, chars_eq, trim_mailChars greenwich_zeros,
    ofChars?_mailChars t.isWhole_whole year greenwich_zeros]

/-- The text of an instant in the mail form, as servers write it. -/
def mailText (t : Instant) : String := String.ofList (mailChars ['G', 'M', 'T'] t)

def dashedText (t : Instant) : String := String.ofList (dashedChars t)

def listingText (t : Instant) : String := String.ofList (listingChars t)

theorem httpDate_eq_ok {s : String} : Reading.httpDate s = .ok t ↔ ofText? s = some t := by
  unfold Reading.httpDate Reading.orFail
  split <;> simp_all [fails]

/-- Dates are read as they were written. The `Date` header of an instant gives its whole seconds,
for every year that is written without a sign. The three forms of a date give the instant itself if
it is a whole second and its year fits into the digits of the form, since each of them is read by no
form before its own. -/
theorem httpDate_of_written (t : Instant) :
    (0 ≤ t.date.year → Reading.httpDate (text t) = .ok t.whole) ∧
    (t.IsWhole → 0 ≤ t.date.year → t.date.year ≤ 9999 →
      Reading.httpDate (mailText t) = .ok t ∧ Reading.httpDate (listingText t) = .ok t) ∧
    (t.IsWhole → 1970 ≤ t.date.year → t.date.year ≤ 2069 →
      Reading.httpDate (dashedText t) = .ok t) ∧
    inForm mail (dashedChars t) = none ∧
    inForm mail (listingChars t) = none ∧ inForm dashed (listingChars t) = none := by
  refine ⟨?header, ?four, ?two, inForm_none (mail_dashedChars t), inForm_none (mail_listingChars t),
    inForm_none (dashed_listingChars t)⟩
  case header =>
    intro h
    exact httpDate_eq_ok.2 (ofText?_text h)
  case four =>
    intro hwhole h h'
    constructor
    · rw [httpDate_eq_ok, ofText?, mailText, String.toList_ofList, trim_mailChars greenwich_gmt]
      exact ofChars?_mailChars hwhole h greenwich_gmt
    · rw [httpDate_eq_ok, ofText?, listingText, String.toList_ofList, trim_listingChars h]
      exact ofChars?_listingChars hwhole h h'
  case two =>
    intro hwhole h h'
    rw [httpDate_eq_ok, ofText?, dashedText, String.toList_ofList, trim_dashedChars]
    exact ofChars?_dashedChars hwhole h h'

theorem httpDate_of_november :
    let t : Instant := ⟨784111777, 0, by decide, by decide⟩
    Reading.httpDate "Sun, 06 Nov 1994 08:49:37 +0000" = .ok t ∧
    Reading.httpDate "Sun, 06 Nov 1994 08:49:37 GMT" = .ok t ∧
    Reading.httpDate "Sun Nov  6 08:49:37 1994" = .ok t ∧
    Reading.httpDate "Sunday, 06-Nov-94 08:49:37 GMT" = .ok t := by
  intro t
  have texts : text t = "Sun, 06 Nov 1994 08:49:37 +0000" ∧
      mailText t = "Sun, 06 Nov 1994 08:49:37 GMT" ∧ listingText t = "Sun Nov  6 08:49:37 1994" ∧
      dashedText t = "Sunday, 06-Nov-94 08:49:37 GMT" := by decide +kernel
  obtain ⟨header, four, two, -⟩ := httpDate_of_written t
  obtain ⟨mail, listing⟩ := four (by decide) (by decide) (by decide)
  have dashed := two (by decide) (by decide) (by decide)
  rw [texts.1] at header
  rw [texts.2.1] at mail
  rw [texts.2.2.1] at listing
  rw [texts.2.2.2] at dashed
  exact ⟨header (by decide), mail, listing, dashed⟩

end HttpDate
end SignedHttp

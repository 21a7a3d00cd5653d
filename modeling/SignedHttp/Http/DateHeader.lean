import SignedHttp.Http.Header
import SignedHttp.Time.HttpDate

/-!
# SignedHttp.Http.DateHeader

Every instant has a value for the `Date` header: its text holds nothing but digits, letters, blanks
and a few signs (`all_chars`), all of which a header value may hold.
-/

namespace SignedHttp
namespace HttpDate

open Header

theorem isValueChar_of_isDigit {c : Char} (h : c.isDigit = true) : isValueChar c = true := by
  simp only [Char.isDigit, Bool.and_eq_true, decide_eq_true_eq] at h
  have low : 48 ≤ c.toNat := h.1
  have high : c.toNat ≤ 57 := h.2
  simp only [isValueChar, Bool.or_eq_true, Bool.and_eq_true, decide_eq_true_eq, bne_iff_ne]
  right
  omega

theorem all_padded (width n : Nat) : (Text.padded width n).all isValueChar = true :=
  List.all_eq_true.2 fun _ h => isValueChar_of_isDigit (Text.isDigit_of_mem_padded h)

theorem all_name {names : List String}
    (legal : (names.all fun s => s.toList.all isValueChar) = true) (i : Nat) :
    (names.getD i "").toList.all isValueChar = true := by
  rw [List.getD_eq_getElem?_getD]
  cases h : names[i]? with
  | none => rfl
  | some s => exact List.all_eq_true.1 legal s (List.mem_of_getElem? h)

theorem all_yearText (year : Int) : (yearText year).all isValueChar = true := by
  unfold yearText
  split
  · rw [List.all_cons, all_padded]
    rfl
  · exact all_padded _ _

theorem all_clockText (t : Instant) : (clockText t).all isValueChar = true := by
  have colon : [':'].all isValueChar = true := rfl
  simp only [clockText, two, List.all_append, all_padded, colon, Bool.and_self]

theorem all_chars (t : Instant) : (chars t).all isValueChar = true := by
  have blank : [' '].all isValueChar = true := rfl
  have comma : [',', ' '].all isValueChar = true := rfl
  have zone : ['+', '0', '0', '0', '0'].all isValueChar = true := rfl
  have weekday : (weekdayName t).all isValueChar = true := all_name rfl _
  have month : (monthName t.date.month).all isValueChar = true := all_name rfl _
  simp only [chars, two, List.all_append, all_padded, all_yearText, all_clockText, blank, comma,
    zone, weekday, month, Bool.and_self]

def value (t : Instant) : Header.Value :=
  .ofText (text t) (by rw [text, String.toList_ofList, all_encode, all_chars])

end HttpDate
end SignedHttp

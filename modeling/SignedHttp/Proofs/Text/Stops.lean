/-!
# SignedHttp.Proofs.Text.Stops

Where a scan for characters of some kind ends: in front of a text that does not begin with one
(`Stops`). What stands before such a text is scanned as if nothing followed.
-/

namespace SignedHttp
namespace Text

variable {p : Char → Bool} {c : Char} {s front rest : List Char}

/-- A text that does not begin with a character of some kind. -/
def Stops (p : Char → Bool) (s : List Char) : Prop := ∀ c ∈ s.head?, p c = false

theorem stops_iff : Stops p s ↔ s.head?.all (!p ·) = true := by
  cases s <;> simp [Stops]

theorem stops_cons (h : p c = false) : Stops p (c :: s) := by
  intro d hd
  cases hd
  exact h

theorem stops_append (hne : front ≠ []) (h : ∀ c ∈ front, p c = false) :
    Stops p (front ++ rest) := by
  cases front with
  | nil => exact absurd rfl hne
  | cons c front => exact stops_cons (h c (.head _))

theorem stops_of_forall (h : ∀ c ∈ s, p c = false) : Stops p s := by
  intro c hc
  exact h c (List.mem_of_mem_head? hc)

theorem takeWhile_append_stops (h : Stops p rest) (s : List Char) :
    (s ++ rest).takeWhile p = s.takeWhile p := by
  induction s with
  | nil =>
    cases rest with
    | nil => rfl
    | cons c rest => exact List.takeWhile_cons_of_neg (by simp [h c rfl])
  | cons d s ih => cases hd : p d <;> simp [hd, ih]

theorem dropWhile_append_stops (h : Stops p rest) (s : List Char) :
    (s ++ rest).dropWhile p = s.dropWhile p ++ rest := by
  induction s with
  | nil =>
    cases rest with
    | nil => rfl
    | cons c rest => exact List.dropWhile_cons_of_neg (by simp [h c rfl])
  | cons d s ih => cases hd : p d <;> simp [hd, ih]

theorem dropWhile_of_stops (h : Stops p s) : s.dropWhile p = s := dropWhile_append_stops h []

theorem takeWhile_front (hfront : ∀ c ∈ front, p c = true) (h : Stops p rest) :
    (front ++ rest).takeWhile p = front := by
  rw [List.takeWhile_append_of_pos hfront, ← List.nil_append rest, takeWhile_append_stops h]
  exact List.append_nil front

theorem dropWhile_front (hfront : ∀ c ∈ front, p c = true) (h : Stops p rest) :
    (front ++ rest).dropWhile p = rest := by
  rw [List.dropWhile_append_of_pos hfront, dropWhile_of_stops h]

theorem append_inj_of_stops {front' rest' : List Char} (hfront : ∀ c ∈ front, p c = true)
    (hfront' : ∀ c ∈ front', p c = true) (hstop : Stops p rest) (hstop' : Stops p rest')
    (h : front ++ rest = front' ++ rest') : front = front' ∧ rest = rest' := by
  have same : front = front' := by
    rw [← takeWhile_front hfront hstop, h, takeWhile_front hfront' hstop']
  rw [same] at h
  exact ⟨same, List.append_cancel_left h⟩

end Text
end SignedHttp

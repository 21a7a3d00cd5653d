import Mathlib.Data.List.Forall2

/-!
# SignedHttp.Proofs.Results

Computations that give a value or an error. One that gives a value has run every step to its end
(`ok_of_bind`), and on a list it has given one value for each member (`mapM_eq_ok`, `mapM_eq_some`);
one that fails on a list fails as it does on some member (`mapM_eq_error`). Two that differ in one
member of a list differ in the value for that one (`mapM_of_split`).
-/

namespace SignedHttp

variable {α β ε : Type}

/-! ## Lists that are related member by member -/

section Related

variable {R S : α → β → Prop} {xs : List α} {ys : List β}

theorem exists_of_mem (h : List.Forall₂ R xs ys) : ∀ y ∈ ys, ∃ x ∈ xs, R x y := by
  induction h with
  | nil => simp
  | @cons x y xs ys hxy _ ih =>
    intro z hz
    rcases List.mem_cons.1 hz with rfl | hz
    · exact ⟨x, List.mem_cons_self, hxy⟩
    · obtain ⟨x', hx', hR⟩ := ih z hz
      exact ⟨x', List.mem_cons_of_mem _ hx', hR⟩

theorem exists_of_forall₂ (h : List.Forall₂ R xs ys) (h' : List.Forall₂ S xs ys) :
    ∀ x ∈ xs, ∃ y, R x y ∧ S x y := by
  induction h with
  | nil => simp
  | @cons x y xs ys hxy _ ih =>
    cases h' with
    | cons hxy' htail =>
      intro z hz
      rcases List.mem_cons.1 hz with rfl | hz
      · exact ⟨y, hxy, hxy'⟩
      · exact ih htail z hz

theorem eq_map_of_forall₂ {g : α → β} (h : List.Forall₂ R xs ys)
    (hg : ∀ x y, R x y → y = g x) : ys = xs.map g := by
  induction h with
  | nil => rfl
  | cons hxy _ ih => rw [List.map_cons, ← ih, hg _ _ hxy]

end Related

/-! ## Steps and lists of steps -/

theorem eq_ok_of_toOption {x : Except ε α} {a : α} (h : x.toOption = some a) : x = .ok a := by
  cases x <;> cases h
  rfl

theorem exists_of_isOk {x : Except ε α} (h : x.isOk = true) : ∃ a, x = .ok a := by
  cases x with
  | error e => cases h
  | ok a => exact ⟨a, rfl⟩

theorem ok_of_bind {x : Except ε α} {f : α → Except ε β} {b : β} (h : (x >>= f) = .ok b) :
    ∃ a, x = .ok a ∧ f a = .ok b := by
  cases x with
  | error e => cases h
  | ok a => exact ⟨a, rfl, h⟩

/-- A computation with which no step that can fail is taken afterwards. -/
theorem bind_pure_eq_error {x : Except ε α} {f : α → β} {e : ε} :
    (x >>= fun a => pure (f a)) = .error e ↔ x = .error e := by
  cases x with
  | error e' =>
    constructor <;> rintro ⟨⟩ <;> rfl
  | ok a => exact ⟨nofun, nofun⟩

theorem mapM_eq_ok {f : α → Except ε β} {xs : List α} {ys : List β} (h : xs.mapM f = .ok ys) :
    List.Forall₂ (fun x y => f x = .ok y) xs ys := by
  induction xs generalizing ys with
  | nil =>
    cases h
    exact .nil
  | cons x xs ih =>
    rw [List.mapM_cons] at h
    obtain ⟨y, hx, h⟩ := ok_of_bind h
    obtain ⟨rest, hxs, h⟩ := ok_of_bind h
    cases h
    exact .cons hx (ih hxs)

theorem mapM_eq_some {f : α → Option β} {xs : List α} {ys : List β} (h : xs.mapM f = some ys) :
    List.Forall₂ (fun x y => f x = some y) xs ys := by
  induction xs generalizing ys with
  | nil =>
    cases h
    exact .nil
  | cons x xs ih =>
    rw [List.mapM_cons] at h
    obtain ⟨y, hx, h⟩ := Option.bind_eq_some_iff.1 h
    obtain ⟨rest, hxs, h⟩ := Option.bind_eq_some_iff.1 h
    cases h
    exact .cons hx (ih hxs)

theorem ok_of_mem_mapM {f : α → Except ε β} {xs : List α} {ys : List β} (h : xs.mapM f = .ok ys) :
    ∀ x ∈ xs, ∃ y, f x = .ok y := by
  intro x hx
  obtain ⟨y, hy, -⟩ := exists_of_forall₂ (mapM_eq_ok h) (mapM_eq_ok h) x hx
  exact ⟨y, hy⟩

theorem mapM_eq_error {f : α → Except ε β} {xs : List α} {e : ε} (h : xs.mapM f = .error e) :
    ∃ x ∈ xs, f x = .error e := by
  induction xs with
  | nil => cases h
  | cons x xs ih =>
    rw [List.mapM_cons] at h
    cases hx : f x with
    | error e' =>
      rw [hx] at h
      cases h
      exact ⟨x, List.mem_cons_self, hx⟩
    | ok y =>
      rw [hx] at h
      cases hxs : xs.mapM f with
      | error e' =>
        rw [hxs] at h
        cases h
        obtain ⟨x', hx', hf⟩ := ih hxs
        exact ⟨x', List.mem_cons_of_mem x hx', hf⟩
      | ok ys =>
        rw [hxs] at h
        cases h

theorem mapM_of_agree {f g : α → Except ε β} {xs : List α} (same : ∀ x ∈ xs, g x = f x) :
    xs.mapM g = xs.mapM f := by
  induction xs with
  | nil => rfl
  | cons x xs ih =>
    rw [List.mapM_cons, List.mapM_cons, same x List.mem_cons_self,
      ih fun y hy => same y (List.mem_cons_of_mem x hy)]

/-- Where two functions agree on all members of a list but one, so do their results. -/
theorem mapM_of_split {f g : α → Except ε β} {before after : List α} {a : α} {ys : List β}
    (same : ∀ x ∈ before ++ after, g x = f x) (h : (before ++ a :: after).mapM f = .ok ys) :
    ∃ front y back, f a = .ok y ∧ ys = front ++ y :: back ∧
      (before ++ a :: after).mapM g = (g a).map fun z => front ++ z :: back := by
  have hbefore : before.mapM g = before.mapM f :=
    mapM_of_agree fun x hx => same x (List.mem_append_left _ hx)
  have hafter : after.mapM g = after.mapM f :=
    mapM_of_agree fun x hx => same x (List.mem_append_right _ hx)
  rw [List.mapM_append, List.mapM_cons] at h
  obtain ⟨front, hfront, h⟩ := ok_of_bind h
  obtain ⟨rest, hrest, h⟩ := ok_of_bind h
  obtain ⟨y, hy, hrest⟩ := ok_of_bind hrest
  obtain ⟨back, hback, hrest⟩ := ok_of_bind hrest
  cases hrest
  cases h
  refine ⟨front, y, back, hy, rfl, ?_⟩
  rw [List.mapM_append, List.mapM_cons, hbefore, hafter, hfront, hback]
  cases g a <;> rfl

end SignedHttp

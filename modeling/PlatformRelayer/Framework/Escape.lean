import Mathlib.Data.List.Basic

/-!
# Lists joined by a separator that is doubled inside them

`joinEscaped sep a b` is `a`, the separator and `b`, with every separator in `a`
and in `b` written twice. The separators that `a` ends in and those that `b`
begins with form one run with the one between them, and the run does not say
where in it that one was: two pairs have one join just if each comes from the
other by moving separators across (`joinEscaped_eq_iff`).
-/

namespace PlatformRelayer

variable {α : Type} [DecidableEq α] {sep : α}

def escape (sep : α) (xs : List α) : List α :=
  xs.flatMap fun x => if x = sep then [sep, sep] else [x]

def joinEscaped (sep : α) (a b : List α) : List α := escape sep a ++ sep :: escape sep b

/-- The second pair has `n` separators more at the end of its first list, and as
many less at the start of its second. -/
def ShiftedBy (sep : α) (n : Nat) (a b a' b' : List α) : Prop :=
  a' = a ++ List.replicate n sep ∧ b = List.replicate n sep ++ b'

@[simp] theorem escape_nil : escape sep [] = [] := rfl

theorem escape_cons_self (xs : List α) : escape sep (sep :: xs) = sep :: sep :: escape sep xs := by
  simp [escape]

theorem escape_cons_of_ne {x : α} (hx : x ≠ sep)
    (xs : List α) : escape sep (x :: xs) = x :: escape sep xs := by
  simp [escape, hx]

theorem escape_append (xs ys : List α) : escape sep (xs ++ ys) = escape sep xs ++ escape sep ys :=
  List.flatMap_append

/-- An escaped list begins with what the list begins with. -/
theorem escape_cons (sep x : α) (xs : List α) : ∃ ys, escape sep (x :: xs) = x :: ys := by
  by_cases hx : x = sep
  · subst hx
    exact ⟨_, escape_cons_self xs⟩
  · exact ⟨_, escape_cons_of_ne hx xs⟩

/-- What stands behind the same element in two escaped lists. -/
theorem escape_cons_append_inj {x : α} {xs ys us vs : List α}
    (h : escape sep (x :: xs) ++ us = escape sep (x :: ys) ++ vs) :
    escape sep xs ++ us = escape sep ys ++ vs := by
  by_cases hx : x = sep
  · subst hx
    simpa [escape_cons_self] using h
  · simpa [escape_cons_of_ne hx] using h

theorem escape_injective {xs ys : List α} (h : escape sep xs = escape sep ys) : xs = ys := by
  induction xs generalizing ys with
  | nil =>
    cases ys with
    | nil => rfl
    | cons y ys =>
      obtain ⟨zs, hz⟩ := escape_cons sep y ys
      exact absurd (h.trans hz) (by simp)
  | cons x xs ih =>
    obtain ⟨zs, hz⟩ := escape_cons sep x xs
    cases ys with
    | nil => exact absurd (hz.symm.trans h) (by simp)
    | cons y ys =>
      obtain ⟨ws, hw⟩ := escape_cons sep y ys
      obtain rfl : x = y := (List.cons.inj (hz.symm.trans (h.trans hw))).1
      have htail : escape sep xs ++ [] = escape sep ys ++ [] :=
        escape_cons_append_inj (by simpa using h)
      rw [ih (by simpa using htail)]

theorem escape_replicate (n : Nat) :
    escape sep (List.replicate n sep) = List.replicate (2 * n) sep := by
  induction n with
  | zero => rfl
  | succ n ih => rw [List.replicate_succ, escape_cons_self, ih, Nat.mul_succ, List.replicate_succ,
    List.replicate_succ]

/-! ## Joins -/

theorem ShiftedBy.join_eq {n : Nat} {a b a' b' : List α} (h : ShiftedBy sep n a b a' b') :
    joinEscaped sep a b = joinEscaped sep a' b' := by
  obtain ⟨rfl, rfl⟩ := h
  have hrun : sep :: List.replicate (2 * n) sep = List.replicate (2 * n) sep ++ [sep] := by
    rw [← List.replicate_succ, ← List.replicate_succ']
  rw [joinEscaped, joinEscaped, escape_append, escape_append, escape_replicate, List.append_assoc,
    ← List.cons_append, hrun, List.append_assoc, List.singleton_append]

/-- A pair whose first list is empty: its second list begins with the separators
that the other pair has in its first. -/
theorem shiftedBy_of_nil {b a' b' : List α} (h : joinEscaped sep [] b = joinEscaped sep a' b') :
    ∃ n, ShiftedBy sep n [] b a' b' := by
  induction a' generalizing b with
  | nil =>
    have hb : escape sep b = escape sep b' := by simpa [joinEscaped] using h
    exact ⟨0, rfl, by simpa using escape_injective hb⟩
  | cons y ys ih =>
    obtain ⟨zs, hz⟩ := escape_cons sep y ys
    obtain rfl : sep = y := by
      simp only [joinEscaped, hz] at h
      exact (List.cons.inj h).1
    have hb : escape sep b = sep :: joinEscaped sep ys b' := by
      simpa [joinEscaped, escape_cons_self] using h
    cases b with
    | nil => exact absurd hb (by simp)
    | cons x bs =>
      obtain ⟨ws, hw⟩ := escape_cons sep x bs
      obtain rfl : x = sep := (List.cons.inj (hw.symm.trans hb)).1
      rw [escape_cons_self] at hb
      obtain ⟨n, ha', hbs⟩ := ih (b := bs) (by simpa [joinEscaped] using (List.cons.inj hb).2)
      exact ⟨n + 1, by simpa [List.replicate_succ] using ha', by rw [hbs, List.replicate_succ]; rfl⟩

theorem joinEscaped_eq_iff {a b a' b' : List α} : joinEscaped sep a b = joinEscaped sep a' b' ↔
    ∃ n, ShiftedBy sep n a b a' b' ∨ ShiftedBy sep n a' b' a b := by
  constructor
  · intro h
    -- The two first lists agree as long as both have elements.
    induction a generalizing a' with
    | nil =>
      obtain ⟨n, hn⟩ := shiftedBy_of_nil h
      exact ⟨n, .inl hn⟩
    | cons x xs ih =>
      cases a' with
      | nil =>
        obtain ⟨n, hn⟩ := shiftedBy_of_nil h.symm
        exact ⟨n, .inr hn⟩
      | cons y ys =>
        obtain ⟨us, hu⟩ := escape_cons sep x xs
        obtain ⟨vs, hv⟩ := escape_cons sep y ys
        obtain rfl : x = y := by
          simp only [joinEscaped, hu, hv] at h
          exact (List.cons.inj h).1
        obtain ⟨n, ⟨ha, hb⟩ | ⟨ha, hb⟩⟩ := ih (escape_cons_append_inj h)
        · exact ⟨n, .inl ⟨by rw [ha]; rfl, hb⟩⟩
        · exact ⟨n, .inr ⟨by rw [ha]; rfl, hb⟩⟩
  · rintro ⟨n, h | h⟩
    · exact h.join_eq
    · exact h.join_eq.symm

end PlatformRelayer

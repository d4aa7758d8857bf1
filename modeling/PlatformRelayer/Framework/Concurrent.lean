import Mathlib.Logic.Function.Basic
import Mathlib.Logic.Relation
import PlatformRelayer.Framework.Prog

/-!
# Programs that run at the same time

A family of programs works on one state, and any of them may make the next
call (`Turn`). `shared S R p Q s` is `wp` for a program that is not alone:
before each of its calls, and after it has returned, the state may have changed
as `R` allows. If every call changes the state as `R` allows, then what
`shared` says of each program on its own holds in every interleaving of them
(`turns_shared`).
-/

namespace PlatformRelayer.Prog

open Relation

variable {C : Type} {A : C → Type} {α β ε ε' σ ι : Type} {S : Sem C A σ} {R : σ → σ → Prop}

/-- One of the programs makes its next call. -/
inductive Turn [DecidableEq ι] (S : Sem C A σ) : (ι → Prog C A α) × σ → (ι → Prog C A α) × σ →
    Prop where
  | call {ps : ι → Prog C A α} {s : σ} (i : ι) {c : C} {k : A c → Prog C A α} (r : A c) :
    ps i = .call c k → S.adm c r s → Turn S (ps, s) (Function.update ps i (k r), S.next c r s)

/-- Every run of a program returns where `Q` holds from then on, while others
change the state as `R` allows. -/
def shared (S : Sem C A σ) (R : σ → σ → Prop) : Prog C A α → (α → σ → Prop) → σ → Prop
  | .ret a, Q, s => ∀ s', R s s' → Q a s'
  | .call c k, Q, s => ∀ s', R s s' → ∀ r, S.adm c r s' → shared S R (k r) Q (S.next c r s')

variable {p : Prog C A α} {Q Q' : α → σ → Prop} {s s' : σ}

theorem shared.later (hR : ∀ s₁ s₂ s₃, R s₁ s₂ → R s₂ s₃ → R s₁ s₃) (h : shared S R p Q s)
    (hs : R s s') : shared S R p Q s' := by
  cases p with
  | ret a => exact fun s₁ h₁ => h s₁ (hR _ _ _ hs h₁)
  | call c k => exact fun s₁ h₁ => h s₁ (hR _ _ _ hs h₁)

theorem shared.post (h : shared S R p Q s) (hQ : ∀ a s, Q a s → Q' a s) : shared S R p Q' s := by
  induction p generalizing s with
  | ret a => exact fun s' hs => hQ _ _ (h s' hs)
  | call c k ih => exact fun s' hs r hr => ih r (h s' hs r hr)

theorem shared_bind (hR : ∀ s, R s s) {f : α → Prog C A β} {Q : β → σ → Prop}
    (h : shared S R p (fun a s => shared S R (f a) Q s) s) : shared S R (p.bind f) Q s := by
  induction p generalizing s with
  | ret a => exact h s (hR s)
  | call c k ih => exact fun s' hs r hr => ih r (h s' hs r hr)

/-- `x` and then `k`, for a `Q` that an error of `x` meets anyway. -/
theorem shared_attempt (hR : ∀ s, R s s) {x : Prog C A (Except ε α)} {w : ε → ε'}
    {k : α → Prog C A (Except ε' β)} {Q : Except ε' β → σ → Prop} (herr : ∀ e s, Q (.error e) s)
    (h : shared S R x (fun r s => ∀ a, r = .ok a → shared S R (k a) Q s) s) :
    shared S R (attempt x w k) Q s := by
  refine shared_bind hR (h.post fun r s hr => ?_)
  cases r with
  | error e => exact fun s' _ => herr _ s'
  | ok a => exact hr a rfl

/-- What a call is answered, if it is answered. -/
theorem shared_perform {c : C} {Q : A c → σ → Prop}
    (h : ∀ s₁, R s s₁ → ∀ r, S.adm c r s₁ → ∀ s', R (S.next c r s₁) s' → Q r s') :
    shared S R (perform c) Q s :=
  h

/-- A fact that nobody destroys is still there where the program returns. -/
theorem shared.frame (hS : ∀ c r s, S.adm c r s → R s (S.next c r s)) {P : σ → Prop}
    (hP : ∀ s s', R s s' → P s → P s') (h : shared S R p Q s) (hs : P s) :
    shared S R p (fun a s => Q a s ∧ P s) s := by
  induction p generalizing s with
  | ret a => exact fun s' hs' => ⟨h s' hs', hP _ _ hs' hs⟩
  | call c k ih =>
    exact fun s' hs' r hr => ih r (h s' hs' r hr) (hP _ _ (hS _ _ _ hr) (hP _ _ hs' hs))

/-! ## Interleavings -/

/-- A run of one of the programs is an interleaving in which the others wait. -/
theorem Steps.turns [DecidableEq ι] {p' : Prog C A α} (h : Steps S p s p' s')
    (ps : ι → Prog C A α) {i : ι}
    (hi : ps i = p) : ReflTransGen (Turn S) (ps, s) (Function.update ps i p', s') := by
  induction h generalizing ps with
  | refl p s =>
    rw [← hi, Function.update_eq_self]
  | @call c k s s' p' r hr _ ih =>
    have hturn : Turn S (ps, s) (Function.update ps i (k r), S.next c r s) := .call i r hi hr
    have hrest := ih (Function.update ps i (k r)) (Function.update_self ..)
    rw [Function.update_idem] at hrest
    exact .head hturn hrest

section Turns

variable [DecidableEq ι] {x y : (ι → Prog C A α) × σ} (hrefl : ∀ s, R s s)
  (htrans : ∀ s₁ s₂ s₃, R s₁ s₂ → R s₂ s₃ → R s₁ s₃)
  (hS : ∀ c r s, S.adm c r s → R s (S.next c r s))
include hrefl htrans hS

theorem turns_changed (h : ReflTransGen (Turn S) x y) : R x.2 y.2 := by
  induction h with
  | refl => exact hrefl _
  | tail _ hy ih =>
    cases hy with
    | call i r _ hr => exact htrans _ _ _ ih (hS _ _ _ hr)

theorem turn_shared (h : Turn S x y) {Q : ι → α → σ → Prop} (hx : ∀ i, shared S R (x.1 i) (Q i) x.2)
    (i : ι) : shared S R (y.1 i) (Q i) y.2 := by
  cases h with
  | @call ps s j c k r hj hr =>
    by_cases hi : i = j
    · subst hi
      have h' := hx i
      simp only [hj] at h'
      simpa using h' s (hrefl s) r hr
    · simpa [Function.update_of_ne hi] using (hx i).later htrans (hS c r s hr)

theorem turns_shared (h : ReflTransGen (Turn S) x y) {Q : ι → α → σ → Prop}
    (hx : ∀ i, shared S R (x.1 i) (Q i) x.2) (i : ι) : shared S R (y.1 i) (Q i) y.2 := by
  induction h generalizing i with
  | refl => exact hx i
  | tail _ hy ih => exact turn_shared hrefl htrans hS hy ih i

/-- A program that has returned did so where its `Q` holds. -/
theorem turns_returned (h : ReflTransGen (Turn S) x y) {Q : ι → α → σ → Prop}
    (hx : ∀ i, shared S R (x.1 i) (Q i) x.2) {i : ι} {a : α} (hi : y.1 i = .ret a) : Q i a y.2 := by
  have hy := turns_shared hrefl htrans hS h hx i
  rw [hi] at hy
  exact hy _ (hrefl _)

end Turns

/-- What `shared` says of a program holds where it returns after a run alone. -/
theorem shared.returned (hrefl : ∀ s, R s s) {a : α} (h : shared S R p Q s)
    (hs : Steps S p s (.ret a) s') : Q a s' := by
  generalize hr : (Prog.ret a : Prog C A α) = p' at hs
  induction hs with
  | refl => subst hr; exact h _ (hrefl _)
  | call r hr' _ ih => exact ih (h _ (hrefl _) r hr') hr

end PlatformRelayer.Prog

import PlatformRelayer.Framework.Concurrent

/-!
# Critical sections

A program that takes a lock, does its work and gives the lock back is `critical`
of its work. In every interleaving of such programs the lock is free, or one of
them is inside (`Held`); so each works as if it were alone. The rule for this is
that of an invariant that belongs to the lock: it holds while the lock is free, and
a section that is entered where it holds, and run alone, leaves it as it found it
(`Held.turns`).
-/

namespace PlatformRelayer

/-- The calls of a section, and those to its lock. -/
inductive LockCall (C : Type) where
  | lock
  | unlock
  | work (c : C)

@[reducible] def LockCall.Ans {C : Type} (A : C → Type) : LockCall C → Type
  | .lock => Unit
  | .unlock => Unit
  | .work c => A c

/-- A state with a lock. -/
structure Locked (σ : Type) where
  taken : Bool
  state : σ

/-- Whoever takes the lock waits until it is free. -/
def Sem.locked {C : Type} {A : C → Type} {σ : Type}
    (S : Sem C A σ) : Sem (LockCall C) (LockCall.Ans A) (Locked σ) where
  adm
    | .lock, _, s => s.taken = false
    | .unlock, _, _ => True
    | .work c, r, s => S.adm c r s.state
  next
    | .lock, _, s => { s with taken := true }
    | .unlock, _, s => { s with taken := false }
    | .work c, r, s => { s with state := S.next c r s.state }

namespace Prog

open Relation

variable {C : Type} {A : C → Type} {α σ ι : Type}

/-- What is left of a section, with the end at which the lock is given back. -/
def inside : Prog C A α → Prog (LockCall C) (LockCall.Ans A) α
  | .ret a => .call .unlock fun _ => .ret a
  | .call c k => .call (.work c) fun r => (k r).inside

def critical (p : Prog C A α) : Prog (LockCall C) (LockCall.Ans A) α :=
  .call .lock fun _ => p.inside

/-- The program waits for the lock, or has given it back. -/
def Outside (p : Prog C A α) (q : Prog (LockCall C) (LockCall.Ans A) α) : Prop :=
  q = p.critical ∨ ∃ a, q = .ret a

theorem not_outside_inside (p q : Prog C A α) : ¬p.Outside q.inside := by
  rintro (h | ⟨a, h⟩)
  · cases q <;> cases h
  · cases q <;> cases h

variable {S : Sem C A σ} {p : ι → Prog C A α} {pre : ι → C → σ → Prop} {I : σ → Prop}

/-- What holds of a lock with the invariant `I`, of the programs that use it and of
the state: either nobody is inside and the invariant holds, or one program is, and
what is left of its section, run alone, leads back to the invariant. -/
inductive Held (S : Sem C A σ) (p : ι → Prog C A α) (pre : ι → C → σ → Prop) (I : σ → Prop) :
    (ι → Prog (LockCall C) (LockCall.Ans A) α) × Locked σ → Prop where
  | free {ps : ι → Prog (LockCall C) (LockCall.Ans A) α} {s : σ} :
    (∀ i, (p i).Outside (ps i)) → I s → Held S p pre I (ps, ⟨false, s⟩)
  | taken {ps : ι → Prog (LockCall C) (LockCall.Ans A) α} {s : σ} (i : ι) {q : Prog C A α} :
    ps i = q.inside → (∀ j, j ≠ i → (p j).Outside (ps j)) → wp S (pre i) q (fun _ s => I s) s →
    Held S p pre I (ps, ⟨true, s⟩)

namespace Held

variable {ps : ι → Prog (LockCall C) (LockCall.Ans A) α} {s : Locked σ}
  {x y : (ι → Prog (LockCall C) (LockCall.Ans A) α) × Locked σ}

/-- The programs in front of a lock that is free. -/
theorem start (p : ι → Prog C A α) {s : σ}
    (hs : I s) : Held S p pre I (fun i => (p i).critical, ⟨false, s⟩) :=
  .free (fun _ => .inl rfl) hs

/-- At most one program is inside. -/
theorem exclusive (h : Held S p pre I (ps, s)) {i j : ι} {q q' : Prog C A α} (hi : ps i = q.inside)
    (hj : ps j = q'.inside) : i = j := by
  cases h with
  | free hout => exact absurd (hi ▸ hout i) (not_outside_inside _ _)
  | taken k hk hout =>
    have hin {i : ι} {q : Prog C A α} (hi : ps i = q.inside) : i = k := by
      by_contra hne
      exact not_outside_inside _ _ (hi ▸ hout i hne)
    rw [hin hi, hin hj]

/-- Where a program makes a call of its section, it finds what it would find
alone. -/
theorem next (h : Held S p pre I (ps, s)) {i : ι} {c : C} (hi : (ps i).next? = some (.work c)) :
    pre i c s.state := by
  have hout {q : Prog (LockCall C) (LockCall.Ans A) α} (hq : (p i).Outside q) :
      q.next? ≠ some (.work c) := by
    rcases hq with rfl | ⟨a, rfl⟩ <;> simp [critical, next?]
  cases h with
  | free hall => exact absurd hi (hout (hall i))
  | @taken _ _ k q hk hall hwp =>
    by_cases hne : i = k
    · subst hne
      rw [hk] at hi
      cases q with
      | ret a => cases hi
      | call c' k' =>
        cases hi
        exact hwp.1
    · exact absurd hi (hout (hall i hne))

variable [DecidableEq ι]

theorem outside_update {i : ι} {q : Prog (LockCall C) (LockCall.Ans A) α}
    (h : ∀ j, j ≠ i → (p j).Outside (ps j)) (j : ι) (hj : j ≠ i) :
    (p j).Outside (Function.update ps i q j) := by
  rw [Function.update_of_ne hj]
  exact h j hj

theorem turn (hwp : ∀ i s, I s → wp S (pre i) (p i) (fun _ s => I s) s) (h : Held S p pre I x)
    (ht : Turn S.locked x y) : Held S p pre I y := by
  cases ht with
  | @call ps s i c k r hi hr =>
  cases h with
  | free hall hs =>
    -- Only one that waits for the lock has a call to make.
    rcases hall i with hq | ⟨a, hq⟩
    · cases hi.symm.trans hq
      exact .taken i (Function.update_self ..) (outside_update fun j _ => hall j) (hwp i _ hs)
    · cases hi.symm.trans hq
  | @taken _ _ j q hj hall hleft =>
    by_cases hij : i = j
    · subst hij
      have hq := hi.symm.trans hj
      cases q with
      | ret a =>
        cases hq
        refine .free (fun j => ?_) hleft
        by_cases hji : j = i
        · subst hji
          exact .inr ⟨a, Function.update_self ..⟩
        · exact outside_update hall j hji
      | call c' k' =>
        cases hq
        exact .taken i (Function.update_self ..) (outside_update hall) (hleft.2 r hr)
    · rcases hall i hij with hq | ⟨a, hq⟩
      · cases hi.symm.trans hq
        cases hr
      · cases hi.symm.trans hq

/-- The rule for critical sections. -/
theorem turns (hwp : ∀ i s, I s → wp S (pre i) (p i) (fun _ s => I s) s) (h : Held S p pre I x)
    (ht : ReflTransGen (Turn S.locked) x y) : Held S p pre I y := by
  induction ht with
  | refl => exact h
  | tail _ hy ih => exact ih.turn hwp hy

end Held

/-! ## Runs of a section -/

theorem next?_inside {p : Prog C A α} {c : C}
    (h : p.next? = some c) : p.inside.next? = some (.work c) := by
  cases p with
  | ret a => cases h
  | call c' k => exact congrArg (Option.map LockCall.work) h

theorem Steps.inside {p p' : Prog C A α} {s s' : σ} (h : Steps S p s p' s') (b : Bool) :
    Steps S.locked p.inside ⟨b, s⟩ p'.inside ⟨b, s'⟩ := by
  induction h with
  | refl p s => exact .refl _ _
  | call r hr _ ih => exact .call r hr ih

/-- A section from its start up to some point of it. -/
theorem Steps.entered {p p' : Prog C A α} {s s' : σ} (h : Steps S p s p' s') :
    Steps S.locked p.critical ⟨false, s⟩ p'.inside ⟨true, s'⟩ :=
  .call () rfl (h.inside true)

/-- A section as a whole. -/
theorem Steps.left {p : Prog C A α} {a : α} {s s' : σ} (h : Steps S p s (.ret a) s') :
    Steps S.locked p.critical ⟨false, s⟩ (.ret a) ⟨false, s'⟩ :=
  h.entered.trans (.call () trivial (.refl _ _))

/-- One program leaves its section before another enters its own. -/
theorem turns_left_entered [DecidableEq ι] {i j : ι} (hij : j ≠ i) {a : α} {q : Prog C A α}
    {s s₁ s₂ : σ} (hi : Steps S (p i) s (.ret a) s₁) (hj : Steps S (p j) s₁ q s₂) :
    ∃ ps, ReflTransGen (Turn S.locked) (fun i => (p i).critical, ⟨false, s⟩) (ps, ⟨true, s₂⟩) ∧
      ps j = q.inside :=
  ⟨_, (hi.left.turns (fun i => (p i).critical) (i := i) rfl).trans
    (hj.entered.turns _ (Function.update_of_ne hij ..)), Function.update_self ..⟩

/-! ## Nobody waits for ever -/

/-- A section that is entered can be left. -/
theorem exists_left (hadm : ∀ c s, ∃ r, S.adm c r s) (q : Prog C A α) (b : Bool) (s : σ) :
    ∃ a s', Steps S.locked q.inside ⟨b, s⟩ (.ret a) ⟨false, s'⟩ := by
  obtain ⟨a, s', hs⟩ := exists_returned hadm q s
  exact ⟨a, s', (hs.inside b).trans (.call () trivial (.refl _ _))⟩

variable [DecidableEq ι] {x : (ι → Prog (LockCall C) (LockCall.Ans A) α) × Locked σ}

/-- Where every call can be answered, every program can get the lock and return. -/
theorem Held.exists_returned (hadm : ∀ c s, ∃ r, S.adm c r s) (h : Held S p pre I x) (i : ι) :
    ∃ y a, ReflTransGen (Turn S.locked) x y ∧ y.1 i = .ret a := by
  -- First the one that is inside leaves.
  have hfree : ∃ y, ReflTransGen (Turn S.locked) x y ∧ y.2.taken = false ∧
      (p i).Outside (y.1 i) := by
    cases h with
    | free hall hs => exact ⟨_, .refl, rfl, hall i⟩
    | @taken ps s j q hj hall _ =>
      obtain ⟨a, s', hs⟩ := exists_left hadm q true s
      refine ⟨_, hs.turns ps hj, rfl, ?_⟩
      by_cases hij : i = j
      · subst hij
        exact .inr ⟨a, Function.update_self ..⟩
      · exact outside_update hall i hij
  obtain ⟨⟨ps, b, s⟩, hx, rfl, hi | ⟨a, hi⟩⟩ := hfree
  · obtain ⟨a, s', hs⟩ := Prog.exists_returned hadm (p i) s
    exact ⟨_, a, hx.trans (hs.left.turns ps hi), Function.update_self ..⟩
  · exact ⟨_, a, hx, hi⟩

end Prog

end PlatformRelayer

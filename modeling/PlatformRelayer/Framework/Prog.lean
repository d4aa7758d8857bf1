import Mathlib.Logic.Basic

/-!
# Programs that make calls

Code that talks to other parties (a database, a node, the clock) is a `Prog`:
it returns a value, or makes a call and goes on with the answer. A `Sem` says
which answers may come and what an answered call does to the state of the
world. `Steps` is a run of a program, up to any point of it, and `wp` what
every run from a state guarantees: `pre` at each call it makes, and `Q` where
it returns (`wp.next`, `wp.returned`).

`attempt` is a call that may fail, with the failure handed on: the sequence
`a, err := x; if err != nil { return nil, w(err) }`.
-/

namespace PlatformRelayer

/-- A program that returns an `α`, after calls `c : C` that are each answered
by an `A c`. -/
inductive Prog (C : Type) (A : C → Type) (α : Type) : Type where
  | ret (a : α)
  | call (c : C) (k : A c → Prog C A α)

namespace Prog

variable {C : Type} {A : C → Type} {α β ε ε' σ τ : Type}

protected def bind : Prog C A α → (α → Prog C A β) → Prog C A β
  | .ret a, f => f a
  | .call c k, f => .call c fun r => (k r).bind f

instance : Monad (Prog C A) where
  pure := .ret
  bind := Prog.bind

/-- The program that makes one call and returns its answer. -/
def perform (c : C) : Prog C A (A c) := .call c .ret

/-- `x` and then `k`, with an error of `x` returned as `w` wraps it. -/
def attempt (x : Prog C A (Except ε α)) (w : ε → ε') (k : α → Prog C A (Except ε' β)) :
    Prog C A (Except ε' β) :=
  x.bind fun
    | .error e => .ret (.error (w e))
    | .ok a => k a

/-- A loop over a list: `f` for each item, on what the one before it
returned. -/
def each (f : β → α → Prog C A α) : List β → α → Prog C A α
  | [], a => .ret a
  | b :: bs, a => (f b a).bind (each f bs)

/-- The call a program makes next, if it has not returned. -/
def next? : Prog C A α → Option C
  | .ret _ => none
  | .call c _ => some c

/-- What a program returned, if it has. -/
def result? : Prog C A α → Option α
  | .ret a => some a
  | .call _ _ => none

theorem result?_eq_some {p : Prog C A α} {a : α} (h : p.result? = some a) : p = .ret a := by
  cases p with
  | ret b => rw [Option.some.inj h]
  | call c k => cases h

end Prog

/-- Which answers to a call may come in a state, and the state after one. -/
structure Sem (C : Type) (A : C → Type) (σ : Type) where
  adm : (c : C) → A c → σ → Prop
  next : (c : C) → A c → σ → σ

namespace Prog

variable {C : Type} {A : C → Type} {α β ε ε' σ τ : Type}

/-- A run of a program from a state, up to some point of it: the program that
is left, and the state there. -/
inductive Steps (S : Sem C A σ) : Prog C A α → σ → Prog C A α → σ → Prop where
  | refl (p : Prog C A α) (s : σ) : Steps S p s p s
  | call {c : C} {k : A c → Prog C A α} {s s' : σ} {p' : Prog C A α} (r : A c) :
    S.adm c r s → Steps S (k r) (S.next c r s) p' s' → Steps S (.call c k) s p' s'

/-- Every run of a program from `s` makes each of its calls where `pre` holds,
and returns where `Q` holds. -/
def wp (S : Sem C A σ) (pre : C → σ → Prop) : Prog C A α → (α → σ → Prop) → σ → Prop
  | .ret a, Q, s => Q a s
  | .call c k, Q, s => pre c s ∧ ∀ r, S.adm c r s → wp S pre (k r) Q (S.next c r s)

variable {S : Sem C A σ} {pre pre' : C → σ → Prop} {p p' : Prog C A α} {Q Q' : α → σ → Prop}
  {s s' : σ}

@[simp] theorem wp_ret {a : α} : wp S pre (.ret a) Q s ↔ Q a s := Iff.rfl

theorem wp_bind {f : α → Prog C A β} {Q : β → σ → Prop} :
    wp S pre (p.bind f) Q s ↔ wp S pre p (fun a s => wp S pre (f a) Q s) s := by
  induction p generalizing s with
  | ret a => rfl
  | call c k ih => exact and_congr_right fun _ => forall_congr' fun r =>
    imp_congr_right fun _ => ih r

theorem wp_attempt {x : Prog C A (Except ε α)} {w : ε → ε'} {k : α → Prog C A (Except ε' β)}
    {Q : Except ε' β → σ → Prop} :
    wp S pre (attempt x w k) Q s ↔ wp S pre x (fun r s =>
      match r with
      | .error e => Q (.error (w e)) s
      | .ok a => wp S pre (k a) Q s) s := by
  rw [attempt, wp_bind]
  refine iff_of_eq (congrArg (fun Q => wp S pre x Q s) ?_)
  funext r s
  cases r <;> rfl

/-- Weaker preconditions at calls and a weaker postcondition. -/
theorem wp.mono (h : wp S pre p Q s) (hpre : ∀ c s, pre c s → pre' c s)
    (hQ : ∀ a s, Q a s → Q' a s) : wp S pre' p Q' s := by
  induction p generalizing s with
  | ret a => exact hQ _ _ h
  | call c k ih => exact ⟨hpre _ _ h.1, fun r hr => ih r (h.2 r hr)⟩

theorem wp.post (h : wp S pre p Q s) (hQ : ∀ a s, Q a s → Q' a s) : wp S pre p Q' s :=
  h.mono (fun _ _ h => h) hQ

theorem wp.and (h : wp S pre p Q s) (h' : wp S pre' p Q' s) :
    wp S (fun c s => pre c s ∧ pre' c s) p (fun a s => Q a s ∧ Q' a s) s := by
  induction p generalizing s with
  | ret a => exact ⟨h, h'⟩
  | call c k ih => exact ⟨⟨h.1, h'.1⟩, fun r hr => ih r (h.2 r hr) (h'.2 r hr)⟩

/-- `wp_attempt` with the two ways to go on as they come up. -/
theorem wp_try {x : Prog C A (Except ε α)} {w : ε → ε'} {k : α → Prog C A (Except ε' β)}
    {Q : Except ε' β → σ → Prop}
    (h : wp S pre x (fun r s => (∀ e, r = .error e → Q (.error (w e)) s) ∧
      ∀ a, r = .ok a → wp S pre (k a) Q s) s) : wp S pre (attempt x w k) Q s := by
  rw [wp_attempt]
  refine h.post fun r s hr => ?_
  cases r with
  | error e => exact hr.1 e rfl
  | ok a => exact hr.2 a rfl

/-- The two ways to go on, where `x` has returned a value. -/
theorem of_ok {a : α} {P : ε → Prop} {R : α → Prop} (h : R a) :
    (∀ e, (.ok a : Except ε α) = .error e → P e) ∧ ∀ b, (.ok a : Except ε α) = .ok b → R b :=
  ⟨by simp, by simpa using h⟩

/-- The two ways to go on, where `x` has returned an error. -/
theorem of_error {e : ε} {P : ε → Prop} {R : α → Prop} (h : P e) :
    (∀ e', (.error e : Except ε α) = .error e' → P e') ∧
      ∀ a, (.error e : Except ε α) = .ok a → R a :=
  ⟨by simpa using h, by simp⟩

/-- The loop rule. The invariant may speak of the items that are left. -/
theorem wp_each {f : β → α → Prog C A α} (I : List β → α → σ → Prop)
    (hf : ∀ b bs a s, I (b :: bs) a s → wp S pre (f b a) (I bs) s) (bs : List β) (a : α)
    (h : I bs a s) : wp S pre (each f bs a) (I []) s := by
  induction bs generalizing a s with
  | nil => exact h
  | cons b bs ih =>
    rw [each, wp_bind]
    exact (hf b bs a s h).post fun a s ha => ih a ha

/-- What is left of a run still guarantees the rest. -/
theorem wp.steps (h : wp S pre p Q s) (hs : Steps S p s p' s') : wp S pre p' Q s' := by
  induction hs with
  | refl => exact h
  | call r hr _ ih => exact ih (h.2 r hr)

theorem wp.next (h : wp S pre p Q s) (hs : Steps S p s p' s') {c : C} (hc : p'.next? = some c) :
    pre c s' := by
  have h' := h.steps hs
  cases p' with
  | ret a => cases hc
  | call c' k => rw [← Option.some.inj hc]; exact h'.1

theorem wp.returned (h : wp S pre p Q s) {a : α} (hs : Steps S p s (.ret a) s') : Q a s' :=
  h.steps hs

/-- Every point of a run is at a call or at the end. -/
theorem wp.point (h : wp S pre p Q s) (hs : Steps S p s p' s') : (∃ c, pre c s') ∨ ∃ a, Q a s' := by
  have h' := h.steps hs
  cases p' with
  | ret a => exact .inr ⟨a, h'⟩
  | call c k => exact .inl ⟨c, h'.1⟩

/-- What holds at each call and where the program returns holds after each
call. -/
theorem wp.after {I : σ → Prop} (h : wp S pre p Q s) (hpre : ∀ c s, pre c s → I s)
    (hQ : ∀ a s, Q a s → I s) :
    wp S (fun c s => pre c s ∧ ∀ r, S.adm c r s → I (S.next c r s)) p Q s := by
  induction p generalizing s with
  | ret a => exact h
  | call c k ih =>
    refine ⟨⟨h.1, fun r hr => ?_⟩, fun r hr => ih r (h.2 r hr)⟩
    rcases (h.2 r hr).point (.refl _ _) with ⟨c', hc'⟩ | ⟨a, ha⟩
    · exact hpre c' _ hc'
    · exact hQ a _ ha

/-- Two semantics of the calls, related by `R`: what holds of every run in the
first holds of every run in the second. -/
theorem wp.simulate {T : Sem C A τ} {preT : C → τ → Prop} {QT : α → τ → Prop} (R : σ → τ → Prop)
    (hadm : ∀ c r s t, R s t → T.adm c r t → S.adm c r s ∧ R (S.next c r s) (T.next c r t))
    (hpre : ∀ c s t, R s t → pre c s → preT c t) (hQ : ∀ a s t, R s t → Q a s → QT a t)
    (h : wp S pre p Q s) {t : τ} (hR : R s t) : wp T preT p QT t := by
  induction p generalizing s t with
  | ret a => exact hQ _ _ _ hR h
  | call c k ih =>
    refine ⟨hpre _ _ _ hR h.1, fun r hr => ?_⟩
    obtain ⟨hr', hR'⟩ := hadm c r s t hR hr
    exact ih r (h.2 r hr') hR'

/-- A run with answers of some kind is one with answers of a wider kind. -/
theorem Steps.widen {adm adm' : (c : C) → A c → σ → Prop} {next : (c : C) → A c → σ → σ}
    (hadm : ∀ c r s, adm c r s → adm' c r s) (h : Steps ⟨adm, next⟩ p s p' s') :
    Steps ⟨adm', next⟩ p s p' s' := by
  induction h with
  | refl => exact .refl _ _
  | call r hr _ ih => exact .call r (hadm _ r _ hr) ih

theorem Steps.trans {p'' : Prog C A α} {s'' : σ} (h₁ : Steps S p s p' s')
    (h₂ : Steps S p' s' p'' s'') : Steps S p s p'' s'' := by
  induction h₁ with
  | refl => exact h₂
  | call r hr _ ih => exact .call r hr (ih h₂)

theorem Steps.bind {f : α → Prog C A β} {q : Prog C A β} {a : α} {s'' : σ}
    (h₁ : Steps S p s (.ret a) s') (h₂ : Steps S (f a) s' q s'') : Steps S (p.bind f) s q s'' := by
  generalize hr : (Prog.ret a : Prog C A α) = p' at h₁
  induction h₁ with
  | refl => subst hr; exact h₂
  | call r hr' _ ih => exact .call r hr' (ih h₂ hr)

/-- A program that has returned makes no more steps. -/
theorem Steps.of_ret {a : α} (h : Steps S (.ret a) s p' s') : p' = .ret a ∧ s' = s := by
  cases h
  exact ⟨rfl, rfl⟩

/-- A run of `p.bind f` that returned is one of `p` that returned, and then one
of what `f` made of it. -/
theorem Steps.of_bind {f : α → Prog C A β} {b : β} (h : Steps S (p.bind f) s (.ret b) s') :
    ∃ a s₁, Steps S p s (.ret a) s₁ ∧ Steps S (f a) s₁ (.ret b) s' := by
  induction p generalizing s with
  | ret a => exact ⟨a, s, .refl _ _, h⟩
  | call c k ih =>
    cases h with
    | call r hr h =>
      obtain ⟨a, s₁, h₁, h₂⟩ := ih r h
      exact ⟨a, s₁, .call r hr h₁, h₂⟩

/-- Where every call can be answered, a program returns. -/
theorem exists_returned (h : ∀ c s, ∃ r, S.adm c r s) (p : Prog C A α) (s : σ) :
    ∃ a s', Steps S p s (.ret a) s' := by
  induction p generalizing s with
  | ret a => exact ⟨a, s, .refl _ _⟩
  | call c k ih =>
    obtain ⟨r, hr⟩ := h c s
    obtain ⟨a, s', hs⟩ := ih r (S.next c r s)
    exact ⟨a, s', .call r hr hs⟩

/-! ## Runs that can be computed -/

/-- The first `n` calls of a program, answered by `ω`. -/
def runN (next : (c : C) → A c → σ → σ)
    (ω : (c : C) → σ → A c) : Nat → Prog C A α → σ → Prog C A α × σ
  | 0, p, s => (p, s)
  | _ + 1, .ret a, s => (.ret a, s)
  | n + 1, .call c k, s => runN next ω n (k (ω c s)) (next c (ω c s) s)

theorem steps_runN {ω : (c : C) → σ → A c} (hω : ∀ c s, S.adm c (ω c s) s) (n : Nat)
    (p : Prog C A α) (s : σ) : Steps S p s (runN S.next ω n p s).1 (runN S.next ω n p s).2 := by
  induction n generalizing p s with
  | zero => exact .refl _ _
  | succ n ih =>
    cases p with
    | ret a => exact .refl _ _
    | call c k => exact .call _ (hω c s) (ih _ _)

/-! ## Programs at a party that does not change -/

/-- What a program returns where every call `c` is answered by `ω c`. -/
def eval (ω : (c : C) → A c) : Prog C A α → α
  | .ret a => a
  | .call c k => (k (ω c)).eval ω

variable {ω : (c : C) → A c}

@[simp] theorem eval_ret (a : α) : (.ret a : Prog C A α).eval ω = a := rfl

@[simp] theorem eval_perform (c : C) : (perform c).eval ω = ω c := rfl

@[simp] theorem eval_bind (p : Prog C A α)
    (f : α → Prog C A β) : (p.bind f).eval ω = (f (p.eval ω)).eval ω := by
  induction p with
  | ret a => rfl
  | call c k ih => exact ih (ω c)

theorem eval_attempt_ok {x : Prog C A (Except ε α)} {a : α} (h : x.eval ω = .ok a) (w : ε → ε')
    (k : α → Prog C A (Except ε' β)) : (attempt x w k).eval ω = (k a).eval ω := by
  rw [attempt, eval_bind, h]

theorem eval_attempt_eq_ok {x : Prog C A (Except ε α)} {w : ε → ε'}
    {k : α → Prog C A (Except ε' β)} {b : β}
    (h : (attempt x w k).eval ω = .ok b) : ∃ a, x.eval ω = .ok a ∧ (k a).eval ω = .ok b := by
  rw [attempt, eval_bind] at h
  cases hx : x.eval ω with
  | error e => rw [hx] at h; cases h
  | ok a => rw [hx] at h; exact ⟨a, rfl, h⟩

end Prog

end PlatformRelayer

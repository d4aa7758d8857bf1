import PlatformRelayer.Framework.Prog

/-!
# Programs on top of others

`through f` runs a program whose calls are each made by a program of `f`. One use
is a program that is part of a larger one, with more calls (`within`). Another is
a party whose next state the answer does not determine: `Sem.rel` has the state in
the answers, and the program does not see it there (`blind`). `wpRel_through` takes
what a program guarantees at its own party to the programs below it.
-/

namespace PlatformRelayer

namespace Prog

variable {C C' : Type} {A : C → Type} {A' : C' → Type} {α β ε ε' σ : Type}

/-- Each call is made by a program. -/
def through (f : (c : C) → Prog C' A' (A c)) : Prog C A α → Prog C' A' α
  | .ret a => .ret a
  | .call c k => (f c).bind fun r => (k r).through f

section Through

variable {f : (c : C) → Prog C' A' (A c)}

theorem bind_assoc {γ : Type} (p : Prog C A α) (g : α → Prog C A β) (h : β → Prog C A γ) :
    (p.bind g).bind h = p.bind fun a => (g a).bind h := by
  induction p with
  | ret a => rfl
  | call c k ih => exact congrArg (Prog.call c) (funext ih)

theorem bind_ret (p : Prog C A α) : p.bind .ret = p := by
  induction p with
  | ret a => rfl
  | call c k ih => exact congrArg (Prog.call c) (funext ih)

@[simp] theorem through_ret (a : α) : (.ret a : Prog C A α).through f = .ret a := rfl

theorem through_bind (p : Prog C A α) (g : α → Prog C A β) :
    (p.bind g).through f = (p.through f).bind fun a => (g a).through f := by
  induction p with
  | ret a => rfl
  | call c k ih =>
    change (f c).bind (fun r => ((k r).bind g).through f) = ((f c).bind _).bind _
    rw [bind_assoc]
    exact congrArg _ (funext ih)

@[simp] theorem through_perform (c : C) : (perform c).through f = f c := bind_ret (f c)

theorem through_attempt (x : Prog C A (Except ε α)) (w : ε → ε') (k : α → Prog C A (Except ε' β)) :
    (attempt x w k).through f = attempt (x.through f) w fun a => (k a).through f := by
  rw [attempt, through_bind]
  refine congrArg (x.through f).bind (funext fun r => ?_)
  cases r <;> rfl

end Through

/-- The calls of the program are some of those of a larger one. -/
abbrev within (g : C → C') (h : (c : C) → A' (g c) → A c) : Prog C A α → Prog C' A' α :=
  through fun c => (perform (g c)).bind fun r => .ret (h c r)

end Prog

/-- A party for which the answer does not say the next state: each answer comes
with the state after it. -/
def Sem.rel {C : Type} {A : C → Type} {σ : Type}
    (R : (c : C) → A c → σ → σ → Prop) : Sem C (fun c => A c × σ) σ where
  adm c r s := R c r.1 s r.2
  next _ r _ := r.2

namespace Prog

variable {C C' : Type} {A : C → Type} {A' : C' → Type} {α β ε ε' σ : Type}

/-- The program sees the answers, and not the states that come with them. -/
def blind (σ : Type) : Prog C A α → Prog C (fun c => A c × σ) α :=
  through fun c => .call c fun r => .ret r.1

/-- `wp` of a program at such a party. -/
abbrev wpRel (R : (c : C) → A c → σ → σ → Prop) (pre : C → σ → Prop) (p : Prog C A α)
    (Q : α → σ → Prop) (s : σ) : Prop :=
  wp (Sem.rel R) pre (p.blind σ) Q s

variable {R : (c : C) → A c → σ → σ → Prop} {pre : C → σ → Prop} {s : σ}

theorem wpRel_perform {c : C} {Q : A c → σ → Prop} :
    wpRel R pre (perform c) Q s ↔ pre c s ∧ ∀ a s', R c a s s' → Q a s' :=
  ⟨fun h => ⟨h.1, fun a s' => h.2 (a, s')⟩, fun h => ⟨h.1, fun r => h.2 r.1 r.2⟩⟩

theorem wpRel_bind {p : Prog C A α} {f : α → Prog C A β} {Q : β → σ → Prop} :
    wpRel R pre (p.bind f) Q s ↔ wpRel R pre p (fun a s => wpRel R pre (f a) Q s) s := by
  rw [wpRel, blind, through_bind, wp_bind]
  rfl

theorem wpRel_try {x : Prog C A (Except ε α)} {w : ε → ε'} {k : α → Prog C A (Except ε' β)}
    {Q : Except ε' β → σ → Prop}
    (h : wpRel R pre x (fun r s => (∀ e, r = .error e → Q (.error (w e)) s) ∧
      ∀ a, r = .ok a → wpRel R pre (k a) Q s) s) : wpRel R pre (attempt x w k) Q s := by
  rw [wpRel, blind, through_attempt]
  exact wp_try h

/-- A program whose calls are made by programs that do what its own party does. -/
theorem wpRel_through {R' : (c : C') → A' c → σ → σ → Prop} {pre' : C' → σ → Prop}
    {f : (c : C) → Prog C' A' (A c)}
    (hf : ∀ c s, pre c s → wpRel R' pre' (f c) (fun a s' => R c a s s') s) {p : Prog C A α}
    {Q : α → σ → Prop} (hp : wpRel R pre p Q s) : wpRel R' pre' (p.through f) Q s := by
  induction p generalizing s with
  | ret a => exact hp
  | call c k ih =>
    refine wpRel_bind.mpr ((hf c s hp.1).post fun a s' ha => ?_)
    exact ih a (hp.2 (a, s') ha)

/-- A program that is part of a larger one, whose party has a part of the state. `I`
is kept of the whole. -/
theorem wpRel_within_get {σ' : Type} {R' : (c : C') → A' c → σ' → σ' → Prop} {pre' : C' → σ' → Prop}
    {g : C → C'} {h : (c : C) → A' (g c) → A c} (get : σ' → σ) (I : σ' → Prop)
    (hR : ∀ c r s s', pre c (get s) → I s → R' (g c) r s s' → R c (h c r) (get s) (get s') ∧ I s')
    (hpre : ∀ c s, pre c (get s) → I s → pre' (g c) s) {p : Prog C A α} {Q : α → σ → Prop} {s : σ'}
    (hp : wpRel R pre p Q (get s)) (hI : I s) :
    wpRel R' pre' (p.within g h) (fun a s' => Q a (get s') ∧ I s') s := by
  induction p generalizing s with
  | ret a => exact ⟨hp, hI⟩
  | call c k ih =>
    change wpRel R' pre' ((perform (g c)).bind fun r => (k (h c r)).within g h) _ s
    refine wpRel_bind.mpr (wpRel_perform.mpr ⟨hpre c s hp.1 hI, fun r s' hr => ?_⟩)
    obtain ⟨hr', hI'⟩ := hR c r s s' hp.1 hI hr
    exact ih _ (hp.2 (h c r, get s') hr') hI'

/-- A program that is part of a larger one meets what its party does there. -/
theorem wpRel_within {R' : (c : C') → A' c → σ → σ → Prop} {pre' : C' → σ → Prop} {g : C → C'}
    {h : (c : C) → A' (g c) → A c} (hR : ∀ c r s s', pre c s → R' (g c) r s s' → R c (h c r) s s')
    (hpre : ∀ c s, pre c s → pre' (g c) s) {p : Prog C A α} {Q : α → σ → Prop}
    (hp : wpRel R pre p Q s) : wpRel R' pre' (p.within g h) Q s :=
  (wpRel_within_get id (fun _ => True) (fun c r s s' hc _ hr => ⟨hR c r s s' hc hr, trivial⟩)
    (fun c s hc _ => hpre c s hc) hp trivial).post fun _ _ hQ => hQ.1

/-- A run that is computed, with answers that may come as long as `I` holds. -/
theorem steps_runN_of {S : Sem C A σ} {I : σ → Prop} {ω : (c : C) → σ → A c}
    (hω : ∀ c s, I s → S.adm c (ω c s) s ∧ I (S.next c (ω c s) s)) (n : Nat) (p : Prog C A α)
    (hs : I s) : Steps S p s (runN S.next ω n p s).1 (runN S.next ω n p s).2 := by
  induction n generalizing p s with
  | zero => exact .refl _ _
  | succ n ih =>
    cases p with
    | ret a => exact .refl _ _
    | call c k =>
      obtain ⟨hadm, hnext⟩ := hω c s hs
      exact .call _ hadm (ih _ hnext)

/-- Every run is also one at another party, whose states go along with those here. -/
theorem wpRel_simulated {τ : Type} {S : Sem C A τ} (sim : τ → σ → Prop)
    (hstep : ∀ c a t s s', sim t s → R c a s s' → S.adm c a t ∧ sim (S.next c a t) s')
    {p p' : Prog C A α} {t t' : τ} (hrun : Steps S p t p' t') (hs : sim t' s) :
    wpRel R (fun c s => ∃ p' t', Steps S p t p' t' ∧ p'.next? = some c ∧ sim t' s) p'
      (fun a s => ∃ t', Steps S p t (.ret a) t' ∧ sim t' s) s := by
  induction p' generalizing s t' with
  | ret a => exact ⟨t', hrun, hs⟩
  | call c k ih =>
    refine ⟨⟨_, t', hrun, rfl, hs⟩, fun r hr => ?_⟩
    obtain ⟨hadm, hsim⟩ := hstep c r.1 t' s r.2 hs hr
    exact ih r.1 (hrun.trans (.call r.1 hadm (.refl _ _))) hsim

end Prog

end PlatformRelayer

import Mathlib.Logic.Basic

/-!
# Runs with a history

A labelled transition relation, and its runs from a state: `Trace step init h s`
says that the events `h`, the last one first, lead from `init` to `s`. What an
initial state has and every step keeps holds in every run (`Trace.invariant`),
and each event of a history was a step of the run before it (`Trace.split`).
-/

namespace PlatformRelayer

variable {σ ε : Type}

/-- A run from `init`, with its history. -/
inductive Trace (step : σ → ε → σ → Prop) (init : σ) : List ε → σ → Prop where
  | start : Trace step init [] init
  | step {h : List ε} {s s' : σ} (e : ε) : Trace step init h s → step s e s' →
    Trace step init (e :: h) s'

namespace Trace

variable {step : σ → ε → σ → Prop} {init s : σ} {h h₁ h₂ : List ε} {e : ε}

/-- The invariant rule. The invariant may speak of the history. -/
theorem invariant (I : List ε → σ → Prop) (hinit : I [] init)
    (hstep : ∀ h s e s', I h s → step s e s' → I (e :: h) s')
    (ht : Trace step init h s) : I h s := by
  induction ht with
  | start => exact hinit
  | step e _ hs ih => exact hstep _ _ e _ ih hs

/-- The run up to some point of a history. -/
theorem earlier (ht : Trace step init (h₂ ++ h₁) s) : ∃ s₁, Trace step init h₁ s₁ := by
  induction h₂ generalizing s with
  | nil => exact ⟨s, ht⟩
  | cons e h₂ ih =>
    cases ht with
    | step _ ht _ => exact ih ht

/-- An event of a history, with the run before it and its step. -/
theorem split (ht : Trace step init (h₂ ++ e :: h₁) s) :
    ∃ s₁ s₂, Trace step init h₁ s₁ ∧ step s₁ e s₂ ∧ Trace step init (e :: h₁) s₂ := by
  obtain ⟨s₂, ht₂⟩ := ht.earlier
  cases ht₂ with
  | step _ ht₁ hs => exact ⟨_, s₂, ht₁, hs, .step e ht₁ hs⟩

end Trace

end PlatformRelayer

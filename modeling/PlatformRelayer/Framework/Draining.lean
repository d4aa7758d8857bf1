import Mathlib.Data.Multiset.DershowitzManna
import PlatformRelayer.Framework.Prog

/-!
# Work that comes to an end

Work on a pool of jobs goes in steps, each of which takes some jobs from the
pool and puts others into it, as many as it likes, but each below one that was
taken. If the jobs are well-founded by `r`, there are finitely many steps
(`wellFounded_replaces`): on multisets this is the Dershowitz-Manna order.

A program is such a job: `Prog.wp_of_forall` says what all that it can return
has in common.
-/

namespace PlatformRelayer

open Relation

variable {α : Type} {r : α → α → Prop}

/-- A step takes `old` from the pool and puts `new` into it. -/
def Replaces (r : α → α → Prop) (pool pool' : List α) : Prop :=
  ∃ old new others, old ≠ [] ∧ pool.Perm (old ++ others) ∧ pool'.Perm (others ++ new) ∧
    ∀ x ∈ new, ∃ y ∈ old, r x y

theorem wellFounded_replaces (hr : WellFounded r) : WellFounded fun pool' pool =>
    Replaces r pool pool' := by
  have hwf : WellFounded (TransGen r) := hr.transGen
  have : IsStrictOrder α (TransGen r) :=
    { irrefl := fun a h => hwf.asymmetric _ _ h h
      trans := fun _ _ _ => TransGen.trans }
  let _ := partialOrderOfSO (TransGen r)
  have : WellFoundedLT α := ⟨hwf⟩
  have hdm := InvImage.wf (fun pool : List α => (pool : Multiset α))
    (Multiset.wellFounded_isDershowitzMannaLT (α := α))
  refine Subrelation.wf ?_ hdm
  rintro pool' pool ⟨old, new, others, hold, hpool, hpool', hnew⟩
  refine ⟨others, new, old, by simpa using hold, ?_, ?_, fun x hx => ?_⟩
  · rw [Multiset.coe_add]
    exact Multiset.coe_eq_coe.mpr hpool'
  · rw [Multiset.coe_add]
    exact Multiset.coe_eq_coe.mpr (hpool.trans List.perm_append_comm)
  · obtain ⟨y, hy, hxy⟩ := hnew x hx
    exact ⟨y, hy, .single hxy⟩

theorem Prog.wp_of_forall {C : Type} {A : C → Type} {σ : Type} {S : Sem C A σ} {Q : α → σ → Prop}
    (hQ : ∀ a s, Q a s) (p : Prog C A α) (s : σ) : wp S (fun _ _ => True) p Q s := by
  induction p generalizing s with
  | ret a => exact hQ a s
  | call c k ih => exact ⟨trivial, fun ans _ => ih ans _⟩

end PlatformRelayer

import Mathlib.Algebra.GroupWithZero.Nat
import Mathlib.Data.Multiset.AddSub
import Mathlib.Logic.Relation
import PlatformRelayer.Ibcv2.Deduper

/-!
# The deduper at work

What holds in every interleaving of calls of `Push` with the pipeline and the
goroutine that takes its outputs. The map is that of the transfers that are on
their way (`one_live_instance`): it changes only under the lock, together with
what is on its way.

`Push` waits for room in the input channel while it has the lock, and the
goroutine needs the lock before it takes the next output. Where every `Push`
finds room when it takes the lock, someone can always go on (`deduper_progress`);
a pipeline that is full of transfers can come to a stop (`exists_deadlock`).
-/

namespace PlatformRelayer.PipelineDeduper

open Relation

variable {P : PipelineModel} {ι : Type} [DecidableEq ι] {transfer : ι → IBCV2Transfer}
  {s s' : Deduper P ι} {a : Act ι}

/-! ## The lock -/

/-- The caller has the lock at this point. -/
def Pc.holds : Pc → Bool
  | .locked | .absent | .pushing | .returning _ => true
  | .idle | .waiting | .done _ => false

def Watch.holds : Watch → Bool
  | .locked _ | .deleted => true
  | .unborn | .polling | .waiting _ => false

@[simp] theorem Watch.holds_spawn (w : Watch) : w.spawn.holds = w.holds := by cases w <;> rfl

/-- Whoever is at a point that needs the lock has it. -/
structure Deduper.Locked (s : Deduper P ι) : Prop where
  push (i : ι) : s.lock = some (.push i) ↔ (s.pushes i).holds = true
  watch : s.lock = some .watch ↔ s.watch.holds = true

/-- A caller goes on without a change of the lock. -/
theorem Deduper.Locked.goto (hs : s.Locked) {i : ι} {pc : Pc} (hi : pc.holds = (s.pushes i).holds)
    (j : ι) : s.lock = some (.push j) ↔ ((s.goto i pc).pushes j).holds = true := by
  by_cases hj : j = i
  · subst hj
    rw [pushes_goto_self, hi, hs.push j]
  · rw [pushes_goto_of_ne _ _ _ hj, hs.push j]

/-- A caller takes the lock, or gives it back. -/
theorem Deduper.Locked.change (hs : s.Locked) {i : ι} {pc : Pc}
    (hl : s.lock = none ∨ s.lock = some (.push i)) :
    Deduper.Locked { s.goto i pc with lock := if pc.holds then some (.push i) else none } := by
  refine ⟨fun j => ?_, ?_⟩
  · by_cases hj : j = i
    · subst hj
      simp
    · have := hs.push j
      rcases hl with hl | hl <;> simp_all [Deduper.pushes_goto_of_ne, Ne.symm hj]
  · have := hs.watch
    rcases hl with hl | hl <;> simp_all

theorem locked_step (h : Step transfer a s s') (hs : s.Locked) : s'.Locked := by
  cases h with
  | call hi => exact ⟨hs.goto (by rw [hi]; rfl), by simpa using hs.watch⟩
  | lock _ hl => exact hs.change (.inl hl)
  | lookUp hi =>
    refine ⟨hs.goto ?_, hs.watch⟩
    rw [hi]
    split <;> rfl
  | mark hi => exact ⟨hs.goto (by rw [hi]; rfl), hs.watch⟩
  | push hi _ => exact ⟨hs.goto (by rw [hi]; rfl), hs.watch⟩
  | unlock hi => exact hs.change (.inr ((hs.push _).mpr (by rw [hi]; rfl)))
  | work _ => exact ⟨hs.push, hs.watch⟩
  | poll hw _ =>
    refine ⟨hs.push, ?_⟩
    have := hs.watch
    simp_all [Watch.holds]
  | watchLock hw hl =>
    refine ⟨fun j => ?_, ?_⟩
    · have := hs.push j
      simp_all
    · simp [Watch.holds]
  | delete hw =>
    refine ⟨hs.push, ?_⟩
    have := hs.watch
    simp_all [Watch.holds]
  | watchUnlock hw =>
    have hl : s.lock = some .watch := hs.watch.mpr (by rw [hw]; rfl)
    refine ⟨fun j => ?_, ?_⟩
    · have := hs.push j
      simp_all
    · simp [Watch.holds]

/-! ## The map -/

/-- The key of the transfer that was marked and is not handed over yet. -/
def Deduper.marked (transfer : ι → IBCV2Transfer) (s : Deduper P ι) : Multiset TransferKey :=
  match s.lock with
  | some (.push i) => if s.pushes i = .pushing then {newTransferKey (transfer i)} else 0
  | _ => 0

/-- The key of the output that the goroutine has not removed yet. -/
def Watch.output : Watch → Multiset TransferKey
  | .waiting t | .locked t => {newTransferKey t}
  | _ => 0

@[simp] theorem Watch.output_spawn (w : Watch) : w.spawn.output = w.output := by cases w <;> rfl

/-- The keys of the transfers that `Push` has accepted and whose output has not
been removed, once for each transfer. -/
def Deduper.live (transfer : ι → IBCV2Transfer) (s : Deduper P ι) : Multiset TransferKey :=
  s.watch.output + (s.marked transfer + P.inside s.pipeline)

/-- The map has each key of a live transfer, and each transfer its own key. -/
structure Deduper.Exact (transfer : ι → IBCV2Transfer)
    (s : Deduper P ι) : Prop extends s.Locked where
  absent (i : ι) : s.pushes i = .absent → newTransferKey (transfer i) ∉ s.inPipeline
  live : s.live transfer = s.inPipeline.val

omit [DecidableEq ι] in
theorem Deduper.marked_of_lock {i : ι} (hl : s.lock = some (.push i)) :
    s.marked transfer = if s.pushes i = .pushing then {newTransferKey (transfer i)} else 0 := by
  rw [marked, hl]

/-- A caller without the lock has marked nothing. -/
theorem Deduper.Locked.marked_goto (hs : s.Locked) {i : ι} (hi : (s.pushes i).holds = false)
    (pc : Pc) : (s.goto i pc).marked transfer = s.marked transfer := by
  cases hl : s.lock with
  | none => simp [marked, hl]
  | some holder =>
    cases holder with
    | watch => simp [marked, hl]
    | push j =>
      have hj : j ≠ i := by
        rintro rfl
        rw [(hs.push j).mp hl] at hi
        cases hi
      simp [marked, hl, pushes_goto_of_ne _ _ _ hj]

/-- A key stays absent, as long as the map does not grow. -/
theorem Deduper.Exact.absent_goto (hs : s.Exact transfer) {i : ι} {pc : Pc}
    (hpc : pc ≠ .absent) (j : ι)
    (hj : (s.goto i pc).pushes j = .absent) : newTransferKey (transfer j) ∉ s.inPipeline := by
  by_cases h : j = i
  · subst h
    rw [pushes_goto_self] at hj
    exact absurd hj hpc
  · rw [pushes_goto_of_ne _ _ _ h] at hj
    exact hs.absent j hj

theorem exact_step (h : Step transfer a s s') (hs : s.Exact transfer) : s'.Exact transfer := by
  have hlocked := locked_step h hs.toLocked
  have hlive := hs.live
  simp only [Deduper.live] at hlive
  cases h with
  | @call _ i hi =>
    refine ⟨hlocked, hs.absent_goto (by simp), ?_⟩
    have hmarked :
        Deduper.marked transfer { s.goto i .waiting with watch := s.watch.spawn } = s.marked
        transfer :=
      hs.marked_goto (by rw [hi]; rfl) .waiting
    rw [Deduper.live, hmarked]
    simpa using hlive
  | @lock _ i hi hl =>
    refine ⟨hlocked, hs.absent_goto (by simp), ?_⟩
    simpa [Deduper.live, Deduper.marked, hl] using hlive
  | @lookUp _ i hi =>
    have hl : s.lock = some (.push i) := (hs.push i).mpr (by rw [hi]; rfl)
    refine ⟨hlocked, fun j hj => ?_, ?_⟩
    · by_cases h : j = i
      · subst h
        rw [Deduper.pushes_goto_self] at hj
        split at hj
        · cases hj
        · assumption
      · rw [Deduper.pushes_goto_of_ne _ _ _ h] at hj
        exact hs.absent j hj
    · have hpc : (if newTransferKey (transfer i) ∈ s.inPipeline then Pc.returning false
          else .absent) ≠ .pushing := by
        split <;> simp
      simpa [Deduper.live, Deduper.marked, hl, hi, hpc] using hlive
  | @mark _ i hi =>
    have hl : s.lock = some (.push i) := (hs.push i).mpr (by rw [hi]; rfl)
    have habsent := hs.absent i hi
    refine ⟨hlocked, fun j hj => ?_, ?_⟩
    · -- nobody else is under the lock
      have hj' : (Deduper.pushes (s.goto i .pushing) j).holds = true := by
        simp only at hj
        rw [hj]
        rfl
      have : j = i := by
        have := (hlocked.push j).mpr hj'
        simp_all
      subst this
      simp at hj
    · simp only [Deduper.live, Deduper.marked, Deduper.lock_goto, hl, Deduper.pushes_goto_self,
        if_true, Deduper.pipeline_goto, Deduper.watch_goto, Finset.insert_val_of_notMem habsent]
      rw [← hlive, Deduper.marked_of_lock hl, hi]
      simp
  | @push _ i p hi hp =>
    have hl : s.lock = some (.push i) := (hs.push i).mpr (by rw [hi]; rfl)
    refine ⟨hlocked, hs.absent_goto (by simp), ?_⟩
    rw [Deduper.marked_of_lock hl, hi, if_pos rfl] at hlive
    simpa [Deduper.live, Deduper.marked, hl, P.inside_push hp] using hlive
  | @unlock _ i ok hi =>
    have hl : s.lock = some (.push i) := (hs.push i).mpr (by rw [hi]; rfl)
    refine ⟨hlocked, hs.absent_goto (by simp), ?_⟩
    simpa [Deduper.live, Deduper.marked, hl, hi] using hlive
  | work hp =>
    refine ⟨hlocked, hs.absent, ?_⟩
    simpa [Deduper.live, Deduper.marked, P.inside_work hp] using hlive
  | poll hw hp =>
    refine ⟨hlocked, hs.absent, ?_⟩
    rw [hw, P.inside_output hp] at hlive
    rw [← hlive]
    simp [Deduper.live, Deduper.marked, Watch.output]
  | watchLock hw hl =>
    refine ⟨hlocked, hs.absent, ?_⟩
    simpa [Deduper.live, Deduper.marked, hl, hw, Watch.output] using hlive
  | @delete _ t hw =>
    have hl : s.lock = some .watch := hs.watch.mpr (by rw [hw]; rfl)
    refine ⟨hlocked, fun j hj hmem => hs.absent j hj (Finset.mem_of_mem_erase hmem), ?_⟩
    rw [hw] at hlive
    rw [Finset.erase_val, ← hlive]
    simp [Deduper.live, Deduper.marked, hl, Watch.output]
  | watchUnlock hw =>
    have hl : s.lock = some .watch := hs.watch.mpr (by rw [hw]; rfl)
    refine ⟨hlocked, hs.absent, ?_⟩
    simpa [Deduper.live, Deduper.marked, hl, hw, Watch.output] using hlive

/-! ## The result -/

/-- What `Push` will return, once that is decided. -/
def Pc.result? : Pc → Option Bool
  | .absent | .pushing => some true
  | .returning ok | .done ok => some ok
  | .idle | .waiting | .locked => none

theorem result?_goto {i j : ι} {pc : Pc} {ok : Bool}
    (hj : (s.pushes j).result? = none ∨ (s.pushes j).result? = pc.result?)
    (hi : (s.pushes i).result? = some ok) : ((s.goto j pc).pushes i).result? = some ok := by
  by_cases h : i = j
  · subst h
    rw [Deduper.pushes_goto_self]
    rcases hj with hj | hj
    · rw [hj] at hi
      cases hi
    · rw [← hj, hi]
  · rw [Deduper.pushes_goto_of_ne _ _ _ h, hi]

theorem result?_step (h : Step transfer a s s') {i : ι} {ok : Bool}
    (hi : (s.pushes i).result? = some ok) : (s'.pushes i).result? = some ok := by
  cases h with
  | call hj => exact result?_goto (.inl (by rw [hj]; rfl)) hi
  | lock hj _ => exact result?_goto (.inl (by rw [hj]; rfl)) hi
  | lookUp hj => exact result?_goto (.inl (by rw [hj]; rfl)) hi
  | mark hj => exact result?_goto (.inr (by rw [hj]; rfl)) hi
  | push hj _ => exact result?_goto (.inr (by rw [hj]; rfl)) hi
  | unlock hj => exact result?_goto (.inr (by rw [hj]; rfl)) hi
  | work | poll | watchLock | delete | watchUnlock => exact hi

theorem result?_turns {ok : Deduper P ι → Act ι → Prop} (h : ReflTransGen (Turn ok transfer) s s')
    {i : ι} {b : Bool} (hi : (s.pushes i).result? = some b) : (s'.pushes i).result? = some b := by
  induction h with
  | refl => exact hi
  | tail _ h ih =>
    obtain ⟨a, -, h⟩ := h
    exact result?_step h ih

/-- The deduper of a pipeline, before any call. -/
def Deduper.start (p : P.State) : Deduper P ι := { pipeline := p }

omit [DecidableEq ι] in
theorem locked_start (p : P.State) : (Deduper.start p : Deduper P ι).Locked :=
  ⟨fun _ => by simp [Deduper.start, Pc.holds], by simp [Deduper.start, Watch.holds]⟩

theorem exact_turns {ok : Deduper P ι → Act ι → Prop} {p : P.State} (hp : P.inside p = 0)
    (h : ReflTransGen (Turn ok transfer) (.start p) s) : s.Exact transfer := by
  induction h with
  | refl =>
    exact ⟨locked_start p, by simp [Deduper.start],
      by simp [Deduper.live, Deduper.marked, Deduper.start, Watch.output, hp]⟩
  | tail _ h ih =>
    obtain ⟨a, -, h⟩ := h
    exact exact_step h ih

/-- In every interleaving of any number of calls of `Push` with the pipeline and
the goroutine: the map is the set of the keys of the live transfers, of which no
two have the same, in the pipeline or elsewhere, and a call returns `true` if its
key was absent when it looked, and only then. -/
theorem one_live_instance (transfer : ι → IBCV2Transfer) {p : P.State} (hp : P.inside p = 0)
    (h : ReflTransGen (Turn (fun _ _ => True) transfer) (.start p) s) :
    s.live transfer = s.inPipeline.val ∧ (P.inside s.pipeline).Nodup ∧
      ∀ i s₁ s₂ ok, Step transfer (.lookUp i) s s₁ →
      ReflTransGen (Turn (fun _ _ => True) transfer) s₁ s₂ →
        s₂.pushes i = .done ok → (ok = true ↔ newTransferKey (transfer i) ∉ s.inPipeline) := by
  have hexact := exact_turns hp h
  refine ⟨hexact.live, ?_, fun i s₁ s₂ ok hlook hrun hdone => ?_⟩
  · have hnodup : (s.live transfer).Nodup := hexact.live ▸ s.inPipeline.nodup
    exact Multiset.nodup_of_le (le_trans (Multiset.le_add_left ..) (Multiset.le_add_left ..)) hnodup
  · cases hlook with
    | lookUp hi =>
      have hres {b : Bool} (hb : _) := result?_turns hrun (i := i) (b := b) hb
      rw [hdone, Deduper.pushes_goto_self] at hres
      split at hres
      · have := hres rfl
        simp_all [Pc.result?]
      · have := hres rfl
        simp_all [Pc.result?]

/-! ## Room in the stages -/

namespace Stage

variable {l l' : List Stage} {t : IBCV2Transfer}

theorem Takes.hasRoom {a a' : Stage} (h : a.Takes t a') : a.HasRoom := by
  have := a'.fits
  rw [h.1, h.2, List.length_append] at this
  exact this

theorem exists_takes {a : Stage} (h : a.HasRoom) (t : IBCV2Transfer) : ∃ a', a.Takes t a' :=
  ⟨⟨a.capacity, a.held ++ [t], by rw [List.length_append]; exact h⟩, rfl, rfl⟩

theorem exists_hands {a : Stage} (h : a.held ≠ []) : ∃ t a', a.Hands t a' := by
  obtain ⟨capacity, held, fits⟩ := a
  cases held with
  | nil => exact absurd rfl h
  | cons t held => exact ⟨t, ⟨capacity, held, Nat.le_of_succ_le fits⟩, rfl, t, rfl, .refl _⟩

theorem Hands.length {a a' : Stage} (h : a.Hands t a') : a.held.length = a'.held.length + 1 := by
  obtain ⟨-, t₀, -, hperm⟩ := h
  simpa using hperm.length_eq

/-- The input channel has room. -/
def InputHasRoom (l : List Stage) : Prop := ∃ a ∈ l.head?, a.HasRoom

theorem exists_enters (h : InputHasRoom l) (t : IBCV2Transfer) : ∃ l', Enters l t l' := by
  obtain ⟨a, ha, hroom⟩ := h
  obtain ⟨a', ha'⟩ := exists_takes hroom t
  cases l with
  | nil => cases ha
  | cons b rest =>
    cases ha
    exact ⟨_, .first rest ha'⟩

/-- Only what comes in takes up room in the input channel. -/
theorem Moves.inputHasRoom (h : Moves l l') (hl : InputHasRoom l) : InputHasRoom l' := by
  obtain ⟨a, ha, hroom⟩ := hl
  cases h with
  | @here a a' _ _ _ rest hhands _ =>
    cases ha
    have := hhands.length
    exact ⟨a', rfl, by rw [HasRoom, hhands.1]; exact lt_of_le_of_lt (by omega) hroom⟩
  | there b h =>
    cases ha
    exact ⟨_, rfl, hroom⟩

theorem Leaves.inputHasRoom (h : Leaves l t l') (hl : InputHasRoom l) : InputHasRoom l' := by
  obtain ⟨a, ha, hroom⟩ := hl
  cases h with
  | @last a a' _ hhands =>
    cases ha
    have := hhands.length
    exact ⟨a', rfl, by rw [HasRoom, hhands.1]; exact lt_of_le_of_lt (by omega) hroom⟩
  | there b h =>
    cases ha
    exact ⟨_, rfl, hroom⟩

theorem Enters.capacities (h : Enters l t l') : l'.map (·.capacity) = l.map (·.capacity) := by
  cases h with
  | first rest h => simp [h.1]

theorem Moves.capacities (h : Moves l l') : l'.map (·.capacity) = l.map (·.capacity) := by
  induction h with
  | here rest ha hb => simp [ha.1, hb.1]
  | there a _ ih => simp [ih]

theorem Leaves.capacities (h : Leaves l t l') : l'.map (·.capacity) = l.map (·.capacity) := by
  induction h with
  | last h => simp [h.1]
  | there a _ ih => simpa using ih

theorem keys_eq_zero_iff : keys l = 0 ↔ ∀ a ∈ l, a.held = [] := by
  simp [keys]

/-- A pipeline that is not empty can go on: the last stage that holds a transfer
has an empty one behind it, or is the last. -/
theorem exists_moves_or_leaves (hpos : ∀ a ∈ l, 0 < a.capacity) (hl : keys l ≠ 0) :
    (∃ l', Moves l l') ∨ ∃ t l', Leaves l t l' := by
  induction l with
  | nil => exact absurd rfl hl
  | cons a rest ih =>
    by_cases hrest : keys rest = 0
    · have ha : a.held ≠ [] := by
        intro ha
        refine hl (keys_eq_zero_iff.mpr ?_)
        simpa [ha] using keys_eq_zero_iff.mp hrest
      obtain ⟨t, a', hhands⟩ := exists_hands ha
      cases rest with
      | nil => exact .inr ⟨t, _, .last hhands⟩
      | cons b rest =>
        have hb : b.HasRoom := by
          rw [HasRoom, keys_eq_zero_iff.mp hrest b List.mem_cons_self]
          exact hpos b (by simp)
        obtain ⟨b', hb'⟩ := exists_takes hb t
        exact .inl ⟨_, .here rest hhands hb'⟩
    · rcases ih (fun b hb => hpos b (List.mem_cons_of_mem _ hb)) hrest with ⟨l', h⟩ | ⟨t, l', h⟩
      · exact .inl ⟨_, .there a h⟩
      · cases rest with
        | nil => exact absurd rfl hrest
        | cons b rest => exact .inr ⟨t, _, .there a h⟩

/-- Stages with these capacities, before any transfer comes in. -/
def empty (capacities : List Nat) : List Stage := capacities.map fun c => ⟨c, [], Nat.zero_le c⟩

theorem keys_empty (capacities : List Nat) : keys (empty capacities) = 0 := by
  simp [keys_eq_zero_iff, empty]

end Stage

/-! ## Progress -/

section Progress

variable {s s' : Deduper stagedPipeline ι}

/-- The input channel and the stages of the pipeline. -/
abbrev Deduper.stages (s : Deduper stagedPipeline ι) : List Stage := s.pipeline

/-- A call of `Push` that has begun and has not returned. -/
def Pc.unfinished : Pc → Bool
  | .idle | .done _ => false
  | _ => true

/-- There is something left to do: a `Push` that has not returned, a transfer in
the pipeline, or an output that is not removed. -/
def Deduper.Unfinished (s : Deduper stagedPipeline ι) : Prop :=
  (∃ i, (s.pushes i).unfinished = true) ∨ Stage.keys s.stages ≠ 0 ∨ s.watch.output ≠ 0

/-- A step of a party that is at work, rather than a new call. -/
def Act.isParty : Act ι → Bool
  | .call _ => false
  | _ => true

/-- A `Push` that takes the lock finds room in the input channel. -/
def RoomAtLock (s : Deduper stagedPipeline ι) : Act ι → Prop
  | .lock _ => Stage.InputHasRoom s.stages
  | _ => True

/-- The caller has yet to hand its transfer over. -/
def Pc.beforePush : Pc → Bool
  | .locked | .absent | .pushing => true
  | _ => false

/-- What holds in a run in which every `Push` takes the lock where there is
room: there still is where it pushes. -/
structure Deduper.Roomy (capacities : List Nat)
    (s : Deduper stagedPipeline ι) : Prop extends s.Locked where
  unborn : s.watch = .unborn → (∀ i, s.pushes i = .idle) ∧ Stage.keys s.stages = 0
  room (i : ι) : (s.pushes i).beforePush = true → Stage.InputHasRoom s.stages
  capacities : s.stages.map (·.capacity) = capacities

theorem Pc.holds_of_beforePush {pc : Pc} (h : pc.beforePush = true) : pc.holds = true := by
  cases pc <;> first | rfl | cases h

theorem beforePush_goto {i j : ι} {pc : Pc} (h : ((s.goto j pc).pushes i).beforePush = true) :
    (i = j ∧ pc.beforePush = true) ∨ (i ≠ j ∧ (s.pushes i).beforePush = true) := by
  by_cases hi : i = j
  · subst hi
    rw [Deduper.pushes_goto_self] at h
    exact .inl ⟨rfl, h⟩
  · rw [Deduper.pushes_goto_of_ne _ _ _ hi] at h
    exact .inr ⟨hi, h⟩

theorem not_unborn_spawn (w : Watch) : w.spawn ≠ .unborn := by
  cases w <;> simp [Watch.spawn]

variable {capacities : List Nat}

omit [DecidableEq ι] in
/-- The goroutine runs as soon as one call was made. -/
theorem Deduper.Roomy.born (hs : s.Roomy capacities) {i : ι} {pc : Pc} (hi : s.pushes i = pc)
    (hpc : pc ≠ .idle) : s.watch ≠ .unborn :=
  fun h => hpc (hi ▸ (hs.unborn h).1 i)

theorem roomy_step (h : Step transfer a s s') (ha : RoomAtLock s a) (hs : s.Roomy capacities) :
    s'.Roomy capacities := by
  have hlocked := locked_step h hs.toLocked
  cases h with
  | call hi =>
    refine ⟨hlocked, fun hw => absurd hw (not_unborn_spawn _), fun j hj => ?_, hs.capacities⟩
    rcases beforePush_goto hj with ⟨-, hpc⟩ | ⟨-, hj⟩
    · cases hpc
    · exact hs.room j hj
  | lock hi hl => exact ⟨hlocked, fun hw => absurd hw (hs.born hi (by simp)), fun j hj => ha,
    hs.capacities⟩
  | lookUp hi =>
    exact ⟨hlocked, fun hw => absurd hw (hs.born hi (by simp)), fun j hj =>
      hs.room _ (by rw [hi]; rfl), hs.capacities⟩
  | mark hi =>
    exact ⟨hlocked, fun hw => absurd hw (hs.born hi (by simp)), fun j hj =>
      hs.room _ (by rw [hi]; rfl), hs.capacities⟩
  | @push _ i p hi hp =>
    refine ⟨hlocked, fun hw => absurd hw (hs.born hi (by simp)), fun j hj => ?_,
      hp.capacities.trans hs.capacities⟩
    rcases beforePush_goto hj with ⟨-, hpc⟩ | ⟨hne, hj⟩
    · cases hpc
    · -- nobody else is under the lock
      have hi' : s.lock = some (.push i) := (hs.push i).mpr (by rw [hi]; rfl)
      have hj' : s.lock = some (.push j) := (hs.push j).mpr (Pc.holds_of_beforePush hj)
      exact absurd (by simpa using hj'.symm.trans hi') hne
  | unlock hi =>
    refine ⟨hlocked, fun hw => absurd hw (hs.born hi (by simp)), fun j hj => ?_, hs.capacities⟩
    rcases beforePush_goto hj with ⟨-, hpc⟩ | ⟨-, hj⟩
    · cases hpc
    · exact hs.room j hj
  | work hp =>
    refine ⟨hlocked, fun hw => ⟨(hs.unborn hw).1, ?_⟩, fun j hj => hp.inputHasRoom (hs.room j hj),
      hp.capacities.trans hs.capacities⟩
    exact hp.keys.trans (hs.unborn hw).2
  | poll hw hp =>
    exact ⟨hlocked,
      by simp, fun j hj => hp.inputHasRoom (hs.room j hj), hp.capacities.trans hs.capacities⟩
  | watchLock hw _ => exact ⟨hlocked, by simp, hs.room, hs.capacities⟩
  | delete hw => exact ⟨hlocked, by simp, hs.room, hs.capacities⟩
  | watchUnlock hw => exact ⟨hlocked, by simp, hs.room, hs.capacities⟩

theorem roomy_turns (h : ReflTransGen (Turn RoomAtLock transfer)
      (.start (Stage.empty capacities)) s) :
    s.Roomy capacities := by
  induction h with
  | refl =>
    refine ⟨locked_start _, fun _ => ⟨fun _ => rfl, Stage.keys_empty capacities⟩,
      fun i hi => ?_, ?_⟩
    · cases hi
    · exact List.map_map.trans (List.map_id capacities)
  | tail _ h ih =>
    obtain ⟨a, ha, h⟩ := h
    exact roomy_step h ha ih

omit [DecidableEq ι] in
/-- An empty pipeline has room. -/
theorem Deduper.Roomy.room_of_empty (hs : s.Roomy capacities) (hne : capacities ≠ [])
    (hpos : ∀ c ∈ capacities, 0 < c)
    (hempty : Stage.keys s.stages = 0) : Stage.InputHasRoom s.stages := by
  have hcap := hs.capacities
  cases hl : s.stages with
  | nil =>
    rw [hl] at hcap
    exact absurd hcap.symm hne
  | cons a rest =>
    have ha : a ∈ s.stages := hl ▸ List.mem_cons_self
    refine ⟨a, rfl, ?_⟩
    rw [Stage.HasRoom, Stage.keys_eq_zero_iff.mp hempty a ha]
    exact hpos _ (hcap ▸ List.mem_map_of_mem ha)

/-- Where every `Push` takes the lock while the input channel has room, someone
can go on as long as there is something to do. -/
theorem deduper_progress (transfer : ι → IBCV2Transfer) (hne : capacities ≠ [])
    (hpos : ∀ c ∈ capacities, 0 < c)
    (h : ReflTransGen (Turn RoomAtLock transfer) (.start (Stage.empty capacities)) s)
    (hs : s.Unfinished) : ∃ a s', Act.isParty a = true ∧ RoomAtLock s a ∧ Step transfer a s s' := by
  have hroomy := roomy_turns h
  cases hl : s.lock with
  | some holder =>
    cases holder with
    | push i =>
      have hi := (hroomy.push i).mp hl
      cases hpc : s.pushes i with
      | locked => exact ⟨.lookUp i, _, rfl, trivial, .lookUp hpc⟩
      | absent => exact ⟨.mark i, _, rfl, trivial, .mark hpc⟩
      | pushing =>
        obtain ⟨p, hp⟩ := Stage.exists_enters (hroomy.room i (by rw [hpc]; rfl)) (transfer i)
        exact ⟨.push i, _, rfl, trivial, .push hpc hp⟩
      | returning ok => exact ⟨.unlock i, _, rfl, trivial, .unlock hpc⟩
      | _ => simp [hpc, Pc.holds] at hi
    | watch =>
      have hw := hroomy.watch.mp hl
      cases hw' : s.watch with
      | locked t => exact ⟨.delete, _, rfl, trivial, .delete hw'⟩
      | deleted => exact ⟨.watchUnlock, _, rfl, trivial, .watchUnlock hw'⟩
      | _ => simp [hw', Watch.holds] at hw
  | none =>
    cases hw : s.watch with
    | unborn =>
      obtain ⟨hidle, hempty⟩ := hroomy.unborn hw
      rcases hs with ⟨i, hi⟩ | hk | ho
      · simp [hidle i, Pc.unfinished] at hi
      · exact absurd hempty hk
      · simp [hw, Watch.output] at ho
    | waiting t => exact ⟨.watchLock, _, rfl, trivial, .watchLock hw hl⟩
    | polling =>
      by_cases hempty : Stage.keys s.stages = 0
      · -- what is left to do is a call that waits for the lock
        obtain ⟨i, hi⟩ : ∃ i, (s.pushes i).unfinished = true := by
          rcases hs with hi | hk | ho
          · exact hi
          · exact absurd hempty hk
          · simp [hw, Watch.output] at ho
        have hholds : (s.pushes i).holds = false := by
          rw [← Bool.not_eq_true, ← hroomy.push i, hl]
          simp
        cases hpc : s.pushes i with
        | waiting => exact ⟨.lock i, _, rfl, hroomy.room_of_empty hne hpos hempty, .lock hpc hl⟩
        | _ => simp [hpc, Pc.holds, Pc.unfinished] at hholds hi
      · have hpos' : ∀ a ∈ s.stages, 0 < a.capacity := fun a ha =>
          hpos _ (hroomy.capacities ▸ List.mem_map_of_mem ha)
        rcases Stage.exists_moves_or_leaves hpos' hempty with ⟨p, hp⟩ | ⟨t, p, hp⟩
        · exact ⟨.work, _, rfl, trivial, .work hp⟩
        · exact ⟨.poll, _, rfl, trivial, .poll hw hp⟩
    | _ =>
      have := hroomy.watch
      simp [hl, hw, Watch.holds] at this

end Progress

/-! ## A deadlock -/

namespace Stage

variable {l l' : List Stage} {t : IBCV2Transfer}

theorem card_keys_cons (a : Stage) (rest : List Stage) :
    (keys (a :: rest)).card = a.held.length + (keys rest).card := by
  simp [keys_cons]

theorem card_keys_le (l : List Stage) : (keys l).card ≤ (l.map (·.capacity)).sum := by
  induction l with
  | nil => exact Nat.le_refl _
  | cons a rest ih =>
    rw [card_keys_cons, List.map_cons, List.sum_cons]
    exact Nat.add_le_add a.fits ih

/-- As long as there is room somewhere, stages that hand on make room in the
input channel. -/
theorem exists_room (hpos : ∀ a ∈ l, 0 < a.capacity)
    (hl : (keys l).card < (l.map (·.capacity)).sum) :
    ∃ l', ReflTransGen Moves l l' ∧ InputHasRoom l' := by
  induction l with
  | nil => cases hl
  | cons a rest ih =>
    by_cases ha : a.HasRoom
    · exact ⟨_, .refl, a, rfl, ha⟩
    · rw [card_keys_cons, List.map_cons, List.sum_cons] at hl
      have hfull : a.held.length = a.capacity := Nat.le_antisymm a.fits (Nat.le_of_not_lt ha)
      obtain ⟨rest', hmoves, b, hb, hroom⟩ :=
        ih (fun b hb => hpos b (List.mem_cons_of_mem _ hb)) (by omega)
      have hmoves' : ReflTransGen Moves (a :: rest) (a :: rest') :=
        hmoves.lift (a :: ·) fun _ _ => .there a
      cases rest' with
      | nil => cases hb
      | cons b' rest' =>
        cases hb
        have hne : a.held ≠ [] := by
          rw [← List.length_pos_iff, hfull]
          exact hpos a List.mem_cons_self
        obtain ⟨t, a', hhands⟩ := exists_hands hne
        obtain ⟨b', hb'⟩ := exists_takes hroom t
        refine ⟨_, hmoves'.tail (.here rest' hhands hb'), a', rfl, ?_⟩
        have := hhands.length
        rw [HasRoom, hhands.1]
        omega

theorem full_of_card (hl : (keys l).card = (l.map (·.capacity)).sum) : ∀ a ∈ l, ¬ a.HasRoom := by
  induction l with
  | nil => simp
  | cons a rest ih =>
    rw [card_keys_cons, List.map_cons, List.sum_cons] at hl
    have ha := a.fits
    have hrest := card_keys_le rest
    intro b hb
    rcases List.mem_cons.mp hb with rfl | hb
    · rw [HasRoom]
      omega
    · exact ih (by omega) b hb

theorem Moves.exists_hasRoom (h : Moves l l') : ∃ a ∈ l, a.HasRoom := by
  induction h with
  | here rest _ hb => exact ⟨_, by simp, hb.hasRoom⟩
  | there a _ ih =>
    obtain ⟨b, hb, hroom⟩ := ih
    exact ⟨b, List.mem_cons_of_mem _ hb, hroom⟩

theorem Enters.exists_hasRoom (h : Enters l t l') : ∃ a ∈ l, a.HasRoom := by
  cases h with
  | first rest h => exact ⟨_, List.mem_cons_self, h.hasRoom⟩

theorem exists_leaves (hne : l ≠ []) (hl : ∀ a ∈ l, a.held ≠ []) : ∃ t l', Leaves l t l' := by
  induction l with
  | nil => exact absurd rfl hne
  | cons a rest ih =>
    cases rest with
    | nil =>
      obtain ⟨t, a', h⟩ := exists_hands (hl a List.mem_cons_self)
      exact ⟨t, _, .last h⟩
    | cons b rest =>
      obtain ⟨t, l', h⟩ := ih (by simp) fun b hb => hl b (List.mem_cons_of_mem _ hb)
      exact ⟨t, _, .there a h⟩

end Stage

section Deadlock

variable {s s' : Deduper stagedPipeline Nat} {n : Nat} {capacities : List Nat}

/-- The transfers of one client, by their sequence numbers. -/
def numbered (i : Nat) : IBCV2Transfer where
  state := .pending
  sourceChainID := "1"
  destinationChainID := "2"
  sourceTxHash := "ab"
  sourceTxTime := 0
  packetSequenceNumber := .ofNat i
  packetSourceClientID := "client-0"
  packetDestinationClientID := "client-1"
  packetTimeoutTimestamp := 0

theorem numbered_inj {i j : Nat} (hi : i < 2 ^ 32) (hj : j < 2 ^ 32)
    (h : newTransferKey (numbered i) = newTransferKey (numbered j)) : i = j := by
  have hn : UInt32.ofNat i = UInt32.ofNat j := congrArg (·.packetSequenceNumber) h
  have := congrArg UInt32.toNat hn
  rwa [UInt32.toNat_ofNat_of_lt' hi, UInt32.toNat_ofNat_of_lt' hj] at this

/-- Any steps at all. -/
abbrev Reaches : Deduper stagedPipeline Nat → Deduper stagedPipeline Nat → Prop :=
  ReflTransGen (Turn (fun _ _ => True) numbered)

theorem Reaches.step {s₀ : Deduper stagedPipeline Nat} {a : Act Nat} (h : Reaches s₀ s)
    (h' : Step numbered a s s') : Reaches s₀ s' :=
  h.tail ⟨a, trivial, h'⟩

/-- The first `n` transfers were pushed and accepted, and are in the pipeline or
with the goroutine. -/
structure Filled (capacities : List Nat) (n : Nat) (s : Deduper stagedPipeline Nat) : Prop where
  lock : s.lock = none
  idle (i : Nat) : n ≤ i → s.pushes i = .idle
  done (i : Nat) : i < n → s.pushes i = .done true
  fresh (k : TransferKey) : k ∈ s.inPipeline → ∃ i < n, k = newTransferKey (numbered i)
  capacities : s.stages.map (·.capacity) = capacities
  card : (Stage.keys s.stages).card + s.watch.output.card = n

theorem Filled.not_mem (hs : Filled capacities n s)
    (hn : n < 2 ^ 32) : newTransferKey (numbered n) ∉ s.inPipeline := by
  intro h
  obtain ⟨i, hi, hk⟩ := hs.fresh _ h
  exact absurd (numbered_inj hn (Nat.lt_trans hi hn) hk) (Nat.ne_of_gt hi)

/-- Work in the pipeline. -/
theorem Filled.moves (hs : Filled capacities n s) {l : List Stage}
    (h : ReflTransGen Stage.Moves s.stages l) :
    Reaches s { s with pipeline := l } ∧ Filled capacities n { s with pipeline := l } := by
  induction h with
  | refl => exact ⟨.refl, hs⟩
  | tail _ hl ih =>
    refine ⟨ih.1.step (.work hl), ?_⟩
    obtain ⟨-, hs⟩ := ih
    exact ⟨hs.lock, hs.idle, hs.done, hs.fresh, hl.capacities.trans hs.capacities, by
      have := hs.card
      rw [← hl.keys] at this
      exact this⟩

/-- Call `n` has come to a point. -/
def Deduper.at (s : Deduper stagedPipeline Nat) (n : Nat) (pc : Pc) (lock : Option (Holder Nat))
    (inPipeline : Finset TransferKey) (stages : List Stage) : Deduper stagedPipeline Nat where
  pipeline := stages
  inPipeline := inPipeline
  lock := lock
  watch := s.watch.spawn
  pushes := Function.update s.pushes n pc

/-- Where the next `Push` waits for room. -/
def Deduper.atPush (s : Deduper stagedPipeline Nat) (n : Nat) : Deduper stagedPipeline Nat :=
  s.at n .pushing (some (.push n)) (insert (newTransferKey (numbered n)) s.inPipeline) s.stages

/-- The next `Push`, up to there. -/
theorem Filled.reaches_atPush (hs : Filled capacities n s)
    (hn : n < 2 ^ 32) : Reaches s (s.atPush n) := by
  have hcall : Step numbered (.call n) s (s.at n .waiting none s.inPipeline s.stages) := by
    have h : Step numbered (.call n) s _ := .call (hs.idle n (Nat.le_refl n))
    simpa [Deduper.at, Deduper.goto, hs.lock] using h
  have hlock : Step numbered (.lock n) (s.at n .waiting none s.inPipeline s.stages)
      (s.at n .locked (some (.push n)) s.inPipeline s.stages) := by
    have h : Step numbered (.lock n) (s.at n .waiting none s.inPipeline s.stages) _ :=
      .lock (by simp [Deduper.at]) rfl
    simpa [Deduper.at, Deduper.goto] using h
  have hlook : Step numbered (.lookUp n) (s.at n .locked (some (.push n)) s.inPipeline s.stages)
      (s.at n .absent (some (.push n)) s.inPipeline s.stages) := by
    have h : Step numbered (.lookUp n) (s.at n .locked (some (.push n)) s.inPipeline s.stages) _ :=
      .lookUp (by simp [Deduper.at])
    simpa [Deduper.at, Deduper.goto, hs.not_mem hn] using h
  have hmark : Step numbered (.mark n) (s.at n .absent (some (.push n)) s.inPipeline s.stages)
      (s.atPush n) := by
    have h : Step numbered (.mark n) (s.at n .absent (some (.push n)) s.inPipeline s.stages) _ :=
      .mark (by simp [Deduper.at])
    simpa [Deduper.at, Deduper.goto, Deduper.atPush] using h
  exact (((Reaches.step .refl hcall).step hlock).step hlook).step hmark

/-- Where the input channel has room, the next `Push` returns. -/
theorem Filled.push (hs : Filled capacities n s) (hn : n < 2 ^ 32)
    (hroom : Stage.InputHasRoom s.stages) :
    ∃ s', Reaches s s' ∧ Filled capacities (n + 1) s' ∧ s'.watch = s.watch.spawn := by
  obtain ⟨p, hp⟩ := Stage.exists_enters hroom (numbered n)
  let m := insert (newTransferKey (numbered n)) s.inPipeline
  have hpush : Step numbered (.push n) (s.atPush n)
      (s.at n (.returning true) (some (.push n)) m p) := by
    have h : Step numbered (.push n) (s.atPush n) _ :=
      .push (by simp [Deduper.atPush, Deduper.at]) hp
    simpa [Deduper.at, Deduper.goto, Deduper.atPush] using h
  have hunlock : Step numbered (.unlock n) (s.at n (.returning true) (some (.push n)) m p)
      (s.at n (.done true) none m p) := by
    have hpc : (s.at n (.returning true) (some (.push n)) m p).pushes n = .returning true := by
      simp [Deduper.at]
    have h : Step numbered (.unlock n) (s.at n (.returning true) (some (.push n)) m p) _ :=
      .unlock hpc
    simpa [Deduper.at, Deduper.goto] using h
  refine ⟨_, ((hs.reaches_atPush hn).step hpush).step hunlock, ?_, rfl⟩
  refine ⟨rfl, fun i hi => ?_, fun i hi => ?_, fun k hk => ?_,
    hp.capacities.trans hs.capacities, ?_⟩
  · have hne : i ≠ n := by omega
    simpa [Deduper.at, hne] using hs.idle i (by omega)
  · by_cases hne : i = n
    · simp [Deduper.at, hne]
    · simpa [Deduper.at, hne] using hs.done i (by omega)
  · rcases Finset.mem_insert.mp hk with rfl | hk
    · exact ⟨n, Nat.lt_succ_self n, rfl⟩
    · obtain ⟨i, hi, hk⟩ := hs.fresh k hk
      exact ⟨i, Nat.lt_succ_of_lt hi, hk⟩
  · have hcard := hs.card
    change (Stage.keys p).card + s.watch.spawn.output.card = n + 1
    rw [hp.keys, Multiset.card_cons, Watch.output_spawn]
    omega

/-- As long as there is room somewhere, the next `Push` returns. -/
theorem Filled.next (hs : Filled capacities n s) (hpos : ∀ c ∈ capacities, 0 < c) (hn : n < 2 ^ 32)
    (hroom : (Stage.keys s.stages).card < capacities.sum) :
    ∃ s', Reaches s s' ∧ Filled capacities (n + 1) s' ∧ s'.watch = s.watch.spawn := by
  have hpos' : ∀ a ∈ s.stages, 0 < a.capacity :=
    fun a ha => hpos _ (hs.capacities ▸ List.mem_map_of_mem ha)
  obtain ⟨l, hmoves, hl⟩ := Stage.exists_room hpos' (by rwa [hs.capacities])
  obtain ⟨hreach, hs'⟩ := hs.moves hmoves
  obtain ⟨s', hreach', hs', hw⟩ := hs'.push hn hl
  exact ⟨s', hreach.trans hreach', hs', hw⟩

/-- The pipeline can be filled. -/
theorem exists_filled (hpos : ∀ c ∈ capacities, 0 < c) (hsum : capacities.sum < 2 ^ 32) {n : Nat}
    (hn : n < capacities.sum) :
    ∃ s, Reaches (.start (Stage.empty capacities)) s ∧ Filled capacities (n + 1) s ∧
      s.watch = .polling := by
  induction n with
  | zero =>
    have hempty : (Stage.keys (Stage.empty capacities)).card = 0 := by rw [Stage.keys_empty]; rfl
    have hstart : Filled capacities 0 (.start (Stage.empty capacities)) :=
      ⟨rfl, fun _ _ => rfl, fun _ h => absurd h (Nat.not_lt_zero _), by simp [Deduper.start],
        List.map_map.trans (List.map_id capacities), hempty⟩
    exact hstart.next hpos (by decide) (hempty.symm ▸ hn)
  | succ n ih =>
    obtain ⟨s, hreach, hs, hw⟩ := ih (by omega)
    have hcard := hs.card
    rw [hw] at hcard
    obtain ⟨s', hreach', hs', hw'⟩ :=
      hs.next hpos (by omega) (by simp [Watch.output] at hcard; omega)
    exact ⟨s', hreach.trans hreach', hs', hw'.trans (by rw [hw]; rfl)⟩

/-- Something is left to do, and nobody can go on. -/
def Deadlocked (s : Deduper stagedPipeline Nat) : Prop :=
  s.Unfinished ∧ ∀ a s', Step numbered a s s' → Act.isParty a = false

/-- The goroutine has an output and waits for the lock, which a `Push` has that
waits for room in the input channel, and all stages are full. -/
theorem Filled.deadlocked (hs : Filled capacities n s) {t : IBCV2Transfer}
    (hw : s.watch = .waiting t) (hfull : (Stage.keys s.stages).card = capacities.sum) :
    Deadlocked (s.atPush n) := by
  have hno : ∀ a ∈ s.stages, ¬ a.HasRoom := Stage.full_of_card (hfull.trans (hs.capacities ▸ rfl))
  refine ⟨.inl ⟨n, by simp [Deduper.atPush, Deduper.at, Pc.unfinished]⟩, fun a s' h => ?_⟩
  have hpc (i : Nat) : (s.atPush n).pushes i = .pushing ∨ (s.atPush n).pushes i = .done true ∨
      (s.atPush n).pushes i = .idle := by
    by_cases hi : i = n
    · simp [Deduper.atPush, Deduper.at, hi]
    · by_cases hlt : i < n
      · simp [Deduper.atPush, Deduper.at, hi, hs.done i hlt]
      · simp [Deduper.atPush, Deduper.at, hi, hs.idle i (Nat.le_of_not_lt hlt)]
  have hwatch : s.watch.spawn = .waiting t := by rw [hw]; rfl
  cases h with
  | call hi => rfl
  | lock _ hl => cases hl
  | @lookUp _ i hi =>
    simpa [hi] using hpc i
  | @mark _ i hi =>
    simpa [hi] using hpc i
  | push _ hp =>
    obtain ⟨a, ha, hroom⟩ := hp.exists_hasRoom
    exact absurd hroom (hno a ha)
  | @unlock _ i ok hi =>
    simpa [hi] using hpc i
  | work hp =>
    obtain ⟨a, ha, hroom⟩ := hp.exists_hasRoom
    exact absurd hroom (hno a ha)
  | poll hw' _ => cases hwatch.symm.trans hw'
  | watchLock _ hl => cases hl
  | delete hw' => cases hwatch.symm.trans hw'
  | watchUnlock hw' => cases hwatch.symm.trans hw'

/-- With any room in the input channel and the stages, there is a run to a
deadlock. -/
theorem exists_deadlock (hne : capacities ≠ []) (hpos : ∀ c ∈ capacities, 0 < c)
    (hsum : capacities.sum + 2 < 2 ^ 32) :
    ∃ s, Reaches (.start (Stage.empty capacities)) s ∧ Deadlocked s := by
  have hsum0 : 0 < capacities.sum := by
    cases capacities with
    | nil => exact absurd rfl hne
    | cons c rest =>
      rw [List.sum_cons]
      exact Nat.lt_add_right _ (hpos c List.mem_cons_self)
  -- All stages are full.
  obtain ⟨s, hreach, hs, hw⟩ := exists_filled hpos (by omega) (n := capacities.sum - 1) (by omega)
  rw [Nat.sub_add_cancel hsum0] at hs
  have hcard := hs.card
  rw [hw] at hcard
  have hfull : (Stage.keys s.stages).card = capacities.sum := by simpa [Watch.output] using hcard
  have hheld : ∀ a ∈ s.stages, a.held ≠ [] := by
    intro a ha hempty
    refine Stage.full_of_card (hfull.trans (hs.capacities ▸ rfl)) a ha ?_
    rw [Stage.HasRoom, hempty]
    exact hpos _ (hs.capacities ▸ List.mem_map_of_mem ha)
  -- The goroutine takes an output, and before it takes the lock, a `Push` fills the room.
  obtain ⟨t, p, hleaves⟩ :=
    Stage.exists_leaves (fun h => hne (by rw [← hs.capacities, h]; rfl)) hheld
  have hpoll := hreach.step (.poll hw hleaves)
  have hkeys : (Stage.keys s.stages).card = (Stage.keys p).card + 1 := by
    rw [hleaves.keys, Multiset.card_cons]
  have hpolled : Filled capacities capacities.sum { s with pipeline := p, watch := .waiting t } :=
    ⟨hs.lock, hs.idle, hs.done, hs.fresh, hleaves.capacities.trans hs.capacities, by
      simp only [Deduper.stages, Watch.output, Multiset.card_singleton]
      omega⟩
  obtain ⟨s', hreach', hs', hw'⟩ :=
    hpolled.next hpos (by omega) (by simp only [Deduper.stages]; omega)
  -- The next `Push` takes the lock and waits for room.
  have hcard' := hs'.card
  rw [hw'] at hcard'
  refine ⟨_, (hpoll.trans hreach').trans (hs'.reaches_atPush (by omega)), hs'.deadlocked hw' ?_⟩
  simpa [Watch.output, Watch.spawn] using hcard'

/-- The input channel of the source, one transfer at the emitter, and stages of ten
workers. -/
theorem deduper_deadlocks :
    ∃ s, Reaches (.start (Stage.empty (inputBufferSize :: 1 :: List.replicate 16 10))) s ∧
      Deadlocked s :=
  exists_deadlock (by simp) (by decide) (by decide)

end Deadlock

/-! ## Two calls with one transfer -/

def twice (_ : Bool) : IBCV2Transfer := numbered 5

/-- The first call has returned, and the second has the lock. -/
theorem exists_secondLocked : ∃ s : Deduper stagedPipeline Bool,
    ReflTransGen (Turn RoomAtLock twice) (.start (Stage.empty [2])) s ∧
      s.pushes false = .done true ∧
      s.pushes true = .locked ∧ s.lock = some (.push true) ∧
      s.inPipeline = {newTransferKey (numbered 5)} := by
  have hroom : Stage.Takes ⟨2, [], Nat.zero_le 2⟩ (numbered 5)
      ⟨2, [numbered 5], Nat.one_lt_two.le⟩ := ⟨rfl, rfl⟩
  refine ⟨_, .head ⟨.call false, trivial, .call rfl⟩ <| .head ⟨.call true, trivial, .call rfl⟩ <|
    .head ⟨.lock false, ⟨_, rfl, Nat.two_pos⟩, .lock rfl rfl⟩ <|
      .head ⟨.lookUp false, trivial, .lookUp rfl⟩ <|
    .head ⟨.mark false, trivial, .mark rfl⟩ <|
      .head ⟨.push false, trivial, .push rfl (.first [] hroom)⟩ <|
    .head ⟨.unlock false, trivial, .unlock rfl⟩ <|
    .single ⟨.lock true, ⟨_, rfl, Nat.one_lt_two⟩, .lock rfl rfl⟩, rfl, rfl, rfl, rfl⟩

/-- The second call finds the key of the first, and returns `false`. -/
theorem one_live_instance_twice : ∃ s s₁ s₂ : Deduper stagedPipeline Bool,
    ReflTransGen (Turn (fun _ _ => True) twice) (.start (Stage.empty [2])) s ∧
      s.live twice = {newTransferKey (numbered 5)} ∧ Step twice (.lookUp true) s s₁ ∧
      ReflTransGen (Turn (fun _ _ => True) twice) s₁ s₂ ∧ s₂.pushes false = .done true ∧
      s₂.pushes true = .done false ∧
      ∀ s' ok, ReflTransGen (Turn (fun _ _ => True) twice) s₁ s' → s'.pushes true = .done ok →
      ok = false := by
  obtain ⟨s, hrun, hfirst, hsecond, hlock, hkeys⟩ := exists_secondLocked
  have hrun : ReflTransGen (Turn (fun _ _ => True) twice) (.start (Stage.empty [2])) s :=
    hrun.lift id fun _ _ h => h.imp fun _ h => ⟨trivial, h.2⟩
  obtain ⟨hlive, -, hreturns⟩ := one_live_instance twice (Stage.keys_empty [2]) hrun
  have hmem : newTransferKey (twice true) ∈ s.inPipeline := hkeys ▸ Finset.mem_singleton_self _
  have hlook : Step twice (.lookUp true) s (s.goto true (.returning false)) := by
    have h : Step twice (.lookUp true) s _ := .lookUp hsecond
    rwa [if_pos hmem] at h
  have hunlock : Step twice (.unlock true) (s.goto true (.returning false)) _ :=
    .unlock (s.pushes_goto_self ..)
  have hsteps :=
    ReflTransGen.single (r := Turn (fun _ _ => True) twice) ⟨.unlock true, trivial, hunlock⟩
  refine ⟨s, _, _, hrun, hlive.trans (by rw [hkeys]; rfl), hlook, hsteps, hfirst, rfl,
    fun s' ok hs' hok => ?_⟩
  simpa [hmem] using hreturns true _ s' ok hlook hs' hok

theorem deduper_progress_twice : ∃ s : Deduper stagedPipeline Bool, s.pushes true = .locked ∧
    ∃ a s', Act.isParty a = true ∧ RoomAtLock s a ∧ Step twice a s s' := by
  obtain ⟨s, hrun, -, hsecond, -⟩ := exists_secondLocked
  refine ⟨s, hsecond, deduper_progress twice (by simp) (by simp) hrun (.inl ⟨true, ?_⟩)⟩
  rw [hsecond]
  rfl

end PlatformRelayer.PipelineDeduper

import Mathlib.Algebra.Order.Group.Multiset
import Mathlib.Logic.Relation
import Mathlib.Tactic.Abel
import PlatformRelayer.Ibcv2.ConditionalBatch

/-!
# A batch stage conserves its transfers

What comes in at a batch stage goes out of it, once, and then `out` is closed
(`batch_stage_conserves`). Each step keeps the transfers that are in flight
together with those that were emitted (`inFlight_step`). The channels are closed
one after the other, each when nothing is left before it (`Closing`); so the
forwarder, which sends on `out` and does not close it, has ended when the
goroutine of the results closes it. A step of a transfer brings it nearer to
`out` (`weight_step`), and there is a step as long as `out` is open
(`exists_step`).
-/

namespace PlatformRelayer.ConditionallyBatchProcess

open Relation

variable {T : Type} {args : Args T} {s s' : State T}

/-! ## Conservation -/

def Forwarder.held : Forwarder T → Multiset T
  | .deciding i | .bypassing i | .batching i => {i}
  | .receiving | .closed => 0

def Collector.held : Collector T → Multiset T
  | .collecting b | .sending b _ => b
  | .closed => 0

def Buffer.held : Buffer T → Multiset T
  | .sending b => b
  | .receiving | .closed => 0

def Dispatcher.held : Dispatcher T → Multiset T
  | .starting b => b
  | .receiving | .closed => 0

def Worker.held : Worker T → List T
  | .processing b | .sending b => b

def Results.held : Results T → Multiset T
  | .emitting l => l
  | .receiving | .closed => 0

/-- The transfers that have come in and not gone out, and those yet to come in. -/
def State.inFlight (s : State T) : Multiset T :=
  s.input + s.forwarder.held + s.collector.held + s.buffer.held + s.bufferedBatches.flatten +
    s.dispatcher.held + s.workers.flatMap Worker.held + s.results.held

@[simp] theorem held_decide (args : Args T) (i : T)
    (should : Bool) : (args.decide i should).held = {i} := by
  rw [Args.decide]
  split <;> rfl

@[simp] theorem held_collect (args : Args T) (b : List T)
    (i : T) : (args.collect b i).held = b + {i} := by
  rw [Args.collect]
  split <;> rfl

/-- Each step keeps every transfer, as long as there is no panic. -/
theorem inFlight_step (h : Step args s s') (hs : s'.panicked = false) :
    (s'.emitted : Multiset T) + s'.inFlight = s.emitted + s.inFlight := by
  cases h with
  | receive hf hi =>
    simp only [State.inFlight, hf, hi, Forwarder.held, ← Multiset.cons_coe,
      ← Multiset.singleton_add]
    abel
  | closeToBatch hf hi => simp only [State.inFlight, hf, Forwarder.held]
  | decide should hf =>
    simp only [State.inFlight, hf, held_decide]
    rfl
  | bypass hf hr =>
    simp only [State.inFlight, hf, Forwarder.held, ← Multiset.coe_add, Multiset.coe_singleton]
    abel
  | panic hf hr => cases hs
  | batch hf hc =>
    simp only [State.inFlight, hf, hc, held_collect]
    simp only [Forwarder.held, Collector.held]
    abel
  | timeUp hc hb => simp only [State.inFlight, hc, Collector.held]
  | lastBatch hc hb hf => simp only [State.inFlight, hc, Collector.held]
  | closeBatches hc hf => simp only [State.inFlight, hc, Collector.held, Multiset.coe_nil]
  | @sendBatch b isOpen hc hb =>
    have hnone : Collector.held
        (if isOpen = true then .collecting [] else (.closed : Collector T)) = 0 := by
      split <;> rfl
    simp only [State.inFlight, hc, hb, hnone]
    simp only [Collector.held, Buffer.held]
    abel
  | fill hb hlen =>
    simp only [State.inFlight, hb, Buffer.held, List.flatten_append, List.flatten_singleton,
      ← Multiset.coe_add]
    abel
  | closeBufferedBatches hb hc => simp only [State.inFlight, hb, Buffer.held]
  | take hd hb =>
    simp only [State.inFlight, hd, hb, Dispatcher.held, List.flatten_cons, ← Multiset.coe_add]
    abel
  | start hd hw =>
    simp only [State.inFlight, hd, Dispatcher.held, List.flatMap_append, List.flatMap_singleton,
      Worker.held, ← Multiset.coe_add]
    abel
  | closeResults hd hb hbb hw => simp only [State.inFlight, hd, Dispatcher.held]
  | process hw hr =>
    simp only [State.inFlight, hw, List.flatMap_append, List.flatMap_cons, Worker.held,
      ← Multiset.coe_add, Multiset.coe_eq_coe.mpr hr]
  | sendResults hw hr =>
    simp only [State.inFlight, hw, hr, List.flatMap_append, List.flatMap_cons, Worker.held,
      Results.held, ← Multiset.coe_add]
    abel
  | emit hr =>
    simp only [State.inFlight, hr, Results.held, ← Multiset.cons_coe, ← Multiset.singleton_add,
      ← Multiset.coe_add, Multiset.coe_nil]
    abel
  | next hr => simp only [State.inFlight, hr, Results.held, Multiset.coe_nil]
  | closeOut hr hd => simp only [State.inFlight, hr, Results.held]

/-! ## Closing -/

/-- A channel is closed after the one before it, once nothing is left of that. -/
structure Closing (s : State T) : Prop where
  forwarder : s.forwarder = .closed → s.input = []
  lastBatch (b : List T) : s.collector = .sending b false → s.forwarder = .closed
  collector : s.collector = .closed → s.forwarder = .closed
  buffer : s.buffer = .closed → s.collector = .closed
  dispatcher : s.dispatcher = .closed → s.buffer = .closed ∧ s.bufferedBatches = [] ∧ s.workers = []
  results : s.results = .closed → s.dispatcher = .closed
  panicked : s.panicked = false

theorem closing_start (input : List T) : Closing { input := input } := by
  constructor <;> simp

theorem decide_ne_closed (args : Args T) (i : T)
    (should : Bool) : args.decide i should ≠ .closed := by
  rw [Args.decide]
  split <;> simp

theorem collect_ne_closed (args : Args T) (b : List T) (i : T) : args.collect b i ≠ .closed := by
  rw [Args.collect]
  split <;> simp

theorem collect_ne_last (args : Args T) (b b' : List T)
    (i : T) : args.collect b i ≠ .sending b' false := by
  rw [Args.collect]
  split <;> simp

/-- Where `out` is closed, so is everything before it. -/
theorem Closing.forwarder_of_results (hs : Closing s)
    (h : s.results = .closed) : s.forwarder = .closed :=
  hs.collector (hs.buffer (hs.dispatcher (hs.results h)).1)

/-- Before `toBatch` is closed, the collector waits for more. -/
theorem Closing.collects (hs : Closing s) (hf : s.forwarder ≠ .closed) :
    (∀ b, s.collector ≠ .sending b false) ∧ s.collector ≠ .closed :=
  ⟨fun b h => hf (hs.lastBatch b h), fun h => hf (hs.collector h)⟩

theorem closing_step (h : Step args s s') (hs : Closing s) : Closing s' := by
  -- A step is of one goroutine, and concerns the clauses on its channels only.
  have hforwards (hf : s.forwarder ≠ .closed) (f : Forwarder T) :
      (∀ b, s.collector = .sending b false → f = .closed) ∧ (s.collector = .closed → f = .closed) :=
    ⟨fun b h => absurd h ((hs.collects hf).1 b), fun h => absurd h (hs.collects hf).2⟩
  have hcollects {b : List T} (hc : s.collector = .collecting b) (c : Collector T)
      (h : s.buffer = .closed) : c = .closed := absurd (hs.buffer h) (by simp [hc])
  have hbuffers (hb : s.buffer ≠ .closed) {P : Prop} (h : s.dispatcher = .closed) : P :=
    absurd (hs.dispatcher h).1 hb
  have hworks (hw : s.workers ≠ []) {P : Prop} (h : s.dispatcher = .closed) : P :=
    absurd (hs.dispatcher h).2.2 hw
  cases h with
  | receive hf _ =>
    obtain ⟨hlast, hclosed⟩ := hforwards (by simp [hf]) (.deciding _)
    exact { hs with forwarder := by simp, lastBatch := hlast, collector := hclosed }
  | closeToBatch _ hi =>
    exact { hs with
      forwarder := fun _ => hi
      lastBatch := fun _ _ => rfl
      collector := fun _ => rfl }
  | decide should hf =>
    obtain ⟨hlast, hclosed⟩ := hforwards (by simp [hf]) (args.decide _ should)
    exact { hs with
      forwarder := fun h => absurd h (decide_ne_closed args _ should), lastBatch :=
        hlast, collector := hclosed }
  | bypass hf _ =>
    obtain ⟨hlast, hclosed⟩ := hforwards (by simp [hf]) .receiving
    exact { hs with forwarder := by simp, lastBatch := hlast, collector := hclosed }
  | panic hf hr => simp [hs.forwarder_of_results hr] at hf
  | batch hf hc =>
    exact { hs with
      forwarder := by simp
      lastBatch := fun b h => absurd h (collect_ne_last args _ b _)
      collector := fun h => absurd h (collect_ne_closed args _ _)
      buffer := hcollects hc _ }
  | timeUp hc _ =>
    exact { hs with lastBatch := by simp, collector := by simp, buffer := hcollects hc _ }
  | lastBatch hc _ hf =>
    exact { hs with lastBatch := fun _ _ => hf, collector := by simp, buffer := hcollects hc _ }
  | closeBatches hc hf =>
    exact { hs with lastBatch := by simp, collector := fun _ => hf, buffer := fun _ => rfl }
  | @sendBatch b isOpen hc hb =>
    cases isOpen with
    | true =>
      exact { hs with
        lastBatch := by simp
        collector := by simp
        buffer := by simp
        dispatcher := hbuffers (by simp [hb]) }
    | false =>
      exact { hs with
        lastBatch := by simp
        collector := fun _ => hs.lastBatch b hc
        buffer := by simp
        dispatcher := hbuffers (by simp [hb]) }
  | fill hb _ => exact { hs with buffer := by simp, dispatcher := hbuffers (by simp [hb]) }
  | closeBufferedBatches hb hc =>
    exact { hs with buffer := fun _ => hc, dispatcher := hbuffers (by simp [hb]) }
  | take hd _ =>
    exact { hs with
      dispatcher := by simp
      results := fun h => absurd (hs.results h) (by simp [hd]) }
  | start hd _ =>
    exact { hs with
      dispatcher := by simp
      results := fun h => absurd (hs.results h) (by simp [hd]) }
  | closeResults _ hb hbb hw =>
    exact { hs with dispatcher := fun _ => ⟨hb, hbb, hw⟩, results := fun _ => rfl }
  | process hw _ => exact { hs with dispatcher := hworks (by simp [hw]) }
  | sendResults hw _ => exact { hs with dispatcher := hworks (by simp [hw]), results := by simp }
  | emit => exact { hs with results := by simp }
  | next => exact { hs with results := by simp }
  | closeOut _ hd => exact { hs with results := fun _ => hd }

/-! ## Progress -/

theorem exists_step_of_worker (args : Args T) {w : Worker T} {ws : List (Worker T)}
    (hr : s.results = .receiving) (hw : s.workers = w :: ws) : ∃ s', Step args s s' := by
  rw [← List.nil_append (w :: ws)] at hw
  cases w with
  | processing b => exact ⟨_, .process hw (.refl b)⟩
  | sending r => exact ⟨_, .sendResults hw hr⟩

/-- Until `out` is closed, someone can go on: who waits for a channel finds the
goroutine at the other end of it at work, or itself waiting for the next. -/
theorem exists_step (args : Args T) (h : s.results ≠ .closed) : ∃ s', Step args s s' := by
  cases hr : s.results with
  | closed => exact absurd hr h
  | emitting outputs =>
    cases outputs with
    | nil => exact ⟨_, .next hr⟩
    | cons o rest => exact ⟨_, .emit hr⟩
  | receiving =>
  cases hd : s.dispatcher with
  | closed => exact ⟨_, .closeOut hr hd⟩
  | starting b =>
    cases hw : s.workers with
    | nil => exact ⟨_, .start hd (by rw [hw]; exact args.concurrency_pos)⟩
    | cons w ws => exact exists_step_of_worker args hr hw
  | receiving =>
  cases hbb : s.bufferedBatches with
  | cons b rest => exact ⟨_, .take hd hbb⟩
  | nil =>
  cases hw : s.workers with
  | cons w ws => exact exists_step_of_worker args hr hw
  | nil =>
  cases hb : s.buffer with
  | closed => exact ⟨_, .closeResults hd hb hbb hw⟩
  | sending b => exact ⟨_, .fill hb (by rw [hbb]; exact Nat.zero_lt_succ _)⟩
  | receiving =>
  cases hc : s.collector with
  | closed => exact ⟨_, .closeBufferedBatches hb hc⟩
  | sending b isOpen => exact ⟨_, .sendBatch hc hb⟩
  | collecting b =>
  cases hf : s.forwarder with
  | receiving =>
    cases hi : s.input with
    | nil => exact ⟨_, .closeToBatch hf hi⟩
    | cons i rest => exact ⟨_, .receive hf hi⟩
  | deciding i => exact ⟨_, .decide true hf⟩
  | bypassing i => exact ⟨_, .bypass hf (by simp [hr])⟩
  | batching i => exact ⟨_, .batch hf hc⟩
  | closed =>
    cases b with
    | nil => exact ⟨_, .closeBatches hc hf⟩
    | cons i b => exact ⟨_, .lastBatch hc (by simp) hf⟩

/-! ## Termination -/

def Forwarder.weight : Forwarder T → Nat
  | .deciding _ => 41
  | .batching _ => 40
  | .bypassing _ => 3
  | .receiving => 1
  | .closed => 0

def Collector.weight : Collector T → Nat
  | .collecting b => 30 * b.length + 2
  | .sending b _ => 7 * (b.length + 1) + 2
  | .closed => 0

def Buffer.weight : Buffer T → Nat
  | .sending b => 6 * (b.length + 1) + 1
  | .receiving => 1
  | .closed => 0

def Dispatcher.weight : Dispatcher T → Nat
  | .starting b => 4 * (b.length + 1) + 1
  | .receiving => 1
  | .closed => 0

def Worker.weight : Worker T → Nat
  | .processing b => 3 * (b.length + 1)
  | .sending r => 2 * (r.length + 1)

def Results.weight : Results T → Nat
  | .emitting l => l.length + 2
  | .receiving => 1
  | .closed => 0

/-- How much there is left to do. A transfer weighs less at each place that it
comes to, and a goroutine that has ended nothing. -/
def State.weight (s : State T) : Nat :=
  41 * s.input.length + s.forwarder.weight + s.collector.weight + s.buffer.weight +
    (s.bufferedBatches.map fun b =>
      5 * (b.length + 1)).sum + s.dispatcher.weight + (s.workers.map Worker.weight).sum +
    s.results.weight

theorem weight_decide_lt (args : Args T) (i : T)
    (should : Bool) : (args.decide i should).weight < 41 := by
  rw [Args.decide]
  split <;> simp [Forwarder.weight]

theorem weight_collect_le (args : Args T) (b : List T)
    (i : T) : (args.collect b i).weight ≤ 30 * b.length + 32 := by
  rw [Args.collect]
  split <;> simp only [Collector.weight, List.length_append, List.length_singleton] <;> omega

theorem weight_step (h : Step args s s') : s'.weight < s.weight := by
  cases h with
  | receive hf hi => simp only [State.weight, hf, hi, Forwarder.weight, List.length_cons]; omega
  | closeToBatch hf hi => simp only [State.weight, hf, Forwarder.weight]; omega
  | @decide i should hf =>
    have := weight_decide_lt args i should
    simp only [State.weight, hf] at this ⊢
    simp only [Forwarder.weight] at this ⊢
    omega
  | bypass hf hr => simp only [State.weight, hf, Forwarder.weight]; omega
  | panic hf hr => simp only [State.weight, hf, Forwarder.weight]; omega
  | @batch i b hf hc =>
    have := weight_collect_le args b i
    simp only [State.weight, hf, hc]
    simp only [Forwarder.weight, Collector.weight] at this ⊢
    omega
  | @timeUp b hc hb =>
    have := List.length_pos_iff.mpr hb
    simp only [State.weight, hc, Collector.weight]
    omega
  | @lastBatch b hc hb hf =>
    have := List.length_pos_iff.mpr hb
    simp only [State.weight, hc, Collector.weight]
    omega
  | closeBatches hc hf => simp only [State.weight, hc, Collector.weight]; omega
  | @sendBatch b isOpen hc hb =>
    cases isOpen <;>
      simp only [State.weight, hc, hb, Collector.weight, Buffer.weight, if_true, List.length_nil,
        Bool.false_eq_true, if_false] <;> omega
  | fill hb hlen => simp only [State.weight, hb, Buffer.weight, List.map_append, List.sum_append,
    List.map_cons, List.map_nil,
      List.sum_cons, List.sum_nil]; omega
  | closeBufferedBatches hb hc => simp only [State.weight, hb, Buffer.weight]; omega
  | take hd hb =>
    simp only [State.weight, hd, hb, Dispatcher.weight, List.map_cons, List.sum_cons]; omega
  | start hd hw => simp only [State.weight, hd, Dispatcher.weight, List.map_append, List.sum_append,
    List.map_cons,
      List.map_nil, List.sum_cons, List.sum_nil, Worker.weight]; omega
  | closeResults hd hb hbb hw => simp only [State.weight, hd, Dispatcher.weight]; omega
  | process hw hr =>
    have := hr.length_eq
    simp only [State.weight, hw, List.map_append, List.sum_append, List.map_cons, List.sum_cons,
      Worker.weight]; omega
  | sendResults hw hr =>
    simp only [State.weight, hw, hr, List.map_append, List.sum_append, List.map_cons, List.sum_cons,
      Worker.weight, Results.weight]; omega
  | emit hr => simp only [State.weight, hr, Results.weight, List.length_cons]; omega
  | next hr => simp only [State.weight, hr, Results.weight, List.length_nil]; omega
  | closeOut hr hd => simp only [State.weight, hr, Results.weight]; omega

/-! ## Runs -/

theorem closing_steps {input : List T} (h : ReflTransGen (Step args) { input := input } s) :
    Closing s := by
  induction h with
  | refl => exact closing_start input
  | tail _ h ih => exact closing_step h ih

theorem inFlight_steps {input : List T} (h : ReflTransGen (Step args) { input := input } s) :
    (s.emitted : Multiset T) + s.inFlight = input := by
  induction h with
  | refl => simp [State.inFlight, Forwarder.held, Collector.held, Buffer.held, Dispatcher.held,
    Results.held]
  | tail hrun h ih =>
    have hs := closing_step h (closing_steps hrun)
    rw [inFlight_step h hs.panicked, ih]

/-- Nothing is in flight where `out` is closed. -/
theorem Closing.inFlight_of_results (hs : Closing s)
    (h : s.results = .closed) : s.inFlight = 0 := by
  have hd := hs.results h
  obtain ⟨hb, hbb, hw⟩ := hs.dispatcher hd
  have hc := hs.buffer hb
  have hf := hs.collector hc
  simp [State.inFlight, h, hd, hb, hbb, hw, hc, hf, hs.forwarder hf, Forwarder.held, Collector.held,
    Buffer.held, Dispatcher.held, Results.held]

/-- Every run of a batch stage, on any input: there is no send on the closed `out`;
what is emitted are transfers of the input, each at most once, and all of them
once `out` is closed; until then someone can go on, and not for ever. -/
theorem batch_stage_conserves (args : Args T) (input : List T)
    (h : ReflTransGen (Step args) { input := input } s) :
    s.panicked = false ∧ (s.emitted : Multiset T) ≤ input ∧
      (s.results = .closed → s.emitted.Perm input ∧ ∀ s', Step args s s' → s'.emitted = s.emitted) ∧
      (s.results ≠ .closed → ∃ s', Step args s s') ∧ Acc (fun s' s => Step args s s') s := by
  have hs := closing_steps h
  have hsum := inFlight_steps h
  refine ⟨hs.panicked, hsum ▸ Multiset.le_add_right .., fun hr => ⟨?_, fun s' h' => ?_⟩,
    exists_step args, ?_⟩
  · rw [hs.inFlight_of_results hr, add_zero] at hsum
    exact Multiset.coe_eq_coe.mp hsum
  · have hf := hs.forwarder_of_results hr
    cases h' with
    | bypass hf' _ => simp [hf] at hf'
    | emit hr' => simp [hr] at hr'
    | _ => rfl
  · have hwf : WellFounded fun s' s : State T => Step args s s' :=
      Subrelation.wf weight_step (measure State.weight).wf
    exact hwf.apply s

/-- Batches of two; the transfer 2 has errored. -/
def someArgs : Args Nat := ⟨(· == 2), 2, 1, Nat.one_pos⟩

def closedOut : State Nat where
  input := []
  forwarder := .closed
  collector := .closed
  buffer := .closed
  dispatcher := .closed
  results := .closed
  emitted := [2, 3, 1]

theorem steps_closedOut : ReflTransGen (Step someArgs) { input := [1, 2, 3] } closedOut :=
  -- The second transfer goes past the batch of the first and the third.
  .head (.receive rfl rfl) <| .head (.decide true rfl) <| .head (.batch rfl rfl) <|
  .head (.receive rfl rfl) <| .head (.decide true rfl) <| .head (.bypass rfl nofun) <|
  .head (.receive rfl rfl) <| .head (.decide true rfl) <| .head (.batch rfl rfl) <|
  .head (.closeToBatch rfl rfl) <|
  -- A worker gets the batch, and returns it in the other order.
  .head (.sendBatch rfl rfl) <| .head (.fill rfl (by decide)) <| .head (.take rfl rfl) <|
  .head (.start rfl Nat.one_pos) <|
  .head (@Step.process _ _ _ [] [] _ _ rfl (.swap 1 3 [])) <|
    .head (@Step.sendResults _ _ _ [] [] _ rfl rfl) <|
  .head (.emit rfl) <| .head (.emit rfl) <| .head (.next rfl) <|
  -- The channels are closed one after the other.
  .head (.closeBatches rfl rfl) <| .head (.closeBufferedBatches rfl rfl) <|
  .head (.closeResults rfl rfl rfl rfl) <| .single (.closeOut rfl rfl)

theorem batch_stage_conserves_closedOut :
    closedOut.emitted.Perm [1, 2, 3] ∧ ∀ s', Step someArgs closedOut s' →
      s'.emitted = closedOut.emitted :=
  (batch_stage_conserves someArgs [1, 2, 3] steps_closedOut).2.2.1 rfl

end PlatformRelayer.ConditionallyBatchProcess

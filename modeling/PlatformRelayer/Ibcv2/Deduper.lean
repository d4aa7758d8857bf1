import Mathlib.Data.Finset.Erase
import Mathlib.Data.Finset.Insert
import Mathlib.Logic.Function.Basic
import PlatformRelayer.Ibcv2.Transfer

/-!
# `PipelineDeduper`

The deduper with its lock. Any number of callers are in `Push` at the same
time, each at one of the points of it (`Pc`), and a goroutine that the first
call starts takes the outputs of the pipeline and deletes their keys (`Watch`).
What `Dispatcher.lean` does in one turn is here several steps of a caller that
holds the lock.

The pipeline is any `PipelineModel`: it takes transfers in, works on them, which
leaves their keys alone, and puts each out once. `stagedPipeline` is one whose
input channel and stages have room for finitely many transfers.
-/

namespace PlatformRelayer

namespace PipelineDeduper

/-- What a deduper knows a transfer by. -/
structure TransferKey where
  sourceChainID : String
  packetSequenceNumber : UInt32
  packetSourceClientID : String
deriving DecidableEq, Repr

def newTransferKey (t : IBCV2Transfer) : TransferKey :=
  ⟨t.sourceChainID, t.packetSequenceNumber, t.packetSourceClientID⟩

/-- A pipeline, as far as its deduper is concerned. -/
structure PipelineModel where
  State : Type
  /-- The keys of the transfers inside. -/
  inside : State → Multiset TransferKey
  /-- The pipeline accepts a transfer, and so its `Push` returns. -/
  push : State → IBCV2Transfer → State → Prop
  work : State → State → Prop
  /-- `Poll` returns a transfer. -/
  output : State → IBCV2Transfer → State → Prop
  inside_push {p p' : State} {t : IBCV2Transfer} :
    push p t p' → inside p' = newTransferKey t ::ₘ inside p
  inside_work {p p' : State} : work p p' → inside p' = inside p
  inside_output {p p' : State} {t : IBCV2Transfer} :
    output p t p' → inside p = newTransferKey t ::ₘ inside p'

/-- Where a call of `Push` is: not made yet, past the `once` and waiting for the
lock, about to look its key up, about to mark it, in `Push` of the pipeline,
about to unlock and return, or back. -/
inductive Pc where
  | idle
  | waiting
  | locked
  | absent
  | pushing
  | returning (ok : Bool)
  | done (ok : Bool)
deriving DecidableEq, Repr

/-- Where the goroutine is that takes the outputs: not started, in `Poll`, with
an output and waiting for the lock, about to delete its key, or about to
unlock. -/
inductive Watch where
  | unborn
  | polling
  | waiting (output : IBCV2Transfer)
  | locked (output : IBCV2Transfer)
  | deleted
deriving DecidableEq, Repr

/-- What `once.Do` does to the goroutine. -/
def Watch.spawn : Watch → Watch
  | .unborn => .polling
  | w => w

/-- Who has the lock. -/
inductive Holder (ι : Type) where
  | push (i : ι)
  | watch

/-- A deduper and the calls to it. -/
structure Deduper (P : PipelineModel) (ι : Type) where
  pipeline : P.State
  inPipeline : Finset TransferKey := ∅
  lock : Option (Holder ι) := none
  watch : Watch := .unborn
  pushes : ι → Pc := fun _ => .idle

/-- A step of a caller, of the pipeline or of the goroutine. -/
inductive Act (ι : Type) where
  | call (i : ι)
  | lock (i : ι)
  | lookUp (i : ι)
  | mark (i : ι)
  | push (i : ι)
  | unlock (i : ι)
  | work
  | poll
  | watchLock
  | delete
  | watchUnlock

variable {P : PipelineModel} {ι : Type} [DecidableEq ι]

/-- Caller `i` goes on to a point. -/
def Deduper.goto (s : Deduper P ι) (i : ι) (pc : Pc) : Deduper P ι :=
  { s with pushes := Function.update s.pushes i pc }

section Goto

variable (s : Deduper P ι) (i : ι) (pc : Pc)

@[simp] theorem Deduper.pipeline_goto : (s.goto i pc).pipeline = s.pipeline := rfl

@[simp] theorem Deduper.inPipeline_goto : (s.goto i pc).inPipeline = s.inPipeline := rfl

@[simp] theorem Deduper.lock_goto : (s.goto i pc).lock = s.lock := rfl

@[simp] theorem Deduper.watch_goto : (s.goto i pc).watch = s.watch := rfl

@[simp] theorem Deduper.pushes_goto_self : (s.goto i pc).pushes i = pc := Function.update_self ..

theorem Deduper.pushes_goto_of_ne {j : ι} (h : j ≠ i) : (s.goto i pc).pushes j = s.pushes j :=
  Function.update_of_ne h ..

end Goto

/-- The steps, where call `i` pushes `transfer i`. -/
inductive Step (transfer : ι → IBCV2Transfer) : Act ι → Deduper P ι → Deduper P ι → Prop where
  | call {s : Deduper P ι} {i : ι} : s.pushes i = .idle →
    Step transfer (.call i) s { s.goto i .waiting with watch := s.watch.spawn }
  | lock {s : Deduper P ι} {i : ι} : s.pushes i = .waiting → s.lock = none →
    Step transfer (.lock i) s { s.goto i .locked with lock := some (.push i) }
  | lookUp {s : Deduper P ι} {i : ι} : s.pushes i = .locked →
    Step transfer (.lookUp i) s
      (s.goto i (if newTransferKey (transfer i) ∈ s.inPipeline then .returning false else .absent))
  | mark {s : Deduper P ι} {i : ι} : s.pushes i = .absent →
    Step transfer (.mark i) s
      { s.goto i .pushing with inPipeline := insert (newTransferKey (transfer i)) s.inPipeline }
  | push {s : Deduper P ι} {i : ι} {p : P.State} : s.pushes i = .pushing →
    P.push s.pipeline (transfer i) p →
    Step transfer (.push i) s { s.goto i (.returning true) with pipeline := p }
  | unlock {s : Deduper P ι} {i : ι} {ok : Bool} : s.pushes i = .returning ok →
    Step transfer (.unlock i) s { s.goto i (.done ok) with lock := none }
  | work {s : Deduper P ι} {p : P.State} : P.work s.pipeline p →
    Step transfer .work s { s with pipeline := p }
  | poll {s : Deduper P ι} {p : P.State} {t : IBCV2Transfer} : s.watch = .polling →
    P.output s.pipeline t p → Step transfer .poll s { s with pipeline := p, watch := .waiting t }
  | watchLock {s : Deduper P ι} {t : IBCV2Transfer} : s.watch = .waiting t → s.lock = none →
    Step transfer .watchLock s { s with lock := some .watch, watch := .locked t }
  | delete {s : Deduper P ι} {t : IBCV2Transfer} : s.watch = .locked t →
    Step transfer .delete s
    { s with inPipeline := s.inPipeline.erase (newTransferKey t), watch := .deleted }
  | watchUnlock {s : Deduper P ι} : s.watch = .deleted →
    Step transfer .watchUnlock s { s with lock := none, watch := .polling }

/-- A step, of those that `ok` allows. -/
def Turn (ok : Deduper P ι → Act ι → Prop) (transfer : ι → IBCV2Transfer)
    (s s' : Deduper P ι) : Prop :=
  ∃ a, ok s a ∧ Step transfer a s s'

/-! ## Stages with finite room -/

/-- The input channel or a stage: the transfers that it holds, of those it has
room for. -/
structure Stage where
  capacity : Nat
  held : List IBCV2Transfer
  fits : held.length ≤ capacity

namespace Stage

def HasRoom (a : Stage) : Prop := a.held.length < a.capacity

/-- The stage takes a transfer in. It has room if it can. -/
def Takes (a : Stage) (t : IBCV2Transfer) (a' : Stage) : Prop :=
  a'.capacity = a.capacity ∧ a'.held = a.held ++ [t]

/-- The stage hands one of its transfers on, in any order. What the stage did to
it leaves its key alone. -/
def Hands (a : Stage) (t : IBCV2Transfer) (a' : Stage) : Prop :=
  a'.capacity = a.capacity ∧ ∃ t₀, newTransferKey t = newTransferKey t₀ ∧
    a.held.Perm (t₀ :: a'.held)

/-- A transfer goes on to the next stage. -/
inductive Moves : List Stage → List Stage → Prop where
  | here {a a' b b' : Stage} {t : IBCV2Transfer} (rest : List Stage) : a.Hands t a' → b.Takes t b' →
    Moves (a :: b :: rest) (a' :: b' :: rest)
  | there {rest rest' : List Stage} (a : Stage) : Moves rest rest' → Moves (a :: rest) (a :: rest')

/-- A transfer comes in at the first stage. -/
inductive Enters : List Stage → IBCV2Transfer → List Stage → Prop where
  | first {a a' : Stage} {t : IBCV2Transfer} (rest : List Stage) :
    a.Takes t a' → Enters (a :: rest) t (a' :: rest)

/-- A transfer leaves the last stage. -/
inductive Leaves : List Stage → IBCV2Transfer → List Stage → Prop where
  | last {a a' : Stage} {t : IBCV2Transfer} : a.Hands t a' → Leaves [a] t [a']
  | there {b : Stage} {rest rest' : List Stage} {t : IBCV2Transfer} (a : Stage) :
    Leaves (b :: rest) t rest' → Leaves (a :: b :: rest) t (a :: rest')

def keys (stages : List Stage) : Multiset TransferKey :=
  (stages.flatMap (·.held)).map newTransferKey

theorem keys_cons (a : Stage) (rest : List Stage) :
    keys (a :: rest) = (a.held.map newTransferKey : List TransferKey) + keys rest := by
  simp [keys]

theorem Takes.keys {a a' : Stage} {t : IBCV2Transfer} (h : a.Takes t a') :
    (a'.held.map newTransferKey : Multiset TransferKey) =
      newTransferKey t ::ₘ (a.held.map newTransferKey : List TransferKey) := by
  rw [h.2]
  simp

theorem Hands.keys {a a' : Stage} {t : IBCV2Transfer} (h : a.Hands t a') :
    (a.held.map newTransferKey : Multiset TransferKey) =
      newTransferKey t ::ₘ (a'.held.map newTransferKey : List TransferKey) := by
  obtain ⟨-, t₀, hk, hperm⟩ := h
  rw [hk]
  simpa using hperm.map newTransferKey

theorem Enters.keys {l l' : List Stage} {t : IBCV2Transfer} (h : Enters l t l') :
    Stage.keys l' = newTransferKey t ::ₘ Stage.keys l := by
  cases h with
  | first rest h => rw [keys_cons, keys_cons, h.keys, Multiset.cons_add]

theorem Moves.keys {l l' : List Stage} (h : Moves l l') : Stage.keys l' = Stage.keys l := by
  induction h with
  | here rest ha hb =>
    rw [keys_cons, keys_cons, keys_cons, keys_cons, ha.keys, hb.keys, Multiset.cons_add,
      Multiset.cons_add, Multiset.add_cons]
  | there a _ ih => rw [keys_cons, keys_cons, ih]

theorem Leaves.keys {l l' : List Stage} {t : IBCV2Transfer} (h : Leaves l t l') :
    Stage.keys l = newTransferKey t ::ₘ Stage.keys l' := by
  induction h with
  | last h => rw [keys_cons, keys_cons, h.keys, Multiset.cons_add]
  | there a _ ih => rw [keys_cons a, keys_cons a, ih, Multiset.add_cons]

end Stage

/-- The capacity of the input channel in `NewPipeline`. -/
def inputBufferSize : Nat := 10000

/-- `NewPipeline`: an input channel and the stages behind it. `Push` waits for
room in the channel, and a stage for room in the next one. -/
def stagedPipeline : PipelineModel where
  State := List Stage
  inside := Stage.keys
  push := Stage.Enters
  work := Stage.Moves
  output := Stage.Leaves
  inside_push := Stage.Enters.keys
  inside_work := Stage.Moves.keys
  inside_output := Stage.Leaves.keys

end PipelineDeduper

end PlatformRelayer

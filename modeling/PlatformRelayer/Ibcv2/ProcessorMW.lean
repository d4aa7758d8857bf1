import PlatformRelayer.Ibcv2.BatchProcessors

/-!
# The middleware around the processors

`IBCV2ProcessorMW` and `IBCV2BatchProcessorMW` write the state of a processor
to the database before they hand it a transfer, and turn its error into the
`ProcessingError` of the transfer. The two are not alike where the state
cannot be written: the single one returns the transfer, the batch one goes on
and hands it to the processor (`Routed.updated`).
-/

namespace PlatformRelayer

open Prog Db

/-- The error of a transfer whose state could not be written. -/
def stateUpdateErr (state prevState : Ibcv2RelayStatus) (err : Err) : Err :=
  errorf "updating transfer state to %s from state %s: %w" [.status state, .status prevState] err

/-- `IBCV2ProcessorMW.Process`. Its only error is the one of a cancelled
context, with which the transfer is dropped. -/
def IBCV2ProcessorMW.process (p : IBCV2Processor)
    (t : IBCV2Transfer) : Relay (Except Err IBCV2Transfer) :=
  if t.errored then .ret (.ok t)
  else if t.state = .failed then .ret (.ok t)
  else (p.shouldProcess t).bind fun should =>
    if !should then .ret (.ok t) else
    (ask (.exec (updateTransferState p.state t.key))).bind fun
    | .error err => .ret (.ok (t.fail (stateUpdateErr p.state t.state err)))
    | .ok _ =>
      (p.process { t with state := p.state }).bind fun
      | .error err =>
        if err.is .contextCanceled then .ret (.error err)
        else .ret (.ok ({ t with state := p.state }.fail err))
      | .ok output => .ret (.ok output)

/-- The two lists that `IBCV2BatchProcessorMW.Process` sorts a batch into. -/
structure Routed where
  toProcess : List Ref := []
  notProcessing : List Ref := []
  heap : Heap

namespace Routed

def skip (a : Routed) (r : Ref) : Routed := { a with notProcessing := a.notProcessing ++ [r] }

def fail (a : Routed) (r : Ref) (err : Err) : Routed :=
  { a with heap := a.heap.modify r (·.fail err) }

def hand (a : Routed) (r : Ref) (state : Ibcv2RelayStatus) : Routed :=
  { a with
    heap := a.heap.modify r fun t => { t with state := state }
    toProcess := a.toProcess ++ [r] }

/-- The end of a pass of the loop, after the update of the state. The branch
of its error does not end the pass, so the transfer gets into both lists. -/
def updated (a : Routed) (r : Ref) (state : Ibcv2RelayStatus) : Except Err Unit → Routed
  | .error err => ((a.fail r (stateUpdateErr state (a.heap r).state err)).skip r).hand r state
  | .ok _ => a.hand r state

variable (a : Routed) (r : Ref) (state : Ibcv2RelayStatus) (ans : Except Err Unit)

@[simp] theorem toProcess_updated : (a.updated r state ans).toProcess = a.toProcess ++ [r] := by
    cases ans <;> rfl

theorem heap_updated_ok (u : Unit) :
    (a.updated r state (.ok u)).heap r = { a.heap r with state := state } := if_pos rfl

theorem heap_updated_error (err : Err) : (a.updated r state (.error err)).heap r =
    { a.heap r with
      state := state, processingError := some (stateUpdateErr state (a.heap r).state err) } := by
  simp [updated, hand, skip, fail, IBCV2Transfer.fail]

theorem heap_updated_of_ne {r j : Ref}
    (hj : j ≠ r) : (a.updated r state ans).heap j = a.heap j := by
  cases ans <;> simp [updated, hand, skip, fail, Heap.modify_of_ne _ _ hj]

end Routed

namespace IBCV2BatchProcessorMW

variable (p : IBCV2BatchProcessor)

/-- One pass of the loop over the batch. -/
def routeOne (r : Ref) (a : Routed) : Relay Routed :=
  if (a.heap r).errored then .ret (a.skip r)
  else if (a.heap r).state = .failed then .ret (a.skip r)
  else (p.shouldProcess (a.heap r)).bind fun should =>
    if !should then .ret (a.skip r) else
    (ask (.exec (updateTransferState p.state (a.heap r).key))).bind fun updated =>
    .ret (a.updated r p.state updated)

/-- The loop over the batch. -/
def route : List Ref → Routed → Relay Routed := each (routeOne p)

/-- The error of a batch, given to each of its transfers. -/
def failAll (err : Err) : List Ref → Heap → Heap
  | [], h => h
  | r :: toProcess, h => failAll err toProcess (h.modify r (·.fail err))

/-- What follows the loop. -/
def finish (a : Routed) : Relay (Except Err (List Ref) × Heap) :=
  (p.process a.toProcess a.heap).bind fun
  | (.error err, h) =>
    if err.is .contextCanceled then .ret (.error err, h)
    else .ret (.ok (a.toProcess ++ a.notProcessing), failAll err a.toProcess h)
  | (.ok output, h) => .ret (.ok (output ++ a.notProcessing), h)

def process (batch : List Ref) (h : Heap) : Relay (Except Err (List Ref) × Heap) :=
  (route p batch { heap := h }).bind (finish p)

end IBCV2BatchProcessorMW

end PlatformRelayer

import Mathlib.Logic.Basic

/-!
# `ConditionallyBatchProcess`

The goroutines of a batch stage, with the channels between them. A transfer
that has errored, or that the processor does not want, goes from `in` to `out`
at once; the others are collected into batches, which wait in a buffered
channel for a worker. All of `toBatch`, `batches`, `batchsResults` and `out` are
unbuffered, so a send on one of them is one step of two parties.

A channel is closed once its sender is at `closed`. `Collect` and
`ProcessConcurrently` are those of the pipeline library: a batch is sent when it
has `maxSize` items, when its time is up or when the input is closed, and the
results are closed when all workers are done. A worker returns what it was given
in any order.
-/

namespace PlatformRelayer.ConditionallyBatchProcess

/-- The goroutine that reads `in`: about to receive, with a transfer to decide
about, about to send it on `out` or on `toBatch`, or past `close(toBatch)`. -/
inductive Forwarder (T : Type) where
  | receiving
  | deciding (i : T)
  | bypassing (i : T)
  | batching (i : T)
  | closed

/-- The goroutine of `Collect`, which receives into a buffer and then sends it on
`batches`; if `toBatch` was closed, for the last time. -/
inductive Collector (T : Type) where
  | collecting (buffer : List T)
  | sending (batch : List T) (isOpen : Bool)
  | closed

/-- The goroutine between `batches` and `bufferedBatches`. -/
inductive Buffer (T : Type) where
  | receiving
  | sending (batch : List T)
  | closed

/-- The goroutine of `ProcessConcurrently` that starts the workers. -/
inductive Dispatcher (T : Type) where
  | receiving
  | starting (batch : List T)
  | closed

/-- A worker of `ProcessConcurrently`. -/
inductive Worker (T : Type) where
  | processing (batch : List T)
  | sending (results : List T)

/-- The goroutine that sends the results on `out` and closes it. -/
inductive Results (T : Type) where
  | receiving
  | emitting (outputs : List T)
  | closed

/-- The goroutines and channels of a stage. `in` will give the transfers of
`input` and is then closed; `emitted` is what was received from `out`. -/
structure State (T : Type) where
  input : List T
  forwarder : Forwarder T := .receiving
  collector : Collector T := .collecting []
  buffer : Buffer T := .receiving
  bufferedBatches : List (List T) := []
  dispatcher : Dispatcher T := .receiving
  workers : List (Worker T) := []
  results : Results T := .receiving
  emitted : List T := []
  /-- There was a send on the closed `out`. -/
  panicked : Bool := false

/-- The capacity of `bufferedBatches`. -/
def bufferSize : Nat := 1000

/-- The arguments, and which transfers have errored. -/
structure Args (T : Type) where
  errored : T → Bool
  maxSize : Nat
  concurrency : Nat
  concurrency_pos : 0 < concurrency

variable {T : Type}

/-- What the forwarder does with a transfer, if `ShouldProcess` would answer
`should`. -/
def Args.decide (args : Args T) (i : T) (should : Bool) : Forwarder T :=
  if args.errored i || !should then .bypassing i else .batching i

/-- What `Collect` does with an item. -/
def Args.collect (args : Args T) (buffer : List T) (i : T) : Collector T :=
  if buffer.length < args.maxSize - 1 then .collecting (buffer ++ [i])
    else .sending (buffer ++ [i]) true

/-- A step of one of the goroutines, or of two that meet at a channel. -/
inductive Step (args : Args T) : State T → State T → Prop where
  | receive {s : State T} {i : T} {rest : List T} : s.forwarder = .receiving → s.input = i :: rest →
    Step args s { s with forwarder := .deciding i, input := rest }
  | closeToBatch {s : State T} : s.forwarder = .receiving → s.input = [] →
    Step args s { s with forwarder := .closed }
  | decide {s : State T} {i : T} (should : Bool) : s.forwarder = .deciding i →
    Step args s { s with forwarder := args.decide i should }
  | bypass {s : State T} {i : T} : s.forwarder = .bypassing i → s.results ≠ .closed →
    Step args s { s with forwarder := .receiving, emitted := s.emitted ++ [i] }
  | panic {s : State T} {i : T} : s.forwarder = .bypassing i → s.results = .closed →
    Step args s { s with forwarder := .receiving, panicked := true }
  | batch {s : State T} {i : T} {b : List T} : s.forwarder = .batching i →
    s.collector = .collecting b →
    Step args s { s with forwarder := .receiving, collector := args.collect b i }
  | timeUp {s : State T} {b : List T} : s.collector = .collecting b → b ≠ [] →
    Step args s { s with collector := .sending b true }
  | lastBatch {s : State T} {b : List T} : s.collector = .collecting b → b ≠ [] →
    s.forwarder = .closed → Step args s { s with collector := .sending b false }
  | closeBatches {s : State T} : s.collector = .collecting [] → s.forwarder = .closed →
    Step args s { s with collector := .closed }
  | sendBatch {s : State T} {b : List T} {isOpen : Bool} : s.collector = .sending b isOpen →
    s.buffer = .receiving →
    Step args s
    { s with collector := if isOpen then .collecting [] else .closed, buffer := .sending b }
  | fill {s : State T} {b : List T} : s.buffer = .sending b →
    s.bufferedBatches.length < bufferSize →
    Step args s { s with buffer := .receiving, bufferedBatches := s.bufferedBatches ++ [b] }
  | closeBufferedBatches {s : State T} : s.buffer = .receiving → s.collector = .closed →
    Step args s { s with buffer := .closed }
  | take {s : State T} {b : List T} {rest : List (List T)} : s.dispatcher = .receiving →
    s.bufferedBatches = b :: rest →
    Step args s { s with dispatcher := .starting b, bufferedBatches := rest }
  | start {s : State T} {b : List T} : s.dispatcher = .starting b →
    s.workers.length < args.concurrency →
    Step args s { s with dispatcher := .receiving, workers := s.workers ++ [.processing b] }
  | closeResults {s : State T} : s.dispatcher = .receiving → s.buffer = .closed →
    s.bufferedBatches = [] → s.workers = [] → Step args s { s with dispatcher := .closed }
  | process {s : State T} {ws ws' : List (Worker T)} {b r : List T} :
    s.workers = ws ++ .processing b :: ws' →
    r.Perm b → Step args s { s with workers := ws ++ .sending r :: ws' }
  | sendResults {s : State T} {ws ws' : List (Worker T)} {r : List T} :
    s.workers = ws ++ .sending r :: ws' →
    s.results = .receiving → Step args s { s with workers := ws ++ ws', results := .emitting r }
  | emit {s : State T} {o : T} {rest : List T} : s.results = .emitting (o :: rest) →
    Step args s { s with results := .emitting rest, emitted := s.emitted ++ [o] }
  | next {s : State T} : s.results = .emitting [] → Step args s { s with results := .receiving }
  | closeOut {s : State T} : s.results = .receiving → s.dispatcher = .closed →
    Step args s { s with results := .closed }

end PlatformRelayer.ConditionallyBatchProcess

import PlatformRelayer.Ibcv2.Pipeline

/-!
# The dispatcher, with the pipelines at work

`Relayer` is the state of the whole process: the table, the rows that the
dispatcher has polled and not yet submitted, the pipelines that the
`IBCV2PipelineManager` has made with the `inPipeline` sets of their dedupers,
and the transfers in the pipelines. A transfer is between two stages
(`Job.rest`) or held by a goroutine of a stage (`Job.run`), whose program is
what `Pipeline.lean` says the stage does.

The dispatcher, the goroutines and the dedupers take turns in any order
(`Relayer.step`); what a turn does at once is one call of a goroutine, or what
the source does under the lock of a deduper.
-/

namespace PlatformRelayer

open Prog Db

/-- A transfer between two stages, with the stages that it has yet to go
through. If `queued`, it waits at the first of them to be collected into a
batch. -/
structure Token where
  pipeline : Pipeline
  transfer : IBCV2Transfer
  stages : List Stage
  queued : Bool := false
deriving DecidableEq

/-- An entry of the `inPipeline` set of the deduper of a pipeline. A
`transferKey` has the columns of a `TransferKey`, and the sequence number as a
`uint32`. -/
abbrev Entry := PipelineKey × TransferKey

def Token.entry (tok : Token) : Entry := (tok.pipeline.key, tok.transfer.key)

/-- A goroutine at work: the transfers it holds and what is left of its
program, which returns what it sends on. -/
structure Task where
  batched : Bool
  holds : List Entry
  prog : Relay (List Token)

/-- A goroutine takes a transfer. In front of a batch processor it decides
whether to put it into a batch. -/
def Token.start (tok : Token) : Option Task :=
  match tok.queued, tok.stages with
  | false, st :: rest => some
    { batched := false
      holds := [tok.entry]
      prog := match st.processor tok.pipeline with
        | .batch p => (p.forward tok.transfer).bind fun should =>
          .ret [{ tok with stages := if should then st :: rest else rest, queued := should }]
        | _ => (st.process tok.pipeline tok.transfer).bind fun output =>
          .ret (output.toList.map fun t => { tok with transfer := t, stages := rest }) }
  | _, _ => none

/-- The transfers of a batch go on to the stages that are left; none of them, if
their context is cancelled. -/
def Pipeline.sendOn (pl : Pipeline) (rest : List Stage) : Except Err (List Ref) × Heap → List Token
  | (.error _, _) => []
  | (.ok refs, h) => refs.map fun r => ⟨pl, h r, rest, false⟩

/-- A goroutine takes a batch of transfers that wait at one stage of one
pipeline. -/
def collect : List Token → Option Task
  | [] => none
  | tok :: toks => match tok.stages with
    | [] => none
    | st :: rest => match st.processor tok.pipeline with
      | .batch p =>
        if (tok :: toks).all fun u =>
        u.queued && u.pipeline = tok.pipeline && u.stages = tok.stages then some
          { batched := true
            holds := (tok :: toks).map Token.entry
            prog :=
  (p.processBatch tok.transfer ((tok :: toks).map (·.transfer))).bind fun output =>
              .ret (tok.pipeline.sendOn rest output) }
        else none
      | _ => none

inductive Job where
  | rest (tok : Token)
  | run (task : Task)

def Job.token? : Job → Option Token
  | .rest tok => some tok
  | .run _ => none

structure Relayer where
  db : Transfers
  hasPriceClient : Bool := false
  polled : List Ibcv2Transfer := []
  pipelines : List Pipeline := []
  inPipeline : List Entry := []
  jobs : List Job := []

/-! ## The dispatcher -/

/-- The manager, with the pipelines that it has made. -/
structure IBCV2PipelineManager where
  hasPriceClient : Bool := false
  pipelines : List Pipeline := []

/-- `Pipeline`, with what `NewPipelineOpts` returns. -/
def IBCV2PipelineManager.pipeline (m : IBCV2PipelineManager) (t : IBCV2Transfer)
    (opts : Except Err PipelineOptions) : Except Err Pipeline × IBCV2PipelineManager :=
  match m.pipelines.find? (·.key = newPipelineKey t) with
  | some pl => (.ok pl, m)
  | none => match opts with
    | .error err => (.error (errorf "creating new pipeline for transfer from %s to %s: %w"
        [.str t.sourceChainID, .str t.destinationChainID]
        (errorf "creating pipeline options: %w" [] err)), m)
    | .ok opts =>
      let pl : Pipeline := ⟨newPipelineKey t, opts, m.hasPriceClient⟩
      (.ok pl, { m with pipelines := pl :: m.pipelines })

namespace RelayDispatcher

variable {m : Type → Type} [Monad m]

/-- `SubmitTransfer`, with what the manager returns and with `Push` of a pipeline. -/
def submitTransfer (pipeline : Except Err Pipeline)
    (push : Pipeline → m Bool) : m (Except Err Unit) :=
  match pipeline with
  | .error err =>
    pure (.error (errorf "getting pipeline to push transfer onto from manager: %w" [] err))
  | .ok pl => do
    if ← push pl then pure (.ok ()) else pure (.error Sentinel.errTransferAlreadyInPipeline.err)

/-- The body of the loop of `SubmitWaitingUnfinishedTransfers`, after the alert, with the
update to `FAILED`. The error of the update is logged. -/
def submitOrFail (pipeline : Except Err Pipeline) (push : Pipeline → m Bool)
    (fail : m Unit) : m Unit := do
  match ← submitTransfer pipeline push with
  | .ok _ => pure ()
  | .error err => if err.is .errTransferAlreadyInPipeline then pure () else fail

end RelayDispatcher

namespace Relayer

variable (s : Relayer)

def pipeline (t : IBCV2Transfer) (opts : Except Err PipelineOptions) :
    Except Err Pipeline × Relayer :=
  let (pl, m) := IBCV2PipelineManager.pipeline ⟨s.hasPriceClient, s.pipelines⟩ t opts
  (pl, { s with pipelines := m.pipelines })

/-- `PipelineDeduper.Push`. -/
def push (pl : Pipeline) (t : IBCV2Transfer) : Bool × Relayer :=
  let tok : Token := ⟨pl, t, newPipeline pl, false⟩
  if tok.entry ∈ s.inPipeline then (false, s)
  else (true, { s with inPipeline := tok.entry :: s.inPipeline, jobs := s.jobs ++ [.rest tok] })

/-- A polled transfer is submitted, with the answer to the update to `FAILED`. -/
def submit (t : IBCV2Transfer) (opts : Except Err PipelineOptions)
    (ans : Except Err Unit) : Relayer :=
  let (pl, s) := s.pipeline t opts
  let submits : StateM Relayer Unit := RelayDispatcher.submitOrFail pl
    (fun pl => modifyGet (·.push pl t))
    (modify fun s =>
      { s with db := Call.effect (.exec (updateTransferState .failed t.key)) ans s.db })
  (submits.run s).2

end Relayer

/-! ## Turns -/

/-- The items at some positions, each counted after the ones before it are
taken, and the others. -/
def takeAt {α : Type} : List Nat → List α → Option (List α × List α)
  | [], l => some ([], l)
  | i :: is, l => match l[i]? with
    | none => none
    | some x => (takeAt is (l.eraseIdx i)).map fun p => (x :: p.1, p.2)

/-- A turn: a row comes in, `SubmitWaitingUnfinishedTransfers` reads its
snapshot or submits the next row of it, a goroutine takes a transfer or a
batch, makes a call that is answered by `ω`, or sends its transfers on, or the
deduper takes a transfer from the output. -/
inductive Action where
  | insert (p : InsertIBCV2TransferParams)
  | poll
  | submit (opts : Except Err PipelineOptions) (ans : Except Err Unit)
  | start (i : Nat)
  | startBatch (is : List Nat)
  | act (i : Nat) (ω : (c : Call) → c.Ans)
  | finish (i : Nat)
  | output (i : Nat)

def Relayer.step (s : Relayer) : Action → Option Relayer
  | .insert p =>
    if h : (insertedRow p).key ∈ s.db.rows.map Ibcv2Transfer.key then none
    else some { s with db := s.db.insert (insertedRow p) h }
  | .poll =>
    -- The dispatcher is done with one snapshot before it reads the next.
    if s.polled.isEmpty then some { s with polled := getUnfinishedIBCV2Transfers s.db } else none
  | .submit opts ans => match s.polled with
    | [] => none
    | r :: polled => some (Relayer.submit { s with polled := polled } (newIBCV2Transfer r) opts ans)
  | .start i => match takeAt [i] s.jobs with
    | some ([.rest tok], others) => tok.start.map fun task =>
      { s with jobs := others ++ [.run task] }
    | _ => none
  | .startBatch is => match takeAt is s.jobs with
    | some (batch, others) => (batch.mapM Job.token?).bind fun toks =>
      (collect toks).map fun task => { s with jobs := others ++ [.run task] }
    | none => none
  | .act i ω => match takeAt [i] s.jobs with
    | some ([.run task], others) => match task.prog with
      | .call c k => some { s with
          db := c.effect (ω c) s.db
          jobs := others ++ [.run { task with prog := k (ω c) }] }
      | .ret _ => none
    | _ => none
  | .finish i => match takeAt [i] s.jobs with
    | some ([.run task], others) => task.prog.result?.map fun toks =>
      { s with jobs := others ++ toks.map .rest }
    | _ => none
  | .output i => match takeAt [i] s.jobs with
    | some ([.rest tok], others) =>
      if tok.stages.isEmpty then some { s with
        inPipeline := s.inPipeline.filter (· ≠ tok.entry)
        jobs := others }
      else none
    | _ => none

/-- A turn, of those that `ok` allows. -/
def Relayer.Turn (ok : Relayer → Action → Prop) (s s' : Relayer) : Prop :=
  ∃ a, ok s a ∧ s.step a = some s'

end PlatformRelayer

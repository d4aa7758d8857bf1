import PlatformRelayer.Ibcv2.Dispatcher
import PlatformRelayer.Ibcv2.PipelineOpts

/-!
# One poll of the dispatcher

`SubmitWaitingUnfinishedTransfers`: for each row of a poll the latency alert,
then the pipeline of its transfer from the manager, and the push. The alert
reads the `ibcv2` section of the source chain through its pointer, which is nil
if the chain has none; where Go would panic the program returns nothing.

The manager is the one of `Dispatcher.lean`, with the options from the configuration.
The logging is left out.
-/

namespace PlatformRelayer.RelayDispatcher

open Prog Db

/-! ## Calls -/

inductive Call where
  | getUnfinishedIBCV2Transfers
  | now
  | addExcessiveRelayLatencyObservation (sourceChainName destChainName environment : String)
    (relayType : RelayType)
  | push (pipeline : Pipeline) (t : IBCV2Transfer)
  | updateTransferState (q : Query)

/-- What a call is answered by. A push is answered by whether the transfer was
pushed: it is not if its key is in the pipeline. -/
@[reducible] def Call.Ans : Call → Type
  | .getUnfinishedIBCV2Transfers => Except Err (List Ibcv2Transfer)
  | .now => Time
  | .addExcessiveRelayLatencyObservation .. => Unit
  | .push .. => Bool
  | .updateTransferState _ => Except Err Unit

/-- A program of the dispatcher. -/
abbrev Dispatch (α : Type) := Prog Call Call.Ans α

/-- The program that makes a call and returns its answer. -/
abbrev call (c : Call) : Dispatch c.Ans := Prog.perform c

/-! ## The latency alert -/

/-- `t.Sub(u)`, which saturates. -/
def timeSub (t u : Time) : Duration := max (-9223372036854775808) (min 9223372036854775807 (t - u))

/-- `time.Since`. -/
def timeSince (t : Time) : Dispatch Duration := (call .now).bind fun now => .ret (timeSub now t)

def evmSourceExcessiveLatency : Duration := 60 * minute
def evmSourceFinality : Duration := 15 * minute
def cosmosSourceExcessiveLatency : Duration := 30 * minute

def ongoingRelayType (t : IBCV2Transfer) (shouldRelaySuccessAcks shouldRelayErrorAcks : Bool) :
    Dispatch (Option RelayType) :=
  if t.isComplete shouldRelaySuccessAcks shouldRelayErrorAcks then .ret none
  else if t.writeAckTxHash.isNone then (call .now).bind fun now =>
    .ret (some (if t.packetTimeoutTimestamp < now then .ibcv2SendToTimeout else .ibcv2SendToRecv))
  else .ret (some .ibcv2RecvToAck)

/-- An observation, if a chain is of a type and more than `limit` has passed
since `from`. -/
def observeIf (ofType : Bool) (since : Time) (limit : Duration)
    (observation : Dispatch Unit) : Dispatch Unit :=
  if ofType then (timeSince since).bind fun latency => if limit < latency then observation
    else .ret ()
  else .ret ()

/-- The switch over the relay type. For an ack, the chains change places. -/
def observeLatency (source dest : ChainConfig) (t : IBCV2Transfer) : RelayType → Dispatch Unit
  | .ibcv2SendToRecv =>
    let observation :=
  call (.addExcessiveRelayLatencyObservation source.chainName dest.chainName source.environment
      .ibcv2SendToRecv)
    (observeIf (source.type = .evm) t.sourceTxTime evmSourceExcessiveLatency observation).bind
    fun _ =>
    observeIf (source.type = .cosmos) t.sourceTxTime cosmosSourceExcessiveLatency observation
  | .ibcv2RecvToAck =>
    let writeAckTime := t.writeAckTxTime.getD Time.zero
    let observation := call
      (.addExcessiveRelayLatencyObservation dest.chainName source.chainName source.environment
      .ibcv2RecvToAck)
    (observeIf (dest.type = .evm) writeAckTime evmSourceExcessiveLatency observation).bind fun _ =>
    observeIf (dest.type = .cosmos) writeAckTime cosmosSourceExcessiveLatency observation
  | .ibcv2SendToTimeout =>
    (timeSince t.packetTimeoutTimestamp).bind fun late =>
    if late < 5 * minute then .ret ()
    else
      let observation := call
        (.addExcessiveRelayLatencyObservation source.chainName dest.chainName source.environment
        .ibcv2SendToTimeout)
      if source.type = .evm then (timeSince t.sourceTxTime).bind fun age =>
        if age < evmSourceFinality then .ret () else observation
      else observation

/-- `AlertOnExcessiveRelayLatency`; nothing, if it panics. -/
def alertOnExcessiveRelayLatency (cfg : ConfigReader)
    (t : IBCV2Transfer) : Dispatch (Option Unit) :=
  match cfg.getChainConfig t.sourceChainID with
  | .error _ => .ret (some ())
  | .ok source => match cfg.getChainConfig t.destinationChainID with
    | .error _ => .ret (some ())
    | .ok dest => match source.ibcv2 with
      -- `sourceConfig.IBCV2.ShouldRelaySuccessAcks`, for a nil pointer.
      | none => .ret none
      | some ibcv2 =>
        (ongoingRelayType t ibcv2.shouldRelaySuccessAcks ibcv2.shouldRelayErrorAcks).bind fun
        | none => .ret (some ())
        | some relayType => (observeLatency source dest t relayType).bind fun _ => .ret (some ())

/-! ## Submission -/

/-- A manager whose pipelines were each made for a transfer with its key, from the
configuration. -/
structure ConfiguredManager (cfg : ConfigReader) extends IBCV2PipelineManager where
  made : ∀ pl ∈ pipelines, ∃ t, newPipelineKey t = pl.key ∧
    (newPipelineOpts cfg t).map (·.toPipelineOptions) = .ok pl.opts

variable {cfg : ConfigReader}

theorem ConfiguredManager.made_pipeline (m : ConfiguredManager cfg) (t : IBCV2Transfer) :
    ∀ pl ∈ (m.toIBCV2PipelineManager.pipeline t
      ((newPipelineOpts cfg t).map (·.toPipelineOptions))).2.pipelines,
      ∃ u, newPipelineKey u = pl.key ∧
      (newPipelineOpts cfg u).map (·.toPipelineOptions) = .ok pl.opts := by
  unfold IBCV2PipelineManager.pipeline
  split
  · exact m.made
  · split
    · exact m.made
    · rename_i opts hopts
      exact List.forall_mem_cons.mpr ⟨⟨t, rfl, hopts⟩, m.made⟩

def ConfiguredManager.pipeline (m : ConfiguredManager cfg) (t : IBCV2Transfer) :
    Except Err Pipeline × ConfiguredManager cfg :=
  let opts := (newPipelineOpts cfg t).map (·.toPipelineOptions)
  ((m.toIBCV2PipelineManager.pipeline t opts).1,
    ⟨(m.toIBCV2PipelineManager.pipeline t opts).2, m.made_pipeline t⟩)

/-- The transfer is submitted, or its row is marked. -/
def submit (m : ConfiguredManager cfg) (t : IBCV2Transfer) : Dispatch (ConfiguredManager cfg) :=
  let (pl, m) := m.pipeline t
  let marks : Dispatch Unit :=
    (call (.updateTransferState (updateTransferState .failed t.key))).bind fun _ => .ret ()
  (submitOrFail pl (fun pl => call (.push pl t)) marks).bind fun _ => .ret m

/-- The loop; nothing, if it panics. -/
def submitAll : List Ibcv2Transfer → ConfiguredManager cfg →
    Dispatch (Option (ConfiguredManager cfg))
  | [], m => .ret (some m)
  | r :: transfers, m =>
    let t := newIBCV2Transfer r
    (alertOnExcessiveRelayLatency cfg t).bind fun
    | none => .ret none
    | some _ => (submit m t).bind (submitAll transfers)

/-- `SubmitWaitingUnfinishedTransfers`, with the manager it leaves; nothing, if
it panics. -/
def submitWaitingUnfinishedTransfers (m : ConfiguredManager cfg) :
    Dispatch (Option (Except Err Unit × ConfiguredManager cfg)) :=
  (call .getUnfinishedIBCV2Transfers).bind fun
  | .error err =>
    .ret (some (.error (errorf "getting unfinished ibcv2 transfers from storage: %w" [] err), m))
  | .ok transfers => (submitAll transfers m).bind fun
    | none => .ret none
    | some m => .ret (some (.ok (), m))

end PlatformRelayer.RelayDispatcher

import PlatformRelayer.Ibcv2.ProcessorMW

/-!
# The pipeline

`newPipeline` is the order in which `NewPipeline` connects the processors, and
`Stage.processor` what each is built with. `Stage.process` is what a stage
does with one transfer and `runStages` what the stages do with it one after
another, up to where the transfer leaves the pipeline. A transfer in a batch
is processed together with others of the pipeline, which are whatever was
collected with it (`Call.collect`).
-/

namespace PlatformRelayer

open Prog Db

structure PipelineOptions where
  shouldRelaySuccessAcks : Bool
  shouldRelayErrorAcks : Bool
  sourceChainGasTokenCoingeckoID : String := ""
  sourceChainGasTokenDecimals : UInt8 := 0
  destinationChainGasTokenCoingeckoID : String := ""
  destinationChainGasTokenDecimals : UInt8 := 0
  sourceFinalityOffset : Option UInt64 := none
  destinationFinalityOffset : Option UInt64 := none
deriving DecidableEq, Repr

/-- What a pipeline is made of: its chains and clients, its options, and
whether there is a price client. -/
structure Pipeline where
  key : PipelineKey
  opts : PipelineOptions
  hasPriceClient : Bool := false
deriving DecidableEq, Repr

inductive Stage where
  | checkRecvPacketDelivery
  | checkInitialPacketCommitment
  | checkSendPacketFinality
  | checkTimeoutTimestampFinality
  | batchTimeoutPacket
  | retryTimeoutPacket
  | timeoutTxGasCalculator
  | batchRecvPacket
  | retryRecvPacket
  | recvTxGasCalculator
  | waitForWriteAckPacket
  | checkWriteAckFinality
  | checkPostReceivePacketCommitment
  | batchAckPacket
  | retryAckPacket
  | ackTxGasCalculator
  | stateFinisher
deriving DecidableEq, Repr

/-- The pipeline has what it takes to price gas on the source chain. -/
def Pipeline.pricesSourceGas (pl : Pipeline) : Bool :=
  pl.opts.sourceChainGasTokenCoingeckoID != "" && pl.opts.sourceChainGasTokenDecimals != 0 &&
    pl.hasPriceClient

/-- The same on the destination chain. -/
def Pipeline.pricesDestinationGas (pl : Pipeline) : Bool :=
  pl.opts.destinationChainGasTokenCoingeckoID != "" &&
    pl.opts.destinationChainGasTokenDecimals != 0 && pl.hasPriceClient

def newPipeline (pl : Pipeline) : List Stage :=
  [.checkRecvPacketDelivery, .checkInitialPacketCommitment, .checkSendPacketFinality,
    .checkTimeoutTimestampFinality, .batchTimeoutPacket, .retryTimeoutPacket] ++
  (if pl.pricesSourceGas then [.timeoutTxGasCalculator] else []) ++
  [.batchRecvPacket, .retryRecvPacket] ++
  (if pl.pricesDestinationGas then [.recvTxGasCalculator] else []) ++
  [.waitForWriteAckPacket, .checkWriteAckFinality, .checkPostReceivePacketCommitment,
    .batchAckPacket, .retryAckPacket] ++
  (if pl.pricesSourceGas then [.ackTxGasCalculator] else []) ++
  [.stateFinisher]

/-- A stage: a processor in `IBCV2ProcessorMW`, a batch processor in
`IBCV2BatchProcessorMW` behind `ConditionallyBatchProcess`, or the
`StateFinisher`, which is not wrapped. -/
inductive Processor where
  | single (p : IBCV2Processor)
  | batch (p : BatchPacket)
  | finisher

def Stage.processor (pl : Pipeline) : Stage → Processor
  | checkRecvPacketDelivery => .single checkRecvPacketDeliveryProcessor
  | checkInitialPacketCommitment => .single checkPacketCommitmentProcessor
  | checkSendPacketFinality => .single (checkSendFinalityProcessor pl.opts.sourceFinalityOffset)
  | checkTimeoutTimestampFinality =>
  .single (checkTimeoutFinalityProcessor pl.opts.destinationFinalityOffset)
  | batchTimeoutPacket => .batch (PlatformRelayer.batchTimeoutPacket pl.key)
  | retryTimeoutPacket => .single (retryTimeoutPacketProcessor pl.key.sourceChainID)
  | timeoutTxGasCalculator =>
    .single (timeoutTxGasCalculatorProcessor pl.opts.sourceChainGasTokenCoingeckoID
      pl.opts.sourceChainGasTokenDecimals)
  | batchRecvPacket => .batch (PlatformRelayer.batchRecvPacket pl.key)
  | retryRecvPacket => .single (retryRecvPacketProcessor pl.key.destinationChainID)
  | recvTxGasCalculator =>
    .single (recvTxGasCalculatorProcessor pl.opts.destinationChainGasTokenCoingeckoID
      pl.opts.destinationChainGasTokenDecimals)
  | waitForWriteAckPacket => .single PlatformRelayer.waitForWriteAckPacket
  | checkWriteAckFinality =>
    .single (checkWriteAckFinalityProcessor pl.opts.shouldRelaySuccessAcks
      pl.opts.shouldRelayErrorAcks pl.opts.destinationFinalityOffset)
  | checkPostReceivePacketCommitment => .single checkPacketCommitmentProcessor
  | batchAckPacket =>
    .batch (PlatformRelayer.batchAckPacket pl.key pl.opts.shouldRelaySuccessAcks
      pl.opts.shouldRelayErrorAcks)
  | retryAckPacket => .single (retryAckPacketProcessor pl.key.sourceChainID)
  | ackTxGasCalculator =>
    .single (ackTxGasCalculatorProcessor pl.opts.sourceChainGasTokenCoingeckoID
      pl.opts.sourceChainGasTokenDecimals)
  | stateFinisher => .finisher

/-- Whether `ConditionallyBatchProcess` puts a transfer into a batch. -/
def BatchPacket.forward (p : BatchPacket) (t : IBCV2Transfer) : Relay Bool :=
  if t.errored then .ret false else p.shouldProcess t

/-- A batch in memory: its pointers are the positions of its transfers. -/
def Heap.ofList (d : IBCV2Transfer) (ts : List IBCV2Transfer) : Heap := fun r => ts.getD r d

/-- The batch processor in its middleware, on a batch of transfers. -/
def BatchPacket.processBatch (p : BatchPacket) (d : IBCV2Transfer) (ts : List IBCV2Transfer) :
    Relay (Except Err (List Ref) × Heap) :=
  IBCV2BatchProcessorMW.process p.processor (List.range ts.length) (Heap.ofList d ts)

/-- What a stage makes of one transfer; nothing, if its context is cancelled. -/
def Stage.process (pl : Pipeline) (st : Stage) (t : IBCV2Transfer) : Relay (Option IBCV2Transfer) :=
  match st.processor pl with
  | .single p => (IBCV2ProcessorMW.process p t).bind fun
    | .error _ => .ret none
    | .ok output => .ret (some output)
  | .batch p => (p.forward t).bind fun should =>
    if !should then .ret (some t) else
    (ask (.collect t)).bind fun b =>
    (p.processBatch t (b.1.1 ++ t :: b.1.2)).bind fun
    | (.error _, _) => .ret none
    | (.ok _, h) => .ret (some (h b.1.1.length))
  | .finisher =>
    (PlatformRelayer.stateFinisher pl.opts.shouldRelaySuccessAcks
      pl.opts.shouldRelayErrorAcks t).bind fun output => .ret (some output)

/-- The way of a transfer through the stages that are left. -/
def runStages (pl : Pipeline) : List Stage → IBCV2Transfer → Relay (Option IBCV2Transfer)
  | [], t => .ret (some t)
  | st :: stages, t => (st.process pl t).bind fun
    | none => .ret none
    | some t => runStages pl stages t

/-- A run of a pipeline with one transfer, loaded from a row. -/
def pipelineRun (opts : PipelineOptions) (hasPriceClient : Bool) (r : Ibcv2Transfer) :
    Relay (Option IBCV2Transfer) :=
  let pl : Pipeline := ⟨newPipelineKey (newIBCV2Transfer r), opts, hasPriceClient⟩
  runStages pl (newPipeline pl) (newIBCV2Transfer r)

end PlatformRelayer

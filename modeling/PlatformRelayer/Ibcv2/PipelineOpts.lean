import PlatformRelayer.Ibcv2.Pipeline
import PlatformRelayer.Shared.Config

/-!
# The options of a pipeline

`newPipelineOpts` reads the options of a pipeline from the configurations of its two
chains, with the defaults for what they do not set.
-/

namespace PlatformRelayer

/-- The options that are set, and the defaults for the others. -/
def BatchOptions.orDefault (o default : BatchOptions) : BatchOptions where
  size := if o.size ≠ 0 then o.size else default.size
  timeout := if o.timeout ≠ 0 then o.timeout else default.timeout
  concurrency := if o.concurrency ≠ 0 then o.concurrency else default.concurrency

/-- `DefaultAckBatchSize` and the like. -/
def defaultAckBatch : BatchOptions := ⟨50, 10 * second, 10⟩
def defaultRecvBatch : BatchOptions := ⟨50, 10 * second, 10⟩
def defaultTimeoutBatch : BatchOptions := ⟨50, minute, 10⟩

/-- The options of a pipeline, with those for its batches. -/
structure AllPipelineOptions extends PipelineOptions where
  ackBatch : BatchOptions
  recvBatch : BatchOptions
  timeoutBatch : BatchOptions
deriving DecidableEq, Repr

/-- `NewPipelineOpts`. Whether acks are relayed, and how acks and timeouts are
batched, is up to the source chain; how recvs are batched, to the destination
chain. -/
def newPipelineOpts (config : ConfigReader) (t : IBCV2Transfer) : Except Err AllPipelineOptions :=
  match config.getChainConfig t.sourceChainID with
  | .error err => .error (errorf "getting config for chain %s: %w" [.str t.sourceChainID] err)
  | .ok source =>
  match config.getChainConfig t.destinationChainID with
  | .error err => .error (errorf "getting config for chain %s: %w" [.str t.destinationChainID] err)
  | .ok destination =>
  match source.ibcv2 with
  | none => .error (newErr "no ibcv2 config for source chain %s" [.str t.sourceChainID])
  | some sourceIBCV2 =>
  match destination.ibcv2 with
  | none => .error (newErr "no ibcv2 config for destination chain %s" [.str t.destinationChainID])
  | some destinationIBCV2 => .ok
    { shouldRelaySuccessAcks := sourceIBCV2.shouldRelaySuccessAcks
      shouldRelayErrorAcks := sourceIBCV2.shouldRelayErrorAcks
      ackBatch := sourceIBCV2.ackBatch.orDefault defaultAckBatch
      recvBatch := destinationIBCV2.recvBatch.orDefault defaultRecvBatch
      timeoutBatch := sourceIBCV2.timeoutBatch.orDefault defaultTimeoutBatch
      sourceChainGasTokenCoingeckoID := source.gasTokenCoingeckoID.getD ""
      destinationChainGasTokenCoingeckoID := destination.gasTokenCoingeckoID.getD ""
      sourceChainGasTokenDecimals := source.gasTokenDecimals
      destinationChainGasTokenDecimals := destination.gasTokenDecimals
      sourceFinalityOffset := sourceIBCV2.finalityOffset
      destinationFinalityOffset := destinationIBCV2.finalityOffset }

end PlatformRelayer

import PlatformRelayer.Ibcv2.Calls

/-!
# The processors of single transfers

Each processor is its `ShouldProcess`, its `State` and its `Process`, as in
the interface `IBCV2Processor`. `Process` returns the transfer with the fields
it set, or an error; no processor changes a field before its last call that
can fail, so the transfer it was given is unchanged where it returns an error.
`Cancel`, which only logs, is left out.
-/

namespace PlatformRelayer

open Prog Db

structure IBCV2Processor where
  shouldProcess : IBCV2Transfer → Relay Bool
  state : Ibcv2RelayStatus
  process : IBCV2Transfer → Relay (Except Err IBCV2Transfer)

/-- `IsTimedOut`, asked by the processor with this state. -/
def IBCV2Transfer.isTimedOut (t : IBCV2Transfer) (state : Ibcv2RelayStatus) : Relay Bool :=
  (ask (.now (.isTimedOut state t.key))).bind fun now => .ret (t.packetTimeoutTimestamp < now)

/-- The packet's sequence number, as the bridge clients take it. -/
def IBCV2Transfer.sequence (t : IBCV2Transfer) : UInt64 := t.packetSequenceNumber.toUInt64

/-- The transfer with a tx found on chain. -/
def IBCV2Transfer.foundTx (t : IBCV2Transfer) (k : TxKind) (tx : BridgeTx) : IBCV2Transfer :=
  t.setTx k { t.tx k with
    hash := some tx.hash, time := some tx.timestamp, relayerAddress := some tx.relayerAddress }

/-- The statement that records a tx of a packet, found on chain or delivered. -/
def IBCV2Transfer.recordTx (t : IBCV2Transfer) (k : TxKind) (tx : BridgeTx) : Query :=
  updateTransferTx k (some tx.hash) (some tx.timestamp) (some tx.relayerAddress) t.key

/-! ## What has happened on chain -/

def checkRecvPacketDeliveryProcessor : IBCV2Processor where
  shouldProcess t := .ret (!t.has .recv && !t.has .ack && !t.has .timeout)
  state := .checkRecvPacketDelivery
  process t :=
    attempt (ask (.getClient t.destinationChainID))
      (errorf "getting bridge client for transfer destination chain %s: %w"
        [.str t.destinationChainID]) fun _ =>
    attempt (ask (.isPacketReceived t.destinationChainID t.packetDestinationClientID t.sequence))
      (errorf
        "checking if packet with sequence number %d is already received on destination chain %s for client %s: %w"
        [.num t.packetSequenceNumber.toNat, .str t.destinationChainID,
          .str t.packetDestinationClientID])
      fun received =>
    if !received then .ret (.ok t) else
    attempt (ask (.findRecvTx t.destinationChainID t.packetSourceClientID
      t.packetDestinationClientID
        t.sequence t.packetTimeoutTimestamp))
      (errorf
        "finding for recv tx hash for transfer from source client %s to dest client %s with sequence %d and timeout tx %s: %w"
        [.str t.packetSourceClientID, .str t.packetDestinationClientID, .num t.sequence.toNat,
          .time t.packetTimeoutTimestamp]) fun recvTx =>
    attempt (ask (.exec (t.recordTx .recv recvTx)))
      (errorf "updating transfer recv tx with existing tx hash %s and timestamp %s: %w"
        [.str recvTx.hash, .time recvTx.timestamp]) fun _ =>
    .ret (.ok (t.foundTx .recv recvTx))

/-- The update of an ack or timeout tx that was found on the source chain. -/
def recordFound (t : IBCV2Transfer) (k : TxKind) (format : String) (tx : BridgeTx) :
    Relay (Except Err IBCV2Transfer) :=
  attempt (ask (.exec (t.recordTx k tx))) (errorf format [.str tx.hash, .time tx.timestamp])
    fun _ =>
  .ret (.ok (t.foundTx k tx))

/-- The two searches run concurrently in the source, each swallowing its own
error; the first to find its tx cancels the other, which then answers an
error like any other. -/
def checkPacketCommitmentProcessor : IBCV2Processor where
  shouldProcess t := .ret (!t.has .ack && !t.has .timeout)
  state := .checkAckPacketDelivery
  process t :=
    attempt (ask (.getClient t.sourceChainID))
      (errorf "getting bridge client for transfer source chain %s: %w" [.str t.sourceChainID])
      fun _ =>
    attempt (ask (.isPacketCommitted t.sourceChainID t.packetSourceClientID t.sequence))
      (errorf
        "checking if packet with sequence number %d is already ack'd on source chain %s for client %s: %w"
        [.num t.packetSequenceNumber.toNat, .str t.sourceChainID, .str t.packetSourceClientID])
      fun committed =>
    if committed then .ret (.ok t) else
    (ask (.findAckTx t.sourceChainID t.packetSourceClientID t.packetDestinationClientID
      t.sequence)).bind fun ackTx =>
    (ask (.findTimeoutTx t.sourceChainID t.packetSourceClientID t.packetDestinationClientID
      t.sequence)).bind fun timeoutTx =>
    match ackTx, timeoutTx with
    | .ok ackTx, .ok timeoutTx =>
      .ret (.error (newErr "found both timeout tx %s and ack tx %s packet, should not be possible"
        [.str timeoutTx.hash, .str ackTx.hash]))
    | .ok ackTx, .error _ =>
      recordFound t .ack "updating transfer ack tx with existing tx hash %s and timestamp %s: %w"
        ackTx
    | .error _, .ok timeoutTx =>
      recordFound t .timeout
        "updating transfer timeout tx with existing tx hash %s and timestamp %s: %w" timeoutTx
    | .error _, .error _ =>
      .ret (.error (newErr
        "could not find timeout tx or ack tx after packet commitment not found on chain %s"
        [.str t.sourceChainID]))

/-! ## Finality -/

def checkSendFinalityProcessor (sourceFinalityOffset : Option UInt64) : IBCV2Processor where
  shouldProcess t := .ret (!t.has .recv)
  state := .awaitingSendFinality
  process t :=
    attempt (ask (.getClient t.sourceChainID))
      (errorf "getting source bridge client for chain %s: %w" [.str t.sourceChainID]) fun _ =>
    attempt (ask (.isTxFinalized t.sourceChainID t.sourceTxHash sourceFinalityOffset))
      (errorf "checking if tx %s is finalized on chain %s: %w"
        [.str t.sourceTxHash, .str t.sourceChainID])
      fun finalized =>
    if !finalized then .ret (.error Sentinel.errSendNotFinalized.err) else
    if t.sourceTxFinalizedTime.isSome then .ret (.ok t) else
    (ask (.now .finalizedTime)).bind fun finalizedTime =>
    attempt (ask (.exec (updateTransferSourceTxFinalizedTime (some finalizedTime) t.key)))
      (errorf "updating source tx finalized time: %w" []) fun _ =>
    .ret (.ok { t with sourceTxFinalizedTime := some finalizedTime })

def checkTimeoutFinalityProcessor (destinationFinalityOffset : Option UInt64) : IBCV2Processor where
  shouldProcess t := (t.isTimedOut .awaitingTimeoutFinality).bind fun timedOut =>
    .ret (timedOut && !t.has .recv && !t.has .ack && !t.has .timeout)
  state := .awaitingTimeoutFinality
  process t :=
    attempt (ask (.getClient t.destinationChainID))
      (errorf "getting destination bridge client for chain %s: %w" [.str t.destinationChainID])
      fun _ =>
    attempt (ask (.isTimestampFinalized t.destinationChainID t.packetTimeoutTimestamp
      destinationFinalityOffset))
      (errorf "checking timeout finality on chain %s: %w" [.str t.destinationChainID])
      fun finalized =>
    if !finalized then .ret (.error Sentinel.errTimeoutNotFinalized.err) else
    .ret (.ok t)

/-- The update of the finalized time fills in no key, so it is for the row
with the empty one. -/
def checkWriteAckFinalityProcessor (shouldRelaySuccessAcks shouldRelayErrorAcks : Bool)
    (destinationFinalityOffset : Option UInt64) : IBCV2Processor where
  shouldProcess t := .ret <|
    if t.writeAckTxHash.isNone then false
    else match t.writeAckStatus with
      | none => false
      | some s => (isErrorAck s && shouldRelayErrorAcks) ||
        (isSuccessAck s && shouldRelaySuccessAcks)
  state := .awaitingWriteAckFinality
  process t :=
    attempt (ask (.getClient t.destinationChainID))
      (errorf "getting source bridge client for chain %s: %w" [.str t.destinationChainID]) fun _ =>
    match t.writeAckTxHash with
    | none => .ret (.error (newErr "write ack tx hash not finalized, violates should process"))
    | some writeAckTxHash =>
    attempt (ask (.isTxFinalized t.destinationChainID writeAckTxHash destinationFinalityOffset))
      (errorf "checking if tx %s is finalized on chain %s: %w"
        [.str writeAckTxHash, .str t.destinationChainID])
      fun finalized =>
    if !finalized then .ret (.error Sentinel.errWriteAckNotFinalized.err) else
    if t.writeAckTxFinalizedTime.isSome then .ret (.ok t) else
    (ask (.now .finalizedTime)).bind fun finalizedTime =>
    attempt (ask (.exec (updateTransferWriteAckTxFinalizedTime (some finalizedTime) ⟨"", "", 0⟩)))
      (errorf "updating write ack tx finalized time: %w" []) fun _ =>
    .ret (.ok { t with writeAckTxFinalizedTime := some finalizedTime })

/-! ## Write acks -/

/-- `RecordRecvRelayed`. -/
def recordRecvRelayed (t : IBCV2Transfer) : Relay Unit :=
  ask (.addRelayCompleted t.sourceChainID t.packetSourceClientID t.destinationChainID
    t.packetDestinationClientID .ibcv2SendToRecv)

/-- The end of `WaitForWriteAckPacket.Process`, once the write ack was found in
the recv tx. -/
def recordWriteAck (t : IBCV2Transfer) (recvHash : String) (status : Ibcv2WriteAckStatus) :
    Relay (Except Err IBCV2Transfer) :=
  (recordRecvRelayed t).bind fun _ =>
  let recvTxTime := t.recvTx.time.getD Time.zero
  attempt (ask (.exec (updateTransferWriteAckTx (some recvHash) (some recvTxTime)
    (some status) t.key)))
    (errorf "updating transfer with write ack tx hash %s, time %s, and status %s: %w"
      [.str recvHash, .time recvTxTime, .writeAckStatus status]) fun _ =>
  .ret (.ok { t with
    writeAckTxHash := some recvHash, writeAckTxTime := some recvTxTime, writeAckStatus :=
      some status })

def waitForWriteAckPacket : IBCV2Processor where
  shouldProcess t := .ret ((t.has .recv && t.writeAckTxHash.isNone) && !t.has .timeout)
  state := .waitForWriteAck
  process t :=
    attempt (ask (.getClient t.destinationChainID))
      (errorf "getting client for transfer destination chain %s: %w" [.str t.destinationChainID])
      fun _ =>
    match t.recvTx.hash with
    | none => .ret (.error (newErr "transfer does not have recv tx hash, violating ShouldProcess"))
    | some recvHash =>
    (ask (.packetWriteAckStatus t.destinationChainID recvHash t.sequence t.packetSourceClientID
        t.packetDestinationClientID)).bind fun
    | .ok status => recordWriteAck t recvHash status
    | .error err =>
      if err.is .errWriteAckNotFoundForPacket then
        attempt (ask (.exec (clearRecvTx t.key)))
          (errorf "clearing transfer recv tx hash %s: %w" [.str recvHash]) fun _ =>
        .ret (.error (newErr "write ack for transfer not found in recv tx %s" [.str recvHash]))
      else if !err.is .errWriteAckDecoding then
        .ret (.error (errorf
          "finding write ack for packet with sequence number %d on chain %s in recv tx with hash %s: %w"
          [.num t.packetSequenceNumber.toNat, .str t.destinationChainID, .str recvHash] err))
      else recordWriteAck t recvHash .unknown

/-! ## Retries -/

/-- What the three retry processors differ in. -/
structure RetryPacket where
  kind : TxKind
  chainID : String
  expiry : Duration
  state : Ibcv2RelayStatus
  shouldProcess : IBCV2Transfer → Bool
  retrying : Sentinel
  clientFormat : String
  noHash : String
  noTime : String
  checkFormat : String
  clearFormat : String

/-- A retry clears the tx in the database only: the transfer keeps it, and
leaves the pipeline with an error. -/
def RetryPacket.processor (p : RetryPacket) : IBCV2Processor where
  shouldProcess t := .ret (p.shouldProcess t)
  state := p.state
  process t :=
    attempt (ask (.getClient p.chainID)) (errorf p.clientFormat [.str p.chainID]) fun _ =>
    match (t.tx p.kind).hash with
    | none => .ret (.error (newErr p.noHash))
    | some hash =>
    match (t.tx p.kind).time with
    | none => .ret (.error (newErr p.noTime))
    | some time =>
    attempt (ask (.shouldRetryTx p.chainID hash p.expiry time))
      (errorf p.checkFormat [.str hash, .time time]) fun retry =>
    if !retry then .ret (.ok t) else
    attempt (ask (.exec (clearTx p.kind t.key))) (errorf p.clearFormat [.str hash, .time time])
      fun _ =>
    .ret (.error p.retrying.err)

def retryRecvPacketProcessor (destinationChainID : String) : IBCV2Processor := RetryPacket.processor
  { kind := .recv
    chainID := destinationChainID
    expiry := 2 * minute
    state := .deliverRecvPacket
    shouldProcess := fun t => t.has .recv && t.recvTx.time.isSome && t.writeAckTxHash.isNone
    retrying := .errRetryingRecvPacket
    clientFormat := "getting client for transfer destination chain %s: %w"
    noHash := "transfer does not have recv tx hash, violates should process, this is a bug"
    noTime := "transfer does not have a recv tx time, violates should process, this is a bug"
    checkFormat :=
  "checking if transfer with recv tx hash %s, submitted at %s, should be retried: %w"
    clearFormat := "clearing recv tx hash %s and time %s: %w" }

def retryAckPacketProcessor (sourceChainID : String) : IBCV2Processor := RetryPacket.processor
  { kind := .ack
    chainID := sourceChainID
    expiry := 2 * minute
    state := .deliverAckPacket
    shouldProcess := fun t => t.has .ack && t.ackTx.time.isSome
    retrying := .errRetryingAckPacket
    clientFormat := "getting client for transfer source chain %s: %w"
    noHash := "transfer does not have ack tx hash, violates should process, this is a bug"
    noTime := "transfer does not have a ack tx time, violates should process, this is a bug"
    checkFormat :=
  "checking if transfer with ack tx hash %s, submitted at %s, should be retried: %w"
    clearFormat := "clearing ack tx hash %s and time %s: %w" }

def retryTimeoutPacketProcessor (sourceChainID : String) : IBCV2Processor := RetryPacket.processor
  { kind := .timeout
    chainID := sourceChainID
    expiry := 2 * minute
    state := .deliverTimeoutPacket
    shouldProcess := fun t => t.has .timeout && t.timeoutTx.time.isSome
    retrying := .errRetryingTimeoutPacket
    clientFormat := "getting client for transfer source chain %s: %w"
    noHash := "transfer does not have timeout tx hash, violates should process, this is a bug"
    noTime := "transfer does not have a timeout tx time, violates should process, this is a bug"
    checkFormat :=
  "checking if transfer with timeout tx hash %s, submitted at %s, should be retried: %w"
    clearFormat := "clearing timeout tx hash %s and time %s: %w" }

/-! ## Gas costs -/

/-- What the three gas calculators differ in. -/
structure TxGasCalculator where
  kind : TxKind
  chainID : IBCV2Transfer → String
  coingeckoID : String
  decimals : UInt8
  state : Ibcv2RelayStatus
  clientFormat : String
  noTx : String
  feeFormat : String
  valueFormat : String
  updateFormat : String

/-- The cost goes to the database only. -/
def TxGasCalculator.processor (p : TxGasCalculator) : IBCV2Processor where
  shouldProcess t := .ret (if (t.tx p.kind).gasCostUSD.isSome then false else t.has p.kind)
  state := p.state
  process t :=
    attempt (ask (.getClient (p.chainID t))) (errorf p.clientFormat [.str (p.chainID t)]) fun _ =>
    match (t.tx p.kind).hash with
    | none => .ret (.error (newErr p.noTx))
    | some hash =>
    attempt (ask (.txFee (p.chainID t) hash)) (errorf p.feeFormat [.str hash, .str (p.chainID t)])
      fun gasCostInGasToken =>
    attempt (ask (.getCoinUsdValue p.coingeckoID p.decimals gasCostInGasToken))
      (errorf p.valueFormat [.str (p.chainID t)]) fun gasCostUSD =>
    attempt (ask (.exec (updateTransferTxGasCostUSD p.kind (some gasCostUSD) t.key)))
      (errorf p.updateFormat []) fun _ =>
    .ret (.ok t)

def recvTxGasCalculatorProcessor (coingeckoID : String) (decimals : UInt8) : IBCV2Processor :=
  TxGasCalculator.processor
  { kind := .recv
    chainID := (·.destinationChainID)
    coingeckoID, decimals
    state := .calculatingRecvTxGasCost
    clientFormat := "getting ibcv2 bridge client for transfer destination chain %s: %w"
    noTx := "this is a bug! transfer does not have a recv tx, violating should process"
    feeFormat := "getting gas cost of recv tx %s on %s: %w"
    valueFormat := "getting usd value of recv tx gas cost on chain %s: %w"
    updateFormat := "updating transfer recv tx gas cost usd value: %w" }

def ackTxGasCalculatorProcessor (coingeckoID : String) (decimals : UInt8) : IBCV2Processor :=
  TxGasCalculator.processor
  { kind := .ack
    chainID := (·.sourceChainID)
    coingeckoID, decimals
    state := .calculatingAckTxGasCost
    clientFormat := "getting ibcv2 bridge client for transfer source chain %s: %w"
    noTx := "this is a bug! transfer does not have a ack tx, violating should process"
    feeFormat := "getting gas cost of ack tx %s on %s: %w"
    valueFormat := "getting usd value of ack tx gas cost on chain %s: %w"
    updateFormat := "updating transfer ack tx gas cost usd value: %w" }

def timeoutTxGasCalculatorProcessor (coingeckoID : String) (decimals : UInt8) : IBCV2Processor :=
  TxGasCalculator.processor
  { kind := .timeout
    chainID := (·.sourceChainID)
    coingeckoID, decimals
    state := .calculatingTimeoutTxGasCost
    clientFormat := "getting ibcv2 bridge client for transfer source chain %s: %w"
    noTx := "this is a bug! transfer does not have a recv tx, violating should process"
    feeFormat := "getting gas cost of timeout tx %s on %s: %w"
    valueFormat := "getting usd value of timeout tx gas cost on chain %s: %w"
    updateFormat := "updating transfer timeout tx gas cost usd value: %w" }

/-! ## The end of the pipeline -/

/-- `RecordTimeoutRelayed`, which counts under the type of a recv. -/
def recordTimeoutRelayed (t : IBCV2Transfer) : Relay Unit :=
  ask (.addRelayCompleted t.sourceChainID t.packetSourceClientID t.destinationChainID
    t.packetDestinationClientID .ibcv2SendToRecv)

/-- `RecordAckRelayed`. -/
def recordAckRelayed (t : IBCV2Transfer) : Relay Unit :=
  ask (.addRelayCompleted t.destinationChainID t.packetDestinationClientID t.sourceChainID
    t.packetSourceClientID .ibcv2RecvToAck)

/-- The update at the end of `StateFinisher.Process`. -/
def writeFinalState (t : IBCV2Transfer) : Relay IBCV2Transfer :=
  (ask (.exec (updateTransferState t.state t.key))).bind fun
  | .error err =>
    .ret { t with
      processingError := some (errorf "updating transfer state to %s: %w" [.status t.state] err) }
  | .ok _ => .ret t

/-- `StateFinisher.Process`, which returns no error. -/
def stateFinisher (shouldRelaySuccessAcks shouldRelayErrorAcks : Bool) (t : IBCV2Transfer) :
    Relay IBCV2Transfer :=
  if t.errored then .ret t
  else if !t.isComplete shouldRelaySuccessAcks shouldRelayErrorAcks then .ret t
  else if t.has .timeout then
    (recordTimeoutRelayed t).bind fun _ => writeFinalState { t with state := .completeWithTimeout }
  else match t.writeAckStatus with
    | none => .ret t
    | some s =>
      if t.has .ack then
        (recordAckRelayed t).bind fun _ => writeFinalState { t with state := .completeWithAck }
      else
        let t := if isErrorAck s then { t with state := .completeWithWriteAckError } else t
        let t := if isSuccessAck s then { t with state := .completeWithWriteAckSuccess } else t
        writeFinalState t

end PlatformRelayer

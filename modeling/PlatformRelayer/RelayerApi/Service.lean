import PlatformRelayer.RelayerApi.Calls

/-!
# The relayer API

`Relay` records a request, fetches the packets of the tx and inserts a transfer
for each; `Status` reads the transfers of a tx back. The metrics and the logs
are left out.
-/

namespace PlatformRelayer

open Prog Db

/-- The codes of a gRPC status. An error without a status has `unknown`. -/
inductive Code where
  | invalidArgument
  | notFound
  | internal
  | unknown
deriving DecidableEq, Repr

/-- An error of a handler. -/
structure StatusErr where
  code : Code
  err : Err
deriving DecidableEq, Repr

/-! ## The packets of a tx -/

/-- `CosmosBridgeClient.SendPacketsFromTx`. The header is asked for only if
there are packets. -/
def CosmosBridgeClient.sendPacketsFromTx (loc : Zone)
    (chainID txHash : String) : Api (Except Err (List PacketInfo)) :=
  match hexDecodeString txHash with
  | .error err => .ret (.error (errorf "hex decoding tx hash: %w" [] err))
  | .ok hashBytes =>
  attempt (request (.tx chainID hashBytes)) (errorf "getting tx result: %w" []) fun txResult =>
  match readPackets loc txResult.events with
  | .error err => .ret (.error err)
  | .ok packets =>
  if packets.isEmpty then .ret (.ok []) else
  attempt (request (.header chainID txResult.height))
    (errorf "getting header for height %d: %w" [.num txResult.height.toInt.toNat]) fun header =>
  match header with
  | none => .ret (.error (newErr "got nil header at height %d" [.num txResult.height.toInt.toNat]))
  | some time => .ret (.ok (packets.map fun packet => { packet with timestamp := time }))

/-- `EVMBridgeClient.SendPacketsFromTx`. -/
def EVMBridgeClient.sendPacketsFromTx (loc : Zone) (router : Ics26Router)
    (chainID txHash : String) : Api (Except Err (List PacketInfo)) :=
  attempt (request (.transactionReceipt chainID (hexToHash txHash)))
    (errorf "getting transaction receipt for tx %s on chain %s: %w" [.str txHash, .str chainID])
    fun receipt =>
  match readPackets loc router chainID txHash receipt.logs with
  | .error err => .ret (.error err)
  | .ok packets =>
  if packets.isEmpty then .ret (.ok []) else
  attempt (request (.headerByNumber chainID receipt.blockNumber))
    (errorf "getting block header for height %s of tx %s o chain %s: %w"
      [.num receipt.blockNumber, .str txHash, .str chainID]) fun time =>
  .ret (.ok (packets.map fun packet => { packet with timestamp := timeUnix loc time.toInt64 }))

def BridgeClient.sendPacketsFromTx (loc : Zone) (client : BridgeClient) (chainID txHash : String) :
    Api (Except Err (List PacketInfo)) :=
  match client with
  | .cosmos => CosmosBridgeClient.sendPacketsFromTx loc chainID txHash
  | .evm router => EVMBridgeClient.sendPacketsFromTx loc router chainID txHash

/-! ## Relay -/

structure RelayRequest where
  txHash : String
  chainID : String
deriving DecidableEq, Repr

/-- On an EVM chain, the sender of the tx must not be sanctioned. -/
def checkSender (client : BridgeClient) (req : RelayRequest) : Api (Except StatusErr Unit) :=
  match client with
  | .cosmos => .ret (.ok ())
  | .evm _ =>
    attempt (request (.txSigner req.chainID (hexToHash req.txHash)))
      (fun err => ⟨.unknown,
        errorf "checking OFAC Blacklist - error getting transaction sender: %w" [] err⟩)
      fun transactionSender =>
    if ofacAddresses.contains transactionSender.toLower then
      .ret (.error ⟨.invalidArgument, newErr "Transaction sender is blacklisted - cannot relay"⟩)
    else .ret (.ok ())

/-- The sequence number of a packet as its column holds it: `int32(packet.Sequence)`. -/
def PacketInfo.storedSequence (packet : PacketInfo) : Int32 := packet.sequence.toUInt32.toInt32

def PacketInfo.insert (packet : PacketInfo) (req : RelayRequest) (destChainID : String) :
    InsertIBCV2TransferParams where
  sourceChainID := req.chainID
  destinationChainID := destChainID
  sourceTxHash := req.txHash
  sourceTxTime := packet.timestamp.stored
  packetSequenceNumber := packet.storedSequence
  packetSourceClientID := packet.sourceClient
  packetDestinationClientID := packet.destinationClient
  packetTimeoutTimestamp := packet.timeoutTimestamp.stored

/-- The loop over the packets. A packet whose client has no counterparty is
skipped, and so is one whose transfer exists. -/
def insertPackets (config : ConfigReader)
    (req : RelayRequest) : List PacketInfo → Api (Except StatusErr Unit)
  | [] => .ret (.ok ())
  | packet :: packets =>
  match config.getClientCounterpartyChainID req.chainID packet.sourceClient with
    | .error _ => insertPackets config req packets
    | .ok destChainID => (request (.insertIBCV2Transfer (packet.insert req destChainID))).bind fun
      | .error err =>
        if err.isDuplicateKey then insertPackets config req packets
        else .ret (.error ⟨.internal, newErr "failed to insert packet"⟩)
      | .ok _ => insertPackets config req packets

def relay (config : ConfigReader) (loc : Zone) (req : RelayRequest) : Api (Except StatusErr Unit) :=
  if req.txHash = "" || req.chainID = "" then
    .ret (.error ⟨.invalidArgument, newErr "tx_hash and chain_id are required"⟩)
  else (request (.insertRelaySubmission req.chainID req.txHash)).bind fun
  | .error err =>
    if err.isDuplicateKey then .ret (.ok ())
    else .ret (.error ⟨.internal, newErr "failed to insert relay submission"⟩)
  | .ok _ =>
    attempt (request (.getClient req.chainID))
      (fun _ => ⟨.invalidArgument, newErr "unsupported chain: %s" [.str req.chainID]⟩) fun client =>
    attempt (checkSender client req) id fun _ =>
    attempt (client.sendPacketsFromTx loc req.chainID req.txHash)
      (fun err => ⟨.internal, errorf "failed to get packets from tx: %v" [] err⟩) fun packets =>
    insertPackets config req packets

/-! ## Status -/

inductive TransferState where
  | unknown
  | pending
  | complete
  | failed
deriving DecidableEq, Repr

structure TransactionInfo where
  txHash : String
  chainId : String
deriving DecidableEq, Repr

structure PacketStatus where
  state : TransferState
  sequenceNumber : UInt64
  sourceClientId : String
  sendTx : Option TransactionInfo
  recvTx : Option TransactionInfo
  ackTx : Option TransactionInfo
  timeoutTx : Option TransactionInfo
deriving DecidableEq, Repr

def mapDBStatusToProto : Ibcv2RelayStatus → TransferState
  | .completeWithAck | .completeWithTimeout | .completeWithWriteAckSuccess
  | .completeWithWriteAckError => .complete
  | .failed => .failed
  | _ => .pending

def toTxInfo (hash : Option String) (chainID : String) : Option TransactionInfo :=
  hash.map (⟨·, chainID⟩)

/-- The status of one transfer. The sequence number goes from an `int32` to a
`uint64`. -/
def packetStatus (t : Ibcv2Transfer) : PacketStatus where
  state := mapDBStatusToProto t.status
  sequenceNumber := t.packetSequenceNumber.toInt64.toUInt64
  sourceClientId := t.packetSourceClientID
  sendTx := some ⟨t.sourceTxHash, t.sourceChainID⟩
  recvTx := toTxInfo t.recvTx.hash t.destinationChainID
  ackTx := toTxInfo t.ackTx.hash t.sourceChainID
  timeoutTx := toTxInfo t.timeoutTx.hash t.sourceChainID

structure StatusRequest where
  txHash : String
  chainID : String
deriving DecidableEq, Repr

def status (req : StatusRequest) : Api (Except StatusErr (List PacketStatus)) :=
  if req.txHash = "" || req.chainID = "" then
    .ret (.error ⟨.invalidArgument, newErr "tx_hash and chain_id are required"⟩)
  else (request (.getRelaySubmission req.chainID req.txHash)).bind fun
  | .error err =>
    if err = .errNoRows then
      .ret (.error ⟨.notFound, newErr "transaction not submitted to relayer"⟩)
    else .ret (.error ⟨.internal, newErr "failed to query relay submission"⟩)
  | .ok _ =>
    attempt (request (.getTransfersBySourceTx req.chainID req.txHash))
      (fun _ => ⟨.internal, newErr "failed to query transfers"⟩) fun transfers =>
    .ret (.ok (transfers.map packetStatus))

end PlatformRelayer

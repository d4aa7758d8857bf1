import PlatformRelayer.Bridges.Delivery
import PlatformRelayer.Bridges.Finality
import PlatformRelayer.Bridges.WriteAcks

/-!
# What has happened on a chain

The queries of the bridge clients that the processors make: whether a packet is
received or still committed, which tx received, acknowledged or timed it out, whether
a tx must be sent again, and what it has cost. The EVM client reads the storage of the
ICS26 router and the logs that it emitted; the Cosmos client asks by gRPC and searches
the index of txs with a query text. The results of txs are asked for through `txOnce`.

The ABI of the router is a constant that always parses, and topics of hashes,
strings and numbers can always be made; both errors are left out.
-/

namespace PlatformRelayer

open Prog Db

/-! ## Calls -/

/-- A log, with the block and the tx that it is from. -/
structure FoundLog where
  log : EvmLog
  blockNumber : UInt64
  txHash : List UInt8
deriving DecidableEq, Repr

/-- A tx in the result of a search. -/
structure FoundTx where
  hash : List UInt8
  height : Int64
  tx : List UInt8
deriving DecidableEq, Repr

/-- The first page of a search, which is not empty if anything was found. -/
structure ResultTxSearch where
  txs : List FoundTx
  totalCount : Nat
  nonempty : 0 < totalCount → txs ≠ []

/-- An error of a gRPC call, with its status code if it has one. -/
structure RpcErr where
  err : Err
  code : Option Nat

/-- `codes.NotFound`. -/
def notFoundCode : Nat := 5

/-- The receipt of an EVM tx, as far as it is read here. -/
structure TxReceipt where
  status : UInt64
  effectiveGasPrice : Int
  gasUsed : UInt64
deriving DecidableEq, Repr

/-- The result of a Cosmos tx, as far as it is read here. -/
structure TxResult where
  code : UInt32
  tx : List UInt8
deriving DecidableEq, Repr

/-- A call. A number or height of nil is the latest. A call with a key is made through
`txOnce`, so the answer can be one that the node gave a while ago. -/
inductive SearchCall where
  | getCommitment (hashedPath : List UInt8)
  | filterLogs (addresses : List (List UInt8)) (topics : List (List (List UInt8)))
  | headerByNumber (number : Option Int)
  | transactionReceipt (key : String) (hash : List UInt8)
  | transactionByHash (hash : List UInt8)
  | packetReceipt (clientID : String) (sequence : UInt64)
  | packetCommitment (clientID : String) (sequence : UInt64)
  | txSearch (query : String)
  | header (height : Option Int64)
  | tx (key : String) (hash : List UInt8)
deriving DecidableEq

/-- What a call is answered by: for a header its time, and for an EVM tx its bytes. -/
@[reducible] def SearchCall.Ans : SearchCall → Type
  | .getCommitment _ => Except Err (List UInt8)
  | .filterLogs .. => Except Err (List FoundLog)
  | .headerByNumber _ => Except Err UInt64
  | .transactionReceipt .. => Except Err TxReceipt
  | .transactionByHash _ => Except Err (List UInt8)
  | .packetReceipt .. => Except Err Bool
  | .packetCommitment .. => Except RpcErr Unit
  | .txSearch _ => Except Err ResultTxSearch
  | .header _ => Except Err (Option Time)
  | .tx .. => Except Err TxResult

/-- A program that searches a chain. -/
abbrev Search (α : Type) := Prog SearchCall SearchCall.Ans α

/-- The program that makes a call and returns its answer. -/
abbrev search (c : SearchCall) : Search c.Ans := Prog.perform c

/-- The queries of either client. -/
structure ChainClient where
  isPacketReceived (destClientID : String) (sequence : UInt64) : Search (Except Err Bool)
  isPacketCommitted (sourceClientID : String) (sequence : UInt64) : Search (Except Err Bool)
  findRecvTx (sourceClientID destClientID : String) (sequence : UInt64) (timeoutTimestamp : Time) :
    Search (Except Err BridgeTx)
  findAckTx (sourceClientID destClientID : String) (sequence : UInt64) :
    Search (Except Err BridgeTx)
  findTimeoutTx (sourceClientID destClientID : String) (sequence : UInt64) :
    Search (Except Err BridgeTx)
  shouldRetryTx (txHash : String) (expiry : Duration) (sentTs : Time) : Search (Except Err Bool)
  txFee (txHash : String) : Search (Except Err Int)

/-- The end of `ShouldRetryTx` for a tx that was not found, with the time of the latest
header. -/
def retryExpired (expiry : Duration) (sentTs headerTs : Time) : Except Err Bool :=
  let expiresAt := sentTs + expiry
  if expiresAt < headerTs then .ok true else .error Sentinel.errTxNotFound.err

/-! ## EVM -/

/-- `sdk.Uint64ToBigEndian`. -/
def uint64ToBigEndian (n : UInt64) : List UInt8 :=
  [(n >>> 56).toUInt8, (n >>> 48).toUInt8, (n >>> 40).toUInt8, (n >>> 32).toUInt8,
   (n >>> 24).toUInt8, (n >>> 16).toUInt8, (n >>> 8).toUInt8, n.toUInt8]

/-- A value of some type that `encodePacked` is given. -/
inductive PackedValue where
  | bytes (v : List UInt8)
  | byte (v : UInt8)
  | string (v : String)
  | other (typeName : String)
deriving DecidableEq, Repr

def encodePacked : List PackedValue → Except Err (List UInt8)
  | [] => .ok []
  | .bytes v :: values => (encodePacked values).map (v ++ ·)
  | .byte v :: values => (encodePacked values).map (v :: ·)
  | .string v :: values => (encodePacked values).map (bytesOf v ++ ·)
  | .other typeName :: _ => .error (newErr "unsupported value type %T" [.str typeName])

/-- A rule for a topic. -/
inductive TopicRule where
  | hash (h : List UInt8)
  | string (s : String)
  | uint64 (n : UInt64)

/-- The bindings of the router: the ids of the events that a relayed packet is known
by, and whether a log is parsed as one. The event of a received packet is its
`WriteAcknowledgement`. -/
structure RouterEvents where
  id : TxKind → List UInt8
  parse : TxKind → EvmLog → Except Err Unit

/-- The client, as far as it searches its chain. -/
structure EVMSearcher where
  chainID : String
  routerAddress : List UInt8
  events : RouterEvents
  keccak256 : List UInt8 → List UInt8
  /-- `types.Sender` of a tx, for the Prague signer of a chain id, as text. -/
  sender : Int → List UInt8 → Except Err String

/-- `SetString` of a `big.Int`, with the base 10. -/
def bigIntSetString (s : String) : Option Int :=
  match s.toList with
  | '-' :: digits => (parseDigits digits).map fun n => -(n : Int)
  | '+' :: digits => (parseDigits digits).map Int.ofNat
  | digits => (parseDigits digits).map Int.ofNat

/-- The word of a storage slot that was never written. -/
def unwritten : List UInt8 :=
  bytesToHash (decodedBytes (bytesOf "0000000000000000000000000000000000000000"))

namespace EVMSearcher

variable (client : EVMSearcher)

/-- `abi.MakeTopics` of one rule. -/
def makeTopic : TopicRule → List UInt8
  | .hash h => h
  | .string s => client.keccak256 (bytesOf s)
  | .uint64 n => List.replicate 24 0 ++ uint64ToBigEndian n

/-- What `IsPacketReceived` and `IsPacketCommitted` have in common: whether the slot
of a path is written. -/
def isWritten (clientID : String) (tag : UInt8) (sequence : UInt64) (encodeErr : Err → Err)
    (getErr : List UInt8 → Err → Err) : Search (Except Err Bool) :=
  match encodePacked [.string clientID, .byte tag, .bytes (uint64ToBigEndian sequence)] with
  | .error err => .ret (.error (encodeErr err))
  | .ok path =>
  let hashedPath := client.keccak256 path
  attempt (search (.getCommitment hashedPath)) (getErr hashedPath) fun commitment =>
  .ret (.ok (commitment ≠ unwritten))

/-- The bytes of the path in the text of the second error are left out. -/
def isPacketReceived (packetDestinationClientID : String)
    (sequence : UInt64) : Search (Except Err Bool) :=
  client.isWritten packetDestinationClientID 2 sequence
    (errorf "encoding packed client id '%s' '2' and sequence '%d': %w"
      [.str packetDestinationClientID, .num sequence.toNat])
    fun hashedPath => errorf
      "getting commitment for packet with destination client id %s and sequence %d and hashed path %s: %w"
      [.num sequence.toNat, .str (EVMBridgeClient.hashString hashedPath)]

def isPacketCommitted (packetSourceClientID : String)
    (sequence : UInt64) : Search (Except Err Bool) :=
  client.isWritten packetSourceClientID 1 sequence
    (errorf "encoding packed client id '%s' '1' and sequence '%d': %w"
      [.str packetSourceClientID, .num sequence.toNat])
    fun hashedPath => errorf
      "getting commitment for packet with source client id %s and sequence %d and hashed path %s: %w"
      [.str packetSourceClientID, .num sequence.toNat, .str (EVMBridgeClient.hashString hashedPath)]

def txSigner (hash : List UInt8) : Search (Except Err String) :=
  match bigIntSetString client.chainID with
  | none => .ret (.error (newErr "could not convert chain id %s to *big.Int" [.str client.chainID]))
  | some chainID =>
  attempt (search (.transactionByHash hash))
    (errorf "getting transaction for hash %s: %w" [.str (EVMBridgeClient.hashString hash)])
    fun tx =>
  match client.sender chainID tx with
  | .error err =>
    .ret (.error (errorf "getting transaction %s sender: %w"
      [.str (EVMBridgeClient.hashString hash)] err))
  | .ok sender => .ret (.ok sender)

/-- What the three searches have in common. An error of `txSigner` leaves the relayer
address empty. -/
def findTx (k : TxKind) (clientID : String) (sequence : UInt64)
    (filterFormat countFormat parseFormat : String) : Search (Except Err BridgeTx) :=
  let topics := [[client.makeTopic (.hash (client.events.id k))],
    [client.makeTopic (.string clientID)], [client.makeTopic (.uint64 sequence)]]
  attempt (search (.filterLogs [client.routerAddress] topics)) (errorf filterFormat []) fun
  | [] => .ret (.error Sentinel.errTxNotFound.err)
  | log :: log' :: logs =>
    .ret (.error (newErr countFormat [.num sequence.toNat, .str clientID,
      .num (log :: log' :: logs).length]))
  | [log] =>
  match client.events.parse k log.log with
  | .error err => .ret (.error (errorf parseFormat [] err))
  | .ok _ =>
  attempt (search (.headerByNumber (some log.blockNumber.toInt64.toInt)))
    (errorf "getting block header at height %d: %w" [.num log.blockNumber.toNat]) fun time =>
  (client.txSigner log.txHash).bind fun signer =>
  .ret (.ok ⟨EVMBridgeClient.hashString log.txHash, unixInstant time.toInt64,
    signer.toOption.getD ""⟩)

def findRecvTx (_sourceClientID destinationClientID : String) (sequence : UInt64)
    (_timeoutTimestamp : Time) : Search (Except Err BridgeTx) :=
  client.findTx .recv destinationClientID sequence "filtering for write ack logs: %w"
    "expected to receive 1 log for write ack with sequence %d and dest client ID %s, instead got %d"
    "parsing write ack: %w"

def findAckTx (sourceClientID _destClientID : String)
    (sequence : UInt64) : Search (Except Err BridgeTx) :=
  client.findTx .ack sourceClientID sequence "filtering ack logs: %w"
    "expected to receive 1 log for ack packet with sequence %d and source client ID %s, instead got %d"
    "parsing ack packet log: %w"

def findTimeoutTx (sourceClientID _destClientID : String)
    (sequence : UInt64) : Search (Except Err BridgeTx) :=
  client.findTx .timeout sourceClientID sequence "filtering for timeout logs: %w"
    "expected to receive 1 log for timeout with sequence %d and source client ID %s, instead got %d"
    "parsing timeout packet: %w"

def shouldRetryTx (txHash : String) (expiry : Duration)
    (sentTs : Time) : Search (Except Err Bool) :=
  (search (.transactionReceipt txHash (hexToHash txHash))).bind fun
  | .error err =>
    if err.contains "not found" then
      attempt (search (.headerByNumber none)) (errorf "getting latest block header: %w" [])
        fun time =>
      .ret (retryExpired expiry sentTs (unixInstant time.toInt64))
    else .ret (.error (errorf "could not get transaction receipt for tx with hash %s: %w"
      [.str txHash] err))
  | .ok receipt => .ret (.ok (receipt.status ≠ 1))

def txFee (txHash : String) : Search (Except Err Int) :=
  attempt (search (.transactionReceipt txHash (hexToHash txHash)))
    (errorf "getting transaction receipt for tx hash %s: %w" [.str txHash]) fun receipt =>
  .ret (.ok (receipt.effectiveGasPrice * receipt.gasUsed.toNat))

def chainClient : ChainClient where
  isPacketReceived := client.isPacketReceived
  isPacketCommitted := client.isPacketCommitted
  findRecvTx := client.findRecvTx
  findAckTx := client.findAckTx
  findTimeoutTx := client.findTimeoutTx
  shouldRetryTx := shouldRetryTx
  txFee := txFee

end EVMSearcher

/-! ## Cosmos -/

/-- A message of a decoded tx: one that relays a packet, with its signer, or another. -/
inductive RelayMsg where
  | recvPacket (signer : String)
  | acknowledgement (signer : String)
  | timeout (signer : String)
  | other
deriving DecidableEq, Repr

def eventTypeRecvPacket : String := "recv_packet"
def eventTypeAckPacket : String := "acknowledge_packet"
def eventTypeTimeoutPacket : String := "timeout_packet"

/-- `fmt.Sprintf("%s.%s='%s'", …)`. -/
def stringCondition (eventType key value : String) : String :=
  eventType ++ "." ++ key ++ "='" ++ value ++ "'"

/-- `fmt.Sprintf("%s.%s=%d", …)`. -/
def numberCondition (eventType key : String) (value : Int) : String :=
  eventType ++ "." ++ key ++ "=" ++ toString value

/-- `Unix` of a `time.Time`. -/
def unixSeconds (t : Time) : Int := t / second

/-- The client, as far as it searches its chain. -/
structure CosmosSearcher where
  /-- `TxDecoder` of a tx, of which the messages are read. -/
  decodeTx : List UInt8 → Except Err (List RelayMsg)
  /-- `AmountOf` of the fee of a decoded tx, or none if it is no `sdk.FeeTx`. -/
  decodeFee : List UInt8 → Except Err (Option (String → Int))
  feeDenom : String

namespace CosmosSearcher

variable (client : CosmosSearcher)

def isPacketReceived (destinationClientID : String)
    (sequence : UInt64) : Search (Except Err Bool) :=
  attempt (search (.packetReceipt destinationClientID sequence))
    (errorf "querying for packet receipt with sequence number %d to destination client %s: %w"
      [.num sequence.toNat, .str destinationClientID]) fun received =>
  .ret (.ok received)

def isPacketCommitted (sourceClientID : String) (sequence : UInt64) : Search (Except Err Bool) :=
  (search (.packetCommitment sourceClientID sequence)).bind fun
  | .error rpcErr =>
    if rpcErr.code = some notFoundCode then .ret (.ok false)
    else .ret (.error
      (errorf "querying for packet commitment with sequence number %d to source client %s: %w"
      [.num sequence.toNat, .str sourceClientID] rpcErr.err))
  | .ok _ => .ret (.ok true)

/-- The loop over the messages of a tx. -/
def signerOf : List RelayMsg → Except Err String
  | [] => .error (newErr "expected recv packet, ack packet, or timeout packet msg but found none")
  | .recvPacket signer :: _ => .ok signer
  | .acknowledgement signer :: _ => .ok signer
  | .timeout signer :: _ => .ok signer
  | .other :: msgs => signerOf msgs

def txSigner (result : FoundTx) : Except Err String :=
  match client.decodeTx result.tx with
  | .error err => .error (errorf "decoding tx result: %w" [] err)
  | .ok msgs => signerOf msgs

/-- What the three searches have in common, with the conditions of the query. -/
def findTx (conditions : List String) (searchErr : Err → Err) (headerFormat nilFormat : String) :
    Search (Except Err BridgeTx) :=
  let query := " AND ".intercalate conditions
  attempt (search (.txSearch query)) searchErr fun searchResult =>
  if searchResult.totalCount = 0 then .ret (.error Sentinel.errTxNotFound.err)
  else if searchResult.totalCount ≠ 1 then
    .ret (.error (newErr "expected only 1 tx, but got %d" [.num searchResult.totalCount]))
  else match searchResult.txs with
  -- not reached: the page of a search that found a tx has one
  | [] => .ret (.error Sentinel.errTxNotFound.err)
  | tx :: _ =>
  attempt (search (.header (some tx.height))) (errorf headerFormat [.num tx.height.toInt.toNat]) fun
  | none => .ret (.error (newErr nilFormat [.num tx.height.toInt.toNat]))
  | some time =>
  .ret (.ok ⟨CosmosBridgeClient.hashString tx.hash, time, (client.txSigner tx).toOption.getD ""⟩)

/-- The conditions that all the searches have. -/
def packetConditions (eventType sourceClientID destClientID : String)
    (sequence : UInt64) : List String :=
  [stringCondition eventType attributeKeyPacketSourceClient sourceClientID,
   stringCondition eventType attributeKeyPacketDestClient destClientID,
   numberCondition eventType attributeKeyPacketSequence sequence.toNat]

/-- The nanoseconds in the text of the first error are given as the time. -/
def findRecvTx (sourceClientID destClientID : String) (sequence : UInt64)
    (timeoutTimestamp : Time) : Search (Except Err BridgeTx) :=
  client.findTx (packetConditions eventTypeRecvPacket sourceClientID destClientID sequence ++
      [numberCondition eventTypeRecvPacket attributeKeyPacketTimeoutTimestamp
        (unixSeconds timeoutTimestamp)])
    (errorf
      "searching for recv tx from source client %s to dest client %s with sequence %d and timeout tx %d: %w"
      [.str sourceClientID, .str destClientID, .num sequence.toNat, .time timeoutTimestamp])
    "fetching block header at recv tx height %d: %w"
    "fetched block header at recv tx height %d without err but header was nil"

def findAckTx (sourceClientID destClientID : String)
    (sequence : UInt64) : Search (Except Err BridgeTx) :=
  client.findTx (packetConditions eventTypeAckPacket sourceClientID destClientID sequence)
    (errorf "searching for ack tx from source client %s to dest client %s with sequence %d: %w"
      [.str sourceClientID, .str destClientID, .num sequence.toNat])
    "fetching block header at ack tx height %d: %w"
    "fetched block header at ack tx height %d without err but header was nil"

def findTimeoutTx (sourceClientID destClientID : String)
    (sequence : UInt64) : Search (Except Err BridgeTx) :=
  client.findTx (packetConditions eventTypeTimeoutPacket sourceClientID destClientID sequence)
    (errorf "searching for timeout tx from source client %s to dest client %s with sequence %d: %w"
      [.str sourceClientID, .str destClientID, .num sequence.toNat])
    "fetching block header at timeout tx height %d: %w"
    "fetched block header at timeout tx height %d without err but header was nil"

def shouldRetryTx (txHash : String) (expiry : Duration)
    (sentTs : Time) : Search (Except Err Bool) :=
  match hexDecodeString txHash with
  | .error err => .ret (.error (errorf "decoding hex tx hash %s to bytes: %w" [.str txHash] err))
  | .ok txHashBytes =>
  (search (.tx txHash txHashBytes)).bind fun
  | .error err =>
    if err.contains "not found" then
      attempt (search (.header none)) (errorf "getting latest block header: %w" []) fun
      | none => .ret
        (.error (newErr "fetched block header at latest height without err but header was nil"))
      | some time => .ret (retryExpired expiry sentTs time)
    else .ret (.error (errorf "fetching tx %s on chain: %w" [.str txHash] err))
  | .ok result => .ret (.ok (result.code ≠ 0))

/-- The amount is compared with a new zero by the pointers in them, which are different,
so that a fee of zero is returned like any other. -/
def txFee (txHash : String) : Search (Except Err Int) :=
  match hexDecodeString txHash with
  | .error err => .ret (.error (errorf "hex decoding tx hash string %s: %w" [.str txHash] err))
  | .ok hashBytes =>
  attempt (search (.tx txHash hashBytes))
    (errorf "getting results for ts hash %s: %w" [.str txHash]) fun result =>
  match client.decodeFee result.tx with
  | .error err => .ret (.error (errorf "decoding tx result: %w" [] err))
  | .ok none => .ret (.error (newErr "could not convert decoded tx to sdk.FeeTx"))
  | .ok (some amountOf) => .ret (.ok (amountOf client.feeDenom))

def chainClient : ChainClient where
  isPacketReceived := isPacketReceived
  isPacketCommitted := isPacketCommitted
  findRecvTx := client.findRecvTx
  findAckTx := client.findAckTx
  findTimeoutTx := client.findTimeoutTx
  shouldRetryTx := shouldRetryTx
  txFee := client.txFee

end CosmosSearcher

/-! ## The clients behind the calls of the pipeline -/

/-- A call of the pipeline as it goes out: to a node of a chain, for a query, or to
another party. The query is not sent; it says what the call to the node is for. -/
inductive NetCall where
  | node (query : PlatformRelayer.Call) (chainID : String) (c : SearchCall)
  | other (c : PlatformRelayer.Call)
deriving DecidableEq

@[reducible] def NetCall.Ans : NetCall → Type
  | .node _ _ c => c.Ans
  | .other c => c.Ans

/-- A query is made by the client of its chain. -/
def Call.out (clients : String → ChainClient) : (c : PlatformRelayer.Call) →
    Prog NetCall NetCall.Ans c.Ans
  | c@(.isPacketReceived chainID clientID sequence) =>
    ((clients chainID).isPacketReceived clientID sequence).within (.node c chainID) fun _ r => r
  | c@(.isPacketCommitted chainID clientID sequence) =>
    ((clients chainID).isPacketCommitted clientID sequence).within (.node c chainID) fun _ r => r
  | c@(.findRecvTx chainID sourceClientID destClientID sequence timeoutTimestamp) =>
    ((clients chainID).findRecvTx sourceClientID destClientID sequence timeoutTimestamp).within
      (.node c chainID) fun _ r => r
  | c@(.findAckTx chainID sourceClientID destClientID sequence) =>
    ((clients chainID).findAckTx sourceClientID destClientID sequence).within (.node c chainID)
      fun _ r => r
  | c@(.findTimeoutTx chainID sourceClientID destClientID sequence) =>
    ((clients chainID).findTimeoutTx sourceClientID destClientID sequence).within (.node c chainID)
      fun _ r => r
  | c@(.shouldRetryTx chainID hash expiry sentTs) =>
    ((clients chainID).shouldRetryTx hash expiry sentTs).within (.node c chainID) fun _ r => r
  | c@(.txFee chainID hash) => ((clients chainID).txFee hash).within (.node c chainID) fun _ r => r
  | c => perform (A := NetCall.Ans) (NetCall.other c)

end PlatformRelayer

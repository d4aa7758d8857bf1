import PlatformRelayer.Ibcv2.Processors

/-!
# The processors of batches

A batch is a list of pointers to transfers: the middleware can put one pointer
into two lists, and what is then written through one is seen through the
other. So a batch processor works on `Ref`s into a `Heap`, and returns the
heap it leaves.

The recv, ack and timeout processors are one program (`BatchPacket.process`)
with the values they differ in. `gather` is their loop over the batch that
makes the lists of the request, `submit` what follows up to the commit, and
`recordAll` the last loop, which records the delivered tx in memory.
-/

namespace PlatformRelayer

open Prog Db

/-- A pointer to a transfer. -/
abbrev Ref := Nat

/-- The transfers in memory. -/
abbrev Heap := Ref → IBCV2Transfer

/-- A write through a pointer. -/
def Heap.modify (h : Heap) (r : Ref) (f : IBCV2Transfer → IBCV2Transfer) : Heap :=
  fun r' => if r' = r then f (h r) else h r'

@[simp] theorem Heap.modify_self (h : Heap) (r : Ref) (f : IBCV2Transfer → IBCV2Transfer) :
    h.modify r f r = f (h r) := if_pos rfl

theorem Heap.modify_of_ne (h : Heap) {r r' : Ref} (f : IBCV2Transfer → IBCV2Transfer)
    (hr : r' ≠ r) : h.modify r f r' = h r' := if_neg hr

/-- `transfer.ProcessingError = err`. -/
def IBCV2Transfer.fail (t : IBCV2Transfer) (err : Err) : IBCV2Transfer :=
  { t with processingError := some err }

structure IBCV2BatchProcessor where
  shouldProcess : IBCV2Transfer → Relay Bool
  state : Ibcv2RelayStatus
  process : List Ref → Heap → Relay (Except Err (List Ref) × Heap)

/-! ## Tx ids -/

/-- The value of a hex digit. -/
def fromHexChar (c : UInt8) : Option UInt8 :=
  if 0x30 ≤ c && c ≤ 0x39 then some (c - 0x30)
  else if 0x61 ≤ c && c ≤ 0x66 then some (c - 0x61 + 10)
  else if 0x41 ≤ c && c ≤ 0x46 then some (c - 0x41 + 10)
  else none

def invalidByte (c : UInt8) : Err := newErr "encoding/hex: invalid byte: %#U" [.num c.toNat]

def decodeBytes : List UInt8 → Except Err (List UInt8)
  | [] => .ok []
  | [c] => match fromHexChar c with
    | none => .error (invalidByte c)
    | some _ => .error (newErr "encoding/hex: odd length hex string")
  | a :: b :: rest => match fromHexChar a with
    | none => .error (invalidByte a)
    | some x => match fromHexChar b with
      | none => .error (invalidByte b)
      | some y => match decodeBytes rest with
        | .error err => .error err
        | .ok bytes => .ok ((x <<< 4 ||| y) :: bytes)

/-- `hex.DecodeString(strings.TrimPrefix(hash, "0x"))`. -/
def decodeTxHash (hash : String) : Except Err (List UInt8) :=
  match hash.toList.flatMap String.utf8EncodeChar with
  | 0x30 :: 0x78 :: rest => decodeBytes rest
  | bytes => decodeBytes bytes

/-! ## Transactions -/

/-- The statements of a transaction, up to the first that fails, with how its
error is wrapped. -/
def txStatements : List (Query × (Err → Err)) → Relay (Except Err Unit)
  | [] => .ret (.ok ())
  | (q, wrap) :: rest => attempt (ask (.txExec q)) wrap fun _ => txStatements rest

/-- `ExecTx`, for a function that makes these statements. -/
def execTx (statements : List (Query × (Err → Err))) : Relay (Except Err Unit) :=
  attempt (ask .txBegin) id fun _ =>
  (txStatements statements).bind fun
  | .error err => (ask .txRollback).bind fun
    | .error rbErr => .ret (.error (errorf₂ "tx err: %w, rb err: %w" err rbErr))
    | .ok _ => .ret (.error err)
  | .ok _ => ask (.txCommit (statements.map (·.1)))

/-! ## One program for three processors -/

/-- What the three batch processors differ in. -/
structure BatchPacket where
  kind : TxKind
  state : Ibcv2RelayStatus
  /-- Whether a transfer should be processed. -/
  shouldProcess : IBCV2Transfer → Relay Bool
  /-- The hash of the tx that the proof is about, if the transfer has it. -/
  txHash : IBCV2Transfer → Except Err String
  /-- What goes into the set of txs that are in the request, for a transfer and its hash. -/
  txSetKey : IBCV2Transfer → String → String
  request : List (List UInt8) → List UInt64 → RelayByTxRequest
  /-- The chain the tx is delivered on. -/
  chainID : String
  /-- The transfer with the delivered tx. -/
  record : BridgeTx → IBCV2Transfer → IBCV2Transfer
  decodeFormat : String
  relayFormat : String
  clientFormat : String
  deliverFormat : String
  deliverArgs : Nat → List Arg
  updateFormat : String
  updateArgs : IBCV2Transfer → BridgeTx → List Arg
  execFormat : String

/-- The lists a request is made of, the set of txs in it, and the heap. -/
structure Gathered where
  txIDs : List (List UInt8) := []
  sequences : List UInt64 := []
  txSet : List String := []
  heap : Heap

namespace BatchPacket

variable (p : BatchPacket)

def gather : List Ref → Gathered → Gathered
  | [], g => g
  | r :: transfers, g =>
    let t := g.heap r
    match p.txHash t with
    | .error err => gather transfers { g with heap := g.heap.modify r (·.fail err) }
    | .ok hash =>
      if g.txSet.contains hash then
        gather transfers { g with sequences := g.sequences ++ [t.sequence] }
      else match decodeTxHash hash with
        | .error err =>
          gather transfers
            { g with heap := g.heap.modify r (·.fail (errorf p.decodeFormat [.str hash] err)) }
        | .ok txID =>
          gather transfers { g with
            txIDs := g.txIDs ++ [txID]
            sequences := g.sequences ++ [t.sequence]
            txSet := p.txSetKey t hash :: g.txSet }

/-- On an EVM chain a delivery waits until the chain has caught up. -/
def waitForEVM (chainID : String) : Relay (Except Err Unit) :=
  (ask (.chainType chainID)).bind fun
  | .evm => ask (.waitForChain chainID)
  | _ => .ret (.ok ())

/-- The updates of the batch: of the transfers without an error. -/
def statements (tx : BridgeTx) (transfers : List Ref) (h : Heap) : List (Query × (Err → Err)) :=
  (transfers.filter fun r => !(h r).errored).map fun r =>
    ((h r).recordTx p.kind tx, errorf p.updateFormat (p.updateArgs (h r) tx))

def submit (req : RelayByTxRequest) (numTransfers : Nat) (transfers : List Ref) (h : Heap) :
    Relay (Except Err BridgeTx) :=
  attempt (ask (.relayByTx req)) (errorf p.relayFormat [.num numTransfers]) fun resp =>
  attempt (ask (.getClient p.chainID)) (errorf p.clientFormat [.str p.chainID]) fun _ =>
  attempt (waitForEVM p.chainID) (errorf "waiting for chain: %w" []) fun _ =>
  attempt (ask (.deliverTx p.chainID resp.tx resp.address ⟨p.kind, req, transfers.map h⟩))
    (errorf p.deliverFormat (p.deliverArgs numTransfers)) fun tx =>
  attempt (execTx (p.statements tx transfers h)) (errorf p.execFormat []) fun _ =>
  .ret (.ok tx)

def recordAll (tx : BridgeTx) : List Ref → Heap → Heap
  | [], h => h
  | r :: transfers, h =>
    if (h r).errored then recordAll tx transfers h
    else recordAll tx transfers (h.modify r (p.record tx))

def process (transfers : List Ref) (h : Heap) : Relay (Except Err (List Ref) × Heap) :=
  let g := p.gather transfers { heap := h }
  (p.submit (p.request g.txIDs g.sequences) g.sequences.length transfers g.heap).bind fun
  | .error err => .ret (.error err, g.heap)
  | .ok tx => .ret (.ok transfers, p.recordAll tx transfers g.heap)

def processor : IBCV2BatchProcessor where
  shouldProcess := p.shouldProcess
  state := p.state
  process := p.process

end BatchPacket

/-! ## The three processors -/

/-- The arguments of the error of a failed row update, for a recv or an ack. -/
def updateTxArgs (t : IBCV2Transfer) (tx : BridgeTx) : List Arg :=
  [.str t.sourceChainID, .num t.packetSequenceNumber.toNat, .str t.packetSourceClientID,
    .str tx.hash]

/-- The set of txs gets the source chain in the place of the source tx. -/
def batchRecvPacket (key : PipelineKey) : BatchPacket where
  kind := .recv
  state := .deliverRecvPacket
  shouldProcess t :=
    if t.has .recv then .ret false
    else (t.isTimedOut .deliverRecvPacket).bind fun timedOut => .ret (!timedOut)
  txHash t := .ok t.sourceTxHash
  txSetKey t _ := t.sourceChainID
  request txIDs sequences :=
    { srcChain := key.sourceChainID
      dstChain := key.destinationChainID
      sourceTxIds := txIDs
      srcClientId := key.sourceClientID
      dstClientId := key.destinationClientID
      srcPacketSequences := sequences }
  chainID := key.destinationChainID
  record tx t := t.foundTx .recv tx
  decodeFormat := "decoding hex source tx hash %s to bytes: %w"
  relayFormat := "getting recv tx bytes from relay service for batch of %d transfers: %w"
  clientFormat := "getting client for transfer destination chain %s: %w"
  deliverFormat := "signing and submitting recv tx bytes for batch of %d transfers: %w"
  deliverArgs n := [.num n]
  updateFormat :=
    "updating transfer from source chain %s packet sequence %d and source client %s with recv hash %s: %w"
  updateArgs := updateTxArgs
  execFormat := "updating batch transfers recv txs: %w"

/-- The transfer with a delivered ack or timeout tx; only the row gets the
relayer address. -/
def IBCV2Transfer.deliveredTx (t : IBCV2Transfer) (k : TxKind) (tx : BridgeTx) : IBCV2Transfer :=
  t.setTx k { t.tx k with hash := some tx.hash, time := some tx.timestamp }

def batchAckPacket (key : PipelineKey) (shouldRelaySuccessAcks shouldRelayErrorAcks : Bool) :
    BatchPacket where
  kind := .ack
  state := .deliverAckPacket
  shouldProcess t := .ret <|
    if t.writeAckTxHash.isNone then false
    else match t.writeAckStatus with
      | none => false
      | some s =>
        if (isErrorAck s && !shouldRelayErrorAcks) ||
          (isSuccessAck s && !shouldRelaySuccessAcks) then false
        else !t.has .ack && !t.has .timeout
  txHash t := match t.writeAckTxHash with
    | none => .error (newErr "trying to deliver ack packet, no write ack tx hash found")
    | some hash => .ok hash
  txSetKey _ hash := hash
  request txIDs sequences :=
    { srcChain := key.destinationChainID
      dstChain := key.sourceChainID
      sourceTxIds := txIDs
      dstClientId := key.sourceClientID
      srcClientId := key.destinationClientID
      dstPacketSequences := sequences }
  chainID := key.sourceChainID
  record tx t := t.deliveredTx .ack tx
  decodeFormat := "decoding hex write ack tx hash %s to bytes: %w"
  relayFormat := "getting ack tx bytes from relay service for batch of %d transfers: %w"
  clientFormat := "getting client for transfer source chain %s: %w"
  deliverFormat := "signing and submitting ack tx bytes for batch of %d transfers: %w"
  deliverArgs n := [.num n]
  updateFormat :=
    "updating transfer from source chain %s packet sequence %d and source client %s with ack hash %s: %w"
  updateArgs := updateTxArgs
  execFormat := "updating batch transfers ack txs: %w"

/-- The set of txs gets the source chain in the place of the source tx. -/
def batchTimeoutPacket (key : PipelineKey) : BatchPacket where
  kind := .timeout
  state := .deliverTimeoutPacket
  shouldProcess t := (t.isTimedOut .deliverTimeoutPacket).bind fun timedOut =>
    .ret (timedOut && !t.has .recv && !t.has .ack && !t.has .timeout)
  txHash t := .ok t.sourceTxHash
  txSetKey t _ := t.sourceChainID
  request txIDs sequences :=
    { srcChain := key.destinationChainID
      dstChain := key.sourceChainID
      timeoutTxIds := txIDs
      srcClientId := key.destinationClientID
      dstClientId := key.sourceClientID
      dstPacketSequences := sequences }
  chainID := key.sourceChainID
  record tx t := t.deliveredTx .timeout tx
  decodeFormat := "decoding hex source tx hash %s to bytes: %w"
  relayFormat := "getting timeout tx bytes from ibcv2 relayer for batch of %d transfers: %w"
  clientFormat := "getting client for transfer source chain %s: %w"
  deliverFormat := "submitting batch timeout tx: %w"
  deliverArgs _ := []
  updateFormat := "updating transfer timeout tx with timeout tx %s: %w"
  updateArgs _ tx := [.str tx.hash, .time tx.timestamp, .str tx.relayerAddress]
  execFormat := "updating batch transfers timeout txs: %w"

end PlatformRelayer

import Mathlib.Algebra.Group.Nat.Defs
import PlatformRelayer.Ibcv2.BatchProcessors
import PlatformRelayer.Shared.Times

/-!
# The packets of a tx

How the bridge clients read the packets that a tx sent: from the `send_packet`
events of a Cosmos tx, whose attributes are text, or from the `SendPacket` logs
of an EVM receipt. `SendPacketsFromTx` asks the node for these and for the time
of the block; what it does with the answers is here.
-/

namespace PlatformRelayer

structure PacketInfo where
  sequence : UInt64 := 0
  sourceClient : String := ""
  destinationClient : String := ""
  timeoutTimestamp : GoTime := .zero
  timestamp : GoTime := .zero
deriving DecidableEq, Repr

/-! ## Tx hashes -/

/-- The bytes of a string. -/
def bytesOf (s : String) : List UInt8 := s.toList.flatMap String.utf8EncodeChar

/-- `hex.DecodeString`. -/
def hexDecodeString (s : String) : Except Err (List UInt8) := decodeBytes (bytesOf s)

/-- What `hex.DecodeString` returns with or without an error: the bytes before
the first pair that is not of hex digits. -/
def decodedBytes : List UInt8 → List UInt8
  | a :: b :: rest => match fromHexChar a, fromHexChar b with
    | some x, some y => (x <<< 4 ||| y) :: decodedBytes rest
    | _, _ => []
  | _ => []

/-- `common.FromHex`, where an error of the decoding is dropped. -/
def fromHex (s : String) : List UInt8 :=
  let digits := match bytesOf s with
    | 0x30 :: 0x78 :: rest => rest
    | 0x30 :: 0x58 :: rest => rest
    | bytes => bytes
  decodedBytes (if digits.length % 2 = 1 then 0x30 :: digits else digits)

/-- `common.BytesToHash`: 32 bytes, cut or filled up from the left. -/
def bytesToHash (b : List UInt8) : List UInt8 :=
  let b := b.drop (b.length - 32)
  List.replicate (32 - b.length) 0 ++ b

/-- `common.HexToHash`. -/
def hexToHash (s : String) : List UInt8 := bytesToHash (fromHex s)

/-! ## Cosmos -/

/-- The value of a text of digits. -/
def parseDigits (digits : List Char) : Option Nat :=
  if !digits.isEmpty && digits.all Char.isDigit then some (Nat.ofDigitChars 10 digits 0) else none

/-- `strconv.Atoi`: digits with an optional sign, for a number that is an
`int64`. -/
def atoi (s : String) : Option Int64 :=
  match s.toList with
  | '-' :: digits => (parseDigits digits).bind fun n => if n ≤ 2 ^ 63 then some (.ofInt (-n))
    else none
  | '+' :: digits => (parseDigits digits).bind fun n => if n < 2 ^ 63 then some (.ofInt n) else none
  | digits => (parseDigits digits).bind fun n => if n < 2 ^ 63 then some (.ofInt n) else none

structure AbciEvent where
  type : String
  attributes : List (String × String)
deriving DecidableEq, Repr

def attributeKeyPacketSourceClient : String := "packet_source_client"
def attributeKeyPacketDestClient : String := "packet_dest_client"
def attributeKeyPacketSequence : String := "packet_sequence"
def attributeKeyPacketTimeoutTimestamp : String := "packet_timeout_timestamp"
def eventTypeSendPacket : String := "send_packet"

namespace CosmosBridgeClient

variable (loc : Zone)

/-- A pass of the loop over the attributes of an event. -/
def readAttribute (packet : PacketInfo) (attr : String × String) : Except Err PacketInfo :=
  if attr.1 = attributeKeyPacketSequence then
    match atoi attr.2 with
    | none => .error (newErr "converting packet sequence %s to int" [.str attr.2])
    | some sequence => .ok { packet with sequence := sequence.toUInt64 }
  else if attr.1 = attributeKeyPacketSourceClient then .ok { packet with sourceClient := attr.2 }
  else if attr.1 = attributeKeyPacketDestClient then .ok { packet with destinationClient := attr.2 }
  else if attr.1 = attributeKeyPacketTimeoutTimestamp then
    match atoi attr.2 with
    | none => .error (newErr "converting attribute timeout ts %s to int" [.str attr.2])
    | some unixts => .ok { packet with timeoutTimestamp := timeUnix loc unixts }
  else .ok packet

/-- The packet of a `send_packet` event. -/
def readPacket (attributes : List (String × String)) : Except Err PacketInfo :=
  attributes.foldlM (readAttribute loc) {}

/-- The loop over the events. A packet of an earlier protocol version has no
clients and is left out. -/
def readPackets : List AbciEvent → Except Err (List PacketInfo)
  | [] => .ok []
  | event :: events =>
    if event.type ≠ eventTypeSendPacket then readPackets events
    else match readPacket loc event.attributes with
      | .error err => .error err
      | .ok packet =>
        if packet.sourceClient = "" || packet.destinationClient = "" then readPackets events
        else (readPackets events).map (packet :: ·)

end CosmosBridgeClient

/-! ## EVM -/

structure EvmLog where
  address : List UInt8
  topics : List (List UInt8)
  data : List UInt8
deriving DecidableEq, Repr

/-- The packet of a `SendPacket` event. -/
structure SendPacket where
  sequence : UInt64
  sourceClient : String
  destClient : String
  timeoutTimestamp : UInt64
deriving DecidableEq, Repr

/-- The bindings of the ICS26 router contract: the id of its `SendPacket` event,
and how a log is parsed as one. -/
structure Ics26Router where
  sendPacketID : List UInt8
  parseSendPacket : EvmLog → Except Err SendPacket

namespace EVMBridgeClient

variable (loc : Zone) (router : Ics26Router) (chainID txHash : String)

def readPacket (p : SendPacket) : PacketInfo where
  sequence := p.sequence
  sourceClient := p.sourceClient
  destinationClient := p.destClient
  timeoutTimestamp := timeUnix loc p.timeoutTimestamp.toInt64

/-- The loop over the logs, of which one can be nil. -/
def readPackets : List (Option EvmLog) → Except Err (List PacketInfo)
  | [] => .ok []
  | none :: logs => readPackets logs
  | some log :: logs =>
    if log.topics.head? ≠ some router.sendPacketID then readPackets logs
    else match router.parseSendPacket log with
      | .error err => .error (errorf "parsing send packet event from tx %s logs on chain %s: %w"
          [.str txHash, .str chainID] err)
      | .ok sendPacket => (readPackets logs).map (readPacket loc sendPacket :: ·)

end EVMBridgeClient

/-! ## The time of a tx -/

/-- The `Timestamp` that `FindRecvTx`, `FindAckTx` and `FindTimeoutTx` return: the
time in the header of the tx's block, as the node sent it. -/
def CosmosBridgeClient.findTxTimestamp (header : GoTime) : GoTime := header

/-- The same on EVM, where a header has the seconds since the epoch. -/
def EVMBridgeClient.findTxTimestamp (loc : Zone) (header : UInt64) : GoTime :=
  timeUnix loc header.toInt64

/-- The `Timestamp` that `DeliverTx` of either client returns. -/
def deliverTxTimestamp (loc : Zone) (now : Time) : GoTime := (timeNow loc now).utc

end PlatformRelayer

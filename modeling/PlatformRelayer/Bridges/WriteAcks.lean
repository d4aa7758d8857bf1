import PlatformRelayer.Bridges.Nodes

/-!
# The status of a write ack

`PacketWriteAckStatus` of both bridge clients: it fetches a tx and looks in its
events for the write ack of a packet. The EVM client parses each
`WriteAcknowledgement` log and then compares the packet; the Cosmos client
compares the attributes of each `write_acknowledgement` event and parses the
one that it has found. The cache in front of the node is left out.
-/

namespace PlatformRelayer

open Prog Db

/-- `ErrorAcknowledgement`: the SHA-256 digest of `UNIVERSAL_ERROR_ACKNOWLEDGEMENT`. -/
def errorAcknowledgement : List UInt8 :=
  [0x47, 0x74, 0xd4, 0xa5, 0x75, 0x99, 0x3f, 0x96, 0x3b, 0x1c, 0x06, 0x57, 0x37, 0x36, 0x61, 0x7a,
   0x45, 0x7a, 0xbe, 0xf8, 0x58, 0x91, 0x78, 0xdb, 0x8d, 0x10, 0xc9, 0x4b, 0x4a, 0xb5, 0x11, 0xab]

/-- How both clients end: an error is a single app acknowledgement, the
universal one. -/
def appAckStatus (acks : List (List UInt8)) : Ibcv2WriteAckStatus :=
  if acks.length = 1 then
    if acks.head? = some errorAcknowledgement then .error else .success
  else .success

/-- A status and an error, as Go returns them. -/
abbrev AckResult := Ibcv2WriteAckStatus × Option Err

def notFoundForPacket : AckResult := (.unknown, some Sentinel.errWriteAckNotFoundForPacket.err)

/-- The packet that is asked for. -/
structure PacketID where
  sequence : UInt64
  sourceClientID : String
  destClientID : String
deriving DecidableEq, Repr

/-! ## EVM -/

/-- A parsed `WriteAcknowledgement` event, as far as it is read. -/
structure WriteAcknowledgement where
  packet : PacketID
  acknowledgements : List (List UInt8)
deriving DecidableEq, Repr

/-- The bindings of the router contract for the event: its id, and how a log is
parsed as one, with the text of the error if it is none. -/
structure WriteAckBinding where
  writeAcknowledgementID : List UInt8
  parseWriteAcknowledgement : EvmLog → Except String WriteAcknowledgement

namespace EVMBridgeClient

/-- The loop over the logs. The log in the text of the error is left out. -/
def readWriteAck (router : WriteAckBinding) (packet : PacketID) : List (Option EvmLog) → AckResult
  | [] => notFoundForPacket
  | none :: logs => readWriteAck router packet logs
  | some log :: logs =>
    if log.topics.head? ≠ some router.writeAcknowledgementID then readWriteAck router packet logs
    else match router.parseWriteAcknowledgement log with
      | .error err =>
      (.unknown, some (errorf "parsing write packet event from log %v: %w" [] (newErr err)))
      | .ok writeAck =>
        if writeAck.packet.sequence = packet.sequence ∧
        writeAck.packet.sourceClientID = packet.sourceClientID ∧
            writeAck.packet.destClientID = packet.destClientID then
            (appAckStatus writeAck.acknowledgements, none)
        else readWriteAck router packet logs

def packetWriteAckStatus (router : WriteAckBinding) (hash : String)
    (packet : PacketID) : Bridge AckResult :=
  (query (.transactionReceipt (hexToHash hash))).bind fun
  | .error err =>
    if err.contains "not found" then .ret (.unknown, some Sentinel.errTxNotFound.err)
    else .ret (.unknown, some (errorf "getting transaction receipt: %w" [] err))
  | .ok receipt => .ret (readWriteAck router packet receipt.logs)

end EVMBridgeClient

/-! ## Cosmos -/

def eventTypeWriteAck : String := "write_acknowledgement"
def attributeKeyEncodedAck : String := "encoded_acknowledgement_hex"

/-- `strconv.Itoa`. -/
def itoa (n : Int64) : String := toString n.toInt

namespace CosmosBridgeClient

/-- Which attributes of the packet an event was seen to have. -/
structure Matches where
  sequence : Bool := false
  sourceClient : Bool := false
  destClient : Bool := false
deriving DecidableEq, Repr

/-- A pass of the loop over the attributes. -/
def matchAttribute (packet : PacketID) (m : Matches) (attr : String × String) : Matches :=
  if attr.1 = attributeKeyPacketSequence then
    if attr.2 = itoa packet.sequence.toInt64 then { m with sequence := true } else m
  else if attr.1 = attributeKeyPacketSourceClient then
    if attr.2 = packet.sourceClientID then { m with sourceClient := true } else m
  else if attr.1 = attributeKeyPacketDestClient then
    if attr.2 = packet.destClientID then { m with destClient := true } else m
  else m

/-- The acknowledgement of an event; `unmarshal` is `proto.Unmarshal`, of which
the app acknowledgements are read. -/
def parseWriteAckStatusForPacket (unmarshal : List UInt8 → Except String (List (List UInt8))) :
    List (String × String) → AckResult
  | [] => (.unknown, none)
  | attr :: attributes =>
    if attr.1 ≠ attributeKeyEncodedAck then parseWriteAckStatusForPacket unmarshal attributes
    else match hexDecodeString attr.2 with
      | .error err => (.unknown, some (errorf₂ "%w:%w" Sentinel.errWriteAckDecoding.err err))
      | .ok protoAckBytes => match unmarshal protoAckBytes with
        | .error err =>
        (.unknown, some (errorf₂ "%w:%w" Sentinel.errWriteAckDecoding.err (newErr err)))
        | .ok acks => (appAckStatus acks, none)

/-- The loop over the events. -/
def readWriteAck (unmarshal : List UInt8 → Except String (List (List UInt8))) (packet : PacketID) :
    List AbciEvent → AckResult
  | [] => notFoundForPacket
  | event :: events =>
    if event.type ≠ eventTypeWriteAck then readWriteAck unmarshal packet events
    else
      let m := event.attributes.foldl (matchAttribute packet) {}
      if m.sequence && m.sourceClient && m.destClient then
        parseWriteAckStatusForPacket unmarshal event.attributes
      else readWriteAck unmarshal packet events

def packetWriteAckStatus (unmarshal : List UInt8 → Except String (List (List UInt8)))
    (hash : String) (packet : PacketID) : Bridge AckResult :=
  match hexDecodeString hash with
  | .error err =>
    .ret (.unknown, some (errorf "hex decoding tx hash string %s: %w" [.str hash] err))
  | .ok hashBytes => (query (.tx hashBytes)).bind fun
    | .error err =>
      if err.contains "not found" then .ret (.unknown, some Sentinel.errTxNotFound.err)
      else .ret (.unknown, some (errorf "getting tx %s's result: %w" [.str hash] err))
    | .ok txResult => .ret (readWriteAck unmarshal packet txResult.events)

end CosmosBridgeClient

end PlatformRelayer

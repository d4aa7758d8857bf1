import Mathlib.Logic.Basic

/-!
# The rows of `ibcv2_transfers`

The columns the relayer reads or writes, with their SQL types: a nullable
column is an `Option`, an SQL enum an inductive type, `int` is `Int32`. The
hash, time, relayer address and gas cost columns come three times, for the
recv, the ack and the timeout tx of a packet (`TxKind`); they are a `TxRecord`
each, so that a statement on one of the three is one definition.
-/

namespace PlatformRelayer

/-- An instant, in nanoseconds since the Unix epoch. -/
abbrev Time := Int

/-- The zero `time.Time`: January 1 of year 1. -/
def Time.zero : Time := -62135596800000000000

/-- A length of time, in nanoseconds. -/
abbrev Duration := Int

def minute : Duration := 60000000000

/-- The tx that receives a packet on the destination chain, the one that
acknowledges it on the source chain, or the one that times it out there. -/
inductive TxKind where
  | recv
  | ack
  | timeout
deriving DecidableEq, Repr

/-- What is known of one of a packet's txs. -/
structure TxRecord (α : Type) where
  hash : Option String := none
  time : Option Time := none
  relayerAddress : Option String := none
  gasCostUSD : Option α := none
deriving DecidableEq, Repr

namespace Db

inductive Ibcv2RelayStatus where
  | pending
  | checkRecvPacketDelivery
  | getRecvPacket
  | deliverRecvPacket
  | waitForWriteAck
  | checkAckPacketDelivery
  | getAckPacket
  | deliverAckPacket
  | checkTimeoutPacketDelivery
  | getTimeoutPacket
  | deliverTimeoutPacket
  | completeWithAck
  | completeWithTimeout
  | failed
  | awaitingSendFinality
  | awaitingWriteAckFinality
  | completeWithWriteAckSuccess
  | awaitingTimeoutFinality
  | completeWithWriteAckError
  | calculatingRecvTxGasCost
  | calculatingAckTxGasCost
  | calculatingTimeoutTxGasCost
deriving DecidableEq, Repr

/-- The statuses `GetUnfinishedIBCV2Transfers` leaves out: `FAILED` and the
four `COMPLETE` ones. -/
def Ibcv2RelayStatus.isFinished : Ibcv2RelayStatus → Bool
  | .completeWithAck | .completeWithTimeout | .failed
  | .completeWithWriteAckSuccess | .completeWithWriteAckError => true
  | _ => false

/-- The four `COMPLETE` statuses. -/
def Ibcv2RelayStatus.isComplete (s : Ibcv2RelayStatus) : Bool := s.isFinished && s != .failed

inductive Ibcv2WriteAckStatus where
  | success
  | error
  | unknown
deriving DecidableEq, Repr

/-- A `pgtype.Numeric`: `int · 10 ^ exp`. -/
structure Numeric where
  int : Int
  exp : Int
deriving DecidableEq, Repr

/-- The columns of the unique index `index_ibcv2_transfer_packet`. -/
structure TransferKey where
  sourceChainID : String
  packetSourceClientID : String
  packetSequenceNumber : Int32
deriving DecidableEq, Repr

/-- A row of `ibcv2_transfers`. -/
structure Ibcv2Transfer where
  status : Ibcv2RelayStatus
  sourceChainID : String
  destinationChainID : String
  sourceTxHash : String
  sourceTxTime : Option Time
  packetSequenceNumber : Int32
  packetSourceClientID : String
  packetDestinationClientID : String
  packetTimeoutTimestamp : Option Time
  recvTx : TxRecord Numeric := {}
  writeAckTxHash : Option String := none
  writeAckTxTime : Option Time := none
  writeAckStatus : Option Ibcv2WriteAckStatus := none
  ackTx : TxRecord Numeric := {}
  timeoutTx : TxRecord Numeric := {}
  sourceTxFinalizedTime : Option Time := none
  writeAckTxFinalizedTime : Option Time := none
deriving DecidableEq, Repr

namespace Ibcv2Transfer

def key (r : Ibcv2Transfer) : TransferKey :=
  ⟨r.sourceChainID, r.packetSourceClientID, r.packetSequenceNumber⟩

/-- The columns of one of the packet's txs. -/
def tx (r : Ibcv2Transfer) : TxKind → TxRecord Numeric
  | .recv => r.recvTx
  | .ack => r.ackTx
  | .timeout => r.timeoutTx

/-- The row with the columns of one of its txs replaced. -/
def setTx (r : Ibcv2Transfer) (k : TxKind) (x : TxRecord Numeric) : Ibcv2Transfer :=
  match k with
  | .recv => { r with recvTx := x }
  | .ack => { r with ackTx := x }
  | .timeout => { r with timeoutTx := x }

@[simp] theorem key_setTx (r : Ibcv2Transfer) (k : TxKind) (x : TxRecord Numeric) :
    (r.setTx k x).key = r.key := by cases k <;> rfl

@[simp] theorem status_setTx (r : Ibcv2Transfer) (k : TxKind) (x : TxRecord Numeric) :
    (r.setTx k x).status = r.status := by cases k <;> rfl

@[simp] theorem writeAckTxHash_setTx (r : Ibcv2Transfer) (k : TxKind) (x : TxRecord Numeric) :
    (r.setTx k x).writeAckTxHash = r.writeAckTxHash := by cases k <;> rfl

@[simp] theorem writeAckStatus_setTx (r : Ibcv2Transfer) (k : TxKind) (x : TxRecord Numeric) :
    (r.setTx k x).writeAckStatus = r.writeAckStatus := by cases k <;> rfl

theorem tx_setTx (r : Ibcv2Transfer) (k j : TxKind) (x : TxRecord Numeric) :
    (r.setTx k x).tx j = if j = k then x else r.tx j := by cases k <;> cases j <;> rfl

end Ibcv2Transfer

end Db

end PlatformRelayer

import PlatformRelayer.Ibcv2.Errors

/-!
# `IBCV2Transfer`

The copy of a row that goes through a pipeline. `newIBCV2Transfer` makes it
from the row, with the sequence number read as a `uint32` and the times that
are null read as the zero time. A pointer field is an `Option`; the getters of
the source are the fields themselves.
-/

namespace PlatformRelayer

open Db (Ibcv2RelayStatus Ibcv2WriteAckStatus)

structure IBCV2Transfer where
  state : Ibcv2RelayStatus
  sourceChainID : String
  destinationChainID : String
  sourceTxHash : String
  sourceTxTime : Time
  sourceTxFinalizedTime : Option Time := none
  packetSequenceNumber : UInt32
  packetSourceClientID : String
  packetDestinationClientID : String
  packetTimeoutTimestamp : Time
  recvTx : TxRecord Int := {}
  writeAckTxHash : Option String := none
  writeAckTxTime : Option Time := none
  writeAckStatus : Option Ibcv2WriteAckStatus := none
  writeAckTxFinalizedTime : Option Time := none
  ackTx : TxRecord Int := {}
  timeoutTx : TxRecord Int := {}
  processingError : Option Err := none
deriving DecidableEq, Repr

/-- The columns of a tx as they are held in memory: of a gas cost, only the
integer part of its `pgtype.Numeric`. -/
def TxRecord.load (x : TxRecord Db.Numeric) : TxRecord Int where
  hash := x.hash
  time := x.time
  relayerAddress := x.relayerAddress
  gasCostUSD := x.gasCostUSD.map (·.int)

def newIBCV2Transfer (r : Db.Ibcv2Transfer) : IBCV2Transfer where
  state := r.status
  sourceChainID := r.sourceChainID
  destinationChainID := r.destinationChainID
  sourceTxHash := r.sourceTxHash
  sourceTxTime := r.sourceTxTime.getD Time.zero
  sourceTxFinalizedTime := r.sourceTxFinalizedTime
  packetSequenceNumber := r.packetSequenceNumber.toUInt32
  packetSourceClientID := r.packetSourceClientID
  packetDestinationClientID := r.packetDestinationClientID
  packetTimeoutTimestamp := r.packetTimeoutTimestamp.getD Time.zero
  recvTx := r.recvTx.load
  writeAckTxHash := r.writeAckTxHash
  writeAckTxTime := r.writeAckTxTime
  writeAckStatus := r.writeAckStatus
  writeAckTxFinalizedTime := r.writeAckTxFinalizedTime
  ackTx := r.ackTx.load
  timeoutTx := r.timeoutTx.load

/-- An ack that says the packet failed, or one that could not be decoded. -/
def isErrorAck (s : Ibcv2WriteAckStatus) : Bool := s = .error || s = .unknown

def isSuccessAck (s : Ibcv2WriteAckStatus) : Bool := s = .success

namespace IBCV2Transfer

/-- The key the transfer's statements name its row by. -/
def key (t : IBCV2Transfer) : Db.TransferKey :=
  ⟨t.sourceChainID, t.packetSourceClientID, t.packetSequenceNumber.toInt32⟩

def tx (t : IBCV2Transfer) : TxKind → TxRecord Int
  | .recv => t.recvTx
  | .ack => t.ackTx
  | .timeout => t.timeoutTx

def setTx (t : IBCV2Transfer) (k : TxKind) (x : TxRecord Int) : IBCV2Transfer :=
  match k with
  | .recv => { t with recvTx := x }
  | .ack => { t with ackTx := x }
  | .timeout => { t with timeoutTx := x }

theorem tx_setTx (t : IBCV2Transfer) (k j : TxKind) (x : TxRecord Int) :
    (t.setTx k x).tx j = if j = k then x else t.tx j := by cases k <;> cases j <;> rfl

@[simp] theorem key_setTx (t : IBCV2Transfer) (k : TxKind) (x : TxRecord Int) :
    (t.setTx k x).key = t.key := by cases k <;> rfl

@[simp] theorem writeAckTxHash_setTx (t : IBCV2Transfer) (k : TxKind) (x : TxRecord Int) :
    (t.setTx k x).writeAckTxHash = t.writeAckTxHash := by cases k <;> rfl

@[simp] theorem writeAckStatus_setTx (t : IBCV2Transfer) (k : TxKind) (x : TxRecord Int) :
    (t.setTx k x).writeAckStatus = t.writeAckStatus := by cases k <;> rfl

/-- `transfer.Error() != ""`. -/
def errored (t : IBCV2Transfer) : Bool := t.processingError.isSome

/-- There is a tx of this kind. -/
def has (t : IBCV2Transfer) (k : TxKind) : Bool := (t.tx k).hash.isSome

def isComplete (t : IBCV2Transfer) (shouldRelaySuccessAcks shouldRelayErrorAcks : Bool) : Bool :=
  if t.errored then false
  else if t.has .timeout then true
  else if !t.has .recv || t.writeAckTxHash.isNone then false
  else if t.has .ack then true
  else match t.writeAckStatus with
    | none => false
    | some s =>
      if (isErrorAck s && shouldRelayErrorAcks) ||
        (isSuccessAck s && shouldRelaySuccessAcks) then false
      else true

end IBCV2Transfer

end PlatformRelayer

import PlatformRelayer.Framework.Table
import PlatformRelayer.Db.Models

/-!
# The statements on `ibcv2_transfers`

The queries of `ibcv2_transfers.sql`. Each update is a `SET` clause and the
key of its `WHERE` clause, so that what an update does to a row is one
function (`SetClause.apply`) and which row it does it to is another
(`row?_exec`). A statement that fails changes nothing, and the statements of a
transaction take effect together, when it commits (`execAll`).
-/

namespace PlatformRelayer.Db

/-- The table `ibcv2_transfers`. -/
abbrev Transfers := Table Ibcv2Transfer.key

/-- The `SET` clause of an update. -/
inductive SetClause where
  | status (status : Ibcv2RelayStatus)
  | tx (k : TxKind) (hash : Option String) (time : Option Time) (relayerAddress : Option String)
  | clearTx (k : TxKind)
  | txGasCostUSD (k : TxKind) (cost : Option Numeric)
  | writeAckTx (hash : Option String) (time : Option Time) (status : Option Ibcv2WriteAckStatus)
  | sourceTxFinalizedTime (time : Option Time)
  | writeAckTxFinalizedTime (time : Option Time)
deriving DecidableEq, Repr

/-- What the clause does to a row. It writes a time as it is, as on a server in UTC; what a
column keeps of it is said in `Query.stored`. -/
def SetClause.apply : SetClause → Ibcv2Transfer → Ibcv2Transfer
  | .status s, r => { r with status := s }
  | .tx k h t a, r => r.setTx k { r.tx k with hash := h, time := t, relayerAddress := a }
  | .clearTx k, r => r.setTx k { r.tx k with hash := none, time := none }
  | .txGasCostUSD k c, r => r.setTx k { r.tx k with gasCostUSD := c }
  | .writeAckTx h t s, r => { r with writeAckTxHash := h, writeAckTxTime := t, writeAckStatus := s }
  | .sourceTxFinalizedTime t, r => { r with sourceTxFinalizedTime := t }
  | .writeAckTxFinalizedTime t, r => { r with writeAckTxFinalizedTime := t }

@[simp] theorem SetClause.key_apply (c : SetClause)
    (r : Ibcv2Transfer) : (c.apply r).key = r.key := by
  cases c <;> simp [SetClause.apply] <;> rfl

/-- An update: its `SET` clause and the key in its `WHERE` clause. -/
structure Query where
  set : SetClause
  key : TransferKey
deriving DecidableEq, Repr

def updateTransferState (status : Ibcv2RelayStatus) (key : TransferKey) : Query :=
  ⟨.status status, key⟩

/-- `UpdateTransferRecvTx`, `UpdateTransferAckTx` or `UpdateTransferTimeoutTx`. -/
def updateTransferTx (k : TxKind) (hash : Option String) (time : Option Time)
    (relayerAddress : Option String) (key : TransferKey) : Query :=
  ⟨.tx k hash time relayerAddress, key⟩

def updateTransferRecvTx := updateTransferTx .recv
def updateTransferAckTx := updateTransferTx .ack
def updateTransferTimeoutTx := updateTransferTx .timeout

/-- `ClearRecvTx`, `ClearAckTx` or `ClearTimeoutTx`: the relayer address and
the gas cost stay. -/
def clearTx (k : TxKind) (key : TransferKey) : Query := ⟨.clearTx k, key⟩

def clearRecvTx := clearTx .recv
def clearAckTx := clearTx .ack
def clearTimeoutTx := clearTx .timeout

/-- `UpdateTransferRecvTxGasCostUSD`, or the same of the ack or timeout tx. -/
def updateTransferTxGasCostUSD (k : TxKind) (cost : Option Numeric) (key : TransferKey) : Query :=
  ⟨.txGasCostUSD k cost, key⟩

def updateTransferWriteAckTx (hash : Option String) (time : Option Time)
    (status : Option Ibcv2WriteAckStatus) (key : TransferKey) : Query :=
  ⟨.writeAckTx hash time status, key⟩

def updateTransferSourceTxFinalizedTime (time : Option Time) (key : TransferKey) : Query :=
  ⟨.sourceTxFinalizedTime time, key⟩

def updateTransferWriteAckTxFinalizedTime (time : Option Time) (key : TransferKey) : Query :=
  ⟨.writeAckTxFinalizedTime time, key⟩

def Query.exec (q : Query) (db : Transfers) : Transfers :=
  db.update q.key q.set.apply q.set.key_apply

/-- The statements of a transaction, in order. -/
def execAll (qs : List Query) (db : Transfers) : Transfers := qs.foldl (fun db q => q.exec db) db

theorem row?_exec (q : Query) (db : Transfers) (k : TransferKey) :
    (q.exec db).row? k = if k = q.key then (db.row? k).map q.set.apply else db.row? k :=
  Table.row?_update ..

/-- `GetUnfinishedIBCV2Transfers`. -/
def getUnfinishedIBCV2Transfers (db : Transfers) : List Ibcv2Transfer :=
  db.rows.filter fun r => !r.status.isFinished

structure InsertIBCV2TransferParams where
  sourceChainID : String
  destinationChainID : String
  sourceTxHash : String
  sourceTxTime : Time
  packetSequenceNumber : Int32
  packetSourceClientID : String
  packetDestinationClientID : String
  packetTimeoutTimestamp : Time

/-- The row `InsertIBCV2Transfer` adds: `PENDING`, with every other column
null. -/
def insertedRow (p : InsertIBCV2TransferParams) : Ibcv2Transfer where
  status := .pending
  sourceChainID := p.sourceChainID
  destinationChainID := p.destinationChainID
  sourceTxHash := p.sourceTxHash
  sourceTxTime := some p.sourceTxTime
  packetSequenceNumber := p.packetSequenceNumber
  packetSourceClientID := p.packetSourceClientID
  packetDestinationClientID := p.packetDestinationClientID
  packetTimeoutTimestamp := some p.packetTimeoutTimestamp

end PlatformRelayer.Db

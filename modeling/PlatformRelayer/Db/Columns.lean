import PlatformRelayer.Db.Queries
import PlatformRelayer.Shared.Times

/-!
# Statements as the columns keep them

`SetClause.apply` writes a time as it is. What a column has of it is what
`GoTime.column` says, which depends on the location the time was made in. So a
statement is carried out as another one, that has the time the column will have
(`Query.stored`). Everything else in it stays.
-/

namespace PlatformRelayer.Db

/-- The columns for a time that an update can write. -/
inductive TimeColumn where
  | tx (k : TxKind)
  | writeAckTx
  | sourceTxFinalized
  | writeAckTxFinalized
deriving DecidableEq, Repr

def Ibcv2Transfer.timeIn (r : Ibcv2Transfer) : TimeColumn → Option Time
  | .tx k => (r.tx k).time
  | .writeAckTx => r.writeAckTxTime
  | .sourceTxFinalized => r.sourceTxFinalizedTime
  | .writeAckTxFinalized => r.writeAckTxFinalizedTime

namespace SetClause

/-- What the clause sets a column for a time to, if it does. -/
def sets : SetClause → TimeColumn → Option (Option Time)
  | .tx k _ time _, .tx j => if j = k then some time else none
  | .clearTx k, .tx j => if j = k then some none else none
  | .writeAckTx _ time _, .writeAckTx => some time
  | .sourceTxFinalizedTime time, .sourceTxFinalized => some time
  | .writeAckTxFinalizedTime time, .writeAckTxFinalized => some time
  | _, _ => none

/-- The clause with another time. -/
def mapTime (f : Time → Time) : SetClause → SetClause
  | .tx k hash time relayerAddress => .tx k hash (time.map f) relayerAddress
  | .writeAckTx hash time ack => .writeAckTx hash (time.map f) ack
  | .sourceTxFinalizedTime time => .sourceTxFinalizedTime (time.map f)
  | .writeAckTxFinalizedTime time => .writeAckTxFinalizedTime (time.map f)
  | set => set

theorem timeIn_apply (set : SetClause) (r : Ibcv2Transfer) (col : TimeColumn) :
    (set.apply r).timeIn col = (set.sets col).getD (r.timeIn col) := by
  cases set with
  | tx k =>
    cases col with
    | tx j => cases k <;> cases j <;> rfl
    | _ => cases k <;> rfl
  | clearTx k =>
    cases col with
    | tx j => cases k <;> cases j <;> rfl
    | _ => cases k <;> rfl
  | txGasCostUSD k =>
    cases col with
    | tx j => cases k <;> cases j <;> rfl
    | _ => cases k <;> rfl
  | _ => cases col <;> rfl

theorem sets_mapTime (f : Time → Time) (set : SetClause) (col : TimeColumn) :
    (set.mapTime f).sets col = (set.sets col).map (Option.map f) := by
  cases set with
  | tx k =>
    cases col with
    | tx j => cases k <;> cases j <;> rfl
    | _ => rfl
  | clearTx k =>
    cases col with
    | tx j => cases k <;> cases j <;> rfl
    | _ => rfl
  | _ => cases col <;> rfl

end SetClause

/-- The statement that a statement is carried out as, where `offset` is the offset
from UTC of the location its time was made in. -/
def Query.stored (offset : Query → Duration) (q : Query) : Query :=
  ⟨q.set.mapTime fun time => (GoTime.mk time (offset q)).column, q.key⟩

end PlatformRelayer.Db

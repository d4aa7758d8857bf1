import PlatformRelayer.Framework.Prog
import PlatformRelayer.Db.Queries
import PlatformRelayer.Ibcv2.Transfer
import PlatformRelayer.Shared.Config

/-!
# What the pipeline asks of the rest of the world

Everything a processor cannot compute itself is a `Call`: the clock, the
bridge clients, the relay service, the price client, the database and the
metrics. The parties behind the calls are not part of this repository, so an
answer can be anything of the call's type (`Call.Ans`), an error included.

`effect` is what an answered call does to the table and `effectOn` what it
does to one row of it; `row?_effect` relates the two. `world` is the semantics
of the calls on the whole table and `focus` the same from where one row is
seen, each with the history of the answers.
-/

namespace PlatformRelayer

open Db (Ibcv2RelayStatus Ibcv2WriteAckStatus Query Transfers)

inductive RelayType where
  | ibcv2SendToRecv
  | ibcv2SendToTimeout
  | ibcv2RecvToAck
deriving DecidableEq, Repr

structure BridgeTx where
  hash : String
  timestamp : Time
  relayerAddress : String
deriving DecidableEq, Repr

structure RelayByTxRequest where
  srcChain : String
  dstChain : String
  sourceTxIds : List (List UInt8) := []
  timeoutTxIds : List (List UInt8) := []
  srcClientId : String
  dstClientId : String
  srcPacketSequences : List UInt64 := []
  dstPacketSequences : List UInt64 := []
deriving DecidableEq, Repr

/-- The packet sequences of a request. A request fills one of its two lists. -/
def RelayByTxRequest.packetSequences (q : RelayByTxRequest) : List UInt64 :=
  q.srcPacketSequences ++ q.dstPacketSequences

structure RelayByTxResponse where
  tx : List UInt8
  address : String
deriving DecidableEq, Repr

/-- Why the clock is read: to see whether a transfer is timed out, by the
processor with this state, or to date a finality. -/
inductive ClockReader where
  | isTimedOut (state : Ibcv2RelayStatus) (key : Db.TransferKey)
  | finalizedTime
deriving DecidableEq, Repr

/-- What a delivered tx is for: the request its bytes were made from, and the
batch of transfers handed to the processor, as they are at the delivery. -/
structure Submission where
  kind : TxKind
  request : RelayByTxRequest
  transfers : List IBCV2Transfer
deriving DecidableEq, Repr

structure PipelineKey where
  sourceChainID : String
  sourceClientID : String
  destinationChainID : String
  destinationClientID : String
deriving DecidableEq, Repr

def newPipelineKey (t : IBCV2Transfer) : PipelineKey :=
  ⟨t.sourceChainID, t.packetSourceClientID, t.destinationChainID, t.packetDestinationClientID⟩

/-- The transfers that are collected into one batch with `t`, before it and
after it: others of its pipeline. -/
def Companions (t : IBCV2Transfer) : Type :=
  { b : List IBCV2Transfer × List IBCV2Transfer //
    (∀ c ∈ b.1 ++ b.2, newPipelineKey c = newPipelineKey t) ∧
      ((b.1 ++ t :: b.2).map (·.key)).Nodup }

/-- A call. A method of a bridge client names the chain of the client. The
reader of the clock and the `Submission` of a delivery are not sent; they say
what the call is for. -/
inductive Call where
  | now (reader : ClockReader)
  | getClient (chainID : String)
  | chainType (chainID : String)
  | waitForChain (chainID : String)
  | isPacketReceived (chainID clientID : String) (sequence : UInt64)
  | isPacketCommitted (chainID clientID : String) (sequence : UInt64)
  | findRecvTx (chainID sourceClientID destClientID : String) (sequence : UInt64)
    (timeoutTimestamp : Time)
  | findAckTx (chainID sourceClientID destClientID : String) (sequence : UInt64)
  | findTimeoutTx (chainID sourceClientID destClientID : String) (sequence : UInt64)
  | deliverTx (chainID : String) (tx : List UInt8) (address : String) (submission : Submission)
  | packetWriteAckStatus (chainID hash : String) (sequence : UInt64)
    (sourceClientID destClientID : String)
  | shouldRetryTx (chainID hash : String) (expiry : Duration) (sentTs : Time)
  | isTxFinalized (chainID hash : String) (offset : Option UInt64)
  | isTimestampFinalized (chainID : String) (timestamp : Time) (offset : Option UInt64)
  | txFee (chainID hash : String)
  | relayByTx (request : RelayByTxRequest)
  | getCoinUsdValue (coingeckoID : String) (decimals : UInt8) (amount : Int)
  | exec (q : Query)
  | txBegin
  | txExec (q : Query)
  | txCommit (qs : List Query)
  | txRollback
  | addRelayCompleted (sourceChainID sourceClientID destinationChainID destinationClientID : String)
      (relayType : RelayType)
  | collect (t : IBCV2Transfer)
deriving DecidableEq

/-- What a call is answered by. -/
@[reducible] def Call.Ans : Call → Type
  | .now _ => Time
  | .getClient _ => Except Err Unit
  | .chainType _ => ChainType
  | .waitForChain _ => Except Err Unit
  | .isPacketReceived .. => Except Err Bool
  | .isPacketCommitted .. => Except Err Bool
  | .findRecvTx .. => Except Err BridgeTx
  | .findAckTx .. => Except Err BridgeTx
  | .findTimeoutTx .. => Except Err BridgeTx
  | .deliverTx .. => Except Err BridgeTx
  | .packetWriteAckStatus .. => Except Err Ibcv2WriteAckStatus
  | .shouldRetryTx .. => Except Err Bool
  | .isTxFinalized .. => Except Err Bool
  | .isTimestampFinalized .. => Except Err Bool
  | .txFee .. => Except Err Int
  | .relayByTx _ => Except Err RelayByTxResponse
  | .getCoinUsdValue .. => Except Err Db.Numeric
  | .exec _ => Except Err Unit
  | .txBegin => Except Err Unit
  | .txExec _ => Except Err Unit
  | .txCommit _ => Except Err Unit
  | .txRollback => Except Err Unit
  | .addRelayCompleted .. => Unit
  | .collect t => Companions t

/-- The submission that a call makes. -/
def Call.submission? : Call → Option Submission
  | .deliverTx _ _ _ sub => some sub
  | _ => none

/-- A program of the relayer. -/
abbrev Relay (α : Type) := Prog Call Call.Ans α

/-- The program that makes a call and returns its answer. -/
abbrev ask (c : Call) : Relay c.Ans := Prog.perform c

/-- A call that was made, with its answer. -/
structure Event where
  call : Call
  ans : call.Ans

/-! ## Effects on the database -/

/-- The statements that take effect when the call is answered without an
error: none in a transaction before its commit. -/
def Call.queries : Call → List Query
  | .exec q => [q]
  | .txCommit qs => qs
  | _ => []

/-- The statements that took effect with the answer. -/
def Call.done : (c : Call) → c.Ans → List Query
  | .exec q, .ok _ => [q]
  | .txCommit qs, .ok _ => qs
  | _, _ => []

theorem Call.done_eq (c : Call) (a : c.Ans) : c.done a = [] ∨ c.done a = c.queries := by
  cases c <;> first | exact .inl rfl | (cases a <;> first | exact .inl rfl | exact .inr rfl)

def Call.effect (c : Call) (a : c.Ans) (db : Transfers) : Transfers := Db.execAll (c.done a) db

/-- What a statement does to the row with the key `K`. -/
def Db.Query.on (K : Db.TransferKey) (r : Db.Ibcv2Transfer) (q : Query) : Db.Ibcv2Transfer :=
  if q.key = K then q.set.apply r else r

def Call.effectOn (K : Db.TransferKey) (c : Call) (a : c.Ans)
    (r : Db.Ibcv2Transfer) : Db.Ibcv2Transfer :=
  (c.done a).foldl (Db.Query.on K) r

/-- A call without a statement, or one whose statements took no effect. -/
theorem Call.effectOn_idle {K : Db.TransferKey} {c : Call} {a : c.Ans} (h : c.done a = [])
    (r : Db.Ibcv2Transfer) : c.effectOn K a r = r := by
  rw [Call.effectOn, h]
  rfl

/-- A statement on the row that took effect. -/
theorem Call.effectOn_exec {K : Db.TransferKey} {q : Query} (hq : q.key = K)
    (r : Db.Ibcv2Transfer) : Call.effectOn K (.exec q) (.ok ()) r = q.set.apply r := if_pos hq

theorem row?_execAll_on {K : Db.TransferKey} (qs : List Query) {db : Transfers}
    {r : Db.Ibcv2Transfer} (h : db.row? K = some r) :
    (Db.execAll qs db).row? K = some (qs.foldl (Db.Query.on K) r) := by
  induction qs generalizing db r with
  | nil => exact h
  | cons q qs ih =>
    refine ih ?_
    rw [Db.row?_exec, h, Db.Query.on]
    by_cases hq : q.key = K
    · rw [if_pos hq.symm, if_pos hq, Option.map_some]
    · rw [if_neg (Ne.symm hq), if_neg hq]

theorem row?_effect {K : Db.TransferKey} (c : Call) (a : c.Ans) {db : Transfers}
    {r : Db.Ibcv2Transfer} (h : db.row? K = some r) :
    (c.effect a db).row? K = some (c.effectOn K a r) :=
  row?_execAll_on _ h

/-! ## One row and its history -/

/-- The row of a packet, and the calls made so far with their answers, the
last one first. -/
structure Focus where
  row : Db.Ibcv2Transfer
  trace : List Event := []

/-- The calls as the row with the key `K` sees them, answered as `adm`
allows. -/
def focus (K : Db.TransferKey) (adm : (c : Call) → c.Ans → Focus → Prop) :
    Sem Call Call.Ans Focus where
  adm := adm
  next c a s := ⟨c.effectOn K a s.row, ⟨c, a⟩ :: s.trace⟩

/-- The table, and the calls made so far with their answers, the last one
first. -/
structure World where
  db : Transfers
  trace : List Event := []

/-- The calls as the whole table sees them, with any answers. -/
def world : Sem Call Call.Ans World where
  adm _ _ _ := True
  next c a w := ⟨c.effect a w.db, ⟨c, a⟩ :: w.trace⟩

/-- Every answer may come. -/
def anyAnswer (c : Call) (_ : c.Ans) (_ : Focus) : Prop := True

end PlatformRelayer

import PlatformRelayer.Framework.Prog
import PlatformRelayer.Db.Queries
import PlatformRelayer.Shared.Bridges
import PlatformRelayer.Shared.Config

/-!
# What the API asks of the rest of the world

The calls of the handlers of `RelayerApiService`: to Postgres, to the manager
of the bridge clients, and to the nodes of the chains. `api` says what is
assumed of them. A call may fail at any time. A node that answers says what is
on its chain (`Env`), and Postgres runs each statement at once, with a
`23505` error for a transfer whose key is taken; an insert of a submission
that exists does nothing and succeeds.
-/

namespace PlatformRelayer

open Db (Ibcv2Transfer InsertIBCV2TransferParams Transfers insertedRow)

/-! ## Submissions -/

/-- A row of `ibcv2_relay_submissions`. -/
structure RelaySubmission where
  sourceChainID : String
  sourceTxHash : String
deriving DecidableEq, Repr

/-- The table `ibcv2_relay_submissions`. -/
abbrev Submissions := Table (id : RelaySubmission → RelaySubmission)

/-- The tables of the API. -/
structure Store where
  submissions : Submissions
  transfers : Transfers

/-- `InsertRelaySubmission`, which does nothing if there is a conflict. -/
def Db.insertRelaySubmission (r : RelaySubmission) (db : Submissions) : Submissions :=
  if h : r ∈ db.rows.map id then db else db.insert r h

/-- `InsertIBCV2Transfer`, if its key is not taken. -/
def Db.insertIBCV2Transfer (p : InsertIBCV2TransferParams) (db : Transfers) : Transfers :=
  if h : (insertedRow p).key ∈ db.rows.map Ibcv2Transfer.key then db
    else db.insert (insertedRow p) h

/-- The rows `GetTransfersBySourceTx` selects. -/
def Db.getTransfersBySourceTx (sourceChainID sourceTxHash : String)
    (db : Transfers) : List Ibcv2Transfer :=
  db.rows.filter fun r => r.sourceChainID = sourceChainID && r.sourceTxHash = sourceTxHash

/-! ## Calls -/

/-- An error of a statement. -/
inductive DbErr where
  | pgError (code : String)
  | errNoRows
  | other
deriving DecidableEq, Repr

/-- `ErrCode_DuplicateKey`. -/
def errCodeDuplicateKey : String := "23505"

def DbErr.isDuplicateKey (e : DbErr) : Bool := e = .pgError errCodeDuplicateKey

/-- The result of a Cosmos tx. -/
structure ResultTx where
  height : Int64
  events : List AbciEvent

/-- The receipt of an EVM tx. -/
structure Receipt where
  blockNumber : Nat
  logs : List (Option EvmLog)

/-- The bridge client of a chain. -/
inductive BridgeClient where
  | cosmos
  | evm (router : Ics26Router)

/-- A call. A call to a node names its chain. -/
inductive ApiCall where
  | insertRelaySubmission (sourceChainID sourceTxHash : String)
  | getRelaySubmission (sourceChainID sourceTxHash : String)
  | insertIBCV2Transfer (p : InsertIBCV2TransferParams)
  | getTransfersBySourceTx (sourceChainID sourceTxHash : String)
  | getClient (chainID : String)
  | tx (chainID : String) (hash : List UInt8)
  | header (chainID : String) (height : Int64)
  | txSigner (chainID : String) (hash : List UInt8)
  | transactionReceipt (chainID : String) (hash : List UInt8)
  | headerByNumber (chainID : String) (number : Nat)

/-- What a call is answered by. -/
@[reducible] def ApiCall.Ans : ApiCall → Type
  | .insertRelaySubmission .. => Except DbErr Unit
  | .getRelaySubmission .. => Except DbErr RelaySubmission
  | .insertIBCV2Transfer _ => Except DbErr Unit
  | .getTransfersBySourceTx .. => Except DbErr (List Ibcv2Transfer)
  | .getClient _ => Except Err BridgeClient
  | .tx .. => Except Err ResultTx
  | .header .. => Except Err (Option GoTime)
  | .txSigner .. => Except Err String
  | .transactionReceipt .. => Except Err Receipt
  | .headerByNumber .. => Except Err UInt64

/-- A program of the API. -/
abbrev Api (α : Type) := Prog ApiCall ApiCall.Ans α

/-- The program that makes a call and returns its answer. -/
abbrev request (c : ApiCall) : Api c.Ans := Prog.perform c

/-! ## Answers -/

/-- What the clients are and what is on the chains. A tx is known by the bytes
of its hash. -/
structure Env where
  clients : String → Option BridgeClient
  txs : String → List UInt8 → Option ResultTx
  headers : String → Int64 → Option GoTime
  signers : String → List UInt8 → Option String
  receipts : String → List UInt8 → Option Receipt
  headerTimes : String → Nat → Option UInt64

/-- Which answers may come. -/
def Env.Answers (env : Env) : (c : ApiCall) → c.Ans → Store → Prop
  | .insertRelaySubmission .., .error err, _ => err.isDuplicateKey = false
  | .getRelaySubmission chainID hash, .ok r, s => r = ⟨chainID, hash⟩ ∧ r ∈ s.submissions.rows
  | .insertIBCV2Transfer p, .ok _, s => (insertedRow p).key ∉ s.transfers.rows.map Ibcv2Transfer.key
  | .insertIBCV2Transfer p, .error err, s =>
    err.isDuplicateKey = true → (insertedRow p).key ∈ s.transfers.rows.map Ibcv2Transfer.key
  | .getTransfersBySourceTx chainID hash, .ok rows, s =>
  rows.Perm (Db.getTransfersBySourceTx chainID hash s.transfers)
  | .getClient chainID, .ok client, _ => env.clients chainID = some client
  | .tx chainID hash, .ok result, _ => env.txs chainID hash = some result
  | .header chainID height, .ok time, _ => env.headers chainID height = time
  | .txSigner chainID hash, .ok signer, _ => env.signers chainID hash = some signer
  | .transactionReceipt chainID hash, .ok receipt, _ => env.receipts chainID hash = some receipt
  | .headerByNumber chainID number, .ok time, _ => env.headerTimes chainID number = some time
  | _, _, _ => True

/-- What an answered call does to the tables. -/
def ApiCall.effect : (c : ApiCall) → c.Ans → Store → Store
  | .insertRelaySubmission chainID hash, .ok _, s =>
    { s with submissions := Db.insertRelaySubmission ⟨chainID, hash⟩ s.submissions }
  | .insertIBCV2Transfer p, .ok _, s => { s with transfers := Db.insertIBCV2Transfer p s.transfers }
  | _, _, s => s

/-- The calls of the API. -/
def api (env : Env) : Sem ApiCall ApiCall.Ans Store where
  adm := env.Answers
  next := ApiCall.effect

end PlatformRelayer

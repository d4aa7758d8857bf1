import PlatformRelayer.RelayerApi.Calls

/-!
# Nodes

The calls that the bridge clients make to the node of their chain, and what a
node answers: an EVM client through `ethclient`, a Cosmos client through
CometBFT's RPC.
-/

namespace PlatformRelayer

/-- The header of an EVM block, as far as it is read. -/
structure EthHeader where
  number : Nat
  time : UInt64
deriving DecidableEq, Repr

/-- `rpc.FinalizedBlockNumber`, the tag of the last finalized block. -/
def finalizedBlockNumber : Int := -3

/-- A call to a node. A number or height of nil is the latest. -/
inductive NodeCall where
  | transactionReceipt (hash : List UInt8)
  | headerByNumber (number : Option Int)
  | tx (hash : List UInt8)
  | header (height : Option Int64)
deriving DecidableEq

/-- What a call is answered by. The header in the answer of a Cosmos node can be
nil; what is read of it is its time. -/
@[reducible] def NodeCall.Ans : NodeCall → Type
  | .transactionReceipt _ => Except Err Receipt
  | .headerByNumber _ => Except Err EthHeader
  | .tx _ => Except Err ResultTx
  | .header _ => Except Err (Option GoTime)

/-- A program of a bridge client. -/
abbrev Bridge (α : Type) := Prog NodeCall NodeCall.Ans α

/-- The program that makes a call and returns its answer. -/
abbrev query (c : NodeCall) : Bridge c.Ans := Prog.perform c

/-- `strings.Contains`, on characters. -/
def containsText (text : List Char) : List Char → Bool
  | [] => text.isEmpty
  | c :: cs => text.isPrefixOf (c :: cs) || containsText text cs

/-- `strings.Contains(err.Error(), text)`, for an error of a node, whose messages
have no arguments. -/
def Err.contains (err : Err) (text : String) : Bool :=
  err.messages.any fun m => containsText text.toList m.format.toList

end PlatformRelayer

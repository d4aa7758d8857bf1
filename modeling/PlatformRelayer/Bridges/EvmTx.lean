import Mathlib.Data.Rat.Floor
import PlatformRelayer.Shared.Bridges

/-!
# The txs of the EVM bridge client

`newTx` asks the node for what a tx needs and sets its two fee caps. The cap on
the whole fee is what the node suggests as a tip and twice the base fee; it and
the tip are then scaled, each by its own multiplier. A product with a multiplier
is exact here, where the source has the precision of a `big.Float`.
-/

namespace PlatformRelayer

open Prog

/-- `common.HexToAddress`: 20 bytes, cut or filled up from the left. -/
def hexToAddress (s : String) : List UInt8 :=
  let b := fromHex s
  let b := b.drop (b.length - 20)
  List.replicate (20 - b.length) 0 ++ b

/-- `ethereum.CallMsg`, as far as it is filled in. -/
structure CallMsg where
  sender : List UInt8
  toAddress : List UInt8
  data : List UInt8
deriving DecidableEq

/-- A call for a new tx. The header that is asked for is the latest one, of which
the base fee is read. -/
inductive TxCall where
  | headerByNumber
  | suggestGasTipCap
  | pendingCodeAt (account : List UInt8)
  | estimateGas (msg : CallMsg)
  | pendingNonceAt (account : List UInt8)
deriving DecidableEq

/-- What a call is answered by. The base fee is nil before EIP-1559. -/
@[reducible] def TxCall.Ans : TxCall → Type
  | .headerByNumber => Except Err (Option Int)
  | .suggestGasTipCap => Except Err Int
  | .pendingCodeAt _ => Except Err (List UInt8)
  | .estimateGas _ => Except Err UInt64
  | .pendingNonceAt _ => Except Err UInt64

/-- The program that makes a call and returns its answer. -/
abbrev askNode (c : TxCall) : Prog TxCall TxCall.Ans c.Ans := Prog.perform c

/-- How `newTx` fails. -/
inductive NoTx where
  | err (err : Err)
  | nilDereference
deriving DecidableEq

structure DynamicFeeTx where
  toAddress : List UInt8
  nonce : UInt64
  gasFeeCap : Option Int
  gasTipCap : Option Int
  gas : UInt64
  data : List UInt8
deriving DecidableEq

/-- The client, as far as it makes txs. -/
structure EVMSubmitter where
  chainID : String
  signerAddress : List UInt8
  gasFeeCapMultiplier : Option ℚ := none
  gasTipCapMultiplier : Option ℚ := none
  /-- `Address.String`. -/
  addressString : List UInt8 → String

/-- `Int` of a `big.Float`: the integer part. -/
def truncate (x : ℚ) : Int := x.num.tdiv x.den

/-- A cap scaled by a multiplier, if there is one. -/
def adjustGasCap (multiplier : Option ℚ) : Option Int → Option Int
  | none => none
  | some cap => match multiplier with
    | none => some cap
    | some m => some (truncate (cap * m))

namespace EVMSubmitter

variable (client : EVMSubmitter)

def adjustGasFeeCap (gasFeeCap : Option Int) : Option Int :=
  adjustGasCap client.gasFeeCapMultiplier gasFeeCap

def adjustGasTipCap (gasTipCap : Option Int) : Option Int :=
  adjustGasCap client.gasTipCapMultiplier gasTipCap

def newTx (bz : List UInt8) (address : String) :
    Prog TxCall TxCall.Ans (Except NoTx DynamicFeeTx) :=
  let toAddress := hexToAddress address
  attempt (askNode .headerByNumber)
    (fun err => .err (errorf "getting latest block header: %w" [] err)) fun baseFee =>
  attempt (askNode .suggestGasTipCap)
    (fun err => .err
      (errorf "getting suggested gas price for chain %s: %w" [.str client.chainID] err))
    fun gasTipCap =>
  match baseFee with
  | none => .ret (.error .nilDereference)
  | some baseFee =>
  let gasFeeCap := gasTipCap + baseFee * 2
  attempt (askNode (.pendingCodeAt toAddress))
    (fun err => .err
      (errorf "getting pending code at for address %s: %w"
        [.str (client.addressString toAddress)] err))
    fun code =>
  if code.length = 0 then
    .ret (.error (.err
      (newErr "code no length response when getting pending code for address %s: %!w(<nil>)"
      [.str (client.addressString toAddress)])))
  else
  attempt (askNode (.estimateGas ⟨client.signerAddress, toAddress, bz⟩))
    (fun err => .err
      (errorf "estimating gas to deliver msg to %s: %w"
        [.str (client.addressString toAddress)] err))
    fun gasLimit =>
  attempt (askNode (.pendingNonceAt client.signerAddress))
    (fun err => .err (errorf "getting pending nonce for address %s on chain %s: %w"
      [.str (client.addressString client.signerAddress), .str client.chainID] err)) fun nonce =>
  .ret (.ok
    { toAddress
      nonce
      gasFeeCap := client.adjustGasFeeCap (some gasFeeCap)
      gasTipCap := client.adjustGasTipCap (some gasTipCap)
      gas := gasLimit
      data := bz })

end EVMSubmitter

end PlatformRelayer

import PlatformRelayer.Signing.CosmosTx

/-!
# How the Cosmos bridge client submits messages

`signAndSubmit` decodes the messages of a tx body. If more than one of them
updates a client, each of these goes into a tx of its own, and then the other
messages into one; otherwise all go into one tx. The logs are left out.
-/

namespace PlatformRelayer

open Prog

/-- A message as it stands in an encoded tx body. -/
structure AnyMsg where
  typeURL : String
  value : List UInt8
deriving DecidableEq, Repr

/-- What the client uses of the SDK, of bech32 and of floating point. -/
structure CosmosSdk where
  /-- `proto.Unmarshal` of a `TxBody`, of which the messages are read. -/
  unmarshalTxBody : List UInt8 → Except Err (List AnyMsg)
  /-- `UnpackAny`. -/
  unpackAny : AnyMsg → Except Err SdkMsg
  addressOf : PubKey → List UInt8
  /-- `bech32.ConvertAndEncode`. -/
  convertAndEncode : String → List UInt8 → Except Err String
  /-- The gas used times 1.5, rounded up. -/
  bufferedGas : UInt64 → UInt64

/-- The client, as far as it submits txs. A gas price that is positive is known by
what a gas limit costs, rounded down. -/
structure CosmosSubmitter where
  sdk : CosmosSdk
  chainID : String
  bech32Prefix : String
  signer : CosmosSigner
  feeDenom : String := ""
  gasPrice : Option (UInt64 → Nat) := none
  feeAmount : UInt64 := 0
  txSubmissionDelay : Duration := 0

/-- The type URL of `MsgUpdateClient`. -/
def updateClientTypeURL : String := "/ibc.core.client.v1.MsgUpdateClient"

/-- `sdk.NewCoins` of one coin: a coin of zero is left out. -/
def newCoins (coin : Coin) : List Coin := if coin.amount = 0 then [] else [coin]

namespace CosmosSubmitter

variable (client : CosmosSubmitter)

def getTxFee (gasLimit : UInt64) : Except Err Coin :=
  if client.feeDenom = "" then
    .error (newErr "fee denom not set for chain %s" [.str client.chainID])
  else if client.gasPrice.isSome ∧ client.feeAmount > 0 then
    .error (newErr "gas price and fee amount cannot both be set for chain %s" [.str client.chainID])
  else match client.gasPrice with
    | some cost => .ok ⟨client.feeDenom, cost gasLimit + 1⟩
    | none =>
      if client.feeAmount > 0 then .ok ⟨client.feeDenom, client.feeAmount.toNat⟩
      else .ok ⟨client.feeDenom, 0⟩

/-- The gas limit, and the builder with the signature that the estimate was made
with. -/
def getEstimatedGasLimit (txBuilder : SdkTx)
    (accountInfo : BaseAccount) : Submit (Except Err (UInt64 × SdkTx)) :=
  attempt (client.signer.sign client.chainID ⟨txBuilder, accountInfo.accountNumber,
    accountInfo.sequence⟩) (errorf "signing tx: %w" []) fun signedTx =>
  attempt (send (.simulate signedTx.tx)) (errorf "simulating tx to get estimated gas usage: %w" [])
    fun gasUsed =>
  match gasUsed with
  | none => .ret (.error (newErr "got nil gas info after simulating tx"))
  | some gasUsed => .ret (.ok (client.sdk.bufferedGas gasUsed, signedTx.tx))

/-- The builder with the fee, if there is a fee denom. -/
def setFee (gasLimit : UInt64) (txBuilder : SdkTx) : Except Err SdkTx :=
  if client.feeDenom = "" then .ok txBuilder
  else match client.getTxFee gasLimit with
    | .error err => .error (errorf "getting tx fee: %w" [] err)
    | .ok fee => .ok (txBuilder.setFeeAmount (newCoins fee))

/-- The last part of `signAndSubmitMessages`: the builder is complete. -/
def broadcast (bech32Address : String) (accountInfo : BaseAccount) (txBuilder : SdkTx) :
    Submit (Except Err (List UInt8)) :=
  attempt (client.signer.sign client.chainID ⟨txBuilder, accountInfo.accountNumber,
    accountInfo.sequence⟩) (errorf "signing tx: %w" []) fun signedTx =>
  attempt (send (.broadcastTxSync signedTx.tx))
    (errorf "broadcasting tx synchronously from signer %s: %w" [.str bech32Address]) fun result =>
  if result.code ≠ 0 then
    .ret (.error (newErr "broadcasting cosmos tx from signer %s returned error code %d: %s"
      [.str bech32Address, .num result.code.toNat, .str result.log]))
  else .ret (.ok result.hash)

/-- The hash of the tx with the messages. The address in the text of the first
error is left out. -/
def signAndSubmitMessages (msgs : List SdkMsg) : Submit (Except Err (List UInt8)) :=
  (client.signer.address client.sdk.addressOf).bind fun address =>
  match client.sdk.convertAndEncode client.bech32Prefix address with
  | .error err => .ret (.error
      (errorf "converting and encoding signer address %s with prefix %s to bech32: %w"
        [.str client.bech32Prefix] err))
  | .ok bech32Address =>
  attempt (send (.accountInfo bech32Address))
    (errorf "getting account info for cosmos signer %s on chain %s: %w"
      [.str bech32Address, .str client.chainID])
    fun account =>
  match account with
  | none => .ret (.error (newErr "got no info for cosmos signer account %s on chain %s: %w"
      [.str bech32Address, .str client.chainID]))
  | some accountInfo =>
  let txBuilder := ({} : SdkTx).setMsgs msgs
  attempt (client.getEstimatedGasLimit txBuilder accountInfo)
    (errorf "getting estimated gas limit for tx: %w" []) fun estimate =>
  match client.setFee estimate.1 (estimate.2.setGasLimit estimate.1) with
  | .error err => .ret (.error err)
  | .ok txBuilder => client.broadcast bech32Address accountInfo txBuilder

/-- The loop over the messages of the body. -/
def unpackMsgs : List AnyMsg → Except Err (List SdkMsg)
  | [] => .ok []
  | msg :: msgs => match client.sdk.unpackAny msg with
    | .error err => .error (errorf "unpacking msg into sdk.Msg: %w" [] err)
    | .ok sdkMsg => (unpackMsgs msgs).map (sdkMsg :: ·)

/-- The loop that submits the updates, with the number of those submitted and the
other messages as far as they were seen. -/
def submitUpdates (numClientUpdates : Nat) : List SdkMsg → Nat → List SdkMsg →
    Submit (Except Err (List SdkMsg))
  | [], _, nonClientUpdateMsgs => .ret (.ok nonClientUpdateMsgs)
  | msg :: msgs, numSubmitted, nonClientUpdateMsgs =>
    if msg.typeURL ≠ updateClientTypeURL then
      submitUpdates numClientUpdates msgs numSubmitted (nonClientUpdateMsgs ++ [msg])
    else
      attempt (client.signAndSubmitMessages [msg])
        (errorf
        "submitting individual update client message number %d since there were %d included in tx: %w"
          [.num numSubmitted, .num numClientUpdates]) fun _ =>
      (send (.sleep client.txSubmissionDelay)).bind fun _ =>
      submitUpdates numClientUpdates msgs (numSubmitted + 1) nonClientUpdateMsgs

def signAndSubmit (bz : List UInt8) : Submit (Except Err (List UInt8)) :=
  match client.sdk.unmarshalTxBody bz with
  | .error err => .ret (.error (errorf "unmarshaling tx bytes: %w" [] err))
  | .ok messages =>
  if messages.isEmpty then .ret (.error (newErr "no messages to relay"))
  else match client.unpackMsgs messages with
    | .error err => .ret (.error err)
    | .ok msgs =>
      let numClientUpdates := msgs.countP (·.typeURL = updateClientTypeURL)
      if numClientUpdates > 1 then
        attempt (client.submitUpdates numClientUpdates msgs 0 []) id client.signAndSubmitMessages
      else client.signAndSubmitMessages msgs

end CosmosSubmitter

end PlatformRelayer

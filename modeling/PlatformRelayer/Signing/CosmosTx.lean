import PlatformRelayer.Framework.Prog
import PlatformRelayer.Ibcv2.Errors

/-!
# Cosmos txs and their signers

A tx builder of the Cosmos SDK with the setters that are used, and the two
implementations of `signing.Signer`. `WrapTxBuilder` and `GetTx` expose one
builder, so signing changes the builder that the tx came from: a function that
is given a builder returns it as it left it.

The bytes that are signed in direct mode are an injective encoding of body,
auth info, chain id and account number; a `SignDoc` stands for them. A signature
is known by its key and by what it is over. That the SDK fails to encode or to
wrap a tx is left out.
-/

namespace PlatformRelayer

open Prog

/-! ## Txs -/

abbrev PubKey := List UInt8

/-- An `sdk.Msg`: its type URL and its value. -/
structure SdkMsg where
  typeURL : String
  value : List UInt8
deriving DecidableEq, Repr

structure Coin where
  denom : String
  amount : Nat
deriving DecidableEq, Repr

inductive SignMode where
  | unspecified
  | direct
  | textual
  | directAux
  | legacyAminoJSON
deriving DecidableEq, Repr

structure SignerInfo where
  pubKey : PubKey
  mode : SignMode
  sequence : UInt64
deriving DecidableEq, Repr

structure TxBody where
  messages : List SdkMsg := []
  memo : String := ""
  timeoutHeight : UInt64 := 0
deriving DecidableEq, Repr

structure Fee where
  amount : List Coin := []
  gasLimit : UInt64 := 0
  payer : String := ""
  granter : String := ""
deriving DecidableEq, Repr

structure AuthInfo where
  signerInfos : List SignerInfo := []
  fee : Fee := {}
deriving DecidableEq, Repr

/-- What is signed in direct mode. -/
structure SignDoc where
  body : TxBody
  authInfo : AuthInfo
  chainID : String
  accountNumber : UInt64
deriving DecidableEq, Repr

/-- The signature of a key over a document. -/
structure Signature where
  key : PubKey
  doc : SignDoc
deriving DecidableEq, Repr

/-- A `signing.SignatureV2` with a single signature, which can be nil. -/
structure SignatureV2 where
  pubKey : PubKey
  mode : SignMode
  signature : Option Signature
  sequence : UInt64
deriving DecidableEq, Repr

/-- A tx, or the builder of it. -/
structure SdkTx where
  body : TxBody := {}
  authInfo : AuthInfo := {}
  signatures : List (Option Signature) := []
deriving DecidableEq, Repr

namespace SdkTx

def setMsgs (tx : SdkTx) (msgs : List SdkMsg) : SdkTx :=
  { tx with body := { tx.body with messages := msgs } }

def setGasLimit (tx : SdkTx) (gasLimit : UInt64) : SdkTx :=
  { tx with authInfo := { tx.authInfo with fee := { tx.authInfo.fee with gasLimit := gasLimit } } }

def setFeeAmount (tx : SdkTx) (amount : List Coin) : SdkTx :=
  { tx with authInfo := { tx.authInfo with fee := { tx.authInfo.fee with amount := amount } } }

/-- `SetSignatures` replaces the signer infos and the signatures. -/
def setSignatures (tx : SdkTx) (sigs : List SignatureV2) : SdkTx :=
  { tx with
    authInfo := { tx.authInfo with signerInfos := sigs.map fun sig =>
      ⟨sig.pubKey, sig.mode, sig.sequence⟩ }
    signatures := sigs.map (·.signature) }

/-- `GetSignBytesAdapter` in direct mode. -/
def signDoc (tx : SdkTx) (chainID : String) (accountNumber : UInt64) : SignDoc :=
  ⟨tx.body, tx.authInfo, chainID, accountNumber⟩

end SdkTx

/-! ## Calls -/

/-- An `auth_types.BaseAccount`, as far as it is read. -/
structure BaseAccount where
  accountNumber : UInt64
  sequence : UInt64
deriving DecidableEq, Repr

/-- A `ResultBroadcastTx`. -/
structure BroadcastResult where
  code : UInt32
  log : String
  hash : List UInt8
deriving DecidableEq, Repr

/-- The calls to the signer service, to the node and to the clock. A tx is sent
as it is; its encoding is left out. -/
inductive SubmitCall where
  | sign (walletID : String) (signDoc : SignDoc)
  | getWallet (walletID : String)
  | accountInfo (address : String)
  | simulate (tx : SdkTx)
  | broadcastTxSync (tx : SdkTx)
  | sleep (d : Duration)
deriving DecidableEq

/-- What a call is answered by: for `sign` the Cosmos signature in the response,
for `simulate` the gas that was used, each of which can be missing, as can the
info of an account. -/
@[reducible] def SubmitCall.Ans : SubmitCall → Type
  | .sign .. => Except Err (Option Signature)
  | .getWallet _ => Except Err PubKey
  | .accountInfo _ => Except Err (Option BaseAccount)
  | .simulate _ => Except Err (Option UInt64)
  | .broadcastTxSync _ => Except Err BroadcastResult
  | .sleep _ => Unit

/-- A program that signs and submits. -/
abbrev Submit (α : Type) := Prog SubmitCall SubmitCall.Ans α

abbrev send (c : SubmitCall) : Submit c.Ans := Prog.perform c

/-! ## Signers -/

/-- A `signing.CosmosTransaction`. -/
structure CosmosTransaction where
  tx : SdkTx
  accountNumber : UInt64
  sequence : UInt64
deriving DecidableEq, Repr

/-- `SignModeHandler().DefaultMode()` of a tx config with `DefaultSignModes`. -/
def defaultMode : SignMode := .direct

/-- `clienttx.SignWithPrivKey`, for the key with this public key. -/
def signWithPrivKey (mode : SignMode) (chainID : String) (accountNumber : UInt64)
    (txBuilder : SdkTx) (key : PubKey) (sequence : UInt64) : SignatureV2 :=
  ⟨key, mode, some ⟨key, txBuilder.signDoc chainID accountNumber⟩, sequence⟩

/-- `SignCosmosTx`: the signer info is there, without a signature, before the
bytes to sign are taken. -/
def signCosmosTx (key : PubKey) (chainID : String) (accountNumber sequence : UInt64)
    (tx : SdkTx) : SdkTx :=
  let txBuilder := tx.setSignatures [⟨key, defaultMode, none, sequence⟩]
  let signature := signWithPrivKey defaultMode chainID accountNumber txBuilder key sequence
  txBuilder.setSignatures [signature]

/-- A signer with a private key, of which the public key is named. -/
structure LocalCosmosSigner where
  publicKey : PubKey
deriving DecidableEq, Repr

def LocalCosmosSigner.sign (s : LocalCosmosSigner) (chainID : String) (tx : CosmosTransaction) :
    Submit (Except Err CosmosTransaction) :=
  .ret (.ok { tx with tx := signCosmosTx s.publicKey chainID tx.accountNumber tx.sequence tx.tx })

/-- `SignerManager.SignCosmosTransaction`: the bytes to sign are taken before the
signer info is set. -/
def signCosmosTransaction (txb : SdkTx) (accountNumber sequence : UInt64)
    (chainID signerWalletID : String) : Submit (Except Err SdkTx) :=
  let signDoc := txb.signDoc chainID accountNumber
  attempt (send (.sign signerWalletID signDoc)) (errorf "failed to sign transaction. Error: %w" [])
    fun signature =>
  attempt (send (.getWallet signerWalletID))
    (errorf "failed to get wallet from signer to retrieve public key. Error: %w" []) fun pubKey =>
  .ret (.ok (txb.setSignatures [⟨pubKey, .direct, signature, sequence⟩]))

/-- A signer with a wallet of the signer service. -/
structure RemoteCosmosSigner where
  walletID : String
deriving DecidableEq, Repr

def RemoteCosmosSigner.sign (s : RemoteCosmosSigner) (chainID : String) (tx : CosmosTransaction) :
    Submit (Except Err CosmosTransaction) :=
  attempt (signCosmosTransaction tx.tx tx.accountNumber tx.sequence chainID s.walletID)
    (errorf "remote signing failed: %w" []) fun signedTx =>
  .ret (.ok { tx with tx := signedTx })

/-- The public key that `Address` is the hash of. It is empty if the wallet
cannot be read. -/
def RemoteCosmosSigner.publicKey? (s : RemoteCosmosSigner) : Submit (Option PubKey) :=
  (send (.getWallet s.walletID)).bind fun
  | .error _ => .ret none
  | .ok pubKey => .ret (some pubKey)

/-- A `signing.Signer` for Cosmos. -/
inductive CosmosSigner where
  | ofKey (s : LocalCosmosSigner)
  | ofWallet (s : RemoteCosmosSigner)
deriving DecidableEq, Repr

namespace CosmosSigner

def sign (signer : CosmosSigner) (chainID : String)
    (tx : CosmosTransaction) : Submit (Except Err CosmosTransaction) :=
  match signer with
  | .ofKey s => s.sign chainID tx
  | .ofWallet s => s.sign chainID tx

/-- `Address`; `addressOf` is the hash of a public key. -/
def address (signer : CosmosSigner) (addressOf : PubKey → List UInt8) : Submit (List UInt8) :=
  match signer with
  | .ofKey s => .ret (addressOf s.publicKey)
  | .ofWallet s => s.publicKey?.bind fun pubKey => .ret (pubKey.elim [] addressOf)

end CosmosSigner

end PlatformRelayer

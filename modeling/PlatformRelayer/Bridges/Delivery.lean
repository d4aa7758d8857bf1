import PlatformRelayer.Bridges.CosmosSubmission
import PlatformRelayer.Bridges.EvmTx
import PlatformRelayer.Framework.Layers

/-!
# Delivering txs

`DeliverTx` of both bridge clients. Any number of goroutines call it on one client;
a call holds `txSubmissionLock` from its start to its end (it is a `critical`
section), waits until some time has passed since the last submission, and then signs
and submits. A deferred function keeps the time of the submission and gives the lock
back.

The deferred function looks at the variable `err`. It is nil after a success, but
also where the context was done while the call waited, since the context's error is
returned without being assigned, and where `newTx` panics.
-/

namespace PlatformRelayer

open Prog

/-! ## Under the lock -/

/-- A call of `DeliverTx`, beside those of the submission itself. -/
inductive DeliveryCall (C : Type) where
  | lastSubmissionTime
  | setLastSubmissionTime (t : Time)
  /-- `select` of `time.After(time.Until(t))` and of `ctx.Done()`. -/
  | waitUntil (t : Time)
  | now
  | submission (c : C)

/-- What a call is answered by: for `waitUntil` the error of a context that was done
first. -/
@[reducible] def DeliveryCall.Ans {C : Type} (A : C → Type) : DeliveryCall C → Type
  | .lastSubmissionTime => Time
  | .setLastSubmissionTime _ => Unit
  | .waitUntil _ => Option Err
  | .now => Time
  | .submission c => A c

/-- A program of a delivery. -/
abbrev Delivery (C : Type) (A : C → Type) (α : Type) := Prog (DeliveryCall C) (DeliveryCall.Ans A) α

section Paced

variable {C : Type} {A : C → Type} {α ε : Type}

/-- The program that makes a call and returns its answer. -/
abbrev inDelivery (c : DeliveryCall C) : Delivery C A (DeliveryCall.Ans A c) := Prog.perform c

/-- A part of the submission. -/
abbrev submits (p : Prog C A α) : Delivery C A α := p.within .submission fun _ r => r

/-- The deferred function, before it gives the lock back. -/
def deferred (errIsNil : Bool) (result : Except ε α) : Delivery C A (Except ε α) :=
  if errIsNil then (inDelivery .now).bind fun t =>
    (inDelivery (.setLastSubmissionTime t)).bind fun _ => .ret result
  else .ret result

/-- The part of `DeliverTx` that the clients share. Where `submit` fails, `errIsNil`
says whether it has left `err` nil. -/
def paced (txSubmissionDelay : Duration) (errIsNil : ε → Bool) (contextErr : Err → ε)
    (submit : Delivery C A (Except ε α)) : Delivery C A (Except ε α) :=
  (inDelivery .lastSubmissionTime).bind fun last =>
  (inDelivery (.waitUntil (last + txSubmissionDelay))).bind fun
  | some err => deferred true (.error (contextErr err))
  | none => submit.bind fun
    | .error err => deferred (errIsNil err) (.error err)
    | .ok a => deferred true (.ok a)

end Paced

/-! ## Hashes as text -/

/-- A hex digit, with letters that start at `a`. -/
def hexDigit (a : Char) (n : UInt8) : Char :=
  if n < 10 then Char.ofNat (n.toNat + 48) else Char.ofNat (n.toNat - 10 + a.toNat)

def hexDigits (a : Char) (bytes : List UInt8) : List Char :=
  bytes.flatMap fun (b : UInt8) => [hexDigit a (b >>> 4), hexDigit a (b &&& 0x0f)]

/-- `String` of a `HexBytes`. -/
def CosmosBridgeClient.hashString (hash : List UInt8) : String := String.ofList (hexDigits 'A' hash)

/-- `String` of a `common.Hash`. -/
def EVMBridgeClient.hashString (hash : List UInt8) : String :=
  String.ofList ('0' :: 'x' :: hexDigits 'a' hash)

/-! ## EVM -/

structure SignedTx where
  tx : DynamicFeeTx
  signature : List UInt8
deriving DecidableEq

/-- A call of the submission: to the node, or to the signer. -/
inductive EvmSubmitCall where
  | node (c : TxCall)
  | sign (chainID : String) (tx : DynamicFeeTx)
  | sendTransaction (tx : SignedTx)
deriving DecidableEq

/-- What a call is answered by. Either signer sets a signature on the tx it is
given. -/
@[reducible] def EvmSubmitCall.Ans : EvmSubmitCall → Type
  | .node c => c.Ans
  | .sign .. => Except Err (List UInt8)
  | .sendTransaction _ => Except Err Unit

/-- The program that makes a call and returns its answer. -/
abbrev inSubmission (c : EvmSubmitCall) : Prog EvmSubmitCall EvmSubmitCall.Ans c.Ans :=
  Prog.perform c

/-- The client, as far as it delivers txs. -/
structure EVMDeliverer extends EVMSubmitter where
  txSubmissionDelay : Duration := 2 * second
  /-- `Transaction.Hash`. -/
  hashOf : SignedTx → List UInt8
  length_hashOf (tx : SignedTx) : (hashOf tx).length = 32

/-- An error of `newTx`, wrapped; a panic stays one. -/
def NoTx.wrap (w : Err → Err) : NoTx → NoTx
  | .err e => .err (w e)
  | .nilDereference => .nilDereference

namespace EVMDeliverer

variable (client : EVMDeliverer)

def signAndSubmitData (bz : List UInt8) (address : String) :
    Prog EvmSubmitCall EvmSubmitCall.Ans (Except NoTx (List UInt8)) :=
  attempt ((client.newTx bz address).within .node fun _ r => r)
    (NoTx.wrap (errorf "creating tx to sign and submit: %w" [])) fun tx =>
  attempt (inSubmission (.sign client.chainID tx)) (fun err =>
    .err (errorf "signing tx with address %s: %w"
    [.str (client.addressString client.signerAddress)] err)) fun signature =>
  let signedTx : SignedTx := ⟨tx, signature⟩
  attempt (inSubmission (.sendTransaction signedTx)) (fun err =>
    .err (errorf "sending signed transaction: %w" [] err)) fun _ =>
  .ret (.ok (client.hashOf signedTx))

/-- From where the lock is taken to where it is given back. A panic leaves `err`
nil. -/
def deliverTx (bz : List UInt8) (address : String) :
    Delivery EvmSubmitCall EvmSubmitCall.Ans (Except NoTx BridgeTx) :=
  paced client.txSubmissionDelay (fun err => err = .nilDereference) .err <|
  attempt (submits (client.signAndSubmitData bz address))
    (NoTx.wrap (errorf "signing and submitting data to %s: %w" [.str address])) fun hash =>
  (inDelivery .now).bind fun now =>
  .ret (.ok ⟨EVMBridgeClient.hashString hash, now, client.addressString client.signerAddress⟩)

end EVMDeliverer

/-! ## Cosmos -/

namespace CosmosSubmitter

variable (client : CosmosSubmitter)

/-- From where the lock is taken to where it is given back. The address in the text
of the first error is left out. -/
def deliverTx (bz : List UInt8) : Delivery SubmitCall SubmitCall.Ans (Except Err BridgeTx) :=
  paced client.txSubmissionDelay (fun _ => false) id <|
  (submits (client.signer.address client.sdk.addressOf)).bind fun address =>
  match client.sdk.convertAndEncode client.bech32Prefix address with
  | .error err => .ret (.error
      (errorf "converting and encoding signer address %s with prefix %s to bech32: %w"
        [.str client.bech32Prefix] err))
  | .ok bech32Address =>
  attempt (submits (client.signAndSubmit bz)) (errorf "signing and submitting recv tx: %w" [])
    fun hash =>
  (inDelivery .now).bind fun now =>
  .ret (.ok ⟨CosmosBridgeClient.hashString hash, now, bech32Address⟩)

end CosmosSubmitter

end PlatformRelayer

import PlatformRelayer.Bridges.Nodes

/-!
# Waiting for a tx

`WaitForTx` of both bridge clients: a loop that asks the node for the tx at each
tick of a ticker. The clients differ in which errors of the node end the wait. A
loop may go on for ever, so what it returns is given after each number of
iterations (`loopN`).
-/

namespace PlatformRelayer

/-- What a loop has returned in its first `n` iterations, if it has returned. -/
def loopN {ι α : Type} (body : ι → Option α) (input : Nat → ι) : Nat → Option α
  | 0 => none
  | n + 1 => (loopN body input n).or (body (input n))

/-- What an iteration finds: whether the context is done, what the node answers
for each hash, and the time at the end. A nil result is an answer without an
error. -/
structure Poll (R : Type) where
  done : Option Err := none
  answer : List UInt8 → Except Err (Option R)
  now : Time

def waitTick : Duration := 3 * second

def waitTimeout : Duration := minute

/-- An iteration. An error of the node is returned as `onError` says, or the node
is asked again at the next tick. -/
def Poll.iteration {R : Type} (onError : Err → Option Err) (timeoutFormat : String)
    (hash : List UInt8) (start : Time) (p : Poll R) : Option (Except Err Unit) :=
  match p.done with
  | some err => some (.error err)
  | none => match p.answer hash with
    | .error err => (onError err).map .error
    | .ok (some _) => some (.ok ())
    | .ok none =>
      if p.now - start > waitTimeout then some (.error (newErr timeoutFormat [.str "1m0s"]))
        else none

namespace EVMBridgeClient

def waitForTx (hash : String) (start : Time) (polls : Nat → Poll Receipt)
    (n : Nat) : Option (Except Err Unit) :=
  loopN (Poll.iteration (fun _ => none) "timeout after waiting %s for transaction receipt"
    (hexToHash hash) start) polls n

end EVMBridgeClient

namespace CosmosBridgeClient

/-- The error with which the client stops to wait. -/
def waitError (err : Err) : Option Err :=
  if err.contains "not found" then none else some (errorf "getting tx result: %w" [] err)

def waitForTx (hash : String) (start : Time) (polls : Nat → Poll ResultTx)
    (n : Nat) : Option (Except Err Unit) :=
  match hexDecodeString hash with
  | .error err => some (.error (errorf "hex decoding tx hash string %s: %w" [.str hash] err))
  | .ok hashBytes =>
    loopN (Poll.iteration waitError "timeout after waiting %s for transaction result" hashBytes
      start) polls n

end CosmosBridgeClient

end PlatformRelayer

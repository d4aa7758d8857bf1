import PlatformRelayer.Bridges.Nodes

/-!
# Finality

`IsTxFinalized` and `IsTimestampFinalized` of both bridge clients. The EVM client
asks for the block that is tagged as finalized, or counts blocks back from the
head if it is given an offset. Block numbers are big integers, of which the low
64 bits are taken.
-/

namespace PlatformRelayer

open Prog

/-- The seconds from year 1, from which a `time.Time` counts, to the Unix epoch. -/
def unixToInternal : Int64 := 62135596800

/-- The instant of `time.Unix(sec, 0)`. A `time.Time` has its seconds in an
`int64`, which they can overflow. -/
def unixInstant (sec : Int64) : Time :=
  ((sec + unixToInternal).toInt - unixToInternal.toInt) * second

namespace EVMBridgeClient

def isTxFinalized (txHash : String) (offset : Option UInt64) : Bridge (Except Err Bool) :=
  (query (.transactionReceipt (hexToHash txHash))).bind fun
  | .error err =>
    if err.contains "not found" then .ret (.error Sentinel.errTxNotFound.err)
    else .ret (.error (errorf "getting receipt for tx %s: %w" [.str txHash] err))
  | .ok receipt => match offset with
    | none =>
      attempt (query (.headerByNumber (some finalizedBlockNumber)))
        (errorf "getting finalized block height: %w" []) fun finalizedHeader =>
      .ret (.ok ((Int64.ofNat receipt.blockNumber).toInt ≤ finalizedHeader.number))
    | some offset =>
      attempt (query (.headerByNumber none)) (errorf "getting latest block height: %w" [])
        fun latestHeader =>
      let txBlockNumber := UInt64.ofNat receipt.blockNumber
      let latestBlockNumber := UInt64.ofNat latestHeader.number
      .ret (.ok (latestBlockNumber ≥ txBlockNumber && latestBlockNumber - txBlockNumber ≥ offset))

/-- The end of `IsTimestampFinalized`, with the header that counts as finalized. -/
def notBefore (timestamp : Time) (header : EthHeader) : Bool :=
  let blockTime := unixInstant header.time.toInt64
  !(blockTime < timestamp)

/-- Times are compared by their instants. -/
def isTimestampFinalized (timestamp : Time) (offset : Option UInt64) : Bridge (Except Err Bool) :=
  match offset with
  | none =>
    attempt (query (.headerByNumber (some finalizedBlockNumber)))
      (errorf "getting finalized block header: %w" []) fun header =>
    .ret (.ok (notBefore timestamp header))
  | some offset =>
    attempt (query (.headerByNumber none)) (errorf "getting latest block height: %w" [])
      fun latestHeader =>
    if UInt64.ofNat latestHeader.number < offset then .ret (.ok false)
    else
      let finalizedHeight := UInt64.ofNat latestHeader.number - offset
      attempt (query (.headerByNumber (some finalizedHeight.toInt64.toInt)))
        (errorf "getting block header at height %d: %w" [.num finalizedHeight.toNat]) fun header =>
      .ret (.ok (notBefore timestamp header))

end EVMBridgeClient

namespace CosmosBridgeClient

def isTxFinalized (_txHash : String) (_offset : Option UInt64) : Bridge (Except Err Bool) :=
  .ret (.ok true)

/-- The latest block is final, and the offset is not looked at. -/
def isTimestampFinalized (timestamp : Time) (_offset : Option UInt64) : Bridge (Except Err Bool) :=
  attempt (query (.header none)) (errorf "getting latest header: %w" []) fun header =>
  match header with
  | none => .ret (.error (newErr "got nil header when fetching latest header"))
  | some time => .ret (.ok (time.instant > timestamp))

end CosmosBridgeClient

end PlatformRelayer

import PlatformRelayer.Db.Models

/-!
# Go errors

An error is the chain of its messages, outermost first, and the sentinel
errors it wraps: what `errors.Is` can find in it. A message is its format and
the arguments of the format. Every error of the relayer has a message that is
not empty, so `transfer.Error() != ""` says that there is one.
-/

namespace PlatformRelayer

/-- The errors that `errors.Is` is asked about. -/
inductive Sentinel where
  | contextCanceled
  | errTxNotFound
  | errWriteAckDecoding
  | errWriteAckNotFoundForPacket
  | errSendNotFinalized
  | errTimeoutNotFinalized
  | errWriteAckNotFinalized
  | errRetryingRecvPacket
  | errRetryingAckPacket
  | errRetryingTimeoutPacket
  | errTransferAlreadyInPipeline
deriving DecidableEq, Repr

def Sentinel.text : Sentinel → String
  | .contextCanceled => "context canceled"
  | .errTxNotFound => "tx not found"
  | .errWriteAckDecoding => "could not decode write ack"
  | .errWriteAckNotFoundForPacket => "write ack for packet not found in tx"
  | .errSendNotFinalized => "send tx not finalized"
  | .errTimeoutNotFinalized => "timeout tx not finalized"
  | .errWriteAckNotFinalized => "write tx not finalized"
  | .errRetryingRecvPacket => "retrying recv packet"
  | .errRetryingAckPacket => "retrying ack packet"
  | .errRetryingTimeoutPacket => "retrying timeout packet"
  | .errTransferAlreadyInPipeline => "transfer already in pipeline"

/-- An argument of a format. -/
inductive Arg where
  | str (s : String)
  | num (n : Nat)
  | time (t : Time)
  | status (s : Db.Ibcv2RelayStatus)
  | writeAckStatus (s : Db.Ibcv2WriteAckStatus)
deriving DecidableEq, Repr

/-- A format and its arguments, but the wrapped errors. -/
structure Message where
  format : String
  args : List Arg
deriving DecidableEq, Repr

structure Err where
  messages : List Message
  wraps : List Sentinel
deriving DecidableEq, Repr

/-- `fmt.Errorf` without a `%w`. -/
def newErr (format : String) (args : List Arg := []) : Err := ⟨[⟨format, args⟩], []⟩

/-- `fmt.Errorf` with one `%w`, for `e`. -/
def errorf (format : String) (args : List Arg) (e : Err) : Err :=
  ⟨⟨format, args⟩ :: e.messages, e.wraps⟩

/-- `fmt.Errorf` with a `%w` for each of two errors. -/
def errorf₂ (format : String) (e₁ e₂ : Err) : Err :=
  ⟨⟨format, []⟩ :: e₁.messages ++ e₂.messages, e₁.wraps ++ e₂.wraps⟩

/-- A sentinel error itself. -/
def Sentinel.err (s : Sentinel) : Err := ⟨[⟨s.text, []⟩], [s]⟩

/-- `errors.Is`. -/
def Err.is (e : Err) (s : Sentinel) : Bool := e.wraps.contains s

end PlatformRelayer

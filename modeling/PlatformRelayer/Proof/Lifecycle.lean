import Mathlib.Logic.Relation
import PlatformRelayer.Ibcv2.Pipeline

/-!
# The life of a transfer

What a stage can do to a transfer and to its row is one of the steps of
`Life`, whatever the answers to its calls are: it enters the stage, fails,
gets a tx that was found on chain or delivered, has one cleared, and so on.
Each step says under which guard it is taken and which answers it rests on.
The stages are shown to take no other steps (`Stages.lean`, `Batches.lean`),
and what holds of every transfer and row is shown here of each step, once.

`Reaches` is a path of such steps with the calls made on the way. Hashes and
the write ack never leave a transfer (`Life.hash`, `Life.writeAck`), and while
a transfer has no error its row has the same ones (`Synced.life`).
-/

namespace PlatformRelayer

open Db Relation

/-! ## Packets and what the chains said of them -/

/-- What a transfer is about; no stage changes it. -/
structure Packet where
  sourceChainID : String
  destinationChainID : String
  sourceTxHash : String
  sequenceNumber : UInt32
  sourceClientID : String
  destinationClientID : String
  timeoutTimestamp : Time
deriving DecidableEq

/-- The status that is recorded for an answer of `PacketWriteAckStatus`. -/
def writeAckOf : Except Err Ibcv2WriteAckStatus → Option Ibcv2WriteAckStatus
  | .ok status => some status
  | .error err =>
    if !err.is .errWriteAckNotFoundForPacket && err.is .errWriteAckDecoding then some .unknown
      else none

def IBCV2Transfer.packet (t : IBCV2Transfer) : Packet where
  sourceChainID := t.sourceChainID
  destinationChainID := t.destinationChainID
  sourceTxHash := t.sourceTxHash
  sequenceNumber := t.packetSequenceNumber
  sourceClientID := t.packetSourceClientID
  destinationClientID := t.packetDestinationClientID
  timeoutTimestamp := t.packetTimeoutTimestamp

namespace Packet

variable (p : Packet) (tr : List Event)

def key : TransferKey := ⟨p.sourceChainID, p.sourceClientID, p.sequenceNumber.toInt32⟩

/-- The destination chain said whether it has received the packet. -/
def SaidReceived (received : Bool) : Prop :=
  ⟨.isPacketReceived p.destinationChainID p.destinationClientID p.sequenceNumber.toUInt64,
    .ok received⟩ ∈ tr

/-- The source chain said whether it has the packet's commitment. -/
def SaidCommitted (committed : Bool) : Prop :=
  ⟨.isPacketCommitted p.sourceChainID p.sourceClientID p.sequenceNumber.toUInt64,
    .ok committed⟩ ∈ tr

/-- The source tx is final on the source chain. -/
def SendFinal (offset : Option UInt64) : Prop :=
  ⟨.isTxFinalized p.sourceChainID p.sourceTxHash offset, .ok true⟩ ∈ tr

/-- The tx with the write ack is final on the destination chain. -/
def WriteAckFinal (offset : Option UInt64) (hash : String) : Prop :=
  ⟨.isTxFinalized p.destinationChainID hash offset, .ok true⟩ ∈ tr

/-- The timeout is final on the destination chain. -/
def TimeoutFinal (offset : Option UInt64) : Prop :=
  ⟨.isTimestampFinalized p.destinationChainID p.timeoutTimestamp offset, .ok true⟩ ∈ tr

/-- The processor with this state read the clock, for `IsTimedOut`. -/
def ReadClock (state : Ibcv2RelayStatus) (now : Time) : Prop :=
  ⟨.now (.isTimedOut state p.key), now⟩ ∈ tr

/-- A tx of the packet was found on chain. -/
def Found (k : TxKind) (tx : BridgeTx) : Prop :=
  match k with
  | .recv => ⟨.findRecvTx p.destinationChainID p.sourceClientID p.destinationClientID
      p.sequenceNumber.toUInt64 p.timeoutTimestamp, .ok tx⟩ ∈ tr
  | .ack => ⟨.findAckTx p.sourceChainID p.sourceClientID p.destinationClientID
      p.sequenceNumber.toUInt64, .ok tx⟩ ∈ tr
  | .timeout => ⟨.findTimeoutTx p.sourceChainID p.sourceClientID p.destinationClientID
      p.sequenceNumber.toUInt64, .ok tx⟩ ∈ tr

/-- The chain that a tx of the packet is on. -/
def chainID : TxKind → String
  | .recv => p.destinationChainID
  | .ack | .timeout => p.sourceChainID

/-- The destination chain said that the write ack in a tx has this status. -/
def SaidWriteAck (hash : String) (status : Ibcv2WriteAckStatus) : Prop :=
  ∃ ans, ⟨.packetWriteAckStatus p.destinationChainID hash p.sequenceNumber.toUInt64 p.sourceClientID
    p.destinationClientID, ans⟩ ∈ tr ∧ writeAckOf ans = some status

/-- A gas cost is the value of the fee that the chain said a tx had. -/
def Priced (k : TxKind) (hash : String) (cost : Numeric) : Prop :=
  ∃ coingeckoID decimals fee, ⟨.txFee (p.chainID k) hash, .ok fee⟩ ∈ tr ∧
    ⟨.getCoinUsdValue coingeckoID decimals fee, .ok cost⟩ ∈ tr

/-- A tx was confirmed: it need not be retried, or it was found on chain. -/
def Confirmed (chainID : String) (k : TxKind) (hash : String) : Prop :=
  (∃ expiry sentTs, ⟨.shouldRetryTx chainID hash expiry sentTs, .ok false⟩ ∈ tr) ∨
    ∃ tx : BridgeTx, tx.hash = hash ∧ p.Found tr k tx

/-- The clock was read by the processor after the point where the calls were
`tr₀`. -/
def ReadSince (tr₀ : List Event) (state : Ibcv2RelayStatus) (now : Time) : Prop :=
  ∃ new, tr = new ++ tr₀ ∧ ⟨.now (.isTimedOut state p.key), now⟩ ∈ new

variable {p tr} {tr' : List Event} (h : tr ⊆ tr')
include h

theorem Found.mono {k : TxKind} {tx : BridgeTx} (hf : p.Found tr k tx) : p.Found tr' k tx := by
  cases k <;> exact h hf

theorem SaidWriteAck.mono {hash : String} {status : Ibcv2WriteAckStatus}
    (hs : p.SaidWriteAck tr hash status) : p.SaidWriteAck tr' hash status := by
  obtain ⟨ans, hm, he⟩ := hs
  exact ⟨ans, h hm, he⟩

theorem Priced.mono {k : TxKind} {hash : String} {cost : Numeric} (hp : p.Priced tr k hash cost) :
    p.Priced tr' k hash cost := by
  obtain ⟨coingeckoID, decimals, fee, hfee, hcost⟩ := hp
  exact ⟨coingeckoID, decimals, fee, h hfee, h hcost⟩

theorem Confirmed.mono {chainID : String} {k : TxKind} {hash : String}
    (hc : p.Confirmed tr chainID k hash) : p.Confirmed tr' chainID k hash := by
  rcases hc with ⟨e, t, hm⟩ | ⟨tx, hx, hf⟩
  · exact .inl ⟨e, t, h hm⟩
  · exact .inr ⟨tx, hx, hf.mono h⟩

omit h

variable {tr₀ : List Event} {state : Ibcv2RelayStatus} {now : Time}

theorem ReadSince.read (hr : p.ReadSince tr tr₀ state now) : p.ReadClock tr state now := by
  obtain ⟨new, rfl, hm⟩ := hr
  exact List.mem_append_left _ hm

theorem ReadSince.mono (h : tr <:+ tr') (hr : p.ReadSince tr tr₀ state now) :
    p.ReadSince tr' tr₀ state now := by
  obtain ⟨more, rfl⟩ := h
  obtain ⟨new, rfl, hm⟩ := hr
  exact ⟨more ++ new, (List.append_assoc ..).symm, List.mem_append_right _ hm⟩

theorem ReadSince.earlier {tr₁ : List Event} (h : tr₁ <:+ tr₀) (hr : p.ReadSince tr tr₀ state now) :
    p.ReadSince tr tr₁ state now := by
  obtain ⟨more, rfl⟩ := h
  obtain ⟨new, rfl, hm⟩ := hr
  exact ⟨new ++ more, (List.append_assoc ..).symm, List.mem_append_left _ hm⟩

end Packet

/-! ## Steps -/

/-- The processors take transfers that have no error and are not `FAILED`. -/
def IBCV2Transfer.Active (t : IBCV2Transfer) : Prop := t.processingError = none ∧ t.state ≠ .failed

/-- An ack with this status is relayed. -/
def PipelineOptions.relays (o : PipelineOptions) (s : Ibcv2WriteAckStatus) : Bool :=
  (isErrorAck s && o.shouldRelayErrorAcks) || (isSuccessAck s && o.shouldRelaySuccessAcks)

/-- The part of the guard of a batch processor that is about the transfer. -/
def Pipeline.Deliverable (pl : Pipeline) (t : IBCV2Transfer) : TxKind → Prop
  | .recv => t.has .recv = false
  | .ack => (∃ h s, t.writeAckTxHash = some h ∧ t.writeAckStatus = some s ∧
  pl.opts.relays s = true) ∧
      t.has .ack = false ∧ t.has .timeout = false
  | .timeout => t.has .recv = false ∧ t.has .ack = false ∧ t.has .timeout = false

/-- The transfer with a delivered tx: of a recv tx also the relayer address. -/
def IBCV2Transfer.record (k : TxKind) (tx : BridgeTx) (t : IBCV2Transfer) : IBCV2Transfer :=
  match k with
  | .recv => t.foundTx .recv tx
  | k => t.deliveredTx k tx

/-- The stage that delivers txs of a kind. -/
def batchStage : TxKind → Stage
  | .recv => .batchRecvPacket
  | .ack => .batchAckPacket
  | .timeout => .batchTimeoutPacket

/-- The stage that checks whether a tx of a kind has to be sent again. -/
def retryStage : TxKind → Stage
  | .recv => .retryRecvPacket
  | .ack => .retryAckPacket
  | .timeout => .retryTimeoutPacket

/-- The columns of a recorded tx. -/
def recorded (k : TxKind) (tx : BridgeTx) : SetClause :=
  .tx k (some tx.hash) (some tx.timestamp) (some tx.relayerAddress)

/-- The status a complete transfer ends in. -/
def IBCV2Transfer.finalState (t : IBCV2Transfer) : Ibcv2RelayStatus :=
  if t.has .timeout then .completeWithTimeout
  else if t.has .ack then .completeWithAck
  else if t.writeAckStatus = some .success then .completeWithWriteAckSuccess
  else .completeWithWriteAckError

/-- The row of a transfer whose write ack is final: the update that fills in no
key is for the row with the empty one. -/
def finalizedRow (t : IBCV2Transfer) (time : Time) (r : Ibcv2Transfer) : Ibcv2Transfer :=
  { r with writeAckTxFinalizedTime := if t.key = ⟨"", "", 0⟩ then some time
    else r.writeAckTxFinalizedTime }

/-- What a stage of a pipeline can do to a transfer and its row, given the
calls made so far. -/
inductive Life (pl : Pipeline) (tr : List Event) (st : Stage) :
    IBCV2Transfer × Ibcv2Transfer → IBCV2Transfer × Ibcv2Transfer → Prop where
  | enter {t r} (state) : t.Active → state.isFinished = false →
    Life pl tr st (t, r) ({ t with state := state }, (SetClause.status state).apply r)
  | fail {t r} (state err) : Life pl tr st (t, r) ({ t with state := state }.fail err, r)
  | found {t r} (k tx) : t.Active → t.packet.Found tr k tx →
    (k = .recv → t.has .recv = false) → t.has .ack = false → t.has .timeout = false →
    (k = .recv → st = .checkRecvPacketDelivery) →
    Life pl tr st (t, r) (t.foundTx k tx, (recorded k tx).apply r)
  | delivered {t r} (k tx) : t.Active → pl.Deliverable t k → st = batchStage k →
    (k = .timeout → ∃ now, t.packet.ReadClock tr .deliverTimeoutPacket now ∧
      t.packet.timeoutTimestamp < now) →
    (k = .recv → ∃ now, t.packet.ReadClock tr .deliverRecvPacket now ∧
      now ≤ t.packet.timeoutTimestamp) →
    Life pl tr st (t, r) (t.record k tx, (recorded k tx).apply r)
  | cleared {t r} (k err) : t.Active → t.has k = true → (k = .recv → t.writeAckTxHash = none) →
    (st = retryStage k ∨ k = .recv ∧ st = .waitForWriteAckPacket) →
    Life pl tr st (t, r) (t.fail err, (SetClause.clearTx k).apply r)
  | wroteAck {t r} (hash time status) : t.Active → t.recvTx.hash = some hash →
    t.writeAckTxHash = none →
    t.has .timeout = false → st = .waitForWriteAckPacket → t.packet.SaidWriteAck tr hash status →
    Life pl tr st (t, r) ({ t with writeAckTxHash := some hash, writeAckTxTime := some time,
                                   writeAckStatus := some status },
      (SetClause.writeAckTx (some hash) (some time) (some status)).apply r)
  | sendFinalized {t r} (time) :
    Life pl tr st (t, r) ({ t with sourceTxFinalizedTime := some time },
      (SetClause.sourceTxFinalizedTime (some time)).apply r)
  | writeAckFinalized {t r} (time) : t.Active → st = .checkWriteAckFinality →
    t.writeAckTxFinalizedTime = none →
    (∃ h s, t.writeAckTxHash = some h ∧ t.writeAckStatus = some s ∧ pl.opts.relays s = true) →
    Life pl tr st (t, r) ({ t with writeAckTxFinalizedTime := some time }, finalizedRow t time r)
  | priced {t r} (k cost hash) : t.Active → (t.tx k).hash = some hash →
    t.packet.Priced tr k hash cost →
    Life pl tr st (t, r) (t, (SetClause.txGasCostUSD k (some cost)).apply r)
  | finish {t r} : t.processingError = none →
    t.isComplete pl.opts.shouldRelaySuccessAcks pl.opts.shouldRelayErrorAcks = true →
    st = .stateFinisher →
    Life pl tr st (t, r) ({ t with state := t.finalState }, (SetClause.status t.finalState).apply r)

variable {pl : Pipeline} {tr tr' : List Event} {st : Stage} {x y : IBCV2Transfer × Ibcv2Transfer}

theorem Life.mono (h : tr ⊆ tr') (hl : Life pl tr st x y) : Life pl tr' st x y := by
  cases hl with
  | enter state ha hs => exact .enter state ha hs
  | fail state err => exact .fail state err
  | found k tx ha hf hr hk ht hs => exact .found k tx ha (hf.mono h) hr hk ht hs
  | delivered k tx ha hd hs ht hr =>
    exact .delivered k tx ha hd hs (fun hk => (ht hk).imp fun _ hn => ⟨h hn.1, hn.2⟩)
      fun hk => (hr hk).imp fun _ hn => ⟨h hn.1, hn.2⟩
  | cleared k err ha hk hw hs => exact .cleared k err ha hk hw hs
  | wroteAck hash time status ha hr hw ht hs he =>
    exact .wroteAck hash time status ha hr hw ht hs (he.mono h)
  | sendFinalized time => exact .sendFinalized time
  | writeAckFinalized time ha hs hn hw => exact .writeAckFinalized time ha hs hn hw
  | priced k cost hash ha hh hp => exact .priced k cost hash ha hh (hp.mono h)
  | finish he hc hs => exact .finish he hc hs

theorem Life.packet (hl : Life pl tr st x y) : y.1.packet = x.1.packet := by
  cases hl with
  | found k => cases k <;> rfl
  | delivered k => cases k <;> rfl
  | _ => rfl

theorem Life.key (hl : Life pl tr st x y) : y.1.key = x.1.key := congrArg Packet.key hl.packet

/-- A stage works only on a transfer that no stage before it failed; the
`StateFinisher` does not look at the state. -/
theorem Life.active (hl : Life pl tr st x y) (hst : st ≠ .stateFinisher)
    (hy : y.1.Active) : x.1.Active := by
  cases hl with
  | enter _ ha => exact ha
  | fail => exact absurd hy.1 (by simp [IBCV2Transfer.fail])
  | found _ _ ha => exact ha
  | delivered _ _ ha => exact ha
  | cleared _ _ ha => exact ha
  | wroteAck _ _ _ ha => exact ha
  | sendFinalized => exact hy
  | writeAckFinalized => exact hy
  | priced => exact hy
  | finish _ _ hs => exact absurd hs hst

/-! ## What a transfer keeps -/

namespace IBCV2Transfer

variable (t : IBCV2Transfer) (k : TxKind) (tx : BridgeTx)

@[simp] theorem hash_foundTx : ((t.foundTx k tx).tx k).hash = some tx.hash := by cases k <;> rfl

@[simp] theorem time_foundTx : ((t.foundTx k tx).tx k).time = some tx.timestamp := by
    cases k <;> rfl

@[simp] theorem hash_record : ((t.record k tx).tx k).hash = some tx.hash := by cases k <;> rfl

@[simp] theorem time_record : ((t.record k tx).tx k).time = some tx.timestamp := by cases k <;> rfl

variable {k}

theorem tx_foundTx_of_ne {j : TxKind} (h : j ≠ k) : (t.foundTx k tx).tx j = t.tx j := by
  rw [foundTx, tx_setTx, if_neg h]

theorem tx_record_of_ne {j : TxKind} (h : j ≠ k) : (t.record k tx).tx j = t.tx j := by
  cases k with
  | recv => exact t.tx_foundTx_of_ne tx h
  | ack => exact (t.tx_setTx .ack j _).trans (if_neg h)
  | timeout => exact (t.tx_setTx .timeout j _).trans (if_neg h)

@[simp] theorem writeAckTxHash_record : (t.record k tx).writeAckTxHash = t.writeAckTxHash := by
  cases k <;> rfl

@[simp] theorem writeAckStatus_record : (t.record k tx).writeAckStatus = t.writeAckStatus := by
  cases k <;> rfl

end IBCV2Transfer

theorem Pipeline.Deliverable.has {t : IBCV2Transfer} {k : TxKind} (h : pl.Deliverable t k) :
    t.has k = false := by
  cases k with
  | recv => exact h
  | ack => exact h.2.1
  | timeout => exact h.2.2

theorem has_of_not_found {t : IBCV2Transfer} {k : TxKind} (hr : k = .recv → t.has .recv = false)
    (hk : t.has .ack = false) (ht : t.has .timeout = false) : t.has k = false := by
  cases k with
  | recv => exact hr rfl
  | ack => exact hk
  | timeout => exact ht

/-- A transfer keeps the hash and the time of a tx that it has. -/
theorem Life.tx (hl : Life pl tr st x y) {j : TxKind} (hj : x.1.has j = true) :
    (y.1.tx j).hash = (x.1.tx j).hash ∧ (y.1.tx j).time = (x.1.tx j).time := by
  cases hl with
  | @found t r k tx ha hf hr hk ht =>
    have hne : j ≠ k := fun e => by simp [e, has_of_not_found hr hk ht] at hj
    exact ⟨by rw [t.tx_foundTx_of_ne tx hne], by rw [t.tx_foundTx_of_ne tx hne]⟩
  | @delivered t r k tx ha hd hs =>
    have hne : j ≠ k := fun e => by simp [e, hd.has] at hj
    exact ⟨by rw [t.tx_record_of_ne tx hne], by rw [t.tx_record_of_ne tx hne]⟩
  | _ => exact ⟨by cases j <;> rfl, by cases j <;> rfl⟩

theorem Life.has (hl : Life pl tr st x y) {j : TxKind}
    (hj : x.1.has j = true) : y.1.has j = true := by
  rw [IBCV2Transfer.has, (hl.tx hj).1]
  exact hj

/-- A write ack comes from one stage only. -/
theorem Life.writeAck (hl : Life pl tr st x y) (hst : st ≠ .waitForWriteAckPacket) :
    y.1.writeAckTxHash = x.1.writeAckTxHash ∧ y.1.writeAckStatus = x.1.writeAckStatus := by
  cases hl with
  | found k => cases k <;> exact ⟨rfl, rfl⟩
  | delivered k => cases k <;> exact ⟨rfl, rfl⟩
  | wroteAck _ _ _ _ _ _ _ hs => exact absurd hs hst
  | _ => exact ⟨rfl, rfl⟩

/-- A write ack stays as it is. -/
theorem Life.writeAck_of_some (hl : Life pl tr st x y) (hx : x.1.writeAckTxHash ≠ none) :
    y.1.writeAckTxHash = x.1.writeAckTxHash ∧ y.1.writeAckStatus = x.1.writeAckStatus := by
  cases hl with
  | found k => cases k <;> exact ⟨rfl, rfl⟩
  | delivered k => cases k <;> exact ⟨rfl, rfl⟩
  | wroteAck _ _ _ _ _ hw => exact absurd hw hx
  | _ => exact ⟨rfl, rfl⟩

/-- The time a write ack was final at stays. -/
theorem Life.finalized (hl : Life pl tr st x y) (hx : x.1.writeAckTxFinalizedTime ≠ none) :
    y.1.writeAckTxFinalizedTime ≠ none := by
  cases hl with
  | found k => cases k <;> exact hx
  | delivered k => cases k <;> exact hx
  | writeAckFinalized => exact Option.some_ne_none _
  | _ => exact hx

/-- An error stays. -/
theorem Life.clean (hl : Life pl tr st x y)
    (hy : y.1.processingError = none) : x.1.processingError = none := by
  cases hl with
  | enter _ ha => exact ha.1
  | fail => cases hy
  | found _ _ ha => exact ha.1
  | delivered _ _ ha => exact ha.1
  | cleared => cases hy
  | wroteAck _ _ _ ha => exact ha.1
  | finish he => exact he
  | _ => exact hy

/-- No stage but the last finishes a row. -/
theorem Life.unfinished (hl : Life pl tr st x y) (hst : st ≠ .stateFinisher)
    (hx : x.2.status.isFinished = false) : y.2.status.isFinished = false := by
  cases hl with
  | enter state _ hs => exact hs
  | finish _ _ hs => exact absurd hs hst
  | writeAckFinalized => exact hx
  | found k => cases k <;> exact hx
  | delivered k => cases k <;> exact hx
  | cleared k => cases k <;> exact hx
  | priced k => cases k <;> exact hx
  | _ => exact hx

/-! ## What a transfer takes notice of -/

/-- What an answered call says about a packet is in its transfer `t`, which was
loaded as `t₀`: a tx that was found, a write ack that was asked for, and a
finalized time that was written. -/
def Event.NoticedBy (t₀ t : IBCV2Transfer) : Event → Prop
  | ⟨.findRecvTx .., .ok _⟩ => t.has .recv = true
  | ⟨.findAckTx .., .ok _⟩ => t.has .ack = true
  | ⟨.findTimeoutTx .., .ok _⟩ => t.has .timeout = true
  | ⟨.packetWriteAckStatus .., ans⟩ =>
    t.writeAckTxHash ≠ none ∧ ∃ status, writeAckOf ans = some status ∧
      t.writeAckStatus = some status
  | ⟨.exec ⟨.writeAckTxFinalizedTime _, key⟩, .ok _⟩ =>
    key = ⟨"", "", 0⟩ ∧ t₀.writeAckTxFinalizedTime = none ∧ t.writeAckTxFinalizedTime ≠ none
  | _ => True

/-- A call whose answers there is nothing to notice in. -/
def Call.Plain (c : Call) : Prop := ∀ t₀ t ans, Event.NoticedBy t₀ t ⟨c, ans⟩

theorem Event.NoticedBy.mono {t₀ t t' : IBCV2Transfer} {e : Event} (he : e.NoticedBy t₀ t)
    (hhas : ∀ k, t.has k = true → t'.has k = true)
    (hack : t.writeAckTxHash ≠ none → t'.writeAckTxHash = t.writeAckTxHash ∧
      t'.writeAckStatus = t.writeAckStatus)
    (htime : t.writeAckTxFinalizedTime ≠ none → t'.writeAckTxFinalizedTime ≠ none) :
    e.NoticedBy t₀ t' := by
  obtain ⟨c, ans⟩ := e
  cases c with
  | findRecvTx =>
    cases ans with
    | ok => exact hhas .recv he
    | error => trivial
  | findAckTx =>
    cases ans with
    | ok => exact hhas .ack he
    | error => trivial
  | findTimeoutTx =>
    cases ans with
    | ok => exact hhas .timeout he
    | error => trivial
  | packetWriteAckStatus =>
    obtain ⟨hhash, hstatus⟩ := hack he.1
    exact ⟨hhash ▸ he.1, he.2.imp fun _ h => ⟨h.1, hstatus.trans h.2⟩⟩
  | exec q =>
    obtain ⟨set, key⟩ := q
    cases set with
    | writeAckTxFinalizedTime =>
      cases ans with
      | ok => exact ⟨he.1, he.2.1, htime he.2.2⟩
      | error => trivial
    | _ => trivial
  | _ => trivial

/-- What was noticed stays noticed. -/
theorem Event.NoticedBy.life {t₀ : IBCV2Transfer} {e : Event} (hl : Life pl tr st x y)
    (he : e.NoticedBy t₀ x.1) : e.NoticedBy t₀ y.1 :=
  he.mono (fun _ => hl.has) hl.writeAck_of_some hl.finalized

/-! ## Memory and row -/

/-- The row has the txs and the write ack of the transfer. -/
structure Synced (t : IBCV2Transfer) (r : Ibcv2Transfer) : Prop where
  hash (k : TxKind) : (t.tx k).hash = (r.tx k).hash
  time (k : TxKind) : (t.tx k).time = (r.tx k).time
  writeAckTxHash : t.writeAckTxHash = r.writeAckTxHash
  writeAckStatus : t.writeAckStatus = r.writeAckStatus

theorem Synced.load (r : Ibcv2Transfer) : Synced (newIBCV2Transfer r) r where
  hash k := by cases k <;> rfl
  time k := by cases k <;> rfl
  writeAckTxHash := rfl
  writeAckStatus := rfl

theorem tx_recorded (k j : TxKind) (tx : BridgeTx) (r : Ibcv2Transfer) :
    ((recorded k tx).apply r).tx j =
      if j = k then { r.tx k with
        hash := some tx.hash, time := some tx.timestamp, relayerAddress := some tx.relayerAddress }
      else r.tx j :=
  r.tx_setTx k j _

theorem Synced.recorded {t t' : IBCV2Transfer} {r : Ibcv2Transfer} {k : TxKind} {tx : BridgeTx}
    (h : Synced t r) (hash : (t'.tx k).hash = some tx.hash)
    (time : (t'.tx k).time = some tx.timestamp)
    (hne : ∀ j, j ≠ k → t'.tx j = t.tx j) (hw : t'.writeAckTxHash = t.writeAckTxHash)
    (hs : t'.writeAckStatus = t.writeAckStatus) : Synced t' ((recorded k tx).apply r) where
  hash j := by
    by_cases hj : j = k
    · subst hj; rw [hash, tx_recorded, if_pos rfl]
    · rw [hne j hj, tx_recorded, if_neg hj, h.hash]
  time j := by
    by_cases hj : j = k
    · subst hj; rw [time, tx_recorded, if_pos rfl]
    · rw [hne j hj, tx_recorded, if_neg hj, h.time]
  writeAckTxHash := by cases k <;> exact hw.trans h.writeAckTxHash
  writeAckStatus := by cases k <;> exact hs.trans h.writeAckStatus

/-- While it has no error, a transfer that was in sync with its row is so
after any step. -/
theorem Synced.life (hl : Life pl tr st x y) (h : x.1.processingError = none → Synced x.1 x.2)
    (hy : y.1.processingError = none) : Synced y.1 y.2 := by
  cases hl with
  | enter state ha =>
    have hs := h ha.1
    exact ⟨hs.hash, hs.time, hs.writeAckTxHash, hs.writeAckStatus⟩
  | fail => cases hy
  | @found t r k tx ha =>
    exact (h ha.1).recorded (t.hash_foundTx k tx) (t.time_foundTx k tx)
      (fun j hj => t.tx_foundTx_of_ne tx hj) (t.writeAckTxHash_setTx ..) (t.writeAckStatus_setTx ..)
  | @delivered t r k tx ha =>
    exact (h ha.1).recorded (t.hash_record k tx) (t.time_record k tx)
      (fun j hj => t.tx_record_of_ne tx hj)
      (t.writeAckTxHash_record tx) (t.writeAckStatus_record tx)
  | cleared => cases hy
  | wroteAck _ _ _ ha =>
    have hs := h ha.1
    exact ⟨hs.hash, hs.time, rfl, rfl⟩
  | sendFinalized =>
    have hs := h hy
    exact ⟨hs.hash, hs.time, hs.writeAckTxHash, hs.writeAckStatus⟩
  | writeAckFinalized _ ha =>
    have hs := h ha.1
    exact ⟨hs.hash, hs.time, hs.writeAckTxHash, hs.writeAckStatus⟩
  | priced k =>
    have hs := h hy
    refine ⟨fun j => ?_, fun j => ?_, ?_, ?_⟩
    · cases k <;> cases j <;> exact hs.hash _
    · cases k <;> cases j <;> exact hs.time _
    · cases k <;> exact hs.writeAckTxHash
    · cases k <;> exact hs.writeAckStatus
  | finish he =>
    have hs := h he
    exact ⟨hs.hash, hs.time, hs.writeAckTxHash, hs.writeAckStatus⟩

/-! ## Paths -/

/-- A transfer and its row come by steps of a stage from one point of a run to
a later one. -/
structure Reaches (pl : Pipeline) (st : Stage) (t : IBCV2Transfer) (s : Focus) (t' : IBCV2Transfer)
    (s' : Focus) : Prop where
  trace : s.trace <:+ s'.trace
  path : ReflTransGen (Life pl s'.trace st) (t, s.row) (t', s'.row)

namespace Reaches

variable {t t' t'' : IBCV2Transfer} {s s' s'' : Focus}

theorem refl (t : IBCV2Transfer) (s : Focus) : Reaches pl st t s t s := ⟨List.suffix_rfl, .refl⟩

theorem trans (h : Reaches pl st t s t' s')
    (h' : Reaches pl st t' s' t'' s'') : Reaches pl st t s t'' s'' := by
  have hm : Life pl s'.trace st ≤ Life pl s''.trace st := fun _ _ hl => hl.mono h'.trace.subset
  exact ⟨h.trace.trans h'.trace, (ReflTransGen.mono hm _ _ h.path).trans h'.path⟩

/-- One step, after a call. -/
theorem call (h : Reaches pl st t s t' s') (e : Event) {r : Ibcv2Transfer}
    (hl : Life pl (e :: s'.trace) st (t', s'.row) (t'', r)) :
    Reaches pl st t s t'' ⟨r, e :: s'.trace⟩ :=
  h.trans ⟨List.suffix_cons _ _, .single hl⟩

/-- A step without a call. -/
theorem step (h : Reaches pl st t s t' s') (hl : Life pl s'.trace st (t', s'.row) (t'', s'.row)) :
    Reaches pl st t s t'' s' :=
  h.trans ⟨List.suffix_rfl, .single hl⟩

/-- A call that changes nothing. -/
theorem idle (h : Reaches pl st t s t' s')
    (e : Event) : Reaches pl st t s t' ⟨s'.row, e :: s'.trace⟩ :=
  h.trans ⟨List.suffix_cons _ _, .refl⟩

/-- A statement on the row that took effect. -/
theorem exec {adm : (c : Call) → c.Ans → Focus → Prop} {K : TransferKey}
    (h : Reaches pl st t s t' s') {q : Query} (hq : q.key = K)
    (hl : Life pl (⟨.exec q, .ok ()⟩ :: s'.trace) st (t', s'.row) (t'', q.set.apply s'.row)) :
    Reaches pl st t s t'' ((focus K adm).next (.exec q) (.ok ()) s') := by
  rw [← Call.effectOn_exec hq] at hl
  exact h.call _ hl

/-- What every step of the stage keeps, a path keeps. -/
theorem keep (h : Reaches pl st t s t' s') {P : IBCV2Transfer × Ibcv2Transfer → Prop}
    (hP : ∀ x y, Life pl s'.trace st x y → P x → P y) (h₀ : P (t, s.row)) : P (t', s'.row) := by
  have path := h.path
  generalize (t', s'.row) = y at path ⊢
  induction path with
  | refl => exact h₀
  | tail _ hl ih => exact hP _ _ hl ih

theorem packet (h : Reaches pl st t s t' s') : t'.packet = t.packet :=
  h.keep (P := fun x => x.1.packet = t.packet) (fun _ _ hl hx => hl.packet.trans hx) rfl

theorem key (h : Reaches pl st t s t' s') : t'.key = t.key := congrArg Packet.key h.packet

theorem clean (h : Reaches pl st t s t' s')
    (ht' : t'.processingError = none) : t.processingError = none := by
  by_contra hne
  exact h.keep (P := fun x => x.1.processingError ≠ none)
    (fun _ _ hl hx hy => hx (hl.clean hy)) hne ht'

theorem synced (h : Reaches pl st t s t' s') (hs : t.processingError = none → Synced t s.row) :
    t'.processingError = none → Synced t' s'.row :=
  h.keep (P := fun x => x.1.processingError = none → Synced x.1 x.2)
    (fun _ _ hl hx => Synced.life hl hx) hs

end Reaches

end PlatformRelayer

import PlatformRelayer.Proof.Rows

/-!
# The course of a packet

A `PacketPhase` is how far a packet has got on the chains, by this relayer or
by another one, and `Course.missing` what is left to deliver of it. In the
world of `Course.sem` every call succeeds, the chains answer truly and execute
what is delivered, nobody else acts on the packet, everything that is asked for
is final, and the clock stays on one side of the packet's timeout.

What the stages do in it is said by what the transfer shows. After the first
two it shows every tx that the packet has on chain (`CaughtUp`), and after the
wait for the write ack its status too (`UpToDate`). The stages of this module
deliver nothing.
-/

namespace PlatformRelayer

open Db Prog

/-! ## The life of a packet on chain -/

/-- How far a packet has got, with its txs on chain. -/
inductive PacketPhase where
  | sent
  | received (recvTx : BridgeTx) (status : Ibcv2WriteAckStatus)
  | acknowledged (recvTx : BridgeTx) (status : Ibcv2WriteAckStatus) (ackTx : BridgeTx)
  | timedOut (timeoutTx : BridgeTx)
deriving DecidableEq

namespace PacketPhase

def tx : PacketPhase → TxKind → Option BridgeTx
  | .received recvTx _, .recv => some recvTx
  | .acknowledged recvTx _ _, .recv => some recvTx
  | .acknowledged _ _ ackTx, .ack => some ackTx
  | .timedOut timeoutTx, .timeout => some timeoutTx
  | _, _ => none

def hash (phase : PacketPhase) (k : TxKind) : Option String := (phase.tx k).map (·.hash)

def status : PacketPhase → Option Ibcv2WriteAckStatus
  | .received _ status => some status
  | .acknowledged _ status _ => some status
  | _ => none

/-- A tx for the packet is executed. If it comes out of turn, it does nothing. -/
def deliver (status : Ibcv2WriteAckStatus) : PacketPhase → TxKind → BridgeTx → PacketPhase
  | .sent, .recv, tx => .received tx status
  | .sent, .timeout, tx => .timedOut tx
  | .received recvTx status, .ack, tx => .acknowledged recvTx status tx
  | phase, _, _ => phase

/-- The status of a row whose packet has nothing left to deliver. -/
def finalStatus : PacketPhase → Option Ibcv2RelayStatus
  | .sent => none
  | .received _ .success => some .completeWithWriteAckSuccess
  | .received _ _ => some .completeWithWriteAckError
  | .acknowledged .. => some .completeWithAck
  | .timedOut _ => some .completeWithTimeout

/-- A search for the tx of a kind finds it where there is one. -/
def Finds (phase : PacketPhase) (k : TxKind) (a : Except Err BridgeTx) : Prop :=
  match phase.tx k with
  | some tx => a = .ok tx
  | none => ∃ err, a = .error err

end PacketPhase

/-- The hash of a tx can be put into a request. -/
def IsTxHash (hash : String) : Prop := ∃ bytes, decodeTxHash hash = .ok bytes

/-- What the course of a packet depends on: how the application on the
destination chain answers it, and whether the clock is past its timeout. -/
structure Course where
  packet : Packet
  status : Ibcv2WriteAckStatus
  late : Bool

/-- What the relayer has to deliver. -/
def Course.missing (C : Course) (o : PipelineOptions) : PacketPhase → List TxKind
  | .sent => if C.late then [.timeout] else .recv :: if o.relays C.status then [.ack] else []
  | .received _ status => if o.relays status then [.ack] else []
  | .acknowledged .. => []
  | .timedOut _ => []

/-! ## The world of a packet -/

/-- From where to where a msg of a kind goes: chain and client, twice. -/
def Packet.route (p : Packet) : TxKind → PipelineKey
  | .recv => ⟨p.sourceChainID, p.sourceClientID, p.destinationChainID, p.destinationClientID⟩
  | _ => ⟨p.destinationChainID, p.destinationClientID, p.sourceChainID, p.sourceClientID⟩

/-- The tx that is delivered has a msg for the packet. -/
def Packet.IsIn (p : Packet) (sub : Submission) : Prop :=
  p.sequenceNumber.toUInt64 ∈ sub.request.packetSequences ∧
    ⟨sub.request.srcChain, sub.request.srcClientId, sub.request.dstChain, sub.request.dstClientId⟩ =
    p.route sub.kind

instance (p : Packet) (sub : Submission) : Decidable (p.IsIn sub) :=
  inferInstanceAs (Decidable (_ ∧ _))

/-- The row of the packet, its phase, and the kinds of the txs that were
delivered for it. -/
structure Scene where
  row : Ibcv2Transfer
  phase : PacketPhase
  delivered : List TxKind := []

namespace Course

variable (C : Course)

/-- Every call succeeds, and what is said of the packet is true: a tx that it
has on chain is not to be sent again, and is final. -/
def Says (phase : PacketPhase) : (c : Call) → c.Ans → Prop
  | .now _, now => decide (C.packet.timeoutTimestamp < now) = C.late
  | .chainType _, _ => True
  | .collect _, _ => True
  | .addRelayCompleted .., _ => True
  | .isPacketReceived chainID clientID n, a => chainID = C.packet.destinationChainID →
      clientID = C.packet.destinationClientID → n = C.packet.sequenceNumber.toUInt64 →
      a = .ok (phase.tx .recv).isSome
  | .isPacketCommitted chainID clientID n, a => chainID = C.packet.sourceChainID →
  clientID = C.packet.sourceClientID →
      n = C.packet.sequenceNumber.toUInt64 →
      a = .ok ((phase.tx .ack).isNone && (phase.tx .timeout).isNone)
  | .findRecvTx chainID sourceClientID destClientID n _, a =>
  chainID = C.packet.destinationChainID →
      sourceClientID = C.packet.sourceClientID → destClientID = C.packet.destinationClientID →
      n = C.packet.sequenceNumber.toUInt64 → phase.Finds .recv a
  | .findAckTx chainID sourceClientID destClientID n, a => chainID = C.packet.sourceChainID →
      sourceClientID = C.packet.sourceClientID → destClientID = C.packet.destinationClientID →
      n = C.packet.sequenceNumber.toUInt64 → phase.Finds .ack a
  | .findTimeoutTx chainID sourceClientID destClientID n, a => chainID = C.packet.sourceChainID →
      sourceClientID = C.packet.sourceClientID → destClientID = C.packet.destinationClientID →
      n = C.packet.sequenceNumber.toUInt64 → phase.Finds .timeout a
  | .packetWriteAckStatus chainID hash n sourceClientID destClientID, a =>
  chainID = C.packet.destinationChainID →
      n = C.packet.sequenceNumber.toUInt64 → sourceClientID = C.packet.sourceClientID →
      destClientID = C.packet.destinationClientID → phase.hash .recv = some hash →
      ∀ status, phase.status = some status → a = .ok status
  | .shouldRetryTx _ hash _ _, a => (∃ k, phase.hash k = some hash) → a = .ok false
  | .isTxFinalized .., a => a = .ok true
  | .isTimestampFinalized .., a => a = .ok true
  | .getClient _, a => a = .ok ()
  | .waitForChain _, a => a = .ok ()
  | .deliverTx .., a => ∃ tx, a = .ok tx ∧ IsTxHash tx.hash
  | .txFee .., a => ∃ fee, a = .ok fee
  | .relayByTx _, a => ∃ resp, a = .ok resp
  | .getCoinUsdValue .., a => ∃ cost, a = .ok cost
  | .exec _, a => a = .ok ()
  | .txBegin, a => a = .ok ()
  | .txExec _, a => a = .ok ()
  | .txCommit _, a => a = .ok ()
  | .txRollback, a => a = .ok ()

/-- A delivered tx is executed at once. -/
def advance (c : Call) (a : c.Ans) (s : Scene) : PacketPhase × List TxKind :=
  match c, a with
  | .deliverTx _ _ _ sub, .ok tx =>
    if C.packet.IsIn sub then (s.phase.deliver C.status sub.kind tx, s.delivered ++ [sub.kind])
    else (s.phase, s.delivered)
  | _, _ => (s.phase, s.delivered)

def sem : Sem Call Call.Ans Scene where
  adm c a s := C.Says s.phase c a
  next c a s := ⟨c.effectOn C.packet.key a s.row, (C.advance c a s).1, (C.advance c a s).2⟩

/-- Every call can be answered so. -/
theorem exists_says (phase : PacketPhase) (c : Call) : ∃ a, C.Says phase c a := by
  have hfinds (k : TxKind) : ∃ a, phase.Finds k a := by
    cases h : phase.tx k with
    | some tx => exact ⟨.ok tx, by rw [PacketPhase.Finds, h]⟩
    | none => exact ⟨.error (newErr "not found"), by rw [PacketPhase.Finds, h]; exact ⟨_, rfl⟩⟩
  cases c with
  | now =>
    cases hl : C.late with
    | true => exact ⟨C.packet.timeoutTimestamp + 1, (decide_eq_true (Int.lt_succ _)).trans hl.symm⟩
    | false => exact ⟨C.packet.timeoutTimestamp, (decide_eq_false (Int.lt_irrefl _)).trans hl.symm⟩
  | chainType => exact ⟨.cosmos, trivial⟩
  | collect t => exact ⟨⟨([], []), by simp⟩, trivial⟩
  | addRelayCompleted => exact ⟨(), trivial⟩
  | isPacketReceived => exact ⟨_, fun _ _ _ => rfl⟩
  | isPacketCommitted => exact ⟨_, fun _ _ _ => rfl⟩
  | findRecvTx => exact (hfinds .recv).imp fun _ h _ _ _ _ => h
  | findAckTx => exact (hfinds .ack).imp fun _ h _ _ _ _ => h
  | findTimeoutTx => exact (hfinds .timeout).imp fun _ h _ _ _ _ => h
  | packetWriteAckStatus =>
    refine ⟨.ok (phase.status.getD .unknown), fun _ _ _ _ _ status h => ?_⟩
    rw [h]
    rfl
  | shouldRetryTx => exact ⟨_, fun _ => rfl⟩
  | deliverTx => exact ⟨.ok ⟨"", 0, ""⟩, _, rfl, [], rfl⟩
  | txFee => exact ⟨_, 0, rfl⟩
  | relayByTx => exact ⟨_, ⟨[], ""⟩, rfl⟩
  | getCoinUsdValue => exact ⟨_, ⟨0, 0⟩, rfl⟩
  | _ => exact ⟨_, rfl⟩

end Course

/-! ## Stages -/

/-- Between two points of a run nothing was delivered for the packet. -/
structure Scene.Stays (s s' : Scene) : Prop where
  phase : s'.phase = s.phase
  delivered : s'.delivered = s.delivered

/-- What was delivered and what is missing make up `todo`. -/
def Course.OnTrack (C : Course) (o : PipelineOptions) (todo : List TxKind) (s : Scene) : Prop :=
  s.delivered ++ C.missing o s.phase = todo

theorem Course.OnTrack.stays {C : Course} {o : PipelineOptions} {todo : List TxKind} {s s' : Scene}
    (h : C.OnTrack o todo s) (hs : s.Stays s') : C.OnTrack o todo s' := by
  rw [OnTrack, hs.phase, hs.delivered]
  exact h

section Passes

variable {C : Course} {pl : Pipeline} {todo : List TxKind}
  {P Q R : IBCV2Transfer → PacketPhase → Prop}
  {stages stages' : List Stage} {st : Stage}

/-- The stages pass a transfer on, from `P` to `Q`. -/
def Course.Passes (C : Course) (pl : Pipeline) (todo : List TxKind) (stages : List Stage)
    (P Q : IBCV2Transfer → PacketPhase → Prop) : Prop :=
  ∀ t s, P t s.phase → C.OnTrack pl.opts todo s → wp C.sem (fun _ _ => True) (runStages pl stages t)
    (fun o s' => (∃ t', o = some t' ∧ Q t' s'.phase) ∧ C.OnTrack pl.opts todo s') s

namespace Course.Passes

theorem nil : C.Passes pl todo [] P P := fun t _ ht hs => ⟨⟨t, rfl, ht⟩, hs⟩

theorem append (h : C.Passes pl todo stages P Q) (h' : C.Passes pl todo stages' Q R) :
    C.Passes pl todo (stages ++ stages') P R := by
  intro t s ht hs
  refine wp_runStages_append ((h t s ht hs).post ?_)
  rintro _ s' ⟨⟨t', rfl, ht'⟩, hs'⟩
  exact ⟨by simp, fun u hu => Option.some.inj hu ▸ h' t' s' ht' hs'⟩

theorem cons (h : C.Passes pl todo [st] P Q) (h' : C.Passes pl todo stages Q R) :
    C.Passes pl todo (st :: stages) P R := h.append h'

theorem ite (h : C.Passes pl todo stages P P)
    (b : Bool) : C.Passes pl todo (if b then stages else []) P P := by
  split
  · exact h
  · exact nil

/-- A stage with a processor of single transfers, which delivers nothing. -/
theorem single {proc : IBCV2Processor} (hp : st.processor pl = .single proc)
    (hactive : ∀ t phase, P t phase → t.Active)
    (hproc : ∀ t s, P t s.phase → wp C.sem (fun _ _ => True) (proc.shouldProcess t)
      (fun should s₁ => s.Stays s₁ ∧ (should = false → Q t s.phase) ∧ (should = true →
        ∀ s₂ : Scene, s₂.phase = s.phase →
        wp C.sem (fun _ _ => True) (proc.process { t with state := proc.state })
          (fun o s' => s₂.Stays s' ∧ ∃ t', o = .ok t' ∧ Q t' s₂.phase) s₂)) s) :
          C.Passes pl todo [st] P Q := by
  intro t s ht hs
  refine wp_bind.mpr (wp_single hp (wp_mw (fun hn => absurd (hactive t _ ht) hn) fun _ =>
    (hproc t s ht).post ?_))
  rintro should s₁ ⟨hstay, hskip, hgo⟩
  refine ⟨fun hf => ?_, fun ht => ⟨trivial, ?_, ?_⟩⟩
  · exact ⟨⟨t, rfl, hstay.phase ▸ hskip hf⟩, hs.stays hstay⟩
  · -- The database answers.
    rintro err ⟨⟩
  · refine (hgo ht (C.sem.next (.exec (updateTransferState proc.state t.key)) (.ok ()) s₁)
      hstay.phase).post ?_
    rintro _ s' ⟨hstay', t', rfl, ht'⟩
    refine ⟨by simp, ?_⟩
    rintro _ ⟨⟩
    exact ⟨⟨t', rfl, hstay'.phase ▸ ht'⟩,
      hs.stays ⟨hstay'.phase.trans hstay.phase, hstay'.delivered.trans hstay.delivered⟩⟩

/-- The same with a guard that reads the transfer only. -/
theorem pure {proc : IBCV2Processor} {g : IBCV2Transfer → Bool}
    (hp : st.processor pl = .single proc)
    (hg : ∀ t, proc.shouldProcess t = .ret (g t)) (hactive : ∀ t phase, P t phase → t.Active)
    (hskip : ∀ t phase, P t phase → g t = false → Q t phase)
    (hproc : ∀ t s, P t s.phase → g t = true → wp C.sem (fun _ _ => True)
      (proc.process { t with state := proc.state })
      (fun o s' => s.Stays s' ∧ ∃ t', o = .ok t' ∧ Q t' s.phase) s) : C.Passes pl todo [st] P Q :=
  single hp hactive fun t s ht => by
    rw [hg]
    exact ⟨⟨rfl, rfl⟩, hskip t _ ht, fun h s₂ hs₂ => hproc t s₂ (hs₂ ▸ ht) h⟩

end Course.Passes

end Passes

/-! ## What the transfer shows -/

/-- The transfer says nothing of the packet that is not so. -/
structure InStep (C : Course) (t : IBCV2Transfer) (phase : PacketPhase) : Prop where
  active : t.Active
  packet : t.packet = C.packet
  source : IsTxHash C.packet.sourceTxHash
  late : phase.tx .timeout ≠ none → C.late = true
  recvHash (h : String) : phase.hash .recv = some h → IsTxHash h
  tx (k : TxKind) : (t.tx k).hash = none ∨ (t.tx k).hash = phase.hash k
  ack_recv : t.has .ack = true → t.has .recv = true
  writeAck : (t.writeAckTxHash = none ∧ t.writeAckStatus = none) ∨
    (t.has .recv = true ∧ t.writeAckTxHash = phase.hash .recv ∧ t.writeAckStatus = phase.status)

/-- It shows all txs of the packet. -/
structure CaughtUp (C : Course) (t : IBCV2Transfer)
    (phase : PacketPhase) : Prop extends InStep C t phase where
  shows (k : TxKind) : (t.tx k).hash = phase.hash k

/-- It shows the write ack, too. -/
structure UpToDate (C : Course) (t : IBCV2Transfer)
    (phase : PacketPhase) : Prop extends CaughtUp C t phase where
  showsAck : t.writeAckTxHash = phase.hash .recv ∧ t.writeAckStatus = phase.status

section InStep

variable {C : Course} {t : IBCV2Transfer} {phase : PacketPhase} {k : TxKind}

theorem InStep.shows_of_has (h : InStep C t phase)
    (hk : t.has k = true) : (t.tx k).hash = phase.hash k := by
  refine (h.tx k).resolve_left fun hn => ?_
  rw [IBCV2Transfer.has, hn] at hk
  cases hk

theorem InStep.shows_of_none (h : InStep C t phase)
    (hk : phase.tx k = none) : (t.tx k).hash = phase.hash k := by
  rcases h.tx k with hn | he
  · rw [hn, PacketPhase.hash, hk]
    rfl
  · exact he

theorem InStep.has_of_none (h : InStep C t phase) (hk : phase.tx k = none) : t.has k = false := by
  rw [IBCV2Transfer.has, h.shows_of_none hk, PacketPhase.hash, hk]
  rfl

theorem InStep.sourceTxHash (h : InStep C t phase) : IsTxHash t.sourceTxHash := by
  rw [show t.sourceTxHash = C.packet.sourceTxHash from congrArg Packet.sourceTxHash h.packet]
  exact h.source

theorem CaughtUp.has (h : CaughtUp C t phase) (k : TxKind) : t.has k = (phase.tx k).isSome := by
  rw [IBCV2Transfer.has, h.shows k, PacketPhase.hash, Option.isSome_map]

/-- Two transfers that say the same of the packet. -/
structure IBCV2Transfer.SaysAs (t t' : IBCV2Transfer) : Prop where
  packet : t'.packet = t.packet
  tx (k : TxKind) : (t'.tx k).hash = (t.tx k).hash
  writeAckTxHash : t'.writeAckTxHash = t.writeAckTxHash
  writeAckStatus : t'.writeAckStatus = t.writeAckStatus

theorem IBCV2Transfer.SaysAs.enter (t : IBCV2Transfer)
    (state : Ibcv2RelayStatus) : t.SaysAs { t with state := state } :=
  ⟨rfl, fun k => by cases k <;> rfl, rfl, rfl⟩

variable {t' : IBCV2Transfer} (hv : t.SaysAs t') (ha : t'.Active)
include hv ha

theorem InStep.congr (h : InStep C t phase) : InStep C t' phase := by
  have hhas (k : TxKind) : t'.has k = t.has k := congrArg Option.isSome (hv.tx k)
  refine ⟨ha, hv.packet.trans h.packet, h.source, h.late, h.recvHash, fun k => ?_, ?_, ?_⟩
  · rw [hv.tx]
    exact h.tx k
  · rw [hhas, hhas]
    exact h.ack_recv
  · rw [hhas, hv.writeAckTxHash, hv.writeAckStatus]
    exact h.writeAck

theorem CaughtUp.congr (h : CaughtUp C t phase) : CaughtUp C t' phase :=
  ⟨h.toInStep.congr hv ha, fun k => (hv.tx k).trans (h.shows k)⟩

theorem UpToDate.congr (h : UpToDate C t phase) : UpToDate C t' phase :=
  ⟨h.toCaughtUp.congr hv ha, hv.writeAckTxHash.trans h.showsAck.1,
    hv.writeAckStatus.trans h.showsAck.2⟩

end InStep

/-! ## The first stages -/

section Stages

variable {C : Course} {pl : Pipeline} {todo : List TxKind}

theorem PacketPhase.finds_some {phase : PacketPhase} {k : TxKind} {tx : BridgeTx}
    {a : Except Err BridgeTx} (hk : phase.tx k = some tx) (h : phase.Finds k a) : a = .ok tx := by
  rwa [PacketPhase.Finds, hk] at h

theorem PacketPhase.finds_none {phase : PacketPhase} {k : TxKind} {a : Except Err BridgeTx}
    (hk : phase.tx k = none) (h : phase.Finds k a) : ∃ err, a = .error err := by
  rwa [PacketPhase.Finds, hk] at h

/-- A tx of the packet that was found on chain. -/
theorem InStep.found {t : IBCV2Transfer} {phase : PacketPhase} {k : TxKind} {tx : BridgeTx}
    (h : InStep C t phase) (hk : phase.tx k = some tx)
    (hr : k = .ack → t.has .recv = true) : InStep C (t.foundTx k tx) phase := by
  have htx (j : TxKind) : ((t.foundTx k tx).tx j).hash = if j = k then phase.hash k
      else (t.tx j).hash := by
    rw [IBCV2Transfer.foundTx, IBCV2Transfer.tx_setTx]
    split
    · rw [PacketPhase.hash, hk]
      rfl
    · rfl
  have hhas (j : TxKind) (hj : t.has j = true) : (t.foundTx k tx).has j = true := by
    rw [IBCV2Transfer.has, htx]
    split
    · rw [PacketPhase.hash, hk]
      rfl
    · exact hj
  refine ⟨?_, ?_, h.source, h.late, h.recvHash, fun j => ?_, fun ha => ?_, ?_⟩
  · cases k <;> exact h.active
  · cases k <;> exact h.packet
  · rw [htx]
    split
    · rename_i hj
      exact .inr (hj ▸ rfl)
    · exact h.tx j
  · by_cases hj : k = .ack
    · exact hhas _ (hr hj)
    · refine hhas _ (h.ack_recv ?_)
      rwa [IBCV2Transfer.has, htx, if_neg (Ne.symm hj)] at ha
  · rcases h.writeAck with hw | hw
    · left
      cases k <;> exact hw
    · right
      refine ⟨hhas _ hw.1, ?_⟩
      cases k <;> exact hw.2

theorem passes_checkRecv : C.Passes pl todo [.checkRecvPacketDelivery] (InStep C)
    (fun t phase => InStep C t phase ∧ (t.tx .recv).hash = phase.hash .recv) := by
  refine .pure rfl (fun _ => rfl) (fun _ _ h => h.active) (fun t phase h hg => ⟨h, ?_⟩)
    fun t s h hg => ?_
  · cases hr : t.has .recv with
    | true => exact h.shows_of_has hr
    | false =>
      have hk : t.has .ack = false := by
        cases hk : t.has .ack with
        | true => exact absurd ((h.ack_recv hk).symm.trans hr) (by simp)
        | false => rfl
      have ht : t.has .timeout = true := by simpa [hr, hk] using hg
      refine h.shows_of_none ?_
      have := h.shows_of_has ht
      cases phase <;> simp_all [PacketPhase.tx, PacketPhase.hash, IBCV2Transfer.has]
  have hr : t.recvTx.hash = none := by
    simp only [Bool.and_eq_true, Bool.not_eq_true', IBCV2Transfer.has] at hg
    exact Option.isSome_eq_false_iff.mp hg.1.1 |> Option.isNone_iff_eq_none.mp
  have hp := h.packet
  have h' := h.congr (.enter t .checkRecvPacketDelivery) ⟨h.active.1, by simp⟩
  refine wp_try ⟨trivial, fun ans hans => ?_⟩
  obtain rfl : ans = .ok () := hans
  refine of_ok (wp_try ⟨trivial, fun ans hans => ?_⟩)
  obtain rfl : ans = .ok (s.phase.tx .recv).isSome :=
    hans (congrArg Packet.destinationChainID hp) (congrArg Packet.destinationClientID hp)
      (congrArg (·.sequenceNumber.toUInt64) hp)
  refine of_ok ?_
  cases hk : s.phase.tx .recv with
  | none =>
    refine ⟨⟨rfl, rfl⟩, _, rfl, h', ?_⟩
    rw [PacketPhase.hash, hk]
    exact hr
  | some tx =>
  refine wp_try ⟨trivial, fun ans hans => ?_⟩
  obtain rfl : ans = .ok tx := PacketPhase.finds_some hk
    (hans (congrArg Packet.destinationChainID hp)
    (congrArg Packet.sourceClientID hp) (congrArg Packet.destinationClientID hp)
    (congrArg (·.sequenceNumber.toUInt64) hp))
  refine of_ok (wp_try ⟨trivial, fun ans hans => ?_⟩)
  obtain rfl : ans = .ok () := hans
  refine of_ok ⟨⟨rfl, rfl⟩, _, rfl, h'.found hk (by simp), ?_⟩
  rw [PacketPhase.hash, hk]
  rfl

/-- The txs that a packet can have at once. -/
theorem PacketPhase.ack_or_timeout (phase : PacketPhase) : phase.tx .ack = none ∨
    phase.tx .timeout = none := by
  cases phase <;> simp [PacketPhase.tx]

theorem CaughtUp.found {t : IBCV2Transfer} {phase : PacketPhase} {k : TxKind} {tx : BridgeTx}
    (h : InStep C t phase) (hk : phase.tx k = some tx) (hr : k = .ack → t.has .recv = true)
    (hother : ∀ j, j ≠ k → (t.tx j).hash = phase.hash j) : CaughtUp C (t.foundTx k tx) phase := by
  refine ⟨h.found hk hr, fun j => ?_⟩
  rw [IBCV2Transfer.foundTx, IBCV2Transfer.tx_setTx]
  split
  · rename_i hj
    rw [hj, PacketPhase.hash, hk]
    rfl
  · rename_i hj
    exact hother j hj

theorem passes_checkInitialCommitment : C.Passes pl todo [.checkInitialPacketCommitment]
    (fun t phase => InStep C t phase ∧ (t.tx .recv).hash = phase.hash .recv) (CaughtUp C) := by
  refine .pure rfl (fun _ => rfl) (fun _ _ h => h.1.active) (fun t phase h hg => ?_)
    fun t s h hg => ?_
  · obtain ⟨h, hr⟩ := h
    have hsome {k : TxKind} (hk : t.has k = true) : phase.tx k ≠ none := fun hn => by
      rw [h.has_of_none hn] at hk
      cases hk
    have hk : t.has .ack = true ∨ t.has .timeout = true := by
      cases hk : t.has .ack with
      | true => exact .inl rfl
      | false => exact .inr (by simpa [hk] using hg)
    refine ⟨h, fun k => ?_⟩
    rcases hk with hk | hk
    · have ht := phase.ack_or_timeout.resolve_left (hsome hk)
      cases k with
      | recv => exact hr
      | ack => exact h.shows_of_has hk
      | timeout => exact h.shows_of_none ht
    · have ha := phase.ack_or_timeout.resolve_right (hsome hk)
      cases k with
      | recv => exact hr
      | ack => exact h.shows_of_none ha
      | timeout => exact h.shows_of_has hk
  obtain ⟨h, hr⟩ := h
  simp only [Bool.and_eq_true, Bool.not_eq_true', IBCV2Transfer.has, Option.isSome_eq_false_iff,
    Option.isNone_iff_eq_none] at hg
  have hp := h.packet
  have hn : t.sequence = C.packet.sequenceNumber.toUInt64 := congrArg (·.sequenceNumber.toUInt64) hp
  have h' := h.congr (.enter t .checkAckPacketDelivery) ⟨h.active.1, by simp⟩
  refine wp_try ⟨trivial, fun ans hans => ?_⟩
  obtain rfl : ans = .ok () := hans
  refine of_ok (wp_try ⟨trivial, fun ans hans => ?_⟩)
  obtain rfl : ans = .ok ((s.phase.tx .ack).isNone && (s.phase.tx .timeout).isNone) :=
    hans (congrArg Packet.sourceChainID hp) (congrArg Packet.sourceClientID hp) hn
  refine of_ok ?_
  by_cases hc : s.phase.tx .ack = none ∧ s.phase.tx .timeout = none
  · rw [if_pos (by simp [hc])]
    refine ⟨⟨rfl, rfl⟩, _, rfl, h', fun k => ?_⟩
    cases k with
    | recv => exact hr
    | ack => exact h.shows_of_none hc.1
    | timeout => exact h.shows_of_none hc.2
  rw [if_neg (by simpa using hc)]
  refine ⟨trivial, fun ackTx hack => ⟨trivial, fun timeoutTx htimeout => ?_⟩⟩
  have hack := hack (congrArg Packet.sourceChainID hp) (congrArg Packet.sourceClientID hp)
    (congrArg Packet.destinationClientID hp) hn
  have htimeout := htimeout (congrArg Packet.sourceChainID hp) (congrArg Packet.sourceClientID hp)
    (congrArg Packet.destinationClientID hp) hn
  cases hk : s.phase.tx .ack with
  | some tx =>
    have ht : s.phase.tx .timeout = none := s.phase.ack_or_timeout.resolve_left (by simp [hk])
    have hrecv : t.has .recv = true := by
      rw [IBCV2Transfer.has, hr]
      cases hphase : s.phase <;> rw [hphase] at hk <;> simp_all [PacketPhase.tx, PacketPhase.hash]
    obtain rfl : ackTx = .ok tx := PacketPhase.finds_some hk hack
    obtain ⟨err, rfl⟩ : ∃ err, timeoutTx = .error err := PacketPhase.finds_none ht htimeout
    refine wp_try ⟨trivial, fun ans hans => ?_⟩
    obtain rfl : ans = .ok () := hans
    refine of_ok ⟨⟨rfl, rfl⟩, _, rfl, CaughtUp.found h' hk (fun _ => hrecv) fun j hj => ?_⟩
    cases j with
    | recv => exact hr
    | ack => exact absurd rfl hj
    | timeout => exact h.shows_of_none ht
  | none =>
    obtain ⟨tx, ht⟩ := Option.ne_none_iff_exists'.mp fun ht => hc ⟨hk, ht⟩
    obtain ⟨err, rfl⟩ : ∃ err, ackTx = .error err := PacketPhase.finds_none hk hack
    obtain rfl : timeoutTx = .ok tx := PacketPhase.finds_some ht htimeout
    refine wp_try ⟨trivial, fun ans hans => ?_⟩
    obtain rfl : ans = .ok () := hans
    refine of_ok ⟨⟨rfl, rfl⟩, _, rfl, CaughtUp.found h' ht (by simp) fun j hj => ?_⟩
    cases j with
    | recv => exact hr
    | ack => exact h.shows_of_none hk
    | timeout => exact absurd rfl hj

theorem passes_sendFinality :
    C.Passes pl todo [.checkSendPacketFinality] (CaughtUp C) (CaughtUp C) := by
  refine .pure rfl (fun _ => rfl) (fun _ _ h => h.active) (fun _ _ h _ => h) fun t s h _ => ?_
  have h' := h.congr (.enter t .awaitingSendFinality) ⟨h.active.1, by simp⟩
  refine wp_try ⟨trivial, fun ans hans => ?_⟩
  obtain rfl : ans = .ok () := hans
  refine of_ok (wp_try ⟨trivial, fun ans hans => ?_⟩)
  obtain rfl : ans = .ok true := hans
  refine of_ok ?_
  change wp _ _ (if t.sourceTxFinalizedTime.isSome then _ else _) _ _
  split
  · exact ⟨⟨rfl, rfl⟩, _, rfl, h'⟩
  refine ⟨trivial, fun now _ => wp_try ⟨trivial, fun ans hans => ?_⟩⟩
  obtain rfl : ans = .ok () := hans
  have hv : t.SaysAs { t with state := .awaitingSendFinality, sourceTxFinalizedTime := some now } :=
    ⟨rfl, fun k => by cases k <;> rfl, rfl, rfl⟩
  exact of_ok ⟨⟨rfl, rfl⟩, _, rfl, h.congr hv h'.active⟩

theorem passes_timeoutFinality :
    C.Passes pl todo [.checkTimeoutTimestampFinality] (CaughtUp C) (CaughtUp C) := by
  refine .single rfl (fun _ _ h => h.active) fun t s h =>
    ⟨trivial, fun now _ => ⟨⟨rfl, rfl⟩, fun _ => h, ?_⟩⟩
  intro _ s₂ hs₂
  have h' := h.congr (.enter t .awaitingTimeoutFinality) ⟨h.active.1, by simp⟩
  refine wp_try ⟨trivial, fun ans hans => ?_⟩
  obtain rfl : ans = .ok () := hans
  refine of_ok (wp_try ⟨trivial, fun ans hans => ?_⟩)
  obtain rfl : ans = .ok true := hans
  exact of_ok ⟨⟨rfl, rfl⟩, _, rfl, hs₂ ▸ h'⟩

/-- A retry processor, of a tx that the packet has on chain. -/
theorem passes_retryShown {st : Stage} {P : IBCV2Transfer → PacketPhase → Prop} {proc : RetryPacket}
    (hp : st.processor pl = .single proc.processor)
    (hup : ∀ t phase, P t phase → CaughtUp C t phase)
    (henter : ∀ t phase, P t phase → P { t with state := proc.state } phase)
    (hhas : ∀ t, proc.shouldProcess t = true → t.has proc.kind = true ∧
      (t.tx proc.kind).time ≠ none) :
    C.Passes pl todo [st] P P := by
  refine .pure hp (fun _ => rfl) (fun t phase h => (hup t phase h).active) (fun _ _ h _ => h)
    fun t s h hg => ?_
  obtain ⟨hash, hh⟩ := Option.isSome_iff_exists.mp (hhas t hg).1
  obtain ⟨time, htime⟩ := Option.ne_none_iff_exists'.mp (hhas t hg).2
  refine wp_try ⟨trivial, fun ans hans => ?_⟩
  obtain rfl : ans = .ok () := hans
  refine of_ok ?_
  have htx : IBCV2Transfer.tx { t with state := proc.processor.state } proc.kind = t.tx
      proc.kind := by
    cases proc.kind <;> rfl
  rw [htx, hh, htime]
  refine wp_try ⟨trivial, fun ans hans => ?_⟩
  obtain rfl : ans = .ok false := hans ⟨proc.kind, ((hup t _ h).shows proc.kind).symm.trans hh⟩
  exact of_ok ⟨⟨rfl, rfl⟩, _, rfl, henter t _ h⟩

/-- A gas calculator. -/
theorem passes_gasCost {st : Stage} {P : IBCV2Transfer → PacketPhase → Prop}
    {proc : TxGasCalculator}
    (hp : st.processor pl = .single proc.processor) (hactive : ∀ t phase, P t phase → t.Active)
    (henter : ∀ t phase, P t phase → P { t with state := proc.state } phase) :
    C.Passes pl todo [st] P P := by
  refine .pure hp (fun _ => rfl) hactive (fun _ _ h _ => h) fun t s h hg => ?_
  have hh : t.has proc.kind = true := by
    split at hg
    · cases hg
    · exact hg
  obtain ⟨hash, hh⟩ := Option.isSome_iff_exists.mp hh
  refine wp_try ⟨trivial, fun ans hans => ?_⟩
  obtain rfl : ans = .ok () := hans
  refine of_ok ?_
  have htx : IBCV2Transfer.tx { t with state := proc.processor.state } proc.kind = t.tx
      proc.kind := by
    cases proc.kind <;> rfl
  rw [htx, hh]
  refine wp_try ⟨trivial, fun ans hans => ?_⟩
  obtain ⟨fee, rfl⟩ : ∃ fee, ans = .ok fee := hans
  refine of_ok (wp_try ⟨trivial, fun ans hans => ?_⟩)
  obtain ⟨cost, rfl⟩ : ∃ cost, ans = .ok cost := hans
  refine of_ok (wp_try ⟨trivial, fun ans hans => ?_⟩)
  obtain rfl : ans = .ok () := hans
  exact of_ok ⟨⟨rfl, rfl⟩, _, rfl, henter t _ h⟩

theorem passes_writeAck : C.Passes pl todo [.waitForWriteAckPacket]
    (fun t phase => CaughtUp C t phase ∧ phase ≠ .sent) (fun t phase => UpToDate C t phase ∧
      phase ≠ .sent) := by
  refine .pure rfl (fun _ => rfl) (fun _ _ h => h.1.active) (fun t phase h hg => ⟨⟨h.1, ?_⟩, h.2⟩)
    fun t s h hg => ?_
  · obtain ⟨h, -⟩ := h
    rcases h.writeAck with hw | hw
    · -- Without a write ack there is no recv tx.
      have hr : t.has .recv = false := by
        cases hr : t.has .recv with
        | false => rfl
        | true =>
          have ht : t.has .timeout = true := by simpa [hr, hw.1] using hg
          rw [h.has] at hr ht
          cases phase <;> simp [PacketPhase.tx] at hr ht
      rw [h.has] at hr
      cases phase <;> simp_all [PacketPhase.tx, PacketPhase.hash, PacketPhase.status]
    · exact hw.2
  obtain ⟨h, hsent⟩ := h
  simp only [Bool.and_eq_true, Option.isNone_iff_eq_none] at hg
  have hp := h.packet
  have h' := h.congr (.enter t .waitForWriteAck) ⟨h.active.1, by simp⟩
  obtain ⟨hash, hh⟩ := Option.isSome_iff_exists.mp hg.1.1
  have hhash : s.phase.hash .recv = some hash := (h.shows .recv).symm.trans hh
  obtain ⟨status, hstatus⟩ : ∃ status, s.phase.status = some status := by
    cases hphase : s.phase <;> rw [hphase] at hhash <;> simp_all [PacketPhase.tx, PacketPhase.hash,
      PacketPhase.status]
  refine wp_try ⟨trivial, fun ans hans => ?_⟩
  obtain rfl : ans = .ok () := hans
  refine of_ok ?_
  split
  · rename_i hn
    exact absurd (hn.symm.trans hh) (by simp)
  rename_i hash₁ hh₁
  obtain rfl : hash = hash₁ := Option.some.inj (hh.symm.trans hh₁)
  refine ⟨trivial, fun ans hans => ?_⟩
  obtain rfl : ans = .ok status := hans (congrArg Packet.destinationChainID hp)
    (congrArg (·.sequenceNumber.toUInt64) hp) (congrArg Packet.sourceClientID hp)
    (congrArg Packet.destinationClientID hp) hhash status hstatus
  refine ⟨trivial, fun _ _ => wp_try ⟨trivial, fun ans hans => ?_⟩⟩
  obtain rfl : ans = .ok () := hans
  refine of_ok ⟨⟨rfl, rfl⟩, _, rfl, ⟨⟨?_, h'.shows⟩, hhash.symm, hstatus.symm⟩, hsent⟩
  exact { h'.toInStep with writeAck := .inr ⟨hg.1.1, hhash.symm, hstatus.symm⟩ }

theorem passes_writeAckFinality : C.Passes pl todo [.checkWriteAckFinality]
    (fun t phase => UpToDate C t phase ∧ phase ≠ .sent) (fun t phase => UpToDate C t phase ∧
      phase ≠ .sent) := by
  refine .pure rfl (fun _ => rfl) (fun _ _ h => h.1.active) (fun _ _ h _ => h) fun t s h hg => ?_
  obtain ⟨h, hsent⟩ := h
  have h' := h.congr (.enter t .awaitingWriteAckFinality) ⟨h.active.1, by simp⟩
  have hw : t.writeAckTxHash ≠ none := fun hn => by simp [hn] at hg
  obtain ⟨hash, hh⟩ := Option.ne_none_iff_exists'.mp hw
  refine wp_try ⟨trivial, fun ans hans => ?_⟩
  obtain rfl : ans = .ok () := hans
  refine of_ok ?_
  split
  · rename_i hn
    exact absurd (hn.symm.trans hh) (by simp)
  refine wp_try ⟨trivial, fun ans hans => ?_⟩
  obtain rfl : ans = .ok true := hans
  refine of_ok ?_
  change wp _ _ (if t.writeAckTxFinalizedTime.isSome then _ else _) _ _
  split
  · exact ⟨⟨rfl, rfl⟩, _, rfl, h', hsent⟩
  refine ⟨trivial, fun now _ => wp_try ⟨trivial, fun ans hans => ?_⟩⟩
  obtain rfl : ans = .ok () := hans
  have hv : t.SaysAs
      { t with state := .awaitingWriteAckFinality, writeAckTxFinalizedTime := some now } :=
    ⟨rfl, fun k => by cases k <;> rfl, rfl, rfl⟩
  exact of_ok ⟨⟨rfl, rfl⟩, _, rfl, h.congr hv h'.active, hsent⟩

/-- Where the transfer shows neither an ack nor a timeout, the packet is still
committed. -/
theorem passes_checkPostReceiveCommitment : C.Passes pl todo [.checkPostReceivePacketCommitment]
    (fun t phase => UpToDate C t phase ∧ phase ≠ .sent) (fun t phase => UpToDate C t phase ∧
      phase ≠ .sent) := by
  refine .pure rfl (fun _ => rfl) (fun _ _ h => h.1.active) (fun _ _ h _ => h) fun t s h hg => ?_
  obtain ⟨h, hsent⟩ := h
  have hp := h.packet
  have h' := h.congr (.enter t .checkAckPacketDelivery) ⟨h.active.1, by simp⟩
  rw [h.has, h.has] at hg
  refine wp_try ⟨trivial, fun ans hans => ?_⟩
  obtain rfl : ans = .ok () := hans
  refine of_ok (wp_try ⟨trivial, fun ans hans => ?_⟩)
  obtain rfl : ans = .ok ((s.phase.tx .ack).isNone && (s.phase.tx .timeout).isNone) :=
    hans (congrArg Packet.sourceChainID hp) (congrArg Packet.sourceClientID hp)
      (congrArg (·.sequenceNumber.toUInt64) hp)
  refine of_ok ?_
  rw [if_pos (by simpa using hg)]
  exact ⟨⟨rfl, rfl⟩, _, rfl, h', hsent⟩

end Stages

end PlatformRelayer

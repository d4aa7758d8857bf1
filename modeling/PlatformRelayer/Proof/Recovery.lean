import PlatformRelayer.Proof.Rows

/-!
# Recovery of a packet that another relayer delivered

The packet has been received and acknowledged (`History`), and every call is
answered truthfully. A row with nothing to retry is complete after one run: the
first stages find the recv and the ack tx, and from there on each stage passes
the transfer on (`Passes`). No other row is (`recovers_iff`), if it has no
timeout tx: what a run that completes it has met (`Met`) is that there was
nothing to retry. One that has an ack tx and no recv tx is left as it is by
every run, since `CheckRecvPacketDelivery` skips it (`not_recovered`).
-/

namespace PlatformRelayer

open Db Prog

/-- What happened on chain: the tx that has the packet's write ack, the ack tx,
the status of the ack, the txs that need not be retried, and those that are
final. -/
structure History where
  recvTx : BridgeTx
  ackTx : BridgeTx
  writeAck : Ibcv2WriteAckStatus
  landed : String → Bool
  final : String → Bool
  recv_landed : landed recvTx.hash = true
  ack_landed : landed ackTx.hash = true

/-- The answers of the chains are true of the packet, and every other call
succeeds. A recv tx other than that with the write ack was a no-op. -/
def History.Says (H : History) (p : Packet) : (c : Call) → c.Ans → Prop
  | .now _, _ => True
  | .chainType _, _ => True
  | .collect _, _ => True
  | .addRelayCompleted .., _ => True
  | .isPacketReceived chainID clientID n, a => chainID = p.destinationChainID →
  clientID = p.destinationClientID →
      n = p.sequenceNumber.toUInt64 → a = .ok true
  | .isPacketCommitted chainID clientID n, a => chainID = p.sourceChainID →
  clientID = p.sourceClientID →
      n = p.sequenceNumber.toUInt64 → a = .ok false
  | .findRecvTx chainID sourceClientID destClientID n _, a => chainID = p.destinationChainID →
      sourceClientID = p.sourceClientID → destClientID = p.destinationClientID →
      n = p.sequenceNumber.toUInt64 → a = .ok H.recvTx
  | .findAckTx chainID sourceClientID destClientID n, a => chainID = p.sourceChainID →
      sourceClientID = p.sourceClientID → destClientID = p.destinationClientID →
      n = p.sequenceNumber.toUInt64 → a = .ok H.ackTx
  | .findTimeoutTx chainID sourceClientID destClientID n, a => chainID = p.sourceChainID →
      sourceClientID = p.sourceClientID → destClientID = p.destinationClientID →
      n = p.sequenceNumber.toUInt64 → ∃ err, a = .error err
  | .packetWriteAckStatus chainID hash n sourceClientID destClientID, a =>
  chainID = p.destinationChainID →
      n = p.sequenceNumber.toUInt64 → sourceClientID = p.sourceClientID →
      destClientID = p.destinationClientID → if hash = H.recvTx.hash then a = .ok H.writeAck
      else ∃ err, a = .error err ∧ err.is .errWriteAckNotFoundForPacket = true
  | .shouldRetryTx _ hash _ _, a => a = .ok (!H.landed hash)
  | .isTxFinalized _ hash _, a => a = .ok (H.final hash)
  | .isTimestampFinalized .., a => ∃ b, a = .ok b
  | .getClient _, a => a = .ok ()
  | .waitForChain _, a => a = .ok ()
  | .deliverTx .., a => ∃ tx, a = .ok tx
  | .txFee .., a => ∃ fee, a = .ok fee
  | .relayByTx _, a => ∃ resp, a = .ok resp
  | .getCoinUsdValue .., a => ∃ cost, a = .ok cost
  | .exec _, a => a = .ok ()
  | .txBegin, a => a = .ok ()
  | .txExec _, a => a = .ok ()
  | .txCommit _, a => a = .ok ()
  | .txRollback, a => a = .ok ()

def History.truthful (H : History) (p : Packet) (c : Call) (a : c.Ans) (_ : Focus) : Prop :=
  H.Says p c a

/-- A transfer on its way to completion: there is nothing to retry. -/
structure Recovering (H : History) (p : Packet) (opts : PipelineOptions)
    (t : IBCV2Transfer) : Prop where
  active : t.Active
  packet : t.packet = p
  timeout : t.has .timeout = false
  ack (h : String) : t.ackTx.hash = some h → H.landed h = true
  ack_recv : t.has .ack = true → t.has .recv = true
  recv (h : String) : t.recvTx.hash = some h → t.writeAckTxHash = none → h = H.recvTx.hash
  status : t.writeAckTxHash = none ↔ t.writeAckStatus = none
  final (h : String) (s : Ibcv2WriteAckStatus) : t.writeAckTxHash.getD H.recvTx.hash = h →
    t.writeAckStatus.getD H.writeAck = s → opts.relays s = true → H.final h = true

namespace Recovering

variable {H : History} {p : Packet} {opts : PipelineOptions} {t : IBCV2Transfer}
  (h : Recovering H p opts t)
include h

theorem enter (state : Ibcv2RelayStatus)
    (hs : state ≠ .failed) : Recovering H p opts { t with state := state } :=
  ⟨⟨h.active.1, hs⟩, h.packet, h.timeout, h.ack, h.ack_recv, h.recv, h.status, h.final⟩

theorem foundRecv : Recovering H p opts (t.foundTx .recv H.recvTx) where
  active := h.active
  packet := h.packet
  timeout := h.timeout
  ack := h.ack
  ack_recv _ := rfl
  recv _ hh _ := (Option.some.inj hh).symm
  status := h.status
  final := h.final

theorem foundAck (hr : t.has .recv = true) : Recovering H p opts (t.foundTx .ack H.ackTx) where
  active := h.active
  packet := h.packet
  timeout := h.timeout
  ack _ hh := Option.some.inj hh ▸ H.ack_landed
  ack_recv _ := hr
  recv := h.recv
  status := h.status
  final := h.final

theorem wroteAck (hw : t.writeAckTxHash = none) (time : Option Time) : Recovering H p opts { t with
    writeAckTxHash := some H.recvTx.hash, writeAckTxTime := time, writeAckStatus :=
  some H.writeAck } where
  active := h.active
  packet := h.packet
  timeout := h.timeout
  ack := h.ack
  ack_recv := h.ack_recv
  recv _ _ := by simp
  status := iff_of_false (by simp) (by simp)
  final w s hh hs := h.final w s (by rw [hw]; exact hh) (by rw [h.status.mp hw]; exact hs)

theorem writeAckFinalized (time : Option Time) :
    Recovering H p opts { t with writeAckTxFinalizedTime := time } :=
  ⟨h.active, h.packet, h.timeout, h.ack, h.ack_recv, h.recv, h.status, h.final⟩

end Recovering

section Passes

variable {H : History} {p : Packet} {pl : Pipeline} {K : TransferKey} {P Q R : IBCV2Transfer → Prop}
  {stages stages' : List Stage} {st : Stage}

/-- The stages pass a transfer on, from `P` to `Q`. -/
def Passes (H : History) (p : Packet) (K : TransferKey) (pl : Pipeline) (stages : List Stage)
    (P Q : IBCV2Transfer → Prop) : Prop :=
  ∀ t s, P t → wp (focus K (H.truthful p)) (fun _ _ => True) (runStages pl stages t)
    (fun o _ => ∃ t', o = some t' ∧ Q t') s

theorem Passes.nil : Passes H p K pl [] P P := fun t _ ht => ⟨t, rfl, ht⟩

theorem Passes.append (h : Passes H p K pl stages P Q) (h' : Passes H p K pl stages' Q R) :
    Passes H p K pl (stages ++ stages') P R := by
  refine fun t s ht => wp_runStages_append ((h t s ht).post ?_)
  rintro _ s' ⟨t', rfl, ht'⟩
  exact ⟨by simp, fun u hu => Option.some.inj hu ▸ h' t' s' ht'⟩

theorem Passes.cons (h : Passes H p K pl [st] P Q) (h' : Passes H p K pl stages Q R) :
    Passes H p K pl (st :: stages) P R := h.append h'

theorem Passes.ite (h : Passes H p K pl stages P P) (b : Bool) :
    Passes H p K pl (if b then stages else []) P P := by
  split
  · exact h
  · exact .nil

/-- A stage with a processor of single transfers. -/
theorem Passes.single {proc : IBCV2Processor} (hp : st.processor pl = .single proc)
    (hactive : ∀ t, P t → t.Active)
    (hproc : ∀ t s, P t → wp (focus K (H.truthful p)) (fun _ _ => True) (proc.shouldProcess t)
      (fun should _ => (should = false → Q t) ∧
        (should = true → ∀ s', wp (focus K (H.truthful p)) (fun _ _ => True)
        (proc.process { t with state := proc.state }) (fun o _ => ∃ t', o = .ok t' ∧ Q t') s')) s) :
    Passes H p K pl [st] P Q := by
  intro t s ht
  refine wp_bind.mpr (wp_single hp (wp_mw (fun hn => absurd (hactive t ht) hn) fun _ =>
    (hproc t s ht).post fun should s' hs =>
      ⟨fun hf => ⟨t, rfl, hs.1 hf⟩, fun hgo => ⟨trivial, ?_, ?_⟩⟩))
  · -- The database answers.
    rintro err ⟨⟩
  · refine (hs.2 hgo _).post ?_
    rintro _ _ ⟨t', rfl, ht'⟩
    refine ⟨by simp, ?_⟩
    rintro _ ⟨⟩
    exact ⟨t', rfl, ht'⟩

/-- The same with a guard that reads the transfer only. -/
theorem Passes.pure {proc : IBCV2Processor} {g : IBCV2Transfer → Bool}
    (hp : st.processor pl = .single proc)
    (hg : ∀ t, proc.shouldProcess t = .ret (g t)) (hactive : ∀ t, P t → t.Active)
    (hskip : ∀ t, P t → g t = false → Q t)
    (hproc : ∀ t s, P t → g t = true → wp (focus K (H.truthful p)) (fun _ _ => True)
      (proc.process { t with state := proc.state }) (fun o _ => ∃ t', o = .ok t' ∧ Q t') s) :
    Passes H p K pl [st] P Q :=
  .single hp hactive fun t _ ht => by
    rw [hg]
    exact ⟨hskip t ht, fun h s => hproc t s ht h⟩

/-- A guard that is false. -/
theorem Passes.skip {proc : IBCV2Processor} {g : IBCV2Transfer → Bool}
    (hp : st.processor pl = .single proc)
    (hg : ∀ t, proc.shouldProcess t = .ret (g t)) (hactive : ∀ t, P t → t.Active)
    (hskip : ∀ t, P t → g t = false) : Passes H p K pl [st] P P :=
  .pure hp hg hactive (fun _ ht _ => ht) fun t _ ht h =>
    absurd ((hskip t ht).symm.trans h) (by simp)

/-- A batch stage that does not take the transfer. -/
theorem Passes.forward {proc : BatchPacket} (hp : st.processor pl = .batch proc)
    (hproc : ∀ t s, P t → wp (focus K (H.truthful p)) (fun _ _ => True) (proc.shouldProcess t)
      (fun should _ => should = false) s) : Passes H p K pl [st] P P := by
  intro t s ht
  refine wp_bind.mpr ?_
  rw [Stage.process, hp]
  refine wp_bind.mpr ?_
  rw [BatchPacket.forward]
  split
  · exact ⟨t, rfl, ht⟩
  · refine (hproc t s ht).post ?_
    rintro _ _ rfl
    exact ⟨t, rfl, ht⟩

end Passes

/-! ## The stages -/

section Stages

variable {H : History} {p : Packet} {pl : Pipeline} {K : TransferKey}

theorem passes_checkRecvPacketDelivery :
    Passes H p K pl [.checkRecvPacketDelivery] (Recovering H p pl.opts)
    (fun t => Recovering H p pl.opts t ∧ t.has .recv = true) := by
  refine .pure rfl (fun _ => rfl) (fun _ h => h.active) (fun t h hg => ⟨h, ?_⟩) fun t s h _ => ?_
  · cases hr : t.has .recv with
    | true => rfl
    | false =>
      have hk : t.has .ack = true := by simpa [hr, h.timeout] using hg
      exact absurd ((h.ack_recv hk).symm.trans hr) (by simp)
  have hp := h.packet
  subst hp
  refine wp_try ⟨trivial, fun ans hans => ?_⟩
  obtain rfl : ans = .ok () := hans
  refine of_ok (wp_try ⟨trivial, fun ans hans => ?_⟩)
  obtain rfl : ans = .ok true := hans rfl rfl rfl
  refine of_ok ?_
  refine wp_try ⟨trivial, fun ans hans => ?_⟩
  obtain rfl : ans = .ok H.recvTx := hans rfl rfl rfl rfl
  refine of_ok ?_
  refine wp_try ⟨trivial, fun ans hans => ?_⟩
  obtain rfl : ans = .ok () := hans
  exact of_ok ⟨_, rfl, (h.enter .checkRecvPacketDelivery (by simp)).foundRecv, rfl⟩

/-- A transfer with its recv and its ack tx. -/
def Delivered (H : History) (p : Packet) (opts : PipelineOptions) (t : IBCV2Transfer) : Prop :=
  Recovering H p opts t ∧ t.has .recv = true ∧ t.has .ack = true

theorem passes_checkInitialPacketCommitment : Passes H p K pl [.checkInitialPacketCommitment]
    (fun t => Recovering H p pl.opts t ∧ t.has .recv = true) (Delivered H p pl.opts) := by
  refine .pure rfl (fun _ => rfl) (fun _ h => h.1.active) (fun t h hg => ⟨h.1, h.2, ?_⟩)
    fun t s h _ => ?_
  · simpa [h.1.timeout] using hg
  obtain ⟨h, hr⟩ := h
  have hp := h.packet
  subst hp
  refine wp_try ⟨trivial, fun ans hans => ?_⟩
  obtain rfl : ans = .ok () := hans
  refine of_ok (wp_try ⟨trivial, fun ans hans => ?_⟩)
  obtain rfl : ans = .ok false := hans rfl rfl rfl
  refine of_ok ?_
  refine ⟨trivial, fun ackTx hack => ⟨trivial, fun timeoutTx htimeout => ?_⟩⟩
  obtain rfl : ackTx = .ok H.ackTx := hack rfl rfl rfl rfl
  obtain ⟨err, rfl⟩ : ∃ err, timeoutTx = .error err := htimeout rfl rfl rfl rfl
  refine wp_try ⟨trivial, fun ans hans => ?_⟩
  obtain rfl : ans = .ok () := hans
  exact of_ok ⟨_, rfl, (h.enter .checkAckPacketDelivery (by simp)).foundAck hr, hr, rfl⟩

theorem Delivered.active {opts : PipelineOptions} {t : IBCV2Transfer}
    (h : Delivered H p opts t) : t.Active := h.1.active

theorem passes_checkSendPacketFinality :
    Passes H p K pl [.checkSendPacketFinality] (Delivered H p pl.opts) (Delivered H p pl.opts) :=
  .skip rfl (fun _ => rfl) (fun _ h => h.active) fun t h => by simp [h.2.1]

theorem passes_checkTimeoutTimestampFinality :
    Passes H p K pl [.checkTimeoutTimestampFinality] (Delivered H p pl.opts)
      (Delivered H p pl.opts) :=
  .single rfl (fun _ h => h.active) fun t _ h =>
    ⟨trivial, fun _ _ => ⟨fun _ => h, fun hg => by simp [h.2.1] at hg⟩⟩

theorem passes_batchTimeoutPacket :
    Passes H p K pl [.batchTimeoutPacket] (Delivered H p pl.opts) (Delivered H p pl.opts) :=
  .forward rfl fun t _ h => ⟨trivial, fun now _ => by
    change (decide (t.packetTimeoutTimestamp < now) && !t.has .recv && !t.has .ack && !t.has
      .timeout) = false
    simp [h.2.1]⟩

theorem passes_retryTimeoutPacket :
    Passes H p K pl [.retryTimeoutPacket] (Delivered H p pl.opts) (Delivered H p pl.opts) :=
  .skip rfl (fun _ => rfl) (fun _ h => h.active) fun t h => by simp [h.1.timeout]

theorem passes_batchRecvPacket :
    Passes H p K pl [.batchRecvPacket] (Delivered H p pl.opts) (Delivered H p pl.opts) :=
  .forward rfl fun t _ h => by
    change wp _ _ (if t.has .recv then _ else _) _ _
    rw [if_pos h.2.1]
    rfl

/-- A retry processor, of a tx that landed. -/
theorem passes_retry {st : Stage} {P : IBCV2Transfer → Prop} {proc : RetryPacket}
    (hp : st.processor pl = .single proc.processor) (hactive : ∀ t, P t → t.Active)
    (henter : ∀ t, P t → P { t with state := proc.state })
    (hlanded : ∀ t, P t → proc.shouldProcess t = true → ∃ h time, (t.tx proc.kind).hash = some h ∧
      (t.tx proc.kind).time = some time ∧ H.landed h = true) : Passes H p K pl [st] P P := by
  refine .pure hp (fun _ => rfl) hactive (fun _ ht _ => ht) fun t s ht hg => ?_
  obtain ⟨h, time, hh, htime, hl⟩ := hlanded t ht hg
  refine wp_try ⟨trivial, fun ans hans => ?_⟩
  obtain rfl : ans = .ok () := hans
  refine of_ok ?_
  have hh' : (IBCV2Transfer.tx { t with state := proc.state } proc.kind).hash = some h := by
    cases hk : proc.kind <;> rw [hk] at hh <;> exact hh
  have htime' : (IBCV2Transfer.tx { t with state := proc.state } proc.kind).time = some time := by
    cases hk : proc.kind <;> rw [hk] at htime <;> exact htime
  split
  · rename_i hn
    exact absurd (hn.symm.trans hh') (by simp)
  rename_i h₁ hh₁
  obtain rfl : h = h₁ := Option.some.inj (hh'.symm.trans hh₁)
  split
  · rename_i hn
    exact absurd (hn.symm.trans htime') (by simp)
  refine wp_try ⟨trivial, fun ans hans => ?_⟩
  obtain rfl : ans = .ok (!H.landed h) := hans
  rw [hl]
  refine of_ok ?_
  exact ⟨_, rfl, henter t ht⟩

/-- A gas calculator. -/
theorem passes_gas {st : Stage} {P : IBCV2Transfer → Prop} {proc : TxGasCalculator}
    (hp : st.processor pl = .single proc.processor) (hactive : ∀ t, P t → t.Active)
    (henter : ∀ t, P t → P { t with state := proc.state }) : Passes H p K pl [st] P P := by
  refine .pure hp (fun _ => rfl) hactive (fun _ ht _ => ht) fun t s ht hg => ?_
  refine wp_try ⟨trivial, fun ans hans => ?_⟩
  obtain rfl : ans = .ok () := hans
  refine of_ok ?_
  split
  · rename_i hn
    have hn' : t.has proc.kind = false := by
      rw [IBCV2Transfer.has]
      cases hk : proc.kind <;> rw [hk] at hn <;> exact congrArg Option.isSome hn
    rw [hn'] at hg
    simp at hg
  refine wp_try ⟨trivial, fun ans hans => ?_⟩
  obtain ⟨fee, rfl⟩ : ∃ fee, ans = .ok fee := hans
  refine of_ok (wp_try ⟨trivial, fun ans hans => ?_⟩)
  obtain ⟨cost, rfl⟩ : ∃ cost, ans = .ok cost := hans
  refine of_ok (wp_try ⟨trivial, fun ans hans => ?_⟩)
  obtain rfl : ans = .ok () := hans
  exact of_ok ⟨_, rfl, henter t ht⟩

theorem Delivered.enter {opts : PipelineOptions} {t : IBCV2Transfer} (h : Delivered H p opts t)
    (state : Ibcv2RelayStatus)
    (hs : state ≠ .failed) : Delivered H p opts { t with state := state } :=
  ⟨h.1.enter state hs, h.2⟩

theorem passes_retryRecvPacket :
    Passes H p K pl [.retryRecvPacket] (Delivered H p pl.opts) (Delivered H p pl.opts) := by
  refine passes_retry rfl (fun _ h => h.active) (fun _ h => h.enter _ (by simp)) fun t h hg => ?_
  simp only [Bool.and_eq_true, Option.isNone_iff_eq_none] at hg
  obtain ⟨hash, hh⟩ := Option.isSome_iff_exists.mp h.2.1
  obtain ⟨time, ht⟩ := Option.isSome_iff_exists.mp hg.1.2
  exact ⟨hash, time, hh, ht, h.1.recv hash hh hg.2 ▸ H.recv_landed⟩

/-- A transfer with its recv tx, its ack tx and its write ack. -/
def Acked (H : History) (p : Packet) (opts : PipelineOptions) (t : IBCV2Transfer) : Prop :=
  Delivered H p opts t ∧ t.writeAckTxHash ≠ none

theorem Acked.active {opts : PipelineOptions} {t : IBCV2Transfer}
    (h : Acked H p opts t) : t.Active := h.1.active

theorem Acked.enter {opts : PipelineOptions} {t : IBCV2Transfer} (h : Acked H p opts t)
    (state : Ibcv2RelayStatus)
    (hs : state ≠ .failed) : Acked H p opts { t with state := state } := ⟨h.1.enter state hs, h.2⟩

theorem passes_waitForWriteAckPacket :
    Passes H p K pl [.waitForWriteAckPacket] (Delivered H p pl.opts) (Acked H p pl.opts) := by
  refine .pure rfl (fun _ => rfl) (fun _ h => h.active) (fun t h hg => ⟨h, ?_⟩) fun t s h hg => ?_
  · exact Option.isSome_iff_ne_none.mp (by simpa [h.2.1, h.1.timeout] using hg)
  have hw : t.writeAckTxHash = none := by
    simp only [Bool.and_eq_true, Option.isNone_iff_eq_none] at hg
    exact hg.1.2
  obtain ⟨hash, hh⟩ := Option.isSome_iff_exists.mp h.2.1
  obtain rfl := h.1.recv hash hh hw
  have hp := h.1.packet
  subst hp
  refine wp_try ⟨trivial, fun ans hans => ?_⟩
  obtain rfl : ans = .ok () := hans
  refine of_ok ?_
  split
  · rename_i hn
    exact absurd (hn.symm.trans hh) (by simp)
  rename_i h₁ hh₁
  obtain rfl : H.recvTx.hash = h₁ := Option.some.inj (hh.symm.trans hh₁)
  refine ⟨trivial, fun ans hans => ?_⟩
  have hans' := hans rfl rfl rfl rfl
  rw [if_pos rfl] at hans'
  obtain rfl : ans = .ok H.writeAck := hans'
  refine ⟨trivial, fun _ _ => wp_try ⟨trivial, fun ans hans => ?_⟩⟩
  obtain rfl : ans = .ok () := hans
  exact of_ok ⟨_, rfl, ⟨(h.1.enter .waitForWriteAck (by simp)).wroteAck hw _, h.2⟩, by simp⟩

theorem passes_checkWriteAckFinality :
    Passes H p K pl [.checkWriteAckFinality] (Acked H p pl.opts) (Acked H p pl.opts) := by
  refine .pure rfl (fun _ => rfl) (fun _ h => h.active) (fun _ h _ => h) fun t s h hg => ?_
  have h' := h.enter .awaitingWriteAckFinality (by simp)
  obtain ⟨hash, hh⟩ := Option.ne_none_iff_exists'.mp h.2
  obtain ⟨status, hs⟩ := Option.ne_none_iff_exists'.mp (mt h.1.1.status.mpr h.2)
  have hrel : pl.opts.relays status = true := by simpa [hh, hs, PipelineOptions.relays] using hg
  have hfinal := h.1.1.final hash status (by rw [hh]; rfl) (by rw [hs]; rfl) hrel
  refine wp_try ⟨trivial, fun ans hans => ?_⟩
  obtain rfl : ans = .ok () := hans
  refine of_ok ?_
  split
  · rename_i hn
    exact absurd (hn.symm.trans hh) (by simp)
  rename_i h₁ hh₁
  obtain rfl : hash = h₁ := Option.some.inj (hh.symm.trans hh₁)
  refine wp_try ⟨trivial, fun ans hans => ?_⟩
  obtain rfl : ans = .ok (H.final hash) := hans
  rw [hfinal]
  refine of_ok ?_
  change wp _ _ (if t.writeAckTxFinalizedTime.isSome then _ else _) _ _
  split
  · exact ⟨_, rfl, h'⟩
  refine ⟨trivial, fun now _ => wp_try ⟨trivial, fun ans hans => ?_⟩⟩
  obtain rfl : ans = .ok () := hans
  exact of_ok ⟨_, rfl, ⟨h'.1.1.writeAckFinalized _, h'.1.2⟩, h'.2⟩

theorem passes_checkPostReceivePacketCommitment :
    Passes H p K pl [.checkPostReceivePacketCommitment] (Acked H p pl.opts) (Acked H p pl.opts) :=
  .skip rfl (fun _ => rfl) (fun _ h => h.active) fun t h => by simp [h.1.2.2]

theorem passes_batchAckPacket :
    Passes H p K pl [.batchAckPacket] (Acked H p pl.opts) (Acked H p pl.opts) := by
  refine .forward rfl fun t _ h => ?_
  change (if t.writeAckTxHash.isNone then _ else _) = false
  split
  · rfl
  split
  · rfl
  split
  · rfl
  · simp [h.1.2.2]

theorem passes_retryAckPacket :
    Passes H p K pl [.retryAckPacket] (Acked H p pl.opts) (Acked H p pl.opts) := by
  refine passes_retry rfl (fun _ h => h.active) (fun _ h => h.enter _ (by simp)) fun t h hg => ?_
  simp only [Bool.and_eq_true] at hg
  obtain ⟨hash, hh⟩ := Option.isSome_iff_exists.mp h.1.2.2
  obtain ⟨time, ht⟩ := Option.isSome_iff_exists.mp hg.2
  exact ⟨hash, time, hh, ht, h.1.1.ack hash hh⟩

/-- The `StateFinisher` completes the row. -/
theorem completes_stateFinisher {t : IBCV2Transfer} (h : Acked H p pl.opts t) (hK : p.key = K)
    (s : Focus) : wp (focus K (H.truthful p)) (fun _ _ => True) (runStages pl [.stateFinisher] t)
      (fun _ s' => s'.row.status.isComplete = true) s := by
  have hkey : t.key = K := (congrArg Packet.key h.1.1.packet).trans hK
  have herr : t.errored = false := by simp [IBCV2Transfer.errored, h.active.1]
  obtain ⟨status, hs⟩ := Option.ne_none_iff_exists'.mp (mt h.1.1.status.mpr h.2)
  have hc : t.isComplete pl.opts.shouldRelaySuccessAcks pl.opts.shouldRelayErrorAcks = true := by
    simp [IBCV2Transfer.isComplete, herr, h.1.1.timeout, h.1.2.1, h.1.2.2, h.2]
  have hf : stateFinisher pl.opts.shouldRelaySuccessAcks pl.opts.shouldRelayErrorAcks t =
      (recordAckRelayed t).bind fun _ => writeFinalState { t with state := .completeWithAck } := by
    simp [stateFinisher, herr, hc, h.1.1.timeout, hs, h.1.2.2]
  refine wp_bind.mpr (wp_bind.mpr ?_)
  rw [hf]
  refine ⟨trivial, fun _ _ => ⟨trivial, fun ans hans => ?_⟩⟩
  obtain rfl : ans = .ok () := hans
  change (Call.effectOn K (.exec (updateTransferState .completeWithAck t.key))
    (.ok ()) s.row).status.isComplete = true
  rw [show Call.effectOn K (.exec (updateTransferState .completeWithAck t.key)) (.ok ()) s.row =
    (SetClause.status .completeWithAck).apply s.row from Call.effectOn_exec hkey _]
  rfl

/-- All stages but the last. -/
theorem passes_newPipeline (H : History) (p : Packet) (K : TransferKey) (pl : Pipeline) :
    ∃ stages, newPipeline pl = stages ++ [.stateFinisher] ∧
    Passes H p K pl stages (Recovering H p pl.opts) (Acked H p pl.opts) := by
  refine ⟨_, rfl, ?_⟩
  have hfirst : Passes H p K pl [.checkRecvPacketDelivery, .checkInitialPacketCommitment,
      .checkSendPacketFinality,
      .checkTimeoutTimestampFinality, .batchTimeoutPacket, .retryTimeoutPacket]
    (Recovering H p pl.opts)
      (Delivered H p pl.opts) :=
    passes_checkRecvPacketDelivery.cons <| passes_checkInitialPacketCommitment.cons <|
      passes_checkSendPacketFinality.cons <| passes_checkTimeoutTimestampFinality.cons <|
      passes_batchTimeoutPacket.cons passes_retryTimeoutPacket
  have hlast : Passes H p K pl [.waitForWriteAckPacket, .checkWriteAckFinality,
      .checkPostReceivePacketCommitment,
      .batchAckPacket, .retryAckPacket] (Delivered H p pl.opts) (Acked H p pl.opts) :=
    passes_waitForWriteAckPacket.cons <| passes_checkWriteAckFinality.cons <|
      passes_checkPostReceivePacketCommitment.cons <|
        passes_batchAckPacket.cons passes_retryAckPacket
  have hgas {st : Stage} {proc : TxGasCalculator} (hp : st.processor pl = .single proc.processor)
      (hs : proc.state ≠ .failed) :
      Passes H p K pl [st] (Delivered H p pl.opts) (Delivered H p pl.opts) :=
    passes_gas hp (fun _ h => h.active) fun _ h => h.enter _ hs
  exact ((((hfirst.append (.ite (hgas rfl (by simp)) _)).append
    (passes_batchRecvPacket.cons passes_retryRecvPacket)).append
    (.ite (hgas rfl (by simp)) _)).append hlast).append
    (.ite (passes_gas rfl (fun _ h => h.active) fun _ h => h.enter _ (by simp)) _)

end Stages

/-! ## The run -/

/-- Every call can be answered truthfully. -/
theorem History.exists_says (H : History) (p : Packet) (c : Call) : ∃ a, H.Says p c a := by
  cases c with
  | now => exact ⟨0, trivial⟩
  | chainType => exact ⟨.cosmos, trivial⟩
  | collect t => exact ⟨⟨([], []), by simp⟩, trivial⟩
  | addRelayCompleted => exact ⟨(), trivial⟩
  | isPacketReceived => exact ⟨_, fun _ _ _ => rfl⟩
  | isPacketCommitted => exact ⟨_, fun _ _ _ => rfl⟩
  | findRecvTx => exact ⟨_, fun _ _ _ _ => rfl⟩
  | findAckTx => exact ⟨_, fun _ _ _ _ => rfl⟩
  | findTimeoutTx => exact ⟨.error (newErr "not found"), fun _ _ _ _ => ⟨_, rfl⟩⟩
  | packetWriteAckStatus _ hash =>
    by_cases hh : hash = H.recvTx.hash
    · refine ⟨.ok H.writeAck, fun _ _ _ _ => ?_⟩
      rw [if_pos hh]
    · refine ⟨.error Sentinel.errWriteAckNotFoundForPacket.err, fun _ _ _ _ => ?_⟩
      rw [if_neg hh]
      exact ⟨_, rfl, rfl⟩
  | isTimestampFinalized => exact ⟨_, true, rfl⟩
  | deliverTx => exact ⟨_, H.recvTx, rfl⟩
  | txFee => exact ⟨_, 0, rfl⟩
  | relayByTx => exact ⟨_, ⟨[], ""⟩, rfl⟩
  | getCoinUsdValue => exact ⟨_, ⟨0, 0⟩, rfl⟩
  | _ => exact ⟨_, rfl⟩

/-- In the row there is nothing that a run has to retry or to wait for: no
timeout tx, an ack tx only if it landed and with a recv tx, a recv tx without
a write ack only if it has one, and a tx with the write ack that is final, if
its ack is to be relayed. -/
structure History.NothingToRetry (H : History) (opts : PipelineOptions)
    (r : Ibcv2Transfer) : Prop where
  timeout : r.timeoutTx.hash = none
  ack (h : String) : r.ackTx.hash = some h → H.landed h = true ∧ r.recvTx.hash ≠ none
  recv (h : String) : r.recvTx.hash = some h → r.writeAckTxHash = none → h = H.recvTx.hash
  final : opts.relays (r.writeAckStatus.getD H.writeAck) = true →
    H.final (r.writeAckTxHash.getD H.recvTx.hash) = true

theorem History.NothingToRetry.recovering {H : History} {opts : PipelineOptions} {r : Ibcv2Transfer}
    (h : H.NothingToRetry opts r) (hr : Reachable r) :
    Recovering H (newIBCV2Transfer r).packet opts (newIBCV2Transfer r) where
  active := ⟨rfl, hr.not_failed⟩
  packet := rfl
  timeout := congrArg Option.isSome h.timeout
  ack hash hh := (h.ack hash hh).1
  ack_recv hk := by
    obtain ⟨hash, hh⟩ := Option.isSome_iff_exists.mp hk
    exact Option.isSome_iff_ne_none.mpr (h.ack hash hh).2
  recv := h.recv
  status := hr.rowInv.writeAckStatus
  final := by
    rintro _ _ rfl rfl
    exact h.final

/-- A run on the row in which every call succeeds and is answered truthfully. -/
def History.Run (H : History) (opts : PipelineOptions) (hasPriceClient : Bool) (r : Ibcv2Transfer)
    (o : Option IBCV2Transfer) (s : Focus) : Prop :=
  Steps (focus r.key (H.truthful (newIBCV2Transfer r).packet)) (pipelineRun opts hasPriceClient r)
    ⟨r, []⟩ (.ret o) s

/-- There is such a run, and it leaves the row complete, whichever it is. -/
def History.Recovers (H : History) (opts : PipelineOptions) (hasPriceClient : Bool)
    (r : Ibcv2Transfer) : Prop :=
  (∃ o s, H.Run opts hasPriceClient r o s) ∧
    ∀ o s, H.Run opts hasPriceClient r o s → s.row.status.isComplete = true

variable {H : History} {opts : PipelineOptions} {hasPriceClient : Bool} {r : Ibcv2Transfer}

theorem History.NothingToRetry.recovers (h : H.NothingToRetry opts r) (hr : Reachable r) :
    H.Recovers opts hasPriceClient r := by
  refine ⟨exists_returned (fun c _ => H.exists_says _ c) _ _, fun o s hs => ?_⟩
  obtain ⟨stages, hst, hp⟩ :=
    passes_newPipeline H (newIBCV2Transfer r).packet r.key (pipelineOf opts hasPriceClient r)
  suffices h : wp (focus r.key (H.truthful (newIBCV2Transfer r).packet)) (fun _ _ => True)
      (pipelineRun opts hasPriceClient r) (fun _ s => s.row.status.isComplete = true)
      ⟨r, []⟩ from h.returned hs
  change wp _ _ (runStages _ (newPipeline (pipelineOf opts hasPriceClient r)) _) _ _
  rw [hst]
  refine wp_runStages_append ((hp _ _ (h.recovering hr)).post ?_)
  rintro _ s' ⟨t', rfl, ht'⟩
  exact ⟨by simp, fun u hu => Option.some.inj hu ▸ completes_stateFinisher ht' rfl s'⟩

/-! ## What a run that completes the row has met -/

/-- The clock is past a time, or is not. -/
def Call.Side (after : Bool) (bound : Time) : (c : Call) → c.Ans → Prop
  | .now _, time => after = true ↔ bound < time
  | _, _ => True

/-- The true answers, on one side of the packet's timeout. -/
def History.onSide (H : History) (after : Bool) (p : Packet) (c : Call) (a : c.Ans)
    (_ : Focus) : Prop :=
  H.Says p c a ∧ c.Side after p.timeoutTimestamp a

theorem History.exists_onSide (H : History) (after : Bool) (p : Packet) (c : Call) (s : Focus) :
    ∃ a, H.onSide after p c a s := by
  cases c with
  | now =>
    cases after with
    | true => exact ⟨p.timeoutTimestamp + 1, trivial, iff_of_true rfl (Int.lt_succ _)⟩
    | false => exact ⟨p.timeoutTimestamp, trivial, iff_of_false (by simp) (Int.lt_irrefl _)⟩
  | _ => exact (H.exists_says p _).imp fun _ h => ⟨h, trivial⟩

/-- Every call that was made was answered as `adm` allows. -/
theorem answered_of_steps {α : Type} {K : TransferKey} {adm : (c : Call) → c.Ans → Focus → Prop}
    {q q' : Relay α} {s s' : Focus} (h : Steps (focus K adm) q s q' s') :
    ∀ e ∈ s'.trace, e ∈ s.trace ∨ ∃ s, adm e.call e.ans s := by
  induction h with
  | refl => exact fun e he => .inl he
  | @call c k s _ _ ans hans _ ih =>
    intro e he
    rcases ih e he with he | he
    · rcases List.mem_cons.mp he with rfl | he
      · exact .inr ⟨s, hans⟩
      · exact .inl he
    · exact .inr he

/-- What the true answers say of a tx that was confirmed. -/
theorem History.landed_of_confirmed {p : Packet} {tr : List Event} {hash : String}
    (htrue : ∀ e ∈ tr, H.Says p e.call e.ans) (h : p.Confirmed tr p.sourceChainID .ack hash) :
    H.landed hash = true := by
  rcases h with ⟨expiry, sentTs, hm⟩ | ⟨tx, rfl, hf⟩
  · have hsays : (.ok false : Except Err Bool) = .ok (!H.landed hash) := htrue _ hm
    simpa using hsays
  · have hsays : (.ok tx : Except Err BridgeTx) = .ok H.ackTx := htrue _ hf rfl rfl rfl rfl
    cases hsays
    exact H.ack_landed

/-- What they say of a write ack. -/
theorem History.writeAck_of_said {p : Packet} {tr : List Event} {hash : String}
    {status : Ibcv2WriteAckStatus}
    (htrue : ∀ e ∈ tr, H.Says p e.call e.ans) (h : p.SaidWriteAck tr hash status) :
    hash = H.recvTx.hash ∧ status = H.writeAck := by
  obtain ⟨ans, hm, hans⟩ := h
  have hsays := htrue _ hm rfl rfl rfl rfl
  dsimp only at hsays
  split at hsays
  · subst hsays
    exact ⟨‹_›, (Option.some.inj hans).symm⟩
  · obtain ⟨err, rfl, hnot⟩ := hsays
    simp [writeAckOf, hnot] at hans

section Travels

variable {t : IBCV2Transfer} {s : Focus} {done : List Stage} {pl : Pipeline}

theorem Travels.tx_hash (h : Travels pl (newIBCV2Transfer r) ⟨r, []⟩ done t s) {k : TxKind}
    {hash : String} (hr : (r.tx k).hash = some hash) : (t.tx k).hash = some hash := by
  have h₀ : ((newIBCV2Transfer r).tx k).hash = some hash := by cases k <;> exact hr
  refine h.keep (P := fun _ x => (x.1.tx k).hash = some hash) (fun _ _ _ _ h => h)
    (fun _ _ _ x _ hl hx => ?_) h₀
  have hhas : x.1.has k = true := by rw [IBCV2Transfer.has, hx]; rfl
  exact (hl.tx hhas).1.trans hx

/-- With an ack tx and without a recv tx, a transfer gets a recv tx only by delivery, before its
timeout. -/
theorem Travels.recv_of_ack (h : Travels pl (newIBCV2Transfer r) ⟨r, []⟩ done t s)
    (hk : (newIBCV2Transfer r).has .ack = true) (hr : (newIBCV2Transfer r).has .recv = false)
    (ht : t.has .recv = true) : ∃ now,
      (newIBCV2Transfer r).packet.ReadClock s.trace .deliverRecvPacket now ∧
      now ≤ (newIBCV2Transfer r).packet.timeoutTimestamp := by
  refine (h.keep (P := fun tr x => x.1.packet = (newIBCV2Transfer r).packet ∧ x.1.has .ack = true ∧
    (x.1.has .recv = true → ∃ now, (newIBCV2Transfer r).packet.ReadClock tr .deliverRecvPacket now ∧
      now ≤ (newIBCV2Transfer r).packet.timeoutTimestamp))
    (fun tr tr' x hm hx => ⟨hx.1, hx.2.1, fun hrecv => ?_⟩)
    (fun _ _ tr x y hl hx => ⟨hl.packet.trans hx.1, hl.has hx.2.1, fun hrecv => ?_⟩)
    ⟨rfl, hk, fun hrecv => absurd (hr.symm.trans hrecv) (by simp)⟩).2.2 ht
  · obtain ⟨now, hnow, hle⟩ := hx.2.2 hrecv
    exact ⟨now, hm hnow, hle⟩
  · cases hl with
    | @found u _ k tx _ _ _ hack =>
      exact absurd (hack.symm.trans hx.2.1) (by simp)
    | @delivered u _ k tx _ _ _ _ hclock =>
      cases k with
      | recv => exact hx.1 ▸ hclock rfl
      | ack => exact hx.2.2 hrecv
      | timeout => exact hx.2.2 hrecv
    | _ => exact hx.2.2 hrecv

/-- A write ack that was not in the row was read in the recv tx. -/
theorem Travels.writeAck_from (h : Travels pl (newIBCV2Transfer r) ⟨r, []⟩ done t s)
    (hr : r.writeAckTxHash = none) {w : String} (hw : t.writeAckTxHash = some w) :
    t.recvTx.hash = some w ∧
      ∃ status, t.writeAckStatus = some status ∧
      (newIBCV2Transfer r).packet.SaidWriteAck s.trace w status := by
  refine (h.keep (P := fun tr x => x.1.packet = (newIBCV2Transfer r).packet ∧
    (x.1.writeAckTxHash = some w → x.1.recvTx.hash = some w ∧
      ∃ status, x.1.writeAckStatus = some status ∧
      (newIBCV2Transfer r).packet.SaidWriteAck tr w status))
    (fun tr tr' x hm hx => ⟨hx.1, fun hxw => ?_⟩)
    (fun _ _ tr x y hl hx => ⟨hl.packet.trans hx.1, fun hyw => ?_⟩)
    ⟨rfl, fun h₀ => absurd (hr.symm.trans h₀) (by simp)⟩).2 hw
  · obtain ⟨hrecv, status, hs, hsaid⟩ := hx.2 hxw
    exact ⟨hrecv, status, hs, hsaid.mono hm⟩
  · cases hl with
    | @wroteAck u _ hash time status _ hrecv _ _ _ hsaid =>
      obtain rfl : hash = w := Option.some.inj hyw
      exact ⟨hrecv, status, rfl, hx.1 ▸ hsaid⟩
    | @found u _ k tx _ _ hnone =>
      cases k with
      | recv =>
        have hxr : u.recvTx.hash = some w := (hx.2 hyw).1
        exact absurd (hnone rfl) (by simp [IBCV2Transfer.has, IBCV2Transfer.tx, hxr])
      | ack => exact hx.2 hyw
      | timeout => exact hx.2 hyw
    | @delivered u _ k tx _ hd =>
      cases k with
      | recv =>
        have hxr : u.recvTx.hash = some w := (hx.2 hyw).1
        exact absurd hd (by simp [Pipeline.Deliverable, IBCV2Transfer.has, IBCV2Transfer.tx, hxr])
      | ack => exact hx.2 hyw
      | timeout => exact hx.2 hyw
    | _ => exact hx.2 hyw

end Travels

/-- A transfer that comes complete to the end of the work stages, where the answers were true and
the clock on one side of the timeout. -/
structure Met (H : History) (opts : PipelineOptions) (hasPriceClient : Bool) (r : Ibcv2Transfer)
    (after : Bool) (t : IBCV2Transfer) (s : Focus) : Prop where
  travels : Travels (pipelineOf opts hasPriceClient r) (newIBCV2Transfer r) ⟨r, []⟩
    (workStages (pipelineOf opts hasPriceClient r)) t s
  fact (st : Stage) : st ∈ newPipeline (pipelineOf opts hasPriceClient r) → st ≠ .stateFinisher →
    st.Fact (pipelineOf opts hasPriceClient r) t s.trace
  clean : t.processingError = none
  complete : t.isComplete opts.shouldRelaySuccessAcks opts.shouldRelayErrorAcks = true
  answered (e : Event) : e ∈ s.trace → H.Says (newIBCV2Transfer r).packet e.call e.ans
  clock {state : Ibcv2RelayStatus} {now : Time} :
    (newIBCV2Transfer r).packet.ReadClock s.trace state now →
    (after = true ↔ (newIBCV2Transfer r).packet.timeoutTimestamp < now)

theorem History.Recovers.met (h : H.Recovers opts hasPriceClient r) (hr : Reachable r)
    (hstatus : r.status.isComplete = false)
    (after : Bool) : ∃ t s, Met H opts hasPriceClient r after t s := by
  have hopen : r.status.isFinished = false := by
    rw [Ibcv2RelayStatus.isComplete, Bool.and_eq_false_iff] at hstatus
    exact hstatus.resolve_right (by simp [hr.not_failed])
  obtain ⟨o, s', hrun⟩ := exists_returned
    (S := focus r.key (H.onSide after (newIBCV2Transfer r).packet))
    (H.exists_onSide after _) (pipelineRun opts hasPriceClient r) ⟨r, []⟩
  have hdone : s'.row.status.isComplete = true := h.2 o s' (Steps.widen (fun _ _ _ h => h.1) hrun)
  have hanswers (e : Event) (he : e ∈ s'.trace) : H.Says (newIBCV2Transfer r).packet e.call e.ans ∧
      e.call.Side after (newIBCV2Transfer r).packet.timeoutTimestamp e.ans := by
    rcases answered_of_steps hrun e he with hm | ⟨_, h⟩
    · exact absurd hm List.not_mem_nil
    · exact h
  obtain ⟨t, s, ht, hfacts, hc, htr⟩ :=
    (pipelineRun_finishes hopen).returned hrun (Bool.and_eq_true_iff.mp hdone).1
  have hclean : t.processingError = none := by
    by_contra hne
    simp [IBCV2Transfer.isComplete, IBCV2Transfer.errored, Option.isSome_iff_ne_none.mpr hne] at hc
  exact ⟨t, s, ht, fun st hm hst =>
    hfacts ⟨hclean, (ht.not_failed hr.not_failed).2 hclean⟩ st (mem_workStages hm hst),
    hclean, hc, fun e he => (hanswers e (htr.subset he)).1, fun hnow =>
      (hanswers _ (htr.subset hnow)).2⟩

section Met

variable {after : Bool} {t : IBCV2Transfer} {s : Focus} (h : Met H opts hasPriceClient r after t s)
include h

/-- No timeout tx is found, and one is delivered only after the timeout and without an ack tx. -/
theorem Met.no_timeout (hr : r.timeoutTx.hash = none)
    (hside : after = false ∨ r.ackTx.hash ≠ none) : t.has .timeout = false := by
  have hstep := h.travels.keep (P := fun tr x => (∀ e ∈ tr, e ∈ s.trace) →
    x.1.packet = (newIBCV2Transfer r).packet ∧ (r.ackTx.hash ≠ none → x.1.has .ack = true) ∧
    x.1.has .timeout = false)
  refine (hstep (fun tr tr' x hm hx htr => hx fun e he => htr e (hm he))
    (fun _ _ tr x y hl hx htr => ?_)
    (fun _ => ⟨rfl, fun hne => Option.isSome_iff_ne_none.mpr hne, congrArg Option.isSome hr⟩)
    fun _ he => he).2.2
  obtain ⟨hpacket, hack, htimeout⟩ := hx htr
  refine ⟨hl.packet.trans hpacket, fun hne => hl.has (hack hne), ?_⟩
  cases hl with
  | @found u _ k tx _ hf =>
    cases k with
    | recv => exact htimeout
    | ack => exact htimeout
    | timeout =>
      have hfound : (newIBCV2Transfer r).packet.Found s.trace .timeout tx := htr _ (hpacket ▸ hf)
      obtain ⟨err, herr⟩ : ∃ err, (.ok tx : Except Err BridgeTx) = .error err :=
        h.answered _ hfound rfl rfl rfl rfl
      cases herr
  | @delivered u _ k tx _ hd _ hclock =>
    cases k with
    | recv => exact htimeout
    | ack => exact htimeout
    | timeout =>
      rcases hside with rfl | hne
      · obtain ⟨now, hnow, hlt⟩ := hclock rfl
        have hread : (newIBCV2Transfer r).packet.ReadClock s.trace .deliverTimeoutPacket now :=
          htr _ (hpacket ▸ hnow)
        exact absurd ((h.clock hread).mpr (hpacket ▸ hlt)) (by simp)
      · exact absurd (hd.2.1.symm.trans (hack hne)) (by simp)
  | _ => exact htimeout

/-- So it has a recv tx and a write ack. -/
theorem Met.received (ht : t.has .timeout = false) : t.has .recv = true ∧
    ∃ w, t.writeAckTxHash = some w := by
  have hc := h.complete
  rw [IBCV2Transfer.isComplete, if_neg (by simp [IBCV2Transfer.errored, h.clean]),
    if_neg (by simp [ht])] at hc
  split at hc
  · cases hc
  · rename_i hnot
    obtain ⟨hrecv, hw⟩ : t.has .recv = true ∧ t.writeAckTxHash ≠ none := by simpa using hnot
    exact ⟨hrecv, Option.ne_none_iff_exists'.mp hw⟩

theorem Met.ack_landed (hr : Reachable r) {hash : String}
    (hk : r.ackTx.hash = some hash) : H.landed hash = true := by
  have htime : t.ackTx.time.isSome = true := by
    have hsync := h.travels.synced (.load r) h.clean
    rw [show t.ackTx.time = s.row.ackTx.time from hsync.time .ack, Option.isSome_iff_ne_none]
    refine mt ((h.travels.rowInv hr.rowInv).time .ack).mpr ?_
    rw [← hsync.hash, h.travels.tx_hash (k := .ack) hk]
    exact Option.some_ne_none _
  have hconfirmed :=
    h.fact .retryAckPacket (by simp [newPipeline]) (by simp) hash
      (h.travels.tx_hash (k := .ack) hk) htime
  rw [h.travels.packet] at hconfirmed
  exact H.landed_of_confirmed h.answered hconfirmed

end Met

/-- A row that is not complete yet and has no timeout tx: if every run with true answers completes
it, there was nothing to retry. -/
theorem History.Recovers.nothingToRetry (h : H.Recovers opts hasPriceClient r) (hr : Reachable r)
    (hstatus : r.status.isComplete = false)
    (htimeout : r.timeoutTx.hash = none) : H.NothingToRetry opts r := by
  obtain ⟨t, s, hmet⟩ := h.met hr hstatus false
  have ht := hmet.no_timeout htimeout (.inl rfl)
  obtain ⟨hrecv, w, hw⟩ := hmet.received ht
  refine ⟨htimeout, fun hash hk => ⟨hmet.ack_landed hr hk, fun hnone => ?_⟩, fun hash hh hnone =>
    ?_, fun hrel => ?_⟩
  · -- After the timeout, no recv tx is delivered for it.
    obtain ⟨t', s', hlate⟩ := h.met hr hstatus true
    have hack : r.ackTx.hash ≠ none := hk ▸ Option.some_ne_none _
    have ht' := hlate.no_timeout htimeout (.inr hack)
    obtain ⟨now, hnow, hle⟩ := hlate.travels.recv_of_ack (Option.isSome_iff_ne_none.mpr hack)
      (congrArg Option.isSome hnone) (hlate.received ht').1
    exact absurd ((hlate.clock hnow).mp rfl) (Int.not_lt.mpr hle)
  · obtain ⟨hrecv', status, -, hsaid⟩ := hmet.travels.writeAck_from hnone hw
    have hkept : t.recvTx.hash = some hash := hmet.travels.tx_hash (k := .recv) hh
    obtain rfl : hash = w := Option.some.inj (hkept.symm.trans hrecv')
    exact (H.writeAck_of_said hmet.answered hsaid).1
  · obtain ⟨status, hs, hhash, hstatus⟩ : ∃ status, t.writeAckStatus = some status ∧
        r.writeAckTxHash.getD H.recvTx.hash = w ∧ r.writeAckStatus.getD H.writeAck = status := by
      cases hr₀ : r.writeAckTxHash with
      | none =>
        obtain ⟨-, status, hs, hsaid⟩ := hmet.travels.writeAck_from hr₀ hw
        obtain ⟨rfl, rfl⟩ := H.writeAck_of_said hmet.answered hsaid
        exact ⟨_, hs, rfl, by rw [hr.rowInv.writeAckStatus.mp hr₀]; rfl⟩
      | some w₀ =>
        have hne : r.writeAckTxHash ≠ none := hr₀ ▸ Option.some_ne_none _
        have hne₀ : (newIBCV2Transfer r).writeAckTxHash ≠ none := hne
        obtain ⟨hkept, hkept'⟩ := hmet.travels.writeAck_of_some hne₀
        obtain ⟨status, hs⟩ := Option.ne_none_iff_exists'.mp (mt hr.rowInv.writeAckStatus.mpr hne)
        refine ⟨status, hkept'.trans hs, ?_, by rw [hs]; rfl⟩
        exact Option.some.inj (hr₀.symm.trans (hkept.symm.trans hw))
    rw [hstatus] at hrel
    rw [hhash]
    have hfinal :=
      (hmet.fact .checkWriteAckFinality (by simp [newPipeline]) (by simp) w status hw hs hrel).1
    have hanswer : (.ok true : Except Err Bool) = .ok (H.final w) := hmet.answered _ hfinal
    exact (Except.ok.inj hanswer).symm

/-- The packet was received in the tx `0e` and acknowledged in the tx `ac`. -/
def someHistory : History where
  recvTx := ⟨"0e", 1, "other"⟩
  ackTx := ⟨"ac", 3, "other"⟩
  writeAck := .success
  landed _ := true
  final _ := true
  recv_landed := rfl
  ack_landed := rfl

/-- The true answers about it, by any clock. A recv tx other than `0e` has no write ack. -/
def someTruth (clock : ClockReader → Time := fun _ => 0) : Answers where
  clock := clock
  received := true
  committed := false
  recvTx := someHistory.recvTx
  ackTx := some someHistory.ackTx
  writeAck hash := if hash = "0e" then .ok .success
    else .error Sentinel.errWriteAckNotFoundForPacket.err

theorem says_someTruth (clock : ClockReader → Time) (p : Packet) (c : Call) :
    someHistory.Says p c ((someTruth clock).answer c) := by
  cases c with
  | packetWriteAckStatus _ hash =>
    intro _ _ _ _
    change if hash = "0e" then (if hash = "0e" then _ else _) = _ else ∃ err,
      (if hash = "0e" then _ else _) = _ ∧ _
    split
    · rfl
    · exact ⟨_, rfl, rfl⟩
  | isPacketReceived => exact fun _ _ _ => rfl
  | isPacketCommitted => exact fun _ _ _ => rfl
  | findRecvTx => exact fun _ _ _ _ => rfl
  | findAckTx => exact fun _ _ _ _ => rfl
  | findTimeoutTx => exact fun _ _ _ _ => ⟨_, rfl⟩
  | now => trivial
  | chainType => trivial
  | collect => trivial
  | addRelayCompleted => trivial
  | isTimestampFinalized => exact ⟨true, rfl⟩
  | deliverTx => exact ⟨_, rfl⟩
  | txFee => exact ⟨0, rfl⟩
  | relayByTx => exact ⟨⟨[], ""⟩, rfl⟩
  | getCoinUsdValue => exact ⟨⟨0, 0⟩, rfl⟩
  | _ => rfl

/-- The row after a run that delivered a no-op `d0`, just after the other
relayer, and could not ask for the write ack. -/
def noOpRow : Ibcv2Transfer :=
  (Answers.run { writeAck := fun _ => .error (newErr "node down") } someOptions false
    (insertedRow somePacket) 100).2.row

/-- The row after one more run, with the truth for answers: it found the ack tx
and cleared `d0`. -/
def ackOnlyRow : Ibcv2Transfer := (someTruth.run someOptions false noOpRow 100).2.row

theorem reachable_ackOnlyRow : Reachable ackOnlyRow :=
  .run someOptions false (.run someOptions false (.inserted somePacket) (Answers.runTo ..))
    (Answers.runTo ..)

end PlatformRelayer

import PlatformRelayer.Proof.PacketChecks
import PlatformRelayer.Proof.Rows

/-!
# What becomes of the txs of a transfer

The processors that ask about a recorded tx, and the pipeline as a whole, on a network.
A tx is given up only if it has failed or is overdue (`RetryOutcome`), and a transfer
that is completed by an ack or a timeout has a tx that was executed with success.
-/

namespace PlatformRelayer

open Db Prog

variable {net : Net} {fails : PlatformRelayer.Call → Prop} {t : IBCV2Transfer} {s s' : NetState}
  {o : Except Err IBCV2Transfer}

/-! ## Retries -/

/-- What a check of a tx comes to, by one of the three retry processors. -/
inductive RetryOutcome (net : Net) (fails : PlatformRelayer.Call → Prop) (rp : RetryPacket)
    (t : IBCV2Transfer) (txHash : String) (sentTs : Time)
    (s : NetState) : Except Err IBCV2Transfer → NetState → Prop where
  /-- The tx was executed with success. -/
  | executed {s' : NetState} (row : s'.row = s.row)
    (executed : (s'.chains rp.chainID).Executed ((net rp.chainID).readHash txHash) true) :
    RetryOutcome net fails rp t txHash sentTs s (.ok t) s'
  /-- The tx was executed without success, or has expired and the nodes have reported it
  for less than a minute. The row is without it now. -/
  | lost {s' : NetState} (row : s'.row = (clearTx rp.kind t.key).set.apply s.row)
    (lost : (s'.chains rp.chainID).Executed ((net rp.chainID).readHash txHash) false ∨
      (s.chains rp.chainID).Unsettled ((net rp.chainID).readHash txHash) ∧
      sentTs + rp.expiry < (s'.chains rp.chainID).time) :
    RetryOutcome net fails rp t txHash sentTs s (.error rp.retrying.err) s'
  /-- The nodes have reported the tx for less than a minute, but it has not expired. -/
  | waiting {s' : NetState} (row : s'.row = s.row)
    (unsettled : (s.chains rp.chainID).Unsettled ((net rp.chainID).readHash txHash))
    (early : (s.chains rp.chainID).time ≤ sentTs + rp.expiry) :
    RetryOutcome net fails rp t txHash sentTs s
      (.error (errorf rp.checkFormat [.str txHash, .time sentTs] Sentinel.errTxNotFound.err)) s'
  /-- A call has failed, or the hash cannot be read. -/
  | failed {err : Err} {s' : NetState} (row : s'.row = s.row)
    (reason : (net rp.chainID).readHash txHash = none ∨ ∃ c, fails c ∧
      (c = .getClient rp.chainID ∨ c = .shouldRetryTx rp.chainID txHash rp.expiry sentTs ∨
        c = .exec (clearTx rp.kind t.key))) :
    RetryOutcome net fails rp t txHash sentTs s (.error err) s'

section Retry

variable {p : ChainPacket} {rp : RetryPacket} {txHash : String} {sentTs : Time}

theorem retry_check_reports (hs : s.Lawful net) (hhash : (t.tx rp.kind).hash = some txHash)
    (htime : (t.tx rp.kind).time = some sentTs) :
    wpRel (NetState.Reports net fails t.key p) (fun _ s => s.Lawful net) (rp.processor.process t)
      (RetryOutcome net fails rp t txHash sentTs s) s := by
  refine wpRel_try (wpRel_perform.mpr ⟨hs, fun ans s₁ h₁ => ?_⟩)
  cases ans with
  | error err => exact of_error (.failed h₁.row (.inr ⟨_, h₁.told trivial trivial, .inl rfl⟩))
  | ok _ =>
  refine of_ok ?_
  rw [hhash, htime]
  refine wpRel_try (wpRel_perform.mpr ⟨h₁.grows.lawful, fun ans s₂ h₂ => ?_⟩)
  have hretries := h₂.told trivial
  have hrow : s₂.row = s.row := h₂.row.trans h₁.row
  cases ans with
  | error err =>
    refine of_error ?_
    rcases hretries.fails err rfl with hnone | hfails | ⟨rfl, hunsettled, hearly⟩
    · exact .failed hrow (.inl hnone)
    · exact .failed hrow (.inr ⟨_, hfails, .inr (.inl rfl)⟩)
    · exact .waiting hrow (hunsettled.of_grows (h₁.grows _)) ((h₁.grows _).time.trans hearly)
  | ok retry =>
  refine of_ok ?_
  cases retry with
  | false => exact .executed hrow (hretries.stays rfl)
  | true =>
    refine wpRel_try (wpRel_perform.mpr ⟨h₂.grows.lawful, fun ans s₃ h₃ => ?_⟩)
    cases ans with
    | error err =>
      exact of_error
        (.failed (h₃.row.trans hrow) (.inr ⟨_, h₃.told trivial trivial, .inr (.inr rfl)⟩))
    | ok _ =>
      refine of_ok (.lost ?_ ?_)
      · rw [h₃.row, hrow]
        exact Call.effectOn_exec rfl _
      · rcases hretries.retried rfl with hfailed | ⟨hunsettled, hexpired⟩
        · exact .inl (hfailed.grows (h₃.grows _))
        · exact .inr ⟨hunsettled.of_grows (h₁.grows _), hexpired.trans_le (h₃.grows _).time⟩

/-- On any network, while txs keep coming in: the check of a recorded tx comes to one of
the four outcomes, and the row keeps a tx that was executed with success if the nodes of
its chain have reported it for a minute. -/
theorem retry_check_keeps_executed (hs : s.Lawful net) (hhash : (t.tx rp.kind).hash = some txHash)
    (htime : (t.tx rp.kind).time = some sentTs)
    (hrun : Steps (Sem.rel (net.Answers fails t.key))
      (onNet net (rp.processor.process t)) s (.ret o) s') :
    RetryOutcome net fails rp t txHash sentTs s o s' ∧
      ∀ tx ∈ (s.chains rp.chainID).txs,
      tx.seen + txOnce.successTimeout ≤ (s.chains rp.chainID).now →
        (net rp.chainID).readHash txHash = some tx.hash → tx.ok = true → s'.row = s.row := by
  -- no packet is asked for
  let p : ChainPacket := ⟨⟨0, "", ""⟩, 0⟩
  have houtcome := onNet_returned (p := p) (retry_check_reports hs hhash htime) hrun
  have hgrows := onNet_returned (p := p) (wpRel_grows hs (rp.processor.process t)) hrun
  refine ⟨houtcome, fun tx htx hold hread hok => ?_⟩
  cases houtcome with
  | executed row => exact row
  | waiting row => exact row
  | failed row => exact row
  | lost row hlost =>
    rcases hlost with hfailed | ⟨hunsettled, -⟩
    · have hexecuted : (s'.chains rp.chainID).Executed ((net rp.chainID).readHash txHash) true :=
        ⟨tx, (hgrows _).tx_mem htx, hread, hok⟩
      cases hexecuted.eq hfailed
    · exact absurd hread (hunsettled tx htx hold)

end Retry

/-! ## Completion -/

section Completion

variable {opts : PipelineOptions} {hasPriceClient : Bool} {r : Ibcv2Transfer}
  {status : Ibcv2RelayStatus} {key : TransferKey}

/-- A row is completed for a transfer that has passed every stage before. -/
theorem RunCall.passed {f : Focus} (hr : Reachable r)
    (h : RunCall opts hasPriceClient r (.exec (updateTransferState status key)) f)
    (hc : status.isComplete = true) :
    ∃ t, status = t.finalState ∧ t.packet = (newIBCV2Transfer r).packet ∧ Synced t f.row ∧
      RowInv f.row ∧ ∀ st ∈ newPipeline (pipelineOf opts hasPriceClient r),
      st.ctorIdx < Stage.stateFinisher.ctorIdx →
        st.Fact (pipelineOf opts hasPriceClient r) t f.trace := by
  obtain ⟨st, t, f₁, ⟨done, rest, hst, ht, hf⟩, -, hq⟩ := h.inRun
  rcases hq with hq | hsp
  · simp [Ibcv2RelayStatus.isComplete, hq status rfl] at hc
  generalize hcall : PlatformRelayer.Call.exec (updateTransferState status key) = c at hsp
  cases hsp with
  | deliver => cases hcall
  | finish hfinisher he hcomp hrow htr =>
    subst hfinisher
    obtain rfl : status = t.finalState := by
      cases hcall
      rfl
    have hactive : t.Active := ⟨he, (ht.not_failed hr.not_failed).2 he⟩
    refine ⟨t, rfl, ht.packet, hrow ▸ ht.synced (.load r) he, hrow ▸ ht.rowInv hr.rowInv,
      fun st hmem hlt => ?_⟩
    exact (hf hactive st (mem_newPipeline hst hmem hlt)).mono htr.subset

/-- The status of a row that is completed by a tx of some kind. -/
def TxKind.completion : TxKind → Option Ibcv2RelayStatus
  | .recv => none
  | .ack => some .completeWithAck
  | .timeout => some .completeWithTimeout

theorem has_of_finalState {k : TxKind} (h : k.completion = some t.finalState) : t.has k = true := by
  unfold IBCV2Transfer.finalState at h
  cases k with
  | recv => cases h
  | timeout =>
    by_contra hnot
    rw [if_neg hnot] at h
    split at h
    · cases h
    · split at h <;> cases h
  | ack =>
    split at h
    · cases h
    · by_contra hnot
      rw [if_neg hnot] at h
      split at h <;> cases h

/-- The tx that a row is completed by was confirmed. -/
theorem RunCall.confirmed {f : Focus} (hr : Reachable r)
    (h : RunCall opts hasPriceClient r (.exec (updateTransferState status key)) f) {k : TxKind}
    (hk : k.completion = some status) :
    ∃ txHash, (f.row.tx k).hash = some txHash ∧
      (newIBCV2Transfer r).packet.Confirmed f.trace r.sourceChainID k txHash := by
  have hc : status.isComplete = true := by
    cases k with
    | recv => cases hk
    | _ =>
      cases hk
      rfl
  obtain ⟨t, rfl, hpacket, hs, hinv, hfacts⟩ := h.passed hr hc
  obtain ⟨txHash, hhash⟩ := hs.hash_some (has_of_finalState hk)
  have htime : (t.tx k).time.isSome = true := by
    rw [hs.time, Option.isSome_iff_ne_none]
    exact mt (hinv.time k).mpr (by rw [hhash]; simp)
  refine ⟨txHash, hhash, ?_⟩
  rw [← hpacket]
  cases k with
  | recv => cases hk
  | ack =>
    exact hfacts .retryAckPacket (by simp [newPipeline]) (by decide) txHash
      ((hs.hash .ack).trans hhash) htime
  | timeout =>
    exact hfacts .retryTimeoutPacket (by simp [newPipeline]) (by decide) txHash
      ((hs.hash .timeout).trans hhash) htime

variable {p : ChainPacket} {s₀ : NetState}

/-- The answers in a history are true of the network. -/
structure TruthOf (net : Net) (r : Ibcv2Transfer) (s₀ : NetState) (f : Focus)
    (s : NetState) : Prop where
  grows : s₀.Grows net s
  row : f.row = s.row
  stays {id txHash : String} {expiry : Duration} {sentTs : Time} :
    ⟨.shouldRetryTx id txHash expiry sentTs, .ok false⟩ ∈ f.trace →
    (s.chains id).Executed ((net id).readHash txHash) true
  found {k : TxKind} {tx : BridgeTx} : k ≠ .recv → (newIBCV2Transfer r).packet.Found f.trace k tx →
    (s.chains r.sourceChainID).Executed ((net r.sourceChainID).readHash tx.hash) true

theorem TruthOf.step (hp : (newIBCV2Transfer r).IsFor p)
    (hsent : .sent p ∈ (s₀.chains r.sourceChainID).events) {f : Focus}
    (h : TruthOf net r s₀ f s) {c : PlatformRelayer.Call} {a : c.Ans}
    (hc : s.Reports net fails r.key p c a s') :
    TruthOf net r s₀ ((focus r.key anyAnswer).next c a f) s' where
  grows := h.grows.trans hc.grows
  row := (congrArg (c.effectOn r.key a) h.row).trans hc.row.symm
  stays hmem := by
    rcases List.mem_cons.mp hmem with heq | hmem
    · cases heq
      exact (hc.told trivial).stays rfl
    · exact (h.stays hmem).grows (hc.grows _)
  found {k tx} hk hfound := by
    have hknown : .sent p ∈ (s.chains r.sourceChainID).events := (h.grows _).mem hsent
    cases k with
    | recv => exact absurd rfl hk
    | ack =>
      rcases List.mem_cons.mp hfound with heq | hmem
      · cases heq
        exact ((hc.told ⟨hknown, hp.source, hp.dest, hp.sequence⟩).finds tx rfl).executed fun _ =>
          (net _).read_hashString
      · exact (h.found hk hmem).grows (hc.grows _)
    | timeout =>
      rcases List.mem_cons.mp hfound with heq | hmem
      · cases heq
        exact ((hc.told ⟨hknown, hp.source, hp.dest, hp.sequence⟩).finds tx rfl).executed fun _ =>
          (net _).read_hashString
      · exact (h.found hk hmem).grows (hc.grows _)

/-- On any network, while txs keep coming in: when a run of the pipeline writes that a row
is complete with an ack or a timeout, the tx that the row has for it was executed with
success on the source chain. -/
theorem completed_by_executed_tx (hr : Reachable r) (hp : (newIBCV2Transfer r).IsFor p)
    (hs : s.Lawful net) (hrow : s.row = r) (hsent : .sent p ∈ (s.chains r.sourceChainID).events)
    {q : Prog NetCall (fun c => c.Ans × NetState) (Option IBCV2Transfer)}
    (hrun : Steps (Sem.rel (net.Answers fails r.key))
      (onNet net (pipelineRun opts hasPriceClient r)) s q s')
    (hnext : q.next? = some (.other (.exec (updateTransferState status key)))) {k : TxKind}
    (hk : k.completion = some status) : ∃ txHash, (s'.row.tx k).hash = some txHash ∧
      (s'.chains r.sourceChainID).Executed ((net r.sourceChainID).readHash txHash) true := by
  have hstart : TruthOf net r s ⟨r, []⟩ s :=
    ⟨.refl hs, hrow.symm, by simp, fun {k _} _ h => by cases k <;> cases h⟩
  have hwp := wpRel_simulated (S := focus r.key anyAnswer) (R := NetState.Reports net fails r.key p)
    (TruthOf net r s) (fun c a f s₁ s₂ h hc => ⟨trivial, h.step hp hsent hc⟩)
    (.refl (pipelineRun opts hasPriceClient r) ⟨r, []⟩) hstart
  have hcall := onNet_next (hwp.mono (fun c s₁ h => ⟨?_, h⟩) fun _ _ h => h) hrun hnext
  · obtain ⟨q', f, hsteps, hq', hagrees⟩ := hcall
    obtain ⟨txHash, hhash, hconfirmed⟩ := RunCall.confirmed hr ⟨q', hsteps, hq'⟩ hk
    refine ⟨txHash, hagrees.row ▸ hhash, ?_⟩
    rcases hconfirmed with ⟨expiry, sentTs, hmem⟩ | ⟨tx, rfl, hfound⟩
    · exact hagrees.stays hmem
    · refine hagrees.found ?_ hfound
      rintro rfl
      cases hk
  · obtain ⟨q', f, -, -, hagrees⟩ := h
    exact hagrees.grows.lawful

end Completion

/-! ## Runs on a network of two chains -/

namespace TxChecks

open PacketChecks

def someReceipt (c : Chain) (hash : List UInt8) : Outcome TxReceipt :=
  match c.txs.find? (·.hash = hash) with
  | none => ⟨⟨0, 0, 0⟩, some (newErr "not found")⟩
  | some tx => ⟨⟨if tx.ok then 1 else 0, 10, 1⟩, none⟩

/-- What a node of an EVM chain answers. Its blocks are one second apart. -/
def someReply (c : Chain) : (q : SearchCall) → q.Ans
  | .getCommitment hashedPath => .ok (someEvmRouter.storage someEvmClient c.events hashedPath)
  | .filterLogs addresses topics =>
    .ok ((c.txs.flatMap (someEvmRouter.logsOf someEvmClient)).filter
      (FoundLog.passes addresses topics))
  | .headerByNumber none => .ok 7
  | .headerByNumber (some number) => .ok number.toNat.toUInt64
  | .transactionReceipt _ hash => (someReceipt c hash).result
  | .transactionByHash _ => .ok []
  | .packetReceipt .. => .ok false
  | .packetCommitment .. => .ok ()
  | .txSearch _ => .ok ⟨[], 0, by simp⟩
  | .header _ => .ok none
  | .tx .. => .ok ⟨0, []⟩

/-- The blocks that have txs are those of five and six seconds. -/
def InTime (c : Chain) : Prop := c.time = 7 * second ∧
    ∀ tx ∈ c.txs, (tx.height, tx.time) ∈ [(5, 5 * second), (6, 6 * second)]

theorem someReply_view {c : Chain} (hc : InTime c) (q : SearchCall) :
    someEvmRouter.View someEvmClient False c.now q (someReply c q) c := by
  cases q with
  | getCommitment hashedPath => exact rfl
  | filterLogs addresses topics => exact .refl _
  | headerByNumber number =>
    cases number with
    | none => exact hc.1.symm
    | some number =>
      intro tx htx hnumber
      have hmem := hc.2 tx htx
      simp only [List.mem_cons, Prod.mk.injEq, List.not_mem_nil, or_false] at hmem
      subst hnumber
      rcases hmem with ⟨hheight, htime⟩ | ⟨hheight, htime⟩ <;> rw [hheight, htime] <;>
        decide +kernel
  | transactionReceipt key hash =>
    refine OnceWithKey.Returns.of_node txOnce key ?_
    unfold someReceipt
    cases hfind : c.txs.find? (·.hash = hash) with
    | none =>
      have hall := List.find?_eq_none.mp hfind
      change if (newErr "not found").contains "not found" then c.NotFoundAt hash c.now else False
      rw [if_pos (by decide +kernel)]
      exact fun tx htx heq => absurd (decide_eq_true heq) (hall tx htx)
    | some tx =>
      have hhash := List.find?_some hfind
      refine ⟨tx, List.mem_of_find?_eq_some hfind, of_decide_eq_true hhash, ?_⟩
      cases tx.ok <;> simp
  | _ => trivial

def sourceChain : Chain := { someEvmChain with now := 2 * minute, seen := by decide }

def destChain : Chain := { someCosmosChain with now := 2 * minute, seen := by decide }

/-- The packet was received on one chain and acknowledged on the other. -/
def someState (row : Db.Ibcv2Transfer) : NetState :=
  ⟨fun id => if id = "1" then sourceChain else destChain, row⟩

theorem someState_lawful (row : Db.Ibcv2Transfer) : (someState row).Lawful someEvmNet := by
  intro id
  unfold someState
  dsimp only
  split
  · exact someEvmChain_lawful
  · exact someCosmosChain_lawful

/-- The calls to other parties all succeed. -/
def someAnswer (key : TransferKey) : (c : NetCall) → NetState → c.Ans × NetState
  | .node _ id q, s => (someReply (s.chains id) q, s)
  | .other c, s =>
  (Answers.answer {} c, { s with row := c.effectOn key (Answers.answer {} c) s.row })

theorem someAnswer_answers (key : TransferKey) (c : NetCall) (s : NetState)
    (hs : ∃ row, s = someState row) :
    (Sem.rel (someEvmNet.Answers (fun _ => False) key)).adm c (someAnswer key c s) s ∧
      ∃ row, (someAnswer key c s).2 = someState row := by
  obtain ⟨row, rfl⟩ := hs
  have hgrows (row' : Db.Ibcv2Transfer) : (someState row).Grows someEvmNet (someState row') :=
    NetState.Grows.refl (someState_lawful row)
  cases c with
  | node query id q =>
    refine ⟨⟨hgrows row, rfl, hgrows row id, someReply_view ?_ q⟩, row, rfl⟩
    unfold someState
    dsimp only
    split <;> exact ⟨rfl, by decide +kernel⟩
  | other c =>
    refine ⟨⟨hgrows _, rfl, fun h => ?_⟩, _, rfl⟩
    cases c <;> exact h

section Witnesses

variable {α : Type}

/-- The first `n` calls of a program. -/
def someRun (n : Nat) (q : Relay α) : Prog NetCall (fun c => c.Ans × NetState) α × NetState :=
  runN (fun _ r _ => r.2) (someAnswer someRow.key) n (onNet someEvmNet q) (someState someRow)

theorem steps_someRun (n : Nat) (q : Relay α) :
    Steps (Sem.rel (someEvmNet.Answers (fun _ => False) someRow.key)) (onNet someEvmNet q)
      (someState someRow) (someRun n q).1 (someRun n q).2 :=
  steps_runN_of (someAnswer_answers someRow.key) n _ ⟨someRow, rfl⟩

def someAckedTransfer : IBCV2Transfer := someTransfer.foundTx .ack someAckTx

theorem retry_check_keeps_executed_one : ∃ o s',
    Steps (Sem.rel (someEvmNet.Answers (fun _ => False) someAckedTransfer.key))
      (onNet someEvmNet ((retryAckPacketProcessor "1").process someAckedTransfer))
      (someState someRow) (.ret o) s' ∧
    s'.row = (someState someRow).row := by
  have hrun := steps_someRun 2 ((retryAckPacketProcessor "1").process someAckedTransfer)
  have hret : (someRun 2 ((retryAckPacketProcessor "1").process someAckedTransfer)).1 = .ret
      (.ok someAckedTransfer) := by rfl
  generalize someRun 2 ((retryAckPacketProcessor "1").process someAckedTransfer) = out at hrun hret
  rw [hret] at hrun
  have hhash : (someAckedTransfer.tx .ack).hash = some someAckTx.hash := rfl
  have htime : (someAckedTransfer.tx .ack).time = some (6 * second) := rfl
  have hkept := (retry_check_keeps_executed (t := someAckedTransfer) (someState_lawful someRow)
    hhash htime hrun).2 someAcked (List.mem_cons_self ..) (by decide) (by decide +kernel) rfl
  exact ⟨_, _, hrun, hkept⟩

theorem completed_by_executed_tx_one : ∃ q s',
    Steps (Sem.rel (someEvmNet.Answers (fun _ => False) someRow.key))
      (onNet someEvmNet (pipelineRun someOptions false someRow)) (someState someRow) q s' ∧
    q.next? = some (.other (.exec (updateTransferState .completeWithAck someRow.key))) ∧
    ∃ txHash, (s'.row.tx .ack).hash = some txHash ∧
      (s'.chains "1").Executed ((someEvmNet "1").readHash txHash) true := by
  have hrun := steps_someRun 34 (pipelineRun someOptions false someRow)
  have hnext : (someRun 34 (pipelineRun someOptions false someRow)).1.next? =
      some (.other (.exec (updateTransferState .completeWithAck someRow.key))) := by decide +kernel
  generalize someRun 34 (pipelineRun someOptions false someRow) = out at hrun hnext
  exact ⟨_, _, hrun, hnext, completed_by_executed_tx (.inserted someParams) someTransfer_isFor
    (someState_lawful someRow) rfl (by decide +kernel) hrun hnext (k := .ack) rfl⟩

end Witnesses

end TxChecks

end PlatformRelayer

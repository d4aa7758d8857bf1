import PlatformRelayer.Ibcv2.PipelineOpts
import PlatformRelayer.Proof.Courses
import PlatformRelayer.Proof.Interleaving

/-!
# What a pipeline has its goroutines do

The calls that depend on what a pipeline was made with: its goroutines deliver
txs for the packets they were given, on the chains of the pipeline, and ask for
finality with the offset of the chain that they ask (`Call.Within`). Nothing is
assumed of the answers, so this holds where statements fail as well, and where
two copies of a transfer are in the pipelines.
-/

namespace PlatformRelayer

open Db Prog

variable {σ : Type} {S : Sem Call Call.Ans σ} {pl : Pipeline} {packets : List Packet}
  {t : IBCV2Transfer} {k : TxKind}

/-- An ack is delivered only if it is one that the pipeline relays. -/
def Pipeline.Wants (pl : Pipeline) (k : TxKind) (t : IBCV2Transfer) : Prop :=
  k = .ack → ∃ status, t.writeAckStatus = some status ∧ pl.opts.relays status = true

def Call.Within (pl : Pipeline) (packets : List Packet) : Call → Prop
  | .deliverTx chainID _ _ sub => chainID = (batchOf pl sub.kind).chainID ∧
    (∃ ids seqs, sub.request = (batchOf pl sub.kind).request ids seqs) ∧
    ∀ u ∈ sub.transfers, u.packet ∈ packets ∧ pl.Wants sub.kind u
  | .isTxFinalized chainID _ offset =>
    chainID = pl.key.sourceChainID ∧ offset = pl.opts.sourceFinalityOffset ∨
      chainID = pl.key.destinationChainID ∧ offset = pl.opts.destinationFinalityOffset
  | .isTimestampFinalized chainID _ offset =>
    chainID = pl.key.destinationChainID ∧ offset = pl.opts.destinationFinalityOffset
  | _ => True

/-! ## Single transfers -/

theorem mw_within {p : IBCV2Processor} (hs : Makes S (·.Within pl packets) (p.shouldProcess t))
    (hp : Makes S (·.Within pl packets) (p.process { t with state := p.state })) :
    Makes S (·.Within pl packets) (IBCV2ProcessorMW.process p t) := by
  refine fun s => wp_mw (fun _ => trivial) fun _ => (hs s).post fun should s₁ _ => ?_
  refine ⟨fun _ => trivial, fun _ => ⟨trivial, fun _ _ => trivial, ?_⟩⟩
  exact (hp _).post fun _ _ _ => ⟨fun _ _ => ⟨trivial, trivial⟩, fun _ _ => trivial⟩

theorem checkRecv_within :
    Makes S (·.Within pl packets) (checkRecvPacketDeliveryProcessor.process t) := by
  refine .andThen (.call trivial) fun _ => .andThen (.call trivial) fun received => ?_
  cases received with
  | false => exact .ret
  | true => exact .andThen (.call trivial) fun _ => .andThen (.call trivial) fun _ => .ret

theorem checkPacketCommitment_within :
    Makes S (·.Within pl packets) (checkPacketCommitmentProcessor.process t) := by
  refine .andThen (.call trivial) fun _ => .andThen (.call trivial) fun committed => ?_
  cases committed with
  | true => exact .ret
  | false =>
  refine .bind (.call trivial) fun ackTx => .bind (.call trivial) fun timeoutTx => ?_
  cases ackTx <;> cases timeoutTx <;>
    first | exact .ret | exact .andThen (.call trivial) fun _ => .ret

theorem retry_within (p : RetryPacket) : Makes S (·.Within pl packets) (p.processor.process t) := by
  refine .andThen (.call trivial) fun _ => ?_
  split
  · exact .ret
  split
  · exact .ret
  refine .andThen (.call trivial) fun retry => ?_
  cases retry with
  | false => exact .ret
  | true => exact .andThen (.call trivial) fun _ => .ret

theorem gas_within (p : TxGasCalculator) :
    Makes S (·.Within pl packets) (p.processor.process t) := by
  refine .andThen (.call trivial) fun _ => ?_
  split
  · exact .ret
  exact .andThen (.call trivial) fun _ => .andThen (.call trivial) fun _ =>
    .andThen (.call trivial) fun _ => .ret

theorem waitForWriteAck_within :
    Makes S (·.Within pl packets) (waitForWriteAckPacket.process t) := by
  have hrecord (hash : String) (status : Ibcv2WriteAckStatus) :
      Makes S (·.Within pl packets) (recordWriteAck t hash status) :=
    .bind (.call trivial) fun _ => .andThen (.call trivial) fun _ => .ret
  refine .andThen (.call trivial) fun _ => ?_
  split
  · exact .ret
  refine .bind (.call trivial) fun status => ?_
  cases status with
  | ok status => exact hrecord _ status
  | error err =>
    change Makes S _ (if err.is .errWriteAckNotFoundForPacket then _
      else if !err.is .errWriteAckDecoding then _ else _)
    split
    · exact .andThen (.call trivial) fun _ => .ret
    split
    · exact .ret
    · exact hrecord _ _

theorem stateFinisher_within (success error : Bool) :
    Makes S (·.Within pl packets) (stateFinisher success error t) := by
  have hwrite (state : Ibcv2RelayStatus) :
      Makes S (·.Within pl packets) (writeFinalState { t with state := state }) :=
    .bind (.call trivial) fun ans => by cases ans <;> exact .ret
  rw [stateFinisher]
  split
  · exact .ret
  split
  · exact .ret
  split
  · exact .bind (.call trivial) fun _ => hwrite _
  split
  · exact .ret
  split
  · exact .bind (.call trivial) fun _ => hwrite _
  · rename_i status _ _
    cases status <;> exact hwrite _

section Finality

variable (hk : pl.key = newPipelineKey t)
include hk

theorem checkSendFinality_within :
    Makes S (·.Within pl packets)
      ((checkSendFinalityProcessor pl.opts.sourceFinalityOffset).process t) := by
  have hsource : t.sourceChainID = pl.key.sourceChainID :=
    congrArg PipelineKey.sourceChainID hk.symm
  refine .andThen (.call trivial) fun _ =>
    .andThen (.call (.inl ⟨hsource, rfl⟩)) fun finalized => ?_
  cases finalized with
  | false => exact .ret
  | true =>
  change Makes S _ (if t.sourceTxFinalizedTime.isSome then _ else _)
  split
  · exact .ret
  · exact .bind (.call trivial) fun _ => .andThen (.call trivial) fun _ => .ret

theorem checkTimeoutFinality_within :
    Makes S (·.Within pl packets)
      ((checkTimeoutFinalityProcessor pl.opts.destinationFinalityOffset).process t) := by
  have hdest : t.destinationChainID = pl.key.destinationChainID :=
    congrArg PipelineKey.destinationChainID hk.symm
  refine .andThen (.call trivial) fun _ => .andThen (.call ⟨hdest, rfl⟩) fun finalized => ?_
  cases finalized <;> exact .ret

theorem checkWriteAckFinality_within (success error : Bool) : Makes S (·.Within pl packets)
    ((checkWriteAckFinalityProcessor success error pl.opts.destinationFinalityOffset).process
      t) := by
  have hdest : t.destinationChainID = pl.key.destinationChainID :=
    congrArg PipelineKey.destinationChainID hk.symm
  refine .andThen (.call trivial) fun _ => ?_
  split
  · exact .ret
  refine .andThen (.call (.inr ⟨hdest, rfl⟩)) fun finalized => ?_
  cases finalized with
  | false => exact .ret
  | true =>
  change Makes S _ (if t.writeAckTxFinalizedTime.isSome then _ else _)
  split
  · exact .ret
  · exact .bind (.call trivial) fun _ => .andThen (.call trivial) fun _ => .ret

/-- A stage that is no batch stage. -/
theorem process_within {st : Stage} (hst : ∀ k, st ≠ batchStage k) :
    Makes S (·.Within pl packets) (st.process pl t) := by
  have hk' (state : Ibcv2RelayStatus) : pl.key = newPipelineKey { t with state := state } := hk
  have hsingle {p : IBCV2Processor} (hp : st.processor pl = .single p)
      (h : Makes S (·.Within pl packets) (IBCV2ProcessorMW.process p t)) :
      Makes S (·.Within pl packets) (st.process pl t) := fun s => wp_single hp (h s)
  cases st with
  | checkRecvPacketDelivery => exact hsingle rfl (mw_within .ret checkRecv_within)
  | checkInitialPacketCommitment => exact hsingle rfl (mw_within .ret checkPacketCommitment_within)
  | checkSendPacketFinality => exact hsingle rfl (mw_within .ret (checkSendFinality_within (hk' _)))
  | checkTimeoutTimestampFinality =>
    exact hsingle rfl (mw_within (.bind (.bind (.call trivial) fun _ => .ret) fun _ => .ret)
      (checkTimeoutFinality_within (hk' _)))
  | batchTimeoutPacket => exact absurd rfl (hst .timeout)
  | retryTimeoutPacket => exact hsingle rfl (mw_within .ret (retry_within _))
  | timeoutTxGasCalculator => exact hsingle rfl (mw_within .ret (gas_within _))
  | batchRecvPacket => exact absurd rfl (hst .recv)
  | retryRecvPacket => exact hsingle rfl (mw_within .ret (retry_within _))
  | recvTxGasCalculator => exact hsingle rfl (mw_within .ret (gas_within _))
  | waitForWriteAckPacket => exact hsingle rfl (mw_within .ret waitForWriteAck_within)
  | checkWriteAckFinality =>
    exact hsingle rfl (mw_within .ret (checkWriteAckFinality_within (hk' _) _ _))
  | checkPostReceivePacketCommitment =>
    exact hsingle rfl (mw_within .ret checkPacketCommitment_within)
  | batchAckPacket => exact absurd rfl (hst .ack)
  | retryAckPacket => exact hsingle rfl (mw_within .ret (retry_within _))
  | ackTxGasCalculator => exact hsingle rfl (mw_within .ret (gas_within _))
  | stateFinisher => exact .bind (stateFinisher_within _ _) fun _ => .ret

end Finality

/-! ## Batches -/

theorem shouldProcess_within (u : IBCV2Transfer) (s : σ) :
    wp S (fun c _ => c.Within pl packets) ((batchOf pl k).shouldProcess u)
      (fun should _ => should = true → pl.Wants k u) s := by
  have h : wp (focus u.key anyAnswer) _ ((batchOf pl k).shouldProcess u) _ _ :=
    shouldProcess_spec u ⟨insertedRow somePacket, []⟩
  have hguard : wp S (fun _ _ => True) ((batchOf pl k).shouldProcess u)
      (fun should _ => should = true → pl.Wants k u) s :=
    h.simulate (fun _ _ => True) (fun _ _ _ _ _ _ => ⟨trivial, trivial⟩) (fun _ _ _ _ _ => trivial)
      (fun should _ _ _ hq hs hack => by
        subst hack
        obtain ⟨⟨-, status, -, hstatus, hrelays⟩, -⟩ := (hq.2.2.1 hs).deliverable
        exact ⟨status, hstatus, hrelays⟩) trivial
  rcases shouldProcess_eq pl k u with ⟨should, he⟩ | ⟨reader, f, he⟩
  · rw [he] at hguard ⊢
    exact hguard
  · rw [he] at hguard ⊢
    exact ⟨trivial, hguard.2⟩

theorem forward_within (u : IBCV2Transfer) :
    Makes S (·.Within pl packets) ((batchOf pl k).forward u) := by
  intro s
  rw [BatchPacket.forward]
  split
  · trivial
  · exact (shouldProcess_within u s).post fun _ _ _ => trivial

/-- Where the loop of the middleware is: what it hands on is wanted. -/
structure Routed.Sorted (pl : Pipeline) (k : TxKind) (batch : List Ref) (h : Heap) (rest : List Ref)
    (a : Routed) : Prop where
  along : a.Along batch h rest
  wanted (r : Ref) : r ∈ a.toProcess → pl.Wants k (a.heap r)

section Batch

variable {batch rest transfers : List Ref} {h : Heap} {a : Routed} {r : Ref}

theorem Routed.Sorted.updated (ha : a.Sorted pl k batch h (r :: rest)) (hw : pl.Wants k (a.heap r))
    (state : Ibcv2RelayStatus) (ans : Except Err Unit) :
    (a.updated r state ans).Sorted pl k batch h rest := by
  refine ⟨ha.along.updated state ans, fun j hj => ?_⟩
  by_cases hjr : j = r
  · subst hjr
    cases ans with
    | ok u =>
      rw [Routed.heap_updated_ok]
      exact hw
    | error err =>
      rw [Routed.heap_updated_error]
      exact hw
  · rw [Routed.heap_updated_of_ne a state ans hjr]
    rw [Routed.toProcess_updated, List.mem_append, List.mem_singleton] at hj
    exact ha.wanted j (hj.resolve_right hjr)

theorem routeOne_within (ha : a.Sorted pl k batch h (r :: rest)) (s : σ) :
    wp S (fun c _ => c.Within pl packets)
      (IBCV2BatchProcessorMW.routeOne (batchOf pl k).processor r a)
      (fun b _ => b.Sorted pl k batch h rest) s := by
  have hskip : (a.skip r).Sorted pl k batch h rest := ⟨ha.along.skip, ha.wanted⟩
  exact wp_routeOne (fun _ => hskip) fun _ => (shouldProcess_within (a.heap r) s).post fun _ _ hw =>
    ⟨fun _ => hskip, fun hs => ⟨trivial, fun ans => ha.updated (hw hs) _ ans⟩⟩

theorem route_within (batch : List Ref) (h : Heap) (s : σ) :
    wp S (fun c _ => c.Within pl packets)
      (IBCV2BatchProcessorMW.route (batchOf pl k).processor batch { heap := h })
      (fun a _ => a.Sorted pl k batch h []) s :=
  wp_each (fun rest (a : Routed) _ => a.Sorted pl k batch h rest)
    (fun _ _ _ s ha => routeOne_within ha s) batch _
    ⟨.start batch h, fun _ hr => absurd hr List.not_mem_nil⟩

theorem txStatements_within (sts : List (Query × (Err → Err))) :
    Makes S (·.Within pl packets) (txStatements sts) := by
  induction sts with
  | nil => exact .ret
  | cons st sts ih => exact .andThen (.call trivial) fun _ => ih

theorem execTx_within (sts : List (Query × (Err → Err))) :
    Makes S (·.Within pl packets) (execTx sts) := by
  refine .andThen (.call trivial) fun _ => .bind (txStatements_within sts) fun o => ?_
  cases o with
  | ok _ => exact .call trivial
  | error err =>
    refine .bind (.call trivial) fun ans => ?_
    cases ans <;> exact .ret

theorem waitForEVM_within (chainID : String) :
    Makes S (·.Within pl packets) (BatchPacket.waitForEVM chainID) := by
  refine .bind (.call trivial) fun type => ?_
  cases type with
  | evm => exact .call trivial
  | cosmos => exact .ret
  | svm => exact .ret

/-- The delivery is for what the processor was handed. -/
theorem batchProcess_within (hnd : transfers.Nodup) (hp : ∀ r ∈ transfers, (h r).packet ∈ packets)
    (hw : ∀ r ∈ transfers, pl.Wants k (h r)) :
    Makes S (·.Within pl packets) ((batchOf pl k).process transfers h) := by
  have hg := (batchOf pl k).gather_spec hnd { heap := h }
  rw [BatchPacket.process]
  set g := (batchOf pl k).gather transfers { heap := h }
  refine .bind (.andThen (.call trivial) fun resp => .andThen (.call trivial) fun _ =>
    .andThen (waitForEVM_within _) fun _ => .andThen (.call ?_) fun tx =>
      .andThen (execTx_within _) fun _ => .ret)
    fun o => ?_
  · have hkind := batchOf_kind pl k
    refine ⟨by rw [hkind], ⟨g.txIDs, g.sequences, by rw [hkind]⟩, fun u hu => ?_⟩
    obtain ⟨r, hr, rfl⟩ := List.mem_map.mp hu
    obtain ⟨err, he⟩ := hg.same r
    rw [he, hkind]
    exact ⟨hp r hr, hw r hr⟩
  · cases o <;> exact .ret

theorem processBatch_within {d : IBCV2Transfer} {ts : List IBCV2Transfer}
    (hp : ∀ t ∈ ts, t.packet ∈ packets) :
    Makes S (·.Within pl packets) ((batchOf pl k).processBatch d ts) := by
  refine fun s => wp_bind.mpr ((route_within _ _ s).post fun a s' ha => ?_)
  obtain ⟨hl, -⟩ := ha.along.done
  have hpackets (r : Ref) (hr : r ∈ a.toProcess) : (a.heap r).packet ∈ packets := by
    rw [ha.along.packet r, ofList_apply d (List.mem_range.mp (hl.subset hr))]
    exact hp _ (List.getElem_mem _)
  refine wp_bind.mpr ((batchProcess_within (hl.nodup List.nodup_range) hpackets ha.wanted s').post
    fun x _ _ => ?_)
  obtain ⟨o, h'⟩ := x
  cases o with
  | ok _ => trivial
  | error err =>
    change wp _ _ (if err.is .contextCanceled then _ else _) _ _
    split <;> trivial

end Batch

/-! ## Goroutines -/

/-- A goroutine of a pipeline, with the packets it was given. -/
def Task.Within (pl : Pipeline) (packets : List Packet) (task : Task) : Prop :=
  wp (settled false) (fun c _ => c.Within pl packets) task.prog
    (fun out _ => ∀ tok ∈ out, tok.pipeline = pl ∧ tok.transfer.packet ∈ packets) ()

theorem Started.within {tok : Token} {task : Task} (h : Started tok task)
    (hk : tok.pipeline.key = newPipelineKey tok.transfer) :
    task.Within tok.pipeline [tok.transfer.packet] := by
  cases h with
  | @decides k rest hst =>
    refine wp_bind.mpr ((forward_within tok.transfer ()).post fun should _ _ => ?_)
    intro tok' hm
    obtain rfl := List.mem_singleton.mp hm
    exact ⟨rfl, List.mem_cons_self⟩
  | @works st rest hq hst hb =>
    refine wp_bind.mpr
      (((process_within hk hb ()).and (process_packet _ tok.pipeline st tok.transfer ())).mono
      (fun _ _ hc => hc.1) fun o _ ho tok' hm => ?_)
    cases o with
    | none => exact absurd hm List.not_mem_nil
    | some t' =>
      obtain rfl := List.mem_singleton.mp hm
      exact ⟨rfl, List.mem_singleton.mpr (ho.2 t' rfl)⟩

theorem Collected.within {toks : List Token} {task : Task} (h : Collected toks task) :
    ∃ pl, (∀ tok ∈ toks, tok.pipeline = pl) ∧ task.Within pl (toks.map (·.transfer.packet)) := by
  cases h with
  | @mk pl k rest d hall =>
  refine ⟨pl, fun tok hm => (hall tok hm).2.1, ?_⟩
  have hp : ∀ t ∈ toks.map (·.transfer), t.packet ∈ toks.map (·.transfer.packet) := by
    intro t ht
    obtain ⟨tok, hm, rfl⟩ := List.mem_map.mp ht
    exact List.mem_map_of_mem hm
  refine wp_bind.mpr (((processBatch_within hp ()).and (processBatch_frames d _ ())).mono
    (fun _ _ hc => hc.1) ?_)
  rintro ⟨o, h'⟩ _ ⟨-, hpacket, hrefs⟩ tok' hm
  cases o with
  | error err => exact absurd hm List.not_mem_nil
  | ok refs =>
    obtain ⟨r, hr, rfl⟩ := List.mem_map.mp hm
    have hr' := List.mem_range.mp (hrefs refs rfl hr)
    refine ⟨rfl, ?_⟩
    rw [hpacket r, ofList_apply d hr']
    exact hp _ (List.getElem_mem _)

end PlatformRelayer

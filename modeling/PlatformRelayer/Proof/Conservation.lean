import PlatformRelayer.Framework.Draining
import PlatformRelayer.Proof.Jobs

/-!
# What is in a pipeline

The dedupers keep out a transfer as long as its key is in `inPipeline`, which is
until the transfer comes out of the pipeline. A transfer that a stage drops does
not come out: then its key stays, with no job that holds it, and the packet is
not worked on again until the process is restarted (`dropped_kept_out`).

A stage drops a transfer only with an error of a cancelled context. No processor
makes one up (`Uncancelled`), so where no call is answered by one, whatever else
fails, the dispatcher gets every row that it polls into the hands of a job
(`polled_row_held`).
-/

namespace PlatformRelayer

open Prog Db Relation

/-! ## Errors of a cancelled context -/

def NotCancelled {α : Type} (x : Except Err α) : Prop :=
  ∀ err, x = .error err → err.is .contextCanceled = false

def Call.Uncancelled : (c : Call) → c.Ans → Prop
  | .now _, _ => True
  | .chainType _, _ => True
  | .addRelayCompleted .., _ => True
  | .collect _, _ => True
  | .getClient _, ans => NotCancelled ans
  | .waitForChain _, ans => NotCancelled ans
  | .isPacketReceived .., ans => NotCancelled ans
  | .isPacketCommitted .., ans => NotCancelled ans
  | .findRecvTx .., ans => NotCancelled ans
  | .findAckTx .., ans => NotCancelled ans
  | .findTimeoutTx .., ans => NotCancelled ans
  | .deliverTx .., ans => NotCancelled ans
  | .packetWriteAckStatus .., ans => NotCancelled ans
  | .shouldRetryTx .., ans => NotCancelled ans
  | .isTxFinalized .., ans => NotCancelled ans
  | .isTimestampFinalized .., ans => NotCancelled ans
  | .txFee .., ans => NotCancelled ans
  | .relayByTx _, ans => NotCancelled ans
  | .getCoinUsdValue .., ans => NotCancelled ans
  | .exec _, ans => NotCancelled ans
  | .txBegin, ans => NotCancelled ans
  | .txExec _, ans => NotCancelled ans
  | .txCommit _, ans => NotCancelled ans
  | .txRollback, ans => NotCancelled ans

/-- The calls with answers that are no errors of a cancelled context. -/
def uncancelled : Sem Call Call.Ans Unit where
  adm c ans _ := c.Uncancelled ans
  next _ _ _ := ()

/-- With such answers a program returns no error of a cancelled context. -/
def Uncancelled {α : Type} (x : Relay (Except Err α)) : Prop :=
  wp uncancelled (fun _ _ => True) x (fun r _ => NotCancelled r) ()

namespace Uncancelled

variable {α β : Type} {a : α} {err : Err}

theorem ok : Uncancelled (.ret (.ok a) : Relay (Except Err α)) := fun _ h => by cases h

theorem error (h : err.is .contextCanceled = false) :
    Uncancelled (.ret (.error err) : Relay (Except Err α)) := by
  intro e he
  obtain rfl := Except.error.inj he
  exact h

theorem bind {x : Relay β} {f : β → Relay (Except Err α)}
    (hf : ∀ b, Uncancelled (f b)) : Uncancelled (x.bind f) :=
  wp_bind.mpr (wp_of_forall (fun b _ => hf b) _ _)

theorem andThen {x : Relay (Except Err β)} {f : Except Err β → Relay (Except Err α)}
    (hx : Uncancelled x) (hf : ∀ r, NotCancelled r → Uncancelled (f r)) : Uncancelled (x.bind f) :=
  wp_bind.mpr (hx.post fun r _ => hf r)

theorem attempt_of_wraps {x : Relay (Except Err β)} {w : Err → Err} {f : β → Relay (Except Err α)}
    (hx : Uncancelled x) (hw : ∀ err, (w err).wraps = err.wraps)
    (hf : ∀ b, Uncancelled (f b)) : Uncancelled (Prog.attempt x w f) := by
  refine wp_try (hx.post fun r _ hr => ⟨fun err he => ?_, fun b _ => hf b⟩)
  intro e h
  obtain rfl := Except.error.inj h
  exact (congrArg (·.contains .contextCanceled) (hw err)).trans (hr err he)

theorem attempt {x : Relay (Except Err β)} {format : String} {args : List Arg}
    {f : β → Relay (Except Err α)}
    (hx : Uncancelled x) (hf : ∀ b, Uncancelled (f b)) :
    Uncancelled (Prog.attempt x (errorf format args) f) :=
  attempt_of_wraps hx (fun _ => rfl) hf

end Uncancelled

/-! ## Single transfers -/

section Single

variable {t : IBCV2Transfer}

theorem checkRecv_uncancelled : Uncancelled (checkRecvPacketDeliveryProcessor.process t) := by
  refine .attempt ⟨trivial, fun _ h => h⟩ fun _ =>
    .attempt ⟨trivial, fun _ h => h⟩ fun received => ?_
  cases received with
  | false => exact .ok
  | true => exact .attempt ⟨trivial, fun _ h => h⟩ fun _ =>
    .attempt ⟨trivial, fun _ h => h⟩ fun _ => .ok

theorem checkPacketCommitment_uncancelled :
    Uncancelled (checkPacketCommitmentProcessor.process t) := by
  refine .attempt ⟨trivial, fun _ h => h⟩ fun _ =>
    .attempt ⟨trivial, fun _ h => h⟩ fun committed => ?_
  cases committed with
  | true => exact .ok
  | false =>
  refine .bind fun ackTx => .bind fun timeoutTx => ?_
  cases ackTx <;> cases timeoutTx <;>
    first | exact .error rfl | exact .attempt ⟨trivial, fun _ h => h⟩ fun _ => .ok

theorem checkSendFinality_uncancelled (offset : Option UInt64) :
    Uncancelled ((checkSendFinalityProcessor offset).process t) := by
  refine .attempt ⟨trivial, fun _ h => h⟩ fun _ =>
    .attempt ⟨trivial, fun _ h => h⟩ fun finalized => ?_
  cases finalized with
  | false => exact .error rfl
  | true =>
  change Uncancelled (if t.sourceTxFinalizedTime.isSome then _ else _)
  split
  · exact .ok
  · exact .bind fun _ => .attempt ⟨trivial, fun _ h => h⟩ fun _ => .ok

theorem checkTimeoutFinality_uncancelled (offset : Option UInt64) :
    Uncancelled ((checkTimeoutFinalityProcessor offset).process t) := by
  refine .attempt ⟨trivial, fun _ h => h⟩ fun _ =>
    .attempt ⟨trivial, fun _ h => h⟩ fun finalized => ?_
  cases finalized with
  | false => exact .error rfl
  | true => exact .ok

theorem checkWriteAckFinality_uncancelled (success error : Bool) (offset : Option UInt64) :
    Uncancelled ((checkWriteAckFinalityProcessor success error offset).process t) := by
  refine .attempt ⟨trivial, fun _ h => h⟩ fun _ => ?_
  split
  · exact .error rfl
  refine .attempt ⟨trivial, fun _ h => h⟩ fun finalized => ?_
  cases finalized with
  | false => exact .error rfl
  | true =>
  change Uncancelled (if t.writeAckTxFinalizedTime.isSome then _ else _)
  split
  · exact .ok
  · exact .bind fun _ => .attempt ⟨trivial, fun _ h => h⟩ fun _ => .ok

theorem waitForWriteAck_uncancelled : Uncancelled (waitForWriteAckPacket.process t) := by
  have hrecord (hash : String) (status : Ibcv2WriteAckStatus) :
      Uncancelled (recordWriteAck t hash status) :=
    .bind fun _ => .attempt ⟨trivial, fun _ h => h⟩ fun _ => .ok
  refine .attempt ⟨trivial, fun _ h => h⟩ fun _ => ?_
  split
  · exact .error rfl
  refine .andThen ⟨trivial, fun _ h => h⟩ fun status hstatus => ?_
  cases status with
  | ok status => exact hrecord _ status
  | error err =>
    change Uncancelled (if err.is .errWriteAckNotFoundForPacket then _
      else if !err.is .errWriteAckDecoding then _ else _)
    split
    · exact .attempt ⟨trivial, fun _ h => h⟩ fun _ => .error rfl
    split
    · exact .error (hstatus err rfl)
    · exact hrecord _ _

theorem retry_uncancelled (p : RetryPacket) (hp : p.retrying.err.is .contextCanceled = false) :
    Uncancelled (p.processor.process t) := by
  refine .attempt ⟨trivial, fun _ h => h⟩ fun _ => ?_
  split
  · exact .error rfl
  split
  · exact .error rfl
  refine .attempt ⟨trivial, fun _ h => h⟩ fun retry => ?_
  cases retry with
  | false => exact .ok
  | true => exact .attempt ⟨trivial, fun _ h => h⟩ fun _ => .error hp

theorem gas_uncancelled (p : TxGasCalculator) : Uncancelled (p.processor.process t) := by
  refine .attempt ⟨trivial, fun _ h => h⟩ fun _ => ?_
  split
  · exact .error rfl
  exact .attempt ⟨trivial, fun _ h => h⟩ fun _ => .attempt ⟨trivial, fun _ h => h⟩ fun _ =>
    .attempt ⟨trivial, fun _ h => h⟩ fun _ => .ok

/-- The middleware returns the transfer. -/
theorem mw_kept {p : IBCV2Processor} (hp : ∀ t, Uncancelled (p.process t)) (t : IBCV2Transfer) :
    wp uncancelled (fun _ _ => True) (IBCV2ProcessorMW.process p t) (fun r _ => r.toOption.isSome)
      () := by
  rw [IBCV2ProcessorMW.process]
  split
  · rfl
  split
  · rfl
  refine wp_bind.mpr (wp_of_forall (fun should _ => ?_) _ _)
  cases should with
  | false => rfl
  | true =>
  refine ⟨trivial, fun ans _ => ?_⟩
  cases ans with
  | error err => rfl
  | ok _ =>
  change wp _ _ ((p.process { t with state := p.state }).bind _) _ _
  refine wp_bind.mpr ((hp _).post fun o _ ho => ?_)
  cases o with
  | ok output => rfl
  | error err =>
    change wp _ _ (if err.is .contextCanceled then _ else _) _ _
    rw [if_neg (by simp [ho err rfl])]
    rfl

/-- A stage that is no batch stage sends the transfer on. -/
theorem process_kept {pl : Pipeline} {st : Stage} (hst : ∀ k, st ≠ batchStage k)
    (t : IBCV2Transfer) :
    wp uncancelled (fun _ _ => True) (st.process pl t) (fun o _ => o.isSome) () := by
  have hsingle {p : IBCV2Processor} (hp : st.processor pl = .single p)
      (h : ∀ t, Uncancelled (p.process t)) :
      wp uncancelled (fun _ _ => True) (st.process pl t) (fun o _ => o.isSome) () :=
    wp_single hp (mw_kept h t)
  cases st with
  | checkRecvPacketDelivery => exact hsingle rfl fun _ => checkRecv_uncancelled
  | checkInitialPacketCommitment => exact hsingle rfl fun _ => checkPacketCommitment_uncancelled
  | checkSendPacketFinality => exact hsingle rfl fun _ => checkSendFinality_uncancelled _
  | checkTimeoutTimestampFinality => exact hsingle rfl fun _ => checkTimeoutFinality_uncancelled _
  | batchTimeoutPacket => exact absurd rfl (hst .timeout)
  | retryTimeoutPacket => exact hsingle rfl fun _ => retry_uncancelled _ rfl
  | timeoutTxGasCalculator => exact hsingle rfl fun _ => gas_uncancelled _
  | batchRecvPacket => exact absurd rfl (hst .recv)
  | retryRecvPacket => exact hsingle rfl fun _ => retry_uncancelled _ rfl
  | recvTxGasCalculator => exact hsingle rfl fun _ => gas_uncancelled _
  | waitForWriteAckPacket => exact hsingle rfl fun _ => waitForWriteAck_uncancelled
  | checkWriteAckFinality => exact hsingle rfl fun _ => checkWriteAckFinality_uncancelled _ _ _
  | checkPostReceivePacketCommitment => exact hsingle rfl fun _ => checkPacketCommitment_uncancelled
  | batchAckPacket => exact absurd rfl (hst .ack)
  | retryAckPacket => exact hsingle rfl fun _ => retry_uncancelled _ rfl
  | ackTxGasCalculator => exact hsingle rfl fun _ => gas_uncancelled _
  | stateFinisher => exact wp_bind.mpr (wp_of_forall (fun _ _ => rfl) _ _)

end Single

/-! ## Batches -/

section Batch

variable {pl : Pipeline} {k : TxKind}

theorem txStatements_uncancelled {sts : List (Query × (Err → Err))}
    (hw : ∀ st ∈ sts, ∀ err, (st.2 err).wraps = err.wraps) : Uncancelled (txStatements sts) := by
  induction sts with
  | nil => exact .ok
  | cons st sts ih =>
    exact .attempt_of_wraps ⟨trivial, fun _ h => h⟩ (hw st List.mem_cons_self)
      fun _ => ih fun st' h => hw st' (List.mem_cons_of_mem _ h)

theorem execTx_uncancelled {sts : List (Query × (Err → Err))}
    (hw : ∀ st ∈ sts, ∀ err, (st.2 err).wraps = err.wraps) : Uncancelled (execTx sts) := by
  refine .attempt_of_wraps ⟨trivial, fun _ h => h⟩ (fun _ => rfl) fun _ =>
    .andThen (txStatements_uncancelled hw) fun r hr => ?_
  cases r with
  | ok _ => exact ⟨trivial, fun _ h => h⟩
  | error err =>
    refine .andThen ⟨trivial, fun _ h => h⟩ fun rb hrb => ?_
    cases rb with
    | ok _ => exact .error (hr err rfl)
    | error rbErr =>
      refine .error ?_
      have h := hr err rfl
      have h' := hrb rbErr rfl
      simp only [Err.is, errorf₂, List.contains_eq_mem, List.mem_append] at h h' ⊢
      simp_all

theorem submit_uncancelled (p : BatchPacket) (req : RelayByTxRequest) (numTransfers : Nat)
    (transfers : List Ref) (h : Heap) : Uncancelled (p.submit req numTransfers transfers h) := by
  have hwait : Uncancelled (BatchPacket.waitForEVM p.chainID) := by
    refine .bind fun type => ?_
    cases type with
    | evm => exact ⟨trivial, fun _ h => h⟩
    | _ => exact .ok
  have hwraps (tx : BridgeTx) : ∀ st ∈ p.statements tx transfers h, ∀ err,
      (st.2 err).wraps = err.wraps := by
    intro st hst err
    obtain ⟨r, -, rfl⟩ := List.mem_map.mp hst
    rfl
  exact .attempt ⟨trivial, fun _ h => h⟩ fun _ => .attempt ⟨trivial, fun _ h => h⟩ fun _ =>
    .attempt hwait fun _ =>
    .attempt ⟨trivial, fun _ h => h⟩ fun tx =>
      .attempt (execTx_uncancelled (hwraps tx)) fun _ => .ok

/-- What follows the loop of the middleware returns the transfers of its two
lists. -/
theorem finish_kept (p : BatchPacket) (a : Routed) :
    wp uncancelled (fun _ _ => True) (IBCV2BatchProcessorMW.finish p.processor a)
      (fun x _ => x.1 = .ok (a.toProcess ++ a.notProcessing)) () := by
  have hp : wp uncancelled (fun _ _ => True) (p.process a.toProcess a.heap)
      (fun x _ => NotCancelled x.1 ∧ ∀ refs, x.1 = .ok refs → refs = a.toProcess) () := by
    refine wp_bind.mpr ((submit_uncancelled p _ _ _ _).post fun r _ hr => ?_)
    cases r with
    | error err => exact ⟨fun e he => hr e (congrArg Except.error (Except.error.inj he)),
      fun _ h => by cases h⟩
    | ok tx => exact ⟨fun _ h => (by cases h), fun refs h => (Except.ok.inj h).symm⟩
  refine wp_bind.mpr (hp.post ?_)
  rintro ⟨o, h'⟩ _ ⟨hcancel, hrefs⟩
  cases o with
  | error err =>
    change wp _ _ (if err.is .contextCanceled then _ else _) _ _
    rw [if_neg (by simp [hcancel err rfl])]
    rfl
  | ok refs =>
    obtain rfl := hrefs refs rfl
    rfl

/-- A batch sends on all of its transfers. -/
theorem processBatch_kept (d : IBCV2Transfer) (ts : List IBCV2Transfer) :
    wp uncancelled (fun _ _ => True) ((batchOf pl k).processBatch d ts)
      (fun x _ => ∃ refs, x.1 = .ok refs ∧ List.range ts.length ⊆ refs) () := by
  have hroute : wp uncancelled (fun _ _ => True)
      (IBCV2BatchProcessorMW.route (batchOf pl k).processor (List.range ts.length)
        { heap := Heap.ofList d ts })
      (fun a _ => List.range ts.length ⊆ a.toProcess ++ a.notProcessing) () := by
    refine (route_passed (batchOf_guardReads pl k) _ _ ⟨[], .nil⟩).simulate (fun _ _ => True)
      (fun _ _ _ _ _ _ => ⟨trivial, trivial⟩) (fun _ _ _ _ _ => trivial)
      (fun a w _ _ ha => ?_) trivial
    obtain ⟨done, again, hb, hperm, -⟩ := ha
    rw [hb, List.append_nil]
    exact fun r hr => hperm.symm.subset (List.mem_append_left _ hr)
  refine wp_bind.mpr (hroute.post fun a _ ha => (finish_kept _ a).post fun x _ hx => ⟨_, hx, ha⟩)

end Batch

/-! ## Jobs -/

section Jobs

variable {tok : Token} {task : Task} {toks : List Token}

/-- The transfer that a pointer of a batch is for. -/
theorem entry_sendOn {pl : Pipeline} (rest : List Stage) {d : IBCV2Transfer} {h : Heap}
    (hpl : ∀ u ∈ toks, u.pipeline = pl)
    (hpacket : ∀ r, (h r).packet = (Heap.ofList d (toks.map (·.transfer)) r).packet) {r : Ref}
    (hr : r < toks.length) : Token.entry ⟨pl, h r, rest, false⟩ = toks[r].entry := by
  have hlen : (toks.map (·.transfer)).length = toks.length := List.length_map _
  have hk : (h r).packet = toks[r].transfer.packet := by
    rw [hpacket r, ofList_apply d (hlen ▸ hr), List.getElem_map]
  exact Prod.ext (congrArg Pipeline.key (hpl _ (List.getElem_mem hr)).symm) (congrArg Packet.key hk)

/-- A goroutine sends on nothing but what it holds. -/
def Job.SendsOnly : Job → Prop
  | .rest _ => True
  | .run task =>
  wp (settled false) (fun _ _ => True) task.prog (fun out _ => out.map Token.entry ⊆ task.holds) ()

/-- Where its calls are not answered by errors of a cancelled context, a
goroutine sends on all that it holds. -/
def Job.SendsAll : Job → Prop
  | .rest _ => True
  | .run task =>
  wp uncancelled (fun _ _ => True) task.prog (fun out _ => task.holds ⊆ out.map Token.entry) ()

theorem entry_of_packet {t : IBCV2Transfer} (ht : t.packet = tok.transfer.packet)
    (rest : List Stage) : Token.entry { tok with transfer := t, stages := rest } = tok.entry :=
  Prod.ext rfl (congrArg Packet.key ht)

theorem start_sendsOnly (h : tok.start = some task) : (Job.run task).SendsOnly := by
  cases started h with
  | @decides k rest hst => exact wp_bind.mpr (wp_of_forall (fun _ _ => List.Subset.refl _) _ _)
  | @works st rest hq hst hb =>
    refine wp_bind.mpr ((process_packet _ tok.pipeline st tok.transfer ()).post fun o _ ho => ?_)
    cases o with
    | none => exact List.nil_subset _
    | some t' =>
      change [Token.entry { tok with transfer := t', stages := rest }] ⊆ [tok.entry]
      rw [entry_of_packet (ho t' rfl)]
      exact List.Subset.refl _

theorem start_sendsAll (h : tok.start = some task) : (Job.run task).SendsAll := by
  cases started h with
  | @decides k rest hst => exact wp_bind.mpr (wp_of_forall (fun _ _ => List.Subset.refl _) _ _)
  | @works st rest hq hst hb =>
    refine wp_bind.mpr
      (((process_packet _ tok.pipeline st tok.transfer ()).and (process_kept hb tok.transfer)).mono
      (fun _ _ _ => trivial) fun o _ ho => ?_)
    obtain ⟨t', rfl⟩ := Option.isSome_iff_exists.mp ho.2
    change [tok.entry] ⊆ [Token.entry { tok with transfer := t', stages := rest }]
    rw [entry_of_packet (ho.1 t' rfl)]
    exact List.Subset.refl _

theorem collect_sendsOnly (h : collect toks = some task) : (Job.run task).SendsOnly := by
  cases collected h with
  | @mk pl k rest d hall =>
  have hpl : ∀ u ∈ toks, u.pipeline = pl := fun u hu => (hall u hu).2.1
  have hlen : (toks.map (·.transfer)).length = toks.length := List.length_map _
  refine wp_bind.mpr ((processBatch_frames d _ ()).mono (fun _ _ _ => trivial) ?_)
  rintro ⟨o, h'⟩ _ ⟨hpacket, hrefs⟩
  cases o with
  | error err => exact List.nil_subset _
  | ok refs =>
    intro e he
    obtain ⟨u, hu, rfl⟩ := List.mem_map.mp he
    obtain ⟨r, hr, rfl⟩ := List.mem_map.mp hu
    have hr' : r < toks.length := hlen ▸ List.mem_range.mp (hrefs refs rfl hr)
    rw [entry_sendOn rest hpl hpacket hr']
    exact List.mem_map_of_mem (List.getElem_mem hr')

theorem collect_sendsAll (h : collect toks = some task) : (Job.run task).SendsAll := by
  cases collected h with
  | @mk pl k rest d hall =>
  have hpl : ∀ u ∈ toks, u.pipeline = pl := fun u hu => (hall u hu).2.1
  have hlen : (toks.map (·.transfer)).length = toks.length := List.length_map _
  refine wp_bind.mpr (((processBatch_frames d _ ()).and (processBatch_kept d _)).mono
    (fun _ _ _ => trivial) ?_)
  rintro ⟨o, h'⟩ _ ⟨⟨hpacket, -⟩, refs, ho, hrefs⟩
  obtain rfl : o = .ok refs := ho
  intro e he
  obtain ⟨u, hu, rfl⟩ := List.mem_map.mp he
  obtain ⟨r, hr, rfl⟩ := List.getElem_of_mem hu
  have hsent := entry_sendOn rest hpl hpacket hr
  refine List.mem_map.mpr ⟨_,
    List.mem_map_of_mem (hrefs (List.mem_range.mpr (hlen.symm ▸ hr))), hsent⟩

variable {db db' : Transfers} {old new : List Job}

theorem JobStep.sendsOnly {adm : (c : Call) → c.Ans → Prop} (h : JobStep adm db old new db')
    (hold : ∀ j ∈ old, j.SendsOnly) : ∀ j ∈ new, j.SendsOnly := by
  refine h.preserves hold (fun htask _ => start_sendsOnly htask)
    (fun htask _ => collect_sendsOnly htask)
    (fun {task c k} ans hc _ honly => ?_) fun _ _ _ _ => trivial
  rw [Job.SendsOnly, hc] at honly
  exact honly.2 ans (by simp [settled])

theorem JobStep.sendsAll (h : JobStep Call.Uncancelled db old new db')
    (hold : ∀ j ∈ old, j.SendsAll) : ∀ j ∈ new, j.SendsAll := by
  refine h.preserves hold (fun htask _ => start_sendsAll htask)
    (fun htask _ => collect_sendsAll htask)
    (fun {task c k} ans hc hans hall => ?_) fun _ _ _ _ => trivial
  rw [Job.SendsAll, hc] at hall
  exact hall.2 ans hans

/-- The transfers change hands only where a goroutine sends them on. -/
theorem JobStep.held_cases {adm : (c : Call) → c.Ans → Prop} (h : JobStep adm db old new db') :
    held new = held old ∨ ∃ task toks, .run task ∈ old ∧ task.prog = .ret toks ∧
      held old = task.holds ∧ held new = toks.map Token.entry := by
  cases h with
  | start htask => cases started htask <;> exact .inl rfl
  | collect htask =>
    rw [held_rest, held_singleton]
    cases collected htask
    exact .inl rfl
  | act ans _ _ => exact .inl rfl
  | @finish task toks hr => exact .inr ⟨task, toks, List.mem_cons_self, hr, held_singleton _,
    held_rest toks⟩

/-- A goroutine makes jobs that hold no other transfers. -/
theorem JobStep.held_subset {adm : (c : Call) → c.Ans → Prop} (h : JobStep adm db old new db')
    (hold : ∀ j ∈ old, j.SendsOnly) : held new ⊆ held old := by
  rcases h.held_cases with he | ⟨task, toks, hm, hr, hheld, hsent⟩
  · exact he ▸ List.Subset.refl _
  · have honly := hold _ hm
    rw [Job.SendsOnly, hr] at honly
    rw [hheld, hsent]
    exact honly

/-- It makes jobs that hold all of them. -/
theorem JobStep.subset_held (h : JobStep Call.Uncancelled db old new db')
    (hold : ∀ j ∈ old, j.SendsAll) : held old ⊆ held new := by
  rcases h.held_cases with he | ⟨task, toks, hm, hr, hheld, hsent⟩
  · exact he ▸ List.Subset.refl _
  · have hall := hold _ hm
    rw [Job.SendsAll, hr] at hall
    rw [hheld, hsent]
    exact hall

end Jobs

/-! ## Transfers that are dropped -/

section Turns

variable {s s' : Relayer} {e : Entry}

theorem held_perm {jobs jobs' : List Job} (h : jobs.Perm jobs') : held jobs ⊆ held jobs' :=
  (h.flatMap_right Job.holds).subset

/-- A key whose transfer was dropped. -/
def Relayer.Dropped (s : Relayer) (e : Entry) : Prop := e ∈ s.inPipeline ∧ e ∉ held s.jobs

theorem Relayer.Dropped.changes {adm : (c : Call) → c.Ans → Prop} (h : s.Dropped e)
    (hjobs : ∀ j ∈ s.jobs, j.SendsOnly) (hc : s.Changes adm s') : s'.Dropped e := by
  obtain ⟨hin, hheld⟩ := h
  cases hc with
  | kept hj hi => exact ⟨hi ▸ hin, hj ▸ hheld⟩
  | pushed tok _ hn hi hj =>
    refine ⟨hi ▸ List.mem_cons_of_mem _ hin, fun he => ?_⟩
    rw [hj, held_append, held_singleton] at he
    rcases List.mem_append.mp he with he | he
    · exact hheld he
    · -- The deduper let the transfer in, so it is another one.
      obtain rfl := List.mem_singleton.mp he
      exact hn hin
  | progress hp =>
    cases hp with
    | @work old new others db' hp hw =>
      have hsub := hw.held_subset fun i hi => hjobs i (hp.symm.subset (List.mem_append_left _ hi))
      refine ⟨hin, fun he => hheld (held_perm hp.symm ?_)⟩
      rw [held_append] at he ⊢
      rcases List.mem_append.mp he with he | he
      · exact List.mem_append_right _ he
      · exact List.mem_append_left _ (hsub he)
    | @output tok others hp _ =>
      have hne : e ≠ tok.entry := by
        rintro rfl
        exact hheld (held_perm hp.symm List.mem_cons_self)
      refine ⟨List.mem_filter.mpr ⟨hin, by simpa using hne⟩, fun he => hheld (held_perm hp.symm ?_)⟩
      exact List.mem_cons_of_mem _ he

/-- In every state that the relayer can get to, a key that is in the set of a
deduper while no job holds its transfer stays there, and no job ever holds a
transfer with it again. -/
theorem dropped_kept_out {db : Transfers} {hasPriceClient : Bool}
    (hs : ReflTransGen (Relayer.Turn fun _ _ => True) { db, hasPriceClient } s) (hd : s.Dropped e)
    (hs' : ReflTransGen (Relayer.Turn fun _ _ => True) s s') : s'.Dropped e := by
  induction hs' with
  | refl => exact hd
  | @tail s₁ s₂ hturns ht ih =>
    obtain ⟨a, -, ha⟩ := ht
    have hjobs := jobs_turns (fun _ a _ => answers_any a) (P := Job.SendsOnly) (fun _ _ => trivial)
      (fun h => h.sendsOnly) (hs.trans hturns)
    exact ih.changes hjobs (changes (answers_any a) ha)

/-- The context is cancelled when the first stage asks for a client. -/
def cancelling : (c : Call) → c.Ans
  | .getClient _ => .error Sentinel.contextCanceled.err
  | c => Answers.answer {} c

/-- The first stage has taken the one transfer there is, and dropped it. -/
def dropped : Relayer :=
  (((submitted.after (.start 0)).after (.act 0 cancelling)).after (.act 0 cancelling)).after
    (.finish 0)

theorem dropped_kept_out_cancelled : ∃ e, dropped.Dropped e ∧
    ∀ s', ReflTransGen (Relayer.Turn fun _ _ => True) dropped s' → s'.Dropped e := by
  have hturns : ReflTransGen (Relayer.Turn fun _ _ => True) { db := oneRow } dropped :=
    (turns_after trivial).trans <| (turns_after trivial).trans <| (turns_after trivial).trans <|
      (turns_after trivial).trans <| (turns_after trivial).trans (turns_after trivial)
  have hjobs : dropped.jobs = [] := rfl
  have hin :
      ((insertedRow somePacket).pipelineKey, (insertedRow somePacket).key) ∈ dropped.inPipeline :=
    List.mem_cons_self
  have hd : dropped.Dropped ((insertedRow somePacket).pipelineKey,
      (insertedRow somePacket).key) := by
    refine ⟨hin, ?_⟩
    rw [hjobs]
    exact List.not_mem_nil
  exact ⟨_, hd, fun s' hs' => dropped_kept_out hturns hd hs'⟩

/-! ## Where no context is cancelled -/

theorem subset_held_changes (h : s.inPipeline ⊆ held s.jobs) (hjobs : ∀ j ∈ s.jobs, j.SendsAll)
    (hc : s.Changes Call.Uncancelled s') : s'.inPipeline ⊆ held s'.jobs := by
  intro e he
  cases hc with
  | kept hj hi => exact hj ▸ h (hi ▸ he)
  | pushed tok _ _ hi hj =>
    rw [hj, held_append, held_singleton]
    rw [hi] at he
    rcases List.mem_cons.mp he with rfl | he
    · exact List.mem_append_right _ List.mem_cons_self
    · exact List.mem_append_left _ (h he)
  | progress hp =>
    cases hp with
    | @work old new others db' hp hw =>
      have hsub := hw.subset_held fun i hi => hjobs i (hp.symm.subset (List.mem_append_left _ hi))
      have hmem := held_perm hp (h he)
      rw [held_append] at hmem ⊢
      rcases List.mem_append.mp hmem with hmem | hmem
      · exact List.mem_append_right _ (hsub hmem)
      · exact List.mem_append_left _ hmem
    | @output tok others hp _ =>
      obtain ⟨hin, hne⟩ := List.mem_filter.mp he
      rcases List.mem_cons.mp (held_perm hp (h hin)) with rfl | hmem
      · simp at hne
      · exact hmem

theorem subset_held_turns {db : Transfers} {hasPriceClient : Bool}
    (hs : ReflTransGen (Relayer.Turn fun _ a => a.Answers Call.Uncancelled)
      { db, hasPriceClient } s) :
    s.inPipeline ⊆ held s.jobs := by
  induction hs with
  | refl => exact List.nil_subset _
  | tail hturns ht ih =>
    obtain ⟨a, hadm, ha⟩ := ht
    have hjobs := jobs_turns (fun _ _ h => h) (P := Job.SendsAll) (fun _ _ => trivial)
      (fun h => h.sendsAll) hturns
    exact subset_held_changes ih hjobs (changes hadm ha)

/-- Where no call was answered by an error of a cancelled context: all keys that
are kept out are of transfers in the hands of a job, and once the dispatcher has
submitted a row that it polled, with options for its pipeline, so is the row. -/
theorem polled_row_held {db : Transfers} {hasPriceClient : Bool}
    (hs : ReflTransGen (Relayer.Turn fun _ a => a.Answers Call.Uncancelled)
      { db, hasPriceClient } s) :
    s.inPipeline ⊆ held s.jobs ∧ ∀ r polled opts ans s', s.polled = r :: polled →
      s.step (.submit (.ok opts) ans) = some s' → (r.pipelineKey, r.key) ∈ held s'.jobs := by
  have hsub := subset_held_turns hs
  refine ⟨hsub, fun r polled opts ans s' hr hstep => ?_⟩
  obtain ⟨r', polled', hr', ht⟩ := takes_of_step hstep
  obtain ⟨rfl, rfl⟩ := List.cons.inj (hr.symm.trans hr')
  cases ht with
  | refused hin => exact hsub hin
  | failed h => cases h
  | @pushed pl pipelines hk hn =>
    rw [held_append, held_singleton]
    refine List.mem_append_right _ (List.mem_singleton.mpr ?_)
    exact Prod.ext hk.symm rfl

/-- The row is polled again while its transfer is in the pipeline. -/
theorem polled_row_held_refused : ∃ s',
    (submitted.after .poll).step (.submit (.ok someOptions) (.ok ())) = some s' ∧
    ((insertedRow somePacket).pipelineKey, (insertedRow somePacket).key) ∈ held s'.jobs := by
  have hturns : ReflTransGen (Relayer.Turn fun _ a => a.Answers Call.Uncancelled) { db := oneRow }
      (submitted.after .poll) :=
    (turns_after trivial).trans ((turns_after trivial).trans (turns_after trivial))
  have hpolled : (submitted.after .poll).polled = [insertedRow somePacket] := rfl
  obtain ⟨s', hs'⟩ : ∃ s',
    (submitted.after .poll).step (.submit (.ok someOptions) (.ok ())) = some s' := by
    rw [Relayer.step, hpolled]
    exact ⟨_, rfl⟩
  exact ⟨s', hs', (polled_row_held hturns).2 _ _ _ _ _ hpolled hs'⟩

end Turns

end PlatformRelayer

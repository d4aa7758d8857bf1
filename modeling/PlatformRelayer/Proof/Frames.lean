import PlatformRelayer.Proof.Middleware

/-!
# What a stage writes

Whatever it is answered, a stage makes statements on the rows of the transfers
it works on and on no others, but for the update that fills in no key, and
submits no other transfers (`Call.WritesOnly`). The batch processors return
pointers of the batch, each with the packet it had (`processBatch_frames`),
and if each update of a state succeeds each pointer once
(`processBatch_conserves`).
-/

namespace PlatformRelayer

open Db Prog

/-- The statements of a call are on these rows, and the transfers it submits
are theirs. The update that fills in no key sets a time, of any row. -/
structure Call.WritesOnly (Ks : List TransferKey) (c : Call) : Prop where
  queries : ∀ q ∈ c.queries, q.key ∈ Ks ∨ ∃ time, q.set = .writeAckTxFinalizedTime time
  transfers : ∀ sub, c.submission? = some sub → ∀ u ∈ sub.transfers, u.key ∈ Ks

variable {σ α β : Type} {S : Sem Call Call.Ans σ} {Ks : List TransferKey} {c : Call} {q : Query}

theorem Call.WritesOnly.write (hq : ∀ q ∈ c.queries, q.key ∈ Ks ∨
      ∃ time, q.set = .writeAckTxFinalizedTime time)
    (hs : c.submission? = none) : c.WritesOnly Ks :=
  ⟨hq, fun _ h => absurd (hs.symm.trans h) (by simp)⟩

theorem Call.WritesOnly.mono {Ks' : List TransferKey} (hc : c.WritesOnly Ks)
    (h : Ks ⊆ Ks') : c.WritesOnly Ks' :=
  ⟨fun q hq => (hc.queries q hq).imp_left fun hm => h hm, fun sub hs u hu =>
    h (hc.transfers sub hs u hu)⟩

theorem Call.WritesOnly.exec (hq : q.key ∈ Ks) : (Call.exec q).WritesOnly Ks :=
  .write (fun _ hm => .inl (List.mem_singleton.mp hm ▸ hq)) rfl

/-- Such a call, where the update that fills in no key is no part of a
transaction. -/
structure Call.WritesApart (Ks : List TransferKey)
    (c : Call) : Prop extends Call.WritesOnly Ks c where
  apart : ∀ q ∈ c.queries, q.key ∈ Ks ∨ c = .exec q

theorem Call.WritesApart.rows (hq : ∀ q ∈ c.queries, q.key ∈ Ks)
    (hs : c.submission? = none) : c.WritesApart Ks :=
  ⟨.write (fun q hm => .inl (hq q hm)) hs, fun q hm => .inl (hq q hm)⟩

theorem Call.WritesApart.read (hq : c.queries = [])
    (hs : c.submission? = none) : c.WritesApart Ks :=
  .rows (fun _ hm => absurd (hq ▸ hm) List.not_mem_nil) hs

theorem Call.WritesApart.exec (hq : q.key ∈ Ks) : (Call.exec q).WritesApart Ks :=
  .rows (fun _ hm => List.mem_singleton.mp hm ▸ hq) rfl

theorem Call.WritesApart.mono {Ks' : List TransferKey} (hc : c.WritesApart Ks)
    (h : Ks ⊆ Ks') : c.WritesApart Ks' :=
  ⟨hc.toWritesOnly.mono h, fun q hq => (hc.apart q hq).imp_left fun hm => h hm⟩

/-- A call that writes only these rows, and whose answers there is nothing to
notice in. -/
structure Call.Ordinary (Ks : List TransferKey)
    (c : Call) : Prop extends Call.WritesApart Ks c where
  plain : c.Plain

/-- A call that writes nothing, submits nothing and is told nothing. -/
def Call.silent : Call → Bool
  | .exec _ | .txCommit _ | .deliverTx .. | .findRecvTx .. | .findAckTx .. | .findTimeoutTx ..
  | .packetWriteAckStatus .. => false
  | _ => true

theorem Call.Ordinary.silent (hc : c.silent = true) : c.Ordinary Ks := by
  cases c with
  | exec | txCommit | deliverTx | findRecvTx | findAckTx | findTimeoutTx | packetWriteAckStatus =>
    cases hc
  | _ => exact ⟨.read rfl rfl, fun _ _ _ => trivial⟩

theorem Call.Ordinary.exec (hq : q.key ∈ Ks)
    (hp : (Call.exec q).Plain) : (Call.exec q).Ordinary Ks := ⟨.exec hq, hp⟩

theorem Call.Ordinary.state {K : TransferKey} (hK : K ∈ Ks) (state : Ibcv2RelayStatus) :
    (Call.exec (updateTransferState state K)).Ordinary Ks := .exec hK fun _ _ _ => trivial

/-- A call that does not count a packet as relayed, and is not part of what the
count goes with: it asks for no write ack, writes none, and finishes nothing. -/
def Call.uncounted : Call → Bool
  | .addRelayCompleted .. | .packetWriteAckStatus .. => false
  | .exec ⟨.writeAckTx .., _⟩ => false
  | .exec ⟨.status σ, _⟩ => !σ.isFinished
  | _ => true

/-- What calls on these rows may be, so that those of a processor that is told
nothing are. -/
structure Admits (P : List TransferKey → Call → Prop) : Prop where
  ask {Ks : List TransferKey} {c : Call} : c.silent = true → c.uncounted = true → P Ks c
  update {Ks : List TransferKey} {q : Query} : q.key ∈ Ks → (Call.exec q).Plain →
    (Call.exec q).uncounted = true → P Ks (.exec q)
  commit {Ks : List TransferKey} {qs : List Query} : (∀ q ∈ qs, q.key ∈ Ks) → P Ks (.txCommit qs)
  deliver {Ks : List TransferKey} {sub : Submission} (chainID : String) (tx : List UInt8)
    (address : String) : (∀ u ∈ sub.transfers, u.key ∈ Ks) →
    P Ks (.deliverTx chainID tx address sub)

/-- The same of one that may be told something. -/
structure AdmitsTold (P : List TransferKey → Call → Prop) : Prop extends Admits P where
  find {Ks : List TransferKey} {c : Call} : c.queries = [] → c.submission? = none →
    c.uncounted = true → P Ks c
  write {Ks : List TransferKey} {q : Query} : q.key ∈ Ks → (Call.exec q).uncounted = true →
    P Ks (.exec q)
  finalize {Ks : List TransferKey} (time : Option Time) :
    P Ks (.exec (updateTransferWriteAckTxFinalizedTime time ⟨"", "", 0⟩))

theorem Admits.state {P : List TransferKey → Call → Prop} (hP : Admits P) {K : TransferKey}
    (hK : K ∈ Ks) {state : Ibcv2RelayStatus}
    (hstate : state.isFinished = false) : P Ks (.exec (updateTransferState state K)) :=
  hP.update hK (fun _ _ _ => trivial) (by simp [Call.uncounted, updateTransferState, hstate])

theorem Admits.ordinary : Admits Call.Ordinary where
  ask hc _ := .silent hc
  update hq hp _ := .exec hq hp
  commit hqs := ⟨.rows hqs rfl, fun _ _ _ => trivial⟩
  deliver _ _ _ hu :=
    ⟨⟨⟨fun _ hq => absurd hq List.not_mem_nil, by rintro _ ⟨⟩; exact hu⟩, fun _ hq =>
      absurd hq List.not_mem_nil⟩, fun _ _ _ => trivial⟩

theorem AdmitsTold.writesApart : AdmitsTold Call.WritesApart where
  ask hc hu := (Admits.ordinary.ask hc hu).toWritesApart
  update hq hp hu := (Admits.ordinary.update hq hp hu).toWritesApart
  commit hqs := (Admits.ordinary.commit hqs).toWritesApart
  deliver chainID tx address hu := (Admits.ordinary.deliver chainID tx address hu).toWritesApart
  find hq hs _ := .read hq hs
  write hq _ := .exec hq
  finalize time := by
    refine ⟨.write (fun q hq => .inr ?_) rfl, fun q hq => .inr ?_⟩
    · rw [List.mem_singleton.mp hq]
      exact ⟨time, rfl⟩
    · rw [List.mem_singleton.mp hq]

theorem AdmitsTold.uncounted : AdmitsTold fun _ c => c.uncounted = true where
  ask _ hu := hu
  update _ _ hu := hu
  commit _ := rfl
  deliver _ _ _ _ := rfl
  find _ _ hu := hu
  write _ hu := hu
  finalize _ := rfl

/-- Every call of the program is one of these. -/
def Makes (S : Sem Call Call.Ans σ) (P : Call → Prop) (x : Relay α) : Prop :=
  ∀ s, wp S (fun c _ => P c) x (fun _ _ => True) s

namespace Makes

variable {P : Call → Prop} {x : Relay α} {a : α} {f : α → Relay β}

theorem ret : Makes S P (.ret a : Relay α) := fun _ => trivial

theorem bind (hx : Makes S P x) (hf : ∀ a, Makes S P (f a)) : Makes S P (x.bind f) :=
  fun s => wp_bind.mpr ((hx s).post fun a s' _ => hf a s')

theorem andThen {x : Relay (Except Err α)} {w : Err → Err} {f : α → Relay (Except Err β)}
    (hx : Makes S P x) (hf : ∀ a, Makes S P (f a)) : Makes S P (attempt x w f) :=
  fun s => wp_try ((hx s).post fun _ s' _ => ⟨fun _ _ => trivial, fun a _ => hf a s'⟩)

theorem call (hc : P c) : Makes S P (ask c) := fun _ => ⟨hc, fun _ _ => trivial⟩

theorem mono {P' : Call → Prop} (hx : Makes S P x) (h : ∀ c, P c → P' c) : Makes S P' x :=
  fun s => (hx s).mono (fun c _ => h c) fun _ _ h => h

theorem read (hq : c.queries = []) (hs : c.submission? = none) :
    Makes S (·.WritesApart Ks) (ask c) := call (.read hq hs)

theorem exec (hq : q.key ∈ Ks) : Makes S (·.WritesApart Ks) (ask (.exec q)) := call (.exec hq)

theorem silent (hc : c.silent = true) : Makes S (·.Ordinary Ks) (ask c) := call (.silent hc)

end Makes

/-- Every call of the program writes only these rows. -/
def Frames (S : Sem Call Call.Ans σ) (Ks : List TransferKey) (x : Relay α) : Prop :=
  ∀ s, wp S (fun c _ => c.WritesOnly Ks) x (fun _ _ => True) s

/-! ## Single transfers -/

/-- The calls of a processor, on a transfer with a key. -/
structure IBCV2Processor.Makes (S : Sem Call Call.Ans σ) (P : List TransferKey → Call → Prop)
    (p : IBCV2Processor) : Prop where
  shouldProcess (t : IBCV2Transfer) : PlatformRelayer.Makes S (P [t.key]) (p.shouldProcess t)
  process (t : IBCV2Transfer) : PlatformRelayer.Makes S (P [t.key]) (p.process t)

variable {P : List TransferKey → Call → Prop}

theorem mw_makes {p : IBCV2Processor} (h : p.Makes S P)
    (hP : ∀ K, P [K] (.exec (updateTransferState p.state K)))
    (t : IBCV2Transfer) : Makes S (P [t.key]) (IBCV2ProcessorMW.process p t) := by
  refine fun s => wp_mw (fun _ => trivial) fun _ => (h.shouldProcess t s).post fun should s₁ _ => ?_
  refine ⟨fun _ => trivial, fun _ => ⟨hP t.key, fun _ _ => trivial, ?_⟩⟩
  exact (h.process { t with state := p.state } _).post fun _ _ _ =>
    ⟨fun _ _ => ⟨trivial, trivial⟩, fun _ _ => trivial⟩

theorem checkRecv_makes (hP : AdmitsTold P) : checkRecvPacketDeliveryProcessor.Makes S P where
  shouldProcess _ := .ret
  process t := by
    refine .andThen (.call (hP.ask rfl rfl)) fun _ =>
      .andThen (.call (hP.ask rfl rfl)) fun received => ?_
    cases received with
    | false => exact .ret
    | true =>
      exact .andThen (.call (hP.find rfl rfl rfl)) fun _ =>
        .andThen (.call (hP.write List.mem_cons_self rfl)) fun _ => .ret

theorem checkPacketCommitment_makes (hP : AdmitsTold P) :
    checkPacketCommitmentProcessor.Makes S P where
  shouldProcess _ := .ret
  process t := by
    refine .andThen (.call (hP.ask rfl rfl)) fun _ =>
      .andThen (.call (hP.ask rfl rfl)) fun committed => ?_
    cases committed with
    | true => exact .ret
    | false =>
    refine .bind (.call (hP.find rfl rfl rfl)) fun ackTx =>
      .bind (.call (hP.find rfl rfl rfl)) fun timeoutTx => ?_
    cases ackTx <;> cases timeoutTx <;>
      first | exact .ret | exact .andThen (.call (hP.write List.mem_cons_self rfl)) fun _ => .ret

theorem checkWriteAckFinality_makes (hP : AdmitsTold P) (success error : Bool)
    (offset : Option UInt64) : (checkWriteAckFinalityProcessor success error offset).Makes S P where
  shouldProcess _ := .ret
  process t := by
    refine .andThen (.call (hP.ask rfl rfl)) fun _ => ?_
    split
    · exact .ret
    refine .andThen (.call (hP.ask rfl rfl)) fun finalized => ?_
    cases finalized with
    | false => exact .ret
    | true =>
    change Makes S _ (if t.writeAckTxFinalizedTime.isSome then _ else _)
    split
    · exact .ret
    · exact .bind (.call (hP.ask rfl rfl)) fun now =>
        .andThen (.call (hP.finalize (some now))) fun _ => .ret

theorem waitForWriteAck_makes : waitForWriteAckPacket.Makes S Call.WritesApart where
  shouldProcess _ := .ret
  process t := by
    have hrecord (hash : String) (status : Ibcv2WriteAckStatus) :
        Makes S (·.WritesApart [t.key]) (recordWriteAck t hash status) :=
      .bind (.read rfl rfl) fun _ => .andThen (.exec List.mem_cons_self) fun _ => .ret
    refine .andThen (.read rfl rfl) fun _ => ?_
    split
    · exact .ret
    refine .bind (.read rfl rfl) fun status => ?_
    cases status with
    | ok status => exact hrecord _ status
    | error err =>
      change Makes S _ (if err.is .errWriteAckNotFoundForPacket then _ else
        if !err.is .errWriteAckDecoding then _ else _)
      split
      · exact .andThen (.exec List.mem_cons_self) fun _ => .ret
      split
      · exact .ret
      · exact hrecord _ _

theorem checkSendFinality_makes (hP : Admits P) (offset : Option UInt64) :
    (checkSendFinalityProcessor offset).Makes S P where
  shouldProcess _ := .ret
  process t := by
    refine .andThen (.call (hP.ask rfl rfl)) fun _ =>
      .andThen (.call (hP.ask rfl rfl)) fun finalized => ?_
    cases finalized with
    | false => exact .ret
    | true =>
    change Makes S _ (if t.sourceTxFinalizedTime.isSome then _ else _)
    split
    · exact .ret
    · exact .bind (.call (hP.ask rfl rfl)) fun _ =>
        .andThen (.call (hP.update List.mem_cons_self (fun _ _ _ => trivial) rfl)) fun _ => .ret

theorem checkTimeoutFinality_makes (hP : Admits P) (offset : Option UInt64) :
    (checkTimeoutFinalityProcessor offset).Makes S P where
  shouldProcess _ := Makes.bind (Makes.bind (.call (hP.ask rfl rfl)) fun _ => .ret) fun _ => .ret
  process t := by
    refine .andThen (.call (hP.ask rfl rfl)) fun _ =>
      .andThen (.call (hP.ask rfl rfl)) fun finalized => ?_
    cases finalized <;> exact .ret

theorem retry_makes (hP : Admits P) (p : RetryPacket) : p.processor.Makes S P where
  shouldProcess _ := .ret
  process t := by
    refine .andThen (.call (hP.ask rfl rfl)) fun _ => ?_
    split
    · exact .ret
    split
    · exact .ret
    refine .andThen (.call (hP.ask rfl rfl)) fun retry => ?_
    cases retry with
    | false => exact .ret
    | true =>
      exact .andThen (.call (hP.update List.mem_cons_self (fun _ _ _ => trivial) rfl)) fun _ => .ret

theorem gas_makes (hP : Admits P) (p : TxGasCalculator) : p.processor.Makes S P where
  shouldProcess _ := .ret
  process t := by
    refine .andThen (.call (hP.ask rfl rfl)) fun _ => ?_
    split
    · exact .ret
    exact .andThen (.call (hP.ask rfl rfl)) fun _ => .andThen (.call (hP.ask rfl rfl)) fun _ =>
      .andThen (.call (hP.update List.mem_cons_self (fun _ _ _ => trivial) rfl)) fun _ => .ret

theorem stateFinisher_makes (success error : Bool) (t : IBCV2Transfer) :
    Makes S (·.Ordinary [t.key]) (stateFinisher success error t) := by
  have hwrite (state : Ibcv2RelayStatus) :
      Makes S (·.Ordinary [t.key]) (writeFinalState { t with state := state }) :=
    .bind (.call (.state List.mem_cons_self state)) fun ans => by cases ans <;> exact .ret
  rw [stateFinisher]
  split
  · exact .ret
  split
  · exact .ret
  split
  · exact .bind (.silent rfl) fun _ => hwrite _
  split
  · exact .ret
  split
  · exact .bind (.silent rfl) fun _ => hwrite _
  · rename_i status _ _
    cases status <;> exact hwrite _

/-- The stages that may be told something a transfer has to notice. -/
def Stage.tells : Stage → Bool
  | .checkRecvPacketDelivery | .checkInitialPacketCommitment | .waitForWriteAckPacket
  | .checkWriteAckFinality | .checkPostReceivePacketCommitment => true
  | _ => false

/-- A stage with a processor of single transfers. -/
theorem single_makes {pl : Pipeline} {st : Stage} {p : IBCV2Processor} (hP : Admits P)
    (hp : st.processor pl = .single p)
    (hstate : p.state.isFinished = false) (h : p.Makes S P) (t : IBCV2Transfer) :
    Makes S (P [t.key]) (st.process pl t) :=
  fun s => wp_single hp (mw_makes h (fun _ => hP.state List.mem_cons_self hstate) t s)

/-- The stages with a processor of single transfers that are told nothing. -/
theorem untold_makes {pl : Pipeline} {st : Stage} (hP : Admits P) (htells : st.tells = false)
    (hst : ∀ k, st ≠ batchStage k) (hfinisher : st ≠ .stateFinisher) (t : IBCV2Transfer) :
    Makes S (P [t.key]) (st.process pl t) := by
  cases st with
  | checkSendPacketFinality => exact single_makes hP rfl rfl (checkSendFinality_makes hP _) t
  | checkTimeoutTimestampFinality =>
    exact single_makes hP rfl rfl (checkTimeoutFinality_makes hP _) t
  | batchTimeoutPacket => exact absurd rfl (hst .timeout)
  | retryTimeoutPacket => exact single_makes hP rfl rfl (retry_makes hP _) t
  | timeoutTxGasCalculator => exact single_makes hP rfl rfl (gas_makes hP _) t
  | batchRecvPacket => exact absurd rfl (hst .recv)
  | retryRecvPacket => exact single_makes hP rfl rfl (retry_makes hP _) t
  | recvTxGasCalculator => exact single_makes hP rfl rfl (gas_makes hP _) t
  | batchAckPacket => exact absurd rfl (hst .ack)
  | retryAckPacket => exact single_makes hP rfl rfl (retry_makes hP _) t
  | ackTxGasCalculator => exact single_makes hP rfl rfl (gas_makes hP _) t
  | stateFinisher => exact absurd rfl hfinisher
  | _ => cases htells

/-- The stages that may be told something, but for the one that waits for the write
ack. -/
theorem told_makes {pl : Pipeline} {st : Stage} (hP : AdmitsTold P) (htells : st.tells = true)
    (hwait : st ≠ .waitForWriteAckPacket)
    (t : IBCV2Transfer) : Makes S (P [t.key]) (st.process pl t) := by
  have hP' := hP.toAdmits
  cases st with
  | checkRecvPacketDelivery => exact single_makes hP' rfl rfl (checkRecv_makes hP) t
  | checkInitialPacketCommitment =>
    exact single_makes hP' rfl rfl (checkPacketCommitment_makes hP) t
  | waitForWriteAckPacket => exact absurd rfl hwait
  | checkWriteAckFinality => exact single_makes hP' rfl rfl (checkWriteAckFinality_makes hP _ _ _) t
  | checkPostReceivePacketCommitment =>
    exact single_makes hP' rfl rfl (checkPacketCommitment_makes hP) t
  | _ => cases htells

theorem process_ordinary {pl : Pipeline} {st : Stage} (htells : st.tells = false)
    (hst : ∀ k, st ≠ batchStage k)
    (t : IBCV2Transfer) : Makes S (·.Ordinary [t.key]) (st.process pl t) := by
  by_cases hfinisher : st = .stateFinisher
  · subst hfinisher
    exact (stateFinisher_makes _ _ t).bind fun _ => .ret
  · exact untold_makes .ordinary htells hst hfinisher t

/-- A stage that is no batch stage. -/
theorem process_makes {pl : Pipeline} {st : Stage} (hst : ∀ k, st ≠ batchStage k)
    (t : IBCV2Transfer) : Makes S (·.WritesApart [t.key]) (st.process pl t) := by
  cases htells : st.tells with
  | false => exact (process_ordinary htells hst t).mono fun _ h => h.toWritesApart
  | true =>
    by_cases hwait : st = .waitForWriteAckPacket
    · subst hwait
      exact single_makes AdmitsTold.writesApart.toAdmits rfl rfl waitForWriteAck_makes t
    · exact told_makes .writesApart htells hwait t

theorem process_frames {pl : Pipeline} {st : Stage} (hst : ∀ k, st ≠ batchStage k)
    (t : IBCV2Transfer) : Frames S [t.key] (st.process pl t) :=
  (process_makes hst t).mono fun _ h => h.toWritesOnly

/-! ## Batches -/

section Batch

variable {pl : Pipeline} {k : TxKind} {batch transfers rest : List Ref} {h : Heap} {a : Routed}
  {r : Ref}

theorem shouldProcess_makes (hP : Admits P)
    (u : IBCV2Transfer) : Makes S (P Ks) ((batchOf pl k).shouldProcess u) := by
  rcases shouldProcess_eq pl k u with ⟨_, h⟩ | ⟨_, _, h⟩ <;> rw [h]
  · exact .ret
  · exact fun _ => ⟨hP.ask rfl rfl, fun _ _ => trivial⟩

/-- The goroutine that sorts out the transfers for a batch. -/
theorem forward_makes (hP : Admits P) (t : IBCV2Transfer)
    (s : σ) : wp S (fun c _ => P Ks c) ((batchOf pl k).forward t)
    (fun should _ => should = true → t.processingError = none) s := by
  rw [BatchPacket.forward]
  split
  · simp
  · rename_i he
    exact (shouldProcess_makes hP t s).post fun _ _ _ _ => by simpa [IBCV2Transfer.errored] using he

theorem routeOne_makes (hP : Admits P) (hK : ∀ r ∈ batch, (h r).key ∈ Ks)
    (ha : a.Along batch h (r :: rest)) (s : σ) :
    wp S (fun c _ => P Ks c) (IBCV2BatchProcessorMW.routeOne (batchOf pl k).processor r a)
      (fun b _ => b.Along batch h rest) s :=
  wp_routeOne (fun _ => ha.skip) fun _ => (shouldProcess_makes hP (a.heap r) s).post fun _ _ _ =>
    ⟨fun _ => ha.skip, fun _ =>
      ⟨hP.state (ha.key r ▸ hK r ha.mem) (batchOf_state pl k), fun ans => ha.updated _ ans⟩⟩

theorem route_makes (hP : Admits P) (hK : ∀ r ∈ batch, (h r).key ∈ Ks) (s : σ) :
    wp S (fun c _ => P Ks c)
      (IBCV2BatchProcessorMW.route (batchOf pl k).processor batch { heap := h })
      (fun a _ => a.Along batch h []) s :=
  wp_each (fun rest (a : Routed) _ => a.Along batch h rest)
    (fun _ _ _ s ha => routeOne_makes hP hK ha s) batch _ (.start batch h)

theorem txStatements_makes (hP : Admits P)
    (sts : List (Query × (Err → Err))) : Makes S (P Ks) (txStatements sts) := by
  induction sts with
  | nil => exact .ret
  | cons st sts ih => exact .andThen (.call (hP.ask rfl rfl)) fun _ => ih

theorem execTx_makes (hP : Admits P) {sts : List (Query × (Err → Err))}
    (hK : ∀ st ∈ sts, st.1.key ∈ Ks) : Makes S (P Ks) (execTx sts) := by
  refine .andThen (.call (hP.ask rfl rfl)) fun _ => .bind (txStatements_makes hP sts) fun o => ?_
  cases o with
  | error err =>
    refine .bind (.call (hP.ask rfl rfl)) fun ans => ?_
    cases ans <;> exact .ret
  | ok _ =>
    refine .call (hP.commit fun q hq => ?_)
    obtain ⟨st, hst, rfl⟩ := List.mem_map.mp hq
    exact hK st hst

theorem waitForEVM_makes (hP : Admits P)
    (chainID : String) : Makes S (P Ks) (BatchPacket.waitForEVM chainID) := by
  refine .bind (.call (hP.ask rfl rfl)) fun type => ?_
  cases type with
  | evm => exact .call (hP.ask rfl rfl)
  | cosmos => exact .ret
  | svm => exact .ret

theorem submit_makes (hP : Admits P) (hK : ∀ r ∈ transfers, (h r).key ∈ Ks) (req : RelayByTxRequest)
    (numTransfers : Nat) : Makes S (P Ks) ((batchOf pl k).submit req numTransfers transfers h) := by
  refine .andThen (.call (hP.ask rfl rfl)) fun resp => .andThen (.call (hP.ask rfl rfl)) fun _ =>
    .andThen (waitForEVM_makes hP _) fun _ =>
      .andThen (.call (hP.deliver _ _ _ fun u hu => ?_)) fun tx =>
      .andThen (execTx_makes hP ?_) fun _ => .ret
  · obtain ⟨r, hr, rfl⟩ := List.mem_map.mp hu
    exact hK r hr
  · intro st hst
    obtain ⟨r, hr, rfl⟩ := List.mem_map.mp hst
    exact hK r (List.mem_of_mem_filter hr)

theorem packet_record (t : IBCV2Transfer) (tx : BridgeTx) : (t.record k tx).packet = t.packet := by
    cases k <;> rfl

/-- The processor changes no packet, and on success returns what it was
handed. -/
theorem batchProcess_makes (hP : Admits P) (hnd : transfers.Nodup)
    (hK : ∀ r ∈ transfers, (h r).key ∈ Ks) (s : σ) :
    wp S (fun c _ => P Ks c) ((batchOf pl k).process transfers h)
      (fun x _ => (∀ r, (x.2 r).packet = (h r).packet) ∧ ∀ out, x.1 = .ok out → out = transfers)
      s := by
  have hg := (batchOf pl k).gather_spec hnd { heap := h }
  rw [BatchPacket.process]
  set g := (batchOf pl k).gather transfers { heap := h }
  have hpacket (r : Ref) : (g.heap r).packet = (h r).packet := by
    obtain ⟨err, he⟩ := hg.same r
    rw [he]
    rfl
  refine wp_bind.mpr ((submit_makes hP (fun r hr => hg.key r ▸ hK r hr) _ _ s).post
    fun o s' _ => ?_)
  cases o with
  | error err => exact ⟨hpacket, by simp⟩
  | ok tx =>
    refine ⟨fun r => ?_, fun out ho => (Except.ok.inj ho).symm⟩
    change ((batchOf pl k).recordAll tx transfers g.heap r).packet = _
    rw [BatchPacket.recordAll_apply tx hnd, batchOf_record]
    split
    · exact (packet_record _ tx).trans (hpacket r)
    · exact hpacket r

theorem finish_makes (hP : Admits P) (hnd : a.toProcess.Nodup)
    (hK : ∀ r ∈ a.toProcess, (a.heap r).key ∈ Ks) (s : σ) :
    wp S (fun c _ => P Ks c) (IBCV2BatchProcessorMW.finish (batchOf pl k).processor a)
      (fun x _ => (∀ r, (x.2 r).packet = (a.heap r).packet) ∧
        ∀ refs, x.1 = .ok refs → refs = a.toProcess ++ a.notProcessing) s := by
  refine wp_bind.mpr ((batchProcess_makes hP hnd hK s).post ?_)
  rintro ⟨o, h'⟩ s' ⟨hpacket, hout⟩
  cases o with
  | error err =>
    change wp _ _ (if err.is .contextCanceled then _ else _) _ _
    split
    · exact ⟨hpacket, by simp⟩
    · refine ⟨fun r => ?_, fun refs hr => (Except.ok.inj hr).symm⟩
      dsimp only
      rw [failAll_apply]
      split <;> exact hpacket r
  | ok out => exact ⟨hpacket, fun refs hr => (Except.ok.inj hr).symm.trans (by rw [hout out rfl])⟩

theorem ofList_key_mem {d : IBCV2Transfer} {ts : List IBCV2Transfer}
    (hr : r ∈ List.range ts.length) : (Heap.ofList d ts r).key ∈ ts.map (·.key) := by
  rw [ofList_apply d (List.mem_range.mp hr)]
  exact List.mem_map_of_mem (List.getElem_mem _)

/-- The batch processor in its middleware. -/
theorem processBatch_makes (hP : Admits P) (d : IBCV2Transfer) (ts : List IBCV2Transfer) (s : σ) :
    wp S (fun c _ => P (ts.map (·.key)) c) ((batchOf pl k).processBatch d ts)
      (fun x _ => (∀ r, (x.2 r).packet = (Heap.ofList d ts r).packet) ∧
        ∀ refs, x.1 = .ok refs → refs ⊆ List.range ts.length) s := by
  refine wp_bind.mpr ((route_makes hP (fun _ => ofList_key_mem) s).post fun a s' ha => ?_)
  obtain ⟨hl, hn⟩ := ha.done
  refine (finish_makes hP (hl.nodup List.nodup_range)
    (fun r hr => ha.key r ▸ ofList_key_mem (hl.subset hr)) s').post ?_
  rintro x _ ⟨hpacket, hrefs⟩
  refine ⟨fun r => (hpacket r).trans (ha.packet r), fun refs hr => ?_⟩
  rw [hrefs refs hr]
  exact List.append_subset.mpr ⟨hl.subset, hn⟩

theorem processBatch_frames (d : IBCV2Transfer) (ts : List IBCV2Transfer) (s : σ) :
    wp S (fun c _ => c.WritesOnly (ts.map (·.key))) ((batchOf pl k).processBatch d ts)
      (fun x _ => (∀ r, (x.2 r).packet = (Heap.ofList d ts r).packet) ∧
        ∀ refs, x.1 = .ok refs → refs ⊆ List.range ts.length) s :=
  (processBatch_makes .ordinary d ts s).mono (fun _ _ h => h.toWritesOnly) fun _ _ h => h

/-- A batch stage. -/
theorem batch_makes (hP : Admits P) (t : IBCV2Transfer) :
    Makes S (fun c => ∃ Ks, P Ks c) (Stage.process pl (batchStage k) t) := by
  rw [Stage.process, batchStage_processor]
  refine .bind (fun s => ?_) fun should => ?_
  · exact (forward_makes hP t s).mono (fun _ _ hc => ⟨[], hc⟩) fun _ _ _ => trivial
  cases should with
  | false => exact .ret
  | true =>
  refine .bind (.call ⟨[], hP.ask rfl rfl⟩) fun b => .bind (fun s => ?_) fun x => ?_
  · exact (processBatch_makes hP t _ s).mono (fun _ _ hc => ⟨_, hc⟩) fun _ _ _ => trivial
  · obtain ⟨o, h⟩ := x
    cases o <;> exact .ret

/-- The stages that do not count a packet as relayed. -/
theorem process_uncounted {st : Stage} (hwait : st ≠ .waitForWriteAckPacket)
    (hfinisher : st ≠ .stateFinisher)
    (t : IBCV2Transfer) : Makes S (fun c => c.uncounted = true) (st.process pl t) := by
  have hP := AdmitsTold.uncounted
  by_cases hst : ∃ k, st = batchStage k
  · obtain ⟨k, rfl⟩ := hst
    exact (batch_makes hP.toAdmits t).mono fun _ ⟨_, hc⟩ => hc
  · cases htells : st.tells with
    | false => exact untold_makes hP.toAdmits htells (fun k hk => hst ⟨k, hk⟩) hfinisher t
    | true => exact told_makes hP htells hwait t

end Batch

/-! ## Where states can be written -/

/-- A statement that is not part of a transaction succeeds. -/
def Call.Settled : (c : Call) → c.Ans → Prop
  | .exec _, ans => ans = .ok ()
  | _, _ => True

/-- The calls with any answers, or with those that settle them. -/
def settled (batched : Bool) : Sem Call Call.Ans Unit where
  adm c ans _ := batched = true → c.Settled ans
  next _ _ _ := ()

theorem failedStatements_settled {ans : c.Ans} (h : c.Settled ans) (tr : List Event) :
    failedStatements (⟨c, ans⟩ :: tr) = failedStatements tr := by
  cases c with
  | exec q =>
    obtain rfl : ans = .ok () := h
    rfl
  | _ => rfl

theorem batchOf_guardReads (pl : Pipeline) (k : TxKind) : (batchOf pl k).processor.GuardReads := by
  intro t w
  change wp _ _ ((batchOf pl k).shouldProcess t) _ _
  rcases shouldProcess_eq pl k t with ⟨_, h⟩ | ⟨_, _, h⟩ <;> rw [h]
  · trivial
  · exact ⟨rfl, fun _ _ => trivial⟩

/-- The loop of the middleware sorts a batch into its two lists. -/
theorem route_conserves {p : IBCV2BatchProcessor} (hp : p.GuardReads) (batch : List Ref)
    (h : Heap) : wp (settled true) (fun _ _ => True)
      (IBCV2BatchProcessorMW.route p batch { heap := h })
      (fun a _ => (a.toProcess ++ a.notProcessing).Perm batch) () := by
  refine (route_passed hp batch h ⟨[], .nil⟩).simulate (fun w _ => failedStatements w.trace = [])
    (fun c ans w _ hw hadm => ⟨trivial, ?_⟩) (fun _ _ _ _ _ => trivial) (fun a w _ hw ha => ?_) rfl
  · exact (failedStatements_settled (hadm rfl) w.trace).trans hw
  · obtain ⟨done, again, hb, hperm, hl⟩ := ha
    rw [hw] at hl
    rw [List.length_eq_zero_iff.mp hl, List.append_nil] at hperm
    rw [hb, List.append_nil]
    exact hperm

theorem processBatch_conserves {pl : Pipeline} {k : TxKind} (d : IBCV2Transfer)
    (ts : List IBCV2Transfer) :
    wp (settled true) (fun _ _ => True) ((batchOf pl k).processBatch d ts)
      (fun x _ => ∀ refs, x.1 = .ok refs → refs.Perm (List.range ts.length)) () := by
  have hroute :=
    (route_conserves (batchOf_guardReads pl k) (List.range ts.length) (Heap.ofList d ts)).and
    (route_makes .ordinary (fun _ => ofList_key_mem) ())
  refine wp_bind.mpr (hroute.mono (fun _ _ _ => trivial) fun a _ ⟨hperm, ha⟩ => ?_)
  obtain ⟨hl, -⟩ := ha.done
  refine (finish_makes .ordinary (hl.nodup List.nodup_range)
    (fun r hr => ha.key r ▸ ofList_key_mem (hl.subset hr)) ()).mono
    (fun _ _ _ => trivial) fun x _ hx refs hr => ?_
  rw [hx.2 refs hr]
  exact hperm

end PlatformRelayer

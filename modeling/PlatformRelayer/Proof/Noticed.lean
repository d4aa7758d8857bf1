import PlatformRelayer.Proof.Frames

/-!
# What a run takes notice of

A transfer that is submitted, or leaves the pipeline without an error, has what its
run was told about the packet (`pipelineRun_noticed`): the txs that were found are in
it, and so is the write ack that was asked for. Five stages are told such things. Of the
others it is enough which calls they make (`process_plain`).
-/

namespace PlatformRelayer

open Db Prog

/-- The transfer has what the calls so far said. -/
def Noticed (t₀ t : IBCV2Transfer) (tr : List Event) : Prop := ∀ e ∈ tr, e.NoticedBy t₀ t

variable {pl : Pipeline} {st : Stage} {adm : (c : Call) → c.Ans → Focus → Prop} {K : TransferKey}
  {t₀ t t' : IBCV2Transfer} {s : Focus} {tr : List Event}

namespace Noticed

theorem cons (h : Noticed t₀ t tr) {e : Event} (he : e.NoticedBy t₀ t) : Noticed t₀ t (e :: tr) :=
  List.forall_mem_cons.mpr ⟨he, h⟩

theorem same (h : Noticed t₀ t tr) (state : Ibcv2RelayStatus) (err : Option Err) :
    Noticed t₀ { t with state := state, processingError := err } tr :=
  fun e he => (h e he).mono (fun k hk => by cases k <;> exact hk) (fun _ => ⟨rfl, rfl⟩) id

theorem foundTx (h : Noticed t₀ t tr) (k : TxKind)
    (tx : BridgeTx) : Noticed t₀ (t.foundTx k tx) tr := by
  refine fun e he =>
    (h e he).mono (fun j hj => ?_)
      (fun _ => ⟨t.writeAckTxHash_setTx .., t.writeAckStatus_setTx ..⟩) ?_
  · by_cases hjk : j = k
    · subst hjk
      rw [IBCV2Transfer.has, t.hash_foundTx]
      rfl
    · rw [IBCV2Transfer.has, t.tx_foundTx_of_ne tx hjk]
      exact hj
  · cases k <;> exact id

end Noticed

/-! ## The stages that are told nothing -/

theorem process_plain {σ : Type} {S : Sem Call Call.Ans σ} (htells : st.tells = false)
    (t : IBCV2Transfer) : Makes S Call.Plain (st.process pl t) := by
  by_cases hst : ∃ k, st = batchStage k
  · obtain ⟨k, rfl⟩ := hst
    exact (batch_makes .ordinary t).mono fun _ ⟨_, hc⟩ => hc.plain
  · exact (process_ordinary htells (fun k hk => hst ⟨k, hk⟩) t).mono fun _ hc => hc.plain

/-- There is nothing to notice in what was answered meanwhile. -/
def Untold (t₀ : IBCV2Transfer) (s s' : Focus) : Prop :=
  ∃ new, s'.trace = new ++ s.trace ∧ ∀ e ∈ new, ∀ t, e.NoticedBy t₀ t

theorem Untold.noticed {s' : Focus} (hs : Untold t₀ s s') (h : Noticed t₀ t s.trace) :
    Noticed t₀ t s'.trace := by
  obtain ⟨new, htr, hnew⟩ := hs
  rw [htr]
  exact List.forall_mem_append.mpr ⟨fun e hm => hnew e hm t, h⟩

theorem plain_spec (htells : st.tells = false) (t₀ t : IBCV2Transfer) (s : Focus) :
    wp (focus t.key adm) (fun c s' => Calls pl st t s c s' ∧ Untold t₀ s s') (st.process pl t)
      (fun o s' => Passed pl st t s o s' ∧ Untold t₀ s s') s := by
  have hstage : wp (focus t.key adm) _ _ _ _ := stage_spec pl st t s
  exact ((hstage.and (process_plain htells t s)).traced (P := fun e => ∀ t, e.NoticedBy t₀ t)
    fun c _ ans hc t => hc.2 t₀ t ans).mono (fun _ _ hc => ⟨hc.1.1, hc.2⟩)
      fun _ _ ho => ⟨ho.1.1, ho.2⟩

theorem plain_stage (htells : st.tells = false) (t : IBCV2Transfer) (s : Focus)
    (h : t.processingError = none → Noticed t₀ t s.trace) :
    wp (focus t.key adm) (fun _ _ => True) (st.process pl t)
      (fun o s' => ∀ t', o = some t' → t'.processingError = none → Noticed t₀ t' s'.trace) s := by
  refine (plain_spec htells t₀ t s).mono (fun _ _ _ => trivial) ?_
  rintro _ s' ⟨hpassed, huntold⟩ t' rfl he
  refine huntold.noticed fun e hm => ?_
  exact hpassed.1.keep (P := fun x => e.NoticedBy t₀ x.1) (fun _ _ hl hx => hx.life hl)
    (h (hpassed.1.clean he) e hm)

/-! ## The stages that are told something -/

/-- A processor returns a transfer that has what the calls so far said, or an
error. -/
def Learned (t₀ : IBCV2Transfer) (o : Except Err IBCV2Transfer) (s : Focus) : Prop :=
  ∀ t, o = .ok t → Noticed t₀ t s.trace

theorem Learned.error {err : Err} : Learned t₀ (.error err) s := by rintro _ ⟨⟩

theorem Learned.ok (h : Noticed t₀ t s.trace) : Learned t₀ (.ok t) s := by
  rintro _ ⟨⟩
  exact h

/-- A part of a processor that is told nothing. -/
theorem try_plain {α : Type} {x : Relay (Except Err α)} {w : Err → Err}
    {k : α → Relay (Except Err IBCV2Transfer)}
    (hx : Makes (focus K adm) Call.Plain x) (h : Noticed t₀ t s.trace)
    (hk : ∀ a s', Noticed t₀ t s'.trace → wp (focus K adm) (fun _ _ => True) (k a)
      (Learned t₀) s') :
    wp (focus K adm) (fun _ _ => True) (attempt x w k) (Learned t₀) s := by
  refine wp_try (((hx s).traced (P := fun e => e.NoticedBy t₀ t) fun c _ ans hc => hc t₀ t ans).mono
    (fun _ _ _ => trivial) ?_)
  rintro o s' ⟨-, new, htr, hnew⟩
  refine ⟨fun _ _ => .error, fun a _ => hk a s' ?_⟩
  rw [htr]
  exact List.forall_mem_append.mpr ⟨hnew, h⟩

/-- The update that follows a search: the tx that was found gets into the
transfer. -/
theorem recordTx_learned (k : TxKind) (tx : BridgeTx) (w : Err → Err)
    (h : Noticed t₀ (t.foundTx k tx) s.trace) : wp (focus K adm) (fun _ _ => True)
      (attempt (ask (.exec (t.recordTx k tx))) w fun _ => .ret (.ok (t.foundTx k tx)))
      (Learned t₀) s :=
  try_plain (.call fun _ _ _ => trivial) h fun _ _ h' => .ok h'

theorem checkRecv_learned (h : Noticed t₀ t s.trace) :
    wp (focus K adm) (fun _ _ => True) (checkRecvPacketDeliveryProcessor.process t)
      (Learned t₀) s := by
  refine try_plain (.call fun _ _ _ => trivial) h fun _ s₁ h₁ => ?_
  refine try_plain (.call fun _ _ _ => trivial) h₁ fun received s₂ h₂ => ?_
  cases received with
  | false => exact .ok h₂
  | true =>
  refine wp_try ⟨trivial, fun ans _ => ⟨fun _ _ => .error, ?_⟩⟩
  rintro tx rfl
  exact recordTx_learned .recv tx _ ((h₂.foundTx .recv tx).cons rfl)

theorem checkPacketCommitment_learned (h : Noticed t₀ t s.trace) :
    wp (focus K adm) (fun _ _ => True) (checkPacketCommitmentProcessor.process t)
      (Learned t₀) s := by
  refine try_plain (.call fun _ _ _ => trivial) h fun _ s₁ h₁ => ?_
  refine try_plain (.call fun _ _ _ => trivial) h₁ fun committed s₂ h₂ => ?_
  cases committed with
  | true => exact .ok h₂
  | false =>
  refine ⟨trivial, fun ackTx _ => ⟨trivial, fun timeoutTx _ => ?_⟩⟩
  cases ackTx with
  | ok ackTx =>
    cases timeoutTx with
    | ok timeoutTx => exact .error
    | error _ =>
      refine recordTx_learned .ack ackTx _ (.cons (.cons (h₂.foundTx .ack ackTx) ?_) trivial)
      rfl
  | error _ =>
    cases timeoutTx with
    | ok timeoutTx =>
      refine recordTx_learned .timeout timeoutTx _
        (.cons (.cons (h₂.foundTx .timeout timeoutTx) ?_) rfl)
      trivial
    | error _ => exact .error

theorem recordWriteAck_learned {hash : String} {status : Ibcv2WriteAckStatus}
    (h : Noticed t₀
      { t with writeAckTxHash := some hash, writeAckTxTime := some (t.recvTx.time.getD Time.zero),
                             writeAckStatus := some status } s.trace) :
    wp (focus K adm) (fun _ _ => True) (recordWriteAck t hash status) (Learned t₀) s :=
  ⟨trivial, fun _ _ => try_plain (.call fun _ _ _ => trivial) (h.cons trivial) fun _ _ h' => .ok h'⟩

theorem waitForWriteAck_learned (hw : t.writeAckTxHash = none) (h : Noticed t₀ t s.trace) :
    wp (focus K adm) (fun _ _ => True) (waitForWriteAckPacket.process t) (Learned t₀) s := by
  refine try_plain (.call fun _ _ _ => trivial) h fun _ s₁ h₁ => ?_
  split
  · exact .error
  rename_i hash _
  -- There was no write ack before, so no call has told of one.
  have hwrote (time : Option Time) (status : Ibcv2WriteAckStatus) : Noticed t₀ { t with
      writeAckTxHash := some hash, writeAckTxTime := time, writeAckStatus := some status }
        s₁.trace :=
    fun e he => (h₁ e he).mono (fun k hk => by cases k <;> exact hk) (fun hne => absurd hw hne) id
  refine ⟨trivial, fun ans _ => ?_⟩
  cases ans with
  | ok status =>
    exact recordWriteAck_learned ((hwrote _ status).cons ⟨Option.some_ne_none _, status, rfl, rfl⟩)
  | error err =>
    change wp _ _ (if err.is .errWriteAckNotFoundForPacket then _ else
      if !err.is .errWriteAckDecoding then _ else _) _ _
    split
    · exact wp_try ⟨trivial, fun _ _ => ⟨fun _ _ => .error, fun _ _ => .error⟩⟩
    rename_i hfound
    split
    · exact .error
    · rename_i hdecoding
      refine recordWriteAck_learned
        ((hwrote _ .unknown).cons ⟨Option.some_ne_none _, .unknown, ?_, rfl⟩)
      simpa [writeAckOf, hfound] using hdecoding

theorem checkWriteAckFinality_learned (success error : Bool) (offset : Option UInt64)
    (ht₀ : t.writeAckTxFinalizedTime = none → t₀.writeAckTxFinalizedTime = none)
    (h : Noticed t₀ t s.trace) :
    wp (focus K adm) (fun _ _ => True)
      ((checkWriteAckFinalityProcessor success error offset).process t) (Learned t₀) s := by
  refine try_plain (.call fun _ _ _ => trivial) h fun _ s₁ h₁ => ?_
  split
  · exact .error
  refine try_plain (.call fun _ _ _ => trivial) h₁ fun finalized s₂ h₂ => ?_
  cases finalized with
  | false => exact .error
  | true =>
  change wp _ _ (if t.writeAckTxFinalizedTime.isSome then _ else _) _ _
  split
  · exact .ok h₂
  rename_i hnone
  refine ⟨trivial, fun now _ => wp_try ⟨trivial, fun ans _ => ⟨fun _ _ => .error, ?_⟩⟩⟩
  rintro _ rfl
  have hset : Noticed t₀ { t with writeAckTxFinalizedTime := some now } s₂.trace :=
    fun e he => (h₂ e he).mono (fun k hk => by cases k <;> exact hk) (fun _ => ⟨rfl, rfl⟩) fun _ =>
      Option.some_ne_none _
  refine .ok (.cons (.cons hset ?_) ⟨rfl, ht₀ (by simpa using hnone), Option.some_ne_none _⟩)
  trivial

/-- A processor in its middleware. -/
theorem mw_learned {p : IBCV2Processor} {g : IBCV2Transfer → Bool}
    (hp : ∀ t, p.shouldProcess t = .ret (g t)) (h : t.processingError = none → Noticed t₀ t s.trace)
    (hprocess : ∀ s, g t = true → Noticed t₀ { t with state := p.state } s.trace →
      wp (focus K adm) (fun _ _ => True) (p.process { t with state := p.state }) (Learned t₀) s) :
    wp (focus K adm) (fun _ _ => True) (IBCV2ProcessorMW.process p t)
      (fun o s' => ∀ t', o = .ok t' → t'.processingError = none → Noticed t₀ t' s'.trace) s := by
  refine wp_mw (fun _ => ?_) fun ha => ?_
  · rintro _ ⟨⟩
    exact h
  rw [hp]
  refine ⟨fun _ => ?_, fun hg => ⟨trivial, fun err _ => ?_, ?_⟩⟩
  · rintro _ ⟨⟩
    exact h
  · rintro _ ⟨⟩ he
    cases he
  · refine (hprocess _ hg (.cons ((h ha.1).same p.state _) ?_)).post fun o s' ho => ⟨?_, ?_⟩
    · trivial
    · rintro err rfl
      refine ⟨by rintro _ ⟨⟩, ?_⟩
      rintro _ ⟨⟩ he
      cases he
    · rintro output rfl _ ⟨⟩ _
      exact ho output rfl

/-! ## Runs -/

theorem noticed_stage (pl : Pipeline) (st : Stage) (t : IBCV2Transfer) (s : Focus)
    (ht₀ : t.writeAckTxFinalizedTime = none → t₀.writeAckTxFinalizedTime = none)
    (h : t.processingError = none → Noticed t₀ t s.trace) :
    wp (focus t.key adm) (fun _ _ => True) (st.process pl t)
      (fun o s' => ∀ t', o = some t' → t'.processingError = none → Noticed t₀ t' s'.trace) s := by
  have hsingle {p : IBCV2Processor} (hp : st.processor pl = .single p)
      (hmw : wp (focus t.key adm) (fun _ _ => True) (IBCV2ProcessorMW.process p t)
        (fun o s' => ∀ t', o = .ok t' → t'.processingError = none → Noticed t₀ t' s'.trace) s) :
      wp (focus t.key adm) (fun _ _ => True) (st.process pl t)
        (fun o s' => ∀ t', o = some t' → t'.processingError = none → Noticed t₀ t' s'.trace) s := by
    refine wp_single hp (hmw.post fun o s' ho t' ht' => ho t' ?_)
    cases o with
    | error => cases ht'
    | ok => rw [Option.some.inj ht']
  cases htells : st.tells with
  | false => exact plain_stage htells t s h
  | true =>
    cases st with
    | checkRecvPacketDelivery =>
      exact hsingle rfl (mw_learned (fun _ => rfl) h fun _ _ => checkRecv_learned)
    | checkInitialPacketCommitment =>
      exact hsingle rfl (mw_learned (fun _ => rfl) h fun _ _ => checkPacketCommitment_learned)
    | waitForWriteAckPacket =>
      refine hsingle rfl (mw_learned (fun _ => rfl) h fun _ hg => waitForWriteAck_learned ?_)
      simp only [Bool.and_eq_true, Option.isNone_iff_eq_none] at hg
      exact hg.1.2
    | checkWriteAckFinality =>
      exact hsingle rfl (mw_learned (fun _ => rfl) h fun _ _ =>
        checkWriteAckFinality_learned _ _ _ ht₀)
    | checkPostReceivePacketCommitment =>
      exact hsingle rfl (mw_learned (fun _ => rfl) h fun _ _ => checkPacketCommitment_learned)
    | _ => cases htells

/-- A transfer that is submitted has what the calls so far said. -/
def SubmitsNoticed (t₀ : IBCV2Transfer) (K : TransferKey) (c : Call) (s : Focus) : Prop :=
  ∀ sub, c.submission? = some sub → ∀ u ∈ sub.transfers, u.key = K → Noticed t₀ u s.trace

/-- A transfer is submitted by the batch processor that it was handed to. -/
theorem Calls.handed {c : Call} {s' : Focus} {sub : Submission} {u : IBCV2Transfer}
    (hc : Calls pl st t s c s') (hsub : c.submission? = some sub) (hu : u ∈ sub.transfers)
    (hkey : u.key = t.key) : st = batchStage sub.kind ∧ Handed pl sub.kind t s u s' := by
  obtain ⟨-, hq⟩ := hc
  cases c <;> cases hsub
  rcases hq with hq | hspecial
  · exact hq.elim
  · cases hspecial with
    | deliver hst hhanded _ => exact ⟨hst, hhanded u hu hkey⟩

theorem submitsNoticed_stage (pl : Pipeline) (st : Stage) (t : IBCV2Transfer) (s : Focus)
    (h : t.processingError = none → Noticed t₀ t s.trace) :
    wp (focus t.key adm) (SubmitsNoticed t₀ t.key) (st.process pl t) (fun _ _ => True) s := by
  cases htells : st.tells with
  | true =>
    -- A stage that is told something submits nothing.
    refine (stage_spec pl st t s).mono (fun c s' hc sub hsub u hu hkey => ?_) fun _ _ _ => trivial
    obtain ⟨rfl, -⟩ := hc.handed hsub hu hkey
    exact absurd htells (by cases sub.kind <;> simp [batchStage, Stage.tells])
  | false =>
    refine (plain_spec htells t₀ t s).mono ?_ fun _ _ _ => trivial
    rintro c s' ⟨hc, huntold⟩ sub hsub u hu hkey
    obtain ⟨-, hhanded⟩ := hc.handed hsub hu hkey
    obtain ⟨state, err, rfl⟩ := hhanded.same
    exact huntold.noticed ((h hhanded.active.1).same state err)

theorem runStages_noticed {stages : List Stage} (hK : t.key = K)
    (ht₀ : t.writeAckTxFinalizedTime = none → t₀.writeAckTxFinalizedTime = none)
    (h : t.processingError = none → Noticed t₀ t s.trace) :
    wp (focus K adm) (SubmitsNoticed t₀ K) (runStages pl stages t)
      (fun o s' => ∀ t', o = some t' → t'.processingError = none → Noticed t₀ t' s'.trace) s := by
  refine (wp_runStages (I := fun t s =>
    (t.writeAckTxFinalizedTime = none → t₀.writeAckTxFinalizedTime = none) ∧
    (t.processingError = none → Noticed t₀ t s.trace)) (fun st t s hK h => ?_)
      (fun st t s t' s' h hr hQ => ?_)
    (fun t s h => ?_) hK ⟨ht₀, h⟩)
  · subst hK
    exact ((noticed_stage pl st t s h.1 h.2).and (submitsNoticed_stage pl st t s h.2)).mono
      (fun _ _ hc => hc.2) fun _ _ ho => ho.1
  · refine ⟨fun hn => h.1 ?_, hQ t' rfl⟩
    by_contra hne
    exact hr.keep (P := fun x => x.1.writeAckTxFinalizedTime ≠ none)
      (fun _ _ hl hx => hl.finalized hx) hne hn
  · rintro _ ⟨⟩
    exact h.2

/-- A transfer that is submitted, or leaves the pipeline without an error, has what
its run was told. -/
theorem pipelineRun_noticed (opts : PipelineOptions) (hasPriceClient : Bool) (r : Ibcv2Transfer) :
    wp (focus r.key adm) (SubmitsNoticed (newIBCV2Transfer r) r.key)
      (pipelineRun opts hasPriceClient r)
      (fun o s' => ∀ t', o = some t' → t'.processingError = none →
      Noticed (newIBCV2Transfer r) t' s'.trace) ⟨r, []⟩ :=
  runStages_noticed rfl id fun _ _ h => absurd h List.not_mem_nil

end PlatformRelayer

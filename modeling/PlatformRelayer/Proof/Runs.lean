import PlatformRelayer.Proof.Batches

/-!
# What holds along a run of the pipeline

`stage_spec` puts the stages together. A fact that a stage leaves behind is
still true at every later stage (`Life.fact`): a tx that gets into the transfer
later was found on chain, or is of a kind whose checks are yet to come. So at
each call of a run the facts of all stages before it are there (`InRun`,
`pipelineRun_spec`), and the transfer has come by steps of those stages
(`Travels`).
-/

namespace PlatformRelayer

open Db Prog Relation

variable {pl : Pipeline} {st st' : Stage} {adm : (c : Call) → c.Ans → Focus → Prop}
  {x y : IBCV2Transfer × Ibcv2Transfer} {tr tr' : List Event}

theorem stage_spec (pl : Pipeline) (st : Stage) (t : IBCV2Transfer) (s : Focus) :
    wp (focus t.key adm) (Calls pl st t s) (st.process pl t) (Passed pl st t s) s := by
  have hsingle {p : IBCV2Processor} (hp : st.processor pl = .single p) :
      wp (focus t.key adm) (Calls pl st t s) (st.process pl t) (Passed pl st t s) s :=
    (single_spec hp t s).mono (fun _ _ hd => hd.calls) fun _ _ hq => hq
  cases st with
  | batchRecvPacket => exact batch_spec (k := .recv) t s
  | batchAckPacket => exact batch_spec (k := .ack) t s
  | batchTimeoutPacket => exact batch_spec (k := .timeout) t s
  | stateFinisher => exact (finisher_spec t s).mono (fun _ _ hc => hc.1) fun _ _ hq => hq
  | _ => exact hsingle rfl

/-- No stage comes after the `StateFinisher`. -/
theorem ne_stateFinisher (h : st.ctorIdx < st'.ctorIdx) : st ≠ .stateFinisher := by
  rintro rfl
  cases st' <;> exact absurd h (by decide)

/-! ## Facts stay -/

/-- Where a tx in a transfer comes from: it was there, it was found, or the
stage delivered it. -/
theorem Life.hash_from (hl : Life pl tr st x y) {k : TxKind} {h : String}
    (hy : (y.1.tx k).hash = some h) :
    x.1.tx k = y.1.tx k ∨ (∃ tx : BridgeTx, tx.hash = h ∧ y.1.packet.Found tr k tx) ∨
      st = batchStage k := by
  cases hl with
  | @found t r j tx ha hf =>
    by_cases hk : k = j
    · subst hk
      rw [t.hash_foundTx] at hy
      refine .inr (.inl ⟨tx, Option.some.inj hy, ?_⟩)
      cases k <;> exact hf
    · exact .inl (t.tx_foundTx_of_ne tx hk).symm
  | @delivered t r j tx _ _ hs =>
    by_cases hk : k = j
    · exact .inr (.inr (hk ▸ hs))
    · exact .inl (t.tx_record_of_ne tx hk).symm
  | _ => exact .inl (by cases k <;> rfl)

theorem Life.has_false (hl : Life pl tr st x y) {k : TxKind}
    (hy : y.1.has k = false) : x.1.has k = false := by
  cases hx : x.1.has k with
  | false => rfl
  | true => exact absurd (hl.has hx) (by simp [hy])

/-- A recv tx comes from two stages only. -/
theorem Life.has_recv (hl : Life pl tr st x y) (hfound : st ≠ .checkRecvPacketDelivery)
    (hbatch : st ≠ .batchRecvPacket) (hy : y.1.has .recv = true) : x.1.has .recv = true := by
  cases hl with
  | @found t r k tx _ _ _ _ _ hs =>
    cases k with
    | recv => exact absurd (hs rfl) hfound
    | ack => exact hy
    | timeout => exact hy
  | @delivered t r k tx _ _ hs =>
    cases k with
    | recv => exact absurd hs hbatch
    | ack => exact hy
    | timeout => exact hy
  | _ => exact hy

/-- What the check of a tx found out still holds, if no later stage delivers
txs of its kind. -/
theorem Life.confirmed (hl : Life pl tr st' x y) {chainID : String} {k : TxKind}
    (hk : st' ≠ batchStage k)
    (hx : ∀ h, (x.1.tx k).hash = some h → (x.1.tx k).time.isSome = true →
      x.1.packet.Confirmed tr chainID k h) (h : String)
    (hh : (y.1.tx k).hash = some h) (ht : (y.1.tx k).time.isSome = true) :
    y.1.packet.Confirmed tr chainID k h := by
  rcases hl.hash_from hh with heq | hf | hs
  · rw [hl.packet]
    exact hx h (heq ▸ hh) (heq ▸ ht)
  · exact .inr hf
  · exact absurd hs hk

theorem Life.fact (hl : Life pl tr st' x y) (hlt : st.ctorIdx < st'.ctorIdx)
    (hx : st.Fact pl x.1 tr) : st.Fact pl y.1 tr := by
  cases st with
  | checkRecvPacketDelivery =>
    intro hr hk ht
    rw [hl.packet]
    exact hx (hl.has_false hr) (hl.has_false hk) (hl.has_false ht)
  | checkInitialPacketCommitment | checkPostReceivePacketCommitment =>
    intro hk ht
    rw [hl.packet]
    exact hx (hl.has_false hk) (hl.has_false ht)
  | checkSendPacketFinality =>
    intro hr
    rw [hl.packet]
    exact hx (hl.has_false hr)
  | checkTimeoutTimestampFinality =>
    intro hr hk ht
    rw [hl.packet]
    exact hx (hl.has_false hr) (hl.has_false hk) (hl.has_false ht)
  | batchTimeoutPacket =>
    intro hr hk ht
    rw [hl.packet]
    exact hx (hl.has_false hr) (hl.has_false hk) (hl.has_false ht)
  | batchRecvPacket =>
    intro hr
    rw [hl.packet]
    exact hx (hl.has_false hr)
  | waitForWriteAckPacket =>
    have hst : st' ≠ .waitForWriteAckPacket := by rintro rfl; exact absurd hlt (by decide)
    intro hr ht
    rw [(hl.writeAck hst).1]
    refine hx (hl.has_recv ?_ ?_ hr) (hl.has_false ht) <;> rintro rfl <;> exact absurd hlt
      (by decide)
  | checkWriteAckFinality =>
    have hst : st' ≠ .waitForWriteAckPacket := by rintro rfl; exact absurd hlt (by decide)
    intro h s hh hs hrel
    rw [hl.packet]
    obtain ⟨hfinal, htime⟩ := hx h s ((hl.writeAck hst).1 ▸ hh) ((hl.writeAck hst).2 ▸ hs) hrel
    exact ⟨hfinal, hl.finalized htime⟩
  | batchAckPacket =>
    have hst : st' ≠ .waitForWriteAckPacket := by rintro rfl; exact absurd hlt (by decide)
    intro h s hh hs hrel hk
    exact hl.has (hx h s ((hl.writeAck hst).1 ▸ hh) ((hl.writeAck hst).2 ▸ hs) hrel
      (hl.has_false hk))
  | retryTimeoutPacket =>
    exact hl.confirmed (k := .timeout) (by rintro rfl; exact absurd hlt (by decide)) hx
  | retryAckPacket =>
    exact hl.confirmed (k := .ack) (by rintro rfl; exact absurd hlt (by decide)) hx
  | _ => trivial

/-! ## Runs -/

/-- A transfer and its row have come through these stages. -/
inductive Travels (pl : Pipeline) (t₀ : IBCV2Transfer)
    (s₀ : Focus) : List Stage → IBCV2Transfer → Focus → Prop where
  | start : Travels pl t₀ s₀ [] t₀ s₀
  | stage {done t s t' s'} (st) : Travels pl t₀ s₀ done t s → Reaches pl st t s t' s' →
    Travels pl t₀ s₀ (done ++ [st]) t' s'

section Travels

variable {t₀ t t' : IBCV2Transfer} {s₀ s s' : Focus} {done stages : List Stage}

theorem Travels.keep (h : Travels pl t₀ s₀ done t s)
    {P : List Event → IBCV2Transfer × Ibcv2Transfer → Prop}
    (hmono : ∀ tr tr' x, tr ⊆ tr' → P tr x → P tr' x)
    (hP : ∀ st ∈ done, ∀ tr x y, Life pl tr st x y → P tr x → P tr y)
    (h₀ : P s₀.trace (t₀, s₀.row)) : P s.trace (t, s.row) := by
  induction h with
  | start => exact h₀
  | stage st _ hr ih =>
    have hx := ih fun st hst => hP st (List.mem_append_left _ hst)
    exact hr.keep (P := P _) (hP st (List.mem_append_right _ List.mem_cons_self) _)
      (hmono _ _ _ hr.trace.subset hx)

theorem Travels.packet (h : Travels pl t₀ s₀ done t s) : t.packet = t₀.packet :=
  h.keep (P := fun _ x => x.1.packet = t₀.packet) (fun _ _ _ _ h => h)
    (fun _ _ _ _ _ hl hx => hl.packet.trans hx) rfl

theorem Travels.key (h : Travels pl t₀ s₀ done t s) : t.key = t₀.key := congrArg Packet.key h.packet

theorem Travels.has (h : Travels pl t₀ s₀ done t s) {k : TxKind}
    (h₀ : t₀.has k = true) : t.has k = true :=
  h.keep (P := fun _ x => x.1.has k = true) (fun _ _ _ _ h => h)
    (fun _ _ _ _ _ hl hx => hl.has hx) h₀

theorem Travels.synced (h : Travels pl t₀ s₀ done t s) (h₀ : Synced t₀ s₀.row) :
    t.processingError = none → Synced t s.row :=
  h.keep (P := fun _ x => x.1.processingError = none → Synced x.1 x.2) (fun _ _ _ _ h => h)
    (fun _ _ _ _ _ hl hx => Synced.life hl hx) fun _ => h₀

/-- A transfer keeps the write ack that it was loaded with. -/
theorem Travels.writeAck_of_some (h : Travels pl t₀ s₀ done t s) (h₀ : t₀.writeAckTxHash ≠ none) :
    t.writeAckTxHash = t₀.writeAckTxHash ∧ t.writeAckStatus = t₀.writeAckStatus := by
  refine h.keep (P := fun _ x => x.1.writeAckTxHash = t₀.writeAckTxHash ∧
    x.1.writeAckStatus = t₀.writeAckStatus) (fun _ _ _ _ h => h) (fun _ _ _ x y hl hx => ?_)
    ⟨rfl, rfl⟩
  obtain ⟨hh, hs⟩ := hl.writeAck_of_some (hx.1 ▸ h₀)
  exact ⟨hh.trans hx.1, hs.trans hx.2⟩

/-- The facts of these stages hold of the transfer, while it is active. -/
def Facts (pl : Pipeline) (done : List Stage) (t : IBCV2Transfer) (tr : List Event) : Prop :=
  t.Active → ∀ st ∈ done, st.Fact pl t tr

theorem Facts.reaches (hf : Facts pl done t s.trace) (hr : Reaches pl st t s t' s')
    (hlt : ∀ st₀ ∈ done, st₀.ctorIdx < st.ctorIdx)
    (hst : st ≠ .stateFinisher) : Facts pl done t' s'.trace :=
  hr.keep (P := fun x => Facts pl done x.1 s'.trace)
    (fun _ _ hl hx hy st₀ hm => hl.fact (hlt st₀ hm) (hx (hl.active hst hy) st₀ hm))
    fun ha st₀ hm => (hf ha st₀ hm).mono hr.trace.subset

/-- A call in a run through `stages`: the stage that makes it, how the
transfer came there, and the facts of the stages before it. -/
structure InRun (pl : Pipeline) (stages : List Stage) (t₀ : IBCV2Transfer) (s₀ : Focus) (st : Stage)
    (t : IBCV2Transfer) (s : Focus) (c : Call) (s' : Focus) : Prop where
  travels : ∃ done rest, stages = done ++ st :: rest ∧ Travels pl t₀ s₀ done t s ∧
    Facts pl done t s.trace
  calls : Calls pl st t s c s'

/-- Where the row and the transfer are, at any point of a run. -/
def OnTheWay (pl : Pipeline) (stages : List Stage) (t₀ : IBCV2Transfer) (s₀ s : Focus) : Prop :=
  ∃ done t, done ⊆ stages ∧ Travels pl t₀ s₀ done t s

theorem runStages_spec {all : List Stage} (hall : all.Pairwise (·.ctorIdx < ·.ctorIdx))
    (hst : all = done ++ stages)
    (ht : Travels pl t₀ s₀ done t s) (hf : .stateFinisher ∉ done → Facts pl done t s.trace) :
    wp (focus t₀.key adm) (fun c s' => ∃ st t s, InRun pl all t₀ s₀ st t s c s')
      (runStages pl stages t) (fun o s' => OnTheWay pl all t₀ s₀ s' ∧
      ∀ t', o = some t' → Travels pl t₀ s₀ all t' s' ∧
        (.stateFinisher ∉ all → Facts pl all t' s'.trace)) s := by
  induction stages generalizing done t s with
  | nil =>
    rw [List.append_nil] at hst
    subst hst
    refine ⟨⟨all, t, List.Subset.refl _, ht⟩, ?_⟩
    rintro _ ⟨⟩
    exact ⟨ht, hf⟩
  | cons st stages ih =>
    have hspec : wp (focus t₀.key adm) _ _ _ _ := ht.key ▸ stage_spec pl st t s
    have hbefore (st₀ : Stage) (hm : st₀ ∈ done) : st₀.ctorIdx < st.ctorIdx :=
      (List.pairwise_append.mp (hst ▸ hall)).2.2 st₀ hm st List.mem_cons_self
    have hfinisher : .stateFinisher ∉ done := fun hm => ne_stateFinisher (hbefore _ hm) rfl
    refine wp_bind.mpr
      (hspec.mono (fun c s' hc => ⟨st, t, s, ⟨done, stages, hst, ht, hf hfinisher⟩, hc⟩)
      fun o s' ho => ?_)
    cases o with
    | none =>
      obtain ⟨t', ht'⟩ := ho
      exact ⟨⟨done ++ [st], t', by simp [hst], ht.stage st ht'⟩, by simp⟩
    | some t' =>
      refine ih (by simp [hst]) (ht.stage st ho.1) fun hn ha st₀ hm => ?_
      have hlast : st ≠ .stateFinisher := fun e => hn (by simp [e])
      rcases List.mem_append.mp hm with hm | hm
      · exact (hf hfinisher).reaches ho.1 hbefore hlast ha st₀ hm
      · obtain rfl := List.mem_singleton.mp hm
        exact ho.2 ha

end Travels

/-- The rule for a run through some stages: what each of them keeps, for any transfer
and row that come to it by the steps of `Life`. -/
theorem wp_runStages_of_mem {K : TransferKey} {pre : Call → Focus → Prop}
    {I : IBCV2Transfer → Focus → Prop}
    {Q : Option IBCV2Transfer → Focus → Prop} {stages : List Stage} {t : IBCV2Transfer} {s : Focus}
    (hstage : ∀ st ∈ stages, ∀ t s, t.key = K → I t s → wp (focus K adm) pre (st.process pl t) Q s)
    (hnext : ∀ st t s t' s', I t s → Reaches pl st t s t' s' → Q (some t') s' → I t' s')
    (hret : ∀ t s, I t s → Q (some t) s) (hK : t.key = K) (h : I t s) :
    wp (focus K adm) pre (runStages pl stages t)
      (fun o s' => Q o s' ∧ ∀ t', o = some t' → t'.key = K) s := by
  induction stages generalizing t s with
  | nil =>
    refine ⟨hret t s h, ?_⟩
    rintro _ ⟨⟩
    exact hK
  | cons st stages ih =>
    subst hK
    have hspec : wp (focus t.key adm) _ _ _ _ := stage_spec pl st t s
    refine wp_bind.mpr ((hspec.and (hstage st List.mem_cons_self t s rfl h)).mono
      (fun _ _ hc => hc.2) fun o s' ho => ?_)
    obtain ⟨hpassed, hQ⟩ := ho
    cases o with
    | none => exact ⟨hQ, by simp⟩
    | some t' =>
      exact ih (fun st hst => hstage st (List.mem_cons_of_mem _ hst)) hpassed.1.key
        (hnext st t s t' s' h hpassed.1 hQ)

/-- The rule for a run, with what every stage keeps. -/
theorem wp_runStages {K : TransferKey} {pre : Call → Focus → Prop}
    {I : IBCV2Transfer → Focus → Prop}
    {Q : Option IBCV2Transfer → Focus → Prop} {stages : List Stage} {t : IBCV2Transfer} {s : Focus}
    (hstage : ∀ (st : Stage) t s, t.key = K → I t s → wp (focus K adm) pre (st.process pl t) Q s)
    (hnext : ∀ st t s t' s', I t s → Reaches pl st t s t' s' → Q (some t') s' → I t' s')
    (hret : ∀ t s, I t s → Q (some t) s) (hK : t.key = K) (h : I t s) :
    wp (focus K adm) pre (runStages pl stages t) Q s :=
  (wp_runStages_of_mem (fun st _ => hstage st) hnext hret hK h).post fun _ _ hq => hq.1

theorem newPipeline_sorted (pl : Pipeline) : (newPipeline pl).Pairwise (·.ctorIdx < ·.ctorIdx) := by
  rw [newPipeline]
  cases pl.pricesSourceGas <;> cases pl.pricesDestinationGas <;> decide

/-- A run through some stages and then through others. -/
theorem wp_runStages_append {σ : Type} {S : Sem Call Call.Ans σ} {pre : Call → σ → Prop}
    {Q : Option IBCV2Transfer → σ → Prop} {stages stages' : List Stage} {t : IBCV2Transfer} {s : σ}
    (h : wp S pre (runStages pl stages t) (fun o s' => (o = none → Q none s') ∧
      ∀ t', o = some t' → wp S pre (runStages pl stages' t') Q s') s) :
    wp S pre (runStages pl (stages ++ stages') t) Q s := by
  induction stages generalizing t s with
  | nil => exact h.2 t rfl
  | cons st stages ih =>
    refine wp_bind.mpr ((wp_bind.mp h).post fun o s' ho => ?_)
    cases o with
    | none => exact ho.1 rfl
    | some t' => exact ih ho

/-- The stages before the `StateFinisher`. -/
def workStages (pl : Pipeline) : List Stage := (newPipeline pl).dropLast

theorem newPipeline_eq (pl : Pipeline) : newPipeline pl = workStages pl ++ [.stateFinisher] := by
  rw [workStages, newPipeline]
  cases pl.pricesSourceGas <;> cases pl.pricesDestinationGas <;> rfl

theorem workStages_sorted (pl : Pipeline) : (workStages pl).Pairwise (·.ctorIdx < ·.ctorIdx) :=
  (newPipeline_sorted pl).sublist (List.dropLast_sublist _)

theorem stateFinisher_not_mem_workStages (pl : Pipeline) : .stateFinisher ∉ workStages pl := by
  have hs := newPipeline_sorted pl
  rw [newPipeline_eq] at hs
  exact fun hm => absurd ((List.pairwise_append.mp hs).2.2 _ hm _ List.mem_cons_self)
    (Nat.lt_irrefl _)

/-- A stage of the pipeline that is not the last one. -/
theorem mem_workStages (h : st ∈ newPipeline pl)
    (hst : st ≠ .stateFinisher) : st ∈ workStages pl := by
  rw [newPipeline_eq] at h
  simpa [hst] using h

section Order

variable {done rest : List Stage} {st st₀ : Stage} (h : newPipeline pl = done ++ st :: rest)
include h

theorem ctorIdx_lt (hm : st₀ ∈ done) : st₀.ctorIdx < st.ctorIdx := by
  have hs := newPipeline_sorted pl
  rw [h] at hs
  exact (List.pairwise_append.mp hs).2.2 st₀ hm st List.mem_cons_self

/-- A stage of the pipeline comes before each later one. -/
theorem mem_newPipeline (hm : st₀ ∈ newPipeline pl)
    (hlt : st₀.ctorIdx < st.ctorIdx) : st₀ ∈ done := by
  have hs := newPipeline_sorted pl
  rw [h] at hs hm
  obtain ⟨-, hrest, -⟩ := List.pairwise_append.mp hs
  rcases List.mem_append.mp hm with hm | hm
  · exact hm
  rcases List.mem_cons.mp hm with rfl | hm
  · exact absurd hlt (Nat.lt_irrefl _)
  · exact absurd (List.rel_of_pairwise_cons hrest hm) (Nat.lt_asymm hlt)

theorem rest_of_stateFinisher (hst : st = .stateFinisher) : rest = [] := by
  have hs := newPipeline_sorted pl
  rw [h] at hs
  obtain ⟨-, hrest, -⟩ := List.pairwise_append.mp hs
  cases rest with
  | nil => rfl
  | cons st' _ =>
    exact absurd hst (ne_stateFinisher (List.rel_of_pairwise_cons hrest List.mem_cons_self))

end Order

theorem has_newIBCV2Transfer (r : Ibcv2Transfer) (k : TxKind) :
    (newIBCV2Transfer r).has k = (r.tx k).hash.isSome := by cases k <;> rfl

section PipelineRun

/-- The pipeline that a row is run through. -/
def pipelineOf (opts : PipelineOptions) (hasPriceClient : Bool) (r : Ibcv2Transfer) : Pipeline :=
  ⟨newPipelineKey (newIBCV2Transfer r), opts, hasPriceClient⟩

variable {opts : PipelineOptions} {hasPriceClient : Bool} {r : Ibcv2Transfer} {s : Focus} {c : Call}

theorem pipelineRun_spec : wp (focus r.key adm)
      (fun c s' => ∃ st t s,
      InRun (pipelineOf opts hasPriceClient r) (newPipeline (pipelineOf opts hasPriceClient r))
        (newIBCV2Transfer r) ⟨r, []⟩ st t s c s')
      (pipelineRun opts hasPriceClient r)
      (fun _ s' => OnTheWay (pipelineOf opts hasPriceClient r)
      (newPipeline (pipelineOf opts hasPriceClient r))
        (newIBCV2Transfer r) ⟨r, []⟩ s') ⟨r, []⟩ := by
  change wp (focus (newIBCV2Transfer r).key adm) _
    (runStages (pipelineOf opts hasPriceClient r) (newPipeline _) _) _ _
  exact (runStages_spec (newPipeline_sorted _) (List.nil_append _).symm .start
    fun _ _ _ h => absurd h List.not_mem_nil).post
    fun _ _ h => h.1

/-- A transfer that has come through the pipeline: as it was when it came to the
`StateFinisher`, and what became of it there. -/
structure Returned (pl : Pipeline) (t₀ : IBCV2Transfer) (s₀ : Focus) (t : IBCV2Transfer) (s : Focus)
    (t' : IBCV2Transfer) (s' : Focus) : Prop where
  travels : Travels pl t₀ s₀ (workStages pl) t s
  facts : Facts pl (workStages pl) t s.trace
  finished : Finished pl t s t' s'

theorem pipelineRun_returned :
    wp (focus r.key adm) (fun _ _ => True) (pipelineRun opts hasPriceClient r)
    (fun o s' => ∀ t', o = some t' → ∃ t s,
      Returned (pipelineOf opts hasPriceClient r) (newIBCV2Transfer r) ⟨r, []⟩
      t s t' s') ⟨r, []⟩ := by
  change wp (focus (newIBCV2Transfer r).key adm) _
    (runStages (pipelineOf opts hasPriceClient r) (newPipeline _) _) _ _
  rw [newPipeline_eq]
  refine wp_runStages_append ((runStages_spec (workStages_sorted _) (List.nil_append _).symm .start
    fun _ _ _ h => absurd h List.not_mem_nil).mono (fun _ _ _ => trivial) fun o s ho =>
    ⟨by simp, fun t ht => ?_⟩)
  obtain ⟨htravels, hfacts⟩ := ho.2 t ht
  refine wp_bind.mpr (htravels.key ▸ (finisher_finished t s).post ?_)
  rintro _ s' ⟨t', rfl, hfinished⟩ u hu
  obtain rfl := Option.some.inj hu
  exact ⟨t, s, htravels, hfacts (stateFinisher_not_mem_workStages _), hfinished⟩

/-- A run that finishes a row does so for a transfer that has passed every stage. -/
theorem pipelineRun_finishes (hr : r.status.isFinished = false) :
    wp (focus r.key adm) (fun _ _ => True) (pipelineRun opts hasPriceClient r)
      (fun _ s' => s'.row.status.isFinished = true → ∃ t s,
        Travels (pipelineOf opts hasPriceClient r) (newIBCV2Transfer r) ⟨r, []⟩
          (workStages (pipelineOf opts hasPriceClient r)) t s ∧
        Facts (pipelineOf opts hasPriceClient r) (workStages (pipelineOf opts hasPriceClient r)) t
          s.trace ∧
        t.isComplete opts.shouldRelaySuccessAcks opts.shouldRelayErrorAcks = true ∧
        s.trace <:+ s'.trace) ⟨r, []⟩ := by
  -- The stages before the last one finish no row.
  have hwork {done : List Stage} {t : IBCV2Transfer} {s : Focus}
      (hdone : done ⊆ workStages (pipelineOf opts hasPriceClient r))
      (ht : Travels (pipelineOf opts hasPriceClient r) (newIBCV2Transfer r) ⟨r, []⟩ done t s) :
      s.row.status.isFinished = false := by
    refine ht.keep (P := fun _ x => x.2.status.isFinished = false) (fun _ _ _ _ h => h)
      (fun st hm _ _ _ hl hx => hl.unfinished (fun e => ?_) hx) hr
    exact stateFinisher_not_mem_workStages _ (e ▸ hdone hm)
  change wp (focus (newIBCV2Transfer r).key adm) _
    (runStages (pipelineOf opts hasPriceClient r) (newPipeline _) _) _ _
  rw [newPipeline_eq]
  refine wp_runStages_append ((runStages_spec (workStages_sorted _) (List.nil_append _).symm .start
    fun _ _ _ h => absurd h List.not_mem_nil).mono (fun _ _ _ => trivial) fun o s ho => ⟨?_, ?_⟩)
  · rintro - hfin
    obtain ⟨done, t, hdone, ht⟩ := ho.1
    exact absurd ((hwork hdone ht).symm.trans hfin) (by simp)
  intro t ht
  obtain ⟨htravels, hfacts⟩ := ho.2 t ht
  refine wp_bind.mpr (htravels.key ▸ (finisher_finished t s).post ?_)
  rintro _ s' ⟨t', rfl, hfinished⟩ hfin
  have hopen := hwork (List.Subset.refl _) htravels
  cases hfinished with
  | failed _ hrow => exact absurd ((hrow ▸ hopen).symm.trans hfin) (by simp)
  | unchanged => exact absurd (hopen.symm.trans hfin) (by simp)
  | complete hc _ _ htr =>
    exact ⟨t, s, htravels, hfacts (stateFinisher_not_mem_workStages _), hc, htr⟩

/-- A run on a row as it is stored, up to some point of it, whatever the
answers are. -/
def RunTo (opts : PipelineOptions) (hasPriceClient : Bool) (r : Ibcv2Transfer) (s : Focus) : Prop :=
  ∃ p, Steps (focus r.key anyAnswer) (pipelineRun opts hasPriceClient r) ⟨r, []⟩ p s

/-- A run on a row as it is stored, up to where it makes the call `c`. -/
def RunCall (opts : PipelineOptions) (hasPriceClient : Bool) (r : Ibcv2Transfer) (c : Call)
    (s : Focus) : Prop :=
  ∃ p, Steps (focus r.key anyAnswer) (pipelineRun opts hasPriceClient r) ⟨r, []⟩ p s ∧
    p.next? = some c

theorem RunCall.inRun (h : RunCall opts hasPriceClient r c s) :
    ∃ st t s₁, InRun (pipelineOf opts hasPriceClient r)
      (newPipeline (pipelineOf opts hasPriceClient r))
      (newIBCV2Transfer r) ⟨r, []⟩ st t s₁ c s := by
  obtain ⟨p, hp, hc⟩ := h
  exact pipelineRun_spec.next hp hc

theorem RunTo.onTheWay (h : RunTo opts hasPriceClient r s) :
    OnTheWay (pipelineOf opts hasPriceClient r) (newPipeline (pipelineOf opts hasPriceClient r))
      (newIBCV2Transfer r) ⟨r, []⟩ s := by
  obtain ⟨p, hp⟩ := h
  rcases pipelineRun_spec.point hp with
    ⟨c, st, t, s₁, ⟨done, rest, hst, ht, -⟩, ⟨t', ht'⟩, -⟩ | ⟨_, h⟩
  · exact ⟨done ++ [st], t', by simp [hst], ht.stage st ht'⟩
  · exact h

end PipelineRun

/-! ## Runs that can be computed -/

/-- Answers that depend on the call alone, for a run in which every call but
the searches succeeds and every batch is of one transfer. -/
structure Answers where
  clock : ClockReader → Time := fun _ => 0
  received : Bool := false
  committed : Bool := true
  recvTx : BridgeTx := ⟨"0e", 1, "relayer"⟩
  ackTx : Option BridgeTx := none
  timeoutTx : Option BridgeTx := none
  delivered : BridgeTx := ⟨"d0", 2, "relayer"⟩
  writeAck : String → Except Err Ibcv2WriteAckStatus := fun _ => .ok .success
  retry : String → Bool := fun _ => false

def Answers.answer (w : Answers) : (c : Call) → c.Ans
  | .now reader => w.clock reader
  | .getClient _ => .ok ()
  | .chainType _ => .cosmos
  | .waitForChain _ => .ok ()
  | .isPacketReceived .. => .ok w.received
  | .isPacketCommitted .. => .ok w.committed
  | .findRecvTx .. => .ok w.recvTx
  | .findAckTx .. => w.ackTx.elim (.error (newErr "not found")) .ok
  | .findTimeoutTx .. => w.timeoutTx.elim (.error (newErr "not found")) .ok
  | .deliverTx .. => .ok w.delivered
  | .packetWriteAckStatus _ hash _ _ _ => w.writeAck hash
  | .shouldRetryTx _ hash _ _ => .ok (w.retry hash)
  | .isTxFinalized .. => .ok true
  | .isTimestampFinalized .. => .ok true
  | .txFee .. => .ok 0
  | .relayByTx _ => .ok ⟨[], ""⟩
  | .getCoinUsdValue .. => .ok ⟨0, 0⟩
  | .exec _ => .ok ()
  | .txBegin => .ok ()
  | .txExec _ => .ok ()
  | .txCommit _ => .ok ()
  | .txRollback => .ok ()
  | .addRelayCompleted .. => ()
  | .collect t => ⟨([], []), by simp⟩

/-- A packet with the sequence 7 that times out at 10. -/
def somePacket : InsertIBCV2TransferParams where
  sourceChainID := "source"
  destinationChainID := "destination"
  sourceTxHash := "0a"
  sourceTxTime := 0
  packetSequenceNumber := 7
  packetSourceClientID := "client-0"
  packetDestinationClientID := "client-1"
  packetTimeoutTimestamp := 10

/-- Acks are relayed, and gas is not priced. -/
def someOptions : PipelineOptions where
  shouldRelaySuccessAcks := true
  shouldRelayErrorAcks := true

/-- The first `n` calls of a run. -/
def Answers.run (w : Answers) (opts : PipelineOptions) (hasPriceClient : Bool) (r : Ibcv2Transfer)
    (n : Nat) : Relay (Option IBCV2Transfer) × Focus :=
  runN (focus r.key anyAnswer).next (fun c _ => w.answer c) n
    (pipelineRun opts hasPriceClient r) ⟨r, []⟩

theorem Answers.steps (w : Answers) (hw : ∀ c s, adm c (w.answer c) s) (opts : PipelineOptions)
    (hasPriceClient : Bool) (r : Ibcv2Transfer)
    (n : Nat) : Steps (focus r.key adm) (pipelineRun opts hasPriceClient r) ⟨r, []⟩
      (w.run opts hasPriceClient r n).1 (w.run opts hasPriceClient r n).2 :=
  steps_runN (S := focus r.key adm) hw n _ _

theorem Answers.runCall (w : Answers) (opts : PipelineOptions) (hasPriceClient : Bool)
    (r : Ibcv2Transfer) (n : Nat)
    {c : Call} (h : (w.run opts hasPriceClient r n).1.next? = some c) :
    RunCall opts hasPriceClient r c (w.run opts hasPriceClient r n).2 :=
  ⟨_, w.steps (fun _ _ => trivial) .., h⟩

theorem Answers.runTo (w : Answers) (opts : PipelineOptions) (hasPriceClient : Bool)
    (r : Ibcv2Transfer) (n : Nat) : RunTo opts hasPriceClient r (w.run opts hasPriceClient r n).2 :=
  ⟨_, w.steps (fun _ _ => trivial) ..⟩

theorem Answers.returned (w : Answers) (adm : (c : Call) → c.Ans → Focus → Prop)
    (hw : ∀ c s, adm c (w.answer c) s) (opts : PipelineOptions) (hasPriceClient : Bool)
    (r : Ibcv2Transfer) (n : Nat) (P : IBCV2Transfer → Prop) [DecidablePred P]
    (h : (w.run opts hasPriceClient r n).1.result?.join.any P = true) :
    ∃ t, Steps (focus r.key adm) (pipelineRun opts hasPriceClient r) ⟨r, []⟩ (.ret (some t))
      (w.run opts hasPriceClient r n).2 ∧ P t := by
  obtain ⟨t, ht, hP⟩ := (Option.any_eq_true _ _).mp h
  have hs : Steps (focus r.key adm) _ _ _ _ := w.steps hw opts hasPriceClient r n
  rw [result?_eq_some (Option.join_eq_some_iff.mp ht)] at hs
  exact ⟨t, hs, of_decide_eq_true hP⟩

end PlatformRelayer

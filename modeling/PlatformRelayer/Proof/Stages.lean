import PlatformRelayer.Proof.Lifecycle

/-!
# What the single stages do

A stage takes the steps of `Life` and no others (`single_spec`, and for the last
one `finisher_spec`), and a transfer that leaves it without an error has the
fact of the stage (`Stage.Fact`). The walks through the middleware are made once,
for any post (`wp_mw`, `wp_routeOne`).
-/

namespace PlatformRelayer

open Db Prog

/-! ## What a stage leaves behind -/

/-- What holds of an active transfer that has passed a stage. -/
def Stage.Fact (pl : Pipeline) (t : IBCV2Transfer) (tr : List Event) : Stage → Prop
  | .checkRecvPacketDelivery =>
    t.has .recv = false → t.has .ack = false → t.has .timeout = false →
      t.packet.SaidReceived tr false
  | .checkInitialPacketCommitment | .checkPostReceivePacketCommitment =>
    t.has .ack = false → t.has .timeout = false → t.packet.SaidCommitted tr true
  | .checkSendPacketFinality => t.has .recv = false →
  t.packet.SendFinal tr pl.opts.sourceFinalityOffset
  | .checkTimeoutTimestampFinality =>
    t.has .recv = false → t.has .ack = false → t.has .timeout = false →
      ∃ now, t.packet.ReadClock tr .awaitingTimeoutFinality now ∧
        (t.packet.timeoutTimestamp < now →
        t.packet.TimeoutFinal tr pl.opts.destinationFinalityOffset)
  | .batchTimeoutPacket =>
    t.has .recv = false → t.has .ack = false → t.has .timeout = false →
      ∃ now, t.packet.ReadClock tr .deliverTimeoutPacket now ∧ now ≤ t.packet.timeoutTimestamp
  | .batchRecvPacket => t.has .recv = false →
      ∃ now, t.packet.ReadClock tr .deliverRecvPacket now ∧ t.packet.timeoutTimestamp < now
  | .waitForWriteAckPacket => t.has .recv = true → t.has .timeout = false → t.writeAckTxHash ≠ none
  | .checkWriteAckFinality => ∀ h s, t.writeAckTxHash = some h → t.writeAckStatus = some s →
      pl.opts.relays s = true → t.packet.WriteAckFinal tr pl.opts.destinationFinalityOffset h ∧
        t.writeAckTxFinalizedTime ≠ none
  | .batchAckPacket => ∀ h s, t.writeAckTxHash = some h → t.writeAckStatus = some s →
      pl.opts.relays s = true → t.has .ack = false → t.has .timeout = true
  | .retryTimeoutPacket => ∀ h, t.timeoutTx.hash = some h → t.timeoutTx.time.isSome = true →
      t.packet.Confirmed tr pl.key.sourceChainID .timeout h
  | .retryAckPacket => ∀ h, t.ackTx.hash = some h → t.ackTx.time.isSome = true →
      t.packet.Confirmed tr pl.key.sourceChainID .ack h
  | _ => True

theorem Stage.Fact.mono {pl : Pipeline} {st : Stage} {t : IBCV2Transfer} {tr tr' : List Event}
    (h : tr ⊆ tr') (hf : st.Fact pl t tr) : st.Fact pl t tr' := by
  cases st with
  | checkRecvPacketDelivery => exact fun hr hk ht => h (hf hr hk ht)
  | checkInitialPacketCommitment | checkPostReceivePacketCommitment =>
    exact fun hk ht => h (hf hk ht)
  | checkSendPacketFinality => exact fun hr => h (hf hr)
  | checkTimeoutTimestampFinality =>
    intro hr hk ht
    obtain ⟨now, hn, hfin⟩ := hf hr hk ht
    exact ⟨now, h hn, fun hlt => h (hfin hlt)⟩
  | batchTimeoutPacket =>
    intro hr hk ht
    obtain ⟨now, hn, hle⟩ := hf hr hk ht
    exact ⟨now, h hn, hle⟩
  | batchRecvPacket =>
    intro hr
    obtain ⟨now, hn, hlt⟩ := hf hr
    exact ⟨now, h hn, hlt⟩
  | checkWriteAckFinality =>
    exact fun hash s hh hs hr => ⟨h (hf hash s hh hs hr).1, (hf hash s hh hs hr).2⟩
  | retryTimeoutPacket => exact fun hash hh ht => (hf hash hh ht).mono h
  | retryAckPacket => exact fun hash hh ht => (hf hash hh ht).mono h
  | waitForWriteAckPacket | batchAckPacket => exact hf
  | _ => trivial

/-- A call that delivers nothing and finishes nothing. -/
def Quiet : Call → Prop
  | .exec q => ∀ σ, q.set = .status σ → σ.isFinished = false
  | .deliverTx .. => False
  | _ => True

/-- What the guard of a batch processor says of a transfer it lets in; it has
read the clock since `tr₀`. -/
structure BatchGuard (pl : Pipeline) (k : TxKind) (t : IBCV2Transfer)
    (tr₀ tr : List Event) : Prop where
  deliverable : pl.Deliverable t k
  recv_clock : k = .recv → ∃ now, t.packet.ReadSince tr tr₀ .deliverRecvPacket now ∧
    now ≤ t.packet.timeoutTimestamp
  timeout_clock : k = .timeout → ∃ now, t.packet.ReadSince tr tr₀ .deliverTimeoutPacket now ∧
    t.packet.timeoutTimestamp < now

/-- A transfer `t` that came to a batch stage and is, as `u`, in the batch
that is delivered. -/
structure Handed (pl : Pipeline) (k : TxKind) (t : IBCV2Transfer) (s : Focus) (u : IBCV2Transfer)
    (s' : Focus) : Prop where
  active : t.Active
  guard : BatchGuard pl k t s.trace s'.trace
  same : ∃ state err, u = { t with state := state, processingError := err }
  row : s'.row.tx k = s.row.tx k

/-- The calls that are not quiet: a delivery, and the last update. -/
inductive Special (pl : Pipeline) (st : Stage) (t : IBCV2Transfer)
    (s : Focus) : Call → Focus → Prop where
  | deliver {chainID tx address sub s'} : st = batchStage sub.kind →
    (∀ u ∈ sub.transfers, u.key = t.key → Handed pl sub.kind t s u s') →
    (t.sequence ∈ sub.request.packetSequences → ∃ u ∈ sub.transfers, u.key = t.key) →
    Special pl st t s (.deliverTx chainID tx address sub) s'
  | finish {s'} : st = .stateFinisher → t.processingError = none →
    t.isComplete pl.opts.shouldRelaySuccessAcks pl.opts.shouldRelayErrorAcks = true →
    s'.row = s.row → s.trace <:+ s'.trace →
    Special pl st t s (.exec (updateTransferState t.finalState t.key)) s'

variable {pl : Pipeline} {st : Stage} {adm : (c : Call) → c.Ans → Focus → Prop}

/-- What a program has been answered is at the head of the trace. -/
theorem Prog.wp.traced {α : Type} {K : TransferKey} {x : Relay α} {pre : Call → Focus → Prop}
    {Q : α → Focus → Prop} {s : Focus} {P : Event → Prop} (h : wp (focus K adm) pre x Q s)
    (hP : ∀ c s ans, pre c s → P ⟨c, ans⟩) :
    wp (focus K adm) (fun c s' => pre c s' ∧ ∃ new, s'.trace = new ++ s.trace ∧ ∀ e ∈ new, P e) x
      (fun a s' => Q a s' ∧ ∃ new, s'.trace = new ++ s.trace ∧ ∀ e ∈ new, P e) s := by
  induction x generalizing s with
  | ret a => exact ⟨h, [], rfl, by simp⟩
  | call c k ih =>
    have hcons (ans : c.Ans) (s' : Focus)
        (h' : ∃ new, s'.trace = new ++ ⟨c, ans⟩ :: s.trace ∧ ∀ e ∈ new, P e) :
        ∃ new, s'.trace = new ++ s.trace ∧ ∀ e ∈ new, P e := by
      obtain ⟨new, htr, hnew⟩ := h'
      refine ⟨new ++ [⟨c, ans⟩], by rw [htr, List.append_assoc]; rfl, fun e he => ?_⟩
      rcases List.mem_append.mp he with he | he
      · exact hnew e he
      · exact List.mem_singleton.mp he ▸ hP c s ans h.1
    exact ⟨⟨h.1, [], rfl, by simp⟩, fun ans hans => (ih ans (h.2 ans hans)).mono
      (fun _ s' hc => ⟨hc.1, hcons ans s' hc.2⟩) fun _ s' ha => ⟨ha.1, hcons ans s' ha.2⟩⟩

/-- A quiet call, with the row as `Life` leads to it. -/
def During (pl : Pipeline) (st : Stage) (t : IBCV2Transfer) (s : Focus) (c : Call)
    (s' : Focus) : Prop :=
  (∃ t', Reaches pl st t s t' s') ∧ Quiet c

/-- What a processor of single transfers makes of one. -/
def Processed (pl : Pipeline) (st : Stage) (t : IBCV2Transfer) (s : Focus) :
    Except Err IBCV2Transfer → Focus → Prop
  | .error e, s' => Reaches pl st t s (t.fail e) s'
  | .ok t', s' => Reaches pl st t s t' s' ∧ st.Fact pl t' s'.trace

section Steps

variable {t : IBCV2Transfer} {s s₁ : Focus} {α : Type} {x : Relay (Except Err α)} {w : Err → Err}
  {k : α → Relay (Except Err IBCV2Transfer)}

/-- A call whose error the processor returns, before it has changed
anything. -/
theorem try_exec (hx : wp (focus t.key adm) (During pl st t s) x (fun r s' =>
      (∀ e, r = .error e → Reaches pl st t s t s') ∧
        ∀ a, r = .ok a → wp (focus t.key adm) (During pl st t s) (k a) (Processed pl st t s) s')
        s₁) :
    wp (focus t.key adm) (During pl st t s) (attempt x w k) (Processed pl st t s) s₁ :=
  wp_try (hx.post fun _ _ h => ⟨fun e he => (h.1 e he).step (.fail _ _), h.2⟩)

/-- The same of a call that changes nothing itself. -/
theorem try_rpc (hx : wp (focus t.key adm)
      (During pl st t s) x (fun r s' => Reaches pl st t s t s' ∧
      ∀ a, r = .ok a → wp (focus t.key adm) (During pl st t s) (k a) (Processed pl st t s) s') s₁) :
    wp (focus t.key adm) (During pl st t s) (attempt x w k) (Processed pl st t s) s₁ :=
  try_exec (hx.post fun _ _ h => ⟨fun _ _ => h.1, h.2⟩)

end Steps

theorem checkRecv_process (t : IBCV2Transfer) (s : Focus) (ha : t.Active)
    (hr : t.has .recv = false) (hk : t.has .ack = false) (ht : t.has .timeout = false) :
    wp (focus t.key adm) (During pl .checkRecvPacketDelivery t s)
      (checkRecvPacketDeliveryProcessor.process t)
      (Processed pl .checkRecvPacketDelivery t s) s := by
  have h : Reaches pl .checkRecvPacketDelivery t s t s := .refl t s
  refine try_rpc ⟨⟨⟨t, h⟩, trivial⟩, fun _ _ => ⟨h.idle _, ?_⟩⟩
  rintro _ rfl
  replace h := h.idle ⟨.getClient t.destinationChainID, .ok ()⟩
  refine try_rpc ⟨⟨⟨t, h⟩, trivial⟩, fun _ _ => ⟨h.idle _, ?_⟩⟩
  rintro received rfl
  replace h := h.idle ⟨.isPacketReceived t.destinationChainID t.packetDestinationClientID
    t.sequence, .ok received⟩
  cases received with
  | false => exact ⟨h, fun _ _ _ => List.mem_cons_self⟩
  | true =>
  refine try_rpc ⟨⟨⟨t, h⟩, trivial⟩, fun _ _ => ⟨h.idle _, ?_⟩⟩
  rintro tx rfl
  have hf := h.idle ⟨.findRecvTx t.destinationChainID t.packetSourceClientID
    t.packetDestinationClientID t.sequence t.packetTimeoutTimestamp, .ok tx⟩
  refine try_exec ⟨⟨⟨t, hf⟩, by rintro _ ⟨⟩⟩, fun _ _ => ⟨?_, ?_⟩⟩
  · rintro _ rfl
    exact hf.idle _
  rintro _ rfl
  refine ⟨hf.exec rfl (.found .recv tx ha (List.mem_cons_of_mem _ List.mem_cons_self)
    (fun _ => hr) hk ht fun _ => rfl), ?_⟩
  intro h
  cases h

/-- What `shouldProcess` answers: the transfer is passed on as it is, with the
fact of the stage, or `G` holds. -/
def Guarded (pl : Pipeline) (st : Stage) (G : IBCV2Transfer → List Event → Prop) (t : IBCV2Transfer)
    (s : Focus) (should : Bool) (s' : Focus) : Prop :=
  Reaches pl st t s t s' ∧ (should = false → st.Fact pl t s'.trace) ∧ (should = true → G t s'.trace)

/-- What a stage makes of a transfer: nothing if the context is cancelled. -/
def Passed (pl : Pipeline) (st : Stage) (t : IBCV2Transfer)
    (s : Focus) : Option IBCV2Transfer → Focus → Prop
  | none, s' => ∃ t', Reaches pl st t s t' s'
  | some t', s' => Reaches pl st t s t' s' ∧ (t'.Active → st.Fact pl t' s'.trace)

theorem During.trans {t t₁ : IBCV2Transfer} {s s₁ s' : Focus} {c : Call}
    (h : Reaches pl st t s t₁ s₁) (hd : During pl st t₁ s₁ c s') : During pl st t s c s' := by
  obtain ⟨⟨t', ht'⟩, hq⟩ := hd
  exact ⟨⟨t', h.trans ht'⟩, hq⟩

section Middleware

variable {σ : Type} {S : Sem Call Call.Ans σ} {pre : Call → σ → Prop} {p : IBCV2Processor}
  {t : IBCV2Transfer} {s : σ}

/-- The middleware passes a transfer on as it is, or hands it to the processor
once the state is written. -/
theorem wp_mw {Q : Except Err IBCV2Transfer → σ → Prop} (hskip : ¬t.Active → Q (.ok t) s)
    (hgo : t.Active → wp S pre (p.shouldProcess t)
      (fun should s₁ => (should = false → Q (.ok t) s₁) ∧
      (should = true → pre (.exec (updateTransferState p.state t.key)) s₁ ∧
        (∀ err, S.adm (.exec (updateTransferState p.state t.key)) (.error err) s₁ →
          Q (.ok (t.fail (stateUpdateErr p.state t.state err)))
            (S.next (.exec (updateTransferState p.state t.key)) (.error err) s₁)) ∧
        wp S pre (p.process { t with state := p.state }) (fun o s' =>
          (∀ err, o = .error err → Q (.error err) s' ∧
            Q (.ok ({ t with state := p.state }.fail err)) s') ∧
            ∀ output, o = .ok output → Q (.ok output) s')
          (S.next (.exec (updateTransferState p.state t.key)) (.ok ()) s₁))) s) :
    wp S pre (IBCV2ProcessorMW.process p t) Q s := by
  rw [IBCV2ProcessorMW.process]
  split
  · rename_i he
    exact hskip fun ha => by simp [IBCV2Transfer.errored, ha.1] at he
  rename_i he
  split
  · rename_i hs
    exact hskip fun ha => ha.2 hs
  rename_i hs
  refine wp_bind.mpr ((hgo ⟨by simpa [IBCV2Transfer.errored] using he, hs⟩).post
    fun should s₁ h => ?_)
  cases should with
  | false => exact h.1 rfl
  | true =>
  obtain ⟨hpre, hfailed, hprocess⟩ := h.2 rfl
  refine ⟨hpre, fun ans hans => ?_⟩
  cases ans with
  | error err => exact hfailed err hans
  | ok _ =>
  change wp _ _ (Prog.bind (p.process { t with state := p.state }) _) _ _
  refine wp_bind.mpr (hprocess.post fun o s' ho => ?_)
  cases o with
  | error err =>
    dsimp only
    split
    · exact (ho.1 err rfl).1
    · exact (ho.1 err rfl).2
  | ok output => exact ho.2 output rfl

/-- The same of one pass of the loop over a batch, which goes on whether or not the
state could be written. -/
theorem wp_routeOne {p : IBCV2BatchProcessor} {r : Ref} {a : Routed} {Q : Routed → σ → Prop}
    (hskip : ¬(a.heap r).Active → Q (a.skip r) s)
    (hgo : (a.heap r).Active → wp S pre (p.shouldProcess (a.heap r)) (fun should s₁ =>
      (should = false → Q (a.skip r) s₁) ∧ (should = true →
        pre (.exec (updateTransferState p.state (a.heap r).key)) s₁ ∧
        ∀ ans, Q (a.updated r p.state ans)
          (S.next (.exec (updateTransferState p.state (a.heap r).key)) ans s₁))) s) :
    wp S pre (IBCV2BatchProcessorMW.routeOne p r a) Q s := by
  rw [IBCV2BatchProcessorMW.routeOne]
  split
  · rename_i he
    exact hskip fun ha => by simp [IBCV2Transfer.errored, ha.1] at he
  rename_i he
  split
  · rename_i hf
    exact hskip fun ha => ha.2 hf
  rename_i hf
  refine wp_bind.mpr ((hgo ⟨by simpa [IBCV2Transfer.errored] using he, hf⟩).post
    fun should s₁ h => ?_)
  cases should with
  | false => exact h.1 rfl
  | true => exact ⟨(h.2 rfl).1, fun ans _ => (h.2 rfl).2 ans⟩

/-- A stage with a processor of single transfers. -/
theorem wp_single {Q : Option IBCV2Transfer → σ → Prop} (hp : st.processor pl = .single p)
    (h : wp S pre (IBCV2ProcessorMW.process p t) (fun o s' => Q o.toOption s') s) :
    wp S pre (st.process pl t) Q s := by
  rw [Stage.process, hp]
  refine wp_bind.mpr (h.post fun o s' ho => ?_)
  cases o with
  | error e => exact ho
  | ok t' => exact ho

end Middleware

theorem mw_process {p : IBCV2Processor} {G : IBCV2Transfer → List Event → Prop}
    (hstate : p.state.isFinished = false)
    (hG : ∀ t tr e, G t tr → G { t with state := p.state } (e :: tr))
    (hshould : ∀ t s, wp (focus t.key adm) (During pl st t s) (p.shouldProcess t)
      (Guarded pl st G t s) s)
    (hprocess : ∀ t s, t.Active → G t s.trace →
      wp (focus t.key adm) (During pl st t s) (p.process t) (Processed pl st t s) s)
    (t : IBCV2Transfer) (s : Focus) :
    wp (focus t.key adm) (During pl st t s) (IBCV2ProcessorMW.process p t)
      (fun o s' => Passed pl st t s o.toOption s') s := by
  have h : Reaches pl st t s t s := .refl t s
  refine wp_mw (fun hn => ⟨h, fun ha => absurd ha hn⟩) fun ha =>
    (hshould t s).post fun should s₁ hg => ?_
  obtain ⟨h₁, hskip, hgo⟩ := hg
  refine ⟨fun hf => ⟨h₁, fun _ => hskip hf⟩, fun hs =>
    ⟨⟨⟨t, h₁⟩, fun σ hσ => ?_⟩, fun err _ => ?_, ?_⟩⟩
  · cases hσ
    exact hstate
  · exact ⟨(h₁.idle _).step (.fail t.state _), fun ha => by cases ha.1⟩
  have h₂ : Reaches pl st t s { t with state := p.state }
      ((focus t.key adm).next (.exec (updateTransferState p.state t.key)) (.ok ()) s₁) :=
    h₁.exec rfl (.enter p.state ha hstate)
  have ha₂ : IBCV2Transfer.Active { t with state := p.state } :=
    ⟨ha.1, fun hf => by rw [show p.state = .failed from hf] at hstate; cases hstate⟩
  refine (hprocess { t with state := p.state } _ ha₂ (hG _ _ _ (hgo hs))).mono
    (fun _ _ => During.trans h₂) ?_
  intro o s' ho
  constructor
  · rintro err rfl
    exact ⟨⟨_, h₂.trans ho⟩, h₂.trans ho, fun ha => by cases ha.1⟩
  · rintro t' rfl
    exact ⟨h₂.trans ho.1, fun _ => ho.2⟩

theorem recordFound_spec {t : IBCV2Transfer} {s s₁ : Focus} {k : TxKind} {tx : BridgeTx}
    (format : String) (ha : t.Active) (hk : t.has .ack = false) (ht : t.has .timeout = false)
    (hr : k ≠ .recv) (h : Reaches pl st t s t s₁) (hf : t.packet.Found s₁.trace k tx)
    (hfact : ∀ tr, st.Fact pl (t.foundTx k tx) tr) :
    wp (focus t.key adm) (During pl st t s) (recordFound t k format tx) (Processed pl st t s)
      s₁ := by
  refine try_exec ⟨⟨⟨t, h⟩, by rintro _ ⟨⟩⟩, fun _ _ => ⟨?_, ?_⟩⟩
  · rintro _ rfl
    exact h.idle _
  rintro _ rfl
  have hf' := hf.mono (List.subset_cons_self ⟨.exec (t.recordTx k tx), .ok ()⟩ _)
  exact ⟨h.exec rfl (.found k tx ha hf' (fun e => absurd e hr) hk ht fun e => absurd e hr), hfact _⟩

theorem checkPacketCommitment_process (t : IBCV2Transfer) (s : Focus) (ha : t.Active)
    (hk : t.has .ack = false) (ht : t.has .timeout = false)
    (hfact : ∀ t tr, (t.has .ack = false → t.has .timeout = false →
      t.packet.SaidCommitted tr true) → st.Fact pl t tr) :
    wp (focus t.key adm) (During pl st t s) (checkPacketCommitmentProcessor.process t)
      (Processed pl st t s) s := by
  have h : Reaches pl st t s t s := .refl t s
  refine try_rpc ⟨⟨⟨t, h⟩, trivial⟩, fun _ _ => ⟨h.idle _, ?_⟩⟩
  rintro _ rfl
  replace h := h.idle ⟨.getClient t.sourceChainID, .ok ()⟩
  refine try_rpc ⟨⟨⟨t, h⟩, trivial⟩, fun _ _ => ⟨h.idle _, ?_⟩⟩
  rintro committed rfl
  replace h := h.idle ⟨.isPacketCommitted t.sourceChainID t.packetSourceClientID t.sequence,
    .ok committed⟩
  cases committed with
  | true => exact ⟨h, hfact _ _ fun _ _ => List.mem_cons_self⟩
  | false =>
  refine ⟨⟨⟨t, h⟩, trivial⟩, fun ackTx _ => ?_⟩
  replace h := h.idle ⟨.findAckTx t.sourceChainID t.packetSourceClientID t.packetDestinationClientID
    t.sequence, ackTx⟩
  refine ⟨⟨⟨t, h⟩, trivial⟩, fun timeoutTx _ => ?_⟩
  replace h := h.idle
    ⟨.findTimeoutTx t.sourceChainID t.packetSourceClientID t.packetDestinationClientID
    t.sequence, timeoutTx⟩
  cases ackTx with
  | ok ackTx =>
    cases timeoutTx with
    | ok timeoutTx => exact h.step (.fail _ _)
    | error _ =>
      refine recordFound_spec _ ha hk ht (by simp) h (List.mem_cons_of_mem _ List.mem_cons_self) ?_
      exact fun _ => hfact _ _ (by simp [IBCV2Transfer.has])
  | error _ =>
    cases timeoutTx with
    | ok timeoutTx =>
      refine recordFound_spec _ ha hk ht (by simp) h List.mem_cons_self ?_
      exact fun _ => hfact _ _ fun _ => by simp [IBCV2Transfer.has]
    | error _ => exact h.step (.fail _ _)

theorem checkSendFinality_process (t : IBCV2Transfer) (s : Focus) :
    wp (focus t.key adm) (During pl .checkSendPacketFinality t s)
      ((checkSendFinalityProcessor pl.opts.sourceFinalityOffset).process t)
      (Processed pl .checkSendPacketFinality t s) s := by
  have h : Reaches pl .checkSendPacketFinality t s t s := .refl t s
  refine try_rpc ⟨⟨⟨t, h⟩, trivial⟩, fun _ _ => ⟨h.idle _, ?_⟩⟩
  rintro _ rfl
  replace h := h.idle ⟨.getClient t.sourceChainID, .ok ()⟩
  refine try_rpc ⟨⟨⟨t, h⟩, trivial⟩, fun _ _ => ⟨h.idle _, ?_⟩⟩
  rintro finalized rfl
  replace h := h.idle ⟨.isTxFinalized t.sourceChainID t.sourceTxHash pl.opts.sourceFinalityOffset,
    .ok finalized⟩
  cases finalized with
  | false => exact h.step (.fail _ _)
  | true =>
  change wp _ _ (if t.sourceTxFinalizedTime.isSome then _ else _) _ _
  split
  · exact ⟨h, fun _ => List.mem_cons_self⟩
  refine ⟨⟨⟨t, h⟩, trivial⟩, fun now _ => ?_⟩
  replace h := h.idle ⟨.now .finalizedTime, now⟩
  refine try_exec ⟨⟨⟨t, h⟩, by rintro _ ⟨⟩⟩, fun _ _ => ⟨?_, ?_⟩⟩
  · rintro _ rfl
    exact h.idle _
  rintro _ rfl
  exact ⟨h.exec rfl (.sendFinalized now),
    fun _ => List.mem_cons_of_mem _ (List.mem_cons_of_mem _ List.mem_cons_self)⟩

theorem checkTimeoutFinality_process (t : IBCV2Transfer) (s : Focus)
    (hn : ∃ now, t.packet.ReadClock s.trace .awaitingTimeoutFinality now) :
    wp (focus t.key adm) (During pl .checkTimeoutTimestampFinality t s)
      ((checkTimeoutFinalityProcessor pl.opts.destinationFinalityOffset).process t)
      (Processed pl .checkTimeoutTimestampFinality t s) s := by
  have h : Reaches pl .checkTimeoutTimestampFinality t s t s := .refl t s
  refine try_rpc ⟨⟨⟨t, h⟩, trivial⟩, fun _ _ => ⟨h.idle _, ?_⟩⟩
  rintro _ rfl
  replace h := h.idle ⟨.getClient t.destinationChainID, .ok ()⟩
  refine try_rpc ⟨⟨⟨t, h⟩, trivial⟩, fun _ _ => ⟨h.idle _, ?_⟩⟩
  rintro finalized rfl
  replace h := h.idle ⟨.isTimestampFinalized t.destinationChainID t.packetTimeoutTimestamp
    pl.opts.destinationFinalityOffset, .ok finalized⟩
  cases finalized with
  | false => exact h.step (.fail _ _)
  | true =>
    obtain ⟨now, hnow⟩ := hn
    exact ⟨h, fun _ _ _ => ⟨now, h.trace.subset hnow, fun _ => List.mem_cons_self⟩⟩

theorem checkWriteAckFinality_process (t : IBCV2Transfer) (s : Focus) (ha : t.Active)
    (hack : ∃ h s, t.writeAckTxHash = some h ∧ t.writeAckStatus = some s ∧
      pl.opts.relays s = true) :
    wp (focus t.key adm) (During pl .checkWriteAckFinality t s)
      ((checkWriteAckFinalityProcessor pl.opts.shouldRelaySuccessAcks pl.opts.shouldRelayErrorAcks
        pl.opts.destinationFinalityOffset).process t)
      (Processed pl .checkWriteAckFinality t s) s := by
  have h : Reaches pl .checkWriteAckFinality t s t s := .refl t s
  refine try_rpc ⟨⟨⟨t, h⟩, trivial⟩, fun _ _ => ⟨h.idle _, ?_⟩⟩
  rintro _ rfl
  replace h := h.idle ⟨.getClient t.destinationChainID, .ok ()⟩
  split
  · exact h.step (.fail _ _)
  rename_i hash hw
  refine try_rpc ⟨⟨⟨t, h⟩, trivial⟩, fun _ _ => ⟨h.idle _, ?_⟩⟩
  rintro finalized rfl
  replace h := h.idle ⟨.isTxFinalized t.destinationChainID hash pl.opts.destinationFinalityOffset,
    .ok finalized⟩
  cases finalized with
  | false => exact h.step (.fail _ _)
  | true =>
  change wp _ _ (if t.writeAckTxFinalizedTime.isSome then _ else _) _ _
  split
  · rename_i hfinal
    refine ⟨h, fun h' _ hh' _ _ => ⟨?_, Option.isSome_iff_ne_none.mp hfinal⟩⟩
    obtain rfl : hash = h' := Option.some.inj (hw.symm.trans hh')
    exact List.mem_cons_self
  rename_i hfinal
  refine ⟨⟨⟨t, h⟩, trivial⟩, fun now _ => ?_⟩
  replace h := h.idle ⟨.now .finalizedTime, now⟩
  refine try_exec ⟨⟨⟨t, h⟩, by rintro _ ⟨⟩⟩, fun _ _ => ⟨?_, ?_⟩⟩
  · rintro _ rfl
    exact h.idle _
  rintro _ rfl
  have hrow (r : Ibcv2Transfer) : Call.effectOn t.key
      (.exec (updateTransferWriteAckTxFinalizedTime (some now) ⟨"", "", 0⟩))
      (.ok ()) r = finalizedRow t now r := by
    rw [finalizedRow]
    by_cases hk : t.key = ⟨"", "", 0⟩
    · rw [if_pos hk]
      exact if_pos hk.symm
    · rw [if_neg hk]
      exact if_neg (Ne.symm hk)
  refine ⟨h.call _ (hrow _ ▸ .writeAckFinalized now ha rfl (by simpa using hfinal) hack),
    fun h' _ hh' _ _ => ⟨?_, Option.some_ne_none _⟩⟩
  · obtain rfl : hash = h' := Option.some.inj (hw.symm.trans hh')
    exact List.mem_cons_of_mem _ (List.mem_cons_of_mem _ List.mem_cons_self)

theorem recordWriteAck_spec {t : IBCV2Transfer} {s s₁ : Focus} {hash : String}
    (status : Ibcv2WriteAckStatus)
    (ha : t.Active) (hr : t.recvTx.hash = some hash) (hw : t.writeAckTxHash = none)
    (ht : t.has .timeout = false) (h : Reaches pl .waitForWriteAckPacket t s t s₁)
    (he : t.packet.SaidWriteAck s₁.trace hash status) :
    wp (focus t.key adm) (During pl .waitForWriteAckPacket t s) (recordWriteAck t hash status)
      (Processed pl .waitForWriteAckPacket t s) s₁ := by
  refine ⟨⟨⟨t, h⟩, trivial⟩, fun _ _ => ?_⟩
  replace h := h.idle
    ⟨.addRelayCompleted t.sourceChainID t.packetSourceClientID t.destinationChainID
    t.packetDestinationClientID .ibcv2SendToRecv, ()⟩
  refine try_exec ⟨⟨⟨t, h⟩, by rintro _ ⟨⟩⟩, fun _ _ => ⟨?_, ?_⟩⟩
  · rintro _ rfl
    exact h.idle _
  rintro _ rfl
  refine ⟨h.exec rfl (.wroteAck hash _ status ha hr hw ht rfl (he.mono fun _ hm => ?_)), fun _ _ =>
    Option.some_ne_none _⟩
  exact List.mem_cons_of_mem _ (List.mem_cons_of_mem _ hm)

theorem waitForWriteAck_process (t : IBCV2Transfer) (s : Focus) (ha : t.Active)
    (hw : t.writeAckTxHash = none) (ht : t.has .timeout = false) :
    wp (focus t.key adm) (During pl .waitForWriteAckPacket t s) (waitForWriteAckPacket.process t)
      (Processed pl .waitForWriteAckPacket t s) s := by
  have h : Reaches pl .waitForWriteAckPacket t s t s := .refl t s
  refine try_rpc ⟨⟨⟨t, h⟩, trivial⟩, fun _ _ => ⟨h.idle _, ?_⟩⟩
  rintro _ rfl
  replace h := h.idle ⟨.getClient t.destinationChainID, .ok ()⟩
  split
  · exact h.step (.fail _ _)
  rename_i hash hr
  refine ⟨⟨⟨t, h⟩, trivial⟩, fun status _ => ?_⟩
  replace h := h.idle
    ⟨.packetWriteAckStatus t.destinationChainID hash t.sequence t.packetSourceClientID
    t.packetDestinationClientID, status⟩
  cases status with
  | ok status => exact recordWriteAck_spec status ha hr hw ht h ⟨_, List.mem_cons_self, rfl⟩
  | error err =>
    change wp _ _ (if err.is .errWriteAckNotFoundForPacket then _ else
      if !err.is .errWriteAckDecoding then _ else _) _ _
    split
    · refine try_exec ⟨⟨⟨t, h⟩, by rintro _ ⟨⟩⟩, fun _ _ => ⟨?_, ?_⟩⟩
      · rintro _ rfl
        exact h.idle _
      rintro _ rfl
      exact h.exec rfl (.cleared .recv _ ha (by simp [IBCV2Transfer.has, IBCV2Transfer.tx, hr])
        (fun _ => hw) (.inr ⟨rfl, rfl⟩))
    rename_i hfound
    split
    · exact h.step (.fail _ _)
    · rename_i hdecoding
      refine recordWriteAck_spec .unknown ha hr hw ht h ⟨_, List.mem_cons_self, ?_⟩
      simpa [writeAckOf, hfound] using hdecoding

theorem retry_process (p : RetryPacket) (t : IBCV2Transfer) (s : Focus) (ha : t.Active)
    (hw : p.kind = .recv → t.writeAckTxHash = none) (hst : st = retryStage p.kind)
    (hfact : ∀ tr, (∀ h, (t.tx p.kind).hash = some h → (t.tx p.kind).time.isSome = true →
      t.packet.Confirmed tr p.chainID p.kind h) → st.Fact pl t tr) :
    wp (focus t.key adm) (During pl st t s) (p.processor.process t) (Processed pl st t s) s := by
  have h : Reaches pl st t s t s := .refl t s
  refine try_rpc ⟨⟨⟨t, h⟩, trivial⟩, fun _ _ => ⟨h.idle _, ?_⟩⟩
  rintro _ rfl
  replace h := h.idle ⟨.getClient p.chainID, .ok ()⟩
  split
  · exact h.step (.fail _ _)
  rename_i hash hhash
  split
  · exact h.step (.fail _ _)
  rename_i time htime
  refine try_rpc ⟨⟨⟨t, h⟩, trivial⟩, fun _ _ => ⟨h.idle _, ?_⟩⟩
  rintro retry rfl
  replace h := h.idle ⟨.shouldRetryTx p.chainID hash p.expiry time, .ok retry⟩
  cases retry with
  | false =>
    refine ⟨h, hfact _ fun h' hh' _ => ?_⟩
    obtain rfl : hash = h' := Option.some.inj (hhash.symm.trans hh')
    exact .inl ⟨_, _, List.mem_cons_self⟩
  | true =>
  refine try_exec ⟨⟨⟨t, h⟩, by rintro _ ⟨⟩⟩, fun _ _ => ⟨?_, ?_⟩⟩
  · rintro _ rfl
    exact h.idle _
  rintro _ rfl
  exact h.exec rfl (.cleared p.kind _ ha (by simp [IBCV2Transfer.has, hhash]) hw (.inl hst))

theorem gas_process (p : TxGasCalculator) (t : IBCV2Transfer) (s : Focus) (ha : t.Active)
    (hchain : p.chainID t = t.packet.chainID p.kind) (hfact : ∀ tr, st.Fact pl t tr) :
    wp (focus t.key adm) (During pl st t s) (p.processor.process t) (Processed pl st t s) s := by
  have h : Reaches pl st t s t s := .refl t s
  refine try_rpc ⟨⟨⟨t, h⟩, trivial⟩, fun _ _ => ⟨h.idle _, ?_⟩⟩
  rintro _ rfl
  replace h := h.idle ⟨.getClient (p.chainID t), .ok ()⟩
  split
  · exact h.step (.fail _ _)
  rename_i hash hhash
  refine try_rpc ⟨⟨⟨t, h⟩, trivial⟩, fun _ _ => ⟨h.idle _, ?_⟩⟩
  rintro fee rfl
  replace h := h.idle ⟨.txFee (p.chainID t) hash, .ok fee⟩
  refine try_rpc ⟨⟨⟨t, h⟩, trivial⟩, fun _ _ => ⟨h.idle _, ?_⟩⟩
  rintro cost rfl
  replace h := h.idle ⟨.getCoinUsdValue p.coingeckoID p.decimals fee, .ok cost⟩
  refine try_exec ⟨⟨⟨t, h⟩, by rintro _ ⟨⟩⟩, fun _ _ => ⟨?_, ?_⟩⟩
  · rintro _ rfl
    exact h.idle _
  rintro _ rfl
  refine ⟨h.exec rfl (.priced p.kind cost hash ha hhash ⟨p.coingeckoID, p.decimals, fee, ?_, ?_⟩),
    hfact _⟩
  · rw [← hchain]
    exact List.mem_cons_of_mem _ (List.mem_cons_of_mem _ List.mem_cons_self)
  · exact List.mem_cons_of_mem _ List.mem_cons_self

/-! ## The stages -/

/-- `mw_process` for a guard that reads the transfer only. -/
theorem mw_pure {p : IBCV2Processor} {g : IBCV2Transfer → Bool}
    (hstate : p.state.isFinished = false)
    (hp : ∀ t, p.shouldProcess t = .ret (g t)) (hg : ∀ t, g { t with state := p.state } = g t)
    (hskip : ∀ t tr, g t = false → st.Fact pl t tr)
    (hprocess : ∀ t s, t.Active → g t = true →
      wp (focus t.key adm) (During pl st t s) (p.process t) (Processed pl st t s) s)
    (t : IBCV2Transfer) (s : Focus) :
    wp (focus t.key adm) (During pl st t s) (IBCV2ProcessorMW.process p t)
      (fun o s' => Passed pl st t s o.toOption s') s := by
  refine mw_process (G := fun t _ => g t = true) hstate (fun t _ _ h => (hg t).trans h)
    (fun t s => ?_) hprocess t s
  rw [hp]
  exact ⟨.refl t s, hskip t _, id⟩

/-- The timed out guard of the timeout finality check. -/
theorem guarded_timeoutFinality (t : IBCV2Transfer) (s : Focus) :
    wp (focus t.key adm) (During pl .checkTimeoutTimestampFinality t s)
      ((checkTimeoutFinalityProcessor pl.opts.destinationFinalityOffset).shouldProcess t)
      (Guarded pl .checkTimeoutTimestampFinality
        (fun t tr => ∃ now, t.packet.ReadClock tr .awaitingTimeoutFinality now) t s) s := by
  have h : Reaches pl .checkTimeoutTimestampFinality t s t s := .refl t s
  refine ⟨⟨⟨t, h⟩, trivial⟩, fun now _ =>
    ⟨h.idle _, fun hf hr hk ht => ?_, fun _ => ⟨now, List.mem_cons_self⟩⟩⟩
  refine ⟨now, List.mem_cons_self, fun hlt => ?_⟩
  rw [hr, hk, ht, show decide (t.packetTimeoutTimestamp < now) = true from decide_eq_true hlt] at hf
  cases hf

/-- A stage with a processor of single transfers takes the steps of `Life`
and makes quiet calls only. -/
theorem single_spec {p : IBCV2Processor} (hp : st.processor pl = .single p) (t : IBCV2Transfer)
    (s : Focus) : wp (focus t.key adm) (During pl st t s) (st.process pl t)
      (Passed pl st t s) s := by
  refine wp_single hp ?_
  cases st with
  | checkRecvPacketDelivery =>
    cases hp
    refine mw_pure rfl (fun _ => rfl) (fun _ => rfl) (fun t _ hg => ?_) (fun t s ha hg => ?_) t s
    · intro hr hk ht
      simp [hr, hk, ht] at hg
    · simp only [Bool.and_eq_true, Bool.not_eq_true'] at hg
      exact checkRecv_process t s ha hg.1.1 hg.1.2 hg.2
  | checkInitialPacketCommitment =>
    cases hp
    refine mw_pure rfl (fun _ => rfl) (fun _ => rfl) (fun t _ hg => ?_) (fun t s ha hg => ?_) t s
    · intro hk ht
      simp [hk, ht] at hg
    · simp only [Bool.and_eq_true, Bool.not_eq_true'] at hg
      exact checkPacketCommitment_process t s ha hg.1 hg.2 fun _ _ h => h
  | checkSendPacketFinality =>
    cases hp
    refine mw_pure rfl (fun _ => rfl) (fun _ => rfl) (fun t _ hg => ?_)
      (fun t s _ _ => checkSendFinality_process t s) t s
    intro hr
    simp [hr] at hg
  | checkTimeoutTimestampFinality =>
    cases hp
    exact mw_process rfl (fun _ _ _ ⟨now, h⟩ => ⟨now, List.mem_cons_of_mem _ h⟩)
      guarded_timeoutFinality (fun t s _ hn => checkTimeoutFinality_process t s hn) t s
  | retryTimeoutPacket =>
    cases hp
    refine mw_pure rfl (fun _ => rfl) (fun _ => rfl) (fun t _ hg => ?_) (fun t s ha _ => ?_) t s
    · intro h hh ht
      simp [IBCV2Transfer.has, IBCV2Transfer.tx, hh, ht] at hg
    · exact retry_process _ t s ha (by simp) rfl fun _ h => h
  | timeoutTxGasCalculator =>
    cases hp
    refine mw_pure rfl (fun _ => rfl) (fun _ => rfl) (fun _ _ _ => ?_) (fun t s ha _ => ?_) t s
    · trivial
    · exact gas_process _ t s ha rfl fun _ => trivial
  | retryRecvPacket =>
    cases hp
    refine mw_pure rfl (fun _ => rfl) (fun _ => rfl) (fun _ _ _ => ?_) (fun t s ha hg => ?_) t s
    · trivial
    · simp only [Bool.and_eq_true, Option.isNone_iff_eq_none] at hg
      exact retry_process _ t s ha (fun _ => hg.2) rfl fun _ _ => trivial
  | recvTxGasCalculator =>
    cases hp
    refine mw_pure rfl (fun _ => rfl) (fun _ => rfl) (fun _ _ _ => ?_) (fun t s ha _ => ?_) t s
    · trivial
    · exact gas_process _ t s ha rfl fun _ => trivial
  | waitForWriteAckPacket =>
    cases hp
    refine mw_pure rfl (fun _ => rfl) (fun _ => rfl) (fun t _ hg => ?_) (fun t s ha hg => ?_) t s
    · intro hr ht hw
      simp [hr, ht, hw] at hg
    · simp only [Bool.and_eq_true, Bool.not_eq_true', Option.isNone_iff_eq_none] at hg
      exact waitForWriteAck_process t s ha hg.1.2 hg.2
  | checkWriteAckFinality =>
    cases hp
    refine mw_pure rfl (fun _ => rfl) (fun _ => rfl) (fun t _ hg => ?_) (fun t s ha hg => ?_) t s
    · intro h status hh hstatus hr
      simp only [hh, hstatus, Option.isNone_some, Bool.false_eq_true, if_false] at hg
      exact absurd (hg.symm.trans hr) (by simp)
    · refine checkWriteAckFinality_process t s ha ?_
      split at hg
      · cases hg
      rename_i hw
      split at hg
      · cases hg
      rename_i status hs
      obtain ⟨hash, hhash⟩ := Option.ne_none_iff_exists'.mp (by simpa using hw)
      exact ⟨hash, status, hhash, hs, hg⟩
  | checkPostReceivePacketCommitment =>
    cases hp
    refine mw_pure rfl (fun _ => rfl) (fun _ => rfl) (fun t _ hg => ?_) (fun t s ha hg => ?_) t s
    · intro hk ht
      simp [hk, ht] at hg
    · simp only [Bool.and_eq_true, Bool.not_eq_true'] at hg
      exact checkPacketCommitment_process t s ha hg.1 hg.2 fun _ _ h => h
  | retryAckPacket =>
    cases hp
    refine mw_pure rfl (fun _ => rfl) (fun _ => rfl) (fun t _ hg => ?_) (fun t s ha _ => ?_) t s
    · intro h hh ht
      simp [IBCV2Transfer.has, IBCV2Transfer.tx, hh, ht] at hg
    · exact retry_process _ t s ha (by simp) rfl fun _ h => h
  | ackTxGasCalculator =>
    cases hp
    refine mw_pure rfl (fun _ => rfl) (fun _ => rfl) (fun _ _ _ => ?_) (fun t s ha _ => ?_) t s
    · trivial
    · exact gas_process _ t s ha rfl fun _ => trivial
  | batchTimeoutPacket => cases hp
  | batchRecvPacket => cases hp
  | batchAckPacket => cases hp
  | stateFinisher => cases hp

/-! ## The last stage -/

/-- A call of a stage, with the row as `Life` leads to it. -/
def Calls (pl : Pipeline) (st : Stage) (t : IBCV2Transfer) (s : Focus) (c : Call)
    (s' : Focus) : Prop :=
  (∃ t', Reaches pl st t s t' s') ∧ (Quiet c ∨ Special pl st t s c s')

theorem During.calls {t : IBCV2Transfer} {s s' : Focus} {c : Call} (h : During pl st t s c s') :
    Calls pl st t s c s' := ⟨h.1, .inl h.2⟩

/-- What becomes of a transfer in the `StateFinisher`: it leaves it with an error,
or as it was, or complete. One that is complete is left as it was only if it has
an ack tx and no status of a write ack. -/
inductive Finished (pl : Pipeline) (t : IBCV2Transfer)
    (s : Focus) : IBCV2Transfer → Focus → Prop where
  | failed {t' s'} : t'.processingError ≠ none → s'.row = s.row → Finished pl t s t' s'
  | unchanged : (t.isComplete pl.opts.shouldRelaySuccessAcks pl.opts.shouldRelayErrorAcks = true →
      t.has .timeout = false ∧ t.writeAckStatus = none) → Finished pl t s t s
  | complete {s'} :
    t.isComplete pl.opts.shouldRelaySuccessAcks pl.opts.shouldRelayErrorAcks = true →
      s'.row = (SetClause.status t.finalState).apply s.row →
      ⟨.exec (updateTransferState t.finalState t.key), .ok ()⟩ ∈ s'.trace → s.trace <:+ s'.trace →
      Finished pl t s { t with state := t.finalState } s'

theorem writeFinalState_spec {t : IBCV2Transfer} {s s₁ : Focus} {state : Ibcv2RelayStatus}
    (he : t.processingError = none)
    (hc : t.isComplete pl.opts.shouldRelaySuccessAcks pl.opts.shouldRelayErrorAcks = true)
    (hstate : state = t.finalState) (hrow : s₁.row = s.row) (htr : s.trace <:+ s₁.trace) :
    wp (focus t.key adm) (fun c s' => Calls pl .stateFinisher t s c s' ∧ s'.row = s.row)
      (writeFinalState { t with state := state })
      (fun t' s' => Finished pl t s t' s' ∧ Passed pl .stateFinisher t s (some t') s') s₁ := by
  subst hstate
  have h : Reaches pl .stateFinisher t s t s₁ := ⟨htr, by rw [hrow]⟩
  refine ⟨⟨⟨⟨t, h⟩, .inr (.finish rfl he hc hrow htr)⟩, hrow⟩, fun r _ => ?_⟩
  cases r with
  | error e =>
    refine ⟨.failed (Option.some_ne_none _) ?_, (h.idle _).step (.fail t.finalState _),
      fun _ => trivial⟩
    exact (Call.effectOn_idle rfl _).trans hrow
  | ok _ =>
    refine ⟨.complete hc ?_ List.mem_cons_self (htr.trans (List.suffix_cons _ _)),
      h.exec rfl (.finish he hc rfl), fun _ => trivial⟩
    rw [← hrow]
    exact if_pos rfl

/-- The `StateFinisher` makes one statement, as its last call. -/
theorem stateFinisher_spec (t : IBCV2Transfer) (s : Focus) :
    wp (focus t.key adm) (fun c s' => Calls pl .stateFinisher t s c s' ∧ s'.row = s.row)
      (stateFinisher pl.opts.shouldRelaySuccessAcks pl.opts.shouldRelayErrorAcks t)
      (fun t' s' => Finished pl t s t' s' ∧ Passed pl .stateFinisher t s (some t') s') s := by
  have h : Reaches pl .stateFinisher t s t s := .refl t s
  rw [stateFinisher]
  split
  · rename_i he
    exact ⟨.failed (Option.isSome_iff_ne_none.mp he) rfl, h, fun _ => trivial⟩
  rename_i he
  have he' : t.processingError = none := by simpa [IBCV2Transfer.errored] using he
  split
  · rename_i hc
    exact ⟨.unchanged fun h => by simp [h] at hc, h, fun _ => trivial⟩
  rename_i hc
  have hc' : t.isComplete pl.opts.shouldRelaySuccessAcks pl.opts.shouldRelayErrorAcks = true := by
    simpa using hc
  split
  · rename_i ht
    refine ⟨⟨⟨⟨t, h⟩, .inl trivial⟩, rfl⟩, fun _ _ => ?_⟩
    exact writeFinalState_spec he' hc' (by simp [IBCV2Transfer.finalState, ht]) rfl
      (List.suffix_cons _ _)
  rename_i ht
  split
  · rename_i hs
    exact ⟨.unchanged fun _ => ⟨Bool.eq_false_iff.mpr ht, hs⟩, h, fun _ => trivial⟩
  rename_i status hs
  split
  · rename_i hk
    refine ⟨⟨⟨⟨t, h⟩, .inl trivial⟩, rfl⟩, fun _ _ => ?_⟩
    exact writeFinalState_spec he' hc' (by simp [IBCV2Transfer.finalState, ht, hk]) rfl
      (List.suffix_cons _ _)
  · rename_i hk
    cases status with
    | success =>
      exact writeFinalState_spec he' hc' (by simp [IBCV2Transfer.finalState, ht, hk, hs]) rfl
        List.suffix_rfl
    | error =>
      exact writeFinalState_spec he' hc' (by simp [IBCV2Transfer.finalState, ht, hk, hs]) rfl
        List.suffix_rfl
    | unknown =>
      exact writeFinalState_spec he' hc' (by simp [IBCV2Transfer.finalState, ht, hk, hs]) rfl
        List.suffix_rfl

theorem finisher_spec (t : IBCV2Transfer) (s : Focus) :
    wp (focus t.key adm) (fun c s' => Calls pl .stateFinisher t s c s' ∧ s'.row = s.row)
      (Stage.process pl .stateFinisher t) (Passed pl .stateFinisher t s) s := by
  rw [Stage.process, Stage.processor]
  exact wp_bind.mpr ((stateFinisher_spec t s).post fun _ _ h => h.2)

theorem finisher_finished (t : IBCV2Transfer) (s : Focus) :
    wp (focus t.key adm) (fun _ _ => True) (Stage.process pl .stateFinisher t)
      (fun o s' => ∃ t', o = some t' ∧ Finished pl t s t' s') s := by
  rw [Stage.process, Stage.processor]
  exact wp_bind.mpr ((stateFinisher_spec t s).mono (fun _ _ _ => trivial) fun t' _ h =>
    ⟨t', rfl, h.1⟩)

end PlatformRelayer

import PlatformRelayer.Proof.Rows

/-!
# Gas costs

A gas calculator stores the cost of the tx that the row has, once. `ClearRecvTx`,
`ClearAckTx` and `ClearTimeoutTx` take the tx out of the row and leave its cost,
so a cost belongs to the tx of the row as long as no tx is cleared that has one
(`ClearsUnpriced`). Of the stages that clear nothing, the steps of `Life` are
enough (`Tracked.life`); for the other four it matters where the answer came after
which they clear (`retry_matched`, `waitForWriteAck_matched`).
-/

namespace PlatformRelayer

open Db Prog

variable {pl : Pipeline} {st : Stage} {adm : (c : Call) → c.Ans → Focus → Prop}
  {tr tr' : List Event}
  {x y : IBCV2Transfer × Ibcv2Transfer} {r r' : Ibcv2Transfer} {s s' : Focus} {K : TransferKey}

/-- The packet that a row is about. -/
def Db.Ibcv2Transfer.packet (r : Ibcv2Transfer) : Packet := (newIBCV2Transfer r).packet

theorem packet_apply (set : SetClause) (r : Ibcv2Transfer) : (set.apply r).packet = r.packet := by
  cases set with
  | tx k => cases k <;> rfl
  | clearTx k => cases k <;> rfl
  | txGasCostUSD k => cases k <;> rfl
  | _ => rfl

/-- Each cost in a row is that of the tx that the row has. -/
def CostsMatch (r : Ibcv2Transfer) (tr : List Event) : Prop :=
  ∀ k cost, (r.tx k).gasCostUSD = some cost → ∃ hash, (r.tx k).hash = some hash ∧
    r.packet.Priced tr k hash cost

theorem CostsMatch.mono (h : CostsMatch r tr) (htr : tr ⊆ tr') : CostsMatch r tr' := by
  intro k cost hcost
  obtain ⟨hash, hhash, hp⟩ := h k cost hcost
  exact ⟨hash, hhash, hp.mono htr⟩

/-- Another row, whose costs are those of the same txs. -/
theorem CostsMatch.congr (h : CostsMatch r tr) (hp : r'.packet = r.packet)
    (hk : ∀ k, (r'.tx k).gasCostUSD = none ∨
      (r'.tx k).hash = (r.tx k).hash ∧ (r'.tx k).gasCostUSD = (r.tx k).gasCostUSD) :
      CostsMatch r' tr := by
  intro k cost hcost
  rcases hk k with hnone | ⟨hhash, hsame⟩
  · exact absurd (hnone.symm.trans hcost) (by simp)
  · rw [hhash, hp]
    exact h k cost (hsame.symm.trans hcost)

/-- A statement that is about no tx. -/
theorem CostsMatch.other (h : CostsMatch r tr) (hp : r'.packet = r.packet)
    (htx : ∀ k, r'.tx k = r.tx k) :
    CostsMatch r' tr := h.congr hp fun k => .inr (by rw [htx]; exact ⟨rfl, rfl⟩)

/-- A tx without a hash has no cost. -/
theorem CostsMatch.cost_none (h : CostsMatch r tr) {k : TxKind} (hk : (r.tx k).hash = none) :
    (r.tx k).gasCostUSD = none := by
  by_contra hne
  obtain ⟨cost, hcost⟩ := Option.ne_none_iff_exists'.mp hne
  obtain ⟨hash, hhash, -⟩ := h k cost hcost
  exact absurd (hk.symm.trans hhash) (by simp)

theorem CostsMatch.inserted (p : InsertIBCV2TransferParams) : CostsMatch (insertedRow p) tr := by
  intro k cost hcost
  cases k <;> cases hcost

/-- A tx is recorded where there was none. -/
theorem CostsMatch.recorded (h : CostsMatch r tr) {k : TxKind} (hk : (r.tx k).hash = none)
    (tx : BridgeTx) : CostsMatch ((recorded k tx).apply r) tr := by
  refine h.congr (packet_apply _ r) fun j => ?_
  rw [tx_recorded]
  split
  · exact .inl (h.cost_none hk)
  · exact .inr ⟨rfl, rfl⟩

/-- A tx without a cost is cleared. -/
theorem CostsMatch.cleared (h : CostsMatch r tr) {k : TxKind} (hk : (r.tx k).gasCostUSD = none) :
    CostsMatch ((SetClause.clearTx k).apply r) tr := by
  refine h.congr (packet_apply _ r) fun j => ?_
  rw [SetClause.apply, r.tx_setTx]
  split
  · exact .inl hk
  · exact .inr ⟨rfl, rfl⟩

/-- The cost of the tx that the row has. -/
theorem CostsMatch.priced (h : CostsMatch r tr) {k : TxKind} {hash : String} {cost : Numeric}
    (hh : (r.tx k).hash = some hash) (hp : r.packet.Priced tr k hash cost) :
    CostsMatch ((SetClause.txGasCostUSD k (some cost)).apply r) tr := by
  intro j c hc
  rw [packet_apply]
  rw [SetClause.apply, r.tx_setTx] at hc ⊢
  split at hc
  · rename_i hj
    subst hj
    rw [if_pos rfl]
    exact ⟨hash, hh, Option.some.inj hc ▸ hp⟩
  · rename_i hj
    rw [if_neg hj]
    exact h j c hc

/-! ## The stages that clear nothing -/

/-- A transfer and its row on their way. -/
structure Tracked (tr : List Event) (x : IBCV2Transfer × Ibcv2Transfer) : Prop where
  packet : x.2.packet = x.1.packet
  synced : x.1.processingError = none → Synced x.1 x.2
  matched : CostsMatch x.2 tr

/-- The stages that take a tx out of the row. -/
def Stage.clears : Stage → Bool
  | .retryTimeoutPacket | .retryRecvPacket | .retryAckPacket | .waitForWriteAckPacket => true
  | _ => false

theorem Life.row_packet (hl : Life pl tr st x y) : y.2.packet = x.2.packet := by
  cases hl with
  | fail => rfl
  | writeAckFinalized => rfl
  | _ => exact packet_apply _ _

theorem Tracked.life (hl : Life pl tr st x y) (hst : st.clears = false)
    (h : Tracked tr x) : Tracked tr y where
  packet := hl.row_packet.trans (h.packet.trans hl.packet.symm)
  synced := Synced.life hl h.synced
  matched := by
    cases hl with
    | enter => exact h.matched.other (packet_apply _ _) fun k => by cases k <;> rfl
    | fail => exact h.matched
    | found k tx ha _ hr hk ht =>
      exact h.matched.recorded ((h.synced ha.1).hash_none (has_of_not_found hr hk ht)) tx
    | delivered k tx ha hd => exact h.matched.recorded ((h.synced ha.1).hash_none hd.has) tx
    | cleared k _ _ _ _ hs =>
      rcases hs with rfl | ⟨-, rfl⟩
      · cases k <;> cases hst
      · cases hst
    | wroteAck => exact h.matched.other (packet_apply _ _) fun k => by cases k <;> rfl
    | sendFinalized => exact h.matched.other (packet_apply _ _) fun k => by cases k <;> rfl
    | writeAckFinalized => exact h.matched.other rfl fun k => by cases k <;> rfl
    | priced k cost hash ha hh hp =>
      exact h.matched.priced (((h.synced ha.1).hash k).symm.trans hh) (h.packet ▸ hp)
    | finish => exact h.matched.other (packet_apply _ _) fun k => by cases k <;> rfl

theorem Tracked.mono (h : Tracked tr x) (htr : tr ⊆ tr') : Tracked tr' x :=
  ⟨h.packet, h.synced, h.matched.mono htr⟩

/-! ## The stages that clear a tx -/

/-- A tx is cleared only if the row has no cost for it: when it is to be retried,
and when the write ack is not found in it. -/
def ClearsUnpriced : (c : Call) → c.Ans → Focus → Prop
  | .shouldRetryTx _ hash _ _, ans, s => ans = .ok true →
    ∀ k, (s.row.tx k).hash = some hash → (s.row.tx k).gasCostUSD = none
  | .packetWriteAckStatus _ hash _ _ _, ans, s =>
    ∀ err, ans = .error err → err.is .errWriteAckNotFoundForPacket = true →
      s.row.recvTx.hash = some hash → s.row.recvTx.gasCostUSD = none
  | _, _, _ => True

/-- The costs match where the row is. -/
abbrev Focus.Matched (s : Focus) : Prop := CostsMatch s.row s.trace

theorem Focus.Matched.idle {c : Call} {ans : c.Ans} (h : s.Matched) (hc : c.done ans = []) :
    ((focus K adm).next c ans s).Matched := by
  change CostsMatch (c.effectOn K ans s.row) (⟨c, ans⟩ :: s.trace)
  rw [Call.effectOn_idle hc]
  exact h.mono (List.subset_cons_self _ _)

/-- A statement on the row that took effect. -/
theorem Focus.Matched.exec {q : Query} (hq : q.key = K)
    (h : CostsMatch (q.set.apply s.row) s.trace) :
    ((focus K adm).next (.exec q) (.ok ()) s).Matched := by
  change CostsMatch (Call.effectOn K (.exec q) (.ok ()) s.row) _
  rw [Call.effectOn_exec hq]
  exact h.mono (List.subset_cons_self _ _)

section Clears

variable {t : IBCV2Transfer}

theorem retry_matched (p : RetryPacket) (hs : Synced t s.row) (h : s.Matched) :
    wp (focus t.key ClearsUnpriced) (fun _ s' => s'.Matched) (p.processor.process t)
      (fun _ s' => s'.Matched) s := by
  refine wp_try ⟨h, fun ans _ => ⟨fun _ _ => h.idle rfl, ?_⟩⟩
  rintro _ rfl
  have h₁ : ((focus t.key ClearsUnpriced).next (.getClient p.chainID) (.ok ()) s).Matched :=
    h.idle rfl
  split
  · exact h₁
  rename_i hash hhash
  split
  · exact h₁
  rename_i time _
  refine wp_try ⟨h₁, fun ans hans => ⟨fun _ _ => h₁.idle rfl, ?_⟩⟩
  rintro retry rfl
  cases retry with
  | false => exact h₁.idle rfl
  | true =>
  have h₂ :
      ((focus t.key ClearsUnpriced).next (.shouldRetryTx p.chainID hash p.expiry time)
        (.ok true) _).Matched :=
    h₁.idle rfl
  refine wp_try ⟨h₂, fun ans _ => ⟨?_, ?_⟩⟩
  · rintro _ rfl
    exact h₂.idle rfl
  · rintro _ rfl
    exact .exec rfl (h₂.cleared (hans rfl p.kind ((hs.hash p.kind).symm.trans hhash)))

theorem recordWriteAck_matched (hash : String) (status : Ibcv2WriteAckStatus) (h : s.Matched) :
    wp (focus t.key adm) (fun _ s' => s'.Matched) (recordWriteAck t hash status)
      (fun _ s' => s'.Matched) s := by
  refine ⟨h, fun _ _ => wp_try ⟨h.idle rfl, fun ans _ => ⟨?_, ?_⟩⟩⟩
  · rintro _ rfl
    exact (h.idle rfl).idle rfl
  · rintro _ rfl
    exact .exec rfl ((h.idle rfl).other (packet_apply _ _) fun k => by cases k <;> rfl)

theorem waitForWriteAck_matched (hs : Synced t s.row) (h : s.Matched) :
    wp (focus t.key ClearsUnpriced) (fun _ s' => s'.Matched) (waitForWriteAckPacket.process t)
      (fun _ s' => s'.Matched) s := by
  refine wp_try ⟨h, fun ans _ => ⟨fun _ _ => h.idle rfl, ?_⟩⟩
  rintro _ rfl
  have h₁ :
      ((focus t.key ClearsUnpriced).next (.getClient t.destinationChainID) (.ok ()) s).Matched :=
    h.idle rfl
  split
  · exact h₁
  rename_i hash hhash
  refine ⟨h₁, fun status hans => ?_⟩
  have h₂ : ((focus t.key ClearsUnpriced).next
      (.packetWriteAckStatus t.destinationChainID hash t.sequence
    t.packetSourceClientID t.packetDestinationClientID) status _).Matched := h₁.idle rfl
  cases status with
  | ok status => exact recordWriteAck_matched hash status h₂
  | error err =>
    change wp _ _ (if err.is .errWriteAckNotFoundForPacket then _ else
      if !err.is .errWriteAckDecoding then _ else _) _ _
    split
    · rename_i hfound
      refine wp_try ⟨h₂, fun ans _ => ⟨?_, ?_⟩⟩
      · rintro _ rfl
        exact h₂.idle rfl
      · rintro _ rfl
        exact .exec rfl
          (h₂.cleared (k := .recv) (hans err rfl hfound ((hs.hash .recv).symm.trans hhash)))
    split
    · exact h₂
    · exact recordWriteAck_matched hash .unknown h₂

/-- A processor in its middleware. -/
theorem mw_matched {p : IBCV2Processor} {g : IBCV2Transfer → Bool}
    (hp : ∀ t, p.shouldProcess t = .ret (g t)) (hprocess : ∀ t s, Synced t s.row → s.Matched →
      wp (focus t.key adm) (fun _ s' => s'.Matched) (p.process t) (fun _ s' => s'.Matched) s)
    (hs : t.processingError = none → Synced t s.row) (h : s.Matched) :
    wp (focus t.key adm) (fun _ s' => s'.Matched) (IBCV2ProcessorMW.process p t)
      (fun _ s' => s'.Matched) s := by
  refine wp_mw (fun _ => h) fun ha => ?_
  rw [hp]
  refine ⟨fun _ => h, fun _ => ⟨h, fun _ _ => h.idle rfl, ?_⟩⟩
  have hs' := hs ha.1
  have hrow : ((focus t.key adm).next (.exec (updateTransferState p.state t.key)) (.ok ()) s).row =
    (SetClause.status p.state).apply s.row := Call.effectOn_exec rfl _
  refine (hprocess { t with state := p.state } _ ?_ ?_).post fun o s' ho =>
    ⟨fun _ _ => ⟨ho, ho⟩, fun _ _ => ho⟩
  · rw [hrow]
    exact ⟨hs'.hash, hs'.time, hs'.writeAckTxHash, hs'.writeAckStatus⟩
  · exact .exec rfl (h.other (packet_apply _ _) fun k => by cases k <;> rfl)

end Clears

/-! ## Runs -/

theorem stage_matched (pl : Pipeline) (st : Stage) {t : IBCV2Transfer}
    (h : Tracked s.trace (t, s.row)) :
    wp (focus t.key ClearsUnpriced) (fun _ s' => s'.Matched) (st.process pl t)
      (fun _ s' => s'.Matched) s := by
  cases hst : st.clears with
  | false =>
    have hreaches {t' : IBCV2Transfer} {s' : Focus} (hr : Reaches pl st t s t' s') : s'.Matched :=
      (hr.keep (P := Tracked s'.trace) (fun _ _ hl hx => hx.life hl hst)
        (h.mono hr.trace.subset)).matched
    refine (stage_spec pl st t s).mono (fun c s' hc => ?_) fun o s' ho => ?_
    · obtain ⟨⟨t', hr⟩, -⟩ := hc
      exact hreaches hr
    · cases o with
      | none =>
        obtain ⟨t', hr⟩ := ho
        exact hreaches hr
      | some t' => exact hreaches ho.1
  | true =>
    cases st with
    | retryTimeoutPacket =>
      exact wp_single rfl
        (mw_matched (fun _ => rfl) (fun _ _ => retry_matched _) h.synced h.matched)
    | retryRecvPacket =>
      exact wp_single rfl
        (mw_matched (fun _ => rfl) (fun _ _ => retry_matched _) h.synced h.matched)
    | retryAckPacket =>
      exact wp_single rfl
        (mw_matched (fun _ => rfl) (fun _ _ => retry_matched _) h.synced h.matched)
    | waitForWriteAckPacket =>
      exact wp_single rfl
        (mw_matched (fun _ => rfl) (fun _ _ => waitForWriteAck_matched) h.synced h.matched)
    | _ => cases hst

theorem Reaches.row_packet {t t' : IBCV2Transfer}
    (h : Reaches pl st t s t' s') : s'.row.packet = s.row.packet :=
  h.keep (P := fun x => x.2.packet = s.row.packet) (fun _ _ hl hx => hl.row_packet.trans hx) rfl

theorem runStages_matched {stages : List Stage} {t : IBCV2Transfer} (hK : t.key = K)
    (h : Tracked s.trace (t, s.row)) :
    wp (focus K ClearsUnpriced) (fun _ s' => s'.Matched) (runStages pl stages t)
      (fun _ s' => s'.Matched) s := by
  refine wp_runStages (I := fun t s => Tracked s.trace (t, s.row))
    (fun st t _ hK h => hK ▸ stage_matched pl st h)
    (fun st t s t' s' h hr hmatched => ?_) (fun _ _ h => h.matched) hK h
  exact ⟨hr.row_packet.trans (h.packet.trans hr.packet.symm), hr.synced h.synced, hmatched⟩

/-- The rows that runs lead to, one after the other, with the calls of all of them.
A run may stop anywhere; the answers are as `adm` allows. -/
inductive ReachableBy (adm : (c : Call) → c.Ans → Focus → Prop) : Focus → Prop where
  | inserted (p : InsertIBCV2TransferParams) : ReachableBy adm ⟨insertedRow p, []⟩
  | run {s s' : Focus} {p : Relay (Option IBCV2Transfer)} (opts : PipelineOptions)
    (hasPriceClient : Bool) : ReachableBy adm s →
    Steps (focus s.row.key adm) (pipelineRun opts hasPriceClient s.row) s p s' → ReachableBy adm s'
  | other {s : Focus} (time : Time) : ReachableBy adm s → s.row.key = ⟨"", "", 0⟩ →
    ReachableBy adm ⟨(SetClause.writeAckTxFinalizedTime (some time)).apply s.row, s.trace⟩

theorem costs_match (h : ReachableBy ClearsUnpriced s) : CostsMatch s.row s.trace := by
  induction h with
  | inserted p => exact .inserted p
  | @run s s' p opts hasPriceClient _ hrun ih =>
    have hwp : wp (focus s.row.key ClearsUnpriced) _ (pipelineRun opts hasPriceClient s.row) _ s :=
      runStages_matched rfl ⟨rfl, fun _ => .load s.row, ih⟩
    rcases hwp.point hrun with ⟨_, hm⟩ | ⟨_, hm⟩ <;> exact hm
  | other time _ _ ih => exact ih.other (packet_apply _ _) fun k => by cases k <;> rfl

/-- Gas is priced on both chains. -/
def gasOptions : PipelineOptions where
  shouldRelaySuccessAcks := true
  shouldRelayErrorAcks := true
  sourceChainGasTokenCoingeckoID := "source-token"
  sourceChainGasTokenDecimals := 6
  destinationChainGasTokenCoingeckoID := "destination-token"
  destinationChainGasTokenDecimals := 18

/-- A packet that is delivered and acknowledged. -/
theorem costs_match_delivered : ∃ s, ReachableBy ClearsUnpriced s ∧
    (∃ cost, s.row.recvTx.gasCostUSD = some cost) ∧
    (∃ cost, s.row.ackTx.gasCostUSD = some cost) ∧ CostsMatch s.row s.trace := by
  have hs : ReachableBy ClearsUnpriced
      (Answers.run {} gasOptions true (insertedRow somePacket) 100).2 :=
    .run gasOptions true (.inserted somePacket)
      (Answers.steps {} (fun c s => by cases c <;> simp [ClearsUnpriced, Answers.answer]) ..)
  exact ⟨_, hs, Option.isSome_iff_exists.mp (by decide +kernel),
    Option.isSome_iff_exists.mp (by decide +kernel), costs_match hs⟩

/-- The write ack is not in the recv tx `d0`, which was priced before it was asked
for: `d0` is taken out of the row, its cost is not. -/
theorem cost_of_cleared_tx : ∃ s cost, ReachableBy anyAnswer s ∧ s.row.recvTx.hash = none ∧
    s.row.recvTx.gasCostUSD = some cost := by
  let w : Answers := { writeAck := fun _ => .error (Sentinel.err .errWriteAckNotFoundForPacket) }
  have hs : ReachableBy anyAnswer (w.run gasOptions true (insertedRow somePacket) 100).2 :=
    .run gasOptions true (.inserted somePacket) (w.steps (fun _ _ => trivial) ..)
  obtain ⟨cost, hcost⟩ := Option.isSome_iff_exists.mp
    (show (w.run gasOptions true (insertedRow somePacket) 100).2.row.recvTx.gasCostUSD.isSome =
      true by decide +kernel)
  exact ⟨_, cost, hs, by decide +kernel, hcost⟩

end PlatformRelayer

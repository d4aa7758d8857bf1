import PlatformRelayer.Proof.Evidence
import PlatformRelayer.Proof.Noticed
import PlatformRelayer.Proof.Recovery

/-!
# Whether the guards of the stages leave a transfer out

A run without an error on a row that can be there, with all its readings of the
clock on one side of the timeout. Where a transfer comes to the `StateFinisher`
depends on its recv and timeout tx only (`isComplete_iff`): if it has one of them,
the guards of the later stages have seen to the rest. Before the timeout there is
always a recv tx. After it, `BatchTimeoutPacket` is not for a transfer with an ack
tx and `BatchRecvPacket` for none. `CheckRecvPacketDelivery`, which does not look
at the clock, skips a transfer that has an ack tx, and passes one on of which the
destination chain says that it is not received. So a transfer with an ack tx and no
recv tx that came past the first stage is no later stage's (`Unclaimed`).
-/

namespace PlatformRelayer

open Db Prog

variable {pl : Pipeline} {st : Stage} {tr : List Event} {x y : IBCV2Transfer × Ibcv2Transfer}

/-- The readings of the clock in a run are all after the timeout, or all before or
at it. -/
def OneSided (p : Packet) (tr : List Event) (after : Bool) : Prop :=
  ∀ state now, p.ReadClock tr state now → (after = true ↔ p.timeoutTimestamp < now)

/-- The timeout has passed, and there is an ack tx but no recv tx, in the row or
found on chain. -/
structure Unclaimed (r : Ibcv2Transfer) (tr : List Event) (after : Bool) : Prop where
  after_timeout : after = true
  recv : r.recvTx.hash = none
  recv_not_found (tx : BridgeTx) : ¬(newIBCV2Transfer r).packet.Found tr .recv tx
  ack : r.ackTx.hash ≠ none ∨ ∃ tx, (newIBCV2Transfer r).packet.Found tr .ack tx

/-! ## Where txs come from -/

/-- A tx that a transfer has was there, was found, or was delivered under the
guard of its batch processor. -/
theorem Life.has_from (hl : Life pl tr st x y) {k : TxKind} (hy : y.1.has k = true) :
    x.1.has k = true ∨ (∃ tx, x.1.packet.Found tr k tx) ∨ (pl.Deliverable x.1 k ∧
      (k = .recv → ∃ now, x.1.packet.ReadClock tr .deliverRecvPacket now ∧
      now ≤ x.1.packet.timeoutTimestamp)) := by
  cases hl with
  | @found t r j tx _ hf =>
    by_cases hk : k = j
    · subst hk
      exact .inr (.inl ⟨tx, hf⟩)
    · rw [IBCV2Transfer.has, t.tx_foundTx_of_ne tx hk] at hy
      exact .inl hy
  | @delivered t r j tx _ hd _ _ hclock =>
    by_cases hk : k = j
    · subst hk
      exact .inr (.inr ⟨hd, hclock⟩)
    · rw [IBCV2Transfer.has, t.tx_record_of_ne tx hk] at hy
      exact .inl hy
  | _ => exact .inl (by cases k <;> exact hy)

section Travels

variable {t₀ t : IBCV2Transfer} {s₀ s : Focus} {done : List Stage} (h : Travels pl t₀ s₀ done t s)
include h

theorem Travels.recv_from (ht : t.has .recv = true) :
    t₀.has .recv = true ∨ (∃ tx, t₀.packet.Found s.trace .recv tx) ∨
      ∃ now, t₀.packet.ReadClock s.trace .deliverRecvPacket now ∧
      now ≤ t₀.packet.timeoutTimestamp := by
  refine (h.keep (P := fun tr x => x.1.packet = t₀.packet ∧
    (x.1.has .recv = true → t₀.has .recv = true ∨ (∃ tx, t₀.packet.Found tr .recv tx) ∨
      ∃ now, t₀.packet.ReadClock tr .deliverRecvPacket now ∧ now ≤ t₀.packet.timeoutTimestamp))
    (fun tr tr' x hm hx => ⟨hx.1, fun hr => ?_⟩) (fun _ _ tr x y hl hx =>
      ⟨hl.packet.trans hx.1, fun hr => ?_⟩)
    ⟨rfl, .inl⟩).2 ht
  · exact (hx.2 hr).imp_right
      (.imp (.imp fun _ => .mono hm) (.imp fun _ => .imp_left fun hn => hm hn))
  · rcases hl.has_from hr with hr | hf | hd
    · exact hx.2 hr
    · exact .inr (.inl (hx.1 ▸ hf))
    · exact .inr (.inr (hx.1 ▸ hd.2 rfl))

theorem Travels.ack_from (ht : t.has .ack = true) :
    t₀.has .ack = true ∨ (∃ tx, t₀.packet.Found s.trace .ack tx) ∨ t.writeAckTxHash ≠ none := by
  refine (h.keep (P := fun tr x => x.1.packet = t₀.packet ∧
    (x.1.has .ack = true → t₀.has .ack = true ∨
    (∃ tx, t₀.packet.Found tr .ack tx) ∨ x.1.writeAckTxHash ≠ none))
    (fun tr tr' x hm hx => ⟨hx.1, fun hk => ?_⟩) (fun _ _ tr x y hl hx =>
      ⟨hl.packet.trans hx.1, fun hk => ?_⟩)
    ⟨rfl, .inl⟩).2 ht
  · exact (hx.2 hk).imp_right (.imp_left (.imp fun _ => .mono hm))
  · have hkept (hne : x.1.writeAckTxHash ≠ none) : y.1.writeAckTxHash ≠ none :=
      (hl.writeAck_of_some hne).1 ▸ hne
    rcases hl.has_from hk with hk | hf | ⟨⟨⟨hash, _, hhash, _⟩, _⟩, _⟩
    · exact (hx.2 hk).imp_right (.imp_right hkept)
    · exact .inr (.inl (hx.1 ▸ hf))
    · exact .inr (.inr (hkept (by simp [hhash])))

end Travels

/-! ## What is left at the end -/

theorem IBCV2Transfer.isComplete_finalState (t : IBCV2Transfer) :
    t.finalState.isComplete = true := by
  rw [finalState]
  split_ifs <;> rfl

section Returned

variable {opts : PipelineOptions} {hasPriceClient : Bool} {r : Ibcv2Transfer} {t t' : IBCV2Transfer}
  {s s' : Focus}
  {after : Bool}

/-- A transfer that is at the end of the work stages of a pipeline, without an
error. -/
structure AtEnd (opts : PipelineOptions) (hasPriceClient : Bool) (r : Ibcv2Transfer)
    (t : IBCV2Transfer) (s : Focus) : Prop where
  travels : Travels (pipelineOf opts hasPriceClient r) (newIBCV2Transfer r) ⟨r, []⟩
    (workStages (pipelineOf opts hasPriceClient r)) t s
  fact (st : Stage) : st ∈ newPipeline (pipelineOf opts hasPriceClient r) → st ≠ .stateFinisher →
    st.Fact (pipelineOf opts hasPriceClient r) t s.trace
  clean : t.processingError = none
  synced : Synced t s.row
  rowInv : RowInv s.row

theorem Returned.atEnd (h : Returned (pipelineOf opts hasPriceClient r)
      (newIBCV2Transfer r) ⟨r, []⟩ t s t' s')
    (hr : Reachable r) (ht : t.processingError = none) : AtEnd opts hasPriceClient r t s where
  travels := h.travels
  fact st hm hst :=
    h.facts ⟨ht, (h.travels.not_failed hr.not_failed).2 ht⟩ st (mem_workStages hm hst)
  clean := ht
  synced := h.travels.synced (.load r) ht
  rowInv := h.travels.rowInv hr.rowInv

section AtEnd

variable (h : AtEnd opts hasPriceClient r t s)
include h

theorem AtEnd.writeAck (hr : t.has .recv = true) (ht : t.has .timeout = false) :
    ∃ hash status, t.writeAckTxHash = some hash ∧ t.writeAckStatus = some status := by
  have hw : t.writeAckTxHash ≠ none :=
    h.fact .waitForWriteAckPacket (by simp [newPipeline]) (by simp) hr ht
  have hs : t.writeAckStatus ≠ none := by
    rw [h.synced.writeAckStatus, ne_eq, ← h.rowInv.writeAckStatus, ← h.synced.writeAckTxHash]
    exact hw
  obtain ⟨hash, hhash⟩ := Option.ne_none_iff_exists'.mp hw
  obtain ⟨status, hstatus⟩ := Option.ne_none_iff_exists'.mp hs
  exact ⟨hash, status, hhash, hstatus⟩

theorem AtEnd.isComplete_iff :
    t.isComplete opts.shouldRelaySuccessAcks opts.shouldRelayErrorAcks = true ↔
    t.has .recv = true ∨ t.has .timeout = true := by
  rw [IBCV2Transfer.isComplete, if_neg (by simp [IBCV2Transfer.errored, h.clean])]
  by_cases ht : t.has .timeout = true
  · simp [ht]
  rw [if_neg ht, or_iff_left ht]
  by_cases hr : t.has .recv = true
  · refine iff_of_true ?_ hr
    obtain ⟨hash, status, hhash, hstatus⟩ := h.writeAck hr (Bool.eq_false_iff.mpr ht)
    rw [if_neg (by simp [hr, hhash])]
    split
    · rfl
    rename_i hk
    -- An ack that is to be relayed was delivered.
    have hrel : opts.relays status = false := by
      by_contra hrel
      have hrelayed : (pipelineOf opts hasPriceClient r).opts.relays status = true := by
        simpa [pipelineOf] using hrel
      exact ht (h.fact .batchAckPacket (by simp [newPipeline]) (by simp) hash status hhash hstatus
        hrelayed (Bool.eq_false_iff.mpr hk))
    rw [hstatus]
    exact if_neg (by simpa [PipelineOptions.relays] using hrel)
  · simp [hr]

/-- What is known of the rest of the run may be more than what was known here. -/
theorem AtEnd.has_iff_claimed {tr : List Event} (htr : s.trace ⊆ tr)
    (hnoticed : Noticed (newIBCV2Transfer r) t tr)
    (hclock : OneSided (newIBCV2Transfer r).packet tr after) :
    t.has .recv = true ∨ t.has .timeout = true ↔ ¬Unclaimed r tr after := by
  have hpacket := h.travels.packet
  rw [← not_iff_not, not_not, not_or, Bool.not_eq_true, Bool.not_eq_true]
  constructor
  · rintro ⟨hr, ht⟩
    -- `BatchRecvPacket` saw that the timeout has passed.
    have hafter : after = true := by
      obtain ⟨now, hn, hlt⟩ := h.fact .batchRecvPacket (by simp [newPipeline]) (by simp) hr
      rw [hpacket] at hn hlt
      exact (hclock _ now (htr hn)).mpr hlt
    refine ⟨hafter, ?_, fun tx hf => ?_, ?_⟩
    · by_contra hne
      have hr₀ : (newIBCV2Transfer r).has .recv = true := Option.isSome_iff_ne_none.mpr hne
      exact absurd ((h.travels.has hr₀).symm.trans hr) (by simp)
    · exact absurd ((hnoticed _ hf : t.has .recv = true).symm.trans hr) (by simp)
    · -- So did `BatchTimeoutPacket`, and an ack tx is all that is left to keep it off.
      have hk : t.has .ack = true := by
        by_contra hk
        obtain ⟨now, hn, hle⟩ := h.fact .batchTimeoutPacket (by simp [newPipeline]) (by simp) hr
          (Bool.eq_false_iff.mpr hk) ht
        rw [hpacket] at hn hle
        exact absurd ((hclock _ now (htr hn)).mp hafter) (Int.not_lt.mpr hle)
      rcases h.travels.ack_from hk with hk₀ | ⟨tx, hf⟩ | hw
      · exact .inl (Option.isSome_iff_ne_none.mp hk₀)
      · exact .inr ⟨tx, hf.mono htr⟩
      · obtain ⟨hash, hhash⟩ := Option.ne_none_iff_exists'.mp hw
        have hrecv := h.rowInv.writeAck_recv hash (h.synced.writeAckTxHash ▸ hhash)
        exact absurd ((h.synced.hash_none hr).symm.trans hrecv) (by simp)
  · rintro ⟨hafter, hr, hnf, hk⟩
    constructor
    · by_contra hne
      rcases h.travels.recv_from (by simpa using hne) with hr₀ | ⟨tx, hf⟩ | ⟨now, hn, hle⟩
      · rw [has_newIBCV2Transfer] at hr₀
        exact absurd (Option.isSome_iff_ne_none.mp hr₀) (not_not.mpr hr)
      · exact hnf tx (hf.mono htr)
      · exact absurd ((hclock _ now (htr hn)).mp hafter) (Int.not_lt.mpr hle)
    · have hk : t.has .ack = true := by
        rcases hk with hk | ⟨tx, hf⟩
        · exact h.travels.has (Option.isSome_iff_ne_none.mpr hk)
        · exact hnoticed _ hf
      obtain ⟨hash, hhash⟩ := h.synced.hash_some hk
      have ht := h.rowInv.ack_or_timeout.resolve_left fun hn =>
        absurd (hn.symm.trans hhash) (by simp)
      rw [IBCV2Transfer.has, h.synced.hash]
      exact congrArg Option.isSome ht

end AtEnd

end Returned

/-- A run that returned `t`: it is complete, and so is the status that was
written. -/
structure LeftComplete (opts : PipelineOptions) (r : Ibcv2Transfer) (t : IBCV2Transfer)
    (s : Focus) : Prop where
  isComplete : t.isComplete opts.shouldRelaySuccessAcks opts.shouldRelayErrorAcks = true
  written : ∃ status : Ibcv2RelayStatus, status.isComplete = true ∧ s.row.status = status ∧
    ⟨.exec (updateTransferState status r.key), .ok ()⟩ ∈ s.trace

theorem leftComplete_iff_claimed {opts : PipelineOptions} {hasPriceClient : Bool}
    {r : Ibcv2Transfer} {t : IBCV2Transfer} {s : Focus} {after : Bool} (hr : Reachable r)
    (h : Steps (focus r.key anyAnswer)
      (pipelineRun opts hasPriceClient r) ⟨r, []⟩ (.ret (some t)) s)
    (ht : t.processingError = none) (hclock : OneSided (newIBCV2Transfer r).packet s.trace after) :
    LeftComplete opts r t s ↔ ¬Unclaimed r s.trace after := by
  have hnoticed := (pipelineRun_noticed opts hasPriceClient r).returned h t rfl ht
  obtain ⟨u, s₁, hreturned⟩ := pipelineRun_returned.returned h t rfl
  cases hreturned.finished with
  | failed hne => exact absurd ht hne
  | unchanged hskip =>
    have hend := hreturned.atEnd hr ht
    have hiff := hend.has_iff_claimed (List.Subset.refl _) hnoticed hclock
    -- A complete transfer has a timeout tx or a write ack, so it would not have been skipped.
    have hnot : ¬t.isComplete opts.shouldRelaySuccessAcks opts.shouldRelayErrorAcks = true := by
      intro hc
      obtain ⟨htimeout, hstatus⟩ := hskip hc
      have hrecv := (hend.isComplete_iff.mp hc).resolve_right (by simp [htimeout])
      obtain ⟨_, status, _, hs⟩ := hend.writeAck hrecv htimeout
      exact absurd (hs.symm.trans hstatus) (by simp)
    rw [← hiff, ← hend.isComplete_iff]
    exact iff_of_false (fun hc => hnot hc.isComplete) hnot
  | complete hc hrow hmem htr =>
    have hend := hreturned.atEnd hr ht
    have hiff := hend.has_iff_claimed htr.subset (hnoticed.same u.state _) hclock
    refine iff_of_true ⟨?_, u.finalState, u.isComplete_finalState, ?_, ?_⟩
      (hiff.mp (hend.isComplete_iff.mp hc))
    · exact hc
    · exact hrow ▸ rfl
    · have hkey : u.key = r.key := hreturned.travels.key
      exact hkey ▸ hmem

/-- A run before the timeout. -/
theorem leftComplete_before_timeout : ∃ t s, t.processingError = none ∧
    LeftComplete someOptions (insertedRow somePacket) t s := by
  obtain ⟨t, hs, ht⟩ := Answers.returned {} anyAnswer (fun _ _ => trivial) someOptions false
    (insertedRow somePacket) 100 (·.processingError = none) (by decide +kernel)
  have hearly : ∀ now ∈ (Answers.run {} someOptions false
      (insertedRow somePacket) 100).2.trace.filterMap Event.clock?, ¬(10 : Time) < now := by
    decide +kernel
  have hclock : OneSided (newIBCV2Transfer (insertedRow somePacket)).packet
      (Answers.run {} someOptions false (insertedRow somePacket) 100).2.trace false :=
    fun _ now hnow => iff_of_false (by simp) (hearly now hnow.mem)
  refine ⟨t, _, ht, (leftComplete_iff_claimed (.inserted somePacket) hs ht hclock).mpr fun h => ?_⟩
  exact absurd h.after_timeout (by simp)

/-- The truth after the timeout. -/
def lateTruth : Answers := someTruth fun _ => 20

/-- After the timeout, of a packet that was received and acknowledged, in a row with an ack tx and
no recv tx, where every answer is true: the first stage skips the transfer, no other one claims it,
and it leaves the pipeline without an error and incomplete. -/
theorem not_leftComplete_of_unclaimed : ∃ r t s, Reachable r ∧
    someHistory.Run someOptions false r (some t) s ∧
    Steps (focus r.key anyAnswer) (pipelineRun someOptions false r) ⟨r, []⟩ (.ret (some t)) s ∧
    t.processingError = none ∧ OneSided (newIBCV2Transfer r).packet s.trace true ∧
    t.isComplete someOptions.shouldRelaySuccessAcks someOptions.shouldRelayErrorAcks = false ∧
    s.row.status.isComplete = false := by
  obtain ⟨t, hs, ht, hc⟩ := lateTruth.returned
    (someHistory.truthful (newIBCV2Transfer ackOnlyRow).packet) (fun c _ => says_someTruth _ _ c)
    someOptions false ackOnlyRow 100 (fun t => t.processingError = none ∧
      t.isComplete someOptions.shouldRelaySuccessAcks someOptions.shouldRelayErrorAcks = false)
    (by decide +kernel)
  have hlate : ∀ now ∈ (lateTruth.run someOptions false ackOnlyRow 100).2.trace.filterMap
      Event.clock?, (10 : Time) < now := by decide +kernel
  have hclock : OneSided (newIBCV2Transfer ackOnlyRow).packet
      (lateTruth.run someOptions false ackOnlyRow 100).2.trace true := by
    intro _ now hnow
    have htimeout : (newIBCV2Transfer ackOnlyRow).packet.timeoutTimestamp = 10 := by decide +kernel
    rw [htimeout]
    exact iff_of_true rfl (hlate now hnow.mem)
  exact ⟨ackOnlyRow, t, _, reachable_ackOnlyRow, hs, hs.widen fun _ _ _ _ => trivial, ht,
    hclock, hc, by decide +kernel⟩

end PlatformRelayer

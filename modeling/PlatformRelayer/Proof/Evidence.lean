import PlatformRelayer.Proof.Noticed
import PlatformRelayer.Proof.Rows

/-!
# What a run knew before it submitted

A submission that contains a transfer is made by the batch stage of its kind,
from a transfer that passed all stages before it (`RunSubmits.submitted`). What
those stages asked the chains, and what they were answered, is in the trace of
the same run.
-/

namespace PlatformRelayer

open Db Prog

/-- A submission contains a transfer: its sequence is in the request, or it is
in the batch. -/
def Submission.Contains (sub : Submission) (t : IBCV2Transfer) : Prop :=
  t.sequence ∈ sub.request.packetSequences ∨ ∃ u ∈ sub.transfers, u.key = t.key

instance (sub : Submission) (t : IBCV2Transfer) : Decidable (sub.Contains t) :=
  inferInstanceAs (Decidable (_ ∨ _))

/-- A submission in a run on the row `r`, seen from its transfer: `t` is the
transfer when it comes to the batch stage, at `s₁`. -/
structure Submitted (opts : PipelineOptions) (hasPriceClient : Bool) (r : Ibcv2Transfer)
    (sub : Submission) (s : Focus) (t : IBCV2Transfer) (s₁ : Focus) : Prop where
  travels : ∃ done rest, newPipeline (pipelineOf opts hasPriceClient r) = done ++
    batchStage sub.kind :: rest ∧
    Travels (pipelineOf opts hasPriceClient r) (newIBCV2Transfer r) ⟨r, []⟩ done t s₁
  trace : s₁.trace <:+ s.trace
  active : t.Active
  guard : BatchGuard (pipelineOf opts hasPriceClient r) sub.kind t s₁.trace s.trace
  facts (st : Stage) : st ∈ newPipeline (pipelineOf opts hasPriceClient r) →
    st.ctorIdx < (batchStage sub.kind).ctorIdx →
    st.Fact (pipelineOf opts hasPriceClient r) t s₁.trace
  batch : ∃ u ∈ sub.transfers, u.key = t.key
  same (u : IBCV2Transfer) : u ∈ sub.transfers → u.key = t.key →
    ∃ state err, u = { t with state := state, processingError := err }
  row : s.row.tx sub.kind = s₁.row.tx sub.kind

/-- A run on a row as it is stored, up to where it makes a submission. -/
def RunSubmits (opts : PipelineOptions) (hasPriceClient : Bool) (r : Ibcv2Transfer)
    (sub : Submission) (s : Focus) : Prop :=
  ∃ c, RunCall opts hasPriceClient r c s ∧ c.submission? = some sub

section Submitted

variable {opts : PipelineOptions} {hasPriceClient : Bool} {r : Ibcv2Transfer} {s : Focus}
  {sub : Submission}

theorem RunSubmits.submitted (h : RunSubmits opts hasPriceClient r sub s)
    (hc : sub.Contains (newIBCV2Transfer r)) :
    ∃ t s₁, Submitted opts hasPriceClient r sub s t s₁ := by
  obtain ⟨c, h, hsub⟩ := h
  cases c <;> cases hsub
  obtain ⟨st, t, s₁, ⟨done, rest, hst, ht, hf⟩, ⟨t', hreach⟩, hq⟩ := h.inRun
  rcases hq with hq | hsp
  · exact hq.elim
  cases hsp with
  | deliver hkind hu hseq =>
    subst hkind
    have hsequence : t.sequence = (newIBCV2Transfer r).sequence :=
      congrArg (fun p => p.sequenceNumber.toUInt64) ht.packet
    obtain ⟨u, hm, hkey⟩ : ∃ u ∈ sub.transfers, u.key = t.key := by
      rcases hc with hc | ⟨u, hm, hkey⟩
      · exact hseq (hsequence ▸ hc)
      · exact ⟨u, hm, hkey.trans ht.key.symm⟩
    have hh := hu u hm hkey
    refine ⟨t, s₁, ⟨done, rest, hst, ht⟩, hreach.trace, hh.active, hh.guard, fun st hmem hlt => ?_,
      ⟨u, hm, hkey⟩, fun u hm hkey => (hu u hm hkey).same, hh.row⟩
    exact hf hh.active st (mem_newPipeline hst hmem hlt)

variable {t : IBCV2Transfer} {s₁ : Focus}

theorem Submitted.packet (h : Submitted opts hasPriceClient r sub s t s₁) :
    t.packet = (newIBCV2Transfer r).packet := by
  obtain ⟨done, rest, -, ht⟩ := h.travels
  exact ht.packet

end Submitted

theorem Answers.submits (w : Answers) (opts : PipelineOptions) (hasPriceClient : Bool)
    (r : Ibcv2Transfer) (n : Nat) (P : Submission → Prop) [DecidablePred P]
    (h : ((w.run opts hasPriceClient r n).1.next?.bind Call.submission?).any P = true) :
    ∃ sub, RunSubmits opts hasPriceClient r sub (w.run opts hasPriceClient r n).2 ∧ P sub := by
  cases hc : (w.run opts hasPriceClient r n).1.next? with
  | none => rw [hc] at h; cases h
  | some c =>
    rw [hc] at h
    cases hs : c.submission? with
    | none => rw [Option.bind_some, hs] at h; cases h
    | some sub =>
      rw [Option.bind_some, hs] at h
      exact ⟨sub, ⟨c, w.runCall _ _ _ _ hc, hs⟩, of_decide_eq_true h⟩

/-! ## The evidence for each kind of tx -/

/-- What a submission of a kind with the transfer `u` in it rests on. -/
def Evidence (opts : PipelineOptions) (u : IBCV2Transfer) (tr : List Event) : TxKind → Prop
  | .recv => u.packet.SendFinal tr opts.sourceFinalityOffset
  | .timeout => u.packet.SaidReceived tr false ∧ u.packet.SaidCommitted tr true ∧
      u.packet.SendFinal tr opts.sourceFinalityOffset
  | .ack => ∃ hash status, u.writeAckTxHash = some hash ∧ u.writeAckStatus = some status ∧
      u.packet.WriteAckFinal tr opts.destinationFinalityOffset hash ∧
      u.packet.SaidCommitted tr true ∧ opts.relays status = true

theorem evidence_before_submission {opts : PipelineOptions} {hasPriceClient : Bool}
    {r : Ibcv2Transfer} {sub : Submission} {s : Focus} (h : RunSubmits opts hasPriceClient r sub s)
    (hc : sub.Contains (newIBCV2Transfer r)) :
    ∃ u ∈ sub.transfers, u.packet = (newIBCV2Transfer r).packet ∧
      Evidence opts u s.trace sub.kind := by
  obtain ⟨t, s₁, hs⟩ := h.submitted hc
  obtain ⟨u, hm, hkey⟩ := hs.batch
  obtain ⟨state, err, rfl⟩ := hs.same u hm hkey
  refine ⟨_, hm, hs.packet, ?_⟩
  have hd := hs.guard.deliverable
  have hfact (st : Stage) (hm : st ∈ newPipeline _)
      (hlt : st.ctorIdx < (batchStage sub.kind).ctorIdx) :
      st.Fact (pipelineOf opts hasPriceClient r) t s.trace :=
    (hs.facts st hm hlt).mono hs.trace.subset
  cases hk : sub.kind with
  | recv =>
    rw [hk] at hd hfact
    exact hfact .checkSendPacketFinality (by simp [newPipeline]) (by decide) hd
  | timeout =>
    rw [hk] at hd hfact
    exact ⟨hfact .checkRecvPacketDelivery (by simp [newPipeline]) (by decide) hd.1 hd.2.1 hd.2.2,
      hfact .checkInitialPacketCommitment (by simp [newPipeline]) (by decide) hd.2.1 hd.2.2,
      hfact .checkSendPacketFinality (by simp [newPipeline]) (by decide) hd.1⟩
  | ack =>
    rw [hk] at hd hfact
    obtain ⟨⟨hash, status, hhash, hstatus, hrel⟩, hack, htimeout⟩ := hd
    exact ⟨hash, status, hhash, hstatus,
      (hfact .checkWriteAckFinality (by simp [newPipeline]) (by decide) hash status hhash hstatus
        hrel).1,
      hfact .checkPostReceivePacketCommitment (by simp [newPipeline]) (by decide) hack htimeout,
      hrel⟩

theorem evidence_before_ack : ∃ sub s, RunSubmits someOptions false (insertedRow somePacket) sub s ∧
    sub.kind = .ack ∧ ∃ u ∈ sub.transfers,
      u.packet = (newIBCV2Transfer (insertedRow somePacket)).packet ∧
      Evidence someOptions u s.trace sub.kind := by
  obtain ⟨sub, hs, hk, hc⟩ := Answers.submits {} someOptions false (insertedRow somePacket) 45
    (fun sub => sub.kind = .ack ∧ sub.Contains (newIBCV2Transfer (insertedRow somePacket)))
    (by decide +kernel)
  exact ⟨sub, _, hs, hk, evidence_before_submission hs hc⟩

/-! ## Readings of the clock -/

/-- The reading of the clock that an event is. -/
def Event.clock? : Event → Option Time
  | ⟨.now _, now⟩ => some now
  | _ => none

/-- The readings of the clock in a trace do not go back. -/
def ClockOrdered (tr : List Event) : Prop := (tr.filterMap Event.clock?).Pairwise (· ≥ ·)

instance (tr : List Event) : Decidable (ClockOrdered tr) :=
  inferInstanceAs (Decidable (List.Pairwise ..))

theorem Packet.ReadClock.mem {p : Packet} {tr : List Event} {state : Ibcv2RelayStatus} {now : Time}
    (h : p.ReadClock tr state now) : now ∈ tr.filterMap Event.clock? :=
  List.mem_filterMap.mpr ⟨_, h, rfl⟩

/-- A later reading is not smaller. -/
theorem ClockOrdered.le {p : Packet} {tr₀ tr : List Event} {state state' : Ibcv2RelayStatus}
    {now now' : Time} (h : ClockOrdered tr) (h₀ : p.ReadClock tr₀ state now)
    (h₁ : p.ReadSince tr tr₀ state' now') : now ≤ now' := by
  obtain ⟨new, rfl, hm⟩ := h₁
  rw [ClockOrdered, List.filterMap_append] at h
  exact (List.pairwise_append.mp h).2.2 now' (Packet.ReadClock.mem hm) now h₀.mem

/-! ## The timeout gate -/

/-- A reading of the clock by `CheckTimeoutFinality` that is not past the timeout is
not followed by one of the batch processor that is. -/
def Packet.GateHolds (p : Packet) (tr : List Event) : Prop :=
  ∀ tr₀ gate batch, p.ReadClock tr₀ .awaitingTimeoutFinality gate →
    p.ReadSince tr tr₀ .deliverTimeoutPacket batch → p.timeoutTimestamp < batch →
    p.timeoutTimestamp < gate

/-- If the timeout does not pass between the two readings, then a timeout tx is
submitted only after the timeout was found final. -/
theorem timeout_final_of_gate {opts : PipelineOptions} {hasPriceClient : Bool} {r : Ibcv2Transfer}
    {sub : Submission} {s : Focus} (h : RunSubmits opts hasPriceClient r sub s)
    (hk : sub.kind = .timeout) (hc : (newIBCV2Transfer r).sequence ∈ sub.request.packetSequences)
    (hgate : (newIBCV2Transfer r).packet.GateHolds s.trace) :
    (newIBCV2Transfer r).packet.TimeoutFinal s.trace opts.destinationFinalityOffset := by
  obtain ⟨t, s₁, hs⟩ := h.submitted (.inl hc)
  obtain ⟨batch, hbatch, hlt⟩ := hs.guard.timeout_clock hk
  have hd := hs.guard.deliverable
  have hfact := hs.facts .checkTimeoutTimestampFinality (by simp [newPipeline])
  rw [hk] at hd hfact
  obtain ⟨gate, hread, hfinal⟩ := hfact (by decide) hd.1 hd.2.1 hd.2.2
  rw [hs.packet] at hbatch hlt hread hfinal
  exact hs.trace.subset (hfinal (hgate s₁.trace gate batch hread hbatch hlt))

/-- The clock is past the timeout at each reading. -/
theorem timeout_final_of_late_gate : ∃ sub s,
    RunSubmits someOptions false (insertedRow somePacket) sub s ∧ sub.kind = .timeout ∧
    (newIBCV2Transfer (insertedRow somePacket)).packet.TimeoutFinal s.trace none := by
  obtain ⟨sub, hs, hk, hc⟩ := Answers.submits { clock := fun _ => 20 } someOptions false
    (insertedRow somePacket) 22 (fun sub => sub.kind = .timeout ∧
      (newIBCV2Transfer (insertedRow somePacket)).sequence ∈ sub.request.packetSequences)
    (by decide +kernel)
  refine ⟨sub, _, hs, hk, timeout_final_of_gate hs hk hc fun tr₀ gate batch hread hbatch _ => ?_⟩
  have hlate : ∀ now ∈ (Answers.run { clock := fun _ => 20 } someOptions false
      (insertedRow somePacket) 22).2.trace.filterMap Event.clock?, (10 : Time) < now := by
    decide +kernel
  obtain ⟨new, htr, -⟩ := hbatch
  rw [htr, List.filterMap_append] at hlate
  exact hlate gate (List.mem_append_right _ hread.mem)

theorem not_mem_of_call {tr : List Event} {c : Call} {ans : c.Ans}
    (h : c ∉ tr.map (·.call)) : ⟨c, ans⟩ ∉ tr :=
  fun hm => h (List.mem_map_of_mem hm)

/-- The timeout passes between the reading of the gate and that of the batch
processor. -/
theorem timeout_not_final : ∃ sub s, RunSubmits someOptions false (insertedRow somePacket) sub s ∧
    sub.kind = .timeout ∧
    (newIBCV2Transfer (insertedRow somePacket)).sequence ∈ sub.request.packetSequences ∧
    ClockOrdered s.trace ∧
      ¬(newIBCV2Transfer (insertedRow somePacket)).packet.TimeoutFinal s.trace none := by
  obtain ⟨sub, hs, hk, hc⟩ := Answers.submits
    { clock := fun | .isTimedOut .deliverTimeoutPacket _ => 20 | _ => 5 } someOptions false
    (insertedRow somePacket) 19
    (fun sub => sub.kind = .timeout ∧
      (newIBCV2Transfer (insertedRow somePacket)).sequence ∈ sub.request.packetSequences)
    (by decide +kernel)
  exact ⟨sub, _, hs, hk, hc, by decide +kernel, not_mem_of_call (by decide +kernel)⟩

/-! ## Recv txs of finished packets -/

/-- Where an ack or a timeout tx of a transfer comes from, before the ack
stage: from the row, from the chain, or from the timeout stage, after the
timeout. -/
theorem Travels.finished_from {pl : Pipeline} {r : Ibcv2Transfer} {done : List Stage}
    {t : IBCV2Transfer} {s : Focus}
    (h : Travels pl (newIBCV2Transfer r) ⟨r, []⟩ done t s) (hdone : .batchAckPacket ∉ done)
    {k : TxKind} (hk : k ≠ .recv) (ht : t.has k = true) : (newIBCV2Transfer r).has k = true ∨
      (∃ tx, t.packet.Found s.trace k tx) ∨
      ∃ now, t.packet.ReadClock s.trace .deliverTimeoutPacket now ∧
      t.packet.timeoutTimestamp < now := by
  refine h.keep (P := fun tr x => x.1.has k = true → (newIBCV2Transfer r).has k = true ∨
    (∃ tx, x.1.packet.Found tr k tx) ∨
    ∃ now, x.1.packet.ReadClock tr .deliverTimeoutPacket now ∧ x.1.packet.timeoutTimestamp < now)
    (fun tr tr' x hsub hx hk => ?_) (fun st hst tr x y hl hx hy => ?_) .inl ht
  · exact (hx hk).imp_right
      (Or.imp (Exists.imp fun _ hf => hf.mono hsub) (Exists.imp fun _ hn => ⟨hsub hn.1, hn.2⟩))
  · rw [hl.packet]
    by_cases hxk : x.1.has k = true
    · exact hx hxk
    cases hl with
    | @found t r j tx ha hf =>
      by_cases hj : k = j
      · exact .inr (.inl ⟨tx, hj ▸ hf⟩)
      · rw [IBCV2Transfer.has, t.tx_foundTx_of_ne tx hj] at hy
        exact absurd hy hxk
    | @delivered t r j tx ha hd hs hclock =>
      by_cases hj : k = j
      · subst hj
        cases k with
        | recv => exact absurd rfl hk
        | ack =>
          subst hs
          exact absurd hst hdone
        | timeout => exact .inr (.inr (hclock rfl))
      · rw [IBCV2Transfer.has, t.tx_record_of_ne tx hj] at hy
        exact absurd hy hxk
    | _ => exact absurd hy (by cases k <;> exact hxk)

/-- Where a run knows of an ack or a timeout tx, from the row or from the chain, it
knows of a recv tx too, or its recv stage finds that the timeout has passed. -/
def RecvAccounted (r : Ibcv2Transfer) (tr : List Event) : Prop :=
  ∀ k, k ≠ .recv →
    ((newIBCV2Transfer r).has k = true ∨ ∃ tx, (newIBCV2Transfer r).packet.Found tr k tx) →
    (newIBCV2Transfer r).has .recv = true ∨ (∃ tx, (newIBCV2Transfer r).packet.Found tr .recv tx) ∨
      ∀ now, (newIBCV2Transfer r).packet.ReadClock tr .deliverRecvPacket now →
        (newIBCV2Transfer r).packetTimeoutTimestamp < now

theorem Noticed.has {t₀ t : IBCV2Transfer} {tr : List Event} (h : Noticed t₀ t tr) {p : Packet}
    {k : TxKind} {tx : BridgeTx} (hf : p.Found tr k tx) : t.has k = true := by
  cases k <;> exact h _ hf

theorem recv_not_finished_iff {opts : PipelineOptions} {hasPriceClient : Bool} {r : Ibcv2Transfer}
    {sub : Submission} {s : Focus} (h : RunSubmits opts hasPriceClient r sub s)
    (hk : sub.kind = .recv) {u : IBCV2Transfer}
    (hu : u ∈ sub.transfers) (hkey : u.key = r.key) (hclock : ClockOrdered s.trace) :
    u.has .ack = false ∧ u.has .timeout = false ↔ RecvAccounted r s.trace := by
  have hnoticed : Noticed (newIBCV2Transfer r) u s.trace := by
    obtain ⟨c, ⟨p, hp, hc⟩, hsub⟩ := h
    exact (pipelineRun_noticed opts hasPriceClient r).next hp hc sub hsub u hu hkey
  obtain ⟨t, s₁, hs⟩ := h.submitted (.inr ⟨u, hu, hkey⟩)
  have hkey' : u.key = t.key := hkey.trans (congrArg Packet.key hs.packet).symm
  obtain ⟨state, err, rfl⟩ := hs.same u hu hkey'
  obtain ⟨done, rest, hst, ht⟩ := hs.travels
  obtain ⟨hrecv, hread, -⟩ := hk ▸ hs.guard
  obtain ⟨now, hnow, hle⟩ := hread rfl
  have hdone : .batchAckPacket ∉ done := fun hm => absurd (hk ▸ ctorIdx_lt hst hm) (by decide)
  constructor
  · rintro ⟨hack, htimeout⟩ k hk hknown
    have hhas : IBCV2Transfer.has { t with state := state, processingError := err } k = true := by
      rcases hknown with hr | ⟨tx, hf⟩
      · exact ht.has hr
      · exact hnoticed.has hf
    cases k with
    | recv => exact absurd rfl hk
    | ack => exact absurd (hack.symm.trans hhas) (by simp)
    | timeout => exact absurd (htimeout.symm.trans hhas) (by simp)
  · intro hacc
    -- None of the three ways out is open: the transfer came to the recv stage and is let in.
    have hunknown (k : TxKind) (hk : k ≠ .recv)
        (hknown : (newIBCV2Transfer r).has k = true ∨
          ∃ tx, (newIBCV2Transfer r).packet.Found s.trace k tx) : False := by
      rcases hacc k hk hknown with hr | ⟨tx, hf⟩ | hpast
      · exact absurd ((ht.has hr).symm.trans hrecv) (by simp)
      · exact absurd ((hnoticed.has hf).symm.trans hrecv) (by simp)
      · rw [hs.packet] at hnow hle
        exact absurd (hpast now hnow.read) (Int.not_lt.mpr hle)
    have hnone (k : TxKind) (hk : k ≠ .recv) : t.has k = false := by
      by_contra hhas
      rcases ht.finished_from hdone hk
        (Bool.of_not_eq_false hhas) with hr | ⟨tx, hf⟩ | ⟨now₀, hn₀, hlt⟩
      · exact hunknown k hk (.inl hr)
      · exact hunknown k hk (.inr ⟨tx, hs.packet ▸ hf.mono hs.trace.subset⟩)
      · exact absurd (hclock.le hn₀ hnow) (Int.not_le.mpr (Int.lt_of_le_of_lt hle hlt))
    exact ⟨hnone .ack (by simp), hnone .timeout (by simp)⟩

/-- Nothing was found on chain, and the clock stands still. -/
theorem recv_of_unfinished : ∃ sub s, RunSubmits someOptions false (insertedRow somePacket) sub s ∧
    sub.kind = .recv ∧ ∃ u ∈ sub.transfers, u.key = (insertedRow somePacket).key ∧
      u.has .ack = false ∧ u.has .timeout = false := by
  obtain ⟨sub, hs, hk, u, hu, hkey⟩ := Answers.submits {} someOptions false
    (insertedRow somePacket) 20
    (fun sub => sub.kind = .recv ∧ ∃ u ∈ sub.transfers, u.key = (insertedRow somePacket).key)
    (by decide +kernel)
  refine ⟨sub, _, hs, hk, u, hu, hkey,
    (recv_not_finished_iff hs hk hu hkey (by decide +kernel)).mpr ?_⟩
  rintro k hk (hr | ⟨tx, hf⟩)
  · cases k <;> cases hr
  · cases k with
    | recv => exact absurd rfl hk
    | ack => exact absurd hf (not_mem_of_call (by decide +kernel))
    | timeout => exact absurd hf (not_mem_of_call (by decide +kernel))

/-- Another relayer has the packet received and acknowledged between the first
check and the second. -/
theorem recv_of_finished : ∃ sub s, RunSubmits someOptions false (insertedRow somePacket) sub s ∧
    sub.kind = .recv ∧
    (newIBCV2Transfer (insertedRow somePacket)).sequence ∈ sub.request.packetSequences ∧
    (∃ u ∈ sub.transfers, u.key = (insertedRow somePacket).key ∧ u.has .ack = true) ∧
      ClockOrdered s.trace := by
  obtain ⟨sub, hs, hk, hc, hu⟩ := Answers.submits
    { committed := false, ackTx := some ⟨"ac", 3, "other"⟩ }
    someOptions false (insertedRow somePacket) 23
    (fun sub => sub.kind = .recv ∧
      (newIBCV2Transfer (insertedRow somePacket)).sequence ∈ sub.request.packetSequences ∧
      ∃ u ∈ sub.transfers, u.key = (insertedRow somePacket).key ∧ u.has .ack = true)
    (by decide +kernel)
  exact ⟨sub, _, hs, hk, hc, hu, by decide +kernel⟩

end PlatformRelayer

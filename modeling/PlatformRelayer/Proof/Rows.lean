import PlatformRelayer.Proof.Runs

/-!
# What the rows look like

`RowInv` relates the columns of a row. A processor writes some of them only,
under a guard that it evaluates on the transfer in memory; the invariant is
kept because a transfer without an error has the columns of its row
(`RowInv.life`), at every point of every run.

With it, a row that gets a `COMPLETE` status has what the status says, and its
last tx was confirmed in the same run.
-/

namespace PlatformRelayer

open Db Prog

/-- The row invariant. -/
structure RowInv (r : Ibcv2Transfer) : Prop where
  ack_or_timeout : r.ackTx.hash = none ∨ r.timeoutTx.hash = none
  writeAckStatus : r.writeAckTxHash = none ↔ r.writeAckStatus = none
  writeAck_recv (h : String) : r.writeAckTxHash = some h → r.recvTx.hash = some h
  time (k : TxKind) : (r.tx k).hash = none ↔ (r.tx k).time = none

namespace RowInv

theorem inserted (p : InsertIBCV2TransferParams) : RowInv (insertedRow p) where
  ack_or_timeout := .inl rfl
  writeAckStatus := iff_of_true rfl rfl
  writeAck_recv := by simp [insertedRow]
  time k := by cases k <;> exact iff_of_true rfl rfl

variable {r : Ibcv2Transfer}

/-- A recorded tx: a recv tx only where there is no write ack, an ack and a
timeout tx only where the other is not. -/
theorem recorded (h : RowInv r) {k : TxKind} (tx : BridgeTx)
    (hr : k = .recv → r.writeAckTxHash = none)
    (hk : k = .ack → r.timeoutTx.hash = none) (ht : k = .timeout → r.ackTx.hash = none) :
    RowInv ((recorded k tx).apply r) where
  ack_or_timeout := by
    cases k with
    | recv => exact h.ack_or_timeout
    | ack => exact .inr (hk rfl)
    | timeout => exact .inl (ht rfl)
  writeAckStatus := by cases k <;> exact h.writeAckStatus
  writeAck_recv w hw := by
    cases k with
    | recv => exact absurd ((hr rfl).symm.trans hw) (by simp)
    | ack => exact h.writeAck_recv w hw
    | timeout => exact h.writeAck_recv w hw
  time j := by
    rw [tx_recorded]
    split
    · exact iff_of_false (by simp) (by simp)
    · exact h.time j

/-- A cleared tx: a recv tx only where there is no write ack. -/
theorem cleared (h : RowInv r) {k : TxKind} (hr : k = .recv → r.writeAckTxHash = none) :
    RowInv ((SetClause.clearTx k).apply r) where
  ack_or_timeout := by
    cases k with
    | recv => exact h.ack_or_timeout
    | ack => exact .inl rfl
    | timeout => exact .inr rfl
  writeAckStatus := by cases k <;> exact h.writeAckStatus
  writeAck_recv w hw := by
    cases k with
    | recv => exact absurd ((hr rfl).symm.trans hw) (by simp)
    | ack => exact h.writeAck_recv w hw
    | timeout => exact h.writeAck_recv w hw
  time j := by
    change ((r.setTx k _).tx j).hash = none ↔ ((r.setTx k _).tx j).time = none
    rw [r.tx_setTx]
    split
    · exact iff_of_true rfl rfl
    · exact h.time j

/-- The other columns do not matter. -/
theorem congr {r' : Ibcv2Transfer} (h : RowInv r) (hhash : ∀ k, (r'.tx k).hash = (r.tx k).hash)
    (htime : ∀ k, (r'.tx k).time = (r.tx k).time) (hw : r'.writeAckTxHash = r.writeAckTxHash)
    (hs : r'.writeAckStatus = r.writeAckStatus) : RowInv r' where
  ack_or_timeout := by
    have := h.ack_or_timeout
    rwa [show r.ackTx.hash = r'.ackTx.hash from (hhash .ack).symm,
      show r.timeoutTx.hash = r'.timeoutTx.hash from (hhash .timeout).symm] at this
  writeAckStatus := by rw [hw, hs]; exact h.writeAckStatus
  writeAck_recv w hw' := (hhash .recv).trans (h.writeAck_recv w (hw ▸ hw'))
  time k := by rw [hhash, htime]; exact h.time k

end RowInv

variable {pl : Pipeline} {st : Stage} {tr : List Event} {x y : IBCV2Transfer × Ibcv2Transfer}

theorem Synced.hash_none {t : IBCV2Transfer} {r : Ibcv2Transfer} (hs : Synced t r) {k : TxKind}
    (h : t.has k = false) : (r.tx k).hash = none := by
  rw [← hs.hash]
  simpa [IBCV2Transfer.has] using h

theorem Synced.hash_some {t : IBCV2Transfer} {r : Ibcv2Transfer} (hs : Synced t r) {k : TxKind}
    (h : t.has k = true) : ∃ hash, (r.tx k).hash = some hash := by
  rw [← hs.hash]
  exact Option.isSome_iff_exists.mp h

theorem RowInv.writeAck_none {r : Ibcv2Transfer} (h : RowInv r) (hr : r.recvTx.hash = none) :
    r.writeAckTxHash = none := by
  cases hw : r.writeAckTxHash with
  | none => rfl
  | some w => exact absurd (h.writeAck_recv w hw) (by rw [hr]; simp)

/-- Every step keeps the invariant, given that an unfailed transfer is in sync
with its row. -/
theorem RowInv.life (hl : Life pl tr st x y) (hs : x.1.processingError = none → Synced x.1 x.2)
    (hx : RowInv x.2) : RowInv y.2 := by
  cases hl with
  | enter => exact hx.congr (fun _ => rfl) (fun _ => rfl) rfl rfl
  | fail => exact hx
  | found k tx ha _ hr hk ht =>
    have hs := hs ha.1
    exact hx.recorded tx (fun e => hx.writeAck_none (hs.hash_none (hr e)))
      (fun _ => hs.hash_none ht) fun _ => hs.hash_none hk
  | delivered k tx ha hd =>
    have hs := hs ha.1
    refine hx.recorded tx ?_ ?_ ?_
    · rintro rfl
      exact hx.writeAck_none (hs.hash_none hd)
    · rintro rfl
      exact hs.hash_none hd.2.2
    · rintro rfl
      exact hs.hash_none hd.2.1
  | cleared k err ha _ hw => exact hx.cleared fun e => (hs ha.1).writeAckTxHash.symm.trans (hw e)
  | wroteAck hash time status ha hr =>
    refine ⟨hx.ack_or_timeout, iff_of_false (Option.some_ne_none _) (Option.some_ne_none _),
      fun w hw => ?_, hx.time⟩
    obtain rfl : hash = w := Option.some.inj hw
    exact ((hs ha.1).hash .recv).symm.trans hr
  | sendFinalized => exact hx.congr (fun _ => rfl) (fun _ => rfl) rfl rfl
  | writeAckFinalized => exact hx.congr (fun _ => rfl) (fun _ => rfl) rfl rfl
  | priced k =>
    refine hx.congr (fun j => ?_) (fun j => ?_) ?_ ?_
    · cases k <;> cases j <;> rfl
    · cases k <;> cases j <;> rfl
    · cases k <;> rfl
    · cases k <;> rfl
  | finish => exact hx.congr (fun _ => rfl) (fun _ => rfl) rfl rfl

/-- No stage fails a row, and a transfer that is `FAILED` in memory has an
error. -/
theorem Life.not_failed (hl : Life pl tr st x y)
    (hx : x.2.status ≠ .failed ∧ (x.1.processingError = none → x.1.state ≠ .failed)) :
    y.2.status ≠ .failed ∧ (y.1.processingError = none → y.1.state ≠ .failed) := by
  cases hl with
  | enter state _ hs =>
    have hne : state ≠ .failed := by rintro rfl; cases hs
    exact ⟨hne, fun _ => hne⟩
  | fail => exact ⟨hx.1, fun h => absurd h (Option.some_ne_none _)⟩
  | found k => cases k <;> exact hx
  | delivered k => cases k <;> exact hx
  | cleared k => cases k <;> exact ⟨hx.1, fun h => absurd h (Option.some_ne_none _)⟩
  | wroteAck => exact hx
  | sendFinalized => exact hx
  | writeAckFinalized => exact hx
  | priced k => cases k <;> exact hx
  | @finish t =>
    have hne : t.finalState ≠ .failed := by
      rw [IBCV2Transfer.finalState]
      split_ifs <;> simp
    exact ⟨hne, fun _ => hne⟩

/-! ## Rows that are reached -/

/-- The rows that come from inserted ones by runs of the pipeline, one after
another, each on the row as it is stored and each up to any point. A run of
another packet changes one column of one row: the update that fills in no key
is for the row with the empty one. -/
inductive Reachable : Ibcv2Transfer → Prop where
  | inserted (p : InsertIBCV2TransferParams) : Reachable (insertedRow p)
  | run {r : Ibcv2Transfer} {s : Focus} (opts : PipelineOptions) (hasPriceClient : Bool) :
    Reachable r → RunTo opts hasPriceClient r s → Reachable s.row
  | other {r : Ibcv2Transfer} (time : Time) : Reachable r → r.key = ⟨"", "", 0⟩ →
    Reachable ((SetClause.writeAckTxFinalizedTime (some time)).apply r)

section Travels

variable {t : IBCV2Transfer} {r : Ibcv2Transfer} {s : Focus} {done : List Stage}

theorem Travels.rowInv (h : Travels pl (newIBCV2Transfer r) ⟨r, []⟩ done t s)
    (hr : RowInv r) : RowInv s.row := by
  refine (h.keep (P := fun _ x => (x.1.processingError = none → Synced x.1 x.2) ∧ RowInv x.2)
    (fun _ _ _ _ h => h) (fun _ _ _ x y hl hx => ?_) ⟨fun _ => .load r, hr⟩).2
  exact ⟨Synced.life hl hx.1, RowInv.life hl hx.1 hx.2⟩

theorem Travels.not_failed (h : Travels pl (newIBCV2Transfer r) ⟨r, []⟩ done t s)
    (hr : r.status ≠ .failed) :
    s.row.status ≠ .failed ∧ (t.processingError = none → t.state ≠ .failed) :=
  h.keep (P := fun _ x => x.2.status ≠ .failed ∧ (x.1.processingError = none → x.1.state ≠ .failed))
    (fun _ _ _ _ h => h) (fun _ _ _ _ _ hl hx => hl.not_failed hx) ⟨hr, fun _ => hr⟩

end Travels

theorem Reachable.rowInv {r : Ibcv2Transfer} (h : Reachable r) : RowInv r := by
  induction h with
  | inserted p => exact .inserted p
  | run opts hasPriceClient _ hrun ih =>
    obtain ⟨done, t, -, ht⟩ := hrun.onTheWay
    exact ht.rowInv ih
  | other time _ _ ih => exact ih.congr (fun _ => rfl) (fun _ => rfl) rfl rfl

theorem Reachable.not_failed {r : Ibcv2Transfer} (h : Reachable r) : r.status ≠ .failed := by
  induction h with
  | inserted p => simp [insertedRow]
  | run opts hasPriceClient _ hrun ih =>
    obtain ⟨done, t, -, ht⟩ := hrun.onTheWay
    exact (ht.not_failed ih).1
  | other time _ _ ih => exact ih

/-- The invariant holds of an inserted row and at every point of every run on
a row that has it, whatever is answered and whichever statements fail. -/
theorem rowInv_preserved : (∀ p, RowInv (insertedRow p)) ∧
    ∀ opts hasPriceClient r s, RowInv r → RunTo opts hasPriceClient r s → RowInv s.row := by
  refine ⟨RowInv.inserted, fun opts hasPriceClient r s hr hrun => ?_⟩
  obtain ⟨done, t, -, ht⟩ := hrun.onTheWay
  exact ht.rowInv hr

theorem rowInv_preserved_recv :
    RowInv (Answers.run {} someOptions false (insertedRow somePacket) 24).2.row ∧
      (Answers.run {} someOptions false (insertedRow somePacket) 24).2.row.recvTx.hash =
      some "d0" :=
  ⟨rowInv_preserved.2 _ _ _ _ (rowInv_preserved.1 somePacket)
    (Answers.runTo {} someOptions false _ 24), by decide +kernel⟩

/-! ## Completion -/

/-- What the row has when a `COMPLETE` status is written to it, and what was
answered before in the same run. -/
def Completed (opts : PipelineOptions) (p : Packet) (r : Ibcv2Transfer)
    (tr : List Event) : Ibcv2RelayStatus → Prop
  | .completeWithAck => r.recvTx.hash ≠ none ∧ r.writeAckTxHash ≠ none ∧ r.timeoutTx.hash = none ∧
      ∃ hash, r.ackTx.hash = some hash ∧ p.Confirmed tr p.sourceChainID .ack hash
  | .completeWithTimeout => r.ackTx.hash = none ∧
      ∃ hash, r.timeoutTx.hash = some hash ∧ p.Confirmed tr p.sourceChainID .timeout hash
  | .completeWithWriteAckSuccess => r.recvTx.hash ≠ none ∧ r.writeAckTxHash ≠ none ∧
  r.ackTx.hash = none ∧
      r.timeoutTx.hash = none ∧ r.writeAckStatus = some .success ∧
      opts.shouldRelaySuccessAcks = false
  | .completeWithWriteAckError => r.recvTx.hash ≠ none ∧ r.writeAckTxHash ≠ none ∧
  r.ackTx.hash = none ∧
      r.timeoutTx.hash = none ∧
      (r.writeAckStatus = some .error ∨ r.writeAckStatus = some .unknown) ∧
      opts.shouldRelayErrorAcks = false
  | _ => False

/-- What `IsComplete` says, with `finalState`. -/
theorem completed_finalState {opts : PipelineOptions} {t : IBCV2Transfer} {r : Ibcv2Transfer}
    (hc : t.isComplete opts.shouldRelaySuccessAcks opts.shouldRelayErrorAcks = true)
    (hs : Synced t r) (hr : RowInv r)
    (hack : ∀ h, r.ackTx.hash = some h → t.packet.Confirmed tr t.packet.sourceChainID .ack h)
    (htimeout : ∀ h, r.timeoutTx.hash = some h →
      t.packet.Confirmed tr t.packet.sourceChainID .timeout h) :
    Completed opts t.packet r tr t.finalState := by
  rw [IBCV2Transfer.isComplete] at hc
  rw [IBCV2Transfer.finalState]
  split at hc
  · cases hc
  by_cases ht : t.has .timeout = true
  · obtain ⟨h, hh⟩ := hs.hash_some ht
    rw [if_pos ht]
    exact ⟨hr.ack_or_timeout.resolve_right fun hn => absurd (hn.symm.trans hh) (by simp), h, hh,
      htimeout h hh⟩
  rw [if_neg ht] at hc ⊢
  split at hc
  · cases hc
  rename_i hrw
  obtain ⟨hrecv, hw⟩ : t.has .recv = true ∧ t.writeAckTxHash ≠ none := by simpa using hrw
  obtain ⟨recv, hrecv⟩ := hs.hash_some hrecv
  have hrecv' : r.recvTx.hash ≠ none := fun hn => absurd (hn.symm.trans hrecv) (by simp)
  have hw' : r.writeAckTxHash ≠ none := hs.writeAckTxHash ▸ hw
  have ht' : r.timeoutTx.hash = none := hs.hash_none (Bool.eq_false_iff.mpr ht)
  by_cases hk : t.has .ack = true
  · obtain ⟨h, hh⟩ := hs.hash_some hk
    rw [if_pos hk]
    exact ⟨hrecv', hw', ht', h, hh, hack h hh⟩
  rw [if_neg hk] at hc ⊢
  have hk' : r.ackTx.hash = none := hs.hash_none (Bool.eq_false_iff.mpr hk)
  have hstatus := hs.writeAckStatus
  cases hws : t.writeAckStatus with
  | none => rw [hws] at hc; cases hc
  | some status =>
    rw [hws] at hc hstatus
    cases status with
    | success => exact ⟨hrecv', hw', hk', ht', hstatus.symm,
      by simpa [isErrorAck, isSuccessAck] using hc⟩
    | error => exact ⟨hrecv', hw', hk', ht', .inl hstatus.symm,
      by simpa [isErrorAck, isSuccessAck] using hc⟩
    | unknown => exact ⟨hrecv', hw', hk', ht', .inr hstatus.symm,
      by simpa [isErrorAck, isSuccessAck] using hc⟩

theorem completion_confirmed {opts : PipelineOptions} {hasPriceClient : Bool} {r : Ibcv2Transfer}
    {s : Focus} {status : Ibcv2RelayStatus} {key : TransferKey} (hr : Reachable r)
    (h : RunCall opts hasPriceClient r (.exec (updateTransferState status key)) s)
    (hc : status.isComplete = true) :
    key = r.key ∧ Completed opts (newIBCV2Transfer r).packet s.row s.trace status := by
  obtain ⟨st, t, s₁, ⟨done, rest, hst, ht, hf⟩, -, hq⟩ := h.inRun
  rcases hq with hq | hsp
  · have hfin := hq status rfl
    simp [Ibcv2RelayStatus.isComplete, hfin] at hc
  generalize hcall : Call.exec (updateTransferState status key) = c at hsp
  cases hsp with
  | deliver => cases hcall
  | finish hfinisher he hcomp hrow htr =>
    subst hfinisher
    obtain ⟨rfl, rfl⟩ : status = t.finalState ∧ key = t.key := by cases hcall; exact ⟨rfl, rfl⟩
    have ha : t.Active := ⟨he, (ht.not_failed hr.not_failed).2 he⟩
    have hs : Synced t s.row := hrow ▸ ht.synced (.load r) he
    have hinv : RowInv s.row := hrow ▸ ht.rowInv hr.rowInv
    -- A tx that the transfer has passed its retry check, and no later stage delivers one.
    have hconf (k : TxKind) (st : Stage) (hst : st ∈ done)
        (hfact : st.Fact (pipelineOf opts hasPriceClient r) t s.trace → ∀ h,
          (t.tx k).hash = some h →
          (t.tx k).time.isSome = true → t.packet.Confirmed s.trace t.packet.sourceChainID k h)
        (h : String)
        (hh : (s.row.tx k).hash = some h) :
        t.packet.Confirmed s.trace t.packet.sourceChainID k h := by
      refine hfact ((hf ha st hst).mono htr.subset) h ((hs.hash k).trans hh) ?_
      rw [hs.time, Option.isSome_iff_ne_none]
      exact mt (hinv.time k).mpr (by rw [hh]; simp)
    have hchain : (pipelineOf opts hasPriceClient r).key.sourceChainID =
        t.packet.sourceChainID := by
      rw [ht.packet]
      rfl
    have hmem (st : Stage) (hst' : st.ctorIdx < Stage.stateFinisher.ctorIdx)
        (h : st ∈ newPipeline (pipelineOf opts hasPriceClient r)) : st ∈ done :=
      mem_newPipeline hst h hst'
    refine ⟨ht.key, ht.packet ▸ completed_finalState hcomp hs hinv ?_ ?_⟩
    · refine hconf .ack .retryAckPacket (hmem _ (by decide) (by simp [newPipeline])) ?_
      rw [← hchain]
      exact fun h => h
    · refine hconf .timeout .retryTimeoutPacket (hmem _ (by decide) (by simp [newPipeline])) ?_
      rw [← hchain]
      exact fun h => h

/-- A packet that another relayer had acknowledged. -/
theorem completion_confirmed_ack : ∃ s, RunCall someOptions false (insertedRow somePacket)
      (.exec (updateTransferState .completeWithAck (insertedRow somePacket).key)) s ∧
    Completed someOptions (newIBCV2Transfer (insertedRow somePacket)).packet s.row s.trace
      .completeWithAck := by
  have h := Answers.runCall { committed := false, ackTx := some ⟨"ac", 3, "other"⟩ }
    someOptions false (insertedRow somePacket) 44
    (c := .exec (updateTransferState .completeWithAck (insertedRow somePacket).key))
    (by decide +kernel)
  exact ⟨_, h, (completion_confirmed (.inserted somePacket) h rfl).2⟩

end PlatformRelayer

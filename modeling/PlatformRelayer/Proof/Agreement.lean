import PlatformRelayer.Proof.Columns
import PlatformRelayer.Proof.Noticed
import PlatformRelayer.Proof.Races
import PlatformRelayer.Proof.Rows

/-!
# A transfer and the table after a run

While a transfer has no error, every step of `Life` leaves its row in step with
it (`Stored.life`), but for the time at which the write ack was final: the update
of `CheckWriteAckFinality` fills in no key, so it is for the row with the empty
one. `Finality` says where that time comes from. The row that the table has
differs in the times that do not come back from their columns (`Alike`). What
else is in the table stays as it was, but for the rows of the transfers that were
in a batch with this one (`Framed`).
-/

namespace PlatformRelayer

open Db Prog

variable {pl : Pipeline} {st : Stage} {adm : (c : Call) → c.Ans → Focus → Prop}
  {tr tr' : List Event}
  {x y : IBCV2Transfer × Ibcv2Transfer} {r : Ibcv2Transfer}

/-- Two transfers have the same progress. -/
structure Agrees (t u : IBCV2Transfer) : Prop where
  state : t.state = u.state
  hash (k : TxKind) : (t.tx k).hash = (u.tx k).hash
  time (k : TxKind) : (t.tx k).time = (u.tx k).time
  writeAckTxHash : t.writeAckTxHash = u.writeAckTxHash
  writeAckTxTime : t.writeAckTxTime = u.writeAckTxTime
  writeAckStatus : t.writeAckStatus = u.writeAckStatus
  sourceTxFinalizedTime : t.sourceTxFinalizedTime = u.sourceTxFinalizedTime
  writeAckTxFinalizedTime : t.writeAckTxFinalizedTime = u.writeAckTxFinalizedTime

/-! ## The columns that are kept in step -/

/-- The row has the progress of the transfer, but for the time its write ack was
final at. -/
structure Stored (t : IBCV2Transfer) (r : Ibcv2Transfer) : Prop extends Synced t r where
  state : t.state = r.status
  writeAckTxTime : t.writeAckTxTime = r.writeAckTxTime
  sourceTxFinalizedTime : t.sourceTxFinalizedTime = r.sourceTxFinalizedTime

theorem Stored.load (r : Ibcv2Transfer) : Stored (newIBCV2Transfer r) r := ⟨.load r, rfl, rfl, rfl⟩

/-- With a row that has the same but for its times. -/
theorem Stored.agrees_iff {offset : Query → Duration} {K : TransferKey} {qs : List Query}
    {t : IBCV2Transfer} {row row' : Ibcv2Transfer} (h : Stored t row)
    (ha : Alike offset K r qs row row') :
    Agrees t (newIBCV2Transfer row') ↔ t.writeAckTxFinalizedTime = row'.writeAckTxFinalizedTime ∧
      ∀ col, col ≠ .writeAckTxFinalized → row.timeIn col = row'.timeIn col := by
  have hload := Synced.load row'
  constructor
  · refine fun hagrees => ⟨hagrees.writeAckTxFinalizedTime, fun col hcol => ?_⟩
    cases col with
    | tx k => exact (h.time k).symm.trans ((hagrees.time k).trans (hload.time k))
    | writeAckTx => exact h.writeAckTxTime.symm.trans hagrees.writeAckTxTime
    | sourceTxFinalized => exact h.sourceTxFinalizedTime.symm.trans hagrees.sourceTxFinalizedTime
    | writeAckTxFinalized => exact absurd rfl hcol
  · rintro ⟨hfinal, htime⟩
    exact ⟨h.state.trans ha.status.symm, fun k =>
      (h.hash k).trans ((ha.hash k).symm.trans (hload.hash k).symm),
      fun k => (h.time k).trans ((htime (.tx k) nofun).trans (hload.time k).symm),
      h.writeAckTxHash.trans ha.writeAckTxHash.symm,
        h.writeAckTxTime.trans (htime .writeAckTx nofun),
      h.writeAckStatus.trans ha.writeAckStatus.symm,
      h.sourceTxFinalizedTime.trans (htime .sourceTxFinalized nofun), hfinal⟩

theorem Stored.life (hl : Life pl tr st x y) (h : x.1.processingError = none → Stored x.1 x.2)
    (hy : y.1.processingError = none) : Stored y.1 y.2 := by
  have hx := h (hl.clean hy)
  have hs := Synced.life hl (fun _ => hx.toSynced) hy
  cases hl with
  | enter => exact ⟨hs, rfl, hx.writeAckTxTime, hx.sourceTxFinalizedTime⟩
  | fail => cases hy
  | found k => cases k <;> exact ⟨hs, hx.state, hx.writeAckTxTime, hx.sourceTxFinalizedTime⟩
  | delivered k => cases k <;> exact ⟨hs, hx.state, hx.writeAckTxTime, hx.sourceTxFinalizedTime⟩
  | cleared => cases hy
  | wroteAck => exact ⟨hs, hx.state, rfl, hx.sourceTxFinalizedTime⟩
  | sendFinalized => exact ⟨hs, hx.state, hx.writeAckTxTime, rfl⟩
  | writeAckFinalized => exact ⟨hs, hx.state, hx.writeAckTxTime, hx.sourceTxFinalizedTime⟩
  | priced k => cases k <;> exact ⟨hs, hx.state, hx.writeAckTxTime, hx.sourceTxFinalizedTime⟩
  | finish => exact ⟨hs, rfl, hx.writeAckTxTime, hx.sourceTxFinalizedTime⟩

/-! ## The time a write ack was final at -/

/-- The status of the write ack that a run on the row goes by: the one in the row,
or the one that it is told. -/
def WritesAck (r : Ibcv2Transfer) (tr : List Event) (status : Ibcv2WriteAckStatus) : Prop :=
  if r.writeAckTxHash = none then ∃ hash, (newIBCV2Transfer r).packet.SaidWriteAck tr hash status
  else r.writeAckStatus = some status

theorem WritesAck.mono {status : Ibcv2WriteAckStatus} (h : tr ⊆ tr') (hs : WritesAck r tr status) :
    WritesAck r tr' status := by
  rw [WritesAck] at hs ⊢
  split at hs
  · rename_i hw
    obtain ⟨hash, hs⟩ := hs
    rw [if_pos hw]
    exact ⟨hash, hs.mono h⟩
  · rename_i hw
    rw [if_neg hw]
    exact hs

/-- The update that fills in no key is for the row it should be for. -/
def TimeStored (opts : PipelineOptions) (r : Ibcv2Transfer) (tr : List Event) : Prop :=
  r.status = .failed ∨ r.key = ⟨"", "", 0⟩ ∨ r.writeAckTxFinalizedTime ≠ none ∨
    ∀ status, WritesAck r tr status → opts.relays status = false

/-- A transfer of the row `r` and its row, with the time the write ack was final at:
both as they were, or set in the run. -/
inductive Finality (pl : Pipeline) (r : Ibcv2Transfer) (tr : List Event)
    (x : IBCV2Transfer × Ibcv2Transfer) : Prop where
  | same : x.1.writeAckTxFinalizedTime = r.writeAckTxFinalizedTime →
    x.2.writeAckTxFinalizedTime = r.writeAckTxFinalizedTime → Finality pl r tr x
  | set {status} : r.status ≠ .failed → r.writeAckTxFinalizedTime = none → WritesAck r tr status →
    pl.opts.relays status = true → x.1.writeAckTxFinalizedTime ≠ none →
    x.2.writeAckTxFinalizedTime =
    (if r.key = ⟨"", "", 0⟩ then x.1.writeAckTxFinalizedTime else none) → Finality pl r tr x

/-- A transfer of the row `r` on its way, and where its write ack comes from. -/
structure FromRow (pl : Pipeline) (r : Ibcv2Transfer) (tr : List Event)
    (x : IBCV2Transfer × Ibcv2Transfer) : Prop where
  packet : x.1.packet = (newIBCV2Transfer r).packet
  active : x.1.Active → r.status ≠ .failed
  writeAck : (x.1.writeAckTxHash = r.writeAckTxHash ∧ x.1.writeAckStatus = r.writeAckStatus) ∨
    (r.writeAckTxHash = none ∧ ∃ status, x.1.writeAckStatus = some status ∧ WritesAck r tr status)
  finality : Finality pl r tr x

theorem FromRow.writesAck (h : FromRow pl r tr x) {hash : String} {status : Ibcv2WriteAckStatus}
    (hhash : x.1.writeAckTxHash = some hash) (hstatus : x.1.writeAckStatus = some status) :
    WritesAck r tr status := by
  rcases h.writeAck with ⟨hh, hs⟩ | ⟨-, s, hs, hw⟩
  · rw [WritesAck, if_neg (by simp [← hh, hhash])]
    exact hs.symm.trans hstatus
  · rw [hs] at hstatus
    exact Option.some.inj hstatus ▸ hw

theorem FromRow.life (hl : Life pl tr st x y) (hst : st ≠ .stateFinisher)
    (h : FromRow pl r tr x) : FromRow pl r tr y where
  packet := hl.packet.trans h.packet
  active hy := h.active (hl.active hst hy)
  writeAck := by
    have hsame : (y.1.writeAckTxHash = x.1.writeAckTxHash ∧
        y.1.writeAckStatus = x.1.writeAckStatus) ∨
        (x.1.writeAckTxHash = none ∧ ∃ hash status, y.1.writeAckStatus = some status ∧
          x.1.packet.SaidWriteAck tr hash status) := by
      cases hl with
      | found k => cases k <;> exact .inl ⟨rfl, rfl⟩
      | delivered k => cases k <;> exact .inl ⟨rfl, rfl⟩
      | wroteAck hash time status _ _ hw _ _ hsaid => exact .inr ⟨hw, hash, status, rfl, hsaid⟩
      | _ => exact .inl ⟨rfl, rfl⟩
    rcases hsame with ⟨hh, hs⟩ | ⟨hx, hash, status, hs, hsaid⟩
    · rw [hh, hs]
      exact h.writeAck
    · -- There was none before, so there is none in the row.
      have hr : r.writeAckTxHash = none := by
        rcases h.writeAck with ⟨hh, -⟩ | ⟨hr, -⟩
        · exact hh.symm.trans hx
        · exact hr
      refine .inr ⟨hr, status, hs, ?_⟩
      rw [WritesAck, if_pos hr]
      exact ⟨hash, h.packet ▸ hsaid⟩
  finality := by
    have hkeep (h₁ : y.1.writeAckTxFinalizedTime = x.1.writeAckTxFinalizedTime)
        (h₂ : y.2.writeAckTxFinalizedTime = x.2.writeAckTxFinalizedTime) : Finality pl r tr y := by
      cases h.finality with
      | same hx hr => exact .same (h₁.trans hx) (h₂.trans hr)
      | set hf hn hw hrel hx hr => exact .set hf hn hw hrel (h₁ ▸ hx) (by rw [h₁, h₂, hr])
    cases hl with
    | found k => cases k <;> exact hkeep rfl rfl
    | delivered k => cases k <;> exact hkeep rfl rfl
    | cleared k => cases k <;> exact hkeep rfl rfl
    | priced k => cases k <;> exact hkeep rfl rfl
    | @writeAckFinalized t row time ha _ hn hack =>
      obtain ⟨hash, status, hhash, hstatus, hrel⟩ := hack
      cases h.finality with
      | same hx hrow =>
        have hnone : r.writeAckTxFinalizedTime = none := hx.symm.trans hn
        refine .set (h.active ha) hnone (h.writesAck hhash hstatus) hrel (Option.some_ne_none _) ?_
        have hkey : t.key = r.key := congrArg Packet.key h.packet
        change (if t.key = _ then _ else row.writeAckTxFinalizedTime) = _
        rw [hkey, show row.writeAckTxFinalizedTime = none from hrow.trans hnone]
      | set _ _ _ _ hx => exact absurd hn hx
    | _ => exact hkeep rfl rfl

theorem FromRow.mono (h : FromRow pl r tr x) (htr : tr ⊆ tr') : FromRow pl r tr' x where
  packet := h.packet
  active := h.active
  writeAck := h.writeAck.imp_right (.imp_right (.imp fun _ => .imp_right (.mono htr)))
  finality := by
    cases h.finality with
    | same hx hr => exact .same hx hr
    | set hf hn hw hrel hx hr => exact .set hf hn (hw.mono htr) hrel hx hr

theorem FromRow.load (pl : Pipeline)
    (r : Ibcv2Transfer) : FromRow pl r [] (newIBCV2Transfer r, r) :=
  ⟨rfl, fun ha => ha.2, .inl ⟨rfl, rfl⟩, .same rfl rfl⟩

section Travels

variable {t : IBCV2Transfer} {s : Focus} {done : List Stage}
  (h : Travels pl (newIBCV2Transfer r) ⟨r, []⟩ done t s)
include h

theorem Travels.stored : t.processingError = none → Stored t s.row :=
  h.keep (P := fun _ x => x.1.processingError = none → Stored x.1 x.2) (fun _ _ _ _ h => h)
    (fun _ _ _ _ _ hl hx => Stored.life hl hx) fun _ => .load r

theorem Travels.fromRow (hdone : .stateFinisher ∉ done) : FromRow pl r s.trace (t, s.row) :=
  h.keep (P := fun tr x => FromRow pl r tr x) (fun _ _ _ htr hx => hx.mono htr)
    (fun _ hm _ _ _ hl hx => hx.life hl fun e => hdone (e ▸ hm)) (.load pl r)

end Travels

/-! ## The end of a run -/

section LeftClean

variable {opts : PipelineOptions} {hasPriceClient : Bool} {t t' : IBCV2Transfer} {s s' : Focus}

/-- A transfer of the row `r` that has left the pipeline without an error. -/
structure LeftClean (opts : PipelineOptions) (hasPriceClient : Bool) (r : Ibcv2Transfer)
    (t : IBCV2Transfer) (s : Focus) : Prop where
  stored : Stored t s.row
  finality : Finality (pipelineOf opts hasPriceClient r) r s.trace (t, s.row)
  finalized : r.status ≠ .failed → ∀ hash status, t.writeAckTxHash = some hash →
    t.writeAckStatus = some status → opts.relays status = true → t.writeAckTxFinalizedTime ≠ none
  writeAck : r.writeAckTxHash ≠ none → t.writeAckTxHash = r.writeAckTxHash ∧
    t.writeAckStatus = r.writeAckStatus
  noticed : Noticed (newIBCV2Transfer r) t s.trace

theorem Returned.leftClean (h : Returned (pipelineOf opts hasPriceClient r)
      (newIBCV2Transfer r) ⟨r, []⟩ t s t' s')
    (ht' : t'.processingError = none) (hn : Noticed (newIBCV2Transfer r) t' s'.trace) :
    LeftClean opts hasPriceClient r t' s' := by
  have hfrom := h.travels.fromRow (stateFinisher_not_mem_workStages _)
  have hstored := h.travels.stored
  have hfact (ht : t.processingError = none) (hr : r.status ≠ .failed) :=
    h.facts ⟨ht, (h.travels.not_failed hr).2 ht⟩ .checkWriteAckFinality
      (mem_workStages (by simp [newPipeline]) (by simp))
  cases h.finished with
  | failed hne => exact absurd ht' hne
  | unchanged =>
    exact ⟨hstored ht', hfrom.finality, fun hr hash status hh hs hrel =>
      (hfact ht' hr hash status hh hs hrel).2, h.travels.writeAck_of_some, hn⟩
  | complete _ hrow _ htr =>
    have hs := hstored ht'
    refine ⟨?_, ?_, fun hr hash status hh hs hrel => (hfact ht' hr hash status hh hs hrel).2,
      h.travels.writeAck_of_some, hn⟩
    · rw [hrow]
      exact ⟨⟨hs.hash, hs.time, hs.writeAckTxHash, hs.writeAckStatus⟩, rfl, hs.writeAckTxTime,
        hs.sourceTxFinalizedTime⟩
    · rw [hrow]
      cases (hfrom.mono htr.subset).finality with
      | same hx hr => exact .same hx hr
      | set hf hnone hw hrel hx hr => exact .set hf hnone hw hrel hx hr

theorem pipelineRun_leftClean (opts : PipelineOptions) (hasPriceClient : Bool) (r : Ibcv2Transfer) :
    wp (focus r.key adm) (fun _ _ => True) (pipelineRun opts hasPriceClient r)
      (fun o s => ∀ t, o = some t → t.processingError = none → LeftClean opts hasPriceClient r t s)
      ⟨r, []⟩ := by
  refine (pipelineRun_returned.and (pipelineRun_noticed opts hasPriceClient r)).mono
    (fun _ _ _ => trivial) ?_
  rintro o s' ⟨hreturned, hnoticed⟩ t' ho ht'
  obtain ⟨t, s, h⟩ := hreturned t' ho
  exact h.leftClean ht' (hnoticed t' ho ht')

variable (h : LeftClean opts hasPriceClient r t s)
include h

/-- The write ack that the run went by is in the transfer. -/
theorem LeftClean.writeAck_of_writes {status : Ibcv2WriteAckStatus}
    (hw : WritesAck r s.trace status) :
    t.writeAckStatus = some status ∧ (t.writeAckTxHash = none → r.writeAckTxHash ≠ none) := by
  rw [WritesAck] at hw
  split at hw
  · obtain ⟨hash, ans, hm, hans⟩ := hw
    obtain ⟨hne, status', hans', hs⟩ := h.noticed _ hm
    rw [hans] at hans'
    exact ⟨Option.some.inj hans' ▸ hs, fun hnone => absurd hnone hne⟩
  · rename_i hne
    exact ⟨(h.writeAck hne).2.trans hw, fun _ => hne⟩

/-- The time is in the transfer, and not in its row. -/
theorem LeftClean.lost (hnot : ¬TimeStored opts r s.trace) :
    t.writeAckTxFinalizedTime ≠ none ∧ s.row.writeAckTxFinalizedTime = none := by
  obtain ⟨hfailed, hkey, hnone, status, hw, hrel⟩ : r.status ≠ .failed ∧ r.key ≠ ⟨"", "", 0⟩ ∧
      r.writeAckTxFinalizedTime = none ∧ ∃ status, WritesAck r s.trace status ∧
      opts.relays status = true := by
    simpa [TimeStored] using hnot
  obtain ⟨hstatus, hhash⟩ := h.writeAck_of_writes hw
  obtain ⟨hash, hhash⟩ : ∃ hash, t.writeAckTxHash = some hash := by
    refine Option.ne_none_iff_exists'.mp fun hn => ?_
    exact hhash hn ((h.writeAck (hhash hn)).1.symm.trans hn)
  refine ⟨h.finalized hfailed hash status hhash hstatus hrel, ?_⟩
  cases h.finality with
  | same _ hrow => exact hrow.trans hnone
  | set _ _ _ _ _ hrow => exact hrow.trans (if_neg hkey)

theorem LeftClean.time_stored (hstored : TimeStored opts r s.trace) :
    t.writeAckTxFinalizedTime = s.row.writeAckTxFinalizedTime := by
  cases h.finality with
  | same hx hrow => exact hx.trans hrow.symm
  | set hfailed hnone hw hrel _ hrow =>
    rcases hstored with hf | hkey | hne | hall
    · exact absurd hf hfailed
    · exact (hrow.trans (if_pos hkey)).symm
    · exact absurd hnone hne
    · exact absurd (hall _ hw) (by simpa [pipelineOf] using hrel)

theorem LeftClean.agrees_iff {offset : Query → Duration} {row' : Ibcv2Transfer}
    (hoffset : ∀ q, microsecond ∣ offset q)
    (ha : Alike offset r.key r (statements s.trace) s.row row') : Agrees t (newIBCV2Transfer row') ↔
      TimeStored opts r s.trace ∧ TimesKept offset r.key s.trace := by
  rw [h.stored.agrees_iff ha]
  constructor
  · rintro ⟨hfinal, htime⟩
    have hstored : TimeStored opts r s.trace := by
      by_contra hnot
      obtain ⟨hsome, hnone⟩ := h.lost hnot
      exact hsome (hfinal.trans ((ha.column .writeAckTxFinalized).of_none hnone))
    refine ⟨hstored, fun col => (ha.timeIn_eq_iff hoffset col).mp ?_⟩
    by_cases hcol : col = .writeAckTxFinalized
    · subst hcol
      exact (h.time_stored hstored).symm.trans hfinal
    · exact htime col hcol
  · rintro ⟨hstored, hkept⟩
    have htime (col : TimeColumn) : s.row.timeIn col = row'.timeIn col :=
      (ha.timeIn_eq_iff hoffset col).mpr (hkept col)
    exact ⟨(h.time_stored hstored).trans (htime .writeAckTxFinalized), fun col _ => htime col⟩

/-- Where the time is where it should be, no statement had the wrong key. -/
theorem LeftClean.no_key_missing (hstored : TimeStored opts r s.trace) {time : Option Time}
    {K : TransferKey} (hm : ⟨.exec ⟨.writeAckTxFinalizedTime time, K⟩, .ok ()⟩ ∈ s.trace) :
    K = r.key := by
  obtain ⟨hK, hnone, htime⟩ := h.noticed _ hm
  cases h.finality with
  | same hx _ => exact absurd (hx.trans hnone) htime
  | set hfailed _ hw hrel _ _ =>
    rcases hstored with hf | hkey | hne | hall
    · exact absurd hf hfailed
    · exact hK.trans hkey.symm
    · exact absurd hnone hne
    · exact absurd (hall _ hw) (by simpa [pipelineOf] using hrel)

end LeftClean

/-! ## The other rows -/

/-- The keys of the transfers that were collected into a batch. -/
def Event.companions : Event → List TransferKey
  | ⟨.collect _, b⟩ => (b.1.1 ++ b.1.2).map (·.key)
  | _ => []

def companions (tr : List Event) : List TransferKey := tr.flatMap Event.companions

/-- The calls so far wrote the row with the key `K` and those of its companions. -/
def Framed (K : TransferKey) (tr : List Event) : Prop :=
  ∀ e ∈ tr, e.call.WritesApart (K :: companions tr)

section Framed

variable {K : TransferKey} {new : List Event} {s : Focus}

theorem Framed.append (h : Framed K tr)
    (hnew : ∀ e ∈ new, e.call.WritesApart (K :: companions (new ++ tr))) :
    Framed K (new ++ tr) := by
  have hsub : companions tr ⊆ companions (new ++ tr) := by
    rw [companions, companions, List.flatMap_append]
    exact List.subset_append_right _ _
  exact List.forall_mem_append.mpr ⟨hnew, fun e he => (h e he).mono (List.cons_subset_cons _ hsub)⟩

/-- A program that writes the row only. -/
theorem Makes.framed {α : Type} {p : Relay α} (hp : Makes (focus K adm) (·.WritesApart [K]) p)
    (h : Framed K s.trace) :
    wp (focus K adm) (fun _ _ => True) p (fun _ s' => Framed K s'.trace) s := by
  refine ((hp s).traced (P := fun e => e.call.WritesApart [K]) fun _ _ _ hc => hc).mono
    (fun _ _ _ => trivial) ?_
  rintro _ s' ⟨-, new, htr, hnew⟩
  rw [htr]
  exact h.append fun e he => (hnew e he).mono (List.cons_subset_cons _ (List.nil_subset _))

/-- A batch has the keys of a transfer and its companions. -/
theorem batch_keys_subset {t : IBCV2Transfer} (b : Companions t) (hm : ⟨.collect t, b⟩ ∈ tr) :
    (b.1.1 ++ t :: b.1.2).map (·.key) ⊆ t.key :: companions tr := by
  intro K hK
  have hmem (hK : K ∈ (b.1.1 ++ b.1.2).map fun u : IBCV2Transfer => u.key) :
      K ∈ t.key :: companions tr :=
    List.mem_cons_of_mem _ (List.mem_flatMap.mpr ⟨_, hm, hK⟩)
  rw [List.map_append, List.map_cons] at hK
  rw [List.map_append] at hmem
  rcases List.mem_append.mp hK with hK | hK
  · exact hmem (List.mem_append_left _ hK)
  rcases List.mem_cons.mp hK with rfl | hK
  · exact List.mem_cons_self
  · exact hmem (List.mem_append_right _ hK)

theorem stage_framed (pl : Pipeline) (st : Stage) (t : IBCV2Transfer) (h : Framed t.key s.trace) :
    wp (focus t.key adm) (fun _ _ => True) (st.process pl t)
      (fun _ s' => Framed t.key s'.trace) s := by
  by_cases hst : ∃ k, st = batchStage k
  · obtain ⟨k, rfl⟩ := hst
    rw [Stage.process, batchStage_processor]
    have hforward : Makes (focus t.key adm) (·.WritesApart [t.key]) ((batchOf pl k).forward t) :=
      fun s => (forward_makes .ordinary t s).mono (fun _ _ hc => hc.toWritesApart)
        fun _ _ _ => trivial
    refine wp_bind.mpr ((hforward.framed h).post fun should s₁ h₁ => ?_)
    cases should with
    | false => exact h₁
    | true =>
    refine wp_bind.mpr ⟨trivial, fun b _ => wp_bind.mpr ?_⟩
    have hbatch : wp (focus t.key adm) _ ((batchOf pl k).processBatch t (b.1.1 ++ t :: b.1.2)) _
      ((focus t.key adm).next (.collect t) b s₁) := processBatch_makes .ordinary t _ _
    refine (hbatch.traced (P := fun e => e.call.WritesApart _) fun _ _ _ hc =>
      hc.toWritesApart).mono (fun _ _ _ => trivial) ?_
    rintro ⟨o, heap⟩ s' ⟨-, new, htr, hnew⟩
    -- The calls of the batch come after the one that collected it.
    have hframed : Framed t.key s'.trace := by
      have hcollect : ⟨.collect t, b⟩ ∈ s'.trace := htr ▸ List.mem_append_right _ List.mem_cons_self
      have htr' : s'.trace = (new ++ [⟨.collect t, b⟩]) ++ s₁.trace := by simpa [focus] using htr
      rw [htr']
      refine h₁.append fun e he => ?_
      rw [← htr']
      rcases List.mem_append.mp he with he | he
      · exact (hnew e he).mono (batch_keys_subset b hcollect)
      · rw [List.mem_singleton.mp he]
        exact .read rfl rfl
    cases o <;> exact hframed
  · exact (process_makes (fun k hk => hst ⟨k, hk⟩) t).framed h

theorem runStages_framed {stages : List Stage} {t : IBCV2Transfer} (hK : t.key = K)
    (h : Framed K s.trace) :
    wp (focus K adm) (fun _ _ => True) (runStages pl stages t) (fun _ s' => Framed K s'.trace) s :=
  wp_runStages (I := fun _ s => Framed K s.trace) (fun st t _ hK h =>
    hK ▸ stage_framed pl st t (hK ▸ h)) (fun _ _ _ _ _ _ _ h => h) (fun _ _ h => h) hK h

end Framed

/-! ## The table -/

theorem row?_execAll_of_ne {K : TransferKey} (qs : List Query) (db : Transfers)
    (h : ∀ q ∈ qs, q.key ≠ K) : (execAll qs db).row? K = db.row? K := by
  induction qs generalizing db with
  | nil => rfl
  | cons q qs ih =>
    obtain ⟨hq, hqs⟩ := List.forall_mem_cons.mp h
    exact (ih (q.exec db) hqs).trans ((row?_exec q db K).trans (if_neg hq.symm))

section Table

variable {offset : Query → Duration}

theorem trace_suffix {α : Type} {p p' : Relay α} {w w' : World}
    (h : Steps (inColumns offset) p w p' w') : w.trace <:+ w'.trace := by
  induction h with
  | refl => exact List.suffix_rfl
  | call _ _ _ ih => exact (List.suffix_cons _ _).trans ih

/-- A row that no statement was for is as it was. -/
theorem row_unchanged {α : Type} {p p' : Relay α} {w w' : World} {K : TransferKey}
    (h : Steps (inColumns offset) p w p' w')
    (hK : ∀ e ∈ w'.trace, ∀ q ∈ e.call.done e.ans, q.key ≠ K) : w'.db.row? K = w.db.row? K := by
  induction h with
  | refl => rfl
  | call ans _ hrest ih =>
    have hm := (trace_suffix hrest).subset List.mem_cons_self
    refine (ih hK).trans (row?_execAll_of_ne _ _ fun q hq => ?_)
    obtain ⟨q₀, hq₀, rfl⟩ := List.mem_map.mp hq
    exact hK _ hm q₀ hq₀

/-- After a run on the row `r` of `db`: the row, if it is read again, has the
progress of the transfer, and the rows of other transfers are as they were. -/
structure Persisted (r : Ibcv2Transfer) (db : Transfers) (t : IBCV2Transfer)
    (w : World) : Prop where
  row : ∃ r', w.db.row? r.key = some r' ∧ Agrees t (newIBCV2Transfer r')
  others (K : TransferKey) : K ≠ r.key → K ∉ companions w.trace → w.db.row? K = db.row? K

/-- The offset of a location is a number of seconds. -/
theorem persisted_iff {opts : PipelineOptions} {hasPriceClient : Bool} {db : Transfers}
    {t : IBCV2Transfer} {w : World} (hoffset : ∀ q, second ∣ offset q) (hr : db.row? r.key = some r)
    (h : Steps (inColumns offset) (pipelineRun opts hasPriceClient r) ⟨db, []⟩ (.ret (some t)) w)
    (ht : t.processingError = none) :
    Persisted r db t w ↔ TimeStored opts r w.trace ∧ TimesKept offset r.key w.trace := by
  obtain ⟨s, row', hrow, htr, halike, hclean, hframed⟩ :=
    (wp_inColumns (((pipelineRun_leftClean opts hasPriceClient r).and
      (runStages_framed rfl fun _ h => absurd h List.not_mem_nil)).mono (fun _ _ _ => trivial)
      fun _ _ h => h)
      hr).returned h
  have hclean := hclean t rfl ht
  have hoffset (q : Query) : microsecond ∣ offset q := Int.dvd_trans (by decide) (hoffset q)
  rw [htr, ← hclean.agrees_iff hoffset halike]
  constructor
  · rintro ⟨⟨r', hr', hagrees⟩, -⟩
    rw [hrow] at hr'
    exact Option.some.inj hr' ▸ hagrees
  · intro hagrees
    refine ⟨⟨row', hrow, hagrees⟩, fun K hK hc => row_unchanged h fun e he q hq hqK => ?_⟩
    rw [htr] at he hc
    have hqueries : q ∈ e.call.queries := by
      rcases e.call.done_eq e.ans with hd | hd <;> rw [hd] at hq
      · exact absurd hq List.not_mem_nil
      · exact hq
    have hother : q.key ∉ r.key :: companions s.trace := by
      rw [hqK]
      exact List.not_mem_cons_of_ne_of_not_mem hK hc
    rcases (hframed e he).queries q hqueries with hm | ⟨time, hset⟩
    · exact hother hm
    · -- The update that fills in no key.
      have hcall := ((hframed e he).apart q hqueries).resolve_left hother
      obtain ⟨c, ans⟩ := e
      obtain rfl : c = .exec q := hcall
      obtain ⟨set, key⟩ := q
      obtain rfl : set = _ := hset
      cases ans with
      | error => exact absurd hq List.not_mem_nil
      | ok => exact hK (hqK.symm.trans
        (hclean.no_key_missing ((hclean.agrees_iff hoffset halike).mp hagrees).1 he))

end Table

/-! ## Two runs -/

/-- On a server in UTC. -/
def inUTC : Query → Duration := fun _ => 0

/-- The first `n` calls of a run on a row of a table. -/
def Answers.runIn (a : Answers) (opts : PipelineOptions) (r : Ibcv2Transfer) (db : Transfers)
    (n : Nat) : Relay (Option IBCV2Transfer) × World :=
  runN (inColumns inUTC).next (fun c _ => a.answer c) n (pipelineRun opts false r) ⟨db, []⟩

theorem Answers.returnedIn (a : Answers) (opts : PipelineOptions) (r : Ibcv2Transfer)
    (db : Transfers) (n : Nat)
    (P : IBCV2Transfer → Prop) [DecidablePred P]
    (h : (a.runIn opts r db n).1.result?.join.any P = true) :
    ∃ t, Steps (inColumns inUTC) (pipelineRun opts false r) ⟨db, []⟩ (.ret (some t))
      (a.runIn opts r db n).2 ∧ P t := by
  obtain ⟨t, ht, hP⟩ := (Option.any_eq_true _ _).mp h
  have hs := steps_runN (S := inColumns inUTC) (ω := fun c _ => a.answer c) (fun _ _ => trivial) n
    (pipelineRun opts false r) ⟨db, []⟩
  rw [show (runN (inColumns inUTC).next _ n _ _).1 = _ from result?_eq_some
    (Option.join_eq_some_iff.mp ht)] at hs
  exact ⟨t, hs, of_decide_eq_true hP⟩

/-- Every call of a run was answered by `a`. -/
theorem Answers.answered {α : Type} (a : Answers) (n : Nat) (p : Relay α) (w : World) :
    ∀ e ∈ (runN (inColumns inUTC).next (fun c _ => a.answer c) n p w).2.trace,
      e ∈ w.trace ∨ e.ans = a.answer e.call := by
  induction n generalizing p w with
  | zero => exact fun e he => .inl he
  | succ n ih =>
    cases p with
    | ret => exact fun e he => .inl he
    | call c k =>
      intro e he
      rcases ih _ _ e he with he | he
      · rcases List.mem_cons.mp he with rfl | he
        · exact .inr rfl
        · exact .inl he
      · exact .inr he

theorem Answers.storageSucceeds (a : Answers) (opts : PipelineOptions) (r : Ibcv2Transfer)
    (db : Transfers) (n : Nat) :
    ∀ e ∈ (a.runIn opts r db n).2.trace, e.call.StorageSucceeds e.ans := by
  intro e he
  rcases a.answered n _ _ e he with hm | hans
  · exact absurd hm List.not_mem_nil
  · obtain ⟨c, ans⟩ := e
    obtain rfl : ans = a.answer c := hans
    cases c <;> first | rfl | trivial

/-- No ack is relayed, so none has to be final. -/
def noAcks : PipelineOptions := { shouldRelaySuccessAcks := false, shouldRelayErrorAcks := false }

/-- The tx is delivered at two microseconds. -/
def wholeMicroseconds : Answers := { delivered := ⟨"d0", 2 * microsecond, "relayer"⟩ }

theorem persisted_without_acks : ∃ t w, t.processingError = none ∧
    Persisted (insertedRow somePacket) oneRow t w := by
  obtain ⟨t, hs, ht⟩ := wholeMicroseconds.returnedIn noAcks (insertedRow somePacket) oneRow 100
    (·.processingError = none) (by decide +kernel)
  have hkept : TimesKept inUTC (insertedRow somePacket).key
      (wholeMicroseconds.runIn noAcks (insertedRow somePacket) oneRow 100).2.trace :=
    .of_stored (fun _ => Int.dvd_zero _) (by decide +kernel)
  refine ⟨t, _, ht, (persisted_iff (fun _ => Int.dvd_zero _) (by decide +kernel) hs ht).mpr
    ⟨.inr (.inr (.inr fun status _ => ?_)), hkept⟩⟩
  cases status <;> rfl

/-- A packet that is received and acknowledged on a server in UTC, where every time comes back: the
transfer has the time its write ack was final at, and its row has none. -/
theorem not_persisted : ∃ t w r',
    Steps (inColumns inUTC) (pipelineRun someOptions false (insertedRow somePacket))
      ⟨oneRow, []⟩ (.ret (some t)) w ∧
    (∀ e ∈ w.trace, e.call.StorageSucceeds e.ans) ∧
    TimesKept inUTC (insertedRow somePacket).key w.trace ∧
    t.processingError = none ∧ w.db.row? (insertedRow somePacket).key = some r' ∧
    t.writeAckTxFinalizedTime = some 0 ∧ (newIBCV2Transfer r').writeAckTxFinalizedTime = none := by
  obtain ⟨t, hs, ht, htime⟩ := wholeMicroseconds.returnedIn someOptions (insertedRow somePacket)
    oneRow 100 (fun t => t.processingError = none ∧ t.writeAckTxFinalizedTime = some 0)
    (by decide +kernel)
  have hrow : ((wholeMicroseconds.runIn someOptions (insertedRow somePacket) oneRow 100).2.db.row?
      (insertedRow somePacket).key).any
    (fun r' => (newIBCV2Transfer r').writeAckTxFinalizedTime = none) = true := by
    decide +kernel
  obtain ⟨r', hr', hnone⟩ := (Option.any_eq_true _ _).mp hrow
  exact ⟨t, _, r', hs, wholeMicroseconds.storageSucceeds _ _ _ 100,
    .of_stored (fun _ => Int.dvd_zero _) (by decide +kernel), ht, hr', htime,
    of_decide_eq_true hnone⟩

end PlatformRelayer

import PlatformRelayer.Db.Columns
import PlatformRelayer.Ibcv2.Calls

/-!
# A row with the times that its columns keep

The programs of `Ibcv2` are told nothing of what is in the table, so a run goes
the same way whatever the columns keep of its times (`inColumns`). What differs is
the row: in each column for a time it has what the column kept of the last time
that was written to it (`Alike`), where the row of `focus` has that time itself.
The two agree if each of these comes back from its column, and only then
(`Alike.timeIn_eq_iff`).
-/

namespace PlatformRelayer

open Db Prog

/-- The calls as the whole table sees them, with any answers, where the times of the
statements were made in locations with these offsets. -/
def inColumns (offset : Query → Duration) : Sem Call Call.Ans World where
  adm _ _ _ := True
  next c a w := ⟨execAll ((c.done a).map (·.stored offset)) w.db, ⟨c, a⟩ :: w.trace⟩

/-- The statements that took effect, the last one first. -/
def statements (tr : List Event) : List Query := tr.flatMap fun e => (e.call.done e.ans).reverse

/-- The last of the statements that wrote a column of the row with the key `K`. -/
def lastWrite (K : TransferKey) (qs : List Query) (col : TimeColumn) : Option Query :=
  qs.find? fun q => decide (q.key = K) && (q.set.sets col).isSome

/-- A time comes back from a column: it was made at UTC and is a number of microseconds. -/
def TimeKept (offset : Query → Duration) (q : Query) (col : TimeColumn) : Prop :=
  ∀ time, q.set.sets col = some (some time) → offset q = 0 ∧ microsecond ∣ time

/-- Of each column of the row with the key `K`, the last time that was written to it comes back. -/
def TimesKept (offset : Query → Duration) (K : TransferKey) (tr : List Event) : Prop :=
  ∀ col q, lastWrite K (statements tr) col = some q → TimeKept offset q col

/-- A column of the row after these statements, which was `r` before, and of the row that the
table has. -/
inductive ColumnAlike (offset : Query → Duration) (K : TransferKey) (r : Ibcv2Transfer)
    (qs : List Query) (row row' : Ibcv2Transfer) (col : TimeColumn) : Prop where
  | unwritten : lastWrite K qs col = none → row.timeIn col = r.timeIn col →
    row'.timeIn col = r.timeIn col → ColumnAlike offset K r qs row row' col
  | written {q : Query} : lastWrite K qs col = some q → q.set.sets col = some (row.timeIn col) →
    row'.timeIn col = (row.timeIn col).map (fun time => (GoTime.mk time (offset q)).column) →
    ColumnAlike offset K r qs row row' col

/-- The row after these statements, which was `r` before, and the row that the table has. -/
structure Alike (offset : Query → Duration) (K : TransferKey) (r : Ibcv2Transfer) (qs : List Query)
    (row row' : Ibcv2Transfer) : Prop where
  status : row'.status = row.status
  hash (k : TxKind) : (row'.tx k).hash = (row.tx k).hash
  writeAckTxHash : row'.writeAckTxHash = row.writeAckTxHash
  writeAckStatus : row'.writeAckStatus = row.writeAckStatus
  column (col : TimeColumn) : ColumnAlike offset K r qs row row' col

variable {offset : Query → Duration} {K : TransferKey} {r row row' : Ibcv2Transfer}
  {qs : List Query} {q : Query}
  {col : TimeColumn}

theorem lastWrite_cons_of_sets (hq : q.key = K) (h : (q.set.sets col).isSome = true) :
    lastWrite K (q :: qs) col = some q := by
  simp [lastWrite, hq, h]

theorem lastWrite_cons_of_not_sets (h : q.key = K → q.set.sets col = none) :
    lastWrite K (q :: qs) col = lastWrite K qs col := by
  refine List.find?_cons_of_neg fun hq => ?_
  obtain ⟨hq, hs⟩ : q.key = K ∧ (q.set.sets col).isSome = true := by simpa using hq
  rw [h hq] at hs
  cases hs

/-- A statement that does not write the column. -/
theorem ColumnAlike.skip {row₁ row₁' : Ibcv2Transfer} (h : ColumnAlike offset K r qs row row' col)
    (hq : q.key = K → q.set.sets col = none) (h₁ : row₁.timeIn col = row.timeIn col)
    (h₁' : row₁'.timeIn col = row'.timeIn col) :
    ColumnAlike offset K r (q :: qs) row₁ row₁' col := by
  have hlast : lastWrite K (q :: qs) col = lastWrite K qs col := lastWrite_cons_of_not_sets hq
  cases h with
  | unwritten hnone hrow hrow' =>
    exact .unwritten (hlast.trans hnone) (h₁.trans hrow) (h₁'.trans hrow')
  | written hsome hrow hrow' =>
    exact .written (hlast.trans hsome) (h₁ ▸ hrow) (by rw [h₁', h₁, hrow'])

theorem ColumnAlike.of_none (h : ColumnAlike offset K r qs row row' col)
    (hnone : row.timeIn col = none) : row'.timeIn col = none := by
  cases h with
  | unwritten _ hrow hrow' => exact hrow'.trans (hrow.symm.trans hnone)
  | written _ _ hrow' => rw [hrow', hnone]; rfl

namespace Alike

theorem refl (offset : Query → Duration) (K : TransferKey)
    (r : Ibcv2Transfer) : Alike offset K r [] r r :=
  ⟨rfl, fun _ => rfl, rfl, rfl, fun _ => .unwritten rfl rfl rfl⟩

/-- A statement on the row. -/
theorem apply (h : Alike offset K r qs row row') (hq : q.key = K) :
    Alike offset K r (q :: qs) (q.set.apply row) ((q.stored offset).set.apply row') where
  status := by
    obtain ⟨set, _⟩ := q
    cases set <;> simp [Query.stored, SetClause.mapTime, SetClause.apply, h.status]
  hash j := by
    obtain ⟨set, _⟩ := q
    have hj := h.hash j
    cases set with
    | tx k =>
      simp only [Query.stored, SetClause.mapTime, SetClause.apply, Ibcv2Transfer.tx_setTx]
      split <;> first | rfl | exact hj
    | clearTx k =>
      simp only [Query.stored, SetClause.mapTime, SetClause.apply, Ibcv2Transfer.tx_setTx]
      split <;> first | rfl | exact hj
    | txGasCostUSD k =>
      simp only [Query.stored, SetClause.mapTime, SetClause.apply, Ibcv2Transfer.tx_setTx]
      split
      · rename_i hjk
        exact hjk ▸ hj
      · exact hj
    | _ => cases j <;> exact hj
  writeAckTxHash := by
    obtain ⟨set, _⟩ := q
    cases set <;> simp [Query.stored, SetClause.mapTime, SetClause.apply, h.writeAckTxHash]
  writeAckStatus := by
    obtain ⟨set, _⟩ := q
    cases set <;> simp [Query.stored, SetClause.mapTime, SetClause.apply, h.writeAckStatus]
  column col := by
    have hrow := q.set.timeIn_apply row col
    have hrow' := (q.stored offset).set.timeIn_apply row' col
    rw [Query.stored, SetClause.sets_mapTime] at hrow'
    cases hset : q.set.sets col with
    | none =>
      rw [hset] at hrow hrow'
      exact (h.column col).skip (fun _ => hset) hrow hrow'
    | some time =>
      rw [hset] at hrow hrow'
      refine .written (lastWrite_cons_of_sets hq (by rw [hset]; rfl)) ?_ ?_
      · rw [hset, hrow]
        rfl
      · rw [hrow]
        exact hrow'

theorem step (h : Alike offset K r qs row row') (q : Query) :
    Alike offset K r (q :: qs) (q.on K row) ((q.stored offset).on K row') := by
  by_cases hq : q.key = K
  · rw [Query.on, Query.on, if_pos hq, if_pos (show (q.stored offset).key = K from hq)]
    exact h.apply hq
  · rw [Query.on, Query.on, if_neg hq, if_neg (show (q.stored offset).key ≠ K from hq)]
    exact ⟨h.status, h.hash, h.writeAckTxHash, h.writeAckStatus,
      fun col => (h.column col).skip (fun hK => absurd hK hq) rfl rfl⟩

theorem steps (h : Alike offset K r qs row row') (new : List Query) :
    Alike offset K r (new.reverse ++ qs) (new.foldl (Query.on K) row)
      ((new.map (·.stored offset)).foldl (Query.on K) row') := by
  induction new generalizing qs row row' with
  | nil => exact h
  | cons q new ih => simpa using ih (h.step q)

/-- A column has the time that was written if that came back, or if none was written. -/
theorem timeIn_eq_iff (h : Alike offset K r qs row row') (hoffset : ∀ q, microsecond ∣ offset q)
    (col : TimeColumn) : row.timeIn col = row'.timeIn col ↔
      ∀ q, lastWrite K qs col = some q → TimeKept offset q col := by
  cases h.column col with
  | unwritten hnone hrow hrow' => simp [hnone, hrow, hrow']
  | @written q hsome hrow hrow' =>
    rw [hsome, hrow']
    have hkept (time : Time) := column_eq_instant_iff (t := ⟨time, offset q⟩) (hoffset q)
    cases htime : row.timeIn col with
    | none => simp [TimeKept, hrow, htime]
    | some time => simp [TimeKept, hrow, htime, eq_comm (a := time), hkept]

end Alike

/-- Where a statement is carried out as it is, its time comes back. -/
theorem TimesKept.of_stored {tr : List Event} (hoffset : ∀ q, microsecond ∣ offset q)
    (h : ∀ q ∈ statements tr, q.stored offset = q) : TimesKept offset K tr := by
  intro col q hq time htime
  have hset : (q.stored offset).set.sets col = q.set.sets col := by
    rw [h q (List.mem_of_find?_eq_some hq)]
  rw [Query.stored, SetClause.sets_mapTime, htime] at hset
  exact (column_eq_instant_iff (hoffset q)).mp (Option.some.inj (Option.some.inj hset))

/-- A run on a row of the table is one on the row alone, whatever the columns keep. -/
theorem wp_inColumns {α : Type} {p : Relay α} {Q : α → Focus → Prop} {db : Transfers}
    (h : wp (focus K anyAnswer) (fun _ _ => True) p Q ⟨r, []⟩) (hr : db.row? K = some r) :
    wp (inColumns offset) (fun _ _ => True) p (fun a w => ∃ (s : Focus) (row' : Ibcv2Transfer),
      w.db.row? K = some row' ∧ w.trace = s.trace ∧
      Alike offset K r (statements s.trace) s.row row' ∧ Q a s) ⟨db, []⟩ := by
  refine h.simulate (fun (s : Focus) (w : World) => w.trace = s.trace ∧
    ∃ row', w.db.row? K = some row' ∧
      Alike offset K r (statements s.trace) s.row row') (fun c ans s w hw _ => ?_)
    (fun _ _ _ _ _ => trivial) (fun a s w hw hQ => ?_) ⟨rfl, r, hr, .refl offset K r⟩
  · obtain ⟨htr, row', hrow, halike⟩ := hw
    refine ⟨trivial, congrArg (List.cons _) htr, _, row?_execAll_on _ hrow, ?_⟩
    exact halike.steps (c.done ans)
  · obtain ⟨htr, row', hrow, halike⟩ := hw
    exact ⟨s, row', hrow, htr, halike, hQ⟩

end PlatformRelayer

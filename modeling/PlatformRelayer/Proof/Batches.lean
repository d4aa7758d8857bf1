import PlatformRelayer.Proof.Stages

/-!
# What the batch stages do

A batch stage is followed from one transfer of the batch, the one with pointer
`i`: what becomes of it and of its row does not depend on the others, whose
rows are other ones. `route_spec` is the loop of the middleware, `gather_spec`
the loop that makes the request, and `batch_spec` the whole stage.
-/

namespace PlatformRelayer

open Db Prog

variable {pl : Pipeline} {k : TxKind} {adm : (c : Call) → c.Ans → Focus → Prop} {K : TransferKey}

/-- The processor of the stage that delivers txs of a kind. -/
def batchOf (pl : Pipeline) : TxKind → BatchPacket
  | .recv => batchRecvPacket pl.key
  | .ack => batchAckPacket pl.key pl.opts.shouldRelaySuccessAcks pl.opts.shouldRelayErrorAcks
  | .timeout => batchTimeoutPacket pl.key

theorem batchStage_processor (pl : Pipeline) (k : TxKind) :
    (batchStage k).processor pl = .batch (batchOf pl k) := by cases k <;> rfl

@[simp] theorem batchOf_kind (pl : Pipeline) (k : TxKind) : (batchOf pl k).kind = k := by
    cases k <;> rfl

theorem batchOf_state (pl : Pipeline) (k : TxKind) : (batchOf pl k).state.isFinished = false := by
  cases k <;> rfl

theorem batchOf_record (pl : Pipeline)
    (k : TxKind) : (batchOf pl k).record = IBCV2Transfer.record k := by
  cases k <;> rfl

theorem packetSequences_request (pl : Pipeline) (k : TxKind) (ids : List (List UInt8))
    (seqs : List UInt64) : ((batchOf pl k).request ids seqs).packetSequences = seqs := by
  cases k
  · exact List.append_nil _
  · rfl
  · rfl

/-- The ack guard, as the flags say it. -/
theorem relays_of_ack_guard {o : PipelineOptions} {status : Ibcv2WriteAckStatus}
    (h : ¬((isErrorAck status && !o.shouldRelayErrorAcks) ||
      (isSuccessAck status && !o.shouldRelaySuccessAcks)) = true) :
    o.relays status = true := by
  cases status <;> simpa [PipelineOptions.relays, isErrorAck, isSuccessAck] using h

/-- The guard reads the clock at most. -/
theorem shouldProcess_eq (pl : Pipeline) (k : TxKind) (u : IBCV2Transfer) :
    (∃ should, (batchOf pl k).shouldProcess u = .ret should) ∨
      ∃ (reader : ClockReader) (f : Time → Bool),
        (batchOf pl k).shouldProcess u = .call (.now reader) fun now => .ret (f now) := by
  cases k with
  | recv =>
    by_cases hr : u.has .recv = true
    · exact .inl ⟨false, if_pos hr⟩
    · exact .inr ⟨_, _, if_neg hr⟩
  | ack => exact .inl ⟨_, rfl⟩
  | timeout => exact .inr ⟨_, _, rfl⟩

theorem batchStage_fact {t : IBCV2Transfer} (h : t.has k = true)
    (tr : List Event) : (batchStage k).Fact pl t tr := by
  cases k with
  | recv => exact fun hr => absurd (hr.symm.trans h) (by simp)
  | ack => exact fun _ _ _ _ _ hk => absurd (hk.symm.trans h) (by simp)
  | timeout => exact fun _ _ ht => absurd (ht.symm.trans h) (by simp)

/-- Where it lets a transfer in, it says what `BatchGuard` does, and where it
does not, the transfer has the fact of the stage. -/
theorem shouldProcess_spec (u : IBCV2Transfer) (s : Focus) :
    wp (focus K adm) (fun c s' => Quiet c ∧ s'.row = s.row ∧ s.trace <:+ s'.trace)
      ((batchOf pl k).shouldProcess u)
      (fun should s' => s'.row = s.row ∧ s.trace <:+ s'.trace ∧
        (should = true → BatchGuard pl k u s.trace s'.trace) ∧
        (should = false → (batchStage k).Fact pl u s'.trace)) s := by
  cases k with
  | recv =>
    change wp _ _ (if u.has .recv then _ else _) _ _
    split
    · rename_i hr
      exact ⟨rfl, List.suffix_rfl, by simp, fun _ => batchStage_fact hr _⟩
    rename_i hr
    refine ⟨⟨trivial, rfl, List.suffix_rfl⟩, fun now _ =>
      ⟨rfl, List.suffix_cons _ _, fun h => ?_, fun h _ => ?_⟩⟩
    · have hnow : now ≤ u.packetTimeoutTimestamp := by simpa using h
      exact ⟨Bool.eq_false_iff.mpr hr, fun _ =>
        ⟨now, ⟨[_], rfl, List.mem_cons_self⟩, hnow⟩, by simp⟩
    · have hnow : u.packetTimeoutTimestamp < now := by simpa using h
      exact ⟨now, List.mem_cons_self, hnow⟩
  | ack =>
    refine ⟨rfl, List.suffix_rfl, fun h => ?_, fun h hash status hhash hs hrel hk => ?_⟩
    · split at h
      · cases h
      rename_i hw
      split at h
      · cases h
      rename_i status hs
      split at h
      · cases h
      rename_i hrel
      obtain ⟨hash, hhash⟩ := Option.ne_none_iff_exists'.mp (by simpa using hw)
      simp only [Bool.and_eq_true, Bool.not_eq_true'] at h
      exact ⟨⟨⟨hash, status, hhash, hs, relays_of_ack_guard hrel⟩, h⟩, by simp, by simp⟩
    · have hguard : ((isErrorAck status && !pl.opts.shouldRelayErrorAcks) ||
          (isSuccessAck status && !pl.opts.shouldRelaySuccessAcks)) = false := by
        cases status <;> simpa [PipelineOptions.relays, isErrorAck, isSuccessAck] using hrel
      simpa [hhash, hs, hguard, hk] using h
  | timeout =>
    refine ⟨⟨trivial, rfl, List.suffix_rfl⟩, fun now _ =>
      ⟨rfl, List.suffix_cons _ _, fun h => ?_, fun h hr hk ht => ?_⟩⟩
    · simp only [Bool.and_eq_true, Bool.not_eq_true', decide_eq_true_eq] at h
      exact ⟨⟨h.1.1.2, h.1.2, h.2⟩,
        by simp, fun _ => ⟨now, ⟨[_], rfl, List.mem_cons_self⟩, h.1.1.1⟩⟩
    · have hnow : now ≤ u.packetTimeoutTimestamp := by simpa [hr, hk, ht] using h
      exact ⟨now, List.mem_cons_self, hnow⟩

/-! ## The loop of the middleware -/

/-- Where the transfer with pointer `i` is in the loop: not handed to the
processor, or handed to it, with an error if its state could not be
written. -/
inductive Routing (pl : Pipeline) (k : TxKind) (t : IBCV2Transfer) (s : Focus) (i : Ref)
    (a : Routed) (s' : Focus) : Prop where
  | waiting : i ∉ a.toProcess → a.heap i = t → s'.row = s.row → s.trace <:+ s'.trace →
    Routing pl k t s i a s'
  | handed (state err) : i ∈ a.toProcess → t.Active → BatchGuard pl k t s.trace s'.trace →
    a.heap i = { t with state := state, processingError := err } → state ≠ .failed →
    Reaches pl (batchStage k) t s (a.heap i) s' → s'.row.tx k = s.row.tx k → Routing pl k t s i a s'

variable {t : IBCV2Transfer} {s s₁ s₂ : Focus} {i : Ref} {a b : Routed}

theorem Routing.reaches (h : Routing pl k t s i a s₁) :
    Reaches pl (batchStage k) t s (a.heap i) s₁ := by
  cases h with
  | waiting _ hi hrow htr => exact hi ▸ ⟨htr, by rw [hrow]⟩
  | handed _ _ _ _ _ _ _ hr => exact hr

theorem Routing.handed_to (h : Routing pl k t s i a s₁) (hi : i ∈ a.toProcess) :
    Handed pl k t s (a.heap i) s₁ ∧ (a.heap i).state ≠ .failed := by
  cases h with
  | waiting hn => exact absurd hi hn
  | handed state err _ ha hg he hs _ hrow => exact ⟨⟨ha, hg, ⟨state, err, he⟩, hrow⟩, he ▸ hs⟩

theorem BatchGuard.mono {tr₀ tr tr' : List Event} (h : tr <:+ tr') (hg : BatchGuard pl k t tr₀ tr) :
    BatchGuard pl k t tr₀ tr' where
  deliverable := hg.deliverable
  recv_clock hk := (hg.recv_clock hk).imp fun _ hn => ⟨hn.1.mono h, hn.2⟩
  timeout_clock hk := (hg.timeout_clock hk).imp fun _ hn => ⟨hn.1.mono h, hn.2⟩

theorem BatchGuard.earlier {tr₀ tr₁ tr : List Event} (h : tr₁ <:+ tr₀)
    (hg : BatchGuard pl k t tr₀ tr) : BatchGuard pl k t tr₁ tr where
  deliverable := hg.deliverable
  recv_clock hk := (hg.recv_clock hk).imp fun _ hn => ⟨hn.1.earlier h, hn.2⟩
  timeout_clock hk := (hg.timeout_clock hk).imp fun _ hn => ⟨hn.1.earlier h, hn.2⟩

/-- A step of the loop with another transfer. -/
theorem Routing.other (h : Routing pl k t s i a s₁) (hi : i ∈ b.toProcess ↔ i ∈ a.toProcess)
    (hheap : b.heap i = a.heap i) (hrow : s₂.row = s₁.row) (htr : s₁.trace <:+ s₂.trace) :
    Routing pl k t s i b s₂ := by
  cases h with
  | waiting hn ht hrow' htr' =>
    exact .waiting (mt hi.mp hn) (hheap.trans ht) (hrow.trans hrow') (htr'.trans htr)
  | handed state err hm ha hg he hs hr hk =>
    exact .handed state err (hi.mpr hm) ha (hg.mono htr) (hheap.trans he) hs
      (hheap ▸ hr.trans ⟨htr, by rw [hrow]⟩) (hrow ▸ hk)

theorem packet_updated (a : Routed) (r j : Ref) (state : Ibcv2RelayStatus) (ans : Except Err Unit) :
    ((a.updated r state ans).heap j).packet = (a.heap j).packet := by
  by_cases hj : j = r
  · subst hj
    cases ans with
    | error err => rw [a.heap_updated_error]; rfl
    | ok u => rw [a.heap_updated_ok]; rfl
  · rw [a.heap_updated_of_ne state ans hj]

/-- An update of another row, whatever its answer. -/
theorem effectOn_exec_of_ne {q : Query} (hq : q.key ≠ K) (a : Except Err Unit) (r : Ibcv2Transfer) :
    Call.effectOn K (.exec q) a r = r := by
  cases a with
  | error _ => rfl
  | ok _ => exact if_neg hq

/-- Where the loop is: `rest` is left of the batch. -/
structure Routed.Along (batch : List Ref) (h : Heap) (rest : List Ref) (a : Routed) : Prop where
  packet (r : Ref) : (a.heap r).packet = (h r).packet
  sublist : ∃ done, batch = done ++ rest ∧ a.toProcess.Sublist done ∧ a.notProcessing ⊆ done

def Routed.Inv (pl : Pipeline) (k : TxKind) (t : IBCV2Transfer) (s : Focus) (i : Ref)
    (batch : List Ref) (h : Heap) (rest : List Ref) (a : Routed) (s' : Focus) : Prop :=
  Routing pl k t s i a s' ∧ a.Along batch h rest

/-- Once the loop has come to the transfer, it is handed to the processor or has
the fact of the stage. -/
structure Routed.Told (pl : Pipeline) (k : TxKind) (t : IBCV2Transfer) (s : Focus) (i : Ref)
    (batch : List Ref) (h : Heap) (rest : List Ref) (a : Routed) (s' : Focus) : Prop where
  inv : Routed.Inv pl k t s i batch h rest a s'
  fact : i ∉ rest → i ∉ a.toProcess → t.Active → (batchStage k).Fact pl t s'.trace

section Route

variable {batch rest : List Ref} {h : Heap} {r : Ref}

theorem Routed.Along.start (batch : List Ref)
    (h : Heap) : Routed.Along batch h batch { heap := h } :=
  ⟨fun _ => rfl, [], rfl, .slnil, List.nil_subset _⟩

theorem Routed.Along.skip (ha : a.Along batch h (r :: rest)) : (a.skip r).Along batch h rest := by
  obtain ⟨hp, done, hb, hl, hn⟩ := ha
  refine ⟨hp, done ++ [r], by simp [hb], hl.trans (List.sublist_append_left _ _), ?_⟩
  exact List.append_subset.mpr ⟨List.Subset.trans hn (List.subset_append_left _ _),
    List.subset_append_right _ _⟩

theorem Routed.Along.updated (ha : a.Along batch h (r :: rest)) (state : Ibcv2RelayStatus)
    (ans : Except Err Unit) : (a.updated r state ans).Along batch h rest := by
  obtain ⟨hp, done, hb, hl, hn⟩ := ha
  have hn' : a.notProcessing ⊆ done ++ [r] := List.Subset.trans hn (List.subset_append_left _ _)
  refine ⟨fun j => (packet_updated a r j state ans).trans (hp j), done ++ [r], by simp [hb], ?_, ?_⟩
  · rw [a.toProcess_updated]
    exact hl.append (List.Sublist.refl _)
  · cases ans with
    | error err => exact List.append_subset.mpr ⟨hn', List.subset_append_right _ _⟩
    | ok _ => exact hn'

theorem Routed.Along.mem (ha : a.Along batch h (r :: rest)) : r ∈ batch := by
  obtain ⟨done, rfl, -⟩ := ha.sublist
  simp

theorem Routed.Along.not_mem (ha : a.Along batch h (r :: rest))
    (hnd : batch.Nodup) : r ∉ a.toProcess := by
  obtain ⟨done, rfl, hl, -⟩ := ha.sublist
  exact fun hr => (List.nodup_append'.mp hnd).2.2 (hl.subset hr) List.mem_cons_self

theorem Routed.Along.key (ha : a.Along batch h rest) (r : Ref) : (a.heap r).key = (h r).key :=
  congrArg Packet.key (ha.packet r)

theorem Routed.Along.sequence (ha : a.Along batch h rest)
    (r : Ref) : (a.heap r).sequence = (h r).sequence :=
  congrArg (fun p => p.sequenceNumber.toUInt64) (ha.packet r)

/-- What the loop leaves: some of the batch to process, and nothing but it. -/
theorem Routed.Along.done (ha : a.Along batch h []) : a.toProcess.Sublist batch ∧
    a.notProcessing ⊆ batch := by
  obtain ⟨done, hb, hl, hn⟩ := ha.sublist
  rw [List.append_nil] at hb
  exact hb ▸ ⟨hl, hn⟩

theorem Routed.Inv.skip (hi : Routed.Inv pl k t s i batch h (r :: rest) a s₁)
    (hrow : s₂.row = s₁.row)
    (htr : s₁.trace <:+ s₂.trace) : Routed.Inv pl k t s i batch h rest (a.skip r) s₂ :=
  ⟨hi.1.other Iff.rfl rfl hrow htr, hi.2.skip⟩

/-- Before the loop comes to it, the transfer is as it was, and its row too. -/
theorem Routed.Inv.waiting (hi : Routed.Inv pl k t s i batch h (i :: rest) a s₁)
    (hnd : batch.Nodup) : a.heap i = t ∧ s₁.row = s.row ∧ s.trace <:+ s₁.trace := by
  obtain ⟨hr, hl⟩ := hi
  cases hr with
  | waiting _ ht hrow htr => exact ⟨ht, hrow, htr⟩
  | handed _ _ hm => exact absurd hm (hl.not_mem hnd)

/-- The update of the state of another transfer. -/
theorem Routed.Inv.updated_other (hi : Routed.Inv pl k t s i batch h (r :: rest) a s₁)
    (hkeys : ∀ r ∈ batch, r ≠ i → (h r).key ≠ t.key) (hri : r ≠ i) (state : Ibcv2RelayStatus)
    (ans : Except Err Unit) :
    Routed.Inv pl k t s i batch h rest (a.updated r state ans)
      ((focus t.key adm).next (.exec (updateTransferState state (a.heap r).key)) ans s₁) := by
  have hkey : (a.heap r).key ≠ t.key := hi.2.key r ▸ hkeys r hi.2.mem hri
  refine ⟨hi.1.other ?_ (a.heap_updated_of_ne state ans (Ne.symm hri))
    (effectOn_exec_of_ne hkey ans s₁.row) (List.suffix_cons _ _), hi.2.updated state ans⟩
  simp [Ne.symm hri]

/-- The update of the state of the transfer itself, once its guard was
true: its state was written, or it has the error of that. -/
theorem Routed.Inv.updated_self (hi : Routed.Inv pl k t s i batch h (i :: rest) a s₁)
    (hnd : batch.Nodup) (ha : t.Active) (hg : BatchGuard pl k t s.trace s₁.trace)
    (ans : Except Err Unit) :
    Routed.Inv pl k t s i batch h rest (a.updated i (batchOf pl k).state ans)
      ((focus t.key adm).next (.exec (updateTransferState (batchOf pl k).state (a.heap i).key)) ans
      s₁) := by
  obtain ⟨ht, hrow, htr⟩ := hi.waiting hnd
  have hreach : Reaches pl (batchStage k) t s t s₁ := ⟨htr, by rw [hrow]⟩
  have hstate : (batchOf pl k).state ≠ .failed := by
    cases k <;> simp [batchOf, batchRecvPacket, batchAckPacket, batchTimeoutPacket]
  have hmem : i ∈ (a.updated i (batchOf pl k).state ans).toProcess := by simp
  have hg' := hg.mono
    (List.suffix_cons ⟨.exec (updateTransferState (batchOf pl k).state (a.heap i).key), ans⟩
      s₁.trace)
  refine ⟨?_, hi.2.updated _ ans⟩
  cases ans with
  | error e =>
    have hheap := a.heap_updated_error i (batchOf pl k).state e
    rw [ht] at hheap
    exact .handed _ _ hmem ha hg' hheap hstate (hheap ▸ (hreach.idle _).step (.fail _ _))
      (congrArg (·.tx k) hrow)
  | ok u =>
    have hheap := a.heap_updated_ok i (batchOf pl k).state u
    rw [ht] at hheap
    have hkey : (updateTransferState (batchOf pl k).state (a.heap i).key).key = t.key :=
      congrArg IBCV2Transfer.key ht
    refine .handed _ t.processingError hmem ha hg' hheap hstate
      (hheap ▸ hreach.exec hkey (.enter _ ha (batchOf_state pl k))) ?_
    have heff : Call.effectOn t.key
        (.exec (updateTransferState (batchOf pl k).state (a.heap i).key)) (.ok u) s₁.row =
        (SetClause.status (batchOf pl k).state).apply s₁.row := Call.effectOn_exec hkey _
    change (Call.effectOn t.key _ _ s₁.row).tx k = _
    rw [heff, hrow]
    cases k <;> rfl

/-- The facts of what the loop has come to hold on. -/
theorem Routed.Told.later (hi : Routed.Told pl k t s i batch h (r :: rest) a s₁) (hri : r ≠ i)
    (hmem : i ∈ b.toProcess ↔ i ∈ a.toProcess) (htr : s₁.trace ⊆ s₂.trace) (hn : i ∉ rest)
    (hp : i ∉ b.toProcess) (ha : t.Active) : (batchStage k).Fact pl t s₂.trace :=
  (hi.fact (List.not_mem_cons_of_ne_of_not_mem (Ne.symm hri) hn) (mt hmem.mpr hp) ha).mono htr

theorem Routed.Told.skip (hi : Routed.Told pl k t s i batch h (r :: rest) a s₁)
    (hrow : s₂.row = s₁.row)
    (htr : s₁.trace <:+ s₂.trace) (hfact : r = i → t.Active → (batchStage k).Fact pl t s₂.trace) :
    Routed.Told pl k t s i batch h rest (a.skip r) s₂ := by
  refine ⟨hi.inv.skip hrow htr, fun hn hp ha => ?_⟩
  by_cases hri : r = i
  · exact hfact hri ha
  · exact hi.later hri Iff.rfl htr.subset hn hp ha

theorem routeOne_spec (hnd : batch.Nodup) (hkeys : ∀ r ∈ batch, r ≠ i → (h r).key ≠ t.key)
    (hi : Routed.Told pl k t s i batch h (r :: rest) a s₁) :
    wp (focus t.key adm) (During pl (batchStage k) t s)
      (IBCV2BatchProcessorMW.routeOne (batchOf pl k).processor r a)
      (Routed.Told pl k t s i batch h rest) s₁ := by
  have hself (hri : r = i) : a.heap r = t := by
    subst hri
    exact (hi.inv.waiting hnd).1
  refine wp_routeOne
    (fun hn => hi.skip rfl List.suffix_rfl fun hri ha => absurd (hself hri ▸ ha) hn) fun ha =>
    (shouldProcess_spec (a.heap r) s₁).mono ?_ ?_
  · rintro c s' ⟨hq, hrow, htr⟩
    exact ⟨⟨_, (hi.inv.1.other Iff.rfl rfl hrow htr).reaches⟩, hq⟩
  rintro should s₂ ⟨hrow, htr, hg, hskip⟩
  refine ⟨fun hf => hi.skip hrow htr fun hri _ => hself hri ▸ hskip hf, fun hs => ?_⟩
  have hi₂ : Routed.Inv pl k t s i batch h (r :: rest) a s₂ :=
    ⟨hi.inv.1.other Iff.rfl rfl hrow htr, hi.inv.2⟩
  refine ⟨⟨⟨_, hi₂.1.reaches⟩, fun σ hσ => ?_⟩, fun ans => ?_⟩
  · cases hσ
    exact batchOf_state pl k
  by_cases hri : r = i
  · subst hri
    obtain ⟨ht, -, htr₀⟩ := hi.inv.waiting hnd
    exact ⟨hi₂.updated_self hnd (ht ▸ ha) (ht ▸ (hg hs).earlier htr₀) ans, fun _ hp =>
      absurd (by simp) hp⟩
  · exact ⟨hi₂.updated_other hkeys hri _ ans, hi.later hri (by simp [Ne.symm hri])
      (List.subset_cons_of_subset _ htr.subset)⟩

theorem route_spec (hnd : batch.Nodup) (hkeys : ∀ r ∈ batch, r ≠ i → (h r).key ≠ t.key)
    (hmem : i ∈ batch) (hi : h i = t) :
    wp (focus t.key adm) (During pl (batchStage k) t s)
      (IBCV2BatchProcessorMW.route (batchOf pl k).processor batch { heap := h })
      (Routed.Told pl k t s i batch h []) s :=
  wp_each _ (fun _ _ _ _ => routeOne_spec hnd hkeys) batch _
    ⟨⟨.waiting List.not_mem_nil hi rfl List.suffix_rfl, .start batch h⟩, fun hn => absurd hmem hn⟩

end Route

/-! ## The request -/

namespace BatchPacket

variable (p : BatchPacket)

/-- The transfers whose sequences get into the request: those with a hash that
is in the set of txs or can be decoded. -/
def admitted (h : Heap) : List Ref → List String → List Ref
  | [], _ => []
  | r :: transfers, txSet => match p.txHash (h r) with
    | .error _ => admitted h transfers txSet
    | .ok hash =>
      if txSet.contains hash then r :: admitted h transfers txSet
      else match decodeTxHash hash with
        | .error _ => admitted h transfers txSet
        | .ok _ => r :: admitted h transfers (p.txSetKey (h r) hash :: txSet)

theorem admitted_sublist (h : Heap) (transfers : List Ref) (txSet : List String) :
    (p.admitted h transfers txSet).Sublist transfers := by
  induction transfers generalizing txSet with
  | nil => exact .slnil
  | cons r transfers ih =>
    rw [admitted]
    split
    · exact (ih _).cons _
    split
    · exact (ih _).cons_cons _
    split
    · exact (ih _).cons _
    · exact (ih _).cons_cons _

theorem admitted_congr {h h' : Heap} {transfers : List Ref}
    (hh : ∀ r ∈ transfers, p.txHash (h' r) = p.txHash (h r) ∧ p.txSetKey (h' r) = p.txSetKey (h r))
    (txSet : List String) : p.admitted h' transfers txSet = p.admitted h transfers txSet := by
  induction transfers generalizing txSet with
  | nil => rfl
  | cons r transfers ih =>
    have ih' := ih fun j hj => hh j (List.mem_cons_of_mem _ hj)
    obtain ⟨hhash, hkey⟩ := hh r List.mem_cons_self
    simp only [admitted, hhash, hkey, ih']

/-- The loop that makes the request, with `inc` the transfers it admits: they
get their sequences into it and are left as they are, the others of the batch
get an error. -/
structure Gathers (transfers inc : List Ref) (g g' : Gathered) : Prop where
  sequences : g'.sequences = g.sequences ++ inc.map fun r => (g.heap r).sequence
  kept (r : Ref) : r ∈ inc ∨ r ∉ transfers → g'.heap r = g.heap r
  failed (r : Ref) : r ∈ transfers → r ∉ inc → ∃ err, g'.heap r = (g.heap r).fail err

section Gathers

variable {r : Ref} {transfers inc : List Ref} {g g₁ g' : Gathered}

theorem Gathers.fail (h : Gathers transfers inc g₁ g') (hr : r ∉ transfers) (hinc : inc ⊆ transfers)
    {err : Err} (hself : g₁.heap r = (g.heap r).fail err) (hne : ∀ j, j ≠ r → g₁.heap j = g.heap j)
    (hseq : g₁.sequences = g.sequences) : Gathers (r :: transfers) inc g g' := by
  have hmem (j : Ref) (hj : j ∈ transfers) : g₁.heap j = g.heap j := hne j fun e => hr (e ▸ hj)
  refine ⟨?_, fun j hj => ?_, fun j hj hn => ?_⟩
  · rw [h.sequences, hseq]
    exact congrArg _ (List.map_congr_left fun j hj => by rw [hmem j (hinc hj)])
  · rcases hj with hj | hj
    · rw [h.kept j (.inl hj), hmem j (hinc hj)]
    · rw [h.kept j (.inr (List.not_mem_of_not_mem_cons hj)), hne j (List.ne_of_not_mem_cons hj)]
  · rcases List.mem_cons.mp hj with rfl | hj
    · exact ⟨err, (h.kept j (.inr hr)).trans hself⟩
    · exact hmem j hj ▸ h.failed j hj hn

theorem Gathers.accept (h : Gathers transfers inc g₁ g') (hr : r ∉ transfers)
    (hheap : g₁.heap = g.heap) (hseq : g₁.sequences = g.sequences ++ [(g.heap r).sequence]) :
    Gathers (r :: transfers) (r :: inc) g g' := by
  refine ⟨by rw [h.sequences, hseq, hheap, List.map_cons,
    List.append_assoc]; rfl, fun j hj => ?_, fun j hj hn => ?_⟩
  · rw [← hheap]
    refine h.kept j ?_
    rcases hj with hj | hj
    · exact (List.mem_cons.mp hj).elim (fun e => .inr (e ▸ hr)) .inl
    · exact .inr (List.not_mem_of_not_mem_cons hj)
  · rw [← hheap]
    exact h.failed j ((List.mem_cons.mp hj).resolve_left (List.ne_of_not_mem_cons hn))
      (List.not_mem_of_not_mem_cons hn)

/-- The loop changes errors only. -/
theorem Gathers.same (h : Gathers transfers inc g g') (r : Ref) :
    ∃ err, g'.heap r = { g.heap r with processingError := err } := by
  by_cases hr : r ∈ inc ∨ r ∉ transfers
  · exact ⟨_, h.kept r hr⟩
  · obtain ⟨hn, hr⟩ := not_or.mp hr
    obtain ⟨err, he⟩ := h.failed r (not_not.mp hr) hn
    exact ⟨some err, he⟩

theorem Gathers.key (h : Gathers transfers inc g g')
    (r : Ref) : (g'.heap r).key = (g.heap r).key := by
  obtain ⟨err, he⟩ := h.same r
  rw [he]
  rfl

end Gathers

theorem gather_spec {transfers : List Ref} (hnd : transfers.Nodup) (g : Gathered) :
    Gathers transfers (p.admitted g.heap transfers g.txSet) g (p.gather transfers g) := by
  induction transfers generalizing g with
  | nil => exact ⟨(List.append_nil _).symm, fun _ _ => rfl, by simp⟩
  | cons r transfers ih =>
    obtain ⟨hr, hnd⟩ := List.nodup_cons.mp hnd
    have hfail (err : Err) : Gathers (r :: transfers) (p.admitted g.heap transfers g.txSet) g
        (p.gather transfers { g with heap := g.heap.modify r (·.fail err) }) := by
      have hne (j : Ref) (hj : j ≠ r) : g.heap.modify r (·.fail err) j = g.heap j :=
        g.heap.modify_of_ne _ hj
      have h := ih hnd { g with heap := g.heap.modify r (·.fail err) }
      rw [p.admitted_congr fun j hj =>
        ⟨congrArg _ (hne j fun e => hr (e ▸ hj)), congrArg _ (hne j fun e => hr (e ▸ hj))⟩] at h
      exact h.fail hr (p.admitted_sublist ..).subset (g.heap.modify_self r (·.fail err)) hne rfl
    simp only [gather, admitted]
    cases p.txHash (g.heap r) with
    | error err => exact hfail err
    | ok hash =>
      dsimp only
      by_cases hs : g.txSet.contains hash
      · rw [if_pos hs, if_pos hs]
        exact (ih hnd { g with sequences := g.sequences ++ [(g.heap r).sequence] }).accept
          hr rfl rfl
      rw [if_neg hs, if_neg hs]
      cases decodeTxHash hash with
      | error err => exact hfail _
      | ok txID =>
        exact (ih hnd { g with
          txIDs := g.txIDs ++ [txID]
          sequences := g.sequences ++ [(g.heap r).sequence]
          txSet := p.txSetKey (g.heap r) hash :: g.txSet }).accept hr rfl rfl

/-! ## What is recorded -/

section Record

variable {p} {transfers : List Ref} {h : Heap} {i : Ref} (tx : BridgeTx)

/-- The transaction writes the tx to the row of a transfer without an error. -/
theorem foldl_statements (hnd : transfers.Nodup) (hi : (h i).key = K)
    (hkeys : ∀ r ∈ transfers, r ≠ i → (h r).key ≠ K) (row : Ibcv2Transfer) :
    ((p.statements tx transfers h).map (·.1)).foldl (Query.on K) row =
      if i ∈ transfers ∧ (h i).errored = false then (recorded p.kind tx).apply row else row := by
  induction transfers generalizing row with
  | nil => rfl
  | cons r transfers ih =>
    obtain ⟨hr, hnd⟩ := List.nodup_cons.mp hnd
    replace ih := ih hnd fun j hj => hkeys j (List.mem_cons_of_mem _ hj)
    by_cases hri : r = i
    · subst hri
      cases he : (h r).errored with
      | true =>
        rw [statements, List.filter_cons_of_neg (by simp [he])]
        exact (ih row).trans (by simp [he])
      | false =>
        rw [statements, List.filter_cons_of_pos (by simp [he])]
        refine (ih _).trans ?_
        rw [if_neg fun hm => hr hm.1, if_pos ⟨List.mem_cons_self, rfl⟩]
        exact if_pos hi
    · have hmem : i ∈ r :: transfers ↔ i ∈ transfers := by simp [Ne.symm hri]
      simp only [hmem]
      rw [← ih row]
      cases he : (h r).errored with
      | true => rw [statements, List.filter_cons_of_neg (by simp [he])]; rfl
      | false =>
        rw [statements, List.filter_cons_of_pos (by simp [he])]
        exact congrArg (List.foldl (Query.on K) · _) (if_neg (hkeys r List.mem_cons_self hri))

theorem recordAll_apply (hnd : transfers.Nodup) (h : Heap) (i : Ref) :
    p.recordAll tx transfers h i =
      if i ∈ transfers ∧ (h i).errored = false then p.record tx (h i) else h i := by
  induction transfers generalizing h with
  | nil => rfl
  | cons r transfers ih =>
    obtain ⟨hr, hnd⟩ := List.nodup_cons.mp hnd
    by_cases hri : r = i
    · subst hri
      cases he : (h r).errored with
      | true =>
        rw [recordAll, if_pos he, ih hnd]
        simp [he]
      | false =>
        rw [recordAll, if_neg (by simp [he]), ih hnd, if_neg fun hm => hr hm.1, h.modify_self,
          if_pos ⟨List.mem_cons_self, rfl⟩]
    · have hmem : i ∈ r :: transfers ↔ i ∈ transfers := by simp [Ne.symm hri]
      simp only [recordAll, hmem]
      split
      · exact ih hnd h
      · rw [ih hnd, h.modify_of_ne _ (Ne.symm hri)]

end Record

end BatchPacket

/-! ## The delivery -/

/-- A later point of a run, with the row unchanged. -/
structure Unchanged (s s' : Focus) : Prop where
  row : s'.row = s.row
  trace : s.trace <:+ s'.trace

namespace Unchanged

theorem refl (s : Focus) : Unchanged s s := ⟨rfl, List.suffix_rfl⟩

/-- A call that is no statement. -/
theorem call (h : Unchanged s s₁) {c : Call} (hc : c.queries = []) (ans : c.Ans) :
    Unchanged s ((focus K adm).next c ans s₁) := by
  have hd : c.done ans = [] := (c.done_eq ans).elim id (·.trans hc)
  refine ⟨?_, h.trace.trans (List.suffix_cons _ _)⟩
  change (c.done ans).foldl _ _ = _
  rw [hd]
  exact h.row

theorem reaches {st : Stage} {u : IBCV2Transfer} (h : Unchanged s₁ s₂)
    (hr : Reaches pl st t s u s₁) : Reaches pl st t s u s₂ := hr.trans ⟨h.trace, by rw [h.row]⟩

end Unchanged

/-- A quiet call, with the row as it was at `s`. -/
def Idle (s : Focus) (c : Call) (s' : Focus) : Prop := Quiet c ∧ Unchanged s s'

theorem ask_idle {c : Call} (hc : c.queries = []) (hq : Quiet c) (h : Unchanged s s₁) :
    wp (focus K adm) (Idle s) (ask c) (fun _ s' => Unchanged s s') s₁ :=
  ⟨⟨hq, h⟩, fun ans _ => h.call hc ans⟩

/-- A part of a program that leaves the row as it is, and goes on with `k`
unless there is an error. -/
theorem try_idle {α β : Type} {x : Relay (Except Err α)} {w : Err → Err}
    {f : α → Relay (Except Err β)} {pre : Call → Focus → Prop} {Q : Except Err β → Focus → Prop}
    (hx : wp (focus K adm) (Idle s) x (fun _ s' => Unchanged s s') s₁)
    (hpre : ∀ c s', Idle s c s' → pre c s') (herr : ∀ s' e, Unchanged s s' → Q (.error e) s')
    (hf : ∀ a s', Unchanged s s' → wp (focus K adm) pre (f a) Q s') :
    wp (focus K adm) pre (attempt x w f) Q s₁ :=
  wp_try (hx.mono hpre fun _ s' h => ⟨fun _ _ => herr s' _ h, fun a _ => hf a s' h⟩)

theorem waitForEVM_spec (chainID : String) (h : Unchanged s s₁) :
    wp (focus K adm) (Idle s) (BatchPacket.waitForEVM chainID) (fun _ s' => Unchanged s s') s₁ := by
  refine ⟨⟨trivial, h⟩, fun type _ => ?_⟩
  have h' : Unchanged s ((focus K adm).next (.chainType chainID) type s₁) := h.call rfl type
  cases type with
  | evm => exact ask_idle rfl trivial h'
  | cosmos => exact h'
  | svm => exact h'

theorem txStatements_spec (sts : List (Query × (Err → Err))) (h : Unchanged s s₁) :
    wp (focus K adm) (Idle s) (txStatements sts) (fun _ s' => Unchanged s s') s₁ := by
  induction sts generalizing s₁ with
  | nil => exact h
  | cons q sts ih =>
    refine wp_try ⟨⟨trivial, h⟩, fun ans _ =>
      ⟨fun _ _ => h.call rfl ans, fun _ _ => ih (h.call rfl ans)⟩⟩

/-- A transaction is all or nothing. -/
theorem execTx_spec (sts : List (Query × (Err → Err))) (s : Focus) :
    wp (focus K adm) (Idle s) (execTx sts) (fun r s' => s.trace <:+ s'.trace ∧
      (∀ e, r = .error e → s'.row = s.row) ∧
      ∀ a, r = .ok a → s'.row = (sts.map (·.1)).foldl (Query.on K) s.row) s := by
  have h := Unchanged.refl s
  have hfail {e : Err} {s' : Focus} (h : Unchanged s s') : s.trace <:+ s'.trace ∧
      (∀ e', (.error e : Except Err Unit) = .error e' → s'.row = s.row) ∧
      ∀ a, (.error e : Except Err Unit) = .ok a →
      s'.row = (sts.map (·.1)).foldl (Query.on K) s.row :=
    ⟨h.trace, fun _ _ => h.row, by simp⟩
  refine wp_try ⟨⟨trivial, h⟩, fun ans _ => ⟨fun _ _ => hfail (h.call rfl ans), fun _ _ => ?_⟩⟩
  refine wp_bind.mpr ((txStatements_spec sts (h.call rfl ans)).post fun r s₁ h₁ => ?_)
  cases r with
  | error e =>
    refine ⟨⟨trivial, h₁⟩, fun ans _ => ?_⟩
    have h₂ : Unchanged s ((focus K adm).next .txRollback ans s₁) := h₁.call rfl ans
    cases ans with
    | error _ => exact hfail h₂
    | ok _ => exact hfail h₂
  | ok _ =>
    refine ⟨⟨trivial, h₁⟩, fun ans _ => ⟨h₁.trace.trans (List.suffix_cons _ _), ?_, ?_⟩⟩
    · rintro e rfl
      exact h₁.row
    · rintro _ rfl
      exact congrArg (List.foldl (Query.on K) · _) h₁.row

theorem Handed.later {u : IBCV2Transfer} (hh : Handed pl k t s u s₁) (h : Unchanged s₁ s₂) :
    Handed pl k t s u s₂ where
  active := hh.active
  guard := hh.guard.mono h.trace
  same := hh.same
  row := (congrArg (·.tx k) h.row).trans hh.row

theorem Handed.deliverable {u : IBCV2Transfer}
    (hh : Handed pl k t s u s₁) : pl.Deliverable u k := by
  obtain ⟨state, err, rfl⟩ := hh.same
  have hd := hh.guard.deliverable
  cases k <;> exact hd

/-- What becomes of the transfer with pointer `i` when a tx is delivered for a
batch. -/
def delivered (k : TxKind) (tx : BridgeTx) (transfers : List Ref) (h : Heap)
    (i : Ref) : IBCV2Transfer :=
  if i ∈ transfers ∧ (h i).errored = false then (h i).record k tx else h i

section Deliver

variable {transfers : List Ref} {h : Heap} (hnd : transfers.Nodup) (hi : (h i).key = t.key)
  (hkeys : ∀ r ∈ transfers, r ≠ i → (h r).key ≠ t.key)
  (hh : i ∈ transfers → Handed pl k t s (h i) s₁ ∧ (h i).state ≠ .failed)
include hnd hi hkeys hh

/-- The transaction after a delivery. -/
theorem delivered_spec (tx : BridgeTx) (hr : Reaches pl (batchStage k) t s (h i) s₁) :
    wp (focus t.key adm) (Calls pl (batchStage k) t s)
      (execTx ((batchOf pl k).statements tx transfers h))
      (fun r s' => (∀ e, r = .error e → Reaches pl (batchStage k) t s (h i) s') ∧
        ∀ a, r = .ok a → Reaches pl (batchStage k) t s (delivered k tx transfers h i) s') s₁ := by
  refine (execTx_spec _ s₁).mono (fun c s' hc => ⟨⟨_, hc.2.reaches hr⟩, .inl hc.1⟩) ?_
  rintro r s' ⟨htr, herr, hok⟩
  refine ⟨fun e he => Unchanged.reaches ⟨herr e he, htr⟩ hr, fun a ha => ?_⟩
  have hrow := hok a ha
  rw [BatchPacket.foldl_statements tx hnd hi hkeys, batchOf_kind] at hrow
  rw [delivered]
  split at hrow
  · rename_i hm
    rw [if_pos hm]
    obtain ⟨hh, hstate⟩ := hh hm.1
    have ha : (h i).Active := ⟨by simpa [IBCV2Transfer.errored] using hm.2, hstate⟩
    obtain ⟨state, err, hu⟩ := hh.same
    have hp : (h i).packet = t.packet := by rw [hu]; rfl
    refine hr.trans
      ⟨htr, hrow ▸ .single (.delivered k tx ha hh.deliverable rfl (fun hk => ?_) fun hk => ?_)⟩
      <;> rw [hp]
    · exact (hh.guard.timeout_clock hk).imp fun _ hn => ⟨htr.subset hn.1.read, hn.2⟩
    · exact (hh.guard.recv_clock hk).imp fun _ hn => ⟨htr.subset hn.1.read, hn.2⟩
  · rename_i hm
    rw [if_neg hm]
    exact Unchanged.reaches ⟨hrow, htr⟩ hr

/-- A delivery, and what is recorded after it. -/
theorem deliver_spec {req : RelayByTxRequest}
    (hseq : t.sequence ∈ req.packetSequences → i ∈ transfers)
    (numTransfers : Nat) (hr : Reaches pl (batchStage k) t s (h i) s₁) :
    wp (focus t.key adm) (Calls pl (batchStage k) t s)
      ((batchOf pl k).submit req numTransfers transfers h)
      (fun r s' => (∀ e, r = .error e → Reaches pl (batchStage k) t s (h i) s') ∧
        ∀ tx, r = .ok tx → Reaches pl (batchStage k) t s (delivered k tx transfers h i) s') s₁ := by
  -- Up to the delivery, every call leaves the row as it is, and an error the transfer.
  have hpre (c : Call) (s' : Focus) (hc : Idle s₁ c s') : Calls pl (batchStage k) t s c s' :=
    ⟨⟨_, hc.2.reaches hr⟩, .inl hc.1⟩
  have herr (s' : Focus) (e : Err) (hu : Unchanged s₁ s') :
      (∀ e', (.error e : Except Err BridgeTx) = .error e' →
        Reaches pl (batchStage k) t s (h i) s') ∧ ∀ tx, (.error e : Except Err BridgeTx) = .ok tx →
          Reaches pl (batchStage k) t s (delivered k tx transfers h i) s' :=
    of_error (hu.reaches hr)
  refine try_idle (ask_idle rfl trivial (.refl s₁)) hpre herr fun resp s₂ hu => ?_
  refine try_idle (ask_idle rfl trivial hu) hpre herr fun _ s₃ hu => ?_
  refine try_idle (waitForEVM_spec _ hu) hpre herr fun _ s₄ hu => ?_
  refine wp_try ⟨⟨⟨_, hu.reaches hr⟩, .inr ?_⟩, fun ans _ => ?_⟩
  · refine .deliver (by rw [batchOf_kind]) (fun u hu' hkey => ?_) fun hs =>
      ⟨h i, List.mem_map_of_mem (hseq hs), hi⟩
    obtain ⟨r, hmem, rfl⟩ := List.mem_map.mp hu'
    obtain rfl : r = i := by_contra fun hri => hkeys r hmem hri hkey
    rw [batchOf_kind]
    exact (hh hmem).1.later hu
  have hu₅ : Unchanged s₁
      ((focus t.key adm).next (.deliverTx (batchOf pl k).chainID resp.tx resp.address
      ⟨(batchOf pl k).kind, req, transfers.map h⟩) ans s₄) := hu.call rfl ans
  refine ⟨fun _ _ => herr _ _ hu₅, fun tx _ => wp_try ?_⟩
  refine (delivered_spec hnd hi hkeys (fun hm => ⟨(hh hm).1.later hu₅, (hh hm).2⟩) tx
    (hu₅.reaches hr)).post ?_
  rintro r s' ⟨hfail, hok⟩
  exact ⟨fun e he => of_error (hfail e he), fun a ha => of_ok (hok a ha)⟩

/-- The processor, on the batch it is handed: if it is successful, each transfer
of the batch has its tx or an error. -/
theorem process_spec (hsame : ∀ r ∈ transfers, (h r).sequence = t.sequence → r = i)
    (hr : Reaches pl (batchStage k) t s (h i) s₁) :
    wp (focus t.key adm) (Calls pl (batchStage k) t s) ((batchOf pl k).process transfers h)
      (fun x s' => Reaches pl (batchStage k) t s (x.2 i) s' ∧ (i ∉ transfers → x.2 i = h i) ∧
        ∀ out, x.1 = .ok out → i ∈ transfers → (x.2 i).processingError = none →
        (x.2 i).has k = true) s₁ := by
  have hg := (batchOf pl k).gather_spec hnd { heap := h }
  rw [BatchPacket.process]
  set g := (batchOf pl k).gather transfers { heap := h }
  have hgr : Reaches pl (batchStage k) t s (g.heap i) s₁ := by
    by_cases hi : i ∈ (batchOf pl k).admitted h transfers [] ∨ i ∉ transfers
    · exact (hg.kept i hi).symm ▸ hr
    · obtain ⟨err, he⟩ := hg.failed i (not_not.mp (not_or.mp hi).2) (not_or.mp hi).1
      exact he.symm ▸ hr.step (.fail _ err)
  have hgh (hm : i ∈ transfers) : Handed pl k t s (g.heap i) s₁ ∧ (g.heap i).state ≠ .failed := by
    obtain ⟨hh, hf⟩ := hh hm
    obtain ⟨err, he⟩ := hg.same i
    obtain ⟨state, err', hu⟩ := hh.same
    rw [he]
    exact ⟨⟨hh.active, hh.guard, ⟨state, err, by dsimp only; rw [hu]⟩, hh.row⟩, hf⟩
  have hseq (hm : t.sequence ∈ ((batchOf pl k).request g.txIDs g.sequences).packetSequences) :
      i ∈ transfers := by
    rw [packetSequences_request, hg.sequences] at hm
    obtain ⟨r, hr, he⟩ := List.mem_map.mp hm
    have hmem := ((batchOf pl k).admitted_sublist ..).subset hr
    exact hsame r hmem he ▸ hmem
  refine wp_bind.mpr
    ((deliver_spec hnd ((hg.key i).trans hi) (fun r hm hri => hg.key r ▸ hkeys r hm hri) hgh hseq
    _ hgr).post ?_)
  have hkept (hn : i ∉ transfers) : g.heap i = h i := hg.kept i (.inr hn)
  rintro r s' ⟨herr, hok⟩
  cases r with
  | error e => exact ⟨herr e rfl, hkept, by simp⟩
  | ok tx =>
    have hrecord : (batchOf pl k).recordAll tx transfers g.heap i = delivered k tx transfers
        g.heap i := by
      rw [BatchPacket.recordAll_apply tx hnd, batchOf_record]
      rfl
    simp only [wp_ret, hrecord]
    refine ⟨hok tx rfl, fun hn => (if_neg fun h => hn h.1).trans (hkept hn), fun _ _ hm he => ?_⟩
    · rw [delivered] at he ⊢
      split at he
      · rw [if_pos (by assumption), IBCV2Transfer.has, IBCV2Transfer.hash_record]
        rfl
      · rename_i hn
        exact absurd ⟨hm, by simp [IBCV2Transfer.errored, he]⟩ hn

end Deliver

theorem failAll_apply (err : Err) (transfers : List Ref) (h : Heap) (i : Ref) :
    IBCV2BatchProcessorMW.failAll err transfers h i = if i ∈ transfers then (h i).fail err
      else h i := by
  induction transfers generalizing h with
  | nil => rfl
  | cons r transfers ih =>
    rw [IBCV2BatchProcessorMW.failAll, ih]
    by_cases hri : i = r
    · subst hri
      rw [h.modify_self, if_pos List.mem_cons_self]
      exact ite_self _
    · rw [h.modify_of_ne _ hri]
      simp [hri]

/-! ## The stage -/

/-- What a batch stage makes of the transfer with pointer `i`: nothing if the
context is cancelled. -/
def PassedBatch (pl : Pipeline) (k : TxKind) (t : IBCV2Transfer) (s : Focus) (i : Ref)
    (x : Except Err (List Ref) × Heap) (s' : Focus) : Prop :=
  (∃ t', Reaches pl (batchStage k) t s t' s') ∧
    ∀ refs, x.1 = .ok refs → Reaches pl (batchStage k) t s (x.2 i) s'

/-- What is known of the transfer with pointer `i` after a batch stage. -/
def ToldBatch (pl : Pipeline) (k : TxKind) (i : Ref) (x : Except Err (List Ref) × Heap)
    (s' : Focus) : Prop :=
  ∀ refs, x.1 = .ok refs → (x.2 i).Active → (batchStage k).Fact pl (x.2 i) s'.trace

section Batch

variable {batch : List Ref} {h : Heap} (hnd : batch.Nodup)
  (hkeys : ∀ r ∈ batch, r ≠ i → (h r).key ≠ t.key)
  (hsame : ∀ r ∈ batch, (h r).sequence = t.sequence → r = i)
include hnd hkeys hsame

theorem finish_spec (ha : Routed.Told pl k t s i batch h [] a s₁) :
    wp (focus t.key adm) (Calls pl (batchStage k) t s)
      (IBCV2BatchProcessorMW.finish (batchOf pl k).processor a)
      (fun x s' => PassedBatch pl k t s i x s' ∧ ToldBatch pl k i x s') s₁ := by
  obtain ⟨⟨hr, ha⟩, hfact⟩ := ha
  obtain ⟨hl, -⟩ := ha.done
  have hprocess : wp (focus t.key adm) _ _ _ _ := process_spec (hl.nodup hnd) hr.reaches.key
    (fun r hm hri => ha.key r ▸ hkeys r (hl.subset hm) hri) hr.handed_to
    (fun r hm he => hsame r (hl.subset hm) ((ha.sequence r).symm.trans he)) hr.reaches
  refine wp_bind.mpr ((hprocess.traced (P := fun _ => True) fun _ _ _ _ => trivial).mono
    (fun _ _ hc => hc.1) ?_)
  rintro ⟨o, h'⟩ s' ⟨⟨hx, hkept, hdone⟩, new, htr, -⟩
  -- A transfer that was not handed to the processor has passed the guard.
  have hskipped (hn : i ∉ a.toProcess) (hact : (h' i).Active) :
      (batchStage k).Fact pl (h' i) s'.trace := by
    have ht : h' i = t := by
      refine (hkept hn).trans ?_
      cases hr with
      | waiting _ ht => exact ht
      | handed _ _ hm => exact absurd hm hn
    rw [ht] at hact ⊢
    exact (hfact List.not_mem_nil hn hact).mono (htr ▸ List.subset_append_right _ _)
  cases o with
  | error err =>
    change wp _ _ (if err.is .contextCanceled then _ else _) _ _
    split
    · exact ⟨⟨⟨_, hx⟩, by simp⟩, by simp [ToldBatch]⟩
    · have hy : Passed pl (batchStage k) t s
          (some (IBCV2BatchProcessorMW.failAll err a.toProcess h' i)) s' := by
        rw [failAll_apply]
        split
        · exact ⟨hx.step (.fail _ err), fun hact => by cases hact.1⟩
        · exact ⟨hx, hskipped (by assumption)⟩
      exact ⟨⟨⟨_, hy.1⟩, fun _ _ => hy.1⟩, fun _ _ => hy.2⟩
  | ok refs =>
    refine ⟨⟨⟨_, hx⟩, fun _ _ => hx⟩, fun _ _ hact => ?_⟩
    by_cases hm : i ∈ a.toProcess
    · exact batchStage_fact (hdone refs rfl hm hact.1) _
    · exact hskipped hm hact

theorem batchMW_spec (hmem : i ∈ batch) (hi : h i = t) :
    wp (focus t.key adm) (Calls pl (batchStage k) t s)
      (IBCV2BatchProcessorMW.process (batchOf pl k).processor batch h)
      (fun x s' => PassedBatch pl k t s i x s' ∧ ToldBatch pl k i x s') s :=
  wp_bind.mpr ((route_spec hnd hkeys hmem hi).mono (fun _ _ hc => hc.calls) fun _ _ ha =>
    finish_spec hnd hkeys hsame ha)

end Batch

/-- Transfers of one pipeline with one sequence are one transfer. -/
theorem key_eq_of_sequence_eq {t u : IBCV2Transfer} (hp : newPipelineKey u = newPipelineKey t)
    (hs : u.sequence = t.sequence) : u.key = t.key := by
  have hn : u.packetSequenceNumber = t.packetSequenceNumber := UInt32.toUInt64_inj.mp hs
  have hsrc : u.sourceChainID = t.sourceChainID := congrArg PipelineKey.sourceChainID hp
  have hclient : u.packetSourceClientID = t.packetSourceClientID :=
    congrArg PipelineKey.sourceClientID hp
  rw [IBCV2Transfer.key, IBCV2Transfer.key, hn, hsrc, hclient]

theorem ofList_apply (d : IBCV2Transfer) {ts : List IBCV2Transfer} {r : Ref} (hr : r < ts.length) :
    Heap.ofList d ts r = ts[r] := (List.getElem_eq_getD d).symm

/-- Where the keys of a batch differ, one pointer has the key of a transfer. -/
theorem ofList_key_inj (d : IBCV2Transfer) {ts : List IBCV2Transfer} (hts : ts[i]? = some t)
    (hnd : (ts.map (·.key)).Nodup) {r : Ref} (hr : r < ts.length)
    (he : (Heap.ofList d ts r).key = t.key) : r = i := by
  obtain ⟨hlt, hget⟩ := List.getElem?_eq_some_iff.mp hts
  rw [ofList_apply d hr, ← hget] at he
  have hr' : r < (ts.map (·.key)).length := by rwa [List.length_map]
  have hi' : i < (ts.map (·.key)).length := by rwa [List.length_map]
  exact (@List.Nodup.getElem_inj_iff _ _ hnd r hr' i hi').mp (by simpa using he)

/-- The batch processor in its middleware, from the transfer at a position of
the batch. -/
theorem processBatch_spec {d : IBCV2Transfer} {ts : List IBCV2Transfer} (hts : ts[i]? = some t)
    (hpipe : ∀ u ∈ ts, newPipelineKey u = newPipelineKey t) (hnd : (ts.map (·.key)).Nodup) :
    wp (focus t.key adm) (Calls pl (batchStage k) t s) ((batchOf pl k).processBatch d ts)
      (fun x s' => PassedBatch pl k t s i x s' ∧ ToldBatch pl k i x s') s := by
  obtain ⟨hlt, hget⟩ := List.getElem?_eq_some_iff.mp hts
  refine batchMW_spec List.nodup_range (fun r hr hri he =>
    hri (ofList_key_inj d hts hnd (List.mem_range.mp hr) he))
    (fun r hr he => ofList_key_inj d hts hnd (List.mem_range.mp hr) ?_) (List.mem_range.mpr hlt)
    ((ofList_apply d hlt).trans hget)
  refine key_eq_of_sequence_eq (hpipe _ ?_) he
  rw [ofList_apply d (List.mem_range.mp hr)]
  exact List.getElem_mem _

/-- Where nothing has changed, the calls may be counted from an earlier point. -/
theorem Calls.earlier {st : Stage} {c : Call} (h : Unchanged s s₁) (hc : Calls pl st t s₁ c s₂) :
    Calls pl st t s c s₂ := by
  obtain ⟨⟨t', ht'⟩, hc⟩ := hc
  refine ⟨⟨t', (h.reaches (.refl t s)).trans ht'⟩, hc.imp_right fun hs => ?_⟩
  cases hs with
  | deliver hst hu hseq =>
    exact .deliver hst (fun u hm hk =>
      ⟨(hu u hm hk).active, (hu u hm hk).guard.earlier h.trace, (hu u hm hk).same,
      (hu u hm hk).row.trans (by rw [h.row])⟩) hseq
  | finish hst he hcomp hrow htr =>
    exact .finish hst he hcomp (hrow.trans h.row) (h.trace.trans htr)

theorem batch_spec (t : IBCV2Transfer) (s : Focus) :
    wp (focus t.key adm) (Calls pl (batchStage k) t s) (Stage.process pl (batchStage k) t)
      (Passed pl (batchStage k) t s) s := by
  rw [Stage.process, batchStage_processor]
  have h : Reaches pl (batchStage k) t s t s := .refl t s
  have hforward : wp (focus t.key adm) (Idle s) ((batchOf pl k).forward t) (fun should s' =>
      Unchanged s s' ∧ (should = false → t.Active → (batchStage k).Fact pl t s'.trace)) s := by
    rw [BatchPacket.forward]
    split
    · rename_i he
      exact ⟨.refl s, fun _ ha => by simp [IBCV2Transfer.errored, ha.1] at he⟩
    · exact (shouldProcess_spec t s).mono (fun _ _ hc => ⟨hc.1, hc.2.1, hc.2.2⟩)
        fun _ _ hg => ⟨⟨hg.1, hg.2.1⟩, fun hs _ => hg.2.2.2 hs⟩
  refine wp_bind.mpr (hforward.mono (fun c s' hc => ⟨⟨t, hc.2.reaches h⟩, .inl hc.1⟩)
    fun should s₁ hs => ?_)
  obtain ⟨hu, hskip⟩ := hs
  cases should with
  | false => exact ⟨hu.reaches h, hskip rfl⟩
  | true =>
  refine ⟨⟨⟨t, hu.reaches h⟩, .inl trivial⟩, fun b _ => ?_⟩
  obtain ⟨⟨before, after⟩, hpipe, hnd⟩ := b
  replace hu : Unchanged s ((focus t.key adm).next (.collect t) ⟨⟨before, after⟩, hpipe, hnd⟩ s₁) :=
    hu.call rfl _
  have hts : (before ++ t :: after)[before.length]? = some t := by simp
  change wp _ _ (Prog.bind ((batchOf pl k).processBatch t (before ++ t :: after)) _) _ _
  refine wp_bind.mpr ((processBatch_spec hts (fun u hm => ?_) hnd).mono
    (fun _ _ hc => hc.earlier hu) ?_)
  · rcases List.mem_append.mp hm with hm | hm
    · exact hpipe u (List.mem_append_left _ hm)
    · rcases List.mem_cons.mp hm with rfl | hm
      · rfl
      · exact hpipe u (List.mem_append_right _ hm)
  rintro ⟨o, h'⟩ s' ⟨⟨⟨t', ht'⟩, hok⟩, hfact⟩
  cases o with
  | error e => exact ⟨t', (hu.reaches h).trans ht'⟩
  | ok refs => exact ⟨(hu.reaches h).trans (hok refs rfl), hfact refs rfl⟩

end PlatformRelayer

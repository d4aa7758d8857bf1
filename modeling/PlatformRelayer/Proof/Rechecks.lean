import Mathlib.Logic.Relation
import PlatformRelayer.Ibcv2.ConditionalBatch
import PlatformRelayer.Proof.Requests

/-!
# What the second look leaves of a batch

`ConditionallyBatchProcess` asks `ShouldProcess` before it puts a transfer into
a batch, and the middleware asks again when a worker has come to the batch. The
clock has gone on in between (`TimedStep`, `ticking`): a transfer that has timed
out by then is not received any more, and one that is `FAILED` or has a hash that
does not decode drops out as well. The processor is called with those that are
left, and its request has no ids and no sequences if there are none
(`batch_request_nonempty_iff`).
-/

namespace PlatformRelayer

open Db Prog Relation

/-! ## The clock -/

/-- The clock, and what was read of it. -/
structure Ticks where
  now : Time
  readings : List (ClockReader × Time) := []

/-- The clock does not go back. -/
def Ticks.allows (s : Ticks) : (c : Call) → c.Ans → Prop
  | .now _, now => s.now ≤ now
  | _, _ => True

def Ticks.after (s : Ticks) : (c : Call) → c.Ans → Ticks
  | .now reader, now => ⟨now, (reader, now) :: s.readings⟩
  | _, _ => s

/-- The calls, with any answers but those of a clock that goes back. -/
def ticking : Sem Call Call.Ans Ticks where
  adm c ans s := s.allows c ans
  next c ans s := s.after c ans

/-- What a guard answers at a time: it reads the clock at most. -/
def guardAt (now : Time) : Relay Bool → Option Bool
  | .ret should => some should
  | .call (.now _) k => guardAt now (k now)
  | .call _ _ => none

/-- A stage and the time: the time goes on, or a goroutine does, and the one that
decides about a transfer asks the processor then. -/
inductive TimedStep (p : BatchPacket) (args : ConditionallyBatchProcess.Args IBCV2Transfer) :
    ConditionallyBatchProcess.State IBCV2Transfer × Time →
      ConditionallyBatchProcess.State IBCV2Transfer × Time → Prop where
  | tick {s : ConditionallyBatchProcess.State IBCV2Transfer} {now now' : Time} : now ≤ now' →
    TimedStep p args (s, now) (s, now')
  | step {s s' : ConditionallyBatchProcess.State IBCV2Transfer} {now : Time} :
    ConditionallyBatchProcess.Step args s s' →
    (∀ t, s.forwarder = .deciding t → s'.forwarder = .deciding t ∨
      ∃ should, guardAt now (p.forward t) = some should ∧ s'.forwarder = args.decide t should) →
    TimedStep p args (s, now) (s', now)

/-! ## What is in a batch -/

namespace ConditionallyBatchProcess

variable {T : Type} {args : Args T} {s s' : State T} {P Q : T → Prop}

/-- Every transfer on its way to a worker has the property. -/
structure Admits (P : T → Prop) (s : State T) : Prop where
  batching (t : T) : s.forwarder = .batching t → P t
  collecting (b : List T) : s.collector = .collecting b → ∀ t ∈ b, P t
  sending (b : List T) (isOpen : Bool) : s.collector = .sending b isOpen → ∀ t ∈ b, P t
  buffer (b : List T) : s.buffer = .sending b → ∀ t ∈ b, P t
  buffered : ∀ b ∈ s.bufferedBatches, ∀ t ∈ b, P t
  starting (b : List T) : s.dispatcher = .starting b → ∀ t ∈ b, P t
  processing (b : List T) : .processing b ∈ s.workers → ∀ t ∈ b, P t

theorem Admits.start (input : List T) : Admits P { input := input } := by constructor <;> simp

theorem Admits.mono (hs : Admits P s) (h : ∀ t, P t → Q t) : Admits Q s where
  batching t ht := h t (hs.batching t ht)
  collecting b hb t ht := h t (hs.collecting b hb t ht)
  sending b o hb t ht := h t (hs.sending b o hb t ht)
  buffer b hb t ht := h t (hs.buffer b hb t ht)
  buffered b hb t ht := h t (hs.buffered b hb t ht)
  starting b hb t ht := h t (hs.starting b hb t ht)
  processing b hb t ht := h t (hs.processing b hb t ht)

/-- A step hands the transfers on, so it keeps the property if it lets in a
transfer that has it. -/
theorem Admits.step (h : Step args s s')
    (hdecide : ∀ t, s.forwarder = .deciding t → s'.forwarder = .batching t → P t)
    (hs : Admits P s) : Admits P s' := by
  cases h with
  | receive hf _ => exact { hs with batching := by simp }
  | closeToBatch hf _ => exact { hs with batching := by simp }
  | @decide t should hf =>
    refine { hs with batching := fun u hu => ?_ }
    obtain rfl : t = u := by
      dsimp only [Args.decide] at hu
      split at hu <;> simp_all
    exact hdecide t hf hu
  | bypass hf _ => exact { hs with batching := by simp }
  | panic hf _ => exact { hs with batching := by simp }
  | @batch t b hf hc =>
    have hmem : ∀ u ∈ b ++ [t], P u := by
      simp only [List.forall_mem_append, List.forall_mem_singleton]
      exact ⟨hs.collecting b hc, hs.batching t hf⟩
    refine { hs with
      batching := by simp, collecting := fun b' hb => ?_, sending := fun b' o hb => ?_ } <;>
      dsimp only [Args.collect] at hb <;> split at hb <;> cases hb <;> exact hmem
  | timeUp hc _ =>
    refine { hs with collecting := by simp, sending := ?_ }
    rintro _ _ h
    cases h
    exact hs.collecting _ hc
  | lastBatch hc _ _ =>
    refine { hs with collecting := by simp, sending := ?_ }
    rintro _ _ h
    cases h
    exact hs.collecting _ hc
  | closeBatches hc _ => exact { hs with collecting := by simp, sending := by simp }
  | @sendBatch b isOpen hc hb =>
    refine { hs with collecting := fun b' h => ?_, sending := fun b' o h => ?_, buffer := ?_ }
    · cases isOpen <;> cases h
      exact fun t ht => absurd ht List.not_mem_nil
    · cases isOpen <;> cases h
    · rintro _ h
      cases h
      exact hs.sending b isOpen hc
  | fill hb _ =>
    refine { hs with buffer := by simp, buffered := ?_ }
    simp only [List.forall_mem_append, List.forall_mem_singleton]
    exact ⟨hs.buffered, hs.buffer _ hb⟩
  | closeBufferedBatches hb _ => exact { hs with buffer := by simp }
  | @take b rest hd hbb =>
    have hall : ∀ b' ∈ b :: rest, ∀ t ∈ b', P t := hbb ▸ hs.buffered
    refine { hs with
      buffered := fun b' hb' => hall b' (List.mem_cons_of_mem _ hb')
      starting := ?_ }
    rintro _ h
    cases h
    exact hall b List.mem_cons_self
  | @start b hd _ =>
    refine { hs with starting := by simp, processing := fun b' hb' => ?_ }
    simp only [List.mem_append, List.mem_singleton, Worker.processing.injEq] at hb'
    rcases hb' with hb' | rfl
    · exact hs.processing b' hb'
    · exact hs.starting b' hd
  | closeResults hd _ _ _ => exact { hs with starting := by simp }
  | process hw _ =>
    refine { hs with processing := fun b' hb' => hs.processing b' ?_ }
    simp only [List.mem_append, List.mem_cons, reduceCtorEq, false_or] at hb'
    rw [hw]
    exact List.mem_append.mpr (hb'.imp_right (List.mem_cons_of_mem _))
  | sendResults hw _ =>
    refine { hs with processing := fun b' hb' => hs.processing b' ?_ }
    rw [hw]
    exact List.mem_append.mpr ((List.mem_append.mp hb').imp_right (List.mem_cons_of_mem _))
  | emit => exact { hs with }
  | next => exact { hs with }
  | closeOut => exact { hs with }

end ConditionallyBatchProcess

/-- The stage has asked for the transfer, at this time or before. -/
def BatchPacket.WantedBy (p : BatchPacket) (now : Time) (t : IBCV2Transfer) : Prop :=
  ∃ asked ≤ now, guardAt asked (p.forward t) = some true

/-- What a worker is given, the stage has asked for. -/
theorem wantedBy_of_timedSteps {p : BatchPacket}
    {args : ConditionallyBatchProcess.Args IBCV2Transfer}
    {input : List IBCV2Transfer} {start : Time}
    {x : ConditionallyBatchProcess.State IBCV2Transfer × Time}
    (h : ReflTransGen (TimedStep p args) ({ input := input }, start) x) :
    ConditionallyBatchProcess.Admits (p.WantedBy x.2) x.1 := by
  induction h with
  | refl => exact .start input
  | tail _ hstep ih =>
    cases hstep with
    | tick hnow => exact ih.mono fun t ⟨asked, hasked, hg⟩ => ⟨asked, Int.le_trans hasked hnow, hg⟩
    | @step s s' now hstep hheeds =>
      refine ih.step hstep fun t hf hb => ?_
      rcases hheeds t hf with h | ⟨should, hg, hd⟩
      · rw [h] at hb
        cases hb
      · rw [hd, ConditionallyBatchProcess.Args.decide] at hb
        split at hb
        · cases hb
        · rename_i hs
          simp only [Bool.or_eq_true, Bool.not_eq_true', not_or, Bool.not_eq_false] at hs
          exact ⟨now, Int.le_refl now, hs.2 ▸ hg⟩

/-! ## The second look -/

/-- Some reading of the clock for the transfer, by the recv processor, is past
its timeout. -/
def Ticks.TimedOut (s : Ticks) (t : IBCV2Transfer) : Prop :=
  ∃ now, (ClockReader.isTimedOut .deliverRecvPacket t.key, now) ∈ s.readings ∧
    t.packetTimeoutTimestamp < now

variable {pl : Pipeline} {k : TxKind} {s s' : Ticks} {t : IBCV2Transfer}

/-- A second look at a transfer: what it reads of the clock is for the transfer,
and it says no only to a packet to receive that has timed out. -/
structure Relooks (pl : Pipeline) (k : TxKind) (t : IBCV2Transfer) (s : Ticks) (should : Bool)
    (s' : Ticks) : Prop where
  later : s.now ≤ s'.now
  readings : s.readings ⊆ s'.readings
  own (reader : ClockReader) (now : Time) : (reader, now) ∈ s'.readings →
    (reader, now) ∉ s.readings →
    reader = .isTimedOut (batchOf pl k).state t.key ∧
    (should = true → k = .recv → now ≤ t.packetTimeoutTimestamp)
  refused : should = false → k = .recv ∧ s'.TimedOut t

theorem shouldProcess_relooks {asked : Time} (hasked : asked ≤ s.now)
    (hg : guardAt asked ((batchOf pl k).shouldProcess t) = some true) :
    wp ticking (fun c _ => c.request? = none) ((batchOf pl k).shouldProcess t)
      (Relooks pl k t s) s := by
  cases k with
  | recv =>
    change guardAt asked (if t.has .recv then _ else _) = _ at hg
    change wp _ _ (if t.has .recv then _ else _) _ _
    split at hg
    · cases hg
    rename_i hr
    rw [if_neg hr]
    refine ⟨rfl, fun now hnow =>
      ⟨hnow, List.subset_cons_self _ _, fun reader n hm hn => ?_, fun hf => ⟨rfl, now, ?_⟩⟩⟩
    · obtain ⟨rfl, rfl⟩ := Prod.mk.inj ((List.mem_cons.mp hm).resolve_right hn)
      exact ⟨rfl, fun hs _ => by simpa using hs⟩
    · exact ⟨List.mem_cons_self, by simpa using hf⟩
  | ack =>
    obtain ⟨should, he⟩ : ∃ should, (batchOf pl .ack).shouldProcess t = .ret should := ⟨_, rfl⟩
    rw [he] at hg ⊢
    obtain rfl := Option.some.inj hg
    exact ⟨Int.le_refl _, List.Subset.refl _, fun _ _ hm hn => absurd hm hn, by simp⟩
  | timeout =>
    have hg' : (decide (t.packetTimeoutTimestamp < asked) &&
        !t.has .recv && !t.has .ack && !t.has .timeout) = true :=
      Option.some.inj hg
    simp only [Bool.and_eq_true, Bool.not_eq_true', decide_eq_true_eq] at hg'
    obtain ⟨⟨⟨hlate, hr⟩, ha⟩, ht⟩ := hg'
    refine ⟨rfl, fun now hnow =>
      ⟨hnow, List.subset_cons_self _ _, fun reader n hm hn => ?_, fun hf => ?_⟩⟩
    · obtain ⟨rfl, rfl⟩ := Prod.mk.inj ((List.mem_cons.mp hm).resolve_right hn)
      exact ⟨rfl, fun _ h => by cases h⟩
    · -- It was late when the stage asked, so it is late now.
      have hnow' : t.packetTimeoutTimestamp < now :=
        Int.lt_of_lt_of_le hlate (Int.le_trans hasked hnow)
      simp [hnow', hr, ha, ht] at hf

theorem BatchPacket.WantedBy.shouldProcess {now : Time} (h : (batchOf pl k).WantedBy now t) :
    t.processingError = none ∧ ∃ asked ≤ now,
      guardAt asked ((batchOf pl k).shouldProcess t) = some true := by
  obtain ⟨asked, hasked, hg⟩ := h
  rw [BatchPacket.forward] at hg
  split at hg
  · cases hg
  · rename_i he
    exact ⟨by simpa [IBCV2Transfer.errored] using he, asked, hasked, hg⟩

/-- Where the middleware is in its loop over a batch. A transfer it has come to is
handed on, or `FAILED`, or refused because it has timed out; and if the keys
differ, one that is handed on had not timed out. -/
structure Rechecked (pl : Pipeline) (k : TxKind) (start : Ticks) (batch : List Ref) (h : Heap)
    (rest : List Ref) (a : Routed) (s : Ticks) : Prop where
  later : start.now ≤ s.now
  waiting : ∀ i ∈ rest, a.heap i = h i
  txID (i : Ref) : (batchOf pl k).txID? (a.heap i) = (batchOf pl k).txID? (h i)
  sublist : ∃ done, batch = done ++ rest ∧ a.toProcess ⊆ done
  passed : ∀ i ∈ batch, i ∉ rest → (h i).state ≠ .failed → i ∈ a.toProcess ∨ k = .recv ∧
    s.TimedOut (h i)
  active : ∀ i ∈ a.toProcess, (h i).state ≠ .failed
  inTime : (∀ i ∈ batch, ∀ j ∈ batch, (h i).key = (h j).key → i = j) → k = .recv →
    (∀ i ∈ a.toProcess, ¬s.TimedOut (h i)) ∧
      ∀ i ∈ rest, ∀ now, (ClockReader.isTimedOut .deliverRecvPacket (h i).key, now) ∉ s.readings

section Loop

variable {start : Ticks} {batch rest : List Ref} {h : Heap} {a : Routed} {r : Ref}

theorem Ticks.TimedOut.mono (hs : s.TimedOut t) (h : s.readings ⊆ s'.readings) : s'.TimedOut t := by
  obtain ⟨now, hm, hlate⟩ := hs
  exact ⟨now, h hm, hlate⟩

/-- The loop has come to `r`, and gone on with its other transfers as they are. -/
theorem Rechecked.pass (hi : Rechecked pl k start batch h (r :: rest) a s) (hnd : batch.Nodup)
    {should : Bool} (hl : Relooks pl k (h r) s should s') {b : Routed}
    (hheap : ∀ j, j ≠ r → b.heap j = a.heap j)
    (htxID : (batchOf pl k).txID? (b.heap r) = (batchOf pl k).txID? (a.heap r))
    (hb : b.toProcess = a.toProcess ∧ (should = true → (h r).state = .failed) ∨
      b.toProcess = a.toProcess ++ [r] ∧ should = true ∧ (h r).state ≠ .failed) :
    Rechecked pl k start batch h rest b s' := by
  obtain ⟨done, hbatch, hsub⟩ := hi.sublist
  have hnd' : (done ++ r :: rest).Nodup := hbatch ▸ hnd
  have hr : r ∉ rest := (List.nodup_cons.mp (List.nodup_append.mp hnd').2.1).1
  have hrd : r ∉ done := fun hm => (List.nodup_append.mp hnd').2.2 r hm r List.mem_cons_self rfl
  have hmemr : r ∈ batch := hbatch ▸ List.mem_append_right _ List.mem_cons_self
  have hsubset : a.toProcess ⊆ b.toProcess := by
    rcases hb with ⟨hb, -⟩ | ⟨hb, -⟩ <;> rw [hb]
    · exact List.Subset.refl _
    · exact List.subset_append_left _ _
  have hmem (i : Ref) (hm : i ∈ b.toProcess) : i ∈ a.toProcess ∨ i = r ∧ should = true ∧
      (h r).state ≠ .failed := by
    rcases hb with ⟨hb, -⟩ | ⟨hb, hs, hf⟩ <;> rw [hb] at hm
    · exact .inl hm
    · exact (List.mem_append.mp hm).imp_right fun hm => ⟨List.mem_singleton.mp hm, hs, hf⟩
  refine ⟨Int.le_trans hi.later hl.later, fun i hm => ?_, fun i => ?_,
    ⟨done ++ [r], by simp [hbatch], fun i hm => ?_⟩,
    fun i hm hn hf => ?_, fun i hm => ?_, fun hkeys hk =>
    ⟨fun i hm ⟨now, hread, hlate⟩ => ?_, fun i hm now hread => ?_⟩⟩
  · rw [hheap i fun e => hr (e ▸ hm)]
    exact hi.waiting i (List.mem_cons_of_mem _ hm)
  · by_cases hir : i = r
    · rw [hir, htxID, hi.txID]
    · rw [hheap i hir, hi.txID]
  · rcases hmem i hm with hm | ⟨rfl, -⟩
    · exact List.mem_append_left _ (hsub hm)
    · simp
  · by_cases hir : i = r
    · subst hir
      rcases hb with ⟨-, hs⟩ | ⟨hb, -⟩
      · exact .inr (hl.refused (Bool.eq_false_iff.mpr fun h => hf (hs h)))
      · exact .inl (hb ▸ List.mem_append_right _ (List.mem_singleton_self i))
    · exact (hi.passed i hm (List.not_mem_cons_of_ne_of_not_mem hir hn) hf).imp
        (fun h => hsubset h) fun h => ⟨h.1, h.2.mono hl.readings⟩
  · rcases hmem i hm with hm | ⟨rfl, -, hf⟩
    · exact hi.active i hm
    · exact hf
  · by_cases hold : (ClockReader.isTimedOut .deliverRecvPacket (h i).key, now) ∈ s.readings
    · rcases hmem i hm with hm | ⟨rfl, -⟩
      · exact (hi.inTime hkeys hk).1 i hm ⟨now, hold, hlate⟩
      · exact (hi.inTime hkeys hk).2 i List.mem_cons_self now hold
    · obtain ⟨hreader, hin⟩ := hl.own _ _ hread hold
      rcases hmem i hm with hm | ⟨rfl, hs, -⟩
      · -- Another transfer has another key.
        have hir := hkeys i (hbatch ▸ List.mem_append_left _ (hsub hm)) r hmemr
          (ClockReader.isTimedOut.inj hreader).2
        exact hrd (hir ▸ hsub hm)
      · exact absurd (hin hs hk) (Int.not_le.mpr hlate)
  · by_cases hold : (ClockReader.isTimedOut .deliverRecvPacket (h i).key, now) ∈ s.readings
    · exact (hi.inTime hkeys hk).2 i (List.mem_cons_of_mem _ hm) now hold
    · have hir := hkeys i (hbatch ▸ List.mem_append_right _ (List.mem_cons_of_mem _ hm)) r hmemr
        (ClockReader.isTimedOut.inj (hl.own _ _ hread hold).1).2
      exact hr (hir ▸ hm)

theorem routeOne_rechecked (hnd : batch.Nodup)
    (hwanted : ∀ i ∈ batch, (batchOf pl k).WantedBy start.now (h i))
    (hi : Rechecked pl k start batch h (r :: rest) a s) :
    wp ticking (fun c _ => c.request? = none)
      (IBCV2BatchProcessorMW.routeOne (batchOf pl k).processor r a)
      (Rechecked pl k start batch h rest) s := by
  obtain ⟨done, hbatch, -⟩ := hi.sublist
  obtain ⟨herr, asked, hasked, hg⟩ :=
    (hwanted r (hbatch ▸ List.mem_append_right _ List.mem_cons_self)).shouldProcess
  have hr : a.heap r = h r := hi.waiting r List.mem_cons_self
  refine wp_routeOne (fun hn => ?_) fun ha => ?_
  · -- It has no error, so it is `FAILED`, and the clock is not read.
    have hf : (h r).state = .failed :=
      by_contra fun hf => hn ⟨by rw [hr]; exact herr, by rw [hr]; exact hf⟩
    have hl : Relooks pl k (h r) s true s :=
      ⟨Int.le_refl _, List.Subset.refl _, fun _ _ hm hn => absurd hm hn, by simp⟩
    exact hi.pass hnd hl (fun _ _ => rfl) rfl (.inl ⟨rfl, fun _ => hf⟩)
  · rw [hr] at ha ⊢
    refine (shouldProcess_relooks (Int.le_trans hasked hi.later) hg).post fun should s₁ hl =>
      ⟨?_, ?_⟩
    · rintro rfl
      exact hi.pass hnd hl (fun _ _ => rfl) rfl (.inl ⟨rfl, by simp⟩)
    · rintro rfl
      refine ⟨rfl, fun ans => hi.pass hnd hl (fun j hj => a.heap_updated_of_ne _ ans hj) ?_
        (.inr ⟨a.toProcess_updated .., rfl, ha.2⟩)⟩
      cases ans with
      | error e =>
        rw [a.heap_updated_error]
        cases k <;> rfl
      | ok u =>
        rw [a.heap_updated_ok]
        cases k <;> rfl

theorem route_rechecked (hnd : batch.Nodup) {now : Time}
    (hwanted : ∀ i ∈ batch, (batchOf pl k).WantedBy now (h i)) :
    wp ticking (fun c _ => c.request? = none)
      (IBCV2BatchProcessorMW.route (batchOf pl k).processor batch { heap := h })
      (Rechecked pl k ⟨now, []⟩ batch h []) ⟨now, []⟩ := by
  refine wp_each _ (fun _ _ _ _ => routeOne_rechecked hnd hwanted) batch _ ?_
  exact ⟨Int.le_refl _, fun _ _ => rfl, fun _ => rfl, ⟨[], rfl, List.Subset.refl _⟩, fun i hm hn =>
    absurd hm hn, by simp, by simp⟩

end Loop

/-! ## The request -/

/-- A request that asks for something. -/
def RelayByTxRequest.Nonempty (req : RelayByTxRequest) : Prop :=
  req.txIds ≠ [] ∧ req.packetSequences ≠ []

theorem nonempty_requestOf_iff (transfers : List Ref) (h : Heap) :
    ((batchOf pl k).requestOf transfers h).Nonempty ↔
      ∃ r ∈ transfers, ((batchOf pl k).txID? (h r)).isSome = true := by
  obtain ⟨hids, hseqs⟩ :=
    BatchPacket.gather_scan pl k transfers (g := { heap := h }) (h := h) fun r => .refl _
  have hvalued : (∃ t ∈ transfers.map h, (batchOf pl k).scan.valued t = true) ↔
      ∃ r ∈ transfers, ((batchOf pl k).txID? (h r)).isSome = true := by
    simp only [List.mem_map, exists_exists_and_eq_and]
    rfl
  rw [RelayByTxRequest.Nonempty, BatchPacket.requestOf, txIds_request, packetSequences_request,
    hids, hseqs, List.nil_append, List.nil_append, ne_eq, ne_eq, List.map_eq_nil_iff, ← ne_eq,
    ← ne_eq, Scan.values_ne_nil,
    Scan.kept_ne_nil, and_self, hvalued]

/-- A program that does not read the clock leaves it as it is. -/
theorem Makes.still {α : Type} {x : Relay α} {P : Call → Prop} (hx : Makes ticking P x)
    (hP : ∀ c, P c → c.readsClock = false) (s : Ticks) :
    wp ticking (fun c s' => P c ∧ s' = s) x (fun _ s' => s' = s) s := by
  replace hx := hx s
  induction x with
  | ret a => rfl
  | call c k ih =>
    refine ⟨⟨hx.1, rfl⟩, fun ans hans => ?_⟩
    have hsame : ticking.next c ans s = s := by
      have hc := hP c hx.1
      cases c <;> first | rfl | cases hc
    rw [hsame]
    exact ih ans (hsame ▸ hx.2 ans hans)

/-- The transfer is still to be processed when the worker has come to its batch. -/
structure Remains (p : BatchPacket) (t : IBCV2Transfer) (s : Ticks) : Prop where
  active : t.state ≠ .failed
  decodes : (p.txID? t).isSome = true
  inTime : p.kind = .recv → ∀ now,
    (ClockReader.isTimedOut .deliverRecvPacket t.key, now) ∈ s.readings →
    now ≤ t.packetTimeoutTimestamp

theorem mem_ofList {d : IBCV2Transfer} {b : List IBCV2Transfer} {i : Ref}
    (hi : i ∈ List.range b.length) : Heap.ofList d b i ∈ b := by
  rw [ofList_apply d (List.mem_range.mp hi)]
  exact List.getElem_mem _

/-- What the loop hands on, in the terms of the batch. -/
theorem Rechecked.remains {start : Ticks} {d : IBCV2Transfer} {b : List IBCV2Transfer} {a : Routed}
    (hi : Rechecked pl k start (List.range b.length) (Heap.ofList d b) [] a s) :
    ((∃ t ∈ b, Remains (batchOf pl k) t s) → ∃ r ∈ a.toProcess,
      ((batchOf pl k).txID? (a.heap r)).isSome = true) ∧
      ((b.map (·.key)).Nodup →
      (∃ r ∈ a.toProcess, ((batchOf pl k).txID? (a.heap r)).isSome = true) →
        ∃ t ∈ b, Remains (batchOf pl k) t s) := by
  constructor
  · rintro ⟨t, ht, hremains⟩
    obtain ⟨i, hlt, rfl⟩ := List.mem_iff_getElem.mp ht
    have hget : Heap.ofList d b i = b[i] := ofList_apply d hlt
    rcases hi.passed i (List.mem_range.mpr hlt) List.not_mem_nil
      (by rw [hget]; exact hremains.active) with hm | ⟨hk, hlate⟩
    · exact ⟨i, hm, by rw [hi.txID, hget]; exact hremains.decodes⟩
    · obtain ⟨now, hread, hlate⟩ := hlate
      rw [hget] at hread hlate
      exact absurd (hremains.inTime ((batchOf_kind pl k).trans hk) now hread) (Int.not_le.mpr hlate)
  · rintro hnd ⟨r, hr, hd⟩
    obtain ⟨done, hbatch, hsub⟩ := hi.sublist
    have hmem : r ∈ List.range b.length := by
      rw [hbatch]
      exact List.mem_append_left _ (hsub hr)
    have hkeys : ∀ i ∈ List.range b.length, ∀ j ∈ List.range b.length,
        (Heap.ofList d b i).key = (Heap.ofList d b j).key → i = j := by
      intro i hi j hj he
      have hj' := List.mem_range.mp hj
      refine ofList_key_inj d (List.getElem?_eq_getElem hj') hnd (List.mem_range.mp hi) ?_
      rw [he, ofList_apply d hj']
    refine ⟨_, mem_ofList hmem, hi.active r hr, hi.txID r ▸ hd, fun hk now hread => ?_⟩
    by_contra hlate
    exact (hi.inTime hkeys ((batchOf_kind pl k).symm.trans hk)).1 r hr
      ⟨now, hread, Int.not_le.mp hlate⟩

/-- In every run of a batch stage with a clock that does not go back: the
requests a worker makes for its batch, and those of the txs it delivers. -/
theorem batch_request_nonempty_iff {args : ConditionallyBatchProcess.Args IBCV2Transfer}
    {input : List IBCV2Transfer}
    {start now : Time} {st : ConditionallyBatchProcess.State IBCV2Transfer} {d : IBCV2Transfer}
    {b : List IBCV2Transfer} {x : Relay (Except Err (List Ref) × Heap)} {c : Call}
    {req : RelayByTxRequest}
    (hstage : ReflTransGen (TimedStep (batchOf pl k) args) ({ input := input }, start) (st, now))
    (hb : .processing b ∈ st.workers)
    (hrun : Steps ticking ((batchOf pl k).processBatch d b) ⟨now, []⟩ x s)
    (hcall : x.next? = some c) (hreq : c.request? = some req) :
    ((∃ t ∈ b, Remains (batchOf pl k) t s) → req.Nonempty) ∧
      ((b.map (·.key)).Nodup → (req.Nonempty ↔ ∃ t ∈ b, Remains (batchOf pl k) t s)) := by
  have hwanted : ∀ i ∈ List.range b.length, (batchOf pl k).WantedBy now (Heap.ofList d b i) :=
    fun i hi => (wantedBy_of_timedSteps hstage).processing b hb _ (mem_ofList hi)
  have hwp : wp ticking (fun c s => ∀ req, c.request? = some req →
      ((∃ t ∈ b, Remains (batchOf pl k) t s) → req.Nonempty) ∧
        ((b.map (·.key)).Nodup → req.Nonempty → ∃ t ∈ b, Remains (batchOf pl k) t s))
      ((batchOf pl k).processBatch d b) (fun _ _ => True) ⟨now, []⟩ := by
    refine wp_bind.mpr ((route_rechecked List.nodup_range hwanted).mono (fun c _ hc req hr => ?_)
      fun a s₁ ha => ?_)
    · rw [hc] at hr
      cases hr
    have hasks := ((batchOf pl k).process_asks a.toProcess a.heap).still (fun _ hc => hc.clock) s₁
    refine wp_bind.mpr (hasks.mono ?_ ?_)
    · rintro c _ ⟨hc, rfl⟩ req hr
      rw [hc.request req hr, nonempty_requestOf_iff]
      exact ha.remains
    · rintro ⟨res, h'⟩ s₂ -
      cases res with
      | error err =>
        change wp _ _ (if err.is .contextCanceled then _ else _) _ _
        split <;> trivial
      | ok out => trivial
  obtain ⟨hsuff, hnec⟩ := hwp.next hrun hcall req hreq
  exact ⟨hsuff, fun hnd => ⟨hnec hnd, hsuff⟩⟩

/-! ## A batch of one -/

/-- A recv stage whose batches have one transfer, which times out at 10. -/
def recvStage : BatchPacket := batchOf (pipelineOf someOptions false (insertedRow somePacket)) .recv

def batchesOfOne : ConditionallyBatchProcess.Args IBCV2Transfer :=
  ⟨IBCV2Transfer.errored, 1, 1, Nat.one_pos⟩

/-- The transfer comes in at 0, and a worker comes to its batch at any time
later. -/
theorem stage_batchesOfOne (now : Time)
    (hnow : 0 ≤ now) : ∃ st : ConditionallyBatchProcess.State IBCV2Transfer,
    ReflTransGen (TimedStep recvStage batchesOfOne) ({ input := [someTransfers 0] }, 0) (st, now) ∧
      .processing [someTransfers 0] ∈ st.workers := by
  have hdecide : batchesOfOne.decide (someTransfers 0) true = .batching (someTransfers 0) := rfl
  refine ⟨_, .tail (.tail (.tail (.tail (.tail (.tail (.tail (.tail .refl
    (.step (.receive rfl rfl) (by simp)))
    (.step (.decide true rfl) ?_))
    (.step (.batch rfl rfl) (by simp [hdecide])))
    (.step (.sendBatch rfl rfl) (by simp)))
    (.step (.fill rfl (by decide)) (by simp)))
    (.step (.take rfl rfl) (by simp)))
    (.step (.start rfl (by decide)) (by simp)))
    (.tick hnow), List.mem_singleton_self _⟩
  rintro t h
  obtain rfl := ConditionallyBatchProcess.Forwarder.deciding.inj h
  exact .inr ⟨true, by decide +kernel, rfl⟩

/-- A run of the worker at that time, with the clock standing still. -/
def recheckOne.run (now : Time) (n : Nat) : Relay (Except Err (List Ref) × Heap) × Ticks :=
  runN ticking.next (fun c s => match c with
    | .now _ => s.now
    | c => Answers.answer {} c) n (recvStage.processBatch (someTransfers 0) [someTransfers 0])
      ⟨now, []⟩

theorem recheckOne.steps (now : Time) (n : Nat) (P : RelayByTxRequest → Prop) [DecidablePred P]
    (h : ((recheckOne.run now n).1.next?.bind Call.request?).any P = true) :
    ∃ c req, Steps ticking (recvStage.processBatch (someTransfers 0) [someTransfers 0]) ⟨now, []⟩
      (recheckOne.run now n).1
      (recheckOne.run now n).2 ∧ (recheckOne.run now n).1.next? = some c ∧ c.request? = some req ∧
      P req := by
  obtain ⟨req, hreq, hP⟩ := (Option.any_eq_true _ _).mp h
  obtain ⟨c, hc, hreq⟩ := Option.bind_eq_some_iff.mp hreq
  refine ⟨c, req, steps_runN (S := ticking) (fun c s => ?_) n _ _, hc, hreq, of_decide_eq_true hP⟩
  cases c <;> first | trivial | exact Int.le_refl _

theorem batch_request_nonempty_early : ∃ x s c req,
    Steps ticking (recvStage.processBatch (someTransfers 0) [someTransfers 0]) ⟨5, []⟩ x s ∧
      x.next? = some c ∧ c.request? = some req ∧ req.Nonempty := by
  obtain ⟨st, hst, hb⟩ := stage_batchesOfOne 5 (by decide)
  obtain ⟨c, req, hrun, hc, hreq, -⟩ := recheckOne.steps 5 2 (fun _ => True) (by decide +kernel)
  refine ⟨_, _, c, req, hrun, hc, hreq,
    (batch_request_nonempty_iff hst hb hrun hc hreq).1 ⟨_, List.mem_singleton_self _, ?_⟩⟩
  refine ⟨by decide +kernel, by decide +kernel, fun _ now hread => ?_⟩
  have hall : ∀ r ∈ (recheckOne.run 5 2).2.readings,
      r.2 ≤ (someTransfers 0).packetTimeoutTimestamp := by decide +kernel
  exact hall _ hread

/-- A worker that comes to the batch after the timeout asks for everything. -/
theorem batch_request_empty : ∃ st x s req,
    ReflTransGen (TimedStep recvStage batchesOfOne) ({ input := [someTransfers 0] }, 0) (st, 20) ∧
      .processing [someTransfers 0] ∈ st.workers ∧
      Steps ticking (recvStage.processBatch (someTransfers 0) [someTransfers 0]) ⟨20, []⟩ x s ∧
      x.next? = some (.relayByTx req) ∧ req.txIds = [] ∧ req.packetSequences = [] := by
  obtain ⟨st, hst, hb⟩ := stage_batchesOfOne 20 (by decide)
  obtain ⟨c, req, hrun, hc, -⟩ := recheckOne.steps 20 1 (fun _ => True) (by decide +kernel)
  exact ⟨st, _, _, recvStage.requestOf [] (Heap.ofList (someTransfers 0) [someTransfers 0]), hst,
    hb, hrun, rfl, rfl, rfl⟩

end PlatformRelayer

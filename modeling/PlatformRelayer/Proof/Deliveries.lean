import PlatformRelayer.Proof.Middleware

/-!
# What is recorded of a delivery

Which transfers are in the request is decided in the first loop of a batch
processor, by the hash that a proof is about; which ones are recorded is
decided after the delivery, by the error of a transfer. The two agree but for
the transfers whose state could not be written, which come to the processor
with an error (`submitted_iff_recorded`).

The transaction and the last loop come after everything that can fail, but for
the commit itself, so a batch processor that returns an error has recorded
nothing (`batch_all_or_nothing`).
-/

namespace PlatformRelayer

open Db Prog

/-! ## What a trace says -/

/-- The requests to the relay service that were answered. -/
def requests (tr : List Event) : List RelayByTxRequest :=
  tr.filterMap fun
    | ⟨.relayByTx req, .ok _⟩ => some req
    | _ => none

/-- The txs that were delivered. -/
def deliveries (tr : List Event) : List BridgeTx :=
  tr.filterMap fun
    | ⟨.deliverTx .., .ok tx⟩ => some tx
    | _ => none

/-- The statements of the transactions that were committed. -/
def commits (tr : List Event) : List (List Query) :=
  tr.filterMap fun
    | ⟨.txCommit qs, .ok _⟩ => some qs
    | _ => none

/-- The state of a row could not be written. -/
def StateFailed (state : Ibcv2RelayStatus) (key : TransferKey) (tr : List Event) : Prop :=
  ∃ err, (updateTransferState state key, err) ∈ failedStatements tr

/-- The statements that were tried, but for those of transactions. -/
def triedStatements (tr : List Event) : List Query :=
  tr.filterMap fun
    | ⟨.exec q, _⟩ => some q
    | _ => none

/-- The transfers of a batch whose states were tried to be written: those that
the guard lets in. -/
def tried (state : Ibcv2RelayStatus) (h : Heap) (batch : List Ref) (tr : List Event) : List Ref :=
  batch.filter fun r => updateTransferState state (h r).key ∈ triedStatements tr

/-- Nothing was requested, delivered or committed. -/
structure NothingSent (tr : List Event) : Prop where
  requests : requests tr = []
  deliveries : deliveries tr = []
  commits : commits tr = []

theorem NothingSent.exec {tr : List Event} (h : NothingSent tr) (q : Query)
    (ans : Except Err Unit) :
    NothingSent (⟨.exec q, ans⟩ :: tr) := ⟨h.requests, h.deliveries, h.commits⟩

/-- The guards of the three processors read the clock at most. -/
theorem shouldProcess_reads (pl : Pipeline) (k : TxKind) (t : IBCV2Transfer) (w : World) :
    wp world (fun _ _ => True) ((batchOf pl k).shouldProcess t) (fun _ w' =>
      failedStatements w'.trace = failedStatements w.trace ∧
      triedStatements w'.trace = triedStatements w.trace ∧
        (NothingSent w.trace → NothingSent w'.trace)) w := by
  rcases shouldProcess_eq pl k t with ⟨_, h⟩ | ⟨_, _, h⟩ <;> rw [h]
  · exact ⟨rfl, rfl, id⟩
  · exact ⟨trivial, fun _ _ => ⟨rfl, rfl, fun h => ⟨h.requests, h.deliveries, h.commits⟩⟩⟩

/-! ## The loop of the middleware -/

/-- The invariant of the loop: the transfers handed to the processor are those
whose state was tried to be written, and of these the ones with an error are
those whose state could not be written. -/
structure Routed.Marked (state : Ibcv2RelayStatus) (batch rest : List Ref) (h : Heap) (a : Routed)
    (tr : List Event) : Prop where
  along : a.Along batch h rest
  same (r : Ref) : ∃ state err, a.heap r = { h r with state := state, processingError := err }
  tried (r : Ref) : r ∈ batch →
    (r ∈ a.toProcess ↔ updateTransferState state (h r).key ∈ triedStatements tr)
  handed (r : Ref) : r ∈ a.toProcess → ((a.heap r).errored = true ↔ StateFailed state (h r).key tr)
  others (r : Ref) : r ∈ batch → r ∉ a.toProcess → ¬StateFailed state (h r).key tr
  sent : NothingSent tr

section Loop

variable {pl : Pipeline} {k : TxKind} {state : Ibcv2RelayStatus} {batch rest : List Ref} {h : Heap}
  {a : Routed}
  {w w' : World} {r : Ref} {tr tr' : List Event}

/-- Calls that are no statements change nothing. -/
theorem Routed.Marked.mono (hm : a.Marked state batch rest h tr)
    (hf : failedStatements tr' = failedStatements tr)
    (ht : triedStatements tr' = triedStatements tr)
    (hs : NothingSent tr') : a.Marked state batch rest h tr' where
  along := hm.along
  same := hm.same
  tried j hj := ht ▸ hm.tried j hj
  handed j hj := by
    rw [StateFailed, hf]
    exact hm.handed j hj
  others j hj hn := by
    rw [StateFailed, hf]
    exact hm.others j hj hn
  sent := hs

theorem Routed.Marked.skip (hm : a.Marked state batch (r :: rest) h tr) :
    (a.skip r).Marked state batch rest h tr :=
  ⟨hm.along.skip, hm.same, hm.tried, hm.handed, hm.others, hm.sent⟩

theorem stateFailed_error {K K' : TransferKey} {err : Err} :
    StateFailed state K (⟨.exec (updateTransferState state K'), .error err⟩ :: tr) ↔ K = K' ∨
      StateFailed state K tr := by
  have hcons : failedStatements (⟨.exec (updateTransferState state K'), .error err⟩ :: tr) =
      (updateTransferState state K', err) :: failedStatements tr := rfl
  rw [StateFailed, hcons]
  simp only [StateFailed, List.mem_cons, Prod.mk.injEq, updateTransferState, Query.mk.injEq,
    true_and]
  refine ⟨fun ⟨e, he⟩ => he.imp And.left fun he => ⟨e, he⟩, fun h => ?_⟩
  rcases h with rfl | ⟨e, he⟩
  · exact ⟨err, .inl ⟨rfl, rfl⟩⟩
  · exact ⟨e, .inr he⟩

theorem Routed.Marked.updated (hm : a.Marked state batch (r :: rest) h tr) (hnd : batch.Nodup)
    (hkeys : ∀ i ∈ batch, ∀ j ∈ batch, (h i).key = (h j).key → i = j)
    (he : (a.heap r).errored = false)
    (ans : Except Err Unit) : (a.updated r state ans).Marked state batch rest h
      (⟨.exec (updateTransferState state (a.heap r).key), ans⟩ :: tr) := by
  have hr := hm.along.mem
  have hkey := hm.along.key r
  -- The answer is about `r`: of the others nothing is known that was not known before.
  have hfailed (j : Ref) (hj : j ∈ batch) (hjr : j ≠ r) :
      StateFailed state (h j).key (⟨.exec (updateTransferState state (a.heap r).key), ans⟩ :: tr) ↔
        StateFailed state (h j).key tr := by
    cases ans with
    | error err =>
      rw [stateFailed_error, or_iff_right]
      exact fun e => hjr (hkeys j hj r hr (e.trans hkey))
    | ok _ => exact Iff.rfl
  have hself : ((a.updated r state ans).heap r).errored = true ↔
      StateFailed state (h r).key
      (⟨.exec (updateTransferState state (a.heap r).key), ans⟩ :: tr) := by
    cases ans with
    | error err =>
      rw [a.heap_updated_error]
      exact iff_of_true rfl (stateFailed_error.mpr (.inl hkey.symm))
    | ok u =>
      rw [a.heap_updated_ok]
      exact iff_of_false (by simpa [IBCV2Transfer.errored] using he)
        (hm.others r hr (hm.along.not_mem hnd))
  refine ⟨hm.along.updated state ans, fun j => ?_, fun j hj => ?_, fun j hj => ?_, fun j hj hn =>
    ?_, hm.sent.exec _ _⟩
  · obtain ⟨st, err, hj⟩ := hm.same j
    by_cases hjr : j = r
    · subst hjr
      cases ans with
      | error e => exact ⟨state, _, by rw [a.heap_updated_error, hj]⟩
      | ok _ => exact ⟨state, err, by rw [a.heap_updated_ok, hj]⟩
    · exact ⟨st, err, (a.heap_updated_of_ne state ans hjr).trans hj⟩
  · have hcons : triedStatements (⟨.exec (updateTransferState state (a.heap r).key), ans⟩ :: tr) =
        updateTransferState state (a.heap r).key :: triedStatements tr := rfl
    rw [a.toProcess_updated, List.mem_append, List.mem_singleton, hm.tried j hj, hcons,
      List.mem_cons, or_comm]
    refine or_congr_left ⟨fun e => by rw [e, hkey], fun e => ?_⟩
    exact hkeys j hj r hr ((congrArg Query.key e).trans hkey)
  · by_cases hjr : j = r
    · exact hjr ▸ hself
    rw [a.toProcess_updated, List.mem_append, List.mem_singleton] at hj
    have hj' := hj.resolve_right hjr
    obtain ⟨done, hd, hl, -⟩ := hm.along.sublist
    have hjb : j ∈ batch := hd ▸ List.mem_append_left _ (hl.subset hj')
    rw [a.heap_updated_of_ne state ans hjr, hfailed j hjb hjr]
    exact hm.handed j hj'
  · rw [a.toProcess_updated, List.mem_append, List.mem_singleton, not_or] at hn
    rw [hfailed j hj hn.2]
    exact hm.others j hj hn.1

theorem routeOne_marked (hnd : batch.Nodup)
    (hkeys : ∀ i ∈ batch, ∀ j ∈ batch, (h i).key = (h j).key → i = j)
    (hm : a.Marked (batchOf pl k).state batch (r :: rest) h w.trace) :
    wp world (fun _ _ => True) (IBCV2BatchProcessorMW.routeOne (batchOf pl k).processor r a)
      (fun b w' => b.Marked (batchOf pl k).state batch rest h w'.trace) w := by
  refine wp_routeOne (fun _ => hm.skip) fun ha => (shouldProcess_reads pl k (a.heap r) w).post ?_
  rintro should w₁ ⟨hf, ht, hs⟩
  have hm₁ := hm.mono hf ht (hs hm.sent)
  have he : (a.heap r).errored = false := by simp [IBCV2Transfer.errored, ha.1]
  exact ⟨fun _ => hm₁.skip, fun _ => ⟨trivial, fun ans => hm₁.updated hnd hkeys he ans⟩⟩

theorem route_marked (hnd : batch.Nodup)
    (hkeys : ∀ i ∈ batch, ∀ j ∈ batch, (h i).key = (h j).key → i = j) (db : Transfers) :
    wp world (fun _ _ => True)
      (IBCV2BatchProcessorMW.route (batchOf pl k).processor batch { heap := h })
      (fun a w' => a.Marked (batchOf pl k).state batch [] h w'.trace) ⟨db, []⟩ :=
  wp_each (fun rest (a : Routed) (w : World) => a.Marked (batchOf pl k).state batch rest h w.trace)
    (fun _ _ _ _ => routeOne_marked hnd hkeys) batch _
    ⟨.start batch h, fun r => ⟨(h r).state, (h r).processingError, rfl⟩,
      fun _ _ => iff_of_false List.not_mem_nil List.not_mem_nil, by simp,
      fun _ _ _ hf => List.not_mem_nil hf.choose_spec, ⟨rfl, rfl, rfl⟩⟩

theorem eq_filter_of_sublist {l l' : List Ref} (hl : l.Sublist l') (hnd : l'.Nodup) {P : Ref → Bool}
    (hP : ∀ r ∈ l', r ∈ l ↔ P r = true) : l = l'.filter P := by
  induction hl with
  | slnil => rfl
  | @cons l l' r hl ih =>
    obtain ⟨hr, hnd⟩ := List.nodup_cons.mp hnd
    have hPr : ¬P r = true := fun h => hr (hl.subset ((hP r List.mem_cons_self).mpr h))
    rw [List.filter_cons_of_neg hPr]
    exact ih hnd fun j hj => hP j (List.mem_cons_of_mem _ hj)
  | @cons_cons l l' r hl ih =>
    obtain ⟨hr, hnd⟩ := List.nodup_cons.mp hnd
    rw [List.filter_cons_of_pos ((hP r List.mem_cons_self).mp List.mem_cons_self),
      ← ih hnd fun j hj => ?_]
    have hne : j ≠ r := fun e => hr (e ▸ hj)
    rw [← hP j (List.mem_cons_of_mem _ hj), List.mem_cons, or_iff_right hne]

/-- After the loop, what is handed to the processor is what the guard let
in. -/
theorem Routed.Marked.toProcess_eq (hm : a.Marked state batch [] h tr) (hnd : batch.Nodup) :
    a.toProcess = PlatformRelayer.tried state h batch tr :=
  eq_filter_of_sublist hm.along.done.1 hnd fun r hr => (hm.tried r hr).trans decide_eq_true_iff.symm

/-- The loop changes nothing that the request is made from. -/
theorem Routed.Marked.admitted_eq (hm : a.Marked state batch rest h tr) (transfers : List Ref)
    (txSet : List String) :
    (batchOf pl k).admitted a.heap transfers txSet = (batchOf pl k).admitted h transfers txSet := by
  refine (batchOf pl k).admitted_congr (fun r _ => ?_) txSet
  obtain ⟨st, err, hr⟩ := hm.same r
  rw [hr]
  cases k <;> exact ⟨rfl, rfl⟩

end Loop

/-! ## The delivery -/

/-- What is seen of a delivery. -/
structure Log where
  db : Transfers
  tried : List Query
  failed : List (Query × Err)
  requests : List RelayByTxRequest
  deliveries : List BridgeTx
  commits : List (List Query)

def World.log (w : World) : Log where
  db := w.db
  tried := triedStatements w.trace
  failed := failedStatements w.trace
  requests := requests w.trace
  deliveries := deliveries w.trace
  commits := commits w.trace

section Submit

variable {w w' : World} {l : Log}

theorem txStatements_log (sts : List (Query × (Err → Err))) (h : w.log = l) :
    wp world (fun _ _ => True) (txStatements sts) (fun _ w' => w'.log = l) w := by
  induction sts generalizing w with
  | nil => exact h
  | cons q sts ih => exact wp_try ⟨trivial, fun _ _ => ⟨fun _ _ => h, fun _ _ => ih h⟩⟩

theorem execTx_log (sts : List (Query × (Err → Err))) (h : w.log = l) :
    wp world (fun _ _ => True) (execTx sts) (fun r w' => (∀ e, r = .error e → w'.log = l) ∧
      ∀ a, r = .ok a → w'.log =
        { l with db := execAll (sts.map (·.1)) l.db, commits := sts.map (·.1) :: l.commits })
        w := by
  refine wp_try ⟨trivial, fun ans _ => ⟨fun _ _ => of_error h, fun _ _ => ?_⟩⟩
  have hbegin : (world.next .txBegin ans w).log = l := h
  refine wp_bind.mpr ((txStatements_log sts hbegin).post fun r w₁ h₁ => ?_)
  cases r with
  | error e =>
    refine ⟨trivial, fun ans _ => ?_⟩
    cases ans with
    | error _ => exact of_error h₁
    | ok _ => exact of_error h₁
  | ok _ =>
    subst h₁
    refine ⟨trivial, fun ans _ => ⟨?_, ?_⟩⟩
    · rintro e rfl
      rfl
    · rintro _ rfl
      rfl

theorem waitForEVM_log (chainID : String) (h : w.log = l) :
    wp world (fun _ _ => True) (BatchPacket.waitForEVM chainID) (fun _ w' => w'.log = l) w := by
  refine ⟨trivial, fun type _ => ?_⟩
  cases type with
  | evm => exact ⟨trivial, fun _ _ => h⟩
  | cosmos => exact h
  | svm => exact h

theorem submit_log (p : BatchPacket) (req : RelayByTxRequest) (numTransfers : Nat)
    (transfers : List Ref) (h : Heap) (hl : w.log = l) :
    wp world (fun _ _ => True) (p.submit req numTransfers transfers h) (fun r w' =>
      (∀ e, r = .error e → commits w'.trace = l.commits ∧ w'.db = l.db) ∧
      ∀ tx, r = .ok tx → w'.log = { l with
        db := execAll ((p.statements tx transfers h).map (·.1)) l.db
        requests := req :: l.requests
        deliveries := tx :: l.deliveries
        commits := (p.statements tx transfers h).map (·.1) :: l.commits }) w := by
  -- Each call before the commit leaves the table and the commits as they are.
  have hc : commits w.trace = l.commits ∧ w.db = l.db :=
  ⟨congrArg Log.commits hl, congrArg Log.db hl⟩
  refine wp_try ⟨trivial, fun ans _ => ⟨fun _ _ => of_error hc, ?_⟩⟩
  rintro resp rfl
  have h₁ : (world.next (.relayByTx req) (.ok resp) w).log =
      { l with requests := req :: l.requests } := by
    rw [← hl]
    rfl
  refine wp_try ⟨trivial, fun ans _ => ⟨fun _ _ => of_error hc, fun _ _ => ?_⟩⟩
  have h₂ : (world.next (.getClient p.chainID) ans (world.next (.relayByTx req) (.ok resp) w)).log =
      _ := h₁
  refine wp_try ((waitForEVM_log p.chainID h₂).post fun r w₃ h₃ => ?_)
  have hc₃ : commits w₃.trace = l.commits ∧ w₃.db = l.db :=
    ⟨congrArg Log.commits h₃, congrArg Log.db h₃⟩
  refine ⟨fun _ _ => of_error hc₃, fun _ _ => ?_⟩
  refine wp_try ⟨trivial, fun ans _ => ⟨fun _ _ => of_error hc₃, ?_⟩⟩
  rintro tx rfl
  have h₄ :
      (world.next (.deliverTx p.chainID resp.tx resp.address ⟨p.kind, req, transfers.map h⟩)
        (.ok tx) w₃).log =
      { l with requests := req :: l.requests, deliveries := tx :: l.deliveries } :=
    congrArg (fun l => { l with deliveries := tx :: l.deliveries }) h₃
  refine wp_try ((execTx_log _ h₄).post fun r w₅ h₅ =>
    ⟨fun e he => of_error ?_, fun a ha => of_ok ?_⟩)
  · exact ⟨congrArg Log.commits (h₅.1 e he), congrArg Log.db (h₅.1 e he)⟩
  · exact h₅.2 a ha

end Submit

/-! ## Submitted and recorded -/

/-- The delivered tx was recorded for a transfer: its update is in the
transaction, and its row and its copy in memory have the hash and the time. -/
structure Recorded (k : TxKind) (tx : BridgeTx) (t : IBCV2Transfer) (qs : List Query)
    (row : Option Ibcv2Transfer) (copy : IBCV2Transfer) : Prop where
  statement : t.recordTx k tx ∈ qs
  row : ∃ r, row = some r ∧ (r.tx k).hash = some tx.hash ∧ (r.tx k).time = some tx.timestamp
  copy : (copy.tx k).hash = some tx.hash ∧ (copy.tx k).time = some tx.timestamp

theorem mem_statements {p : BatchPacket} {k : TxKind} (hk : p.kind = k) {tx : BridgeTx}
    {transfers : List Ref} {h : Heap} {t : IBCV2Transfer} :
    t.recordTx k tx ∈ (p.statements tx transfers h).map (·.1) ↔
      ∃ r ∈ transfers, (h r).errored = false ∧ (h r).key = t.key := by
  subst hk
  simp only [BatchPacket.statements, List.map_map, List.mem_map, List.mem_filter,
    Function.comp_apply, Bool.not_eq_true', IBCV2Transfer.recordTx, updateTransferTx,
    Query.mk.injEq, true_and, and_assoc]

section Member

variable {pl : Pipeline} {k : TxKind} {batch : List Ref} {h : Heap} {a : Routed} {tr : List Event}
  {r : Ref}
  (hm : a.Marked (batchOf pl k).state batch [] h tr) (hnd : batch.Nodup)
  (hkeys : ∀ i ∈ batch, ∀ j ∈ batch, (h i).key = (h j).key → i = j)
include hm hnd hkeys

/-- The sequences in the request are those of the admitted transfers. -/
theorem sequence_mem_request (hpipe : ∀ i ∈ batch, newPipelineKey (h i) = pl.key) (hr : r ∈ batch) :
    (h r).sequence ∈ ((batchOf pl k).request
      ((batchOf pl k).gather a.toProcess { heap := a.heap }).txIDs
        ((batchOf pl k).gather a.toProcess { heap := a.heap }).sequences).packetSequences ↔
      r ∈ (batchOf pl k).admitted a.heap a.toProcess [] := by
  obtain ⟨hl, -⟩ := hm.along.done
  have hg := (batchOf pl k).gather_spec (hl.nodup hnd) { heap := a.heap }
  rw [packetSequences_request, hg.sequences, List.nil_append, List.mem_map]
  refine ⟨?_, fun hr => ⟨r, hr, hm.along.sequence r⟩⟩
  rintro ⟨j, hj, hjr⟩
  have hjb := hl.subset (((batchOf pl k).admitted_sublist ..).subset hj)
  have hkey : (h j).key = (h r).key :=
    key_eq_of_sequence_eq ((hpipe j hjb).trans (hpipe r hr).symm)
      ((hm.along.sequence j).symm.trans hjr)
  exact hkeys j hjb r hr hkey ▸ hj

/-- The tx is recorded for the admitted transfers whose state was written. -/
theorem recorded_iff (tx : BridgeTx) {db : Transfers} (hrow : (db.row? (h r).key).isSome = true)
    (hr : r ∈ batch) : Recorded k tx (h r)
        (((batchOf pl k).statements tx a.toProcess
          ((batchOf pl k).gather a.toProcess { heap := a.heap }).heap).map (·.1))
        ((execAll (((batchOf pl k).statements tx a.toProcess
          ((batchOf pl k).gather a.toProcess { heap := a.heap }).heap).map (·.1)) db).row?
          (h r).key)
        ((batchOf pl k).recordAll tx a.toProcess
        ((batchOf pl k).gather a.toProcess { heap := a.heap }).heap r) ↔
      r ∈ (batchOf pl k).admitted a.heap a.toProcess [] ∧
      ¬StateFailed (batchOf pl k).state (h r).key tr := by
  obtain ⟨hl, -⟩ := hm.along.done
  have hg := (batchOf pl k).gather_spec (hl.nodup hnd) { heap := a.heap }
  set g := (batchOf pl k).gather a.toProcess { heap := a.heap }
  have hkey (j : Ref) : (g.heap j).key = (h j).key := (hg.key j).trans (hm.along.key j)
  -- The transfers without an error after the first loop.
  have hgood : r ∈ a.toProcess ∧ (g.heap r).errored = false ↔
      r ∈ (batchOf pl k).admitted a.heap a.toProcess [] ∧
      ¬StateFailed (batchOf pl k).state (h r).key tr := by
    by_cases hadm : r ∈ (batchOf pl k).admitted a.heap a.toProcess []
    · have hmem := ((batchOf pl k).admitted_sublist ..).subset hadm
      rw [show g.heap r = a.heap r from hg.kept r (.inl hadm), ← hm.handed r hmem]
      simp [hmem, hadm]
    · refine iff_of_false ?_ fun hn => hadm hn.1
      rintro ⟨hmem, he⟩
      obtain ⟨err, hfail⟩ := hg.failed r hmem hadm
      rw [hfail] at he
      cases he
  rw [← hgood]
  refine ⟨fun hrec => ?_, fun ⟨hmem, he⟩ => ⟨?_, ?_, ?_⟩⟩
  · obtain ⟨j, hj, hej, hkj⟩ := (mem_statements (batchOf_kind pl k)).mp hrec.statement
    obtain rfl := hkeys j (hl.subset hj) r hr ((hkey j).symm.trans hkj)
    exact ⟨hj, hej⟩
  · exact (mem_statements (batchOf_kind pl k)).mpr ⟨r, hmem, he, hkey r⟩
  · obtain ⟨row, hrow⟩ := Option.isSome_iff_exists.mp hrow
    refine ⟨_, row?_execAll_on _ hrow, ?_⟩
    rw [BatchPacket.foldl_statements tx (hl.nodup hnd) (hkey r) fun j hj hjr e =>
      hjr (hkeys j (hl.subset hj) r hr ((hkey j).symm.trans e)), if_pos ⟨hmem, he⟩, batchOf_kind,
        tx_recorded, if_pos rfl]
    exact ⟨rfl, rfl⟩
  · rw [BatchPacket.recordAll_apply tx (hl.nodup hnd), if_pos ⟨hmem, he⟩, batchOf_record]
    exact ⟨IBCV2Transfer.hash_record .., IBCV2Transfer.time_record ..⟩

end Member

theorem rows_persist {α : Type} {x x' : Relay α} {w w' : World} (h : Steps world x w x' w')
    {K : TransferKey} (hK : (w.db.row? K).isSome = true) : (w'.db.row? K).isSome = true := by
  induction h with
  | refl => exact hK
  | @call c _ s _ _ ans _ _ ih =>
    obtain ⟨r, hr⟩ := Option.isSome_iff_exists.mp hK
    refine ih ?_
    rw [show (world.next c ans s).db = c.effect ans s.db from rfl, row?_effect c ans hr]
    rfl

/-- A batch of distinct transfers of one pipeline, each with its row. -/
structure Batch (pl : Pipeline) (batch : List Ref) (h : Heap) (db : Transfers) : Prop where
  nodup : batch.Nodup
  keys : ∀ i ∈ batch, ∀ j ∈ batch, (h i).key = (h j).key → i = j
  pipeline : ∀ i ∈ batch, newPipelineKey (h i) = pl.key
  rows : ∀ i ∈ batch, (db.row? (h i).key).isSome = true

/-- In every run of a batch processor in its middleware in which the request
was answered, the tx delivered and the transaction committed. -/
theorem submitted_iff_recorded {pl : Pipeline} {k : TxKind} {batch : List Ref} {h h' : Heap}
    {db : Transfers} {o : Except Err (List Ref)} {w : World} (hb : Batch pl batch h db)
    (hrun : Steps world (IBCV2BatchProcessorMW.process (batchOf pl k).processor batch h) ⟨db, []⟩
      (.ret (o, h')) w)
    {req : RelayByTxRequest} {tx : BridgeTx} {qs : List Query} (hreq : req ∈ requests w.trace)
    (htx : tx ∈ deliveries w.trace) (hqs : qs ∈ commits w.trace) :
    (∀ r ∈ batch, (h r).sequence ∈ req.packetSequences ↔
        Recorded k tx (h r) qs (w.db.row? (h r).key) (h' r)) ↔
      ∀ r ∈ batch, StateFailed (batchOf pl k).state (h r).key w.trace →
        r ∉ (batchOf pl k).admitted h (tried (batchOf pl k).state h batch w.trace) [] := by
  obtain ⟨a, w₁, hroute, hfinish⟩ := Steps.of_bind hrun
  have hm := (route_marked hb.nodup hb.keys db).returned hroute
  obtain ⟨⟨o', g'⟩, w₂, hprocess, hend⟩ := Steps.of_bind hfinish
  obtain ⟨res, w₃, hsubmit, hrec⟩ := Steps.of_bind hprocess
  have hl : w₁.log = ⟨w₁.db, triedStatements w₁.trace, failedStatements w₁.trace, [], [], []⟩ := by
    rw [World.log, hm.sent.requests, hm.sent.deliveries, hm.sent.commits]
  obtain ⟨herr, hok⟩ := (submit_log _ _ _ _ _ hl).returned hsubmit
  cases res with
  | error err =>
    obtain ⟨hx, rfl⟩ := hrec.of_ret
    have hw : w.trace = w₂.trace := by
      cases hx
      change Steps world (if err.is .contextCanceled then _ else _) _ _ _ at hend
      split at hend <;> rw [hend.of_ret.2]
    rw [hw, (herr err rfl).1] at hqs
    cases hqs
  | ok tx' =>
    obtain ⟨hx, rfl⟩ := hrec.of_ret
    cases hx
    obtain ⟨hx, rfl⟩ := hend.of_ret
    cases hx
    have hlog := hok tx' rfl
    have hrequests : requests w.trace = [_] := congrArg Log.requests hlog
    have hdeliveries : deliveries w.trace = [tx'] := congrArg Log.deliveries hlog
    have hcommits : commits w.trace = [_] := congrArg Log.commits hlog
    have htried : triedStatements w.trace = triedStatements w₁.trace := congrArg Log.tried hlog
    have hfailed : failedStatements w.trace = failedStatements w₁.trace := congrArg Log.failed hlog
    have hdb : w.db = _ := congrArg Log.db hlog
    rw [hrequests, List.mem_singleton] at hreq
    rw [hdeliveries, List.mem_singleton] at htx
    rw [hcommits, List.mem_singleton] at hqs
    subst hreq htx hqs
    refine forall₂_congr fun r hr => ?_
    rw [hdb, StateFailed, hfailed, sequence_mem_request hm hb.nodup hb.keys hb.pipeline hr,
      recorded_iff hm hb.nodup hb.keys tx (rows_persist hroute (hb.rows r hr)) hr, StateFailed,
      tried, htried, ← tried,
      ← hm.toProcess_eq hb.nodup, ← hm.admitted_eq]
    tauto

/-- A table with one row. -/
def oneRow : Transfers := ⟨[insertedRow somePacket], by simp⟩

/-- The rows of the first two of `someTransfers`. -/
def twoRows : Transfers :=
  ⟨[insertedRow somePacket, insertedRow { somePacket with packetSequenceNumber := 8 }],
    by decide +kernel⟩

theorem batch_twoRows :
    Batch (pipelineOf someOptions false (insertedRow somePacket)) [0, 1] someTransfers twoRows where
  nodup := by decide
  keys := by decide +kernel
  pipeline _ _ := rfl
  rows := by decide +kernel

/-- The recv processor in its middleware, on a batch. -/
def deliver (batch : List Ref) : Relay (Except Err (List Ref) × Heap) :=
  IBCV2BatchProcessorMW.process
    (batchOf (pipelineOf someOptions false (insertedRow somePacket)) .recv).processor batch
    someTransfers

/-- A run of it, with the answer to the updates of the states. -/
def deliver.run (batch : List Ref) (updated : Except Err Unit) :
    Relay (Except Err (List Ref) × Heap) × World :=
  runN world.next (fun c _ => match c with
    | .exec _ => updated
    | c => Answers.answer {} c) 16 (deliver batch) ⟨twoRows, []⟩

theorem deliver.steps (batch : List Ref) (updated : Except Err Unit)
    (h : (deliver.run batch updated).1.result?.isSome = true) :
    ∃ o h', Steps world (deliver batch) ⟨twoRows, []⟩ (.ret (o, h'))
      (deliver.run batch updated).2 := by
  obtain ⟨⟨o, h'⟩, hx⟩ := Option.isSome_iff_exists.mp h
  exact ⟨o, h', result?_eq_some hx ▸ steps_runN (S := world) (fun _ _ => trivial) 16 _ _⟩

theorem submitted_iff_recorded_two : ∃ o h' w req tx qs,
    Steps world (deliver [0, 1]) ⟨twoRows, []⟩ (.ret (o, h')) w ∧
    req ∈ requests w.trace ∧ tx ∈ deliveries w.trace ∧ qs ∈ commits w.trace ∧
    req.packetSequences = [7, 8] ∧
    ∀ r ∈ [0, 1], (someTransfers r).sequence ∈ req.packetSequences ↔
      Recorded .recv tx (someTransfers r) qs (w.db.row? (someTransfers r).key) (h' r) := by
  obtain ⟨o, h', hrun⟩ := deliver.steps [0, 1] (.ok ()) (by decide +kernel)
  have hreq : ∃ req ∈ requests (deliver.run [0, 1] (.ok ())).2.trace,
      req.packetSequences = [7, 8] := by decide +kernel
  obtain ⟨req, hreq, hseqs⟩ := hreq
  obtain ⟨tx, htx⟩ :=
    List.exists_mem_of_ne_nil (deliveries (deliver.run [0, 1] (.ok ())).2.trace) (by decide +kernel)
  obtain ⟨qs, hqs⟩ :=
    List.exists_mem_of_ne_nil (commits (deliver.run [0, 1] (.ok ())).2.trace) (by decide +kernel)
  refine ⟨o, h', _, req, tx, qs, hrun, hreq, htx, hqs, hseqs,
    (submitted_iff_recorded batch_twoRows hrun hreq htx hqs).mpr fun r _ hfailed => ?_⟩
  have hnone : failedStatements (deliver.run [0, 1] (.ok ())).2.trace = [] := by decide +kernel
  obtain ⟨err, herr⟩ := hfailed
  rw [hnone] at herr
  cases herr

/-- A transfer whose state could not be written is submitted and not
recorded. -/
theorem submitted_not_recorded : ∃ o h' w req tx qs,
    Steps world (deliver [0]) ⟨twoRows, []⟩ (.ret (o, h')) w ∧
    req ∈ requests w.trace ∧ tx ∈ deliveries w.trace ∧ qs ∈ commits w.trace ∧
    (someTransfers 0).sequence ∈ req.packetSequences ∧
    ¬Recorded .recv tx (someTransfers 0) qs (w.db.row? (someTransfers 0).key) (h' 0) := by
  obtain ⟨o, h', hrun⟩ := deliver.steps [0] (.error (newErr "closed")) (by decide +kernel)
  have hreq : ∃ req ∈ requests (deliver.run [0] (.error (newErr "closed"))).2.trace,
      (someTransfers 0).sequence ∈ req.packetSequences := by decide +kernel
  obtain ⟨req, hreq, hseq⟩ := hreq
  obtain ⟨tx, htx⟩ := List.exists_mem_of_ne_nil
    (deliveries (deliver.run [0] (.error (newErr "closed"))).2.trace) (by decide +kernel)
  have hqs : [] ∈ commits (deliver.run [0] (.error (newErr "closed"))).2.trace := by decide +kernel
  exact ⟨o, h', _, req, tx, [], hrun, hreq, htx, hqs, hseq, fun hrec =>
    List.not_mem_nil hrec.statement⟩

/-! ## All or nothing -/

/-- The hash and the time of a delivered tx are in its columns. -/
def TxRecord.Carries {α : Type} (x : TxRecord α) (tx : BridgeTx) : Prop :=
  x.hash = some tx.hash ∧ x.time = some tx.timestamp

/-- The same transfer, but for its error. -/
def IBCV2Transfer.SameButError (t u : IBCV2Transfer) : Prop :=
  ∃ err, u = { t with processingError := err }

theorem IBCV2Transfer.SameButError.refl (t : IBCV2Transfer) : t.SameButError t := ⟨_, rfl⟩

theorem IBCV2Transfer.SameButError.trans {t u v : IBCV2Transfer} (h₁ : t.SameButError u)
    (h₂ : u.SameButError v) : t.SameButError v := by
  obtain ⟨_, rfl⟩ := h₁
  obtain ⟨err, rfl⟩ := h₂
  exact ⟨err, rfl⟩

theorem Heap.modify_fail (h : Heap) (j : Ref) (err : Err) (r : Ref) :
    (h r).SameButError (h.modify j (·.fail err) r) := by
  by_cases hj : r = j
  · exact hj ▸ ⟨some err, h.modify_self r _⟩
  · exact ⟨_, h.modify_of_ne _ hj⟩

namespace BatchPacket

/-- The first loop changes errors only. -/
theorem gather_same (p : BatchPacket) (transfers : List Ref) (g : Gathered) (r : Ref) :
    (g.heap r).SameButError ((p.gather transfers g).heap r) := by
  induction transfers generalizing g with
  | nil => exact .refl _
  | cons j transfers ih =>
    rw [gather]
    split
    · exact (g.heap.modify_fail j _ r).trans (ih _)
    split
    · exact ih _
    split
    · exact (g.heap.modify_fail j _ r).trans (ih _)
    · exact ih _

variable {pl : Pipeline} {k : TxKind} {tx : BridgeTx} {transfers : List Ref} {h : Heap} {r : Ref}

/-- A transfer without an error has the tx after the last loop, wherever it is
in the batch and however often. -/
theorem recordAll_carries (he : (h r).errored = false)
    (hr : r ∈ transfers ∨ ((h r).tx k).Carries tx) :
    (((batchOf pl k).recordAll tx transfers h r).tx k).Carries tx := by
  induction transfers generalizing h with
  | nil => exact hr.resolve_left List.not_mem_nil
  | cons j transfers ih =>
    rw [recordAll]
    split
    · rename_i hj
      refine ih he (hr.imp_left fun hm => (List.mem_cons.mp hm).resolve_left ?_)
      rintro rfl
      rw [he] at hj
      cases hj
    by_cases hrj : r = j
    · subst hrj
      refine ih ?_ (.inr ?_) <;> rw [h.modify_self, batchOf_record]
      · exact (by cases k <;> rfl : ((h r).record k tx).errored = (h r).errored).trans he
      · exact ⟨IBCV2Transfer.hash_record .., IBCV2Transfer.time_record ..⟩
    · have hne := h.modify_of_ne ((batchOf pl k).record tx) hrj
      exact ih (by rw [hne]; exact he)
        (by rw [hne]; exact hr.imp_left fun hm => (List.mem_cons.mp hm).resolve_left hrj)

theorem errored_recordAll (pl : Pipeline) (k : TxKind) (tx : BridgeTx) (transfers : List Ref)
    (h : Heap) (r : Ref) : ((batchOf pl k).recordAll tx transfers h r).errored = (h r).errored := by
  induction transfers generalizing h with
  | nil => rfl
  | cons j transfers ih =>
    rw [recordAll]
    split
    · exact ih h
    refine (ih _).trans ?_
    by_cases hrj : r = j
    · subst hrj
      rw [h.modify_self, batchOf_record]
      cases k <;> rfl
    · rw [h.modify_of_ne _ hrj]

/-- The same of its row after the transaction. -/
theorem statements_carry (hr : r ∈ transfers) (he : (h r).errored = false) {db : Transfers}
    {row : Ibcv2Transfer} (hrow : db.row? (h r).key = some row) :
    ∃ row', (execAll (((batchOf pl k).statements tx transfers h).map (·.1)) db).row?
      (h r).key = some row' ∧ (row'.tx k).Carries tx := by
  refine ⟨_, row?_execAll_on _ hrow, ?_⟩
  have hset : ∀ q ∈ ((batchOf pl k).statements tx transfers h).map (·.1),
      q.set = recorded k tx := by
    intro q hq
    simp only [statements, List.map_map, List.mem_map, Function.comp_apply, batchOf_kind] at hq
    obtain ⟨j, -, rfl⟩ := hq
    rfl
  have hmem : (h r).recordTx k tx ∈ ((batchOf pl k).statements tx transfers h).map (·.1) :=
    (mem_statements (batchOf_kind pl k)).mpr ⟨r, hr, he, rfl⟩
  have hcarries (row : Ibcv2Transfer) : (((recorded k tx).apply row).tx k).Carries tx := by
    rw [tx_recorded, if_pos rfl]
    exact ⟨rfl, rfl⟩
  -- Each statement writes the same columns, so one on this row is enough.
  have hfold : ∀ (qs : List Query) (row : Ibcv2Transfer), (∀ q ∈ qs, q.set = recorded k tx) →
      (h r).recordTx k tx ∈ qs ∨ (row.tx k).Carries tx →
      ((qs.foldl (Query.on (h r).key) row).tx k).Carries tx := by
    intro qs
    induction qs with
    | nil => exact fun _ _ hq => hq.resolve_left List.not_mem_nil
    | cons q qs ih =>
      intro row hqs hq
      refine ih _ (fun q hq => hqs q (List.mem_cons_of_mem _ hq)) ?_
      by_cases hkey : q.key = (h r).key
      · rw [Query.on, if_pos hkey, hqs q List.mem_cons_self]
        exact .inr (hcarries row)
      · rw [Query.on, if_neg hkey]
        refine hq.imp_left fun hm => (List.mem_cons.mp hm).resolve_left ?_
        rintro rfl
        exact hkey rfl
  exact hfold _ row hset (.inl hmem)

end BatchPacket

/-- In every run of a batch processor that has returned. -/
theorem batch_all_or_nothing {pl : Pipeline} {k : TxKind} {transfers : List Ref} {h h' : Heap}
    {w w' : World} {res : Except Err (List Ref)}
    (hrun : Steps world ((batchOf pl k).process transfers h) w (.ret (res, h')) w') :
    (∀ err, res = .error err → w'.db = w.db ∧ ∀ r, (h r).SameButError (h' r)) ∧
      ∀ out, res = .ok out → ∃ tx, deliveries w'.trace = tx :: deliveries w.trace ∧
        ∀ r ∈ transfers, (h' r).processingError = none → ((h' r).tx k).Carries tx ∧
          ∀ row, w.db.row? (h r).key = some row →
            ∃ row', w'.db.row? (h r).key = some row' ∧ (row'.tx k).Carries tx := by
  obtain ⟨r, w₁, hsubmit, hend⟩ := Steps.of_bind hrun
  obtain ⟨herr, hok⟩ := (submit_log _ _ _ _ _ rfl).returned hsubmit
  have hsame := (batchOf pl k).gather_same transfers { heap := h }
  set g := (batchOf pl k).gather transfers { heap := h }
  cases r with
  | error err =>
    obtain ⟨hx, rfl⟩ := hend.of_ret
    cases hx
    exact ⟨fun _ _ => ⟨(herr err rfl).2, hsame⟩, by simp⟩
  | ok tx =>
    obtain ⟨hx, rfl⟩ := hend.of_ret
    cases hx
    refine ⟨by simp, fun _ _ => ⟨tx, congrArg Log.deliveries (hok tx rfl), fun r hr he => ?_⟩⟩
    have hdb : w'.db = _ := congrArg Log.db (hok tx rfl)
    have heg : (g.heap r).errored = false := by
      rw [← BatchPacket.errored_recordAll pl k tx transfers, IBCV2Transfer.errored, he]
      rfl
    have hkey : (g.heap r).key = (h r).key := by
      obtain ⟨_, hr⟩ := hsame r
      rw [hr]
      rfl
    refine ⟨BatchPacket.recordAll_carries heg (.inl hr), fun row hrow => ?_⟩
    rw [← hkey] at hrow ⊢
    rw [hdb]
    exact BatchPacket.statements_carry hr heg hrow

/-- The recv processor on a batch of two transfers. -/
def recordTwo : Relay (Except Err (List Ref) × Heap) :=
  (batchOf (pipelineOf someOptions false (insertedRow somePacket)) .recv).process [0, 1]
    someTransfers

/-- A run of it, with the answer to the commit. -/
def recordTwo.run (committed : Except Err Unit) : Relay (Except Err (List Ref) × Heap) × World :=
  runN world.next (fun c _ => match c with
    | .txCommit _ => committed
    | c => Answers.answer {} c) 16 recordTwo ⟨twoRows, []⟩

theorem recordTwo.steps (committed : Except Err Unit) (P : Except Err (List Ref) × Heap → Prop)
    [DecidablePred P] (h : (recordTwo.run committed).1.result?.any P = true) :
    ∃ x, Steps world recordTwo ⟨twoRows, []⟩ (.ret x) (recordTwo.run committed).2 ∧ P x := by
  obtain ⟨x, hx, hP⟩ := (Option.any_eq_true _ _).mp h
  exact ⟨x, result?_eq_some hx ▸ steps_runN (S := world) (fun _ _ => trivial) 16 _ _,
    of_decide_eq_true hP⟩

theorem batch_all_or_nothing_two :
    (∃ x w tx, Steps world recordTwo ⟨twoRows, []⟩ (.ret x) w ∧
      ∀ r ∈ [0, 1], ((x.2 r).tx .recv).Carries tx ∧
      ∃ row, w.db.row? (someTransfers r).key = some row ∧ (row.tx .recv).Carries tx) ∧
    ∃ x w, Steps world recordTwo ⟨twoRows, []⟩ (.ret x) w ∧ w.db = twoRows ∧
      ∀ r ∈ [0, 1], (someTransfers r).SameButError (x.2 r) := by
  constructor
  · obtain ⟨⟨res, h'⟩, hrun, hok, he⟩ := recordTwo.steps (.ok ())
      (fun x => x.1.toOption.isSome = true ∧ (x.2 0).processingError = none ∧
        (x.2 1).processingError = none)
      (by decide +kernel)
    cases res with
    | error _ => cases hok
    | ok out =>
      obtain ⟨tx, -, hall⟩ := (batch_all_or_nothing hrun).2 out rfl
      have hnone : ∀ r ∈ [0, 1], (h' r).processingError = none := by simpa using he
      refine ⟨_, _, tx, hrun, fun r hr => ?_⟩
      obtain ⟨hcopy, hrow⟩ := hall r hr (hnone r hr)
      obtain ⟨row, hrow'⟩ := Option.isSome_iff_exists.mp (batch_twoRows.rows r hr)
      exact ⟨hcopy, hrow row hrow'⟩
  · obtain ⟨⟨res, h'⟩, hrun, herr⟩ := recordTwo.steps (.error (newErr "closed"))
      (fun x => x.1.toOption = none) (by decide +kernel)
    cases res with
    | error err =>
      obtain ⟨hdb, hsame⟩ := (batch_all_or_nothing hrun).1 err rfl
      exact ⟨_, _, hrun, hdb, fun r _ => hsame r⟩
    | ok _ => cases herr

end PlatformRelayer

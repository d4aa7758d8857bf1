import PlatformRelayer.Framework.SeenSet
import PlatformRelayer.Proof.Deliveries
import PlatformRelayer.Proof.Frames

/-!
# What a batch asks the relay service for

A batch processor asks for the txs of its transfers, each once, and for the
packets of those transfers: its first loop is a `Scan` of their hashes. The ack
processor puts a hash into the set when it has taken it, and its request is
exact. The recv and the timeout processor put in the id of the source chain
where they look for the hash of the source tx, so they take a hash again for each
transfer of its tx, unless the chain ids happen to spell the hashes
(`batch_request_exact_iff`).
-/

namespace PlatformRelayer

open Db Prog

/-- The tx ids of a request. A request fills one of its two lists. -/
def RelayByTxRequest.txIds (q : RelayByTxRequest) : List (List UInt8) :=
  q.sourceTxIds ++ q.timeoutTxIds

theorem txIds_request (pl : Pipeline) (k : TxKind) (ids : List (List UInt8)) (seqs : List UInt64) :
    ((batchOf pl k).request ids seqs).txIds = ids := by
  cases k
  · exact List.append_nil _
  · exact List.append_nil _
  · rfl

/-! ## The calls of a delivery -/

/-- The request that a call makes, or whose tx it delivers. -/
def Call.request? : Call → Option RelayByTxRequest
  | .relayByTx req => some req
  | .deliverTx _ _ _ sub => some sub.request
  | _ => none

def Call.readsClock : Call → Bool
  | .now _ => true
  | _ => false

/-- A call of a delivery: if it is for a request, it is for this one, and it
does not read the clock. -/
structure Call.Asks (req : RelayByTxRequest) (c : Call) : Prop where
  request (q : RelayByTxRequest) : c.request? = some q → q = req
  clock : c.readsClock = false

section Asks

variable {σ : Type} {S : Sem Call Call.Ans σ} {req : RelayByTxRequest}

theorem Call.Asks.of_none {c : Call} (hc : c.request? = none)
    (hn : c.readsClock = false) : c.Asks req :=
  ⟨fun q h => by simp [hc] at h, hn⟩

theorem Call.Asks.of_some {c : Call} (hc : c.request? = some req)
    (hn : c.readsClock = false) : c.Asks req :=
  ⟨fun _ h => Option.some.inj (h.symm.trans hc), hn⟩

theorem waitForEVM_asks (chainID : String) :
    Makes S (·.Asks req) (BatchPacket.waitForEVM chainID) := by
  refine .bind (.call (.of_none rfl rfl)) fun type => ?_
  cases type with
  | evm => exact .call (.of_none rfl rfl)
  | cosmos => exact .ret
  | svm => exact .ret

theorem txStatements_asks (sts : List (Query × (Err → Err))) :
    Makes S (·.Asks req) (txStatements sts) := by
  induction sts with
  | nil => exact .ret
  | cons q sts ih => exact .andThen (.call (.of_none rfl rfl)) fun _ => ih

theorem execTx_asks (sts : List (Query × (Err → Err))) : Makes S (·.Asks req) (execTx sts) := by
  refine .andThen (.call (.of_none rfl rfl)) fun _ => .bind (txStatements_asks sts) fun r => ?_
  cases r with
  | error _ =>
    refine .bind (.call (.of_none rfl rfl)) fun r => ?_
    cases r with
    | error _ => exact .ret
    | ok _ => exact .ret
  | ok _ => exact .call (.of_none rfl rfl)

theorem submit_asks (p : BatchPacket) (numTransfers : Nat) (transfers : List Ref) (h : Heap) :
    Makes S (·.Asks req) (p.submit req numTransfers transfers h) := by
  refine .andThen (.call (.of_some rfl rfl)) fun _ => ?_
  refine .andThen (.call (.of_none rfl rfl)) fun _ => ?_
  refine .andThen (waitForEVM_asks _) fun _ => ?_
  refine .andThen (.call (.of_some rfl rfl)) fun _ => ?_
  exact .andThen (execTx_asks _) fun _ => .ret

end Asks

/-! ## The loop that makes the request -/

namespace BatchPacket

/-- The request the processor makes for a batch. -/
def requestOf (p : BatchPacket) (transfers : List Ref) (h : Heap) : RelayByTxRequest :=
  p.request (p.gather transfers { heap := h }).txIDs (p.gather transfers { heap := h }).sequences

theorem process_asks {σ : Type} {S : Sem Call Call.Ans σ} (p : BatchPacket) (transfers : List Ref)
    (h : Heap) : Makes S (·.Asks (p.requestOf transfers h)) (p.process transfers h) := by
  refine .bind (submit_asks p _ transfers _) fun r => ?_
  cases r with
  | error _ => exact .ret
  | ok _ => exact .ret

/-- Its first call. -/
theorem next?_process (p : BatchPacket) (transfers : List Ref) (h : Heap) :
    (p.process transfers h).next? = some (.relayByTx (p.requestOf transfers h)) := rfl

/-- The bytes of the tx that the proof is about, if the transfer has its hash
and the hash decodes. -/
def txID? (p : BatchPacket) (t : IBCV2Transfer) : Option (List UInt8) :=
  (p.txHash t).toOption.bind fun hash => (decodeTxHash hash).toOption

/-- A request for a batch: the bytes of each distinct hash of the transfers
whose hashes decode, in the order in which the hashes come first, and the
sequences of those transfers. -/
structure Exact (p : BatchPacket) (ts : List IBCV2Transfer) (req : RelayByTxRequest) : Prop where
  txIds : req.txIds =
    (((ts.filter fun t => (p.txID? t).isSome).filterMap fun t =>
      (p.txHash t).toOption).eraseDups).filterMap
    fun hash => (decodeTxHash hash).toOption
  sequences : req.packetSequences = (ts.filter fun t => (p.txID? t).isSome).map (·.sequence)

/-- Every request that the processor makes in a run is exact. -/
def RequestsExact (p : BatchPacket) (transfers : List Ref) (h : Heap) : Prop :=
  ∀ w x w' req, Steps world (p.process transfers h) w x w' → x.next? = some (.relayByTx req) →
    p.Exact (transfers.map h) req

theorem requestsExact_iff {p : BatchPacket} {transfers : List Ref} {h : Heap} :
    p.RequestsExact transfers h ↔ p.Exact (transfers.map h) (p.requestOf transfers h) := by
  refine ⟨fun hreq => hreq ⟨⟨[], by simp⟩, []⟩ _ _ _ (.refl _ _) (p.next?_process transfers h), ?_⟩
  intro hexact w x w' req hrun hnext
  rw [((p.process_asks transfers h w).next hrun hnext).request req rfl]
  exact hexact

/-- The loop over the hashes of a batch. -/
def scan (p : BatchPacket) : Scan IBCV2Transfer String (List UInt8) where
  name? t := (p.txHash t).toOption
  value? hash := (decodeTxHash hash).toOption
  key := p.txSetKey

/-- The loop changes errors only, and what it collects does not depend on them. -/
theorem gather_scan (pl : Pipeline) (k : TxKind) (transfers : List Ref) {g : Gathered} {h : Heap}
    (hg : ∀ r, (h r).SameButError (g.heap r)) :
    ((batchOf pl k).gather transfers g).txIDs = g.txIDs ++ (batchOf pl k).scan.values
      (transfers.map h) g.txSet ∧ ((batchOf pl k).gather transfers g).sequences =
        g.sequences ++ ((batchOf pl k).scan.kept (transfers.map h) g.txSet).map (·.sequence) := by
  induction transfers generalizing g with
  | nil => exact ⟨(List.append_nil _).symm, (List.append_nil _).symm⟩
  | cons r transfers ih =>
    obtain ⟨err, hr⟩ := hg r
    have hhash : (batchOf pl k).txHash (g.heap r) = (batchOf pl k).txHash (h r) := by
      rw [hr]; cases k <;> rfl
    have hkey : (batchOf pl k).txSetKey (g.heap r) = (batchOf pl k).txSetKey (h r) := by
      rw [hr]; cases k <;> rfl
    have hseq : (g.heap r).sequence = (h r).sequence := by rw [hr]; rfl
    have hfail (e : Err) (j : Ref) : (h j).SameButError (g.heap.modify r (·.fail e) j) :=
      (hg j).trans (g.heap.modify_fail r e j)
    rw [gather, List.map_cons]
    simp only [hhash, hkey, hseq]
    cases htx : (batchOf pl k).txHash (h r) with
    | error e =>
      have hname : (batchOf pl k).scan.name? (h r) = none := congrArg Except.toOption htx
      rw [Scan.values_none hname, Scan.kept_none hname]
      exact ih (hfail e)
    | ok hash =>
      have hname : (batchOf pl k).scan.name? (h r) = some hash := congrArg Except.toOption htx
      dsimp only
      by_cases hs : hash ∈ g.txSet
      · rw [if_pos (by simpa using hs), Scan.values_seen hname hs, Scan.kept_seen hname hs,
          List.map_cons]
        have hrest := ih (g := { g with sequences := g.sequences ++ [(h r).sequence] }) hg
        simpa only [List.append_assoc, List.singleton_append] using hrest
      rw [if_neg (by simpa using hs)]
      cases hd : decodeTxHash hash with
      | error e =>
        have hv : (batchOf pl k).scan.value? hash = none := congrArg Except.toOption hd
        rw [Scan.values_bad hname hs hv, Scan.kept_bad hname hs hv]
        exact ih (hfail _)
      | ok txID =>
        have hv : (batchOf pl k).scan.value? hash = some txID := congrArg Except.toOption hd
        rw [Scan.values_new hname hs hv, Scan.kept_new hname hs hv, List.map_cons,
          show (batchOf pl k).scan.key = (batchOf pl k).txSetKey from rfl]
        have hrest := ih (g := { g with
          txIDs := g.txIDs ++ [txID]
          sequences := g.sequences ++ [(h r).sequence]
          txSet := (batchOf pl k).txSetKey (h r) hash :: g.txSet }) hg
        simpa only [List.append_assoc, List.singleton_append] using hrest

/-- The request is exact if the loop does what the one with the right keys
does. -/
theorem exact_requestOf_iff (pl : Pipeline) (k : TxKind) (transfers : List Ref) (h : Heap) :
    (batchOf pl k).Exact (transfers.map h) ((batchOf pl k).requestOf transfers h) ↔
      (batchOf pl k).scan.values (transfers.map h) [] = (batchOf pl k).scan.exact.values
      (transfers.map h) [] ∧
        ((batchOf pl k).scan.kept (transfers.map h) []).map (·.sequence) =
          ((batchOf pl k).scan.exact.kept (transfers.map h) []).map (·.sequence) := by
  obtain ⟨hids, hseqs⟩ := gather_scan pl k transfers (g := { heap := h }) (h := h) fun r => .refl _
  rw [List.nil_append] at hids hseqs
  rw [Scan.values_exact, Scan.kept_exact, ← hids, ← hseqs]
  constructor
  · rintro ⟨h₁, h₂⟩
    rw [requestOf, txIds_request] at h₁
    rw [requestOf, packetSequences_request] at h₂
    exact ⟨h₁, h₂⟩
  · rintro ⟨h₁, h₂⟩
    exact ⟨(txIds_request ..).trans h₁, (packetSequences_request ..).trans h₂⟩

end BatchPacket

/-! ## When the request is exact -/

/-- The transfer's source tx hash decodes. -/
def IBCV2Transfer.Decodes (t : IBCV2Transfer) : Prop :=
  (decodeTxHash t.sourceTxHash).toOption.isSome = true

/-- The transfer is the first of a batch with its source tx hash, and the hash
decodes. -/
def IBCV2Transfer.Opens (t : IBCV2Transfer) (before : List IBCV2Transfer) : Prop :=
  t.Decodes ∧ ∀ u ∈ before, u.sourceTxHash ≠ t.sourceTxHash

/-- The source tx hash of a transfer is the source chain id of one before it
that was the first with its hash, just if it decodes and came before. -/
def ChainIDsSpellHashes (ts : List IBCV2Transfer) : Prop :=
  ∀ before t after, ts = before ++ t :: after →
    ((∃ before' u after', before = before' ++ u :: after' ∧ u.Opens before' ∧
      u.sourceChainID = t.sourceTxHash) ↔ t.Decodes ∧ ∃ u ∈ before, u.sourceTxHash = t.sourceTxHash)

/-- No two source tx hashes of the batch are spellings of the same bytes. -/
def OneSpelling (ts : List IBCV2Transfer) : Prop :=
  ∀ t ∈ ts, ∀ u ∈ ts, ∀ bytes, decodeTxHash t.sourceTxHash = .ok bytes →
    decodeTxHash u.sourceTxHash = .ok bytes → t.sourceTxHash = u.sourceTxHash

/-- Where no chain id is a hash, that is that no two transfers have one hash
that decodes. -/
theorem chainIDsSpellHashes_iff_pairwise {ts : List IBCV2Transfer}
    (hids : ∀ t ∈ ts, ∀ u ∈ ts, u.sourceChainID ≠ t.sourceTxHash) :
    ChainIDsSpellHashes ts ↔ ts.Pairwise fun u t => t.Decodes →
      u.sourceTxHash ≠ t.sourceTxHash := by
  have hnone {before : List IBCV2Transfer} {t : IBCV2Transfer} {after : List IBCV2Transfer}
      (hts : ts = before ++ t :: after) : ¬∃ before' u after', before = before' ++ u :: after' ∧
      u.Opens before' ∧ u.sourceChainID = t.sourceTxHash := by
    rintro ⟨before', u, after', rfl, -, hu⟩
    exact hids t (by simp [hts]) u (by simp [hts]) hu
  constructor
  · intro h
    have hsplit : ∀ before t after, ts = before ++ t :: after → t.Decodes → ∀ u ∈ before,
        u.sourceTxHash ≠ t.sourceTxHash :=
      fun before t after hts hd u hu he => hnone hts ((h before t after hts).mpr ⟨hd, u, hu, he⟩)
    clear h hnone hids
    induction ts with
    | nil => exact .nil
    | cons u ts ih =>
      refine .cons (fun t ht hd => ?_) (ih fun before t after hts hd v hv => ?_)
      · obtain ⟨before, after, rfl⟩ := List.append_of_mem ht
        exact hsplit (u :: before) t after rfl hd u List.mem_cons_self
      · exact hsplit (u :: before) t after (by rw [hts]; rfl) hd v (List.mem_cons_of_mem _ hv)
  · intro h before t after hts
    refine iff_of_false (hnone hts) ?_
    rintro ⟨hd, u, hu, he⟩
    subst hts
    exact (List.pairwise_append.mp h).2.2 u hu t List.mem_cons_self hd he

section Source

variable {pl : Pipeline} {k : TxKind} {ts : List IBCV2Transfer}

theorem name?_source (hk : k ≠ .ack)
    (t : IBCV2Transfer) : (batchOf pl k).scan.name? t = some t.sourceTxHash := by
  cases k with
  | recv => rfl
  | ack => exact absurd rfl hk
  | timeout => rfl

theorem key_source (hk : k ≠ .ack) (t : IBCV2Transfer) (hash : String) :
    (batchOf pl k).scan.key t hash = t.sourceChainID := by
  cases k with
  | recv => rfl
  | ack => exact absurd rfl hk
  | timeout => rfl

theorem first_source (hk : k ≠ .ack) (before : List IBCV2Transfer) (t : IBCV2Transfer) :
    (batchOf pl k).scan.First before t ↔ t.Opens before := by
  rw [Scan.First, Scan.valued_of_some (name?_source hk t), IBCV2Transfer.Opens]
  simp only [name?_source hk, List.mem_map, Option.some.injEq, not_exists, not_and]
  rfl

/-- The condition on a loop over source tx hashes, in the terms of the
transfers. -/
theorem faithful_source (hk : k ≠ .ack) : (batchOf pl k).scan.Faithful ts ↔
    ChainIDsSpellHashes ts := by
  unfold Scan.Faithful Scan.FaithfulFrom ChainIDsSpellHashes
  simp only [List.nil_append, name?_source hk, Option.some.injEq]
  refine forall_congr' fun before => forall_congr' fun t => forall_congr' fun after => ?_
  rw [forall_comm]
  refine imp_congr_right fun _ => ?_
  rw [forall_eq']
  unfold Scan.Marks Scan.Repeats
  simp only [first_source hk, name?_source hk, key_source hk, Option.map_some, Option.some.injEq,
    List.mem_map]
  rfl

theorem injective_source (hk : k ≠ .ack)
    (h : OneSpelling ts) : (batchOf pl k).scan.Injective ts := by
  intro t ht u hu n m v hn hm hv hv'
  rw [name?_source hk] at hn hm
  obtain rfl := Option.some.inj hn
  obtain rfl := Option.some.inj hm
  have decoded {hash : String} (hd : (decodeTxHash hash).toOption = some v) :
      decodeTxHash hash = .ok v := by
    cases hr : decodeTxHash hash with
    | error _ => rw [hr] at hd; cases hd
    | ok _ => rw [hr] at hd; rw [Option.some.inj hd]
  exact h t ht u hu v (decoded hv) (decoded hv')

end Source

/-- The keys of the ack processor are the hashes. -/
theorem scan_ack (pl : Pipeline) : (batchOf pl .ack).scan.exact = (batchOf pl .ack).scan := rfl

theorem batch_request_exact_iff (pl : Pipeline) (transfers : List Ref) (h : Heap) :
    (batchOf pl .ack).RequestsExact transfers h ∧ ∀ k ≠ .ack,
      (ChainIDsSpellHashes (transfers.map h) → (batchOf pl k).RequestsExact transfers h) ∧
        (OneSpelling (transfers.map h) →
          ((batchOf pl k).RequestsExact transfers h ↔ ChainIDsSpellHashes (transfers.map h))) := by
  simp only [BatchPacket.requestsExact_iff, BatchPacket.exact_requestOf_iff]
  refine ⟨by simp only [scan_ack, and_self], fun k hk => ?_⟩
  have hsuff (hc : ChainIDsSpellHashes (transfers.map h)) :
      (batchOf pl k).scan.values (transfers.map h) [] = (batchOf pl k).scan.exact.values
      (transfers.map h) [] ∧ ((batchOf pl k).scan.kept (transfers.map h) []).map (·.sequence) =
          ((batchOf pl k).scan.exact.kept (transfers.map h) []).map (·.sequence) :=
    (Scan.values_kept_eq ((faithful_source hk).mpr hc)).imp_right (congrArg _)
  refine ⟨hsuff, fun hone => ⟨fun hexact => ?_, hsuff⟩⟩
  refine (faithful_source hk).mp (Scan.faithful_of_eq (injective_source hk hone) hexact.1 ?_)
  have hlen := congrArg List.length hexact.2
  rw [List.length_map, List.length_map, Scan.kept_exact] at hlen
  exact hlen

/-- Two packets, of the txs with these hashes. -/
def twoPackets (hash hash' : String) : Heap := fun r =>
  newIBCV2Transfer (insertedRow (if r = 0 then { somePacket with sourceTxHash := hash }
    else { somePacket with sourceTxHash := hash', packetSequenceNumber := 8 }))

theorem batch_request_exact_apart :
    (batchOf (pipelineOf someOptions false (insertedRow somePacket)) .recv).RequestsExact [0, 1]
      (twoPackets "0a" "0b") := by
  refine ((batch_request_exact_iff _ [0, 1] (twoPackets "0a" "0b")).2 .recv (by decide)).1 ?_
  rw [chainIDsSpellHashes_iff_pairwise (by decide +kernel)]
  exact .cons (fun t ht _ => by rw [List.mem_singleton.mp ht]; decide +kernel)
    (List.pairwise_singleton _ _)

/-- With two packets of one tx, the id of the tx is in the request twice. -/
theorem batch_request_not_exact :
    ¬(batchOf (pipelineOf someOptions false (insertedRow somePacket)) .recv).RequestsExact [0, 1]
        (twoPackets "0a" "0a") ∧
      ¬(batchOf (pipelineOf someOptions false (insertedRow somePacket)) .timeout).RequestsExact
      [0, 1]
        (twoPackets "0a" "0a") := by
  constructor <;> intro h <;> exact absurd (BatchPacket.requestsExact_iff.mp h).txIds
    (by decide +kernel)

end PlatformRelayer

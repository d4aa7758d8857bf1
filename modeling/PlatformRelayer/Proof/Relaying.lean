import PlatformRelayer.Proof.Courses

/-!
# What one run does for a packet

A batch stage takes a transfer where its tx is the next that is missing, and
the transfer then shows it (`passes_batch`). So a run from a row that fits the
chains delivers what is missing, each tx once and in order, and completes the
row (`run_delivers_missing`).
-/

namespace PlatformRelayer

open Db Prog

/-! ## Deliveries -/

section Deliveries

variable {C : Course} {pl : Pipeline} {todo : List TxKind} {k : TxKind} {t : IBCV2Transfer}
  {s s₁ : Scene} {i r : Ref}
  {batch rest transfers : List Ref} {h : Heap} {a : Routed}

/-- Whether a batch processor takes the transfer, as the clock is. -/
def Course.takes (C : Course) (o : PipelineOptions) (t : IBCV2Transfer) : TxKind → Bool
  | .recv => !t.has .recv && !C.late
  | .ack => t.writeAckTxHash.isSome && t.writeAckStatus.any o.relays && !t.has .ack &&
  !t.has .timeout
  | .timeout => C.late && !t.has .recv && !t.has .ack && !t.has .timeout

theorem shouldProcess_takes (ht : t.packet = C.packet) (s : Scene) :
    wp C.sem (fun _ _ => True) ((batchOf pl k).shouldProcess t)
      (fun should s' => s.Stays s' ∧ should = C.takes pl.opts t k) s := by
  have htime : t.packetTimeoutTimestamp = C.packet.timeoutTimestamp :=
    congrArg Packet.timeoutTimestamp ht
  cases k with
  | recv =>
    change wp _ _ (if t.has .recv then _ else _) _ _
    split
    · rename_i hr
      exact ⟨⟨rfl, rfl⟩, by simp [Course.takes, hr]⟩
    · rename_i hr
      refine ⟨trivial, fun now hnow => ⟨⟨rfl, rfl⟩, ?_⟩⟩
      have hnow : decide (C.packet.timeoutTimestamp < now) = C.late := hnow
      rw [htime, hnow]
      simp [Course.takes, hr]
  | ack =>
    refine ⟨⟨rfl, rfl⟩, ?_⟩
    simp only [Course.takes]
    cases t.writeAckTxHash with
    | none => rfl
    | some hash =>
      cases t.writeAckStatus with
      | none => rfl
      | some status =>
        cases status <;> simp [isErrorAck, isSuccessAck, PipelineOptions.relays] <;> grind
  | timeout =>
    refine ⟨trivial, fun now hnow => ⟨⟨rfl, rfl⟩, ?_⟩⟩
    have hnow : decide (C.packet.timeoutTimestamp < now) = C.late := hnow
    rw [htime, hnow]
    rfl

/-- Where the loop of the middleware is, seen from the transfer with pointer
`i`. -/
structure Handing (C : Course) (pl : Pipeline) (k : TxKind) (t : IBCV2Transfer) (i : Ref)
    (batch : List Ref) (h : Heap)
    (s : Scene) (rest : List Ref) (a : Routed) (s' : Scene) : Prop where
  along : a.Along batch h rest
  stays : s.Stays s'
  waiting : i ∈ rest → a.heap i = t
  handed : i ∉ rest → i ∈ a.toProcess ∧ a.heap i = { t with state := (batchOf pl k).state }

theorem routeOne_hands (hnd : batch.Nodup) (ht : t.Active) (hp : t.packet = C.packet)
    (htake : C.takes pl.opts t k = true) (hi : Handing C pl k t i batch h s (r :: rest) a s₁) :
    wp C.sem (fun _ _ => True) (IBCV2BatchProcessorMW.routeOne (batchOf pl k).processor r a)
      (Handing C pl k t i batch h s rest) s₁ := by
  by_cases hri : r = i
  · subst hri
    have hself := hi.waiting List.mem_cons_self
    have hrest : r ∉ rest := by
      obtain ⟨done, rfl, -⟩ := hi.along.sublist
      exact (List.nodup_cons.mp (List.nodup_append.mp hnd).2.1).1
    rw [IBCV2BatchProcessorMW.routeOne, hself, if_neg (by simp [IBCV2Transfer.errored, ht.1]),
      if_neg ht.2]
    refine wp_bind.mpr ((shouldProcess_takes hp s₁).post ?_)
    rintro _ s₂ ⟨hstay, rfl⟩
    rw [htake]
    refine ⟨trivial, fun ans hans => ?_⟩
    obtain rfl : ans = .ok () := hans
    refine ⟨hi.along.updated _ _,
      ⟨hstay.phase.trans hi.stays.phase, hstay.delivered.trans hi.stays.delivered⟩,
      fun hm => absurd hm hrest, fun _ => ⟨by simp, ?_⟩⟩
    rw [Routed.heap_updated_ok, hself]
    rfl
  · have hmem : i ∈ r :: rest ↔ i ∈ rest := by simp [Ne.symm hri]
    have hstays {s₂ : Scene} (hs : s₁.Stays s₂) : s.Stays s₂ :=
      ⟨hs.phase.trans hi.stays.phase, hs.delivered.trans hi.stays.delivered⟩
    have hskip {s₂ : Scene} (hs : s₁.Stays s₂) : Handing C pl k t i batch h s rest (a.skip r) s₂ :=
      ⟨hi.along.skip, hstays hs, fun hm => hi.waiting (hmem.mpr hm), fun hm =>
        hi.handed (mt hmem.mp hm)⟩
    have hguard : wp C.sem (fun _ _ => True) ((batchOf pl k).shouldProcess (a.heap r))
        (fun _ s₂ => s₁.Stays s₂) s₁ := by
      rcases shouldProcess_eq pl k (a.heap r) with ⟨should, he⟩ | ⟨reader, f, he⟩
      · rw [he]
        exact ⟨rfl, rfl⟩
      · rw [he]
        exact ⟨trivial, fun _ _ => ⟨rfl, rfl⟩⟩
    refine wp_routeOne (fun _ => hskip ⟨rfl, rfl⟩) fun _ => hguard.post fun should s₂ hs =>
      ⟨fun _ => hskip hs, fun _ => ⟨trivial, fun ans => ?_⟩⟩
    refine ⟨hi.along.updated _ _, hstays ⟨hs.phase, hs.delivered⟩, fun hm => ?_, fun hm => ?_⟩
    · rw [Routed.heap_updated_of_ne _ _ _ (Ne.symm hri)]
      exact hi.waiting (hmem.mpr hm)
    · rw [Routed.heap_updated_of_ne _ _ _ (Ne.symm hri), Routed.toProcess_updated]
      obtain ⟨hp, hh⟩ := hi.handed (mt hmem.mp hm)
      exact ⟨List.mem_append_left _ hp, hh⟩

/-- The transfer gets into the request, if its hash can be decoded. -/
theorem BatchPacket.mem_admitted (p : BatchPacket) {hash : String} (hi : i ∈ transfers)
    (hh : p.txHash (h i) = .ok hash)
    (hd : IsTxHash hash) (txSet : List String) : i ∈ p.admitted h transfers txSet := by
  obtain ⟨bytes, hd⟩ := hd
  induction transfers generalizing txSet with
  | nil => cases hi
  | cons r transfers ih =>
    rcases List.mem_cons.mp hi with rfl | hi
    · rw [BatchPacket.admitted, hh]
      dsimp only
      split
      · exact List.mem_cons_self
      · rw [hd]
        exact List.mem_cons_self
    · rw [BatchPacket.admitted]
      split
      · exact ih hi _
      split
      · exact List.mem_cons_of_mem _ (ih hi _)
      split
      · exact ih hi _
      · exact List.mem_cons_of_mem _ (ih hi _)

theorem txStatements_stays (sts : List (Query × (Err → Err))) (s : Scene) :
    wp C.sem (fun _ _ => True) (txStatements sts) (fun r s' => r = .ok () ∧ s.Stays s') s := by
  induction sts generalizing s with
  | nil => exact ⟨rfl, rfl, rfl⟩
  | cons st sts ih =>
    refine wp_try ⟨trivial, fun ans hans => ?_⟩
    obtain rfl : ans = .ok () := hans
    refine of_ok ((ih _).post ?_)
    rintro r s' ⟨hr, hs⟩
    exact ⟨hr, hs.phase, hs.delivered⟩

theorem execTx_stays (sts : List (Query × (Err → Err))) (s : Scene) :
    wp C.sem (fun _ _ => True) (execTx sts) (fun r s' => r = .ok () ∧ s.Stays s') s := by
  refine wp_try ⟨trivial, fun ans hans => ?_⟩
  obtain rfl : ans = .ok () := hans
  refine of_ok (wp_bind.mpr ((txStatements_stays sts _).post ?_))
  rintro _ s' ⟨rfl, hs⟩
  refine ⟨trivial, fun ans hans => ?_⟩
  obtain rfl : ans = .ok () := hans
  exact ⟨rfl, hs.phase, hs.delivered⟩

theorem waitForEVM_stays (chainID : String) (s : Scene) :
    wp C.sem (fun _ _ => True) (BatchPacket.waitForEVM chainID)
      (fun r s' => r = .ok () ∧ s.Stays s') s := by
  refine ⟨trivial, fun type _ => ?_⟩
  cases type with
  | evm =>
    refine ⟨trivial, fun ans hans => ?_⟩
    obtain rfl : ans = .ok () := hans
    exact ⟨rfl, rfl, rfl⟩
  | cosmos => exact ⟨rfl, rfl, rfl⟩
  | svm => exact ⟨rfl, rfl, rfl⟩

/-- A tx of the kind was delivered for the packet. -/
structure Scene.Delivers (C : Course) (k : TxKind) (tx : BridgeTx) (s s' : Scene) : Prop where
  isTxHash : IsTxHash tx.hash
  phase : s'.phase = s.phase.deliver C.status k tx
  delivered : s'.delivered = s.delivered ++ [k]

theorem submit_delivers {req : RelayByTxRequest} (hin : C.packet.IsIn ⟨k, req, transfers.map h⟩)
    (numTransfers : Nat) :
    wp C.sem (fun _ _ => True) ((batchOf pl k).submit req numTransfers transfers h)
      (fun r s' => ∃ tx, r = .ok tx ∧ s.Delivers C k tx s') s := by
  refine wp_try ⟨trivial, fun ans hans => ?_⟩
  obtain ⟨resp, rfl⟩ : ∃ resp, ans = .ok resp := hans
  refine of_ok (wp_try ⟨trivial, fun ans hans => ?_⟩)
  obtain rfl : ans = .ok () := hans
  refine of_ok (wp_try ((waitForEVM_stays _ _).post ?_))
  rintro _ s₁ ⟨rfl, hs₁⟩
  refine of_ok (wp_try ⟨trivial, fun ans hans => ?_⟩)
  obtain ⟨tx, rfl, htx⟩ : ∃ tx, ans = .ok tx ∧ IsTxHash tx.hash := hans
  refine of_ok (wp_try ((execTx_stays _ _).post ?_))
  rintro _ s₂ ⟨rfl, hs₂⟩
  rw [← batchOf_kind pl k] at hin
  have hadv : (s₂.phase, s₂.delivered) = (s₁.phase.deliver C.status (batchOf pl k).kind tx,
      s₁.delivered ++ [(batchOf pl k).kind]) :=
    (congrArg₂ Prod.mk hs₂.phase hs₂.delivered).trans (if_pos hin)
  rw [batchOf_kind, hs₁.phase, hs₁.delivered] at hadv
  exact of_ok ⟨tx, rfl, htx, congrArg Prod.fst hadv, congrArg Prod.snd hadv⟩

/-- The processor, on a batch with the transfer. -/
theorem process_delivers (hnd : transfers.Nodup) (hi : i ∈ transfers) (he : (h i).errored = false)
    (hp : (h i).packet = C.packet) (hkey : pl.key = C.packet.route .recv) {hash : String}
    (hh : (batchOf pl k).txHash (h i) = .ok hash) (hd : IsTxHash hash) :
    wp C.sem (fun _ _ => True) ((batchOf pl k).process transfers h)
      (fun x s' => ∃ tx, x.1 = .ok transfers ∧ x.2 i = (h i).record k tx ∧ s.Delivers C k tx s')
      s := by
  have hg := (batchOf pl k).gather_spec hnd { heap := h }
  have hmem := (batchOf pl k).mem_admitted (h := h) hi hh hd []
  rw [BatchPacket.process]
  set g := (batchOf pl k).gather transfers { heap := h }
  have hself : g.heap i = h i := hg.kept i (.inl hmem)
  have hin : C.packet.IsIn ⟨k, (batchOf pl k).request g.txIDs g.sequences,
      transfers.map g.heap⟩ := by
    refine ⟨?_, ?_⟩
    · dsimp only
      rw [packetSequences_request, hg.sequences]
      exact List.mem_append_right _
        (List.mem_map.mpr ⟨i, hmem, congrArg (·.sequenceNumber.toUInt64) hp⟩)
    · cases k <;> simp [batchOf, batchRecvPacket, batchAckPacket, batchTimeoutPacket, hkey,
        Packet.route]
  refine wp_bind.mpr ((submit_delivers hin _).post ?_)
  rintro _ s' ⟨tx, rfl, hs'⟩
  refine ⟨tx, rfl, ?_, hs'⟩
  change (batchOf pl k).recordAll tx transfers g.heap i = _
  rw [BatchPacket.recordAll_apply tx hnd, hself, if_pos ⟨hi, he⟩, batchOf_record]

/-- The batch processor in its middleware, on a batch with the transfer at the
position `i`. -/
theorem processBatch_delivers {d : IBCV2Transfer} {ts : List IBCV2Transfer} (hts : ts[i]? = some t)
    (ht : t.Active) (hp : t.packet = C.packet) (hkey : pl.key = C.packet.route .recv)
    (htake : C.takes pl.opts t k = true) {hash : String}
    (hh : (batchOf pl k).txHash { t with state := (batchOf pl k).state } = .ok hash)
    (hd : IsTxHash hash) : wp C.sem (fun _ _ => True) ((batchOf pl k).processBatch d ts)
      (fun x s' => ∃ tx refs, x.1 = .ok refs ∧
        x.2 i = IBCV2Transfer.record k tx { t with state := (batchOf pl k).state } ∧
        s.Delivers C k tx s') s := by
  obtain ⟨hlt, hget⟩ := List.getElem?_eq_some_iff.mp hts
  have hnd : (List.range ts.length).Nodup := List.nodup_range
  have hstart : Handing C pl k t i (List.range ts.length) (Heap.ofList d ts) s
      (List.range ts.length) { heap := Heap.ofList d ts } s :=
    ⟨.start _ _, ⟨rfl, rfl⟩, fun _ => (ofList_apply d hlt).trans hget, fun hn =>
      absurd (List.mem_range.mpr hlt) hn⟩
  refine wp_bind.mpr ((wp_each _ (fun _ _ _ _ => routeOne_hands hnd ht hp htake) _ _ hstart).post
    fun a s₁ ha => ?_)
  obtain ⟨hi, hself⟩ := ha.handed List.not_mem_nil
  rw [← hself] at hh
  refine wp_bind.mpr ((process_delivers (ha.along.done.1.nodup hnd) hi ?_ ?_ hkey hh hd).post ?_)
  · rw [hself]
    simp [IBCV2Transfer.errored, ht.1]
  · rw [hself]
    exact hp
  rintro ⟨_, h'⟩ s' ⟨tx, rfl, hx, hs'⟩
  rw [hself] at hx
  refine ⟨tx, _, rfl, hx, hs'.isTxHash, ?_, ?_⟩
  · rw [hs'.phase, ha.stays.phase]
  · rw [hs'.delivered, ha.stays.delivered]

/-- A batch stage takes a transfer if its tx is the next that is missing. -/
theorem passes_batch {P Q : IBCV2Transfer → PacketPhase → Prop}
    (hkey : pl.key = C.packet.route .recv) (hP : ∀ t phase, P t phase → InStep C t phase)
    (hskip : ∀ t phase, P t phase → C.takes pl.opts t k = false → Q t phase)
    (hhash : ∀ t phase, P t phase → C.takes pl.opts t k = true →
      ∃ hash, (batchOf pl k).txHash { t with state := (batchOf pl k).state } = .ok hash ∧
      IsTxHash hash)
    (htake : ∀ t phase tx, P t phase → C.takes pl.opts t k = true → IsTxHash tx.hash →
      Q (IBCV2Transfer.record k tx { t with state := (batchOf pl k).state })
      (phase.deliver C.status k tx) ∧
        C.missing pl.opts phase = k :: C.missing pl.opts (phase.deliver C.status k tx)) :
    C.Passes pl todo [batchStage k] P Q := by
  intro t s ht hs
  have hin := hP t _ ht
  refine wp_bind.mpr ?_
  rw [Stage.process, batchStage_processor]
  dsimp only
  rw [BatchPacket.forward, if_neg (by simp [IBCV2Transfer.errored, hin.active.1])]
  refine wp_bind.mpr ((shouldProcess_takes hin.packet s).post ?_)
  rintro _ s₁ ⟨hs₁, rfl⟩
  cases hg : C.takes pl.opts t k with
  | false => exact ⟨⟨t, rfl, hs₁.phase ▸ hskip t _ ht hg⟩, hs.stays hs₁⟩
  | true =>
  obtain ⟨hash, hh, hd⟩ := hhash t _ ht hg
  refine ⟨trivial, fun b _ => ?_⟩
  have hts : (b.1.1 ++ t :: b.1.2)[b.1.1.length]? = some t := by simp
  change wp _ _ (Prog.bind ((batchOf pl k).processBatch t (b.1.1 ++ t :: b.1.2)) _) _ _
  refine wp_bind.mpr ((processBatch_delivers hts hin.active hin.packet hkey hg hh hd).post ?_)
  rintro ⟨_, h'⟩ s' ⟨tx, refs, rfl, hx, hs'⟩
  have hphase : s'.phase = s.phase.deliver C.status k tx :=
    hs'.phase.trans (by rw [← hs₁.phase]; rfl)
  have hdone : s'.delivered = s.delivered ++ [k] :=
    hs'.delivered.trans (by rw [← hs₁.delivered]; rfl)
  obtain ⟨hQ, hmissing⟩ := htake t _ tx ht hg hs'.isTxHash
  refine ⟨⟨_, rfl, ?_⟩, ?_⟩
  · rw [hphase, show h' b.1.1.length = _ from hx]
    exact hQ
  · rw [Course.OnTrack, hphase, hdone, List.append_assoc, List.singleton_append, ← hmissing]
    exact hs

theorem hash_recordIn (t : IBCV2Transfer) (state : Ibcv2RelayStatus) (k j : TxKind)
    (tx : BridgeTx) :
    ((IBCV2Transfer.record k tx { t with state := state }).tx j).hash = if j = k then some tx.hash
      else (t.tx j).hash := by
  cases k <;> cases j <;> rfl

/-- The transfer shows the tx that was delivered in its turn. -/
theorem CaughtUp.recorded {phase phase' : PacketPhase} {tx : BridgeTx} (hu : CaughtUp C t phase)
    (hhash : ∀ j, phase'.hash j = if j = k then some tx.hash else phase.hash j)
    (hstatus : t.has .recv = true → phase'.status = phase.status)
    (hr : t.has .recv = true ↔ k = .ack)
    (hlate : k = .timeout → C.late = true) (htx : IsTxHash tx.hash) :
    CaughtUp C (IBCV2Transfer.record k tx { t with state := (batchOf pl k).state }) phase' := by
  have hshows (j : TxKind) :
      ((IBCV2Transfer.record k tx { t with state := (batchOf pl k).state }).tx j).hash =
      phase'.hash j := by
    rw [hash_recordIn, hhash, hu.shows]
  have hw : (IBCV2Transfer.record k tx { t with state := (batchOf pl k).state }).writeAckTxHash =
      t.writeAckTxHash ∧
      (IBCV2Transfer.record k tx { t with state := (batchOf pl k).state }).writeAckStatus =
      t.writeAckStatus := by
    cases k <;> exact ⟨rfl, rfl⟩
  refine ⟨⟨?_, ?_, hu.source, fun hne => ?_, fun hash hh => ?_, fun j => .inr (hshows j), fun hk =>
    ?_, ?_⟩, hshows⟩
  · cases k <;> exact ⟨hu.active.1, by
      simp [batchOf, batchRecvPacket, batchAckPacket, batchTimeoutPacket,
      IBCV2Transfer.record, IBCV2Transfer.foundTx, IBCV2Transfer.deliveredTx, IBCV2Transfer.setTx]⟩
  · cases k <;> exact hu.packet
  · by_cases hk : k = .timeout
    · exact hlate hk
    · refine hu.late fun hn => hne ?_
      have := hhash .timeout
      rw [if_neg (Ne.symm hk), PacketPhase.hash, PacketPhase.hash, hn] at this
      exact Option.map_eq_none_iff.mp this
  · rw [hhash] at hh
    split at hh
    · exact Option.some.inj hh ▸ htx
    · exact hu.recvHash hash hh
  · rw [IBCV2Transfer.has, hash_recordIn] at hk ⊢
    by_cases hkr : k = .recv
    · rw [if_pos hkr.symm]
      rfl
    · rw [if_neg (Ne.symm hkr)]
      by_cases hka : k = .ack
      · exact hr.mpr hka
      · rw [if_neg (Ne.symm hka)] at hk
        exact hu.ack_recv hk
  · rw [hw.1, hw.2]
    rcases hu.writeAck with hn | ⟨hrecv, hhash', hstatus'⟩
    · exact .inl hn
    · obtain rfl := hr.mp hrecv
      refine .inr ⟨?_, ?_, ?_⟩
      · rw [IBCV2Transfer.has, hash_recordIn]
        exact hrecv
      · rw [hhash]
        exact hhash'
      · rw [hstatus hrecv]
        exact hstatus'

theorem passes_deliverTimeout (hkey : pl.key = C.packet.route .recv) :
    C.Passes pl todo [.batchTimeoutPacket] (CaughtUp C)
    (fun t phase => CaughtUp C t phase ∧ (C.late = true → phase ≠ .sent)) := by
  refine passes_batch (k := .timeout) hkey (fun _ _ h => h.toInStep)
    (fun t phase h hg => ⟨h, ?_⟩) ?_ ?_
  · rintro hl rfl
    simp [Course.takes, h.has, PacketPhase.tx, hl] at hg
  · exact fun t _ h _ => ⟨t.sourceTxHash, rfl, h.sourceTxHash⟩
  · intro t phase tx h hg htx
    simp only [Course.takes, h.has, Bool.and_eq_true, Bool.not_eq_true'] at hg
    cases phase with
    | sent =>
      refine ⟨⟨h.recorded (fun j => by cases j <;> rfl) (by simp [h.has, PacketPhase.tx])
        (by simp [h.has, PacketPhase.tx])
        (fun _ => hg.1.1.1) htx, by simp [PacketPhase.deliver]⟩, ?_⟩
      simp [Course.missing, PacketPhase.deliver, hg.1.1.1]
    | _ => simp [PacketPhase.tx] at hg

theorem passes_deliverRecv (hkey : pl.key = C.packet.route .recv) :
    C.Passes pl todo [.batchRecvPacket]
    (fun t phase => CaughtUp C t phase ∧ (C.late = true → phase ≠ .sent))
    (fun t phase => CaughtUp C t phase ∧ phase ≠ .sent) := by
  refine passes_batch (k := .recv) hkey (fun _ _ h => h.1.toInStep)
    (fun t phase h hg => ⟨h.1, ?_⟩) ?_ ?_
  · rintro rfl
    simp only [Course.takes, h.1.has, PacketPhase.tx, Option.isSome_none, Bool.not_false,
      Bool.true_and, Bool.not_eq_false'] at hg
    exact h.2 hg rfl
  · exact fun t _ h _ => ⟨t.sourceTxHash, rfl, h.1.sourceTxHash⟩
  · rintro t phase tx ⟨h, hsent⟩ hg htx
    simp only [Course.takes, h.has, Bool.and_eq_true, Bool.not_eq_true'] at hg
    cases phase with
    | sent =>
      refine ⟨⟨h.recorded (fun j => by cases j <;> rfl) (by simp [h.has, PacketPhase.tx])
        (by simp [h.has, PacketPhase.tx]) (by simp) htx, by simp [PacketPhase.deliver]⟩, ?_⟩
      simp [Course.missing, PacketPhase.deliver, hg.2]
    | timedOut _ => exact absurd ((h.late (by simp [PacketPhase.tx])).symm.trans hg.2) (by simp)
    | _ => simp [PacketPhase.tx] at hg

theorem passes_deliverAck (hkey : pl.key = C.packet.route .recv) :
    C.Passes pl todo [.batchAckPacket] (fun t phase => UpToDate C t phase ∧ phase ≠ .sent)
    (fun t phase => UpToDate C t phase ∧ phase ≠ .sent ∧ C.missing pl.opts phase = []) := by
  refine passes_batch (k := .ack) hkey (fun _ _ h => h.1.toInStep)
    (fun t phase h hg => ⟨h.1, h.2, ?_⟩) ?_ ?_
  · obtain ⟨h, hsent⟩ := h
    simp only [Course.takes, h.has, h.showsAck.1, h.showsAck.2] at hg
    cases phase with
    | sent => exact absurd rfl hsent
    | received recvTx status =>
      simpa [PacketPhase.hash, PacketPhase.tx, PacketPhase.status, Course.missing] using hg
    | _ => rfl
  · rintro t phase ⟨h, -⟩ hg
    simp only [Course.takes, Bool.and_eq_true] at hg
    obtain ⟨hash, hh⟩ := Option.isSome_iff_exists.mp hg.1.1.1
    refine ⟨hash, ?_, h.recvHash hash (h.showsAck.1.symm.trans hh)⟩
    simp [batchOf, batchAckPacket, hh]
  · rintro t phase tx ⟨h, hsent⟩ hg htx
    simp only [Course.takes, h.has, h.showsAck.1, h.showsAck.2, Bool.and_eq_true, Bool.not_eq_true']
      at hg
    cases phase with
    | received recvTx status =>
      have hrel : pl.opts.relays status = true := by simpa [PacketPhase.status] using hg.1.1.2
      have hr : t.has .recv = true := by rw [h.has]; rfl
      refine ⟨⟨⟨h.toCaughtUp.recorded (fun j => by cases j <;> rfl) (fun _ => rfl) (by simp [hr])
        (by simp) htx, h.showsAck⟩, by simp [PacketPhase.deliver], ?_⟩, ?_⟩
      · rfl
      · simp [Course.missing, PacketPhase.deliver, hrel]
    | _ => simp [PacketPhase.tx, PacketPhase.hash] at hg

end Deliveries

/-! ## The run -/

section Run

variable {C : Course} {pl : Pipeline} {todo : List TxKind}

/-- All stages but the last. -/
theorem passes_relaying (hkey : pl.key = C.packet.route .recv) (todo : List TxKind) :
    ∃ stages, newPipeline pl = stages ++ [.stateFinisher] ∧ C.Passes pl todo stages (InStep C)
      (fun t phase => UpToDate C t phase ∧ phase ≠ .sent ∧ C.missing pl.opts phase = []) := by
  refine ⟨_, rfl, ?_⟩
  have hcaught {t : IBCV2Transfer} {phase : PacketPhase} (h : CaughtUp C t phase)
      (state : Ibcv2RelayStatus)
      (hs : state ≠ .failed) : CaughtUp C { t with state := state } phase :=
    h.congr (.enter t state) ⟨h.active.1, hs⟩
  have hdate {t : IBCV2Transfer} {phase : PacketPhase} (h : UpToDate C t phase)
      (state : Ibcv2RelayStatus)
      (hs : state ≠ .failed) : UpToDate C { t with state := state } phase :=
    h.congr (.enter t state) ⟨h.active.1, hs⟩
  have htimeout : C.Passes pl todo [.checkRecvPacketDelivery, .checkInitialPacketCommitment,
      .checkSendPacketFinality,
      .checkTimeoutTimestampFinality, .batchTimeoutPacket, .retryTimeoutPacket] (InStep C)
      (fun t phase => CaughtUp C t phase ∧ (C.late = true → phase ≠ .sent)) := by
    refine passes_checkRecv.cons (passes_checkInitialCommitment.cons (passes_sendFinality.cons
      (passes_timeoutFinality.cons ((passes_deliverTimeout hkey).cons ?_))))
    refine passes_retryShown rfl (fun _ _ h => h.1) (fun _ _ h => ⟨hcaught h.1 _ (by simp), h.2⟩)
      fun t hg => ?_
    simp only [Bool.and_eq_true] at hg
    exact ⟨hg.1, Option.isSome_iff_ne_none.mp hg.2⟩
  have hrecv : C.Passes pl todo [.batchRecvPacket, .retryRecvPacket]
      (fun t phase => CaughtUp C t phase ∧ (C.late = true → phase ≠ .sent))
      (fun t phase => CaughtUp C t phase ∧ phase ≠ .sent) := by
    refine (passes_deliverRecv hkey).cons (passes_retryShown rfl (fun _ _ h => h.1)
      (fun _ _ h => ⟨hcaught h.1 _ (by simp), h.2⟩) fun t hg => ?_)
    simp only [Bool.and_eq_true] at hg
    exact ⟨hg.1.1, Option.isSome_iff_ne_none.mp hg.1.2⟩
  have hack : C.Passes pl todo [.waitForWriteAckPacket, .checkWriteAckFinality,
      .checkPostReceivePacketCommitment,
      .batchAckPacket, .retryAckPacket] (fun t phase => CaughtUp C t phase ∧ phase ≠ .sent)
      (fun t phase => UpToDate C t phase ∧ phase ≠ .sent ∧ C.missing pl.opts phase = []) := by
    refine passes_writeAck.cons
      (passes_writeAckFinality.cons (passes_checkPostReceiveCommitment.cons
      ((passes_deliverAck hkey).cons ?_)))
    refine passes_retryShown rfl (fun _ _ h => h.1.toCaughtUp)
      (fun _ _ h => ⟨hdate h.1 _ (by simp), h.2⟩) fun t hg => ?_
    simp only [Bool.and_eq_true] at hg
    exact ⟨hg.1, Option.isSome_iff_ne_none.mp hg.2⟩
  exact ((((htimeout.append (.ite (passes_gasCost rfl (fun _ _ h => h.1.active)
      fun _ _ h => ⟨hcaught h.1 _ (by simp), h.2⟩) _)).append
    hrecv).append (.ite (passes_gasCost rfl (fun _ _ h => h.1.active)
      fun _ _ h => ⟨hcaught h.1 _ (by simp), h.2⟩) _)).append
    hack).append (.ite (passes_gasCost rfl (fun _ _ h => h.1.active)
      fun _ _ h => ⟨hdate h.1 _ (by simp), h.2⟩) _)

/-- The `StateFinisher` writes the status of the phase. -/
theorem finishes (t : IBCV2Transfer) (s : Scene) (h : UpToDate C t s.phase)
    (hsent : s.phase ≠ .sent) (hmissing : C.missing pl.opts s.phase = []) :
    wp C.sem (fun _ _ => True) (runStages pl [.stateFinisher] t)
      (fun _ s' => s.Stays s' ∧ some s'.row.status = s.phase.finalStatus) s := by
  have hkey : t.key = C.packet.key := congrArg Packet.key h.packet
  have herr : t.errored = false := by simp [IBCV2Transfer.errored, h.active.1]
  have hrow (state : Ibcv2RelayStatus) (s : Scene) :
      (C.sem.next (.exec (updateTransferState state t.key)) (.ok ()) s).row.status = state := by
    have := Call.effectOn_exec (K := C.packet.key) (q := updateTransferState state t.key) hkey s.row
    exact congrArg Ibcv2Transfer.status this
  have hr := h.has .recv
  have hk := h.has .ack
  have ht := h.has .timeout
  obtain ⟨hw, hs⟩ := h.showsAck
  refine wp_bind.mpr (wp_bind.mpr ?_)
  cases hphase : s.phase with
  | sent => exact absurd hphase hsent
  | timedOut tx =>
    rw [hphase] at ht
    have hf : stateFinisher pl.opts.shouldRelaySuccessAcks pl.opts.shouldRelayErrorAcks t =
        (recordTimeoutRelayed t).bind fun _ =>
        writeFinalState { t with state := .completeWithTimeout } := by
      simp [stateFinisher, herr, ht, IBCV2Transfer.isComplete, PacketPhase.tx]
    rw [hf]
    refine ⟨trivial, fun _ _ => ⟨trivial, fun ans hans => ?_⟩⟩
    obtain rfl : ans = .ok () := hans
    exact ⟨⟨rfl, rfl⟩, congrArg some (hrow _ _)⟩
  | acknowledged recvTx status ackTx =>
    rw [hphase] at hr hk ht hw hs
    have hf : stateFinisher pl.opts.shouldRelaySuccessAcks pl.opts.shouldRelayErrorAcks t =
        (recordAckRelayed t).bind fun _ =>
        writeFinalState { t with state := .completeWithAck } := by
      simp [stateFinisher, herr, hr, hk, ht, hw, hs, IBCV2Transfer.isComplete, PacketPhase.tx,
        PacketPhase.hash, PacketPhase.status]
    rw [hf]
    refine ⟨trivial, fun _ _ => ⟨trivial, fun ans hans => ?_⟩⟩
    obtain rfl : ans = .ok () := hans
    exact ⟨⟨rfl, rfl⟩, congrArg some (hrow _ _)⟩
  | received recvTx status =>
    rw [hphase] at hr hk ht hw hs hmissing
    have hrel : pl.opts.relays status = false := by simpa [Course.missing] using hmissing
    have hf : stateFinisher pl.opts.shouldRelaySuccessAcks pl.opts.shouldRelayErrorAcks t =
        writeFinalState { t with state := if status = .success then .completeWithWriteAckSuccess
          else .completeWithWriteAckError } := by
      cases status <;> simp_all [stateFinisher, IBCV2Transfer.isComplete, PacketPhase.tx,
        PacketPhase.hash, PacketPhase.status, PipelineOptions.relays, isErrorAck, isSuccessAck]
    rw [hf]
    refine ⟨trivial, fun ans hans => ?_⟩
    obtain rfl : ans = .ok () := hans
    refine ⟨⟨rfl, rfl⟩, (congrArg some (hrow _ _)).trans ?_⟩
    cases status <;> rfl

/-- The row says nothing of the packet that is not so: its txs are those on
chain. It has an ack tx only with a recv tx, which is not so of every reachable
row. The hashes that go into requests can be decoded, and a packet that was timed
out is past its timeout. -/
structure Course.Fits (C : Course) (phase : PacketPhase) (r : Ibcv2Transfer) : Prop where
  packet : (newIBCV2Transfer r).packet = C.packet
  source : IsTxHash r.sourceTxHash
  recvHash (h : String) : phase.hash .recv = some h → IsTxHash h
  late : phase.tx .timeout ≠ none → C.late = true
  tx (k : TxKind) : (r.tx k).hash = none ∨ (r.tx k).hash = phase.hash k
  ack_recv : r.ackTx.hash ≠ none → r.recvTx.hash ≠ none
  writeAck : r.writeAckTxHash ≠ none → r.writeAckStatus = phase.status

theorem Course.Fits.inStep {phase : PacketPhase} {r : Ibcv2Transfer} (h : C.Fits phase r)
    (hr : Reachable r) : InStep C (newIBCV2Transfer r) phase where
  active := ⟨rfl, hr.not_failed⟩
  packet := h.packet
  source := congrArg Packet.sourceTxHash h.packet ▸ h.source
  late := h.late
  recvHash := h.recvHash
  tx k := by
    have := h.tx k
    cases k <;> exact this
  ack_recv hk := Option.isSome_iff_ne_none.mpr (h.ack_recv (Option.isSome_iff_ne_none.mp hk))
  writeAck := by
    cases hw : r.writeAckTxHash with
    | none => exact .inl ⟨hw, hr.rowInv.writeAckStatus.mp hw⟩
    | some hash =>
      have hrecv := hr.rowInv.writeAck_recv hash hw
      have htx : (r.tx .recv).hash = phase.hash .recv := (h.tx .recv).resolve_left fun hn => by
        exact absurd (hrecv.symm.trans hn) (by simp)
      refine .inr ⟨?_, ?_, h.writeAck (by simp [hw])⟩
      · exact congrArg Option.isSome hrecv
      · exact hw.trans (hrecv.symm.trans htx)

/-- A run on the row, from the phase of its packet. -/
def Course.Run (C : Course) (opts : PipelineOptions) (hasPriceClient : Bool) (phase : PacketPhase)
    (r : Ibcv2Transfer) (o : Option IBCV2Transfer) (s : Scene) : Prop :=
  Steps C.sem (pipelineRun opts hasPriceClient r) ⟨r, phase, []⟩ (.ret o) s

theorem run_delivers_missing {C : Course} {opts : PipelineOptions} {hasPriceClient : Bool}
    {phase : PacketPhase} {r : Ibcv2Transfer} (hr : Reachable r)
    (h : C.Fits phase r) : (∃ o s, C.Run opts hasPriceClient phase r o s) ∧
      ∀ o s, C.Run opts hasPriceClient phase r o s → s.delivered = C.missing opts phase ∧
      C.missing opts s.phase = [] ∧
        some s.row.status = s.phase.finalStatus := by
  refine ⟨exists_returned (fun c s => C.exists_says s.phase c) _ _, fun o s hs => ?_⟩
  set pl : Pipeline := ⟨newPipelineKey (newIBCV2Transfer r), opts, hasPriceClient⟩
  have hkey : pl.key = C.packet.route .recv := by
    rw [← h.packet]
    rfl
  obtain ⟨stages, hst, hp⟩ := passes_relaying hkey (C.missing opts phase)
  suffices h : wp C.sem (fun _ _ => True) (pipelineRun opts hasPriceClient r) (fun _ s =>
      s.delivered = C.missing opts phase ∧
      C.missing opts s.phase = [] ∧ some s.row.status = s.phase.finalStatus) ⟨r, phase, []⟩ from
        h.returned hs
  change wp _ _ (runStages pl (newPipeline pl) _) _ _
  rw [hst]
  refine wp_runStages_append ((hp _ ⟨r, phase, []⟩ (h.inStep hr) rfl).post ?_)
  rintro _ s₁ ⟨⟨t', rfl, hdate, hsent, hmissing⟩, htrack⟩
  refine ⟨by simp, fun u hu => Option.some.inj hu ▸ (finishes t' s₁ hdate hsent hmissing).post ?_⟩
  rintro _ s₂ ⟨hstay, hrow⟩
  rw [Course.OnTrack, hmissing, List.append_nil] at htrack
  refine ⟨hstay.delivered.trans htrack, ?_, ?_⟩
  · rw [hstay.phase]
    exact hmissing
  · rw [hstay.phase]
    exact hrow

/-- The clock is past the packet's timeout, or not. -/
def someCourse (late : Bool) : Course :=
  ⟨(newIBCV2Transfer (insertedRow somePacket)).packet, .success, late⟩

theorem someCourse_fits (late : Bool) : (someCourse late).Fits .sent (insertedRow somePacket) where
  packet := rfl
  source := ⟨[0x0a], by decide⟩
  recvHash := by simp [PacketPhase.hash, PacketPhase.tx]
  late := by simp [PacketPhase.tx]
  tx k := by cases k <;> exact .inl rfl
  ack_recv := by simp [insertedRow]
  writeAck := by simp [insertedRow]

theorem run_delivers_missing_sent :
    (∃ o s, (someCourse false).Run someOptions false .sent (insertedRow somePacket) o s ∧
      s.delivered = [.recv, .ack]) ∧
    ∃ o s, (someCourse true).Run someOptions false .sent (insertedRow somePacket) o s ∧
      s.delivered = [.timeout] := by
  obtain ⟨⟨o, s, hs⟩, h⟩ := run_delivers_missing (.inserted somePacket) (someCourse_fits false)
  obtain ⟨⟨o', s', hs'⟩, h'⟩ := run_delivers_missing (.inserted somePacket) (someCourse_fits true)
  exact ⟨⟨o, s, hs, (h o s hs).1⟩, o', s', hs', (h' o' s' hs').1⟩

end Run

end PlatformRelayer

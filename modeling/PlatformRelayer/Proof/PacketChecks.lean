import PlatformRelayer.Proof.Network

/-!
# What the first processors find out about a packet

`checkRecvPacketDeliveryProcessor` and `checkPacketCommitmentProcessor`, on a network.
Both ask for the state of the packet and then for its tx. What they record is the tx of
the chain that has relayed the packet, and what they do not find was not there when they
began (`CheckOutcome`).
-/

namespace PlatformRelayer

open Db Prog

/-! ## The processors -/

/-- The search for a tx of a transfer. -/
def IBCV2Transfer.findTx (t : IBCV2Transfer) : TxKind → PlatformRelayer.Call
  | .recv =>
  .findRecvTx t.destinationChainID t.packetSourceClientID t.packetDestinationClientID t.sequence
      t.packetTimeoutTimestamp
  | .ack => .findAckTx t.sourceChainID t.packetSourceClientID t.packetDestinationClientID t.sequence
  | .timeout =>
  .findTimeoutTx t.sourceChainID t.packetSourceClientID t.packetDestinationClientID t.sequence

/-- What a check comes to that looks for txs of some kinds on a chain, after it has
asked for the client and made the call `status`. -/
inductive CheckOutcome (net : Net) (fails : PlatformRelayer.Call → Prop) (p : ChainPacket)
    (t : IBCV2Transfer) (chainID : String) (status : PlatformRelayer.Call) (kinds : List TxKind)
    (s : NetState) : Except Err IBCV2Transfer → NetState → Prop where
  /-- Nothing had happened yet when the check began. -/
  | pending {s' : NetState} (row : s'.row = s.row) (absent : ∀ k ∈ kinds,
    .relayed k p ∉ (s.chains chainID).events) :
    CheckOutcome net fails p t chainID status kinds s (.ok t) s'
  /-- A tx of the chain has relayed the packet, and the row has it now. -/
  | found {k : TxKind} (tx : BridgeTx) {s' : NetState} (kind : k ∈ kinds)
    (relays : (s'.chains chainID).Relays (net chainID).hashString k p tx)
    (row : s'.row = (t.recordTx k tx).set.apply s.row) :
    CheckOutcome net fails p t chainID status kinds s (.ok (t.foundTx k tx)) s'
  /-- A call has failed that was needed. A search is needed only if there is
  something to find. -/
  | failed {err : Err} {s' : NetState} {c : PlatformRelayer.Call} (row : s'.row = s.row)
    (failure : fails c) (needed : c = .getClient chainID ∨ c = status ∨
      (∃ k ∈ kinds, .relayed k p ∈ (s'.chains chainID).events ∧ c = t.findTx k) ∨
      ∃ k ∈ kinds, ∃ tx, c = .exec (t.recordTx k tx)) :
    CheckOutcome net fails p t chainID status kinds s (.error err) s'

section Processors

variable {net : Net} {fails : PlatformRelayer.Call → Prop} {p : ChainPacket} {t : IBCV2Transfer}
  {s : NetState}

theorem received_iff {rules : ChainRules} {es : List PacketEvent} (h : Lawful rules es)
    (hp : p ∈ rules.genuine) : Received es p.destClientID p.sequence ↔ .relayed .recv p ∈ es := by
  constructor
  · intro hr
    obtain ⟨e, he, hslot⟩ := List.mem_map.mp hr
    cases e with
    | sent q => cases hslot
    | relayed k q =>
      have hk : k = .recv := by
        by_contra hk
        rw [PacketEvent.slot, q.slot_of_ne hk] at hslot
        cases hslot
      subst hk
      rwa [h.eq_of_known (k := .recv) hp he hslot] at he
  · exact fun hmem => List.mem_map.mpr ⟨_, hmem, rfl⟩

/-- A packet that was sent is committed until it is acknowledged or timed out. -/
theorem committed_iff {rules : ChainRules} {es : List PacketEvent} (h : Lawful rules es)
    (hp : .sent p ∈ es) : Committed es p.sourceClientID p.sequence ↔
      ∀ k ∈ [TxKind.ack, .timeout], .relayed k p ∉ es := by
  constructor
  · intro hc k hk hmem
    have hne : k ≠ .recv := by
      rintro rfl
      simp at hk
    exact hc.2 (List.mem_map.mpr ⟨_, hmem, p.slot_of_ne hne⟩)
  · refine fun hnone => ⟨List.mem_map.mpr ⟨_, hp, rfl⟩, fun hr => ?_⟩
    obtain ⟨e, he, hslot⟩ := List.mem_map.mp hr
    cases e with
    | sent q => cases hslot
    | relayed k q =>
      have hk : k ≠ .recv := by
        rintro rfl
        cases hslot
      have hslot' : q.slot k = p.slot k := hslot.trans (p.slot_of_ne hk).symm
      have hknown : p.Known rules es k := by
        cases k with
        | recv => exact absurd rfl hk
        | _ => exact hp
      rw [h.eq_of_known hknown he hslot'] at he
      refine hnone k ?_ he
      cases k with
      | recv => exact absurd rfl hk
      | _ => decide

/-- The update that ends a check. -/
theorem recordFound_outcome {chainID : String} {status : PlatformRelayer.Call} {kinds : List TxKind}
    {k : TxKind} (hk : k ∈ kinds) {tx : BridgeTx} {s₀ : NetState} (hs : s.Grows net s₀)
    (hrow : s₀.row = s.row) (hrelays : (s₀.chains chainID).Relays (net chainID).hashString k p tx)
    (format : String) : wpRel (NetState.Reports net fails t.key p) (fun _ s => s.Lawful net)
      (recordFound t k format tx) (CheckOutcome net fails p t chainID status kinds s) s₀ := by
  refine wpRel_try (wpRel_perform.mpr ⟨hs.lawful, fun ans s₁ h₁ => ?_⟩)
  cases ans with
  | error err =>
    exact of_error (.failed (h₁.row.trans hrow) (h₁.told trivial trivial)
      (.inr (.inr (.inr ⟨k, hk, tx, rfl⟩))))
  | ok _ =>
    refine of_ok (.found tx hk ?_ ?_)
    · exact hrelays.grows (h₁.grows chainID)
    · rw [h₁.row, hrow]
      exact Call.effectOn_exec rfl _

theorem commitment_check_reports (hs : s.Lawful net) (ht : t.IsFor p)
    (hsent : .sent p ∈ (s.chains t.sourceChainID).events) :
    wpRel (NetState.Reports net fails t.key p) (fun _ s => s.Lawful net)
      (checkPacketCommitmentProcessor.process t)
      (CheckOutcome net fails p t t.sourceChainID
        (.isPacketCommitted t.sourceChainID t.packetSourceClientID t.sequence) [.ack, .timeout] s)
        s := by
  refine wpRel_try (wpRel_perform.mpr ⟨hs, fun ans s₁ h₁ => ?_⟩)
  cases ans with
  | error err => exact of_error (.failed h₁.row (h₁.told trivial trivial) (.inl rfl))
  | ok _ =>
  have hsource : t.packetSourceClientID ∈ (net t.sourceChainID).rules.ids := by
    rw [ht.source]
    exact (hs t.sourceChainID).source_mem hsent
  refine of_ok (wpRel_try (wpRel_perform.mpr ⟨h₁.grows.lawful, fun ans s₂ h₂ => ?_⟩))
  have htells := h₂.told hsource
  have hgrows := h₁.grows.trans h₂.grows
  have hrow : s₂.row = s.row := h₂.row.trans h₁.row
  have hsent₂ := (hgrows t.sourceChainID).mem hsent
  cases ans with
  | error err => exact of_error (.failed hrow (htells.fails err rfl) (.inr (.inl rfl)))
  | ok committed =>
  refine of_ok ?_
  have htold := htells.tells committed rfl
  rw [ht.source, ht.sequence, committed_iff (hgrows _).lawful hsent₂] at htold
  cases committed with
  | true => exact .pending hrow fun k hk hmem => htold.mp rfl k hk ((hgrows _).mem hmem)
  | false =>
  have hasks : t.packetSourceClientID = p.sourceClientID ∧
      t.packetDestinationClientID = p.destClientID ∧
      t.sequence = p.sequence := ⟨ht.source, ht.dest, ht.sequence⟩
  refine wpRel_bind.mpr (wpRel_perform.mpr ⟨hgrows.lawful, fun ack s₃ h₃ => ?_⟩)
  have hfinds := h₃.told ⟨hsent₂, hasks⟩
  have hgrows₃ := hgrows.trans h₃.grows
  refine wpRel_bind.mpr (wpRel_perform.mpr ⟨hgrows₃.lawful, fun timeout s₄ h₄ => ?_⟩)
  have hfinds' := h₄.told ⟨(hgrows₃ _).mem hsent, hasks⟩
  have hgrows₄ := hgrows₃.trans h₄.grows
  have hrow₄ : s₄.row = s.row := (h₄.row.trans h₃.row).trans hrow
  have hack (tx : BridgeTx) (hok : ack = .ok tx) :
      (s₄.chains t.sourceChainID).Relays (net t.sourceChainID).hashString .ack p tx :=
    (hfinds.finds tx hok).grows (h₄.grows _)
  cases ack with
  | ok ackTx =>
    cases timeout with
    | ok timeoutTx =>
      -- both cannot have been found
      have hkind := (hgrows₄ _).lawful.kind_eq (hack ackTx rfl).mem
        (hfinds'.finds timeoutTx rfl).mem (by decide) (by decide)
      cases hkind
    | error _ => exact recordFound_outcome (by decide) hgrows₄ hrow₄ (hack ackTx rfl) _
  | error ackErr =>
    cases timeout with
    | ok timeoutTx =>
      exact recordFound_outcome (by decide) hgrows₄ hrow₄ (hfinds'.finds timeoutTx rfl) _
    | error timeoutErr =>
      -- the packet was resolved before the searches, so one of them has failed
      have hresolved : ∃ k ∈ [TxKind.ack, .timeout],
          .relayed k p ∈ (s₂.chains t.sourceChainID).events := by
        by_contra hnone
        exact Bool.false_ne_true (htold.mpr fun k hk hmem => hnone ⟨k, hk, hmem⟩)
      obtain ⟨k, hk, hmem⟩ := hresolved
      have hmem₄ := ((h₃.grows.trans h₄.grows) t.sourceChainID).mem hmem
      have hfails : fails (t.findTx k) := by
        simp only [List.mem_cons, List.not_mem_nil, or_false] at hk
        rcases hk with rfl | rfl
        · exact (hfinds.fails ackErr rfl).resolve_right fun h => h.2 hmem
        · exact (hfinds'.fails timeoutErr rfl).resolve_right fun h => h.2 ((h₃.grows _).mem hmem)
      exact .failed hrow₄ hfails (.inr (.inr (.inl ⟨k, hk, hmem₄, rfl⟩)))

theorem recv_check_reports (hs : s.Lawful net) (ht : t.IsFor p)
    (hp : p ∈ (net t.destinationChainID).rules.genuine)
    (hsource : p.sourceClientID ∈ (net t.destinationChainID).rules.ids)
    (hdest : p.destClientID ∈ (net t.destinationChainID).rules.ids) :
    wpRel (NetState.Reports net fails t.key p) (fun _ s => s.Lawful net)
      (checkRecvPacketDeliveryProcessor.process t)
      (CheckOutcome net fails p t t.destinationChainID
        (.isPacketReceived t.destinationChainID t.packetDestinationClientID t.sequence) [.recv] s)
        s := by
  refine wpRel_try (wpRel_perform.mpr ⟨hs, fun ans s₁ h₁ => ?_⟩)
  cases ans with
  | error err => exact of_error (.failed h₁.row (h₁.told trivial trivial) (.inl rfl))
  | ok _ =>
  have hclient : t.packetDestinationClientID ∈ (net t.destinationChainID).rules.ids :=
    ht.dest ▸ hdest
  refine of_ok (wpRel_try (wpRel_perform.mpr ⟨h₁.grows.lawful, fun ans s₂ h₂ => ?_⟩))
  have htells := h₂.told hclient
  have hgrows := h₁.grows.trans h₂.grows
  have hrow : s₂.row = s.row := h₂.row.trans h₁.row
  cases ans with
  | error err => exact of_error (.failed hrow (htells.fails err rfl) (.inr (.inl rfl)))
  | ok received =>
  refine of_ok ?_
  have htold := htells.tells received rfl
  rw [ht.dest, ht.sequence, received_iff (hgrows _).lawful hp] at htold
  cases received with
  | false =>
    refine .pending hrow fun k hk hmem => ?_
    rw [List.mem_singleton.mp hk] at hmem
    cases htold.mpr ((hgrows _).mem hmem)
  | true =>
  have hmem := htold.mp rfl
  refine wpRel_try (wpRel_perform.mpr ⟨hgrows.lawful, fun ans s₃ h₃ => ?_⟩)
  have hfinds := h₃.told ⟨hp, hsource, hdest, ht.source, ht.dest, ht.sequence, ht.timeout⟩
  have hrow₃ : s₃.row = s.row := h₃.row.trans hrow
  cases ans with
  | error err =>
    have hfails : fails (t.findTx .recv) := (hfinds.fails err rfl).resolve_right fun h => h.2 hmem
    exact of_error
      (.failed hrow₃ hfails (.inr (.inr (.inl ⟨.recv, by decide, (h₃.grows _).mem hmem, rfl⟩))))
  | ok tx =>
    exact of_ok (recordFound_outcome (by decide) (hgrows.trans h₃.grows) hrow₃
      (hfinds.finds tx rfl) _)

variable {o : Except Err IBCV2Transfer} {s' : NetState}

/-- On any network, while txs keep coming in: the check of a packet that was sent
records the tx that has acknowledged it or timed it out. It finds nothing only if there
was nothing when it began, and it fails only if a call has failed that it needed. -/
theorem commitment_check_finds_resolution (hs : s.Lawful net) (ht : t.IsFor p)
    (hsent : .sent p ∈ (s.chains t.sourceChainID).events)
    (hrun : Steps (Sem.rel (net.Answers fails t.key))
      (onNet net (checkPacketCommitmentProcessor.process t)) s (.ret o) s') :
    CheckOutcome net fails p t t.sourceChainID
      (.isPacketCommitted t.sourceChainID t.packetSourceClientID t.sequence) [.ack, .timeout]
      s o s' :=
  onNet_returned (commitment_check_reports hs ht hsent) hrun

/-- The same for the check of a packet that is on its way to its destination. -/
theorem recv_check_finds_receipt (hs : s.Lawful net) (ht : t.IsFor p)
    (hp : p ∈ (net t.destinationChainID).rules.genuine)
    (hsource : p.sourceClientID ∈ (net t.destinationChainID).rules.ids)
    (hdest : p.destClientID ∈ (net t.destinationChainID).rules.ids)
    (hrun : Steps (Sem.rel (net.Answers fails t.key))
      (onNet net (checkRecvPacketDeliveryProcessor.process t)) s (.ret o) s') :
    CheckOutcome net fails p t t.destinationChainID
      (.isPacketReceived t.destinationChainID t.packetDestinationClientID t.sequence) [.recv]
      s o s' :=
  onNet_returned (recv_check_reports hs ht hp hsource hdest) hrun

end Processors

/-! ### Two checks -/

namespace PacketChecks

def someChainPacket : ChainPacket := ⟨⟨1, "a", "b"⟩, 9⟩

def someRules : ChainRules where
  ids := { id | quote ∉ id.toList }
  genuine := {someChainPacket}
  genuine_eq hp hq _ := hp.trans hq.symm

def someHash (n : UInt8) : List UInt8 := List.replicate 32 n

def someSent : ChainTx where
  hash := someHash 1
  hash_length := List.length_replicate
  bytes := []
  height := 5
  time := 5 * second
  seen := 6 * second
  ok := true
  events := [.sent someChainPacket]
  failed := by simp

def someAcked : ChainTx where
  hash := someHash 2
  hash_length := List.length_replicate
  bytes := []
  height := 6
  time := 6 * second
  seen := 7 * second
  ok := true
  events := [.relayed .ack someChainPacket]
  failed := by simp

def someEvmClient : EVMSearcher where
  chainID := "1"
  routerAddress := [7]
  events := ⟨fun k => match k with | .recv => [1] | .ack => [2] | .timeout => [3],
    fun _ _ => .ok ()⟩
  keccak256 := id
  sender _ _ := .ok "relayer"

def someEvmRouter : EvmRouter where
  sendPacketID := [4]
  commitmentOf _ := [1]
  receiptOf _ := [1]
  data _ := []
  otherLogs _ := []

theorem someEvmRouter_sound : someEvmRouter.Sound someEvmClient someRules.ids where
  commitment _ := show [1] ≠ unwritten by decide
  receipt _ := show [1] ≠ unwritten by decide
  id_inj {k k'} h := by cases k <;> cases k' <;> first | rfl | cases h
  id_ne k h := by cases k <;> cases h
  parse _ _ := rfl
  other _ _ h := by cases h
  paths _ _ _ _ _ _ h := h
  topics _ _ h := h

def someEvmNet : Net := fun _ => .evm someEvmClient someEvmRouter someRules someEvmRouter_sound

def someEvmChain : Chain := ⟨[someAcked, someSent], 7 * second, 8 * second, by decide, by decide⟩

theorem someEvmChain_lawful : Lawful someRules someEvmChain.events := by
  have hack : PacketEvent.Allowed someRules [.sent someChainPacket]
      (.relayed .ack someChainPacket) :=
    { fresh := by decide
      source := show quote ∉ "a".toList by decide
      dest := show quote ∉ "b".toList by decide
      received := by simp
      resolved := by simp }
  have hsend : PacketEvent.Allowed someRules [] (.sent someChainPacket) :=
    { fresh := by decide
      source := show quote ∉ "a".toList by decide
      dest := show quote ∉ "b".toList by decide
      received := by simp
      resolved := by simp }
  exact ⟨hack, hsend, trivial⟩

def someParams : InsertIBCV2TransferParams where
  sourceChainID := "1"
  destinationChainID := "2"
  sourceTxHash := EVMBridgeClient.hashString (someHash 1)
  sourceTxTime := 5 * second
  packetSequenceNumber := 1
  packetSourceClientID := "a"
  packetDestinationClientID := "b"
  packetTimeoutTimestamp := 9 * second

def someRow : Db.Ibcv2Transfer := insertedRow someParams

def someTransfer : IBCV2Transfer := newIBCV2Transfer someRow

theorem someTransfer_isFor : someTransfer.IsFor someChainPacket := ⟨rfl, rfl, by decide, by decide⟩

def someEvmState : NetState := ⟨fun _ => someEvmChain, someRow⟩

def someAckTx : BridgeTx := ⟨EVMBridgeClient.hashString (someHash 2), 6 * second, "relayer"⟩

def someEvmAcked : NetState :=
  ⟨fun _ => someEvmChain, (someTransfer.recordTx .ack someAckTx).set.apply someRow⟩

def someLog : FoundLog :=
  ⟨someEvmRouter.logOf someEvmClient (.relayed .ack someChainPacket), 6, someHash 2⟩

theorem someEvmState_run :
    Steps (Sem.rel (someEvmNet.Answers (fun _ => False) someTransfer.key))
      (onNet someEvmNet (checkPacketCommitmentProcessor.process someTransfer)) someEvmState
      (.ret (.ok (someTransfer.foundTx .ack someAckTx))) someEvmAcked := by
  have hstay : someEvmState.Grows someEvmNet someEvmState := fun _ => .refl someEvmChain_lawful
  have hlast : someEvmState.Grows someEvmNet someEvmAcked := fun _ => .refl someEvmChain_lawful
  refine .call (.ok (), someEvmState) ⟨hstay, rfl, fun h => h.elim⟩ ?_
  refine .call (.ok unwritten, someEvmState) ⟨hstay, rfl, hstay "1", ?_⟩ ?_
  · change unwritten = someEvmRouter.storage someEvmClient someEvmChain.events (packetPath "a" 1 1)
    decide +kernel
  refine .call (.ok [someLog], someEvmState) ⟨hstay, rfl, hstay "1", .of_eq ?_⟩ ?_
  · decide +kernel
  refine .call (.ok 6, someEvmState) ⟨hstay, rfl, hstay "1", ?_⟩ ?_
  · change ∀ tx ∈ someEvmChain.txs, (6 : Int) = tx.height.toInt64.toInt → 6 * second = tx.time
    decide +kernel
  refine .call (.ok [], someEvmState) ⟨hstay, rfl, hstay "1", trivial⟩ ?_
  refine .call (.ok [], someEvmState) ⟨hstay, rfl, hstay "1", .of_eq ?_⟩ ?_
  · decide +kernel
  refine .call (.ok (), someEvmAcked) ⟨hlast, ?_, fun h => h.elim⟩ ?_
  · exact (Call.effectOn_exec (q := someTransfer.recordTx .ack someAckTx) rfl someRow).symm
  exact .refl ..

theorem commitment_check_finds_resolution_one :
    CheckOutcome someEvmNet (fun _ => False) someChainPacket someTransfer "1"
      (.isPacketCommitted "1" "a" 1) [.ack, .timeout]
      someEvmState (.ok (someTransfer.foundTx .ack someAckTx)) someEvmAcked :=
  commitment_check_finds_resolution (fun _ => someEvmChain_lawful) someTransfer_isFor
    (by decide) someEvmState_run

def someIndex : CosmosIndex := ⟨fun _ => [], fun _ => []⟩

def someCosmosClient : CosmosSearcher where
  decodeTx _ := .ok [.other, .recvPacket "relayer"]
  decodeFee _ := .ok (some fun _ => 10)
  feeDenom := "token"

def someCosmosNet : Net := fun _ =>
  .cosmos someCosmosClient someIndex someRules ⟨fun h => h,
    by simp [someIndex], by simp [someIndex]⟩

def someReceived : ChainTx :=
  { someAcked with events := [.relayed .recv someChainPacket], failed := by simp [someAcked] }

def someCosmosChain : Chain :=
  ⟨[someReceived], 7 * second, 8 * second, by decide, List.nodup_singleton _⟩

theorem someCosmosChain_lawful : Lawful someRules someCosmosChain.events := by
  have hrecv : PacketEvent.Allowed someRules [] (.relayed .recv someChainPacket) :=
    { fresh := by decide
      source := show quote ∉ "a".toList by decide
      dest := show quote ∉ "b".toList by decide
      received p hp := by
        cases hp
        rfl
      resolved := by simp }
  exact ⟨hrecv, trivial⟩

def someCosmosState : NetState := ⟨fun _ => someCosmosChain, someRow⟩

def someRecvTx : BridgeTx := ⟨CosmosBridgeClient.hashString (someHash 2), 6 * second, "relayer"⟩

def someCosmosReceived : NetState :=
  ⟨fun _ => someCosmosChain, (someTransfer.recordTx .recv someRecvTx).set.apply someRow⟩

def someSearch : ResultTxSearch := ⟨[⟨someHash 2, 6, []⟩], 1, by simp⟩

theorem someCosmosState_run :
    Steps (Sem.rel (someCosmosNet.Answers (fun _ => False) someTransfer.key))
      (onNet someCosmosNet (checkRecvPacketDeliveryProcessor.process someTransfer)) someCosmosState
      (.ret (.ok (someTransfer.foundTx .recv someRecvTx))) someCosmosReceived := by
  have hstay : someCosmosState.Grows someCosmosNet someCosmosState :=
    fun _ => .refl someCosmosChain_lawful
  have hlast : someCosmosState.Grows someCosmosNet someCosmosReceived :=
    fun _ => .refl someCosmosChain_lawful
  refine .call (.ok (), someCosmosState) ⟨hstay, rfl, fun h => h.elim⟩ ?_
  refine .call (.ok true, someCosmosState) ⟨hstay, rfl, hstay "2", ?_⟩ ?_
  · change true = true ↔ Received someCosmosChain.events "b" 1
    decide +kernel
  refine .call (.ok someSearch, someCosmosState) ⟨hstay, rfl, hstay "2", ?_⟩ ?_
  · refine ⟨conditionsFor .recv someChainPacket, someSearch.txs, ?_, .of_eq ?_, rfl,
      List.prefix_refl _⟩ <;> decide +kernel
  refine .call (.ok (some (6 * second)), someCosmosState) ⟨hstay, rfl, hstay "2", ?_⟩ ?_
  · change ∀ tx ∈ someCosmosChain.txs, (6 : Int64) = tx.height.toInt64 → 6 * second = tx.time
    decide +kernel
  refine .call (.ok (), someCosmosReceived) ⟨hlast, ?_, fun h => h.elim⟩ ?_
  · exact (Call.effectOn_exec (q := someTransfer.recordTx .recv someRecvTx) rfl someRow).symm
  exact .refl ..

theorem recv_check_finds_receipt_one :
    CheckOutcome someCosmosNet (fun _ => False) someChainPacket someTransfer "2"
      (.isPacketReceived "2" "b" 1) [.recv]
      someCosmosState (.ok (someTransfer.foundTx .recv someRecvTx)) someCosmosReceived :=
  recv_check_finds_receipt (fun _ => someCosmosChain_lawful) someTransfer_isFor rfl
    (show quote ∉ "a".toList by decide) (show quote ∉ "b".toList by decide) someCosmosState_run

end PacketChecks

end PlatformRelayer

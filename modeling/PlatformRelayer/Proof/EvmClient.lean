import PlatformRelayer.Proof.Chains

/-!
# What the EVM client finds out

Each event of a packet writes a slot of the router's storage, at the hash of a path,
and emits a log. The paths of different packets are different (`packetPath_inj`), so a
slot says whether its packet is committed or received, as long as no two paths that
are in use have one hash; and a packet that is known is looked for by a client and a
sequence that only its own log has (`filter_logs`). So the queries report what has
happened on the chain (`EVMSearcher.tracks`).
-/

namespace PlatformRelayer

open Db Prog

/-! ## Paths -/

theorem bytesOf_inj {s t : String} (h : bytesOf s = bytesOf t) : s = t := by
  have hutf8 : s.toList.utf8Encode = t.toList.utf8Encode := congrArg List.toByteArray h
  rwa [String.utf8Encode_toList, String.utf8Encode_toList, String.toByteArray_inj] at hutf8

theorem uint64ToBigEndian_inj {n m : UInt64} (h : uint64ToBigEndian n = uint64ToBigEndian m) :
    n = m := by
  simp only [uint64ToBigEndian, List.cons.injEq, and_true, ← UInt8.toNat_inj, UInt64.toNat_toUInt8,
    UInt64.toNat_shiftRight, UInt64.toNat_ofNat, Nat.shiftRight_eq_div_pow, Nat.reduceMod,
    Nat.reducePow] at h
  have hn := n.toNat_lt
  have hm := m.toNat_lt
  rw [← UInt64.toNat_inj]
  omega

/-- What `encodePacked` makes of a client id, a tag and a sequence. -/
def packetPath (clientID : String) (tag : UInt8) (sequence : UInt64) : List UInt8 :=
  bytesOf clientID ++ tag :: uint64ToBigEndian sequence

theorem encodePacked_path (clientID : String) (tag : UInt8) (sequence : UInt64) :
    encodePacked [.string clientID, .byte tag, .bytes (uint64ToBigEndian sequence)] =
      .ok (packetPath clientID tag sequence) := by
  simp [encodePacked, packetPath, Except.map]

/-- The last nine bytes of a path are the tag and the sequence, so a path can be read
in one way only, whatever is in the client id. -/
theorem packetPath_inj {clientID clientID' : String} {tag tag' : UInt8}
    {sequence sequence' : UInt64}
    (h : packetPath clientID tag sequence = packetPath clientID' tag' sequence') :
    clientID = clientID' ∧ tag = tag' ∧ sequence = sequence' := by
  obtain ⟨hid, hrest⟩ := List.append_inj' h rfl
  obtain ⟨htag, hsequence⟩ := List.cons.inj hrest
  exact ⟨bytesOf_inj hid, htag, uint64ToBigEndian_inj hsequence⟩

/-! ## EVM -/

/-- The client that an event is logged for. -/
def PacketEvent.clientID : PacketEvent → String
  | .relayed .recv p => p.destClientID
  | .relayed _ p => p.sourceClientID
  | .sent p => p.sourceClientID

/-- `FilterLogs`: a log is from one of the addresses, and each of its topics is one of
those at its place, if there are any. -/
def FoundLog.passes (addresses : List (List UInt8)) (topics : List (List (List UInt8)))
    (l : FoundLog) : Bool :=
  addresses.contains l.log.address && decide (topics.length ≤ l.log.topics.length) &&
    (topics.zip l.log.topics).all fun t => t.1.isEmpty || t.1.contains t.2

/-- The router of a chain, as far as the client does not know it: the id of the event of
a packet that is sent, the words that are written for a packet, the data of its logs,
and the logs of other contracts. -/
structure EvmRouter where
  sendPacketID : List UInt8
  commitmentOf : ChainPacket → List UInt8
  receiptOf : ChainPacket → List UInt8
  data : PacketEvent → List UInt8
  otherLogs : ChainTx → List EvmLog

namespace EvmRouter

variable (router : EvmRouter) (client : EVMSearcher)

/-- What an event writes, and where. -/
def write : PacketEvent → List UInt8 × List UInt8
  | .sent p => (client.keccak256 (packetPath p.sourceClientID 1 p.sequence), router.commitmentOf p)
  | .relayed .recv p => (client.keccak256 (packetPath p.destClientID 2 p.sequence),
  router.receiptOf p)
  | .relayed _ p => (client.keccak256 (packetPath p.sourceClientID 1 p.sequence), unwritten)

def storage : List PacketEvent → List UInt8 → List UInt8
  | [], _ => unwritten
  | e :: es, hashedPath =>
    if hashedPath = (router.write client e).1 then (router.write client e).2
      else storage es hashedPath

def eventID : PacketEvent → List UInt8
  | .sent _ => router.sendPacketID
  | .relayed k _ => client.events.id k

def logOf (e : PacketEvent) : EvmLog where
  address := client.routerAddress
  topics := [router.eventID client e, client.makeTopic (.string e.clientID),
    client.makeTopic (.uint64 e.packet.sequence)]
  data := router.data e

def logsOf (tx : ChainTx) : List FoundLog :=
  (tx.events.map (router.logOf client) ++ router.otherLogs tx).map fun log =>
    ⟨log, tx.height, tx.hash⟩

/-- What a node says at a time of the receipt of a tx. -/
def Receipt (fails : Prop) (hash : List UInt8) (c : Chain)
    (time : Time) : Except Err TxReceipt → Prop
  | .ok receipt => ∃ tx ∈ c.txs, tx.hash = hash ∧ (receipt.status = 1 ↔ tx.ok = true)
  | .error err => if err.contains "not found" then c.NotFoundAt hash time else fails

/-- What is answered of a chain to a call at the time `asked`: by the node, and for a
receipt by `txOnce`. The calls of Cosmos clients are not made. -/
def View (fails : Prop) (asked : Time) : (c : SearchCall) → c.Ans → Chain → Prop
  | .getCommitment hashedPath, .ok word, c => word = router.storage client c.events hashedPath
  | .filterLogs addresses topics, .ok logs, c =>
    logs.Perm ((c.txs.flatMap (router.logsOf client)).filter (FoundLog.passes addresses topics))
  | .headerByNumber (some number), .ok time, c =>
    ∀ tx ∈ c.txs, number = tx.height.toInt64.toInt → unixInstant time.toInt64 = tx.time
  | .headerByNumber none, .ok time, c => unixInstant time.toInt64 = c.time
  | .transactionReceipt key hash, a, c => txOnce.Returns (Receipt fails hash c) key asked a
  | .getCommitment _, .error _, _ => fails
  | .filterLogs .., .error _, _ => fails
  | .headerByNumber _, .error _, _ => fails
  | _, _, _ => True

/-- A call is answered, while txs keep coming in. -/
def Answers (rules : ChainRules) (fails : Prop) (c : SearchCall) (a : c.Ans)
    (s s' : Chain) : Prop :=
  s.Grows rules s' ∧ router.View client fails s.now c a s'

/-- The router is the one that the client was made for, and no two paths or ids that
are in use have one hash. -/
structure Sound (ids : Set String) : Prop where
  commitment (p : ChainPacket) : router.commitmentOf p ≠ unwritten
  receipt (p : ChainPacket) : router.receiptOf p ≠ unwritten
  id_inj {k k' : TxKind} : client.events.id k = client.events.id k' → k = k'
  id_ne (k : TxKind) : client.events.id k ≠ router.sendPacketID
  parse (k : TxKind) (p : ChainPacket) :
    client.events.parse k (router.logOf client (.relayed k p)) = .ok ()
  other (tx : ChainTx) : ∀ log ∈ router.otherLogs tx, log.address = client.routerAddress →
    ∀ k, log.topics.head? ≠ some (client.events.id k)
  paths {c c' : String} (hc : c ∈ ids) (hc' : c' ∈ ids) {tag tag' : UInt8} {n n' : UInt64} :
    client.keccak256 (packetPath c tag n) = client.keccak256 (packetPath c' tag' n') →
    packetPath c tag n = packetPath c' tag' n'
  topics {c c' : String} (hc : c ∈ ids) (hc' : c' ∈ ids) :
    client.keccak256 (bytesOf c) = client.keccak256 (bytesOf c') → bytesOf c = bytesOf c'

end EvmRouter

/-! ### Storage -/

section Storage

variable {rules : ChainRules} {es : List PacketEvent} {e : PacketEvent} {clientID : String}
  {sequence : UInt64}

theorem committed_cons_iff (hsend : e.slot ≠ .send clientID sequence)
    (hresolution : e.slot ≠ .resolution clientID sequence) :
    Committed (e :: es) clientID sequence ↔ Committed es clientID sequence := by
  simp [Committed, hsend.symm, hresolution.symm]

theorem received_cons_iff (h : e.slot ≠ .receipt clientID sequence) :
    Received (e :: es) clientID sequence ↔ Received es clientID sequence := by
  simp [Received, h.symm]

/-- What is resolved was sent. -/
theorem Lawful.send_of_resolution (h : Lawful rules es)
    (hr : .resolution clientID sequence ∈ es.map PacketEvent.slot) :
    .send clientID sequence ∈ es.map PacketEvent.slot := by
  obtain ⟨e, he, hslot⟩ := List.mem_map.mp hr
  cases e with
  | sent p => cases hslot
  | relayed k p =>
    by_cases hk : k = .recv
    · subst hk
      cases hslot
    · rw [PacketEvent.slot, p.slot_of_ne hk] at hslot
      cases hslot
      exact List.mem_map.mpr ⟨.sent p, h.sent_of_mem he hk, rfl⟩

variable {router : EvmRouter} {client : EVMSearcher}

theorem EvmRouter.storage_cons_of_ne {hashedPath : List UInt8}
    (h : hashedPath ≠ (router.write client e).1) :
    router.storage client (e :: es) hashedPath = router.storage client es hashedPath :=
  if_neg h

theorem EvmRouter.storage_cons_self :
    router.storage client (e :: es) (router.write client e).1 = (router.write client e).2 :=
  if_pos rfl

namespace EvmRouter.Sound

variable (hsound : router.Sound client rules.ids)

include hsound

theorem path_eq {c c' : String} (hc : c ∈ rules.ids) (hc' : c' ∈ rules.ids) {tag tag' : UInt8}
    {n n' : UInt64}
    (h : client.keccak256 (packetPath c tag n) = client.keccak256 (packetPath c' tag' n')) :
    c = c' ∧ tag = tag' ∧ n = n' :=
  packetPath_inj (hsound.paths hc hc' h)

/-- A slot for commitments is written if the packet is committed. -/
theorem storage_committed (h : Lawful rules es) (hid : clientID ∈ rules.ids) :
    router.storage client es (client.keccak256 (packetPath clientID 1 sequence)) ≠ unwritten ↔
      Committed es clientID sequence := by
  induction es with
  | nil => simp [storage, Committed]
  | cons e es ih =>
    obtain ⟨hallowed, hes⟩ := h
    have hfresh := hallowed.fresh
    -- an event that writes another slot changes neither side
    have hother (hne : client.keccak256
        (packetPath clientID 1 sequence) ≠ (router.write client e).1)
        (hsend : e.slot ≠ .send clientID sequence)
        (hresolution : e.slot ≠ .resolution clientID sequence) :
        router.storage client (e :: es)
        (client.keccak256 (packetPath clientID 1 sequence)) ≠ unwritten ↔
          Committed (e :: es) clientID sequence := by
      rw [storage_cons_of_ne hne, committed_cons_iff hsend hresolution]
      exact ih hes
    cases e with
    | sent p =>
      by_cases heq : p.sourceClientID = clientID ∧ p.sequence = sequence
      · obtain ⟨rfl, rfl⟩ := heq
        refine iff_of_true ?_ ⟨List.mem_cons_self .., ?_⟩
        · rw [show client.keccak256 _ = (router.write client (.sent p)).1 from rfl,
            storage_cons_self]
          exact hsound.commitment p
        · intro hr
          rcases List.mem_cons.mp hr with hr | hr
          · cases hr
          · exact hfresh (hes.send_of_resolution hr)
      · refine hother (fun hpath => heq ?_) (fun hslot => heq ?_) (by simp [PacketEvent.slot])
        · obtain ⟨hc, -, hn⟩ := hsound.path_eq hid hallowed.source hpath
          exact ⟨hc.symm, hn.symm⟩
        · cases hslot
          exact ⟨rfl, rfl⟩
    | relayed k p =>
      by_cases hk : k = .recv
      · subst hk
        refine hother (fun hpath => ?_) (by simp [PacketEvent.slot, ChainPacket.slot])
          (by simp [PacketEvent.slot, ChainPacket.slot])
        have htag := (hsound.path_eq hid hallowed.dest hpath).2.1
        cases htag
      · have hwrite : router.write client (.relayed k p) =
            (client.keccak256 (packetPath p.sourceClientID 1 p.sequence), unwritten) := by
          cases k with
          | recv => exact absurd rfl hk
          | _ => rfl
        have hslot : (PacketEvent.relayed k p).slot = .resolution p.sourceClientID p.sequence :=
          p.slot_of_ne hk
        by_cases heq : p.sourceClientID = clientID ∧ p.sequence = sequence
        · obtain ⟨rfl, rfl⟩ := heq
          refine iff_of_false (not_not.mpr ?_) fun hc => hc.2 (hslot ▸ List.mem_cons_self ..)
          rw [show client.keccak256 _ = (router.write client (.relayed k p)).1 from by
            rw [hwrite], storage_cons_self, hwrite]
        · refine hother (fun hpath => heq ?_) (by simp [hslot]) (fun h => heq ?_)
          · rw [hwrite] at hpath
            obtain ⟨hc, -, hn⟩ := hsound.path_eq hid hallowed.source hpath
            exact ⟨hc.symm, hn.symm⟩
          · rw [hslot] at h
            cases h
            exact ⟨rfl, rfl⟩

/-- A slot for receipts is written if the packet is received. -/
theorem storage_received (h : Lawful rules es) (hid : clientID ∈ rules.ids) :
    router.storage client es (client.keccak256 (packetPath clientID 2 sequence)) ≠ unwritten ↔
      Received es clientID sequence := by
  induction es with
  | nil => simp [storage, Received]
  | cons e es ih =>
    obtain ⟨hallowed, hes⟩ := h
    have hother (hne : client.keccak256
        (packetPath clientID 2 sequence) ≠ (router.write client e).1)
        (hslot : e.slot ≠ .receipt clientID sequence) :
        router.storage client (e :: es)
        (client.keccak256 (packetPath clientID 2 sequence)) ≠ unwritten ↔
          Received (e :: es) clientID sequence := by
      rw [storage_cons_of_ne hne, received_cons_iff hslot]
      exact ih hes
    -- the other events write paths with the tag 1
    have htag {p : ChainPacket} (hp : p.sourceClientID ∈ rules.ids) :
        client.keccak256 (packetPath clientID 2 sequence) ≠ client.keccak256
        (packetPath p.sourceClientID 1 p.sequence) := by
      intro hpath
      have htag := (hsound.path_eq hid hp hpath).2.1
      cases htag
    cases e with
    | sent p => exact hother (htag hallowed.source) (by simp [PacketEvent.slot])
    | relayed k p =>
      cases k with
      | recv =>
        by_cases heq : p.destClientID = clientID ∧ p.sequence = sequence
        · obtain ⟨rfl, rfl⟩ := heq
          refine iff_of_true ?_ (List.mem_cons_self ..)
          rw [show client.keccak256 _ = (router.write client (.relayed .recv p)).1 from rfl,
            storage_cons_self]
          exact hsound.receipt p
        · refine hother (fun hpath => heq ?_) (fun hslot => heq ?_)
          · obtain ⟨hc, -, hn⟩ := hsound.path_eq hid hallowed.dest hpath
            exact ⟨hc.symm, hn.symm⟩
          · cases hslot
            exact ⟨rfl, rfl⟩
      | ack => exact hother (htag hallowed.source) (by simp [PacketEvent.slot, ChainPacket.slot])
      | timeout =>
        exact hother (htag hallowed.source) (by simp [PacketEvent.slot, ChainPacket.slot])

end EvmRouter.Sound

end Storage

/-! ### Logs -/

section Logs

variable {rules : ChainRules} {router : EvmRouter} {client : EVMSearcher} {c : Chain}
  {p : ChainPacket} {k : TxKind}

/-- The topics that a search filters for. -/
def EVMSearcher.topicsFor (client : EVMSearcher) (k : TxKind) (clientID : String)
    (sequence : UInt64) : List (List (List UInt8)) :=
  [[client.makeTopic (.hash (client.events.id k))], [client.makeTopic (.string clientID)],
    [client.makeTopic (.uint64 sequence)]]

theorem EVMSearcher.uint64_topic_inj {n m : UInt64}
    (h : client.makeTopic (.uint64 n) = client.makeTopic (.uint64 m)) : n = m :=
  uint64ToBigEndian_inj (List.append_cancel_left h)

/-- Of two packets that are relayed, with one client and one sequence, the slot is the
same. -/
theorem slot_eq_of_clientID {q : ChainPacket}
    (hid : (PacketEvent.relayed k q).clientID = (PacketEvent.relayed k p).clientID)
    (hn : q.sequence = p.sequence) : q.slot k = p.slot k := by
  cases k with
  | recv => exact congrArg₂ Slot.receipt hid hn
  | ack => exact congrArg₂ Slot.resolution hid hn
  | timeout => exact congrArg₂ Slot.resolution hid hn

theorem Lawful.clientID_mem {es : List PacketEvent} (h : Lawful rules es) {e : PacketEvent}
    (he : e ∈ es) : e.clientID ∈ rules.ids := by
  cases e with
  | sent q => exact h.source_mem he
  | relayed k q =>
    cases k with
    | recv => exact h.dest_mem he
    | ack => exact h.source_mem he
    | timeout => exact h.source_mem he

namespace EvmRouter.Sound

variable (hsound : router.Sound client rules.ids)

include hsound

/-- A log of the router passes the filter if it is of the event that is looked for. -/
theorem passes_logOf (h : Lawful rules c.events) (hp : p.Known rules c.events k)
    (hid : (PacketEvent.relayed k p).clientID ∈ rules.ids) {e : PacketEvent} (he : e ∈ c.events)
    (height : UInt64) (hash : List UInt8) :
    FoundLog.passes [client.routerAddress]
      (client.topicsFor k (PacketEvent.relayed k p).clientID p.sequence)
      ⟨router.logOf client e, height, hash⟩ = decide (e = .relayed k p) := by
  rw [Bool.eq_iff_iff, decide_eq_true_iff]
  have hpasses :
      FoundLog.passes [client.routerAddress]
      (client.topicsFor k (PacketEvent.relayed k p).clientID p.sequence)
      ⟨router.logOf client e, height, hash⟩ = true ↔ router.eventID client e = client.events.id k ∧
        client.makeTopic (.string e.clientID) = client.makeTopic
        (.string (PacketEvent.relayed k p).clientID) ∧
        client.makeTopic (.uint64 e.packet.sequence) = client.makeTopic (.uint64 p.sequence) := by
    simp [FoundLog.passes, EVMSearcher.topicsFor, logOf, EVMSearcher.makeTopic]
  rw [hpasses]
  constructor
  · rintro ⟨hevent, hstring, hnumber⟩
    have hclient := bytesOf_inj (hsound.topics (h.clientID_mem he) hid hstring)
    have hn := EVMSearcher.uint64_topic_inj hnumber
    cases e with
    | sent q => exact absurd hevent.symm (hsound.id_ne k)
    | relayed k' q =>
      obtain rfl := hsound.id_inj hevent
      rw [h.eq_of_known hp he (slot_eq_of_clientID hclient hn)]
  · rintro rfl
    exact ⟨rfl, rfl, rfl⟩

omit hsound in
/-- A log that a search finds is one of the router, with the id that is searched for. -/
theorem passes_topicsFor {log : EvmLog} {clientID : String} {sequence height : UInt64}
    {hash : List UInt8}
    (h : FoundLog.passes [client.routerAddress]
      (client.topicsFor k clientID sequence) ⟨log, height, hash⟩ = true) :
    log.address = client.routerAddress ∧ log.topics.head? = some (client.events.id k) := by
  cases htopics : log.topics with
  | nil => simp [FoundLog.passes, EVMSearcher.topicsFor, htopics] at h
  | cons id topics =>
    simp only [FoundLog.passes, EVMSearcher.topicsFor, htopics, List.zip_cons_cons, List.all_cons,
      Bool.and_eq_true, List.contains_cons, List.contains_nil, Bool.or_false, List.isEmpty_cons,
      Bool.false_or, beq_iff_eq] at h
    exact ⟨h.1.1, congrArg some h.2.1⟩

/-- What a search finds: a log for each tx with the event. -/
theorem filter_logs (h : Lawful rules c.events) (hp : p.Known rules c.events k)
    (hid : (PacketEvent.relayed k p).clientID ∈ rules.ids) :
    (c.txs.flatMap (router.logsOf client)).filter (FoundLog.passes [client.routerAddress]
        (client.topicsFor k (PacketEvent.relayed k p).clientID p.sequence)) =
      (c.txs.filter (.relayed k p ∈ ·.events)).map fun tx =>
      ⟨router.logOf client (.relayed k p), tx.height, tx.hash⟩ := by
  rw [← flatMap_filter_eq h.nodup_of_mem fun tx e =>
    (⟨router.logOf client e, tx.height, tx.hash⟩ : FoundLog), List.filter_flatMap,
    List.flatMap_def, List.flatMap_def]
  refine congrArg List.flatten (List.map_congr_left fun tx htx => ?_)
  have hothers : (router.otherLogs tx).filter (fun log => FoundLog.passes [client.routerAddress]
      (client.topicsFor k (PacketEvent.relayed k p).clientID p.sequence)
      ⟨log, tx.height, tx.hash⟩) = [] := by
    refine List.filter_eq_nil_iff.mpr fun log hlog hpasses => ?_
    obtain ⟨haddress, hhead⟩ := passes_topicsFor hpasses
    exact hsound.other tx log hlog haddress k hhead
  rw [logsOf, List.map_append, List.filter_append, List.filter_map, List.filter_map, List.map_map,
    List.filter_map]
  simp only [Function.comp_def]
  rw [hothers, List.map_nil, List.append_nil]
  refine congrArg (List.map _) (List.filter_congr fun e he => ?_)
  exact hsound.passes_logOf h hp hid (List.mem_flatMap.mpr ⟨tx, htx, he⟩) ..

end EvmRouter.Sound

namespace EVMSearcher

variable {fails : Prop}

theorem isWritten_tells {P : List PacketEvent → Prop} {clientID : String} {tag : UInt8}
    {sequence : UInt64} (hP : ∀ es, Lawful rules es →
      (router.storage client es (client.keccak256 (packetPath clientID tag sequence)) ≠ unwritten ↔
        P es))
    (encodeErr : Err → Err) (getErr : List UInt8 → Err → Err) :
    wpRel (router.Answers client rules fails) (fun _ _ => True)
      (client.isWritten clientID tag sequence encodeErr getErr) (c.Tells rules P fails) c := by
  unfold isWritten
  rw [encodePacked_path]
  refine wpRel_try (wpRel_perform.mpr ⟨trivial, fun ans c' h => ?_⟩)
  obtain ⟨hgrows, hview⟩ := h
  cases ans with
  | error err => exact of_error ⟨hgrows, by simp, fun _ _ => hview⟩
  | ok word =>
    refine of_ok ⟨hgrows, fun b hb => ?_, by simp⟩
    cases hb
    rw [decide_eq_true_iff, show word = _ from hview]
    exact hP c'.events hgrows.lawful

theorem txSigner_grows (h : Lawful rules c.events) (hash : List UInt8) :
    wpRel (router.Answers client rules fails) (fun _ _ => True) (client.txSigner hash)
      (fun _ c' => c.Grows rules c') c := by
  unfold txSigner
  split
  · exact .refl h
  refine wpRel_try (wpRel_perform.mpr ⟨trivial, fun ans c' hans =>
    ⟨fun _ _ => hans.1, fun tx _ => ?_⟩⟩)
  split <;> exact hans.1

/-- A search finds the tx of a packet, if there is one. -/
theorem findTx_finds (hsound : router.Sound client rules.ids) (hp : p.Known rules c.events k)
    (hid : (PacketEvent.relayed k p).clientID ∈ rules.ids)
    (filterFormat countFormat parseFormat : String) :
    wpRel (router.Answers client rules fails) (fun _ _ => True)
      (client.findTx k (PacketEvent.relayed k p).clientID p.sequence filterFormat countFormat
      parseFormat) (c.Finds rules EVMBridgeClient.hashString k p fails) c := by
  refine wpRel_try (wpRel_perform.mpr ⟨trivial, fun ans c₁ h₁ => ?_⟩)
  obtain ⟨hgrows, hview⟩ := h₁
  cases ans with
  | error err => exact of_error ⟨hgrows, by simp, fun _ _ => .inl hview⟩
  | ok logs =>
  refine of_ok ?_
  replace hview : logs.Perm _ := hview
  rw [← topicsFor, hsound.filter_logs hgrows.lawful (hgrows.known hp) hid] at hview
  by_cases hmem : .relayed k p ∈ c₁.events
  · obtain ⟨tx, htx, hevent, hfilter⟩ := exists_tx hgrows.lawful.nodup_events hmem
    rw [hfilter, List.map_singleton, List.perm_singleton] at hview
    subst hview
    dsimp only
    rw [hsound.parse k p]
    refine wpRel_try (wpRel_perform.mpr ⟨trivial, fun ans c₂ h₂ => ?_⟩)
    have hgrows₂ := hgrows.trans h₂.1
    cases ans with
    | error err => exact of_error ⟨hgrows₂, by simp, fun _ _ => .inl h₂.2⟩
    | ok time =>
    refine of_ok (wpRel_bind.mpr ((txSigner_grows hgrows₂.lawful _).post fun signer c₃ h₃ => ?_))
    refine ⟨hgrows₂.trans h₃, fun found hfound => ?_, by simp⟩
    cases hfound
    exact ⟨tx, h₃.tx_mem (h₂.1.tx_mem htx), hevent, rfl, h₂.2 tx (h₂.1.tx_mem htx) rfl⟩
  · rw [filter_eq_nil_of_notMem hmem, List.map_nil, List.perm_nil] at hview
    subst hview
    exact ⟨hgrows,
      by simp, fun _ herr => .inr ⟨(Except.error.inj herr).symm, fun hc => hmem (hgrows.mem hc)⟩⟩

theorem shouldRetryTx_retries (txHash : String) (expiry : Duration) (sentTs : Time) :
    wpRel (router.Answers client rules fails) (fun _ _ => True) (shouldRetryTx txHash expiry sentTs)
      (c.Retries rules (some (hexToHash txHash)) expiry sentTs fails) c := by
  refine wpRel_bind.mpr (wpRel_perform.mpr ⟨trivial, fun ans c₁ h₁ => ?_⟩)
  obtain ⟨hgrows, hview⟩ := h₁
  obtain ⟨time, htime, hsaid⟩ := hview.recent (by decide) (by decide)
  cases ans with
  | ok receipt =>
    obtain ⟨tx, htx, hhash, hok⟩ := hsaid
    have hexecuted : c₁.Executed (some (hexToHash txHash)) tx.ok := ⟨tx, htx, by rw [hhash], rfl⟩
    refine ⟨hgrows, fun ho => ?_, fun ho => .inl ?_, by simp⟩
    · have hstatus : receipt.status = 1 := by simpa using ho
      rwa [hok.mp hstatus] at hexecuted
    · have hstatus : receipt.status ≠ 1 := by simpa using ho
      rwa [Bool.eq_false_iff.mpr (mt hok.mpr hstatus)] at hexecuted
  | error err =>
    by_cases hfound : err.contains "not found" = true
    · replace hsaid : c₁.NotFoundAt (hexToHash txHash) time := (if_pos hfound).mp hsaid
      have hunsettled := hsaid.unsettled hgrows htime
      dsimp only
      rw [if_pos hfound]
      refine wpRel_try (wpRel_perform.mpr ⟨trivial, fun ans c₂ h₂ => ?_⟩)
      have hgrows₂ := hgrows.trans h₂.1
      cases ans with
      | error err => exact of_error ⟨hgrows₂, by simp, by simp, fun _ _ => .inr (.inl h₂.2)⟩
      | ok time =>
        refine of_ok ?_
        rw [show unixInstant time.toInt64 = c₂.time from h₂.2]
        exact retryExpired_retries hgrows₂ hunsettled
    · replace hsaid : fails := (if_neg hfound).mp hsaid
      dsimp only
      rw [if_neg hfound]
      exact ⟨hgrows, by simp, by simp, fun _ _ => .inr (.inl hsaid)⟩

end EVMSearcher

/-- On every lawful chain, while txs keep coming in: each query of the EVM client
reports what has happened, unless a call to the node fails. -/
theorem EVMSearcher.tracks {fails : Prop} (hsound : router.Sound client rules.ids) :
    client.chainClient.Tracks rules EVMBridgeClient.hashString (some ∘ hexToHash)
      (router.Answers client rules fails) fails := by
  constructor
  · intro c clientID hid sequence
    change wpRel _ _ (client.isPacketReceived clientID sequence) _ _
    unfold EVMSearcher.isPacketReceived
    exact EVMSearcher.isWritten_tells (fun es hes => hsound.storage_received hes hid) _ _
  · intro c clientID hid sequence
    change wpRel _ _ (client.isPacketCommitted clientID sequence) _ _
    unfold EVMSearcher.isPacketCommitted
    exact EVMSearcher.isWritten_tells (fun es hes => hsound.storage_committed hes hid) _ _
  · intro c p hp _ hdest timeoutTimestamp _
    exact EVMSearcher.findTx_finds (k := .recv) hsound hp hdest _ _ _
  · intro c h p hp
    exact EVMSearcher.findTx_finds (k := .ack) hsound hp (h.source_mem hp) _ _ _
  · intro c h p hp
    exact EVMSearcher.findTx_finds (k := .timeout) hsound hp (h.source_mem hp) _ _ _
  · exact fun _ => EVMSearcher.shouldRetryTx_retries

end Logs

end PlatformRelayer

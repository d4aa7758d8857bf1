import Mathlib.Data.List.Nodup
import PlatformRelayer.Bridges.ChainClient
import PlatformRelayer.Framework.Layers
import PlatformRelayer.Proof.SingleFlight

/-!
# What happens on a chain

A chain has the list of its txs, the last one first, with what each did to packets. A
chain that sends, acknowledges or times out a packet does so once (`Slot`), it
resolves only what it has sent, and it receives only packets that were sent to it, of
which a client and a sequence name one. That is all that is used of the protocol.

`ChainClient.Tracks` says what the queries of a bridge client mean: they report what
has happened on the chain, while other txs keep coming in. What is asked for by the
hash of a tx goes through `txOnce`, so it may be about the chain as it was before
(`Chain.Unsettled`).
-/

namespace PlatformRelayer

open Db Prog

/-- A packet, with its timeout in seconds. -/
structure ChainPacket extends PacketID where
  timeoutTimestamp : UInt64
deriving DecidableEq, Repr

/-- What a tx does to a packet. -/
inductive PacketEvent where
  | sent (p : ChainPacket)
  | relayed (k : TxKind) (p : ChainPacket)
deriving DecidableEq, Repr

/-- What happens at most once: a client sends with a sequence, receives what has a
sequence, and resolves what it has sent, by an ack or by a timeout. -/
inductive Slot where
  | send (clientID : String) (sequence : UInt64)
  | receipt (clientID : String) (sequence : UInt64)
  | resolution (clientID : String) (sequence : UInt64)
deriving DecidableEq, Repr

/-- The slot of a packet that is relayed by a tx of some kind. -/
def ChainPacket.slot (p : ChainPacket) : TxKind → Slot
  | .recv => .receipt p.destClientID p.sequence
  | .ack | .timeout => .resolution p.sourceClientID p.sequence

namespace PacketEvent

def slot : PacketEvent → Slot
  | .sent p => .send p.sourceClientID p.sequence
  | .relayed k p => p.slot k

def packet : PacketEvent → ChainPacket
  | .sent p => p
  | .relayed _ p => p

end PacketEvent

/-- What a chain keeps to: the clients whose ids are in its packets, and the packets
that others have sent to it. -/
structure ChainRules where
  ids : Set String
  genuine : Set ChainPacket
  genuine_eq {p q : ChainPacket} : p ∈ genuine → q ∈ genuine → p.slot .recv = q.slot .recv → p = q

/-- The event may come after the others. -/
structure PacketEvent.Allowed (rules : ChainRules) (es : List PacketEvent)
    (e : PacketEvent) : Prop where
  fresh : e.slot ∉ es.map slot
  source : e.packet.sourceClientID ∈ rules.ids
  dest : e.packet.destClientID ∈ rules.ids
  received (p : ChainPacket) : e = .relayed .recv p → p ∈ rules.genuine
  resolved (k : TxKind) (p : ChainPacket) : e = .relayed k p → k ≠ .recv → .sent p ∈ es

def Lawful (rules : ChainRules) : List PacketEvent → Prop
  | [] => True
  | e :: es => e.Allowed rules es ∧ Lawful rules es

/-- A tx that was executed, with success or not: its hash, its bytes, the number and the
time of its block, and since when the nodes report it, by the relayer's clock. -/
structure ChainTx where
  hash : List UInt8
  hash_length : hash.length = 32
  bytes : List UInt8
  height : UInt64
  time : Time
  seen : Time
  ok : Bool
  events : List PacketEvent
  failed : ok = false → events = []

/-- The txs of a chain, the time of its latest block, and the time by the relayer's
clock. No two txs have one hash. -/
structure Chain where
  txs : List ChainTx
  time : Time
  now : Time
  seen : ∀ tx ∈ txs, tx.seen ≤ now
  hashes : (txs.map (·.hash)).Nodup

def Chain.events (c : Chain) : List PacketEvent := c.txs.flatMap (·.events)

/-! ## Lawful chains -/

section Lawful

variable {rules : ChainRules} {es es' : List PacketEvent} {p q : ChainPacket} {k k' : TxKind}
  {e : PacketEvent}

theorem ChainPacket.slot_of_ne (p : ChainPacket)
    (hk : k ≠ .recv) : p.slot k = .resolution p.sourceClientID p.sequence := by
  cases k with
  | recv => exact absurd rfl hk
  | _ => rfl

namespace Lawful

theorem nodup (h : Lawful rules es) : (es.map PacketEvent.slot).Nodup := by
  induction es with
  | nil => exact List.nodup_nil
  | cons e es ih => exact List.nodup_cons.mpr ⟨h.1.fresh, ih h.2⟩

/-- Two events of one slot are the same event. -/
theorem eq_of_slot_eq (h : Lawful rules es) {e e' : PacketEvent} (he : e ∈ es) (he' : e' ∈ es)
    (hslot : e.slot = e'.slot) : e = e' :=
  List.inj_on_of_nodup_map h.nodup he he' hslot

theorem allowed_of_mem (h : Lawful rules es) (he : e ∈ es) : ∃ es', es' <:+ es ∧
    e.Allowed rules es' := by
  induction es with
  | nil => cases he
  | cons e' es ih =>
    rcases List.mem_cons.mp he with rfl | he
    · exact ⟨es, List.suffix_cons .., h.1⟩
    · obtain ⟨es', hes', hallowed⟩ := ih h.2 he
      exact ⟨es', hes'.trans (List.suffix_cons ..), hallowed⟩

theorem source_mem (h : Lawful rules es) (he : e ∈ es) : e.packet.sourceClientID ∈ rules.ids := by
  obtain ⟨es', -, hallowed⟩ := h.allowed_of_mem he
  exact hallowed.source

theorem dest_mem (h : Lawful rules es) (he : e ∈ es) : e.packet.destClientID ∈ rules.ids := by
  obtain ⟨es', -, hallowed⟩ := h.allowed_of_mem he
  exact hallowed.dest

theorem genuine_of_mem (h : Lawful rules es) (hp : .relayed .recv p ∈ es) : p ∈ rules.genuine := by
  obtain ⟨es', -, hallowed⟩ := h.allowed_of_mem hp
  exact hallowed.received p rfl

theorem sent_of_mem (h : Lawful rules es) (hp : .relayed k p ∈ es)
    (hk : k ≠ .recv) : .sent p ∈ es := by
  obtain ⟨es', hes', hallowed⟩ := h.allowed_of_mem hp
  exact hes'.subset (hallowed.resolved k p rfl hk)

/-- A packet that was sent is not both acknowledged and timed out, nor twice. -/
theorem kind_eq (h : Lawful rules es) (hp : .relayed k p ∈ es) (hq : .relayed k' p ∈ es)
    (hk : k ≠ .recv) (hk' : k' ≠ .recv) : k = k' := by
  have heq := h.eq_of_slot_eq hp hq ((p.slot_of_ne hk).trans (p.slot_of_ne hk').symm)
  cases heq
  rfl

end Lawful

/-- `p` is the packet that its slot is about: it was sent by this chain, or is one
that it may receive. -/
def ChainPacket.Known (p : ChainPacket) (rules : ChainRules) (es : List PacketEvent) : TxKind → Prop
  | .recv => p ∈ rules.genuine
  | .ack | .timeout => .sent p ∈ es

theorem ChainPacket.Known.sent (h : p.Known rules es k) (hk : k ≠ .recv) : .sent p ∈ es := by
  cases k with
  | recv => exact absurd rfl hk
  | _ => exact h

/-- The slot of a known packet has no event of another packet. -/
theorem Lawful.eq_of_known (h : Lawful rules es) (hp : p.Known rules es k) (hq : .relayed k q ∈ es)
    (hslot : q.slot k = p.slot k) : q = p := by
  by_cases hk : k = .recv
  · subst hk
    exact rules.genuine_eq (h.genuine_of_mem hq) hp hslot
  · have hsent := h.sent_of_mem hq hk
    rw [q.slot_of_ne hk, p.slot_of_ne hk, Slot.resolution.injEq] at hslot
    have heq : PacketEvent.sent q = .sent p :=
      h.eq_of_slot_eq hsent (hp.sent hk) (congrArg₂ Slot.send hslot.1 hslot.2)
    cases heq
    rfl

end Lawful

/-! ## The tx of an event -/

section Txs

variable {rules : ChainRules} {txs : List ChainTx} {e : PacketEvent}

theorem filter_eq_nil_of_notMem (he : e ∉ txs.flatMap (·.events)) :
    txs.filter (e ∈ ·.events) = [] := by
  refine List.filter_eq_nil_iff.mpr fun tx htx hmem => he ?_
  exact List.mem_flatMap.mpr ⟨tx, htx, of_decide_eq_true hmem⟩

/-- An event is in one tx. -/
theorem exists_tx (hnodup : (txs.flatMap (·.events)).Nodup) (he : e ∈ txs.flatMap (·.events)) :
    ∃ tx ∈ txs, e ∈ tx.events ∧ txs.filter (e ∈ ·.events) = [tx] := by
  induction txs with
  | nil => cases he
  | cons tx txs ih =>
    rw [List.flatMap_cons, List.nodup_append] at hnodup
    obtain ⟨-, hrest, hdisjoint⟩ := hnodup
    by_cases htx : e ∈ tx.events
    · have hnot : e ∉ txs.flatMap (·.events) := fun hc => hdisjoint e htx e hc rfl
      refine ⟨tx, List.mem_cons_self .., htx, ?_⟩
      rw [List.filter_cons_of_pos (by simpa using htx), filter_eq_nil_of_notMem hnot]
    · rw [List.flatMap_cons, List.mem_append, or_iff_right htx] at he
      obtain ⟨tx', hmem, htx', hfilter⟩ := ih hrest he
      refine ⟨tx', List.mem_cons_of_mem _ hmem, htx', ?_⟩
      rw [List.filter_cons_of_neg (by simpa using htx), hfilter]

/-- What each occurrence of an event leaves, in the order of the txs. -/
theorem flatMap_filter_eq (hnodup : ∀ tx ∈ txs, tx.events.Nodup) {β : Type}
    (f : ChainTx → PacketEvent → β) :
    (txs.flatMap fun tx => (tx.events.filter (· = e)).map (f tx)) = (txs.filter (e ∈ ·.events)).map
      (f · e) := by
  induction txs with
  | nil => rfl
  | cons tx txs ih =>
    have heq : tx.events.filter (· = e) = List.replicate (tx.events.count e) e := List.filter_eq e
    rw [List.flatMap_cons, ih fun tx htx => hnodup tx (List.mem_cons_of_mem _ htx), heq]
    by_cases htx : e ∈ tx.events
    · rw [List.count_eq_one_of_mem (hnodup tx (List.mem_cons_self ..)) htx,
        List.filter_cons_of_pos (by simpa using htx)]
      rfl
    · rw [List.count_eq_zero_of_not_mem htx, List.filter_cons_of_neg (by simpa using htx)]
      rfl

variable {c : Chain}

theorem Lawful.nodup_events (h : Lawful rules c.events) : c.events.Nodup :=
  List.Nodup.of_map _ h.nodup

theorem Lawful.nodup_of_mem (h : Lawful rules c.events) : ∀ tx ∈ c.txs, tx.events.Nodup :=
  (List.nodup_flatMap.mp h.nodup_events).1

end Txs

/-! ## A chain that grows -/

/-- Txs have come in, or none. -/
structure Chain.Grows (rules : ChainRules) (c c' : Chain) : Prop where
  suffix : c.txs <:+ c'.txs
  time : c.time ≤ c'.time
  now : c.now ≤ c'.now
  lawful : Lawful rules c'.events

namespace Chain.Grows

variable {rules : ChainRules} {c c' c'' : Chain} {e : PacketEvent} {p : ChainPacket} {k : TxKind}

theorem refl (h : Lawful rules c.events) : c.Grows rules c :=
  ⟨List.suffix_refl _, Int.le_refl _, Int.le_refl _, h⟩

theorem trans (h : c.Grows rules c') (h' : c'.Grows rules c'') : c.Grows rules c'' :=
  ⟨h.suffix.trans h'.suffix, h.time.trans h'.time, h.now.trans h'.now, h'.lawful⟩

theorem tx_mem {tx : ChainTx} (h : c.Grows rules c') (htx : tx ∈ c.txs) : tx ∈ c'.txs :=
  h.suffix.subset htx

theorem mem (h : c.Grows rules c') (he : e ∈ c.events) : e ∈ c'.events := by
  obtain ⟨tx, htx, he⟩ := List.mem_flatMap.mp he
  exact List.mem_flatMap.mpr ⟨tx, h.tx_mem htx, he⟩

theorem known (h : c.Grows rules c') (hp : p.Known rules c.events k) :
    p.Known rules c'.events k := by
  cases k with
  | recv => exact hp
  | _ => exact h.mem hp

end Chain.Grows

/-! ## What the queries report -/

/-- The tx is one of the chain that has relayed the packet. -/
def Chain.Relays (c : Chain) (hashString : List UInt8 → String) (k : TxKind) (p : ChainPacket)
    (tx : BridgeTx) : Prop :=
  ∃ t ∈ c.txs, .relayed k p ∈ t.events ∧ tx.hash = hashString t.hash ∧ tx.timestamp = t.time

theorem Chain.Relays.mem {c : Chain} {hashString : List UInt8 → String} {k : TxKind}
    {p : ChainPacket} {tx : BridgeTx}
    (h : c.Relays hashString k p tx) : .relayed k p ∈ c.events := by
  obtain ⟨t, ht, hp, -⟩ := h
  exact List.mem_flatMap.mpr ⟨t, ht, hp⟩

theorem Chain.Relays.grows {rules : ChainRules} {c c' : Chain} {hashString : List UInt8 → String}
    {k : TxKind} {p : ChainPacket}
    {tx : BridgeTx} (h : c.Relays hashString k p tx)
    (hc : c.Grows rules c') : c'.Relays hashString k p tx := by
  obtain ⟨t, ht, hrest⟩ := h
  exact ⟨t, hc.tx_mem ht, hrest⟩

/-- The packet was sent by the client, and neither acknowledged nor timed out. -/
def Committed (es : List PacketEvent) (clientID : String) (sequence : UInt64) : Prop :=
  .send clientID sequence ∈ es.map PacketEvent.slot ∧
    .resolution clientID sequence ∉ es.map PacketEvent.slot

def Received (es : List PacketEvent) (clientID : String) (sequence : UInt64) : Prop :=
  .receipt clientID sequence ∈ es.map PacketEvent.slot

instance (es : List PacketEvent) (clientID : String)
    (sequence : UInt64) : Decidable (Committed es clientID sequence) :=
  inferInstanceAs (Decidable (_ ∧ _))

instance (es : List PacketEvent) (clientID : String)
    (sequence : UInt64) : Decidable (Received es clientID sequence) :=
  inferInstanceAs (Decidable (_ ∈ _))

/-- What a query returns that asks whether `P` holds. -/
structure Chain.Tells (rules : ChainRules) (P : List PacketEvent → Prop) (fails : Prop) (c : Chain)
    (o : Except Err Bool) (c' : Chain) : Prop where
  grows : c.Grows rules c'
  tells (b : Bool) : o = .ok b → (b = true ↔ P c'.events)
  fails (err : Err) : o = .error err → fails

/-- What a search for the tx of a packet returns. An error that is no failure means
that there was no tx when the search began. -/
structure Chain.Finds (rules : ChainRules) (hashString : List UInt8 → String) (k : TxKind)
    (p : ChainPacket) (fails : Prop) (c : Chain) (o : Except Err BridgeTx) (c' : Chain) : Prop where
  grows : c.Grows rules c'
  finds (tx : BridgeTx) : o = .ok tx → c'.Relays hashString k p tx
  fails (err : Err) : o = .error err → fails ∨ err = Sentinel.errTxNotFound.err ∧
    .relayed k p ∉ c.events

/-- The tx with a hash was executed, with success or not. The hash is one that was read,
if it could be. -/
def Chain.Executed (c : Chain) (hash : Option (List UInt8)) (ok : Bool) : Prop :=
  ∃ tx ∈ c.txs, hash = some tx.hash ∧ tx.ok = ok

theorem Chain.Executed.grows {rules : ChainRules} {c c' : Chain} {hash : Option (List UInt8)}
    {ok : Bool} (h : c.Executed hash ok) (hc : c.Grows rules c') : c'.Executed hash ok := by
  obtain ⟨tx, htx, hrest⟩ := h
  exact ⟨tx, hc.tx_mem htx, hrest⟩

/-- A tx is executed once. -/
theorem Chain.Executed.eq {c : Chain} {hash : Option (List UInt8)} {ok ok' : Bool}
    (h : c.Executed hash ok) (h' : c.Executed hash ok') : ok = ok' := by
  obtain ⟨tx, htx, rfl, rfl⟩ := h
  obtain ⟨tx', htx', hhash, rfl⟩ := h'
  rw [List.inj_on_of_nodup_map c.hashes htx htx' (Option.some.inj hhash)]

/-- A tx that has relayed a packet was executed with success. -/
theorem Chain.Relays.executed {c : Chain} {hashString : List UInt8 → String}
    {readHash : String → Option (List UInt8)}
    (hread : ∀ hash : List UInt8, hash.length = 32 → readHash (hashString hash) = some hash)
    {k : TxKind} {p : ChainPacket}
    {tx : BridgeTx} (h : c.Relays hashString k p tx) : c.Executed (readHash tx.hash) true := by
  obtain ⟨t, ht, hp, hhash, -⟩ := h
  refine ⟨t, ht, hhash ▸ hread t.hash t.hash_length, ?_⟩
  by_contra hok
  rw [t.failed (Bool.eq_false_iff.mpr hok)] at hp
  cases hp

/-- The nodes have reported no tx with the hash for as long as `txOnce` may keep what it
was told. -/
def Chain.Unsettled (c : Chain) (hash : Option (List UInt8)) : Prop :=
  ∀ tx ∈ c.txs, tx.seen + txOnce.successTimeout ≤ c.now → hash ≠ some tx.hash

theorem Chain.Unsettled.of_grows {rules : ChainRules} {c c' : Chain} {hash : Option (List UInt8)}
    (h : c'.Unsettled hash) (hc : c.Grows rules c') : c.Unsettled hash :=
  fun tx htx hold => h tx (hc.tx_mem htx) (hold.trans hc.now)

/-- That a tx is not found is what a node has said at a time, of all txs that there are now. -/
def Chain.NotFoundAt (c : Chain) (hash : List UInt8) (time : Time) : Prop :=
  ∀ tx ∈ c.txs, tx.hash = hash → time < tx.seen

/-- What was said of a tx lately. -/
theorem Chain.NotFoundAt.unsettled {rules : ChainRules} {c c' : Chain} {hash : List UInt8}
    {time : Time} (h : c'.NotFoundAt hash time) (hc : c.Grows rules c')
    (htime : c.now < time + txOnce.successTimeout) : c.Unsettled (some hash) := by
  intro tx htx hold heq
  have hlt : time < tx.seen := h tx (hc.tx_mem htx) (Option.some.inj heq).symm
  exact absurd (hold.trans_lt htime) (Int.not_lt.mpr (Int.add_le_add_right (Int.le_of_lt hlt) _))

/-- What `ShouldRetryTx` returns for a tx. One that is settled is sent again only if it
was executed without success, and one of which nothing is known only after it has
expired. -/
structure Chain.Retries (rules : ChainRules) (hash : Option (List UInt8)) (expiry : Duration)
    (sentTs : Time) (fails : Prop) (c : Chain) (o : Except Err Bool) (c' : Chain) : Prop where
  grows : c.Grows rules c'
  stays : o = .ok false → c'.Executed hash true
  retried : o = .ok true → c'.Executed hash false ∨ c.Unsettled hash ∧ sentTs + expiry < c'.time
  fails (err : Err) : o = .error err → hash = none ∨ fails ∨
    err = Sentinel.errTxNotFound.err ∧ c.Unsettled hash ∧ c.time ≤ sentTs + expiry

/-- The end of `ShouldRetryTx`, with the time of the latest header. -/
theorem retryExpired_retries {rules : ChainRules} {hash : Option (List UInt8)} {expiry : Duration}
    {sentTs : Time} {fails : Prop} {c c' : Chain} (hgrows : c.Grows rules c')
    (hunsettled : c.Unsettled hash) :
    c.Retries rules hash expiry sentTs fails (retryExpired expiry sentTs c'.time) c' := by
  unfold retryExpired
  dsimp only
  split
  · rename_i hexpired
    exact ⟨hgrows, by simp, fun _ => .inr ⟨hunsettled, hexpired⟩, by simp⟩
  · rename_i hexpired
    refine ⟨hgrows,
      by simp, by simp, fun err herr => .inr (.inr ⟨(Except.error.inj herr).symm, hunsettled, ?_⟩)⟩
    exact hgrows.time.trans (Int.not_lt.mp hexpired)

/-- The queries of the client report what has happened on a chain, where a hash is
written by `hashString` and read by `readHash`. A call to the node is answered by `R`,
and may fail if `fails` says so. -/
structure ChainClient.Tracks (client : ChainClient) (rules : ChainRules)
    (hashString : List UInt8 → String) (readHash : String → Option (List UInt8))
    (R : (c : SearchCall) → c.Ans → Chain → Chain → Prop) (fails : Prop) : Prop where
  received (c : Chain) {clientID : String} (hid : clientID ∈ rules.ids) (sequence : UInt64) :
    wpRel R (fun _ _ => True) (client.isPacketReceived clientID sequence)
      (c.Tells rules (Received · clientID sequence) fails) c
  committed (c : Chain) {clientID : String} (hid : clientID ∈ rules.ids) (sequence : UInt64) :
    wpRel R (fun _ _ => True) (client.isPacketCommitted clientID sequence)
      (c.Tells rules (Committed · clientID sequence) fails) c
  recv (c : Chain) {p : ChainPacket} (hp : p ∈ rules.genuine)
    (hsource : p.sourceClientID ∈ rules.ids)
    (hdest : p.destClientID ∈ rules.ids) {timeoutTimestamp : Time}
    (ht : unixSeconds timeoutTimestamp = p.timeoutTimestamp.toNat) :
    wpRel R (fun _ _ => True)
    (client.findRecvTx p.sourceClientID p.destClientID p.sequence timeoutTimestamp)
      (c.Finds rules hashString .recv p fails) c
  ack {c : Chain} (h : Lawful rules c.events) {p : ChainPacket} (hp : .sent p ∈ c.events) :
    wpRel R (fun _ _ => True) (client.findAckTx p.sourceClientID p.destClientID p.sequence)
      (c.Finds rules hashString .ack p fails) c
  timeout {c : Chain} (h : Lawful rules c.events) {p : ChainPacket} (hp : .sent p ∈ c.events) :
    wpRel R (fun _ _ => True) (client.findTimeoutTx p.sourceClientID p.destClientID p.sequence)
      (c.Finds rules hashString .timeout p fails) c
  retry {c : Chain} (h : Lawful rules c.events) (txHash : String) (expiry : Duration)
    (sentTs : Time) : wpRel R (fun _ _ => True) (client.shouldRetryTx txHash expiry sentTs)
      (c.Retries rules (readHash txHash) expiry sentTs fails) c

end PlatformRelayer

import PlatformRelayer.Proof.Chains
import PlatformRelayer.Proof.Packets

/-!
# What the Cosmos client finds out

Whether a packet is committed or received is asked by gRPC. The tx of a packet is
searched with a text, which the node reads back as the conditions that it was made
from (`parseQuery_intercalate`), if no client id has a quote in it. An event of the
chain meets all the conditions only if it is the one that is looked for
(`CosmosIndex.Sound.isFound_eq`). So the queries report what has happened on the chain
(`CosmosSearcher.tracks`).
-/

namespace PlatformRelayer

open Db Prog

/-! ## Queries, as a node reads them -/

/-- The quote around the text of a condition. -/
def quote : Char := Char.ofNat 39

inductive Operand where
  | text (s : List Char)
  | number (n : Nat)
deriving DecidableEq, Repr

/-- A condition: that an attribute has a value. The tag is the type of the event and
the key of the attribute, with a dot between them. -/
structure Condition where
  tag : List Char
  operand : Operand
deriving DecidableEq, Repr

def readOperand (cs : List Char) : Option (Operand × List Char) :=
  if cs.head? = some quote then
    let text := cs.tail.takeWhile (· ≠ quote)
    match cs.tail.dropWhile (· ≠ quote) with
    | [] => none
    | _ :: rest => some (.text text, rest)
  else (parseDigits (cs.takeWhile Char.isDigit)).map fun n => (.number n, cs.dropWhile Char.isDigit)

def readCondition (cs : List Char) : Option (Condition × List Char) :=
  match cs.dropWhile (· ≠ '=') with
  | [] => none
  | _ :: rest => (readOperand rest).map fun o => (⟨cs.takeWhile (· ≠ '='), o.1⟩, o.2)

/-- Conditions with ` AND ` between them, of which there are at most `n`. -/
def readQuery : Nat → List Char → Option (List Condition)
  | 0, _ => none
  | n + 1, cs => match readCondition cs with
    | none => none
    | some (c, rest) =>
      if rest = [] then some [c]
      else if " AND ".toList.isPrefixOf rest then (readQuery n (rest.drop 5)).map (c :: ·)
      else none

def parseQuery (query : String) : Option (List Condition) :=
  readQuery (query.toList.length + 1) query.toList

section Query

variable {eventType key value : String} {rest : List Char}

/-- The tag of a condition. -/
def tagOf (eventType key : String) : List Char := eventType.toList ++ '.' :: key.toList

/-- A text is read as a condition, whatever comes after it, if that starts with a
blank. -/
def Reads (text : String) (c : Condition) : Prop :=
  ∀ rest : List Char, (∀ a ∈ rest.head?, a = ' ') →
    readCondition (text.toList ++ rest) = some (c, rest)

theorem takeWhile_append_of_head {α : Type} {p : α → Bool} {l r : List α} (hl : ∀ b ∈ l, p b = true)
    (hr : ∀ a ∈ r.head?, p a = false) : (l ++ r).takeWhile p = l := by
  rw [List.takeWhile_append_of_pos hl]
  cases r with
  | nil => exact List.append_nil l
  | cons a r => rw [List.takeWhile_cons_of_neg (by simp [hr a rfl]), List.append_nil]

theorem dropWhile_append_of_head {α : Type} {p : α → Bool} {l r : List α} (hl : ∀ b ∈ l, p b = true)
    (hr : ∀ a ∈ r.head?, p a = false) : (l ++ r).dropWhile p = r := by
  rw [List.dropWhile_append_of_pos hl]
  cases r with
  | nil => rfl
  | cons a r => exact List.dropWhile_cons_of_neg (by simp [hr a rfl])

theorem readCondition_append {tag operand : List Char} (htag : '=' ∉ tag) :
    readCondition (tag ++ '=' :: operand) = (readOperand operand).map fun o =>
      (⟨tag, o.1⟩, o.2) := by
  have hne : ∀ b ∈ tag, decide (b ≠ '=') = true := fun b hb => by
    simp only [decide_eq_true_eq]
    rintro rfl
    exact htag hb
  rw [readCondition, takeWhile_append_of_head hne (by simp), dropWhile_append_of_head hne (by simp)]

theorem reads_stringCondition (htag : '=' ∉ tagOf eventType key) (hvalue : quote ∉ value.toList) :
    Reads (stringCondition eventType key value) ⟨tagOf eventType key, .text value.toList⟩ := by
  intro rest _
  have htext : (stringCondition eventType key value).toList ++ rest =
      tagOf eventType key ++ '=' :: quote :: (value.toList ++ quote :: rest) := by
    simp [stringCondition, tagOf, quote]
  have hne : ∀ b ∈ value.toList, decide (b ≠ quote) = true := fun b hb => by
    simp only [decide_eq_true_eq]
    rintro rfl
    exact hvalue hb
  rw [htext, readCondition_append htag, readOperand, List.head?_cons, if_pos rfl, List.tail_cons]
  dsimp only
  rw [takeWhile_append_of_head hne (by simp), dropWhile_append_of_head hne (by simp)]
  rfl

theorem reads_numberCondition (htag : '=' ∉ tagOf eventType key) (n : Nat) :
    Reads (numberCondition eventType key n) ⟨tagOf eventType key, .number n⟩ := by
  intro rest hrest
  have hn : (toString (n : Int)).toList = Nat.toDigits 10 n := toList_toString n
  have htext : (numberCondition eventType key n).toList ++ rest =
      tagOf eventType key ++ '=' :: (Nat.toDigits 10 n ++ rest) := by
    rw [← hn]
    simp [numberCondition, tagOf]
  have hdigit : ∀ b ∈ Nat.toDigits 10 n, b.isDigit = true := fun b hb =>
    Nat.isDigit_of_mem_toDigits (by decide) (by decide) hb
  have hhead : (Nat.toDigits 10 n ++ rest).head? ≠ some quote := by
    intro hhead
    cases hdigits : Nat.toDigits 10 n with
    | nil => simp at hdigits
    | cons d ds =>
      rw [hdigits] at hhead
      have hd := hdigit d (hdigits ▸ List.mem_cons_self ..)
      rw [Option.some.inj hhead] at hd
      revert hd
      decide
  have hblank : ∀ a ∈ rest.head?, a.isDigit = false := fun a ha => by
    rw [hrest a ha]
    rfl
  rw [htext, readCondition_append htag, readOperand, if_neg hhead,
    takeWhile_append_of_head hdigit hblank,
    dropWhile_append_of_head hdigit hblank, parseDigits_toDigits]
  rfl

/-- A query is read as the conditions that it was made from. -/
theorem readQuery_intercalate {texts : List String} {conditions : List Condition}
    (h : List.Forall₂ Reads texts conditions) (hne : texts ≠ []) {n : Nat} (hn : texts.length ≤ n) :
    readQuery n (" AND ".toList.intercalate (texts.map String.toList)) = some conditions := by
  induction h generalizing n with
  | nil => exact absurd rfl hne
  | @cons text c texts conditions htext hrest ih =>
    obtain ⟨n, rfl⟩ : ∃ m, n = m + 1 := ⟨n - 1, by simp at hn; omega⟩
    cases hrest with
    | nil =>
      have hread := htext [] (by simp)
      rw [List.append_nil] at hread
      simp [readQuery, hread]
    | @cons text' c' texts conditions htext' hrest =>
      have hread := ih (by simp) (n := n) (by simpa using hn)
      rw [List.map_cons] at hread
      rw [List.map_cons, List.map_cons, List.intercalate_cons_cons, List.append_assoc, readQuery,
        htext _ (by simp)]
      dsimp only
      rw [if_neg (by simp), if_pos (List.isPrefixOf_iff_prefix.mpr (List.prefix_append ..)),
        List.drop_left' (show " AND ".toList.length = 5 from rfl), hread]
      rfl

theorem length_le_intercalate (texts : List String) :
    texts.length ≤ (" AND ".toList.intercalate (texts.map String.toList)).length + 1 := by
  induction texts with
  | nil => simp
  | cons text texts ih =>
    cases texts with
    | nil => simp
    | cons text' texts =>
      rw [List.map_cons, List.map_cons, List.intercalate_cons_cons]
      rw [List.map_cons] at ih
      simp only [List.length_append, List.length_cons] at ih ⊢
      have hsep : " AND ".toList.length = 5 := rfl
      omega

theorem parseQuery_intercalate {texts : List String} {conditions : List Condition}
    (h : List.Forall₂ Reads texts conditions) (hne : texts ≠ []) :
    parseQuery (" AND ".intercalate texts) = some conditions := by
  rw [parseQuery, String.toList_intercalate]
  exact readQuery_intercalate h hne (length_le_intercalate texts)

end Query

/-! ## Events -/

def PacketEvent.type : PacketEvent → String
  | .sent _ => eventTypeSendPacket
  | .relayed .recv _ => eventTypeRecvPacket
  | .relayed .ack _ => eventTypeAckPacket
  | .relayed .timeout _ => eventTypeTimeoutPacket

def ChainPacket.attributes (p : ChainPacket) : List (String × String) :=
  [(attributeKeyPacketSourceClient, p.sourceClientID),
    (attributeKeyPacketDestClient, p.destClientID),
   (attributeKeyPacketSequence, toString p.sequence.toNat),
   (attributeKeyPacketTimeoutTimestamp, toString p.timeoutTimestamp.toNat)]

def Operand.matches (value : String) : Operand → Bool
  | .text s => value.toList = s
  | .number n => parseDigits value.toList = some n

/-- An event meets a condition. -/
def Condition.holds (event : AbciEvent) (c : Condition) : Bool :=
  event.attributes.any fun attr => tagOf event.type attr.1 = c.tag && c.operand.matches attr.2

/-- What a chain has in its index beside the attributes of packets: other attributes of
their events, and other events, those of packets of an earlier version among them. -/
structure CosmosIndex where
  otherAttributes : PacketEvent → List (String × String)
  otherEvents : ChainTx → List AbciEvent

namespace CosmosIndex

variable (index : CosmosIndex)

def abciEvent (e : PacketEvent) : AbciEvent :=
  ⟨e.type, e.packet.attributes ++ index.otherAttributes e⟩

def eventsOf (tx : ChainTx) : List AbciEvent :=
  tx.events.map index.abciEvent ++ index.otherEvents tx

/-- A tx is found if one of its events meets all the conditions. -/
def isFound (conditions : List Condition) (tx : ChainTx) : Bool :=
  (index.eventsOf tx).any fun event => conditions.all (·.holds event)

def foundTx (tx : ChainTx) : FoundTx := ⟨tx.hash, tx.height.toInt64, tx.bytes⟩

/-- What a node says at a time of the result of a tx. -/
def Result (fails : Prop) (hash : List UInt8) (c : Chain) (time : Time) : Except Err TxResult → Prop
  | .ok result => ∃ tx ∈ c.txs, tx.hash = hash ∧ (result.code = 0 ↔ tx.ok = true)
  | .error err => if err.contains "not found" then c.NotFoundAt hash time else fails

/-- What is answered of a chain to a call at the time `asked`: by the node, and for the
result of a tx by `txOnce`. A call that fails has another code than that of a packet that
is not there. The calls of EVM clients are not made. -/
def View (fails : Prop) (asked : Time) : (c : SearchCall) → c.Ans → Chain → Prop
  | .packetReceipt clientID sequence, .ok received, c => received = true ↔
  Received c.events clientID sequence
  | .packetReceipt .., .error _, _ => fails
  | .packetCommitment clientID sequence, .ok _, c => Committed c.events clientID sequence
  | .packetCommitment clientID sequence, .error rpcErr, c =>
    if rpcErr.code = some notFoundCode then ¬Committed c.events clientID sequence else fails
  | .txSearch query, .ok result, c => ∃ conditions found, parseQuery query = some conditions ∧
    found.Perm ((c.txs.filter (index.isFound conditions)).map foundTx) ∧
    result.totalCount = found.length ∧ result.txs <+: found
  | .txSearch _, .error _, _ => fails
  | .header (some height), .ok (some time), c => ∀ tx ∈ c.txs, height = tx.height.toInt64 →
  time = tx.time
  | .header none, .ok (some time), c => time = c.time
  | .header _, _, _ => fails
  | .tx key hash, a, c => txOnce.Returns (Result fails hash c) key asked a
  | _, _, _ => True

/-- A call is answered, while txs keep coming in. -/
def Answers (rules : ChainRules) (fails : Prop) (c : SearchCall) (a : c.Ans)
    (s s' : Chain) : Prop :=
  s.Grows rules s' ∧ index.View fails s.now c a s'

/-- No client id has a quote, the other attributes of a packet's event are others, and
an event of a type that is searched for, but not of a packet, has no source client. -/
structure Sound (ids : Set String) : Prop where
  quote {clientID : String} : clientID ∈ ids → quote ∉ clientID.toList
  attributes (e : PacketEvent) : ∀ attr ∈ index.otherAttributes e,
    attr.1 ∉ e.packet.attributes.map (·.1)
  event (tx : ChainTx) : ∀ event ∈ index.otherEvents tx, ∀ k p,
    event.type = (PacketEvent.relayed k p).type →
    ∀ attr ∈ event.attributes, attr.1 ≠ attributeKeyPacketSourceClient

end CosmosIndex

section Events

variable {rules : ChainRules} {index : CosmosIndex} {client : CosmosSearcher} {c : Chain}
  {p : ChainPacket} {k : TxKind}

/-- The dot in a tag is where the key begins, if neither part has another. -/
theorem tagOf_inj {eventType eventType' key key' : String} (htype : '.' ∉ eventType'.toList)
    (hkey : '.' ∉ key'.toList)
    (h : tagOf eventType key = tagOf eventType' key') : eventType = eventType' ∧ key = key' := by
  obtain ⟨ht, -, hk⟩ := (List.append_cons_inj_of_notMem htype hkey).mp h.symm
  exact ⟨(String.toList_inj.mp ht).symm, (String.toList_inj.mp hk).symm⟩

theorem PacketEvent.dot_notMem_type (e : PacketEvent) : '.' ∉ e.type.toList := by
  have hsend : '.' ∉ eventTypeSendPacket.toList := by decide
  have hrecv : '.' ∉ eventTypeRecvPacket.toList := by decide
  have hack : '.' ∉ eventTypeAckPacket.toList := by decide
  have htimeout : '.' ∉ eventTypeTimeoutPacket.toList := by decide
  cases e with
  | sent p => exact hsend
  | relayed k p =>
    cases k with
    | recv => exact hrecv
    | ack => exact hack
    | timeout => exact htimeout

/-- An event meets a condition on an attribute of packets if it has the type and the
attribute has the value. -/
theorem holds_iff {event : AbciEvent} {e : PacketEvent} {key : String} (hkey : '.' ∉ key.toList)
    {operand : Operand} : Condition.holds event ⟨tagOf e.type key, operand⟩ = true ↔
      event.type = e.type ∧ ∃ value, (key, value) ∈ event.attributes ∧
      operand.matches value = true := by
  simp only [Condition.holds, List.any_eq_true, Bool.and_eq_true, decide_eq_true_eq]
  constructor
  · rintro ⟨attr, hattr, htag, hvalue⟩
    obtain ⟨htype, rfl⟩ := tagOf_inj e.dot_notMem_type hkey htag
    exact ⟨htype, attr.2, hattr, hvalue⟩
  · rintro ⟨htype, value, hattr, hvalue⟩
    exact ⟨(key, value), hattr, by rw [htype], hvalue⟩

/-- The type of an event says what is done to the packet. -/
theorem PacketEvent.eq_of_type {e : PacketEvent} (h : e.type = (PacketEvent.relayed k p).type) :
    e = .relayed k e.packet := by
  cases e with
  | sent q => cases k <;>
    exact absurd h (by simp [type, eventTypeSendPacket, eventTypeRecvPacket,
      eventTypeAckPacket, eventTypeTimeoutPacket])
  | relayed k' q =>
    cases k <;> cases k' <;> first
      | rfl
      | exact absurd h (by simp [type, eventTypeRecvPacket, eventTypeAckPacket,
        eventTypeTimeoutPacket])

/-- Each attribute of packets is there once. -/
theorem CosmosIndex.Sound.mem_attributes (hsound : index.Sound rules.ids) (e : PacketEvent)
    {key value value' : String}
    (hkey : (key, value') ∈ e.packet.attributes) : (key, value) ∈ (index.abciEvent e).attributes ↔
      value = value' := by
  have hnodup : (e.packet.attributes.map (·.1)).Nodup := by
    change [attributeKeyPacketSourceClient, attributeKeyPacketDestClient,
      attributeKeyPacketSequence, attributeKeyPacketTimeoutTimestamp].Nodup
    decide
  constructor
  · intro hmem
    rcases List.mem_append.mp hmem with hmem | hmem
    · exact congrArg Prod.snd (List.inj_on_of_nodup_map hnodup hmem hkey rfl)
    · exact absurd (List.mem_map.mpr ⟨(key, value'), hkey, rfl⟩)
        (hsound.attributes e (key, value) hmem)
  · rintro rfl
    exact List.mem_append_left _ hkey

/-- The conditions of a search. Only that for a packet that was received has one on the
timeout. -/
def conditionsFor (k : TxKind) (p : ChainPacket) : List Condition :=
  let type := (PacketEvent.relayed k p).type
  [⟨tagOf type attributeKeyPacketSourceClient, .text p.sourceClientID.toList⟩,
   ⟨tagOf type attributeKeyPacketDestClient, .text p.destClientID.toList⟩,
   ⟨tagOf type attributeKeyPacketSequence, .number p.sequence.toNat⟩] ++
  if k = .recv then
    [⟨tagOf type attributeKeyPacketTimeoutTimestamp, .number p.timeoutTimestamp.toNat⟩] else []

theorem matches_number_toString (n m : Nat) : (Operand.number n).matches (toString m) = true ↔
    m = n := by
  rw [Operand.matches, toList_toString, parseDigits_toDigits, decide_eq_true_iff, Option.some.injEq]

/-- The event of a packet meets the conditions of a search for another packet only if
the two have one slot. -/
theorem CosmosIndex.Sound.slot_eq_of_holds (hsound : index.Sound rules.ids) {e : PacketEvent}
    (h : ((conditionsFor k p).all (·.holds (index.abciEvent e))) = true) :
    e = .relayed k e.packet ∧ e.packet.slot k = p.slot k := by
  rw [conditionsFor, List.all_append, Bool.and_eq_true] at h
  have hall := List.all_eq_true.mp h.1
  obtain ⟨htype, source, hsource, hs⟩ := (holds_iff (by decide)).mp (hall _ (List.mem_cons_self ..))
  obtain ⟨-, dest, hdest, hd⟩ :=
    (holds_iff (by decide)).mp (hall _ (List.mem_cons_of_mem _ (List.mem_cons_self ..)))
  obtain ⟨-, sequence, hsequence, hn⟩ :=
    (holds_iff (by decide)).mp
      (hall _ (List.mem_cons_of_mem _ (List.mem_cons_of_mem _ (List.mem_cons_self ..))))
  rw [hsound.mem_attributes e (List.mem_cons_self ..)] at hsource
  rw [hsound.mem_attributes e (List.mem_cons_of_mem _ (List.mem_cons_self ..))] at hdest
  rw [hsound.mem_attributes e
    (List.mem_cons_of_mem _ (List.mem_cons_of_mem _ (List.mem_cons_self ..)))] at hsequence
  subst hsource hdest hsequence
  rw [matches_number_toString, UInt64.toNat_inj] at hn
  have hs := String.toList_inj.mp (of_decide_eq_true hs)
  have hd := String.toList_inj.mp (of_decide_eq_true hd)
  refine ⟨PacketEvent.eq_of_type htype, ?_⟩
  cases k with
  | recv => exact congrArg₂ Slot.receipt hd hn
  | ack => exact congrArg₂ Slot.resolution hs hn
  | timeout => exact congrArg₂ Slot.resolution hs hn

theorem holds_self (index : CosmosIndex) (k : TxKind) (p : ChainPacket) :
    ((conditionsFor k p).all (·.holds (index.abciEvent (.relayed k p)))) = true := by
  have hholds {key value : String} {operand : Operand} (hkey : '.' ∉ key.toList)
      (hmem : (key, value) ∈ p.attributes) (hvalue : operand.matches value = true) :
      Condition.holds (index.abciEvent (.relayed k p))
      ⟨tagOf (PacketEvent.relayed k p).type key, operand⟩ = true :=
    (holds_iff hkey).mpr ⟨rfl, value, List.mem_append_left _ hmem, hvalue⟩
  have htext (s : String) : (Operand.text s.toList).matches s = true := decide_eq_true rfl
  have hsource := hholds (by decide) (List.mem_cons_self ..) (htext p.sourceClientID)
  have hdest := hholds (by decide) (List.mem_cons_of_mem _ (List.mem_cons_self ..))
    (htext p.destClientID)
  have hsequence := hholds (by decide)
    (List.mem_cons_of_mem _ (List.mem_cons_of_mem _ (List.mem_cons_self ..)))
    ((matches_number_toString p.sequence.toNat _).mpr rfl)
  have htimeout := hholds (by decide)
    (List.mem_cons_of_mem _
      (List.mem_cons_of_mem _ (List.mem_cons_of_mem _ (List.mem_cons_self ..))))
    ((matches_number_toString p.timeoutTimestamp.toNat _).mpr rfl)
  simp only [conditionsFor, List.all_append, List.all_cons, List.all_nil, hsource, hdest, hsequence,
    Bool.and_self, Bool.true_and]
  split
  · simpa using htimeout
  · rfl

/-- A search finds the txs with the event that is looked for. -/
theorem CosmosIndex.Sound.isFound_eq (hsound : index.Sound rules.ids) (h : Lawful rules c.events)
    (hp : p.Known rules c.events k) {tx : ChainTx} (htx : tx ∈ c.txs) :
    index.isFound (conditionsFor k p) tx = decide (.relayed k p ∈ tx.events) := by
  rw [Bool.eq_iff_iff, decide_eq_true_iff, isFound, List.any_eq_true]
  constructor
  · rintro ⟨event, hevent, hholds⟩
    rcases List.mem_append.mp hevent with hevent | hevent
    · obtain ⟨e, he, rfl⟩ := List.mem_map.mp hevent
      obtain ⟨heq, hslot⟩ := hsound.slot_eq_of_holds hholds
      have hmem : .relayed k e.packet ∈ c.events := List.mem_flatMap.mpr ⟨tx, htx, heq ▸ he⟩
      rw [h.eq_of_known hp hmem hslot] at heq
      exact heq ▸ he
    · -- no other event of the type has a source client
      have hfirst := List.all_eq_true.mp hholds
        ⟨tagOf (PacketEvent.relayed k p).type attributeKeyPacketSourceClient,
        .text p.sourceClientID.toList⟩ (List.mem_append_left _ (List.mem_cons_self ..))
      obtain ⟨htype, value, hattr, -⟩ := (holds_iff (by decide)).mp hfirst
      exact absurd rfl (hsound.event tx event hevent k p htype _ hattr)
  · intro hmem
    exact ⟨_, List.mem_append_left _ (List.mem_map_of_mem hmem), holds_self index k p⟩

/-- The texts of a search are read as its conditions. -/
theorem reads_packetConditions (hsound : index.Sound rules.ids)
    (hsource : p.sourceClientID ∈ rules.ids)
    (hdest : p.destClientID ∈ rules.ids) {eventType : String} (htype : '=' ∉ eventType.toList) :
    List.Forall₂ Reads (CosmosSearcher.packetConditions eventType p.sourceClientID p.destClientID
      p.sequence) [⟨tagOf eventType attributeKeyPacketSourceClient, .text p.sourceClientID.toList⟩,
       ⟨tagOf eventType attributeKeyPacketDestClient, .text p.destClientID.toList⟩,
       ⟨tagOf eventType attributeKeyPacketSequence, .number p.sequence.toNat⟩] := by
  have htag {key : String} (hkey : '=' ∉ key.toList) : '=' ∉ tagOf eventType key := by
    simp [tagOf, htype, hkey]
  exact .cons (reads_stringCondition (htag (by decide)) (hsound.quote hsource))
    (.cons (reads_stringCondition (htag (by decide)) (hsound.quote hdest))
      (.cons (reads_numberCondition (htag (by decide)) _) .nil))

namespace CosmosSearcher

variable {fails : Prop}

/-- A search finds the tx of a packet, if there is one. -/
theorem findTx_finds (hsound : index.Sound rules.ids) (hp : p.Known rules c.events k)
    {texts : List String} (htexts : List.Forall₂ Reads texts (conditionsFor k p))
    (searchErr : Err → Err) (headerFormat nilFormat : String) :
    wpRel (index.Answers rules fails) (fun _ _ => True)
      (client.findTx texts searchErr headerFormat nilFormat)
      (c.Finds rules CosmosBridgeClient.hashString k p fails) c := by
  have hne : texts ≠ [] := by
    rintro rfl
    cases htexts
  refine wpRel_try (wpRel_perform.mpr ⟨trivial, fun ans c₁ h₁ => ?_⟩)
  obtain ⟨hgrows, hview⟩ := h₁
  cases ans with
  | error err => exact of_error ⟨hgrows, by simp, fun _ _ => .inl hview⟩
  | ok result =>
  refine of_ok ?_
  obtain ⟨conditions, found, hparse, hperm, hcount, hpage⟩ := hview
  rw [parseQuery_intercalate htexts hne] at hparse
  obtain rfl := Option.some.inj hparse
  rw [List.filter_congr fun tx htx => hsound.isFound_eq hgrows.lawful (hgrows.known hp) htx]
    at hperm
  by_cases hmem : .relayed k p ∈ c₁.events
  · obtain ⟨tx, htx, hevent, hfilter⟩ := exists_tx hgrows.lawful.nodup_events hmem
    rw [hfilter, List.map_singleton, List.perm_singleton] at hperm
    subst hperm
    replace hcount : result.totalCount = 1 := hcount
    have htxs : result.txs = [CosmosIndex.foundTx tx] := by
      have hne : result.txs ≠ [] := result.nonempty (by omega)
      exact hpage.eq_of_length_le (List.length_pos_iff.mpr hne)
    rw [if_neg (by omega), if_neg (by omega), htxs]
    refine wpRel_try (wpRel_perform.mpr ⟨trivial, fun ans c₂ h₂ => ?_⟩)
    have hgrows₂ := hgrows.trans h₂.1
    cases ans with
    | error err => exact of_error ⟨hgrows₂, by simp, fun _ _ => .inl h₂.2⟩
    | ok header =>
    refine of_ok ?_
    cases header with
    | none => exact ⟨hgrows₂, by simp, fun _ _ => .inl h₂.2⟩
    | some time =>
      refine ⟨hgrows₂, fun found hfound => ?_, by simp⟩
      cases hfound
      exact ⟨tx, h₂.1.tx_mem htx, hevent, rfl, h₂.2 tx (h₂.1.tx_mem htx) rfl⟩
  · rw [filter_eq_nil_of_notMem hmem, List.map_nil, List.perm_nil] at hperm
    subst hperm
    rw [if_pos (show result.totalCount = 0 from hcount)]
    exact ⟨hgrows,
      by simp, fun _ herr => .inr ⟨(Except.error.inj herr).symm, fun hc => hmem (hgrows.mem hc)⟩⟩

theorem shouldRetryTx_retries (h : Lawful rules c.events) (txHash : String) (expiry : Duration)
    (sentTs : Time) :
    wpRel (index.Answers rules fails) (fun _ _ => True) (shouldRetryTx txHash expiry sentTs)
      (c.Retries rules (hexDecodeString txHash).toOption expiry sentTs fails) c := by
  unfold shouldRetryTx
  cases hhash : hexDecodeString txHash with
  | error err => exact ⟨.refl h, by simp, by simp, fun _ _ => .inl rfl⟩
  | ok hash =>
  refine wpRel_bind.mpr (wpRel_perform.mpr ⟨trivial, fun ans c₁ h₁ => ?_⟩)
  obtain ⟨hgrows, hview⟩ := h₁
  obtain ⟨time, htime, hsaid⟩ := hview.recent (by decide) (by decide)
  cases ans with
  | ok result =>
    obtain ⟨tx, htx, heq, hok⟩ := hsaid
    have hexecuted : c₁.Executed (some hash) tx.ok := ⟨tx, htx, by rw [heq], rfl⟩
    refine ⟨hgrows, fun ho => ?_, fun ho => .inl ?_, by simp⟩
    · have hcode : result.code = 0 := by simpa using ho
      rwa [hok.mp hcode] at hexecuted
    · have hcode : result.code ≠ 0 := by simpa using ho
      rwa [Bool.eq_false_iff.mpr (mt hok.mpr hcode)] at hexecuted
  | error err =>
    by_cases hfound : err.contains "not found" = true
    · replace hsaid : c₁.NotFoundAt hash time := (if_pos hfound).mp hsaid
      have hunsettled := hsaid.unsettled hgrows htime
      dsimp only
      rw [if_pos hfound]
      refine wpRel_try (wpRel_perform.mpr ⟨trivial, fun ans c₂ h₂ => ?_⟩)
      have hgrows₂ := hgrows.trans h₂.1
      cases ans with
      | error err => exact of_error ⟨hgrows₂, by simp, by simp, fun _ _ => .inr (.inl h₂.2)⟩
      | ok header =>
      refine of_ok ?_
      cases header with
      | none => exact ⟨hgrows₂, by simp, by simp, fun _ _ => .inr (.inl h₂.2)⟩
      | some time =>
        rw [show time = c₂.time from h₂.2]
        exact retryExpired_retries hgrows₂ hunsettled
    · replace hsaid : fails := (if_neg hfound).mp hsaid
      dsimp only
      rw [if_neg hfound]
      exact ⟨hgrows, by simp, by simp, fun _ _ => .inr (.inl hsaid)⟩

end CosmosSearcher

/-- On every lawful chain, while txs keep coming in: each query of the Cosmos client
reports what has happened, unless a call to the node fails. -/
theorem CosmosSearcher.tracks {fails : Prop} (hsound : index.Sound rules.ids) :
    client.chainClient.Tracks rules CosmosBridgeClient.hashString (hexDecodeString · |>.toOption)
      (index.Answers rules fails) fails := by
  constructor
  · intro c clientID _ sequence
    refine wpRel_try (wpRel_perform.mpr ⟨trivial, fun ans c' h => ?_⟩)
    obtain ⟨hgrows, hview⟩ := h
    cases ans with
    | error err => exact of_error ⟨hgrows, by simp, fun _ _ => hview⟩
    | ok received =>
      refine of_ok ⟨hgrows, fun b hb => ?_, by simp⟩
      cases hb
      exact hview
  · intro c clientID _ sequence
    refine wpRel_bind.mpr (wpRel_perform.mpr ⟨trivial, fun ans c' h => ?_⟩)
    obtain ⟨hgrows, hview⟩ := h
    cases ans with
    | ok _ =>
      refine ⟨hgrows, fun b hb => ?_, by simp⟩
      cases hb
      exact iff_of_true rfl hview
    | error rpcErr =>
      by_cases hcode : rpcErr.code = some notFoundCode
      · replace hview : ¬_ := (if_pos hcode).mp hview
        dsimp only
        rw [if_pos hcode]
        refine ⟨hgrows, fun b hb => ?_, by simp⟩
        cases hb
        exact iff_of_false (by simp) hview
      · replace hview : fails := (if_neg hcode).mp hview
        dsimp only
        rw [if_neg hcode]
        exact ⟨hgrows, by simp, fun _ _ => hview⟩
  · intro c p hp hsource hdest timeoutTimestamp ht
    refine CosmosSearcher.findTx_finds (k := .recv) hsound hp ?_ _ _ _
    rw [ht]
    exact List.rel_append (reads_packetConditions hsound hsource hdest (by decide))
      (.cons (reads_numberCondition (by decide) _) .nil)
  · intro c h p hp
    exact CosmosSearcher.findTx_finds (k := .ack) hsound hp
      (reads_packetConditions hsound (h.source_mem hp) (h.dest_mem hp)
        (show '=' ∉ eventTypeAckPacket.toList by decide)) _ _ _
  · intro c h p hp
    exact CosmosSearcher.findTx_finds (k := .timeout) hsound hp
      (reads_packetConditions hsound (h.source_mem hp) (h.dest_mem hp)
        (show '=' ∉ eventTypeTimeoutPacket.toList by decide)) _ _ _
  · exact fun h => CosmosSearcher.shouldRetryTx_retries h

end Events

end PlatformRelayer

import PlatformRelayer.Proof.Frames
import PlatformRelayer.Proof.Gas

/-!
# Counts of completed relays

A packet is counted as relayed in two stages, each time right before the update
that keeps the stage from counting it again. So in every history the counts are
those of the updates (`Balanced`): a recv is counted with each update of the write
ack, and with each update to `COMPLETE_WITH_TIMEOUT`, a timeout never. If no update
fails, the write ack is written once (`Tallied.stored`) and the packet acknowledged
once (`Counted.acked`).
-/

namespace PlatformRelayer

open Db Prog

/-! ## What is counted -/

def Call.completes (k : RelayType) : Call → Bool
  | .addRelayCompleted _ _ _ _ relayType => relayType == k
  | _ => false

/-- An update of the write ack. -/
def Call.writesAck : Call → Bool
  | .exec ⟨.writeAckTx .., _⟩ => true
  | _ => false

/-- An update of the state to one that a packet ends in. -/
def Call.finishesWith (σ : Ibcv2RelayStatus) : Call → Bool
  | .exec ⟨.status σ', _⟩ => σ' == σ
  | _ => false

/-- The answer is that there is a write ack. -/
def Event.findsAck : Event → Bool
  | ⟨.packetWriteAckStatus .., ans⟩ => (writeAckOf ans).isSome
  | _ => false

/-- An update of the write ack or to `COMPLETE_WITH_ACK` has succeeded. -/
def Event.Stored : Event → Prop
  | ⟨.exec ⟨.writeAckTx .., _⟩, ans⟩ => ans = .ok ()
  | ⟨.exec ⟨.status .completeWithAck, _⟩, ans⟩ => ans = .ok ()
  | _ => True

/-- How many calls were of a kind. -/
def calls (p : Call → Bool) (tr : List Event) : Nat := tr.countP fun e => p e.call

/-- How often the packet was counted as relayed. -/
def completions (k : RelayType) (tr : List Event) : Nat := calls (Call.completes k) tr

/-- No update of the write ack or to `COMPLETE_WITH_ACK` has failed. -/
def AllStored (tr : List Event) : Prop := ∀ e ∈ tr, e.Stored

/-- The counts, by the updates they go with. -/
structure Balanced (tr : List Event) : Prop where
  timeout : completions .ibcv2SendToTimeout tr = 0
  recv : completions .ibcv2SendToRecv tr = calls Call.writesAck tr + calls
    (Call.finishesWith .completeWithTimeout) tr
  ack : completions .ibcv2RecvToAck tr = calls (Call.finishesWith .completeWithAck) tr
  found : tr.countP Event.findsAck = calls Call.writesAck tr

/-- A call with its answer that no count goes with. -/
def Event.still : Event → Bool
  | ⟨.packetWriteAckStatus .., ans⟩ => (writeAckOf ans).isNone
  | e => e.call.uncounted

section Still

variable {e : Event} {new tr : List Event}

theorem Event.still_of_uncounted (he : e.call.uncounted = true) : e.still = true := by
  obtain ⟨c, ans⟩ := e
  cases c with
  | packetWriteAckStatus => cases he
  | _ => exact he

theorem Event.still.completes (he : e.still = true)
    (k : RelayType) : e.call.completes k = false := by
  obtain ⟨c, ans⟩ := e
  cases c with
  | addRelayCompleted => cases he
  | _ => rfl

theorem Event.still.writesAck (he : e.still = true) : e.call.writesAck = false := by
  obtain ⟨c, ans⟩ := e
  cases c with
  | exec q =>
    obtain ⟨set, key⟩ := q
    cases set with
    | writeAckTx => cases he
    | _ => rfl
  | _ => rfl

theorem Event.still.finishesWith (he : e.still = true) {σ : Ibcv2RelayStatus}
    (hσ : σ.isFinished = true) : e.call.finishesWith σ = false := by
  obtain ⟨c, ans⟩ := e
  cases c with
  | exec q =>
    obtain ⟨set, key⟩ := q
    cases set with
    | status σ' =>
      refine beq_eq_false_iff_ne.mpr ?_
      rintro rfl
      simp [Event.still, Call.uncounted, hσ] at he
    | _ => rfl
  | _ => rfl

theorem Event.still.findsAck (he : e.still = true) : e.findsAck = false := by
  obtain ⟨c, ans⟩ := e
  cases c with
  | packetWriteAckStatus => simpa [Event.still, Event.findsAck] using he
  | _ => rfl

theorem countP_still {p : Event → Bool} (hp : ∀ e, e.still = true → p e = false)
    (hnew : ∀ e ∈ new, e.still = true) : (new ++ tr).countP p = tr.countP p := by
  have hzero : new.countP p = 0 := List.countP_eq_zero.mpr fun e he => by simp [hp e (hnew e he)]
  rw [List.countP_append, hzero, Nat.zero_add]

variable (hnew : ∀ e ∈ new, e.still = true)
include hnew

theorem completions_still (k : RelayType) : completions k (new ++ tr) = completions k tr :=
  countP_still (fun _ he => Event.still.completes he k) hnew

theorem writesAck_still : calls Call.writesAck (new ++ tr) = calls Call.writesAck tr :=
  countP_still (fun _ he => Event.still.writesAck he) hnew

theorem finishesWith_still {σ : Ibcv2RelayStatus} (hσ : σ.isFinished = true) :
    calls (Call.finishesWith σ) (new ++ tr) = calls (Call.finishesWith σ) tr :=
  countP_still (fun _ he => Event.still.finishesWith he hσ) hnew

theorem Balanced.still (h : Balanced tr) : Balanced (new ++ tr) where
  timeout := by rw [completions_still hnew, h.timeout]
  recv := by rw [completions_still hnew, writesAck_still hnew, finishesWith_still hnew rfl, h.recv]
  ack := by rw [completions_still hnew, finishesWith_still hnew rfl, h.ack]
  found := by rw [countP_still (fun _ he => Event.still.findsAck he) hnew, writesAck_still hnew,
    h.found]

end Still

theorem calls_append (p : Call → Bool)
    (new tr : List Event) : calls p (new ++ tr) = calls p new + calls p tr :=
  List.countP_append

theorem Balanced.append {new tr : List Event} (hnew : Balanced new)
    (h : Balanced tr) : Balanced (new ++ tr) where
  timeout := by rw [completions, calls_append, ← completions, ← completions, hnew.timeout,
    h.timeout]
  recv := by
    have h₁ := hnew.recv
    have h₂ := h.recv
    rw [completions] at h₁ h₂ ⊢
    simp only [calls_append]
    omega
  ack := by
    have h₁ := hnew.ack
    have h₂ := h.ack
    rw [completions] at h₁ h₂ ⊢
    simp only [calls_append]
    omega
  found := by rw [List.countP_append, calls_append, hnew.found, h.found]

theorem AllStored.of_append {new tr : List Event} (h : AllStored (new ++ tr)) : AllStored tr :=
  fun e he => h e (List.mem_append_right _ he)

/-! ## At the stages -/

/-- A row and the calls of its runs so far. -/
structure Tallied (s : Focus) : Prop where
  balanced : Balanced s.trace
  said : calls Call.writesAck s.trace ≠ 0 → ∃ hash status,
    s.row.packet.SaidWriteAck s.trace hash status
  stored : AllStored s.trace → calls Call.writesAck s.trace ≤ 1 ∧
    (calls Call.writesAck s.trace ≠ 0 → s.row.writeAckTxHash ≠ none)

/-- The same in a run, before the `StateFinisher`. -/
structure Working (t : IBCV2Transfer) (s : Focus) : Prop extends Tallied s where
  packet : s.row.packet = t.packet
  unfinished : s.row.status.isFinished = false
  unacked : AllStored s.trace → calls (Call.finishesWith .completeWithAck) s.trace = 0
  memory : AllStored s.trace → calls Call.writesAck s.trace ≠ 0 → t.writeAckTxHash ≠ none

/-- The same between runs. -/
structure Counted (s : Focus) : Prop extends Tallied s where
  timedOut : s.row.status = .completeWithTimeout →
    calls (Call.finishesWith .completeWithTimeout) s.trace ≠ 0
  acked : AllStored s.trace → calls (Call.finishesWith .completeWithAck) s.trace ≤ 1 ∧
    (calls (Call.finishesWith .completeWithAck) s.trace ≠ 0 → s.row.status.isFinished = true)

variable {pl : Pipeline} {st : Stage} {adm : (c : Call) → c.Ans → Focus → Prop} {K : TransferKey}
  {t t' : IBCV2Transfer} {s s' : Focus} {tr new : List Event} {x y : IBCV2Transfer × Ibcv2Transfer}

/-- A run starts from a row that is not finished. -/
theorem Counted.load (h : Counted s) (hs : s.row.status.isFinished = false) :
    Working (newIBCV2Transfer s.row) s where
  toTallied := h.toTallied
  packet := rfl
  unfinished := hs
  unacked hall := by
    by_contra hne
    exact absurd ((h.acked hall).2 hne) (by simp [hs])
  memory hall hne := (h.stored hall).2 hne

/-- A run may also end before the `StateFinisher`. -/
theorem Working.counted (h : Working t s) : Counted s where
  toTallied := h.toTallied
  timedOut hs := by
    have hun := h.unfinished
    rw [hs] at hun
    cases hun
  acked hall := by
    rw [h.unacked hall]
    exact ⟨Nat.zero_le _, fun hne => absurd rfl hne⟩

/-- A part of a run that counts nothing. -/
theorem Working.still (h : Working t s) (hnew : ∀ e ∈ new, e.still = true)
    (htr : s'.trace = new ++ s.trace)
    (hp : s'.row.packet = t'.packet) (hpacket : s'.row.packet = s.row.packet)
    (hun : s'.row.status.isFinished = false)
    (hrow : s.row.writeAckTxHash ≠ none → s'.row.writeAckTxHash ≠ none)
    (hmem : t.writeAckTxHash ≠ none → t'.writeAckTxHash ≠ none) : Working t' s' where
  balanced := htr ▸ h.balanced.still hnew
  said hne := by
    rw [htr, writesAck_still hnew] at hne
    obtain ⟨hash, status, hsaid⟩ := h.said hne
    rw [hpacket, htr]
    exact ⟨hash, status, hsaid.mono (List.subset_append_right _ _)⟩
  stored hall := by
    rw [htr] at hall ⊢
    rw [writesAck_still hnew]
    obtain ⟨hle, hne⟩ := h.stored hall.of_append
    exact ⟨hle, fun hn => hrow (hne hn)⟩
  packet := hp
  unfinished := hun
  unacked hall := by
    rw [htr] at hall ⊢
    rw [finishesWith_still hnew rfl]
    exact h.unacked hall.of_append
  memory hall hne := by
    rw [htr] at hall hne
    rw [writesAck_still hnew] at hne
    exact hmem (h.memory hall.of_append hne)

/-- A write ack is not taken out of a row. -/
theorem Life.row_writeAck (hl : Life pl tr st x y)
    (hx : x.2.writeAckTxHash ≠ none) : y.2.writeAckTxHash ≠ none := by
  cases hl with
  | found k => cases k <;> exact hx
  | delivered k => cases k <;> exact hx
  | cleared k => cases k <;> exact hx
  | wroteAck => exact Option.some_ne_none _
  | priced k => cases k <;> exact hx
  | _ => exact hx

theorem Working.reaches (h : Working t s) (hst : st ≠ .stateFinisher) (hr : Reaches pl st t s t' s')
    (hnew : ∀ e ∈ new, e.still = true) (htr : s'.trace = new ++ s.trace) : Working t' s' := by
  have hpacket := hr.row_packet
  refine h.still hnew htr (hpacket.trans (h.packet.trans hr.packet.symm)) hpacket ?_ (fun hne => ?_)
    fun hne => ?_
  · exact hr.keep (P := fun x => x.2.status.isFinished = false) (fun _ _ hl => hl.unfinished hst)
      h.unfinished
  · exact hr.keep (P := fun x => x.2.writeAckTxHash ≠ none) (fun _ _ hl => hl.row_writeAck) hne
  · refine hr.keep (P := fun x => x.1.writeAckTxHash ≠ none) (fun x y hl hx => ?_) hne
    rw [(hl.writeAck_of_some hx).1]
    exact hx

/-- What a stage before the `StateFinisher` keeps. -/
def Kept (o : Option IBCV2Transfer) (s : Focus) : Prop := (∃ t, Working t s) ∧
    ∀ t, o = some t → Working t s

theorem stage_still (hwait : st ≠ .waitForWriteAckPacket) (hfinisher : st ≠ .stateFinisher)
    (h : Working t s) : wp (focus t.key adm) (fun _ _ => True) (st.process pl t) Kept s := by
  have hspec : wp (focus t.key adm) _ _ _ _ := stage_spec pl st t s
  refine ((hspec.and (process_uncounted hwait hfinisher t s)).traced (P := fun e => e.still = true)
    fun _ _ _ hc => Event.still_of_uncounted hc.2).mono (fun _ _ _ => trivial) ?_
  rintro o s' ⟨⟨hpassed, -⟩, new, htr, hnew⟩
  cases o with
  | none =>
    obtain ⟨t', hr⟩ := hpassed
    exact ⟨⟨t', h.reaches hfinisher hr hnew htr⟩, by simp⟩
  | some t' =>
    have h' := h.reaches hfinisher hpassed.1 hnew htr
    refine ⟨⟨t', h'⟩, ?_⟩
    rintro _ ⟨⟩
    exact h'

theorem Working.kept (h : Working t s) : Kept (some t) s := by
  refine ⟨⟨t, h⟩, ?_⟩
  rintro _ ⟨⟩
  exact h

/-! ## The write ack -/

/-- What is said of a transfer, is said of its packet and its write ack. -/
theorem Working.congr (h : Working t s) (hp : t'.packet = t.packet)
    (hw : t'.writeAckTxHash = t.writeAckTxHash) : Working t' s where
  toTallied := h.toTallied
  packet := h.packet.trans hp.symm
  unfinished := h.unfinished
  unacked := h.unacked
  memory := hw ▸ h.memory

theorem Working.fail (h : Working t s) (err : Err) : Working (t.fail err) s := h.congr rfl rfl

theorem Working.next (h : Working t s) {c : Call} {ans : c.Ans} (he : Event.still ⟨c, ans⟩ = true)
    (hpacket : (c.effectOn K ans s.row).packet = s.row.packet)
    (hun : (c.effectOn K ans s.row).status.isFinished = false)
    (hack : (c.effectOn K ans s.row).writeAckTxHash = s.row.writeAckTxHash) :
    Working t ((focus K adm).next c ans s) := by
  have hnew : ∀ e ∈ [(⟨c, ans⟩ : Event)], e.still = true :=
    fun _ hm => List.mem_singleton.mp hm ▸ he
  exact h.still hnew rfl (hpacket.trans h.packet) hpacket hun (fun hne => hack.symm ▸ hne) id

/-- A call that is no statement. -/
theorem Working.ask (h : Working t s) {c : Call} (hc : c.queries = []) {ans : c.Ans}
    (he : Event.still ⟨c, ans⟩ = true) : Working t ((focus K adm).next c ans s) := by
  have hrow : c.effectOn K ans s.row = s.row :=
    Call.effectOn_idle ((c.done_eq ans).elim id (·.trans hc)) _
  refine h.next he ?_ ?_ ?_
  · rw [hrow]
  · rw [hrow, h.unfinished]
  · rw [hrow]

/-- A statement that no count goes with leaves the write ack, and the row
unfinished. -/
theorem row_uncounted {q : Query} (hq : (Call.exec q).uncounted = true) (r : Ibcv2Transfer) :
    (q.set.apply r).writeAckTxHash = r.writeAckTxHash ∧
      (r.status.isFinished = false → (q.set.apply r).status.isFinished = false) := by
  obtain ⟨set, key⟩ := q
  cases set with
  | status σ => exact ⟨rfl, fun _ => by simpa [Call.uncounted, SetClause.apply] using hq⟩
  | tx k => cases k <;> exact ⟨rfl, id⟩
  | clearTx k => cases k <;> exact ⟨rfl, id⟩
  | txGasCostUSD k => cases k <;> exact ⟨rfl, id⟩
  | writeAckTx => cases hq
  | _ => exact ⟨rfl, id⟩

theorem effectOn_exec_cases (q : Query) (ans : Except Err Unit) (r : Ibcv2Transfer) :
    Call.effectOn K (.exec q) ans r = r ∨ Call.effectOn K (.exec q) ans r = q.set.apply r := by
  cases ans with
  | error err => exact .inl rfl
  | ok _ =>
    by_cases hK : q.key = K
    · exact .inr (Call.effectOn_exec hK r)
    · exact .inl (if_neg hK)

theorem Working.update (h : Working t s) {q : Query} (hq : (Call.exec q).uncounted = true)
    (ans : Except Err Unit) : Working t ((focus K adm).next (.exec q) ans s) := by
  have he : Event.still ⟨.exec q, ans⟩ = true := Event.still_of_uncounted hq
  obtain ⟨hack, hun⟩ := row_uncounted hq s.row
  rcases effectOn_exec_cases (K := K) q ans s.row with hrow | hrow
  · exact h.next he (by rw [hrow]) (by rw [hrow, h.unfinished]) (by rw [hrow])
  · exact h.next he (by rw [hrow, packet_apply]) (by rw [hrow, hun h.unfinished])
      (by rw [hrow, hack])

/-- The calls with which a write ack is counted. -/
def ackWritten (p : Packet) (hash : String) (ans : Except Err Ibcv2WriteAckStatus) (q : Query)
    (res : Except Err Unit) : List Event :=
  [⟨.exec q, res⟩,
    ⟨.addRelayCompleted p.sourceChainID p.sourceClientID p.destinationChainID p.destinationClientID
      .ibcv2SendToRecv, ()⟩,
    ⟨.packetWriteAckStatus p.destinationChainID hash p.sequenceNumber.toUInt64 p.sourceClientID
      p.destinationClientID, ans⟩]

section WriteAck

variable {hash : String} {status : Ibcv2WriteAckStatus} {ans : Except Err Ibcv2WriteAckStatus}
  {q : Query}
  {res : Except Err Unit}

section Written

variable {time : Option Time} (p : Packet) (hq : q.set = .writeAckTx (some hash) time (some status))
include hq

theorem balanced_ackWritten (hans : writeAckOf ans = some status) :
    Balanced (ackWritten p hash ans q res) := by
  obtain ⟨set, key⟩ := q
  cases hq
  exact ⟨rfl, rfl, rfl, by simp [ackWritten, Event.findsAck, hans, calls, Call.writesAck]⟩

theorem writesAck_ackWritten : calls Call.writesAck (ackWritten p hash ans q res) = 1 := by
  obtain ⟨set, key⟩ := q
  cases hq
  rfl

theorem finishesWith_ackWritten (σ : Ibcv2RelayStatus) :
    calls (Call.finishesWith σ) (ackWritten p hash ans q res) = 0 := by
  obtain ⟨set, key⟩ := q
  cases hq
  rfl

theorem stored_ackWritten (hall : AllStored (ackWritten p hash ans q res ++ tr)) :
    res = .ok () := by
  obtain ⟨set, key⟩ := q
  cases hq
  exact hall _ List.mem_cons_self

end Written

/-- The write ack was found, counted and written, or it could not be written. -/
theorem Working.writeAck (h : Working t s) (hw : t.writeAckTxHash = none)
    (hans : writeAckOf ans = some status)
    {time : Option Time} (hq : q.set = .writeAckTx (some hash) time (some status))
    {r : Ibcv2Transfer} (hpacket : r.packet = s.row.packet) (hstatus : r.status = s.row.status)
    (hrow : res = .ok () → r.writeAckTxHash ≠ none) (hu : t'.packet = t.packet)
    (hmem : res = .ok () → t'.writeAckTxHash ≠ none) :
    Working t' ⟨r, ackWritten t.packet hash ans q res ++ s.trace⟩ where
  balanced := (balanced_ackWritten t.packet hq hans).append h.balanced
  said _ := by
    refine ⟨hash, status, ans, ?_, hans⟩
    rw [hpacket, h.packet]
    simp [ackWritten]
  stored hall := by
    -- The transfer has no write ack, so none was written before.
    have hzero : calls Call.writesAck s.trace = 0 :=
      by_contra fun hne => h.memory hall.of_append hne hw
    rw [calls_append, writesAck_ackWritten t.packet hq, hzero]
    exact ⟨Nat.le_refl _, fun _ => hrow (stored_ackWritten t.packet hq hall)⟩
  packet := by rw [hpacket, h.packet, hu]
  unfinished := by rw [hstatus, h.unfinished]
  unacked hall := by
    rw [calls_append, finishesWith_ackWritten t.packet hq, h.unacked hall.of_append]
  memory hall _ := hmem (stored_ackWritten t.packet hq hall)

end WriteAck

/-- What a processor makes of a transfer. -/
def Handled (t : IBCV2Transfer) (o : Except Err IBCV2Transfer) (s : Focus) : Prop :=
  (∀ err, o = .error err → Working t s) ∧ ∀ t', o = .ok t' → Working t' s

theorem Handled.error (h : Working t s) (err : Err) : Handled t (.error err) s :=
  ⟨fun _ _ => h, by simp⟩

theorem Handled.ok (h : Working t' s) : Handled t (.ok t') s := by
  refine ⟨by simp, ?_⟩
  rintro _ ⟨⟩
  exact h

theorem recordWriteAck_handled (h : Working t s) (hw : t.writeAckTxHash = none) {hash : String}
    {status : Ibcv2WriteAckStatus} {ans : Except Err Ibcv2WriteAckStatus}
    (hans : writeAckOf ans = some status) :
    wp (focus t.key adm) (fun _ _ => True) (recordWriteAck t hash status) (Handled t)
      ((focus t.key adm).next
      (.packetWriteAckStatus t.destinationChainID hash t.sequence t.packetSourceClientID
        t.packetDestinationClientID) ans s) := by
  refine ⟨trivial, fun _ _ => wp_try ⟨trivial, fun res _ => ⟨?_, ?_⟩⟩⟩
  · rintro err rfl
    exact .error (h.writeAck hw hans rfl rfl rfl (by simp) rfl (by simp)) _
  · rintro _ rfl
    refine .ok (h.writeAck hw hans rfl ?_ ?_ (fun _ => ?_) rfl fun _ => Option.some_ne_none _)
    · exact (congrArg _ (Call.effectOn_exec rfl s.row)).trans (packet_apply _ _)
    · exact (congrArg Ibcv2Transfer.status (Call.effectOn_exec rfl s.row)).trans rfl
    · exact fun hn => Option.some_ne_none hash
        ((congrArg Ibcv2Transfer.writeAckTxHash (Call.effectOn_exec rfl s.row)).symm.trans hn)

theorem waitForWriteAck_handled (h : Working t s) (hw : t.writeAckTxHash = none) :
    wp (focus t.key adm) (fun _ _ => True) (waitForWriteAckPacket.process t) (Handled t) s := by
  refine wp_try ⟨trivial, fun ans _ => ⟨fun err _ => .error (h.ask rfl rfl) _, fun _ _ => ?_⟩⟩
  have h₁ : Working t ((focus t.key adm).next (.getClient t.destinationChainID) ans s) :=
    h.ask rfl rfl
  split
  · exact .error h₁ _
  rename_i hash hr
  refine ⟨trivial, fun status _ => ?_⟩
  cases status with
  | ok status => exact recordWriteAck_handled h₁ hw rfl
  | error err =>
    change wp _ _ (if err.is .errWriteAckNotFoundForPacket then _ else
      if !err.is .errWriteAckDecoding then _ else _) _ _
    have hask (hn : writeAckOf (.error err) = none) :
        Working t ((focus t.key adm).next (.packetWriteAckStatus
        t.destinationChainID hash t.sequence t.packetSourceClientID t.packetDestinationClientID)
      (.error err) _) :=
      h₁.ask rfl (by simp [Event.still, hn])
    split
    · rename_i hfound
      have h₂ := hask (by simp [writeAckOf, hfound])
      refine wp_try ⟨trivial, fun res _ => ⟨fun _ _ => ?_, fun _ _ => ?_⟩⟩
      · exact .error (h₂.update rfl res) _
      · exact .error (h₂.update rfl res) _
    rename_i hfound
    split
    · rename_i hdecoding
      exact .error (hask (by simpa [writeAckOf] using fun _ => hdecoding)) _
    · rename_i hdecoding
      exact recordWriteAck_handled h₁ hw (by simpa [writeAckOf, hfound] using hdecoding)

theorem wait_kept (h : Working t s) :
    wp (focus t.key adm) (fun _ _ => True) (Stage.process pl .waitForWriteAckPacket t) Kept s := by
  have hq : (Call.exec (updateTransferState .waitForWriteAck t.key)).uncounted = true := rfl
  refine wp_single rfl (wp_mw (fun _ => h.kept) fun ha =>
    ⟨fun _ => h.kept, fun hs => ⟨trivial, fun err _ => ?_, ?_⟩⟩)
  · exact ((h.update hq (.error err)).fail _).kept
  have hw : t.writeAckTxHash = none := by
    simp only [Bool.and_eq_true, Option.isNone_iff_eq_none] at hs
    exact hs.1.2
  have h₁ : Working { t with state := .waitForWriteAck } ((focus t.key adm).next
      (.exec (updateTransferState .waitForWriteAck t.key)) (.ok ()) s) :=
    (h.update hq (.ok ())).congr rfl rfl
  refine (waitForWriteAck_handled h₁ hw).post fun o s' ho =>
    ⟨fun err he => ?_, fun t' he => (ho.2 t' he).kept⟩
  have h' := ho.1 err he
  exact ⟨⟨⟨_, h'⟩, by simp [Except.toOption]⟩, (h'.fail err).kept⟩

/-! ## The end of a run -/

/-- The last update of a run, with what was counted before it. -/
theorem Working.finish (h : Working t s) {σ : Ibcv2RelayStatus} (hσ : σ.isFinished = true)
    {r : Ibcv2Transfer} (hbalanced : Balanced new) (hwrites : calls Call.writesAck new = 0)
    (hfinishes : ∀ σ', calls (Call.finishesWith σ') new = if σ = σ' then 1 else 0)
    (hpacket : r.packet = s.row.packet) (hack : r.writeAckTxHash = s.row.writeAckTxHash)
    (hstatus : r.status = s.row.status ∨ r.status = σ)
    (hstored : AllStored new → σ = .completeWithAck → r.status = σ) :
    Counted ⟨r, new ++ s.trace⟩ where
  balanced := hbalanced.append h.balanced
  said hne := by
    rw [calls_append, hwrites, Nat.zero_add] at hne
    obtain ⟨hash, status, hsaid⟩ := h.said hne
    rw [hpacket]
    exact ⟨hash, status, hsaid.mono (List.subset_append_right _ _)⟩
  stored hall := by
    rw [calls_append, hwrites, Nat.zero_add, hack]
    exact h.stored hall.of_append
  timedOut hs := by
    have hσ' : σ = .completeWithTimeout := by
      rcases hstatus with hr | hr
      · have hun := h.unfinished
        rw [← hr, hs] at hun
        cases hun
      · exact hr.symm.trans hs
    rw [calls_append, hfinishes, if_pos hσ']
    omega
  acked hall := by
    rw [calls_append, hfinishes, h.unacked hall.of_append, Nat.add_zero]
    split
    · rename_i hσ'
      refine ⟨Nat.le_refl _, fun _ => ?_⟩
      rw [hstored (fun e he => hall e (List.mem_append_left _ he)) hσ']
      exact hσ
    · exact ⟨Nat.zero_le _, fun hne => absurd rfl hne⟩

theorem writeFinalState_counted (h : Working t s) {σ : Ibcv2RelayStatus} (hσ : σ.isFinished = true)
    (counted : List Event)
    (hbalanced : ∀ res, Balanced (⟨.exec (updateTransferState σ t.key), res⟩ :: counted))
    (hwrites : calls Call.writesAck counted = 0)
    (hfinishes : ∀ σ', calls (Call.finishesWith σ') counted = 0) :
    wp (focus t.key adm) (fun _ _ => True) (writeFinalState { t with state := σ })
      (fun _ s' => Counted s') ⟨s.row, counted ++ s.trace⟩ := by
  have hfinish (σ' : Ibcv2RelayStatus) (res : Except Err Unit) :
      calls (Call.finishesWith σ') (⟨.exec (updateTransferState σ t.key), res⟩ :: counted) =
        if σ = σ' then 1 else 0 := by
    have hcount := hfinishes σ'
    rw [calls] at hcount ⊢
    rw [List.countP_cons, hcount, Nat.zero_add]
    simp only [updateTransferState, Call.finishesWith, beq_iff_eq]
  refine ⟨trivial, fun res _ => ?_⟩
  cases res with
  | error err =>
    refine h.finish hσ (hbalanced (.error err)) hwrites (hfinish · _) rfl rfl (.inl rfl)
      fun hall he => ?_
    subst he
    exact absurd (hall _ List.mem_cons_self) (by simp [Event.Stored, updateTransferState])
  | ok _ =>
    have hrow : Call.effectOn t.key (.exec (updateTransferState σ t.key)) (.ok ()) s.row =
        (SetClause.status σ).apply s.row := Call.effectOn_exec rfl s.row
    change Counted ⟨Call.effectOn t.key (.exec (updateTransferState σ t.key)) (.ok ()) s.row,
      (_ :: counted) ++ s.trace⟩
    rw [hrow]
    exact h.finish hσ (hbalanced (.ok ())) hwrites (hfinish · _) (packet_apply _ _) rfl (.inr rfl)
      fun _ _ => rfl

theorem stateFinisher_counted (h : Working t s) (success error : Bool) :
    wp (focus t.key adm) (fun _ _ => True) (stateFinisher success error t)
      (fun _ s' => Counted s') s := by
  rw [stateFinisher]
  split
  · exact h.counted
  split
  · exact h.counted
  split
  · refine ⟨trivial, fun ans _ => ?_⟩
    exact writeFinalState_counted h rfl [⟨_, ans⟩] (fun _ => ⟨rfl, rfl, rfl, rfl⟩) rfl fun _ => rfl
  split
  · exact h.counted
  rename_i status _
  split
  · refine ⟨trivial, fun ans _ => ?_⟩
    exact writeFinalState_counted h rfl [⟨_, ans⟩] (fun _ => ⟨rfl, rfl, rfl, rfl⟩) rfl fun _ => rfl
  · have hwrite {σ : Ibcv2RelayStatus} (hσ : σ.isFinished = true)
        (hbalanced : ∀ res, Balanced [⟨.exec (updateTransferState σ t.key), res⟩]) :
        wp (focus t.key adm) (fun _ _ => True) (writeFinalState { t with state := σ })
        (fun _ s' => Counted s') s :=
      writeFinalState_counted h hσ [] hbalanced rfl fun _ => rfl
    cases status with
    | success => exact hwrite rfl fun _ => ⟨rfl, rfl, rfl, rfl⟩
    | error => exact hwrite rfl fun _ => ⟨rfl, rfl, rfl, rfl⟩
    | unknown => exact hwrite rfl fun _ => ⟨rfl, rfl, rfl, rfl⟩

theorem workStages_kept (h : Working t s) :
    wp (focus t.key adm) (fun _ _ => True) (runStages pl (workStages pl) t)
    (fun o s' => Kept o s' ∧ ∀ t', o = some t' → t'.key = t.key) s := by
  refine wp_runStages_of_mem (I := Working) (fun st hst u s hK h => ?_)
    (fun _ _ _ t' _ _ _ hkept => hkept.2 t' rfl) (fun _ _ h => h.kept) rfl h
  have hfinisher : st ≠ .stateFinisher := fun he => stateFinisher_not_mem_workStages pl (he ▸ hst)
  rw [← hK]
  by_cases hwait : st = .waitForWriteAckPacket
  · subst hwait
    exact wait_kept h
  · exact stage_still hwait hfinisher h

theorem pipelineRun_counted (opts : PipelineOptions) (hasPriceClient : Bool) (h : Counted s)
    (hs : s.row.status.isFinished = false) : wp (focus s.row.key adm) (fun _ _ => True)
      (pipelineRun opts hasPriceClient s.row) (fun _ s' => Counted s') s := by
  change wp (focus (newIBCV2Transfer s.row).key adm) _
    (runStages (pipelineOf opts hasPriceClient s.row) (newPipeline _) _) _ _
  rw [newPipeline_eq]
  refine wp_runStages_append ((workStages_kept (h.load hs)).post fun o s' ho =>
    ⟨fun _ => ?_, fun t' ht' => ?_⟩)
  · obtain ⟨⟨⟨t', h'⟩, -⟩, -⟩ := ho
    exact h'.counted
  · rw [← ho.2 t' ht']
    exact wp_bind.mpr (wp_bind.mpr (stateFinisher_counted (ho.1.2 t' ht') _ _))

/-! ## Histories -/

/-- A row, and the calls of all runs of its packet so far, while there is no run of
it. A run is of a row that is not finished, and it comes to its end. -/
inductive BetweenRuns : Focus → Prop where
  | inserted (p : InsertIBCV2TransferParams) : BetweenRuns ⟨insertedRow p, []⟩
  | run {s s' : Focus} {o : Option IBCV2Transfer} (opts : PipelineOptions) (hasPriceClient : Bool) :
    BetweenRuns s → s.row.status.isFinished = false →
    Steps (focus s.row.key anyAnswer) (pipelineRun opts hasPriceClient s.row) s (.ret o) s' →
    BetweenRuns s'
  | other {s : Focus} (time : Time) : BetweenRuns s → s.row.key = ⟨"", "", 0⟩ →
    BetweenRuns ⟨(SetClause.writeAckTxFinalizedTime (some time)).apply s.row, s.trace⟩

theorem BetweenRuns.counted (h : BetweenRuns s) : Counted s := by
  induction h with
  | inserted p =>
    refine ⟨⟨⟨rfl, rfl, rfl, rfl⟩, fun hne => absurd rfl hne, fun _ => ?_⟩, fun hs => ?_,
      fun _ => ?_⟩
    · exact ⟨Nat.zero_le _, fun hne => absurd rfl hne⟩
    · cases hs
    · exact ⟨Nat.zero_le _, fun hne => absurd rfl hne⟩
  | run opts hasPriceClient _ hs hrun ih =>
    exact (pipelineRun_counted opts hasPriceClient ih hs).returned hrun
  | other time _ _ ih => exact ⟨⟨ih.balanced, ih.said, ih.stored⟩, ih.timedOut, ih.acked⟩

/-- Relays are counted once, and under the right type. -/
structure CountedOnce (s : Focus) : Prop where
  once (k : RelayType) : completions k s.trace ≤ 1
  timeout : completions .ibcv2SendToTimeout s.trace ≠ 0 ↔ s.row.status = .completeWithTimeout
  recv : completions .ibcv2SendToRecv s.trace ≠ 0 → ∃ hash status,
    s.row.packet.SaidWriteAck s.trace hash status

/-- No run comes to finish the packet by a timeout, and none comes to one of the two
counts again. -/
structure TriedOnce (tr : List Event) : Prop where
  timeout : calls (Call.finishesWith .completeWithTimeout) tr = 0
  found : tr.countP Event.findsAck ≤ 1
  ack : calls (Call.finishesWith .completeWithAck) tr ≤ 1

theorem Counted.writesAck_ne_zero_iff (h : Counted s) :
    calls Call.writesAck s.trace ≠ 0 ↔
      ∃ hash status, s.row.packet.SaidWriteAck s.trace hash status := by
  refine ⟨h.said, ?_⟩
  rintro ⟨hash, status, ans, hmem, hans⟩
  rw [← h.balanced.found]
  exact Nat.ne_of_gt (List.countP_pos_iff.mpr ⟨_, hmem, by simp [Event.findsAck, hans]⟩)

theorem Counted.triedOnce (h : Counted s) (hc : CountedOnce s) : TriedOnce s.trace := by
  have hrecv := hc.once .ibcv2SendToRecv
  have hack := hc.once .ibcv2RecvToAck
  rw [h.balanced.recv] at hrecv
  rw [h.balanced.ack] at hack
  have htimeout : calls (Call.finishesWith .completeWithTimeout) s.trace = 0 := by
    by_contra hne
    -- The timeout was counted as a recv, for which there is then a write ack.
    have hsaid := hc.recv (by rw [h.balanced.recv]; omega)
    have hwrites := h.writesAck_ne_zero_iff.mpr hsaid
    omega
  exact ⟨htimeout, by rw [h.balanced.found]; omega, hack⟩

theorem Counted.countedOnce (h : Counted s) (ht : TriedOnce s.trace) : CountedOnce s where
  once k := by
    cases k with
    | ibcv2SendToRecv =>
      rw [h.balanced.recv, ht.timeout, ← h.balanced.found]
      exact ht.found
    | ibcv2SendToTimeout =>
      rw [h.balanced.timeout]
      exact Nat.zero_le _
    | ibcv2RecvToAck =>
      rw [h.balanced.ack]
      exact ht.ack
  timeout := ⟨fun hne => absurd h.balanced.timeout hne, fun hs => absurd ht.timeout (h.timedOut hs)⟩
  recv hne := by
    rw [h.balanced.recv, ht.timeout, Nat.add_zero] at hne
    exact h.said hne

theorem Counted.triedOnce_of_stored (h : Counted s) (hall : AllStored s.trace)
    (htimeout : calls (Call.finishesWith .completeWithTimeout) s.trace = 0) :
    TriedOnce s.trace where
  timeout := htimeout
  found := by
    rw [h.balanced.found]
    exact (h.stored hall).1
  ack := (h.acked hall).1

theorem relays_counted_once_iff (h : BetweenRuns s) : (CountedOnce s ↔ TriedOnce s.trace) ∧
    (AllStored s.trace → (CountedOnce s ↔
      calls (Call.finishesWith .completeWithTimeout) s.trace = 0)) := by
  have hc := h.counted
  refine ⟨⟨hc.triedOnce, hc.countedOnce⟩, fun hall =>
    ⟨fun ho => (hc.triedOnce ho).timeout, fun hz => ?_⟩⟩
  exact hc.countedOnce (hc.triedOnce_of_stored hall hz)

/-- The first `n` calls of another run, answered by `ω`. -/
def Focus.rerun (s : Focus) (ω : (c : Call) → c.Ans)
    (n : Nat) : Relay (Option IBCV2Transfer) × Focus :=
  runN (focus s.row.key anyAnswer).next (fun c _ => ω c) n (pipelineRun someOptions false s.row) s

theorem BetweenRuns.rerun (h : BetweenRuns s) {ω : (c : Call) → c.Ans} {n : Nat}
    (hs : s.row.status.isFinished = false) (hret : (s.rerun ω n).1.result?.isSome = true) :
    BetweenRuns (s.rerun ω n).2 := by
  have hrun : Steps (focus s.row.key anyAnswer) (pipelineRun someOptions false s.row) s
      (s.rerun ω n).1 (s.rerun ω n).2 :=
    steps_runN (S := focus s.row.key anyAnswer) (fun _ _ => trivial) n _ s
  obtain ⟨o, ho⟩ := Option.isSome_iff_exists.mp hret
  rw [result?_eq_some ho] at hrun
  exact .run someOptions false h hs hrun

/-- A packet that is delivered and acknowledged. -/
theorem relays_counted_once_acknowledged : ∃ s, BetweenRuns s ∧
    completions .ibcv2SendToRecv s.trace = 1 ∧
    completions .ibcv2RecvToAck s.trace = 1 ∧ CountedOnce s := by
  have hs : BetweenRuns ((Focus.mk (insertedRow somePacket) []).rerun (Answers.answer {}) 60).2 :=
    .rerun (.inserted somePacket) rfl (by decide +kernel)
  have htried : TriedOnce
      ((Focus.mk (insertedRow somePacket) []).rerun (Answers.answer {}) 60).2.trace :=
    ⟨by decide +kernel, by decide +kernel, by decide +kernel⟩
  exact ⟨_, hs, by decide +kernel, by decide +kernel, (relays_counted_once_iff hs).1.mpr htried⟩

/-- The write ack is found, and the row is not updated with it. -/
def ackNotStored : (c : Call) → c.Ans
  | .exec ⟨.writeAckTx .., _⟩ => .error (newErr "connection lost")
  | c => Answers.answer {} c

/-- A packet that times out is counted as received. One whose write ack is not
stored in the first run is counted as received in the second run, too. -/
theorem relays_miscounted :
    (∃ s, BetweenRuns s ∧ s.row.status = .completeWithTimeout ∧
      completions .ibcv2SendToTimeout s.trace = 0 ∧
      completions .ibcv2SendToRecv s.trace = 1 ∧
      ∀ hash status, ¬s.row.packet.SaidWriteAck s.trace hash status) ∧
    ∃ s, BetweenRuns s ∧ s.row.status = .completeWithAck ∧
      completions .ibcv2SendToRecv s.trace = 2 := by
  constructor
  · have hs : BetweenRuns ((Focus.mk (insertedRow somePacket) []).rerun
        (Answers.answer { clock := fun _ => 20 }) 60).2 :=
      .rerun (.inserted somePacket) rfl (by decide +kernel)
    refine ⟨_, hs,
      by decide +kernel, by decide +kernel, by decide +kernel, fun hash status hsaid => ?_⟩
    exact hs.counted.writesAck_ne_zero_iff.mpr ⟨hash, status, hsaid⟩ (by decide +kernel)
  · have hs : BetweenRuns ((Focus.mk (insertedRow somePacket) []).rerun ackNotStored 60).2 :=
      .rerun (.inserted somePacket) rfl (by decide +kernel)
    have hs' : BetweenRuns (((Focus.mk (insertedRow somePacket) []).rerun ackNotStored 60).2.rerun
        (Answers.answer {}) 60).2 := .rerun hs (by decide +kernel) (by decide +kernel)
    exact ⟨_, hs', by decide +kernel, by decide +kernel⟩

end PlatformRelayer

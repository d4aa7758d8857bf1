import PlatformRelayer.Bridges.Delivery
import PlatformRelayer.Framework.Lock
import PlatformRelayer.Proof.CosmosSubmission

/-!
# Deliveries at the same time

Many goroutines call `DeliverTx` on one client. Each call is a critical section of
`txSubmissionLock`, so a call meets what it would meet alone, and what one call does
is enough to know (`Held.turns`).

The deferred function keeps the time of a submission, and the next call waits from
then on; so a submission comes at least `txSubmissionDelay` after every one that the
node has acknowledged (`paced_inv`). The EVM client asks for its nonce and sends the
tx in the same section: the nonces of what is sent follow one another, whatever
answers get lost (`evm_deliveries_in_order`). The Cosmos client asks for the sequence
that is committed, not for the one that comes next: the two agree if a tx is committed
within `txSubmissionDelay`, and if the client has not just missed the answer to a tx
that was taken (`cosmos_deliveries_in_order`).
-/

namespace PlatformRelayer

open Prog Relation

/-! ## The clock -/

/-- The clock, the time of the last submission, and what the node has. -/
structure Pace (N : Type) where
  clock : Time
  last : Time
  node : N

section Pace

variable {C N : Type} {A : C → Type}

/-- What the calls of a delivery are answered by. `node` says it of the calls to the
node: with the time before the call and the time of the answer. -/
def Pace.Answers (node : (c : C) → A c → Time → Time → N → N → Prop) :
    (c : DeliveryCall C) → DeliveryCall.Ans A c → Pace N → Pace N → Prop
  | .lastSubmissionTime, t, s, s' => t = s.last ∧ s' = s
  | .setLastSubmissionTime t, _, s, s' => s' = { s with last := t }
  | .waitUntil t, contextErr, s, s' =>
    s.clock ≤ s'.clock ∧ s'.last = s.last ∧ s'.node = s.node ∧ (contextErr = none → t ≤ s'.clock)
  | .now, t, s, s' => s.clock ≤ t ∧ s' = { s with clock := t }
  | .submission c, a, s, s' => s.clock ≤ s'.clock ∧ s'.last = s.last ∧
  node c a s.clock s'.clock s.node s'.node

/-- Nothing has happened but that time has passed. -/
structure Pace.Idle (s s' : Pace N) : Prop where
  clock : s.clock ≤ s'.clock
  last : s'.last = s.last
  node : s'.node = s.node

theorem Pace.Idle.refl (s : Pace N) : s.Idle s := ⟨Int.le_refl _, rfl, rfl⟩

theorem Pace.Idle.trans {s s' s'' : Pace N} (h : s.Idle s') (h' : s'.Idle s'') : s.Idle s'' :=
  ⟨Int.le_trans h.clock h'.clock, h'.last.trans h.last, h'.node.trans h.node⟩

/-- What the node has acknowledged is at least a delay old. -/
def Pace.Spaced (delay : Duration) (acknowledged : N → List Time) (s : Pace N) : Prop :=
  ∀ t ∈ acknowledged s.node, t + delay ≤ s.clock

/-- The lock's invariant: `J` holds of the node, and what it has acknowledged is a
delay old or not younger than the time of the last submission. -/
structure Pace.Inv (delay : Duration) (acknowledged : N → List Time) (J : N → Prop)
    (s : Pace N) : Prop where
  node : J s.node
  past : ∀ t ∈ acknowledged s.node, t ≤ s.clock
  spaced : ∀ t ∈ acknowledged s.node, t ≤ s.last ∨ t + delay ≤ s.clock

/-- What a submission leaves: `J` holds of the node, and what it has acknowledged is
in the past, and a delay old if the submission has failed. -/
structure Pace.Left {ε α : Type} (delay : Duration) (acknowledged : N → List Time) (J : N → Prop)
    (o : Except ε α) (s : Pace N) : Prop where
  node : J s.node
  past : ∀ t ∈ acknowledged s.node, t ≤ s.clock
  spaced : ∀ e, o = .error e → s.Spaced delay acknowledged

/-- What is to hold at a call: `J` of the node, and `P` at a call to it. -/
def atSubmission (J : N → Prop) (P : C → Pace N → Prop) : DeliveryCall C → Pace N → Prop
  | .submission c, s => J s.node ∧ P c s
  | _, s => J s.node

variable {delay : Duration} {acknowledged : N → List Time} {J : N → Prop} {s s' : Pace N}

theorem Pace.Spaced.idle (h : s.Spaced delay acknowledged)
    (hs : s.Idle s') : s'.Spaced delay acknowledged :=
  fun t ht => Int.le_trans (h t (hs.node ▸ ht)) hs.clock

theorem Pace.Spaced.past (h : s.Spaced delay acknowledged) (hdelay : 0 ≤ delay) :
    ∀ t ∈ acknowledged s.node, t ≤ s.clock :=
  fun t ht => Int.le_trans (Int.le_add_of_nonneg_right hdelay) (h t ht)

/-- Where nothing is submitted, what was spaced stays so. -/
theorem Pace.Left.of_idle {ε α : Type} (o : Except ε α) (hdelay : 0 ≤ delay) (hJ : J s.node)
    (hs : s.Spaced delay acknowledged) (h : s.Idle s') : s'.Left delay acknowledged J o :=
  ⟨h.node ▸ hJ, (hs.idle h).past hdelay, fun _ _ => hs.idle h⟩

/-- What is left does not depend on how an error is wrapped. -/
theorem Pace.Left.wrap {ε ε' α β : Type} {e : ε}
    (h : s.Left delay acknowledged J (.error e : Except ε α)) (e' : ε') :
    s.Left delay acknowledged J (.error e' : Except ε' β) :=
  ⟨h.node, h.past, fun _ _ => h.spaced e rfl⟩

variable {node : (c : C) → A c → Time → Time → N → N → Prop} {P : C → Pace N → Prop} {ε α : Type}
  {errIsNil : ε → Bool} {contextErr : Err → ε} {submit : Delivery C A (Except ε α)}

/-- A part of the submission, by what it does where there are only its own calls. -/
theorem wpRel_submits {β : Type} {p : Prog C A β} {Q : β → Pace N → Prop}
    (h : wpRel (fun c => Pace.Answers node (.submission c)) (fun c s => J s.node ∧ P c s) p Q s) :
    wpRel (Pace.Answers node) (atSubmission J P) (submits p) Q s :=
  wpRel_within (g := DeliveryCall.submission) (h := fun _ r => r) (fun _ _ _ _ _ h => h)
    (fun _ _ h => h) h

/-- The deferred function leaves the invariant, if `err` is nil or there was nothing
that has to be kept. -/
theorem deferred_inv (nil : Bool) (result : Except ε α) (hJ : J s.node)
    (hpast : ∀ t ∈ acknowledged s.node, t ≤ s.clock)
    (h : nil = false → ∀ t ∈ acknowledged s.node, t ≤ s.last ∨ t + delay ≤ s.clock) :
    wpRel (Pace.Answers node) (atSubmission J P) (deferred nil result)
      (fun _ s' => s'.Inv delay acknowledged J) s := by
  cases nil with
  | false => exact ⟨hJ, hpast, h rfl⟩
  | true =>
    refine wpRel_bind.mpr (wpRel_perform.mpr ⟨hJ, ?_⟩)
    rintro now _ ⟨hnow, rfl⟩
    refine wpRel_bind.mpr (wpRel_perform.mpr ⟨hJ, ?_⟩)
    rintro _ _ rfl
    have hle (t : Time) (ht : t ∈ acknowledged s.node) : t ≤ now := Int.le_trans (hpast t ht) hnow
    exact ⟨hJ, hle, fun t ht => .inl (hle t ht)⟩

/-- One call: it submits only after the delay, and leaves the invariant. -/
theorem paced_inv
    (hsubmit : ∀ s, J s.node → s.Spaced delay acknowledged →
      wpRel (Pace.Answers node)
      (atSubmission J P) submit (fun o s' => s'.Left delay acknowledged J o) s)
    (h : s.Inv delay acknowledged J) :
    wpRel (Pace.Answers node) (atSubmission J P) (paced delay errIsNil contextErr submit)
      (fun _ s' => s'.Inv delay acknowledged J) s := by
  refine wpRel_bind.mpr (wpRel_perform.mpr ⟨h.node, ?_⟩)
  rintro last _ ⟨rfl, rfl⟩
  refine wpRel_bind.mpr (wpRel_perform.mpr ⟨h.node, fun err s₁ hwait => ?_⟩)
  obtain ⟨hclock, hlast, hnode, hfired⟩ := hwait
  have hJ : J s₁.node := hnode ▸ h.node
  have hpast : ∀ t ∈ acknowledged s₁.node, t ≤ s₁.clock := fun t ht =>
    Int.le_trans (h.past t (hnode ▸ ht)) hclock
  cases err with
  | some err => exact deferred_inv true _ hJ hpast (by simp)
  | none =>
    have hspaced : s₁.Spaced delay acknowledged := fun t ht => by
      rcases h.spaced t (hnode ▸ ht) with hle | hle
      · exact Int.le_trans (Int.add_le_add_right hle delay) (hfired rfl)
      · exact Int.le_trans hle hclock
    refine wpRel_bind.mpr ((hsubmit s₁ hJ hspaced).post fun o s₂ h₂ => ?_)
    cases o with
    | ok a => exact deferred_inv true _ h₂.node h₂.past (by simp)
    | error e =>
      exact deferred_inv (errIsNil e) _ h₂.node h₂.past fun _ t ht => .inr (h₂.spaced e rfl t ht)

/-- `J` holds of the node in every interleaving of such calls. -/
theorem node_of_held {ι : Type} {p : ι → Delivery C A (Except ε α)}
    {ps : ι → Prog (LockCall (DeliveryCall C)) (LockCall.Ans fun c => DeliveryCall.Ans A c × Pace N)
      (Except ε α)}
    {s : Locked (Pace N)} (h : Held (Sem.rel (Pace.Answers node)) (fun i => (p i).blind _)
      (fun _ => atSubmission J P) (Pace.Inv delay acknowledged J) (ps, s)) : J s.state.node := by
  cases h with
  | free _ hs => exact hs.node
  | taken _ _ _ hleft =>
    rcases hleft.point (.refl _ _) with ⟨c, hc⟩ | ⟨a, ha⟩
    · cases c with
      | submission => exact hc.1
      | _ => exact hc
    · exact ha.node

/-- Answers that may come, if those of the node may. -/
def Pace.reply (node : (c : C) → Time → N → A c × Time × N) :
    (c : DeliveryCall C) → Pace N → DeliveryCall.Ans A c × Pace N
  | .lastSubmissionTime, s => (s.last, s)
  | .setLastSubmissionTime t, s => ((), { s with last := t })
  | .waitUntil t, s => (none, { s with clock := max s.clock t })
  | .now, s => (s.clock, s)
  | .submission c, s =>
  ((node c s.clock s.node).1, ⟨(node c s.clock s.node).2.1, s.last, (node c s.clock s.node).2.2⟩)

theorem Pace.reply_answers {reply : (c : C) → Time → N → A c × Time × N}
    (hle : ∀ c t n, t ≤ (reply c t n).2.1)
    (h : ∀ c t n, node c (reply c t n).1 t (reply c t n).2.1 n (reply c t n).2.2)
    (c : DeliveryCall C) (s : Pace N) :
    Pace.Answers node c (Pace.reply reply c s).1 s (Pace.reply reply c s).2 := by
  cases c with
  | lastSubmissionTime => exact ⟨rfl, rfl⟩
  | setLastSubmissionTime t => rfl
  | waitUntil t => exact ⟨Int.le_max_left .., rfl, rfl, fun _ => Int.le_max_right ..⟩
  | now => exact ⟨Int.le_refl _, rfl⟩
  | submission c => exact ⟨hle c _ _, rfl, h c _ _⟩

end Pace

/-! ## EVM -/

/-- What a node has of an account since some nonce: the txs that it took, and the times
at which it has said so. -/
structure EvmAccount where
  txs : List SignedTx := []
  acknowledged : List Time := []

namespace EvmAccount

/-- The first nonce, from `nonce` on, that no tx has. -/
def pendingNonce (nonce : Nat) (a : EvmAccount) : Nat :=
  nonce + ((List.range (a.txs.length + 1)).find? fun i =>
    a.txs.all (·.tx.nonce.toNat ≠ nonce + i)).getD 0

/-- What a node answers, for the account of an address that only the client uses. An
answer to a tx may get lost. -/
def Answers (signerAddress : List UInt8) (nonce : Nat) :
    (c : EvmSubmitCall) → c.Ans → Time → Time → EvmAccount → EvmAccount → Prop
  | .node (.pendingNonceAt account), .ok n, _, _, a, a' =>
    a' = a ∧ (account = signerAddress → n.toNat = a.pendingNonce nonce)
  | .sendTransaction tx, .ok _, _, t, a, a' =>
    a' = { a with txs := a.txs ++ [tx], acknowledged := t :: a.acknowledged }
  | .sendTransaction tx, .error _, _, _, a, a' => a' = a ∨ a' = { a with txs := a.txs ++ [tx] }
  | _, _, _, _, a, a' => a' = a

/-- The nonces of the txs follow one another: none is used twice and none is left
out. -/
def InOrder (nonce : Nat) (a : EvmAccount) : Prop :=
  a.txs.map (·.tx.nonce.toNat) = List.range' nonce a.txs.length

variable {nonce : Nat} {a : EvmAccount}

theorem InOrder.take (h : a.InOrder nonce) {tx : SignedTx}
    (htx : tx.tx.nonce.toNat = nonce + a.txs.length)
    (acknowledged : List Time) :
    InOrder nonce { a with txs := a.txs ++ [tx], acknowledged := acknowledged } := by
  rw [InOrder, List.map_append, h, List.length_append, List.length_singleton, List.range'_1_concat,
    List.map_singleton, htx]

theorem InOrder.mem_iff (h : a.InOrder nonce) (n : Nat) :
    (∃ tx ∈ a.txs, tx.tx.nonce.toNat = n) ↔ nonce ≤ n ∧ n < nonce + a.txs.length := by
  rw [← List.mem_range'_1, ← h, List.mem_map]

theorem InOrder.pendingNonce_eq (h : a.InOrder nonce) :
    a.pendingNonce nonce = nonce + a.txs.length := by
  have hfree (i : Nat) : (a.txs.all (·.tx.nonce.toNat ≠ nonce + i)) = true ↔ a.txs.length ≤ i := by
    rw [← not_iff_not, Bool.not_eq_true, List.all_eq_false, Nat.not_le]
    refine Iff.trans ?_ ((h.mem_iff (nonce + i)).trans ⟨fun hi => by omega, fun hi => by omega⟩)
    simp
  have hfind : (List.range (a.txs.length + 1)).find?
      (fun i => a.txs.all (·.tx.nonce.toNat ≠ nonce + i)) = some a.txs.length := by
    rw [List.find?_range_eq_some]
    refine ⟨(hfree _).mpr (Nat.le_refl _), List.mem_range.mpr (Nat.lt_succ_self _), fun j hj => ?_⟩
    rw [Bool.not_eq_true', ← Bool.not_eq_true, hfree]
    omega
  rw [pendingNonce, hfind, Option.getD_some]

end EvmAccount

namespace EVMDeliverer

variable (client : EVMDeliverer) (nonce : Nat)

/-- What is to hold where a tx is sent: it has the next nonce, and what the node has
acknowledged is a delay old. -/
def Sends : EvmSubmitCall → Pace EvmAccount → Prop
  | .sendTransaction tx, s =>
    tx.tx.nonce.toNat = nonce + s.node.txs.length ∧
      s.Spaced client.txSubmissionDelay EvmAccount.acknowledged
  | _, _ => True

/-- The calls of a delivery, with what they are answered by. -/
abbrev answers := Pace.Answers (EvmAccount.Answers client.signerAddress nonce)

variable {client nonce} {s s' : Pace EvmAccount}

/-- Nothing that `newTx` asks for changes anything. -/
theorem idle_of_node {c : TxCall} {ans : c.Ans}
    (h : client.answers nonce (.submission (.node c)) ans s s') : s.Idle s' := by
  obtain ⟨hclock, hlast, hnode⟩ := h
  refine ⟨hclock, hlast, ?_⟩
  cases c with
  | pendingNonceAt account =>
    cases ans with
    | ok n => exact hnode.1
    | error err => exact hnode
  | _ => exact hnode

/-- A tx that `newTx` makes has the pending nonce. -/
theorem newTx_wp (bz : List UInt8) (address : String) (s : Pace EvmAccount) :
    wpRel (fun c => client.answers nonce (.submission (.node c))) (fun _ s' => s.Idle s')
      (client.newTx bz address)
      (fun o s' => s.Idle s' ∧ ∀ tx, o = .ok tx → tx.nonce.toNat = s.node.pendingNonce nonce)
      s := by
  have h := Pace.Idle.refl s
  refine wpRel_try (wpRel_perform.mpr ⟨h, fun _ s₁ h₁ =>
    ⟨fun _ _ => ⟨idle_of_node h₁, by simp⟩, fun baseFee _ => ?_⟩⟩)
  replace h := idle_of_node h₁
  refine wpRel_try (wpRel_perform.mpr ⟨h, fun _ s₂ h₂ =>
    ⟨fun _ _ => ⟨h.trans (idle_of_node h₂), by simp⟩, fun tip _ => ?_⟩⟩)
  replace h := h.trans (idle_of_node h₂)
  cases baseFee with
  | none => exact ⟨h, by simp⟩
  | some baseFee =>
  refine wpRel_try (wpRel_perform.mpr ⟨h, fun _ s₃ h₃ =>
    ⟨fun _ _ => ⟨h.trans (idle_of_node h₃), by simp⟩, fun code _ => ?_⟩⟩)
  replace h := h.trans (idle_of_node h₃)
  split
  · exact ⟨h, by simp⟩
  refine wpRel_try (wpRel_perform.mpr ⟨h, fun _ s₄ h₄ =>
    ⟨fun _ _ => ⟨h.trans (idle_of_node h₄), by simp⟩, fun gasLimit _ => ?_⟩⟩)
  replace h := h.trans (idle_of_node h₄)
  refine wpRel_try (wpRel_perform.mpr ⟨h, fun ans s₅ h₅ =>
    ⟨fun _ _ => ⟨h.trans (idle_of_node h₅), by simp⟩, fun n hans => ?_⟩⟩)
  subst hans
  refine ⟨h.trans (idle_of_node h₅), fun tx htx => ?_⟩
  obtain rfl := Except.ok.inj htx
  rw [h₅.2.2.2 rfl, h.node]

/-- What is left once the node has been asked to take a tx. -/
theorem left_of_send {tx : SignedTx} {ans : Except Err Unit} (hdelay : 0 ≤ client.txSubmissionDelay)
    (hJ : s.node.InOrder nonce) (htx : client.Sends nonce (.sendTransaction tx) s)
    (h : client.answers nonce (.submission (.sendTransaction tx)) ans s s') :
    s'.Left client.txSubmissionDelay EvmAccount.acknowledged (EvmAccount.InOrder nonce) ans := by
  obtain ⟨hclock, -, hnode⟩ := h
  have hspaced : ∀ t ∈ s.node.acknowledged, t + client.txSubmissionDelay ≤ s'.clock := fun t ht =>
    Int.le_trans (htx.2 t ht) hclock
  have hpast : ∀ t ∈ s.node.acknowledged, t ≤ s'.clock := fun t ht =>
    Int.le_trans (htx.2.past hdelay t ht) hclock
  cases ans with
  | ok _ =>
    replace hnode : s'.node = _ := hnode
    refine ⟨hnode ▸ hJ.take htx.1 _, fun t ht => ?_, by simp⟩
    rw [hnode] at ht
    rcases List.mem_cons.mp ht with rfl | ht
    · exact Int.le_refl _
    · exact hpast t ht
  | error err =>
    rcases hnode with hnode | hnode
    · exact ⟨hnode ▸ hJ, fun t ht => hpast t (hnode ▸ ht), fun _ _ t ht => hspaced t (hnode ▸ ht)⟩
    · refine ⟨hnode ▸ hJ.take htx.1 _, fun t ht => hpast t ?_, fun _ _ t ht => hspaced t ?_⟩
      · rw [hnode] at ht
        exact ht
      · rw [hnode] at ht
        exact ht

theorem signAndSubmitData_wp (bz : List UInt8) (address : String)
    (hdelay : 0 ≤ client.txSubmissionDelay)
    (hJ : s.node.InOrder nonce) (hs : s.Spaced client.txSubmissionDelay EvmAccount.acknowledged) :
    wpRel (fun c => client.answers nonce (.submission c)) (fun c s => s.node.InOrder nonce ∧
      client.Sends nonce c s) (client.signAndSubmitData bz address)
      (fun o s' => s'.Left client.txSubmissionDelay EvmAccount.acknowledged
      (EvmAccount.InOrder nonce) o) s := by
  refine wpRel_try (wpRel_within (fun _ _ _ _ _ h => h) (fun _ s' h => ⟨h.node ▸ hJ, trivial⟩)
    ((newTx_wp bz address s).post fun o s₁ h₁ => ?_))
  obtain ⟨h, hnonce⟩ := h₁
  refine ⟨fun _ _ => .of_idle _ hdelay hJ hs h, fun tx htx => ?_⟩
  refine wpRel_try (wpRel_perform.mpr ⟨⟨h.node ▸ hJ, trivial⟩, fun _ s₂ h₂ => ?_⟩)
  replace h := h.trans ⟨h₂.1, h₂.2.1, h₂.2.2⟩
  refine ⟨fun _ _ => .of_idle _ hdelay hJ hs h, fun signature _ => ?_⟩
  have hsend : client.Sends nonce (.sendTransaction ⟨tx, signature⟩) s₂ := by
    refine ⟨?_, hs.idle h⟩
    rw [hnonce tx htx, hJ.pendingNonce_eq, h.node]
  refine wpRel_try (wpRel_perform.mpr ⟨⟨h.node ▸ hJ, hsend⟩, fun ans s₃ h₃ => ?_⟩)
  have hleft := left_of_send hdelay (h.node ▸ hJ) hsend h₃
  exact ⟨fun err herr => (herr ▸ hleft).wrap _, fun _ _ => ⟨hleft.node, hleft.past, by simp⟩⟩

theorem deliverTx_inv (bz : List UInt8) (address : String) (hdelay : 0 ≤ client.txSubmissionDelay)
    (h : s.Inv client.txSubmissionDelay EvmAccount.acknowledged (EvmAccount.InOrder nonce)) :
    wpRel (client.answers nonce) (atSubmission (EvmAccount.InOrder nonce) (client.Sends nonce))
      (client.deliverTx bz address)
      (fun _ s' => s'.Inv client.txSubmissionDelay EvmAccount.acknowledged
      (EvmAccount.InOrder nonce)) s := by
  refine paced_inv (fun s hJ hs => ?_) h
  refine wpRel_try
    (wpRel_submits ((signAndSubmitData_wp bz address hdelay hJ hs).post fun o s₁ h₁ => ?_))
  refine ⟨fun e he => (he ▸ h₁).wrap _, fun hash _ => ?_⟩
  refine wpRel_bind.mpr (wpRel_perform.mpr ⟨h₁.node, ?_⟩)
  rintro now _ ⟨hnow, rfl⟩
  exact ⟨h₁.node, fun t ht => Int.le_trans (h₁.past t ht) hnow, by simp⟩

/-- Any number of calls of `DeliverTx`, before the first of them. -/
def deliveries (client : EVMDeliverer) {ι : Type} (bz : ι → List UInt8) (address : ι → String)
    (start : Time) : (ι → Prog (LockCall (DeliveryCall EvmSubmitCall))
      (LockCall.Ans fun c => DeliveryCall.Ans EvmSubmitCall.Ans c × Pace EvmAccount)
      (Except NoTx BridgeTx)) × Locked (Pace EvmAccount) :=
  (fun i => ((client.deliverTx (bz i) (address i)).blind _).critical,
    ⟨false, ⟨start, Time.zero, {}⟩⟩)

/-- A node that works, and answers at once. -/
def someReply (nonce : Nat) : (c : EvmSubmitCall) → Time → EvmAccount → c.Ans × Time × EvmAccount
  | .node .headerByNumber, t, a => (.ok (some 1), t, a)
  | .node .suggestGasTipCap, t, a => (.ok 10, t, a)
  | .node (.pendingCodeAt _), t, a => (.ok [0x60], t, a)
  | .node (.estimateGas _), t, a => (.ok 100000, t, a)
  | .node (.pendingNonceAt _), t, a =>
    (if a.pendingNonce nonce < 2 ^ 64 then .ok (.ofNat (a.pendingNonce nonce))
      else .error (newErr "nonce"), t, a)
  | .sign .., t, a => (.ok [], t, a)
  | .sendTransaction tx, t, a =>
  (.ok (), t, { a with txs := a.txs ++ [tx], acknowledged := t :: a.acknowledged })

theorem someReply_answers (client : EVMDeliverer) (nonce : Nat) (c : DeliveryCall EvmSubmitCall)
    (s : Pace EvmAccount) :
    client.answers nonce c (Pace.reply (someReply nonce) c s).1 s
      (Pace.reply (someReply nonce) c s).2 := by
  refine Pace.reply_answers (fun c t a => ?_) (fun c t a => ?_) c s
  · cases c with
    | node c => cases c <;> exact Int.le_refl _
    | sign => exact Int.le_refl _
    | sendTransaction => exact Int.le_refl _
  · cases c with
    | node c =>
      cases c with
      | pendingNonceAt account =>
        by_cases hlt : a.pendingNonce nonce < 2 ^ 64
        · simp only [someReply, if_pos hlt]
          exact ⟨rfl, fun _ => UInt64.toNat_ofNat_of_lt' hlt⟩
        · simp only [someReply, if_neg hlt]
          rfl
      | _ => rfl
    | sign => rfl
    | sendTransaction => rfl

end EVMDeliverer

/-- In every interleaving of calls of `DeliverTx` on an EVM client: at most one call
is inside the lock, the txs that the node took have nonces that follow one another, a
tx that is sent has the next nonce and comes a delay after all that the node has
acknowledged, and every call can still return. -/
theorem evm_deliveries_in_order {client : EVMDeliverer} (hdelay : 0 ≤ client.txSubmissionDelay)
    {ι : Type} [DecidableEq ι] {bz : ι → List UInt8} {address : ι → String} {start : Time}
    {nonce : Nat} {ps : ι → Prog (LockCall (DeliveryCall EvmSubmitCall))
      (LockCall.Ans fun c => DeliveryCall.Ans EvmSubmitCall.Ans c × Pace EvmAccount)
      (Except NoTx BridgeTx)}
    {s : Locked (Pace EvmAccount)}
    (hrun : ReflTransGen (Turn (Sem.rel (client.answers nonce)).locked)
      (client.deliveries bz address start) (ps, s)) :
    (∀ i j q q', ps i = inside q → ps j = inside q' → i = j) ∧ s.state.node.InOrder nonce ∧
      (∀ i tx, (ps i).next? = some (.work (.submission (.sendTransaction tx))) →
        tx.tx.nonce.toNat = nonce + s.state.node.txs.length ∧
          ∀ t ∈ s.state.node.acknowledged, t + client.txSubmissionDelay ≤ s.state.clock) ∧
      ∀ i, ∃ y result, ReflTransGen (Turn (Sem.rel (client.answers nonce)).locked) (ps, s) y ∧
      y.1 i = .ret result := by
  have hstart : Pace.Inv client.txSubmissionDelay EvmAccount.acknowledged (EvmAccount.InOrder nonce)
      ⟨start, Time.zero, {}⟩ := ⟨rfl, by simp, by simp⟩
  have hheld : Held (Sem.rel (client.answers nonce)) (fun i =>
      (client.deliverTx (bz i) (address i)).blind _)
      (fun _ => atSubmission (EvmAccount.InOrder nonce) (client.Sends nonce))
      (Pace.Inv client.txSubmissionDelay EvmAccount.acknowledged (EvmAccount.InOrder nonce))
        (ps, s) :=
    (Held.start _ hstart).turns
    (fun i s hs => EVMDeliverer.deliverTx_inv (bz i) (address i) hdelay hs) hrun
  refine ⟨fun i j q q' hi hj => hheld.exclusive hi hj, node_of_held hheld, fun i tx hi =>
    (hheld.next hi).2, fun i => ?_⟩
  exact hheld.exists_returned (fun c s => ⟨_, EVMDeliverer.someReply_answers client nonce c s⟩) i

/-- An EVM client, and a node at the nonce 7. -/
def someDeliverer : EVMDeliverer where
  chainID := "1"
  signerAddress := []
  addressString := fun _ => ""
  hashOf := fun _ => List.replicate 32 0
  length_hashOf := fun _ => rfl

/-- What is left of a call that is inside, and the state, after `n` calls to a node
that works. -/
def EVMDeliverer.runTo (client : EVMDeliverer) (nonce n : Nat) (s : Pace EvmAccount) :
    Prog (DeliveryCall EvmSubmitCall) (fun c =>
      DeliveryCall.Ans EvmSubmitCall.Ans c × Pace EvmAccount)
      (Except NoTx BridgeTx) × Pace EvmAccount :=
  runN (Sem.rel (client.answers nonce)).next (Pace.reply (EVMDeliverer.someReply nonce)) n
    ((client.deliverTx [] "").blind _) s

theorem EVMDeliverer.steps_runTo (client : EVMDeliverer) (nonce n : Nat) (s : Pace EvmAccount) :
    Steps (Sem.rel (client.answers nonce)) ((client.deliverTx [] "").blind _) s
      (client.runTo nonce n s).1 (client.runTo nonce n s).2 :=
  steps_runN (S := Sem.rel (client.answers nonce))
    (EVMDeliverer.someReply_answers client nonce) n _ s

/-- The tx that is sent by a call. -/
def DeliveryCall.sentTx : DeliveryCall EvmSubmitCall → Option SignedTx
  | .submission (.sendTransaction tx) => some tx
  | _ => none

theorem DeliveryCall.eq_of_sentTx {c : DeliveryCall EvmSubmitCall} {tx : SignedTx}
    (h : c.sentTx = some tx) : c = .submission (.sendTransaction tx) := by
  cases c with
  | submission c =>
    cases c with
    | sendTransaction => rw [Option.some.inj h]
    | _ => cases h
  | _ => cases h

/-- The first of two calls has returned, and the other is about to send its tx. -/
theorem evm_deliveries_in_order_two : ∃ ps s tx,
    ReflTransGen (Turn (Sem.rel (someDeliverer.answers 7)).locked)
      (someDeliverer.deliveries (fun _ : Bool => []) (fun _ => "") 0) (ps, s) ∧
    (ps true).next? = some (.work (.submission (.sendTransaction tx))) ∧
    s.state.node.txs.length = 1 ∧ tx.tx.nonce.toNat = 8 ∧
    ∀ t ∈ s.state.node.acknowledged, t + someDeliverer.txSubmissionDelay ≤ s.state.clock := by
  obtain ⟨result, hresult⟩ : ∃ result,
    (someDeliverer.runTo 7 12 ⟨0, Time.zero, {}⟩).1.result? = some result :=
    Option.isSome_iff_exists.mp (by decide +kernel)
  have hfirst := someDeliverer.steps_runTo 7 12 ⟨0, Time.zero, {}⟩
  rw [result?_eq_some hresult] at hfirst
  -- the state stays a variable, so that nothing but `decide` evaluates it
  generalize hs₁ : (someDeliverer.runTo 7 12 ⟨0, Time.zero, {}⟩).2 = s₁ at hfirst
  have hlength : (someDeliverer.runTo 7 8 s₁).2.node.txs.length = 1 := by
    subst hs₁
    decide +kernel
  obtain ⟨tx, htx⟩ : ∃ tx,
    ((someDeliverer.runTo 7 8 s₁).1.next?.bind DeliveryCall.sentTx) = some tx := by
    subst hs₁
    exact Option.isSome_iff_exists.mp (by decide +kernel)
  obtain ⟨c, hc, hsent⟩ := Option.bind_eq_some_iff.mp htx
  obtain ⟨ps, hrun, hps⟩ := turns_left_entered (p := fun _ : Bool =>
    (someDeliverer.deliverTx [] "").blind _)
    (i := false) (j := true) (by decide) hfirst (someDeliverer.steps_runTo 7 8 s₁)
  have hnext : (ps true).next? = some (.work (.submission (.sendTransaction tx))) := by
    rw [hps, next?_inside hc, DeliveryCall.eq_of_sentTx hsent]
  obtain ⟨-, -, hsend, -⟩ := evm_deliveries_in_order (by decide) hrun
  obtain ⟨hnonce, hspaced⟩ := hsend true tx hnext
  generalize someDeliverer.runTo 7 8 s₁ = r at hrun hlength hnonce hspaced
  rw [hlength] at hnonce
  exact ⟨ps, _, tx, hrun, hnext, hlength, hnonce, hspaced⟩

/-! ## Cosmos -/

/-- A tx that a node took, with the time at which the client was answered, and whether
the answer said so. -/
structure TakenTx where
  time : Time
  tx : SdkTx
  acknowledged : Bool

/-- The sequences that a tx is signed with. -/
def SdkTx.sequences (tx : SdkTx) : List Nat := tx.authInfo.signerInfos.map (·.sequence.toNat)

/-- What a node has of an account since some sequence: the txs that it took, and when
the client was last told the sequence of the account. -/
structure CosmosAccount where
  taken : List TakenTx := []
  asked : Time := Time.zero

namespace CosmosAccount

def acknowledged (a : CosmosAccount) : List Time := (a.taken.filter (·.acknowledged)).map (·.time)

/-- What a node answers for the account of an address that only the client uses; it
knows no other account. The sequence of an account is that of the txs which are
committed, and a tx is committed within some time. An answer to a tx may get lost: a tx
that the client is told to have failed may have been taken. -/
def Answers (address : String) (sequence : Nat) (committedWithin : Duration) :
    (c : SubmitCall) → c.Ans → Time → Time → CosmosAccount → CosmosAccount → Prop
  | .accountInfo addr, .ok (some info), _, t, a, a' =>
    a' = { a with asked := t } ∧ addr = address ∧
      ∃ committed ≤ a.taken.length, info.sequence.toNat = sequence + committed ∧
        ∀ e ∈ a.taken.drop committed, t < e.time + committedWithin
  | .broadcastTxSync tx, .ok result, _, t, a, a' =>
    a' = if result.code = 0 then { a with taken := a.taken ++ [⟨t, tx, true⟩] } else a
  | .broadcastTxSync tx, .error _, _, t, a, a' =>
    a' = a ∨ a' = { a with taken := a.taken ++ [⟨t, tx, false⟩] }
  | .sleep d, _, t, t', a, a' => t + d ≤ t' ∧ a' = a
  | _, _, _, _, a, a' => a' = a

/-- The sequences of the txs follow one another. -/
def InOrder (sequence : Nat) (a : CosmosAccount) : Prop :=
  a.taken.map (·.tx.sequences) = (List.range' sequence a.taken.length).map ([·])

/-- They do unless an answer got lost. -/
def Orderly (sequence : Nat) (a : CosmosAccount) : Prop :=
  (∀ e ∈ a.taken, e.acknowledged = true) → a.InOrder sequence

/-- The txs whose answer got lost were a delay old when the client was told the
sequence. -/
def Settled (delay : Duration) (a : CosmosAccount) : Prop :=
  ∀ e ∈ a.taken, e.acknowledged = false → e.time + delay ≤ a.asked

variable {sequence : Nat} {a : CosmosAccount} {delay : Duration} {tx : SdkTx}

theorem InOrder.take (h : a.InOrder sequence) (htx : tx.sequences = [sequence + a.taken.length])
    (t : Time) (acknowledged : Bool) :
    InOrder sequence { a with taken := a.taken ++ [⟨t, tx, acknowledged⟩] } := by
  rw [InOrder, List.map_append, h, List.length_append, List.length_singleton, List.range'_1_concat,
    List.map_append]
  exact congrArg (_ ++ [·]) htx

theorem Settled.of_acknowledged (h : ∀ e ∈ a.taken, e.acknowledged = true) : a.Settled delay :=
  fun e he hlost => absurd ((h e he).symm.trans hlost) (by simp)

theorem Orderly.take (h : a.Orderly sequence)
    (htx : a.Settled delay → tx.sequences = [sequence + a.taken.length]) (t : Time)
    (acknowledged : Bool) :
    Orderly sequence { a with taken := a.taken ++ [⟨t, tx, acknowledged⟩] } := by
  intro hall
  have hall : ∀ e ∈ a.taken, e.acknowledged = true := fun e he => hall e (List.mem_append_left _ he)
  exact (h hall).take (htx (.of_acknowledged hall)) t acknowledged

theorem mem_acknowledged {t : Time} : t ∈ a.acknowledged ↔ ∃ e ∈ a.taken, e.acknowledged = true ∧
    e.time = t := by
  simp [acknowledged, and_assoc]

end CosmosAccount

theorem SdkTx.sequences_setSignatures (tx : SdkTx) (sig : SignatureV2) :
    (tx.setSignatures [sig]).sequences = [sig.sequence.toNat] := rfl

/-- A call that is neither a broadcast nor asks for the sequence. -/
def SubmitCall.plain : SubmitCall → Bool
  | .accountInfo _ => false
  | .broadcastTxSync _ => false
  | _ => true

namespace CosmosSubmitter

variable (client : CosmosSubmitter) (address : String) (sequence : Nat) (committedWithin : Duration)

/-- What is to hold where a tx is broadcast: it has the next sequence, if the txs whose
answer got lost were a delay old when that was asked for, and what the node has
acknowledged is a delay old. -/
def Sends : SubmitCall → Pace CosmosAccount → Prop
  | .broadcastTxSync tx, s =>
    (s.node.Settled client.txSubmissionDelay → tx.sequences = [sequence + s.node.taken.length]) ∧
      s.Spaced client.txSubmissionDelay CosmosAccount.acknowledged
  | _, _ => True

/-- The calls of a delivery, with what they are answered by. -/
abbrev answers := Pace.Answers (CosmosAccount.Answers address sequence committedWithin)

/-- What a submission leaves. -/
abbrev Left {ε α : Type} (o : Except ε α) (s : Pace CosmosAccount) : Prop :=
  s.Left client.txSubmissionDelay CosmosAccount.acknowledged (CosmosAccount.Orderly sequence) o

/-- What is to hold at a call of the submission. -/
abbrev AtCall (c : SubmitCall) (s : Pace CosmosAccount) : Prop :=
  s.node.Orderly sequence ∧ client.Sends sequence c s

variable {client address sequence committedWithin} {s s' : Pace CosmosAccount}

/-- Such a call changes nothing. -/
theorem idle_of_plain {c : SubmitCall} {ans : c.Ans} (hc : c.plain = true)
    (h : answers address sequence committedWithin (.submission c) ans s s') : s.Idle s' := by
  obtain ⟨hclock, hlast, hnode⟩ := h
  refine ⟨hclock, hlast, ?_⟩
  cases c with
  | broadcastTxSync => cases hc
  | accountInfo => cases hc
  | sleep d => exact hnode.2
  | _ => exact hnode

theorem perform_wp {c : SubmitCall} (hc : c.plain = true) (hJ : s.node.Orderly sequence)
    {Q : c.Ans → Pace CosmosAccount → Prop}
    (h : ∀ ans s', s.Idle s' → answers address sequence committedWithin (.submission c) ans s s' →
      Q ans s') :
    wpRel (fun c => answers address sequence committedWithin (.submission c))
      (client.AtCall sequence) (perform c) Q s := by
  refine wpRel_perform.mpr ⟨⟨hJ, ?_⟩, fun ans s' hans => h ans s' (idle_of_plain hc hans) hans⟩
  cases c with
  | broadcastTxSync => cases hc
  | _ => trivial

/-- Signing leaves the signer info, with the sequence that was asked for. -/
theorem sign_sequences (chainID : String) (t : CosmosTransaction) (hJ : s.node.Orderly sequence) :
    wpRel (fun c => answers address sequence committedWithin (.submission c))
      (client.AtCall sequence) (client.signer.sign chainID t)
      (fun o s' => s.Idle s' ∧ ∀ t', o = .ok t' → t'.tx.sequences = [t.sequence.toNat]) s := by
  cases client.signer with
  | ofKey signer =>
    refine ⟨.refl s, ?_⟩
    rintro t' ⟨⟩
    exact SdkTx.sequences_setSignatures ..
  | ofWallet signer =>
    refine wpRel_try (wpRel_try (perform_wp rfl hJ fun ans s₁ h₁ _ => ?_))
    refine ⟨fun _ _ => of_error ⟨h₁, by simp⟩, fun signature _ => ?_⟩
    refine wpRel_try (perform_wp rfl (h₁.node ▸ hJ) fun ans s₂ h₂ _ => ?_)
    refine ⟨fun _ _ => of_error ⟨h₁.trans h₂, by simp⟩, fun key _ => ?_⟩
    refine of_ok ⟨h₁.trans h₂, ?_⟩
    rintro t' ⟨⟩
    exact SdkTx.sequences_setSignatures ..

theorem address_idle (hJ : s.node.Orderly sequence) :
    wpRel (fun c => answers address sequence committedWithin (.submission c))
      (client.AtCall sequence)
      (client.signer.address client.sdk.addressOf) (fun _ s' => s.Idle s') s := by
  cases client.signer with
  | ofKey signer => exact .refl s
  | ofWallet signer =>
    refine wpRel_bind.mpr (wpRel_bind.mpr (perform_wp rfl hJ fun ans s₁ h₁ _ => ?_))
    cases ans <;> exact h₁

theorem getEstimatedGasLimit_idle (txBuilder : SdkTx) (accountInfo : BaseAccount)
    (hJ : s.node.Orderly sequence) :
    wpRel (fun c => answers address sequence committedWithin (.submission c))
      (client.AtCall sequence)
      (client.getEstimatedGasLimit txBuilder accountInfo) (fun _ s' => s.Idle s') s := by
  refine wpRel_try ((sign_sequences _ _ hJ).post fun o s₁ h₁ =>
    ⟨fun _ _ => h₁.1, fun signedTx _ => ?_⟩)
  refine wpRel_try (perform_wp rfl (h₁.1.node ▸ hJ) fun ans s₂ h₂ _ => ?_)
  refine ⟨fun _ _ => h₁.1.trans h₂, fun gasUsed _ => ?_⟩
  cases gasUsed <;> exact h₁.1.trans h₂

/-- What is left once the node has been asked to take a tx. -/
theorem left_of_broadcast {tx : SdkTx} {ans : Except Err BroadcastResult}
    (hdelay : 0 ≤ client.txSubmissionDelay) (h : client.AtCall sequence (.broadcastTxSync tx) s)
    (hans : answers address sequence committedWithin (.submission (.broadcastTxSync tx)) ans s s') :
    s'.node.Orderly sequence ∧ (∀ t ∈ s'.node.acknowledged, t ≤ s'.clock) ∧
      ((∀ result, ans = .ok result → result.code ≠ 0) →
        s'.Spaced client.txSubmissionDelay CosmosAccount.acknowledged) := by
  obtain ⟨hclock, hlast, hnode⟩ := hans
  obtain ⟨hJ, htx, hspaced⟩ := h
  -- Nothing new has been acknowledged.
  have hkept (hJ' : s'.node.Orderly sequence) (hack : ∀ t ∈ s'.node.acknowledged,
      t ∈ s.node.acknowledged) :
      s'.node.Orderly sequence ∧ (∀ t ∈ s'.node.acknowledged, t ≤ s'.clock) ∧
        ((∀ result, ans = .ok result → result.code ≠ 0) →
          s'.Spaced client.txSubmissionDelay CosmosAccount.acknowledged) := by
    have hspaced' : s'.Spaced client.txSubmissionDelay CosmosAccount.acknowledged := fun t ht =>
      Int.le_trans (hspaced t (hack t ht)) hclock
    exact ⟨hJ', hspaced'.past hdelay, fun _ => hspaced'⟩
  cases ans with
  | error err =>
    rcases hnode with hnode | hnode
    · exact hkept (hnode ▸ hJ) (by rw [hnode]; exact fun _ ht => ht)
    · refine hkept (hnode ▸ hJ.take htx _ _) ?_
      rw [hnode]
      simp [CosmosAccount.acknowledged]
  | ok result =>
    by_cases hcode : result.code = 0
    · replace hnode : s'.node = { s.node with taken := s.node.taken ++ [⟨s'.clock, tx, true⟩] } :=
        hnode.trans (if_pos hcode)
      refine ⟨hnode ▸ hJ.take htx _ _, fun t ht => ?_, fun h => absurd hcode (h result rfl)⟩
      rw [hnode] at ht
      obtain ⟨e, he, hack, rfl⟩ := CosmosAccount.mem_acknowledged.mp ht
      rcases List.mem_append.mp he with he | he
      · exact Int.le_trans
          (hspaced.past hdelay _ (CosmosAccount.mem_acknowledged.mpr ⟨e, he, hack, rfl⟩)) hclock
      · rw [List.mem_singleton.mp he]
    · exact hkept (by rw [show s'.node = s.node from hnode.trans (if_neg hcode)]; exact hJ)
        (by rw [show s'.node = s.node from hnode.trans (if_neg hcode)]; exact fun _ ht => ht)

/-- A builder is signed with the sequence of the account info. -/
theorem broadcast_left (bech32Address : String) {accountInfo : BaseAccount} (txBuilder : SdkTx)
    (hdelay : 0 ≤ client.txSubmissionDelay) (hJ : s.node.Orderly sequence)
    (hs : s.Spaced client.txSubmissionDelay CosmosAccount.acknowledged)
    (hinfo : s.node.Settled client.txSubmissionDelay →
      accountInfo.sequence.toNat = sequence + s.node.taken.length) :
    wpRel (fun c => answers address sequence committedWithin (.submission c))
      (client.AtCall sequence)
      (client.broadcast bech32Address accountInfo txBuilder)
      (fun o s' => client.Left sequence o s') s := by
  refine wpRel_try ((sign_sequences _ _ hJ).post fun o s₁ h₁ => ?_)
  refine ⟨fun _ _ => .of_idle _ hdelay hJ hs h₁.1, fun signedTx ho => ?_⟩
  have hat : client.AtCall sequence (.broadcastTxSync signedTx.tx) s₁ := by
    refine ⟨h₁.1.node ▸ hJ, fun hsettled => ?_, hs.idle h₁.1⟩
    rw [h₁.1.node] at hsettled ⊢
    rw [h₁.2 signedTx ho]
    exact congrArg ([·]) (hinfo hsettled)
  refine wpRel_try (wpRel_perform.mpr ⟨hat, fun ans s₂ h₂ => ?_⟩)
  obtain ⟨hJ₂, hpast₂, hspaced₂⟩ := left_of_broadcast hdelay hat h₂
  refine ⟨fun err herr => ⟨hJ₂, hpast₂, fun _ _ => hspaced₂ (by simp [herr])⟩,
    fun result hresult => ?_⟩
  split
  · rename_i hcode
    refine ⟨hJ₂, hpast₂, fun _ _ => hspaced₂ fun result' hresult' => ?_⟩
    rw [Except.ok.inj (hresult'.symm.trans hresult)]
    exact hcode
  · exact ⟨hJ₂, hpast₂, by simp⟩

/-- What the client is told: where the delay has passed since every tx that the node took,
all are committed, and the account has the next sequence. -/
theorem sequence_of_accountInfo {addr : String} {info : BaseAccount}
    (hwithin : committedWithin ≤ client.txSubmissionDelay)
    (hs : s.Spaced client.txSubmissionDelay CosmosAccount.acknowledged)
    (h : answers address sequence committedWithin (.submission (.accountInfo addr))
      (.ok (some info)) s s') :
    s'.node.taken = s.node.taken ∧ (s'.node.Settled client.txSubmissionDelay →
      info.sequence.toNat = sequence + s'.node.taken.length) := by
  obtain ⟨hclock, -, hnode, -, committed, hle, hsequence, hrest⟩ := h
  rw [hnode]
  refine ⟨rfl, fun hsettled => ?_⟩
  -- one that is not committed would be younger than `committedWithin`
  have hnone : s.node.taken.drop committed = [] := by
    refine List.eq_nil_iff_forall_not_mem.mpr fun e he => ?_
    have hold : e.time + client.txSubmissionDelay ≤ s'.clock := by
      have hm := List.mem_of_mem_drop he
      cases hack : e.acknowledged with
      | true =>
        have hle := hs e.time (CosmosAccount.mem_acknowledged.mpr ⟨e, hm, hack, rfl⟩)
        exact Int.le_trans hle hclock
      | false => exact hsettled e hm hack
    exact absurd (Int.lt_of_le_of_lt (Int.le_trans (Int.add_le_add_left hwithin _) hold)
      (hrest e he)) (Int.lt_irrefl _)
  rw [hsequence, Nat.le_antisymm hle (List.drop_eq_nil_iff.mp hnone)]

theorem signAndSubmitMessages_left (msgs : List SdkMsg) (hdelay : 0 ≤ client.txSubmissionDelay)
    (hwithin : committedWithin ≤ client.txSubmissionDelay) (hJ : s.node.Orderly sequence)
    (hs : s.Spaced client.txSubmissionDelay CosmosAccount.acknowledged) :
    wpRel (fun c => answers address sequence committedWithin (.submission c))
      (client.AtCall sequence)
      (client.signAndSubmitMessages msgs) (fun o s' => client.Left sequence o s') s := by
  refine wpRel_bind.mpr ((address_idle hJ).post fun addr s₁ h₁ => ?_)
  split
  · exact .of_idle _ hdelay hJ hs h₁
  rename_i bech32Address _
  replace hJ : s₁.node.Orderly sequence := h₁.node ▸ hJ
  replace hs := hs.idle h₁
  refine wpRel_try (wpRel_perform.mpr ⟨⟨hJ, trivial⟩, fun ans s₂ h₂ =>
    ⟨?_, fun account haccount => ?_⟩⟩)
  · rintro err rfl
    exact .of_idle _ hdelay hJ hs ⟨h₂.1, h₂.2.1, h₂.2.2⟩
  subst haccount
  cases account with
  | none => exact .of_idle _ hdelay hJ hs ⟨h₂.1, h₂.2.1, h₂.2.2⟩
  | some accountInfo =>
    obtain ⟨htaken, hsequence⟩ := sequence_of_accountInfo hwithin hs h₂
    replace hJ : s₂.node.Orderly sequence := by
      rw [CosmosAccount.Orderly, CosmosAccount.InOrder, htaken]
      exact hJ
    replace hs : s₂.Spaced client.txSubmissionDelay CosmosAccount.acknowledged := fun t ht => by
      rw [CosmosAccount.acknowledged, htaken] at ht
      exact Int.le_trans (hs t ht) h₂.1
    refine wpRel_try ((getEstimatedGasLimit_idle _ accountInfo hJ).post fun o s₃ h₃ => ?_)
    refine ⟨fun _ _ => .of_idle _ hdelay hJ hs h₃, fun estimate _ => ?_⟩
    split
    · exact .of_idle _ hdelay hJ hs h₃
    · refine broadcast_left bech32Address _ hdelay (h₃.node ▸ hJ) (hs.idle h₃) ?_
      rw [h₃.node]
      exact hsequence

/-- The loop sleeps after each tx that was acknowledged, so it ends with all of them a
delay old, also if it ends early. -/
theorem submitUpdates_spaced (numClientUpdates : Nat) (msgs : List SdkMsg) (numSubmitted : Nat)
    (others : List SdkMsg) (hdelay : 0 ≤ client.txSubmissionDelay)
    (hwithin : committedWithin ≤ client.txSubmissionDelay)
    (hJ : s.node.Orderly sequence)
    (hs : s.Spaced client.txSubmissionDelay CosmosAccount.acknowledged) :
    wpRel (fun c => answers address sequence committedWithin (.submission c))
      (client.AtCall sequence) (client.submitUpdates numClientUpdates msgs numSubmitted others)
      (fun _ s' => s'.node.Orderly sequence ∧
      s'.Spaced client.txSubmissionDelay CosmosAccount.acknowledged) s := by
  induction msgs generalizing numSubmitted others s with
  | nil => exact ⟨hJ, hs⟩
  | cons msg msgs ih =>
    rw [submitUpdates]
    split
    · exact ih numSubmitted _ hJ hs
    · refine wpRel_try ((signAndSubmitMessages_left [msg] hdelay hwithin hJ hs).post
        fun o s₁ h₁ => ?_)
      refine ⟨fun e he => ⟨h₁.node, h₁.spaced e he⟩, fun hash _ => ?_⟩
      refine wpRel_bind.mpr (perform_wp rfl h₁.node fun _ s₂ h₂ hslept => ?_)
      refine ih (numSubmitted + 1) others (h₂.node ▸ h₁.node) fun t ht => ?_
      exact Int.le_trans (Int.add_le_add_right (h₁.past t (h₂.node ▸ ht)) _) hslept.2.2.1

theorem signAndSubmit_left (bz : List UInt8) (hdelay : 0 ≤ client.txSubmissionDelay)
    (hwithin : committedWithin ≤ client.txSubmissionDelay) (hJ : s.node.Orderly sequence)
    (hs : s.Spaced client.txSubmissionDelay CosmosAccount.acknowledged) :
    wpRel (fun c => answers address sequence committedWithin (.submission c))
      (client.AtCall sequence)
      (client.signAndSubmit bz) (fun o s' => client.Left sequence o s') s := by
  unfold signAndSubmit
  split
  · exact .of_idle _ hdelay hJ hs (.refl s)
  split
  · exact .of_idle _ hdelay hJ hs (.refl s)
  split
  · exact .of_idle _ hdelay hJ hs (.refl s)
  dsimp only
  split
  · refine wpRel_try ((submitUpdates_spaced _ _ 0 [] hdelay hwithin hJ hs).post fun o s₁ h₁ => ?_)
    exact ⟨fun _ _ => .of_idle _ hdelay h₁.1 h₁.2 (.refl s₁), fun rest _ =>
      signAndSubmitMessages_left rest hdelay hwithin h₁.1 h₁.2⟩
  · exact signAndSubmitMessages_left _ hdelay hwithin hJ hs

theorem deliverTx_inv (bz : List UInt8) (hdelay : 0 ≤ client.txSubmissionDelay)
    (hwithin : committedWithin ≤ client.txSubmissionDelay)
    (h : s.Inv client.txSubmissionDelay CosmosAccount.acknowledged
      (CosmosAccount.Orderly sequence)) :
    wpRel (answers address sequence committedWithin)
      (atSubmission (CosmosAccount.Orderly sequence) (client.Sends sequence)) (client.deliverTx bz)
      (fun _ s' => s'.Inv client.txSubmissionDelay CosmosAccount.acknowledged
      (CosmosAccount.Orderly sequence)) s := by
  refine paced_inv (fun s hJ hs => ?_) h
  refine wpRel_bind.mpr (wpRel_submits ((address_idle hJ).post fun addr s₁ h₁ => ?_))
  split
  · exact .of_idle _ hdelay hJ hs h₁
  rename_i bech32Address _
  refine wpRel_try (wpRel_submits
    ((signAndSubmit_left bz hdelay hwithin (h₁.node ▸ hJ) (hs.idle h₁)).post fun o s₂ h₂ => ?_))
  refine ⟨fun e he => (he ▸ h₂).wrap _, fun hash _ => ?_⟩
  refine wpRel_bind.mpr (wpRel_perform.mpr ⟨h₂.node, ?_⟩)
  rintro now _ ⟨hnow, rfl⟩
  exact ⟨h₂.node, fun t ht => Int.le_trans (h₂.past t ht) hnow, by simp⟩

/-- Any number of calls of `DeliverTx`, before the first of them. -/
def deliveries (client : CosmosSubmitter) {ι : Type} (bz : ι → List UInt8) (start : Time) :
    (ι → Prog (LockCall (DeliveryCall SubmitCall))
      (LockCall.Ans fun c => DeliveryCall.Ans SubmitCall.Ans c × Pace CosmosAccount)
      (Except Err BridgeTx)) × Locked (Pace CosmosAccount) :=
  (fun i => ((client.deliverTx (bz i)).blind _).critical, ⟨false, ⟨start, Time.zero, {}⟩⟩)

/-- A node that works and answers at once, or whose answers to txs get lost. -/
def someReply (address : String) (sequence : Nat) (lost : Bool) :
    (c : SubmitCall) → Time → CosmosAccount → c.Ans × Time × CosmosAccount
  | .sign .., t, a => (.ok none, t, a)
  | .getWallet _, t, a => (.ok [], t, a)
  | .accountInfo addr, t, a =>
    if addr = address ∧ sequence + a.taken.length < 2 ^ 64 then
      (.ok (some ⟨7, .ofNat (sequence + a.taken.length)⟩), t, { a with asked := t })
    else (.ok none, t, a)
  | .simulate _, t, a => (.ok (some 100), t, a)
  | .broadcastTxSync tx, t, a =>
    (if lost then .error (newErr "timeout") else .ok ⟨0, "", []⟩, t,
      { a with taken := a.taken ++ [⟨t, tx, !lost⟩] })
  | .sleep d, t, a => ((), max t (t + d), a)

theorem someReply_answers (address : String) (sequence : Nat) (lost : Bool)
    (committedWithin : Duration) (c : DeliveryCall SubmitCall) (s : Pace CosmosAccount) :
    answers address sequence committedWithin c
      (Pace.reply (someReply address sequence lost) c s).1 s
      (Pace.reply (someReply address sequence lost) c s).2 := by
  refine Pace.reply_answers (fun c t a => ?_) (fun c t a => ?_) c s
  · cases c with
    | sleep d => exact Int.le_max_left ..
    | accountInfo addr =>
      rw [someReply]
      split <;> exact Int.le_refl _
    | _ => exact Int.le_refl _
  · cases c with
    | accountInfo addr =>
      by_cases haddr : addr = address ∧ sequence + a.taken.length < 2 ^ 64
      · simp only [someReply, if_pos haddr]
        refine ⟨rfl, haddr.1, a.taken.length, Nat.le_refl _, UInt64.toNat_ofNat_of_lt' haddr.2, ?_⟩
        simp
      · simp only [someReply, if_neg haddr]
        rfl
    | sleep d => exact ⟨Int.le_max_right .., rfl⟩
    | broadcastTxSync tx =>
      cases lost with
      | false => exact (if_pos rfl).symm
      | true => exact .inr rfl
    | _ => rfl

end CosmosSubmitter

/-- In every interleaving of calls of `DeliverTx` on a Cosmos client, if the node
commits what it takes within the delay: at most one call is inside the lock, the txs
that the node took are signed with sequences that follow one another if no answer got
lost, a tx that is broadcast comes a delay after all that the node has acknowledged and
has the next sequence if the txs whose answer got lost were a delay old when that was
asked for, and every call can still return. -/
theorem cosmos_deliveries_in_order {client : CosmosSubmitter} {committedWithin : Duration}
    (hdelay : 0 ≤ client.txSubmissionDelay) (hwithin : committedWithin ≤ client.txSubmissionDelay)
    {ι : Type} [DecidableEq ι] {bz : ι → List UInt8} {start : Time} {address : String}
    {sequence : Nat} {ps : ι → Prog (LockCall (DeliveryCall SubmitCall))
      (LockCall.Ans fun c => DeliveryCall.Ans SubmitCall.Ans c × Pace CosmosAccount)
      (Except Err BridgeTx)}
    {s : Locked (Pace CosmosAccount)}
    (hrun : ReflTransGen
      (Turn (Sem.rel (CosmosSubmitter.answers address sequence committedWithin)).locked)
      (client.deliveries bz start) (ps, s)) :
    (∀ i j q q', ps i = inside q → ps j = inside q' → i = j) ∧
      ((∀ e ∈ s.state.node.taken, e.acknowledged = true) → s.state.node.InOrder sequence) ∧
      (∀ i tx, (ps i).next? = some (.work (.submission (.broadcastTxSync tx))) →
        (s.state.node.Settled client.txSubmissionDelay →
          tx.sequences = [sequence + s.state.node.taken.length]) ∧
        ∀ e ∈ s.state.node.taken, e.acknowledged = true →
          e.time + client.txSubmissionDelay ≤ s.state.clock) ∧
      ∀ i, ∃ y result,
      ReflTransGen (Turn
      (Sem.rel (CosmosSubmitter.answers address sequence committedWithin)).locked)
        (ps, s) y ∧ y.1 i = .ret result := by
  have hstart : Pace.Inv client.txSubmissionDelay CosmosAccount.acknowledged
      (CosmosAccount.Orderly sequence)
      ⟨start, Time.zero, {}⟩ :=
    ⟨fun _ => rfl, by simp [CosmosAccount.acknowledged], by simp [CosmosAccount.acknowledged]⟩
  have hheld : Held (Sem.rel (CosmosSubmitter.answers address sequence committedWithin))
      (fun i => (client.deliverTx (bz i)).blind _)
      (fun _ => atSubmission (CosmosAccount.Orderly sequence) (client.Sends sequence))
      (Pace.Inv client.txSubmissionDelay CosmosAccount.acknowledged
        (CosmosAccount.Orderly sequence)) (ps, s) :=
    (Held.start _ hstart).turns
      (fun i s hs => CosmosSubmitter.deliverTx_inv (bz i) hdelay hwithin hs) hrun
  refine ⟨fun i j q q' hi hj => hheld.exclusive hi hj, node_of_held hheld, fun i tx hi => ?_,
    fun i => ?_⟩
  · obtain ⟨-, htx, hspaced⟩ := hheld.next hi
    exact ⟨htx, fun e he hack =>
      hspaced e.time (CosmosAccount.mem_acknowledged.mpr ⟨e, he, hack, rfl⟩)⟩
  · exact hheld.exists_returned
      (fun c s => ⟨_, CosmosSubmitter.someReply_answers address sequence false committedWithin c s⟩)
      i

/-- A Cosmos client, with the delay that all of them have. -/
def someCosmosSubmitter : CosmosSubmitter := { byteClient with txSubmissionDelay := 8 * second }

/-- What is left of a call that is inside, and the state, after `n` calls to such a
node. -/
def CosmosSubmitter.runTo (client : CosmosSubmitter) (sequence : Nat) (lost : Bool)
    (bz : List UInt8) (n : Nat) (s : Pace CosmosAccount) :
    Prog (DeliveryCall SubmitCall) (fun c => DeliveryCall.Ans SubmitCall.Ans c × Pace CosmosAccount)
      (Except Err BridgeTx) × Pace CosmosAccount :=
  runN (Sem.rel (CosmosSubmitter.answers "cosmos1" sequence (6 * second))).next
    (Pace.reply (CosmosSubmitter.someReply "cosmos1" sequence lost)) n
    ((client.deliverTx bz).blind _) s

theorem CosmosSubmitter.steps_runTo (client : CosmosSubmitter) (sequence : Nat) (lost : Bool)
    (bz : List UInt8) (n : Nat) (s : Pace CosmosAccount) :
    Steps (Sem.rel (CosmosSubmitter.answers "cosmos1" sequence (6 * second)))
      ((client.deliverTx bz).blind _) s
      (client.runTo sequence lost bz n s).1 (client.runTo sequence lost bz n s).2 :=
  steps_runN (S := Sem.rel (CosmosSubmitter.answers "cosmos1" sequence (6 * second)))
    (CosmosSubmitter.someReply_answers "cosmos1" sequence lost (6 * second)) n _ s

/-- The tx that is broadcast by a call. -/
def DeliveryCall.broadcastTx : DeliveryCall SubmitCall → Option SdkTx
  | .submission (.broadcastTxSync tx) => some tx
  | _ => none

theorem DeliveryCall.eq_of_broadcastTx {c : DeliveryCall SubmitCall} {tx : SdkTx}
    (h : c.broadcastTx = some tx) : c = .submission (.broadcastTxSync tx) := by
  cases c with
  | submission c =>
    cases c with
    | broadcastTxSync => rw [Option.some.inj h]
    | _ => cases h
  | _ => cases h

/-- The answer to the tx of one call got lost. The other call has two updates to submit: the
node took the first, and the second is about to be broadcast. -/
theorem cosmos_deliveries_in_order_two : ∃ ps s tx,
    ReflTransGen (Turn (Sem.rel (CosmosSubmitter.answers "cosmos1" 3 (6 * second))).locked)
      (someCosmosSubmitter.deliveries (fun i : Bool => if i then [0, 0, 5] else [5]) 0) (ps, s) ∧
    (ps true).next? = some (.work (.submission (.broadcastTxSync tx))) ∧
    s.state.node.taken.map (·.acknowledged) = [false, true] ∧ tx.sequences = [5] ∧
    ∀ e ∈ s.state.node.taken, e.acknowledged = true →
      e.time + someCosmosSubmitter.txSubmissionDelay ≤ s.state.clock := by
  obtain ⟨result, hresult⟩ : ∃ result,
      (someCosmosSubmitter.runTo 3 true [5] 8 ⟨0, Time.zero, {}⟩).1.result? = some result :=
    Option.isSome_iff_exists.mp (by decide +kernel)
  have hfirst := someCosmosSubmitter.steps_runTo 3 true [5] 8 ⟨0, Time.zero, {}⟩
  rw [result?_eq_some hresult] at hfirst
  -- the state stays a variable, so that nothing but `decide` evaluates it
  generalize hs₁ : (someCosmosSubmitter.runTo 3 true [5] 8 ⟨0, Time.zero, {}⟩).2 = s₁ at hfirst
  have hlost : (someCosmosSubmitter.runTo 3 false [0, 0, 5] 8 s₁).2.node.taken.map
      (·.acknowledged) = [false, true] := by
    subst hs₁
    decide +kernel
  have hsettled : (someCosmosSubmitter.runTo 3 false [0, 0, 5] 8 s₁).2.node.Settled
      someCosmosSubmitter.txSubmissionDelay := by
    subst hs₁
    unfold CosmosAccount.Settled
    decide +kernel
  obtain ⟨tx, htx⟩ : ∃ tx,
      (someCosmosSubmitter.runTo 3 false [0, 0, 5] 8 s₁).1.next?.bind DeliveryCall.broadcastTx =
        some tx := by
    subst hs₁
    exact Option.isSome_iff_exists.mp (by decide +kernel)
  obtain ⟨c, hc, hsent⟩ := Option.bind_eq_some_iff.mp htx
  obtain ⟨ps, hrun, hps⟩ := turns_left_entered
    (p := fun i : Bool => (someCosmosSubmitter.deliverTx (if i then [0, 0, 5] else [5])).blind _)
    (i := false) (j := true) (by decide) hfirst
    (someCosmosSubmitter.steps_runTo 3 false [0, 0, 5] 8 s₁)
  have hnext : (ps true).next? = some (.work (.submission (.broadcastTxSync tx))) := by
    rw [hps, next?_inside hc, DeliveryCall.eq_of_broadcastTx hsent]
  obtain ⟨-, -, hsend, -⟩ := cosmos_deliveries_in_order (by decide) (by decide) hrun
  obtain ⟨hsequence, hspaced⟩ := hsend true tx hnext
  generalize someCosmosSubmitter.runTo 3 false [0, 0, 5] 8 s₁ = r
    at hrun hlost hsettled hsequence hspaced
  have hlength : r.2.node.taken.length = 2 := by simpa using congrArg List.length hlost
  have hnextSequence : tx.sequences = [3 + r.2.node.taken.length] := hsequence hsettled
  rw [hlength] at hnextSequence
  exact ⟨ps, _, tx, hrun, hnext, hlost, hnextSequence, hspaced⟩

end PlatformRelayer

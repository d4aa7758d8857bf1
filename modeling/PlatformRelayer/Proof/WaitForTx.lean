import Mathlib.Data.Nat.Find
import Mathlib.Tactic.Ring
import PlatformRelayer.Bridges.WaitForTx

/-!
# How long a wait for a tx takes

The timeout is looked at in an iteration only if the node answered without an
error. So the wait is over by the first iteration after the timeout if the answer
in it is not an error that is retried, and otherwise only if the node had given
an answer that ends the wait before (`wait_isSome_iff`). A node that keeps
answering that the tx is not found keeps the client waiting for ever
(`wait_eq_none`).
-/

namespace PlatformRelayer

section Loop

variable {ι α : Type} {body : ι → Option α} {input : Nat → ι}

theorem loopN_isSome_iff (n : Nat) : (loopN body input n).isSome ↔
    ∃ i < n, (body (input i)).isSome := by
  induction n with
  | zero => simp [loopN]
  | succ n ih =>
    rw [loopN, Option.isSome_or, Bool.or_eq_true, ih]
    constructor
    · rintro (⟨i, hi, h⟩ | h)
      · exact ⟨i, by omega, h⟩
      · exact ⟨n, by omega, h⟩
    · rintro ⟨i, hi, h⟩
      rcases Nat.lt_succ_iff_lt_or_eq.mp hi with hi | rfl
      · exact .inl ⟨i, hi, h⟩
      · exact .inr h

theorem loopN_eq_none (h : ∀ i, body (input i) = none) (n : Nat) : loopN body input n = none := by
  rw [← Option.not_isSome_iff_eq_none, loopN_isSome_iff]
  rintro ⟨i, -, hi⟩
  simp [h i] at hi

end Loop

section Poll

variable {R : Type} {onError : Err → Option Err} {timeoutFormat : String} {hash : List UInt8}
  {start : Time}

/-- The timeout has elapsed. -/
def Poll.Late (start : Time) (p : Poll R) : Prop := waitTimeout < p.now - start

/-- The node answers with an error after which it is asked again. -/
def Poll.Retried (onError : Err → Option Err) (hash : List UInt8) (p : Poll R) : Prop :=
  ∃ err, p.answer hash = .error err ∧ onError err = none

/-- The node answers with the tx, or with an error that ends the wait. -/
def Poll.Settled (onError : Err → Option Err) (hash : List UInt8) (p : Poll R) : Prop :=
  (∃ r, p.answer hash = .ok (some r)) ∨ ∃ err, p.answer hash = .error err ∧ onError err ≠ none

theorem Poll.iteration_isSome_iff {p : Poll R} (hdone : p.done = none) :
    (p.iteration onError timeoutFormat hash start).isSome ↔
      p.Settled onError hash ∨ p.Late start ∧ ¬p.Retried onError hash := by
  rw [Poll.iteration, hdone]
  cases ha : p.answer hash with
  | error err => simp [Poll.Settled, Poll.Retried, ha, Option.ne_none_iff_isSome]
  | ok result =>
    cases result with
    | some r => simp [Poll.Settled, ha]
    | none =>
      by_cases hlate : p.now - start > waitTimeout
      · simp [Poll.Settled, Poll.Retried, Poll.Late, ha, hlate]
      · simp [Poll.Settled, Poll.Late, ha, hlate]

/-- The context is not cancelled, and the clock advances by a tick at least in
each iteration. -/
structure Steady (start : Time) (polls : Nat → Poll R) : Prop where
  done (i : Nat) : (polls i).done = none
  first : start + waitTick ≤ (polls 0).now
  next (i : Nat) : (polls i).now + waitTick ≤ (polls (i + 1)).now

/-- Iteration `n` is the first one after the timeout. -/
def FirstLate (start : Time) (polls : Nat → Poll R) (n : Nat) : Prop :=
  (polls n).Late start ∧ ∀ i < n, ¬(polls i).Late start

variable {polls : Nat → Poll R}

theorem Steady.now_ge (h : Steady start polls)
    (i : Nat) : start + (i + 1) * waitTick ≤ (polls i).now := by
  induction i with
  | zero => simpa using h.first
  | succ i ih =>
    calc start + (((i + 1 : Nat) : Int) + 1) * waitTick =
      start + (i + 1) * waitTick + waitTick := by push_cast; ring
      _ ≤ (polls i).now + waitTick := Int.add_le_add_right ih _
      _ ≤ (polls (i + 1)).now := h.next i

/-- The timeout has elapsed after 21 ticks. -/
theorem Steady.exists_firstLate (h : Steady start polls) : ∃ n ≤ 20, FirstLate start polls n := by
  classical
  have hlate : (polls 20).Late start := by
    refine Int.lt_sub_left_of_add_lt ?_
    calc start + waitTimeout <
      start + ((20 : Nat) + 1) * waitTick := Int.add_lt_add_left (by decide) _
      _ ≤ (polls 20).now := h.now_ge 20
  have hex : ∃ n, (polls n).Late start := ⟨20, hlate⟩
  exact ⟨Nat.find hex, Nat.find_min' hex hlate, Nat.find_spec hex, fun i hi => Nat.find_min hex hi⟩

theorem wait_isSome_iff (h : Steady start polls) {n : Nat} (hn : FirstLate start polls n) :
    (loopN (Poll.iteration onError timeoutFormat hash start) polls (n + 1)).isSome ↔
      (∃ i < n, (polls i).Settled onError hash) ∨ ¬(polls n).Retried onError hash := by
  rw [loopN_isSome_iff]
  constructor
  · rintro ⟨i, hi, hsome⟩
    rcases (Poll.iteration_isSome_iff (h.done i)).mp hsome with hsettled | ⟨hlate, hretried⟩
    · rcases Nat.lt_succ_iff_lt_or_eq.mp hi with hi | rfl
      · exact .inl ⟨i, hi, hsettled⟩
      · refine .inr ?_
        rintro ⟨err, herr, hnone⟩
        rcases hsettled with ⟨r, hr⟩ | ⟨err', herr', hsome⟩
        · exact absurd (herr.symm.trans hr) (by simp)
        · rw [herr] at herr'
          cases herr'
          exact hsome hnone
    · -- An iteration that is late is the first late one.
      obtain rfl : i = n := by
        by_contra hne
        exact hn.2 i (by omega) hlate
      exact .inr hretried
  · rintro (⟨i, hi, hsettled⟩ | hretried)
    · exact ⟨i, by omega, (Poll.iteration_isSome_iff (h.done i)).mpr (.inl hsettled)⟩
    · exact ⟨n, by omega, (Poll.iteration_isSome_iff (h.done n)).mpr (.inr ⟨hn.1, hretried⟩)⟩

theorem wait_eq_none (h : Steady start polls) (hretried : ∀ i, (polls i).Retried onError hash)
    (n : Nat) : loopN (Poll.iteration onError timeoutFormat hash start) polls n = none := by
  refine loopN_eq_none (fun i => ?_) n
  obtain ⟨err, herr, hnone⟩ := hretried i
  rw [Poll.iteration, h.done, herr]
  simp [hnone]

end Poll

/-- The wait of a client is over by the first iteration after the timeout just if the
node's answers were such, and never ends if all of them are retried. -/
structure BoundedIff {R : Type} (wait : Nat → Option (Except Err Unit)) (onError : Err → Option Err)
    (hash : List UInt8) (start : Time) (polls : Nat → Poll R) : Prop where
  elapses : ∃ n ≤ 20, FirstLate start polls n
  bounded_iff (n : Nat) : FirstLate start polls n → ((wait (n + 1)).isSome ↔
    (∃ i < n, (polls i).Settled onError hash) ∨ ¬(polls n).Retried onError hash)
  never : (∀ i, (polls i).Retried onError hash) → ∀ n, wait n = none

theorem wait_for_tx_bounded_iff (hash : String) (start : Time) :
    (∀ polls : Nat → Poll Receipt, Steady start polls →
      BoundedIff (EVMBridgeClient.waitForTx hash start polls) (fun _ => none) (hexToHash hash) start
      polls) ∧
    ∀ polls : Nat → Poll ResultTx, Steady start polls →
      (∀ hashBytes, hexDecodeString hash = .ok hashBytes →
        BoundedIff (CosmosBridgeClient.waitForTx hash start polls) CosmosBridgeClient.waitError
        hashBytes start polls) ∧
      ∀ err, hexDecodeString hash = .error err → ∀ n,
      (CosmosBridgeClient.waitForTx hash start polls n).isSome := by
  refine ⟨fun polls h => ⟨h.exists_firstLate, fun n hn => wait_isSome_iff h hn, fun hr =>
    wait_eq_none h hr⟩, fun polls h => ⟨fun hashBytes hd => ?_, fun err hd n => ?_⟩⟩
  · have hwait : CosmosBridgeClient.waitForTx hash start polls = loopN
        (Poll.iteration CosmosBridgeClient.waitError
        "timeout after waiting %s for transaction result" hashBytes start) polls := by
      funext n
      rw [CosmosBridgeClient.waitForTx, hd]
    rw [hwait]
    exact ⟨h.exists_firstLate, fun n hn => wait_isSome_iff h hn, fun hr => wait_eq_none h hr⟩
  · rw [CosmosBridgeClient.waitForTx, hd]
    rfl

/-- A node that gives one answer, asked at each tick. -/
def sameAnswer {R : Type} (answer : Except Err (Option R)) (i : Nat) : Poll R where
  answer := fun _ => answer
  now := (i + 1) * waitTick

theorem steady_sameAnswer {R : Type} (answer : Except Err (Option R)) :
    Steady 0 (sameAnswer answer) where
  done _ := rfl
  first := by
    change (0 : Int) + waitTick ≤ ((0 : Nat) + 1) * waitTick
    decide
  next i := by
    refine le_of_eq ?_
    simp only [sameAnswer]
    push_cast
    ring

/-- Two nodes that answer with a nil result. -/
theorem wait_for_tx_bounded_nil :
    (∃ n ≤ 20, (EVMBridgeClient.waitForTx "" 0 (sameAnswer (.ok none)) (n + 1)).isSome) ∧
      ∃ n ≤ 20, (CosmosBridgeClient.waitForTx "" 0 (sameAnswer (.ok none)) (n + 1)).isSome := by
  have hevm := (wait_for_tx_bounded_iff "" 0).1 _ (steady_sameAnswer (.ok none))
  have hcosmos := ((wait_for_tx_bounded_iff "" 0).2 _ (steady_sameAnswer (.ok none))).1 [] rfl
  obtain ⟨n, hn, hlate⟩ := hevm.elapses
  obtain ⟨m, hm, hlate'⟩ := hcosmos.elapses
  refine ⟨⟨n, hn, (hevm.bounded_iff n hlate).mpr (.inr ?_)⟩, m, hm,
    (hcosmos.bounded_iff m hlate').mpr (.inr ?_)⟩
  · rintro ⟨err, herr, -⟩
    cases herr
  · rintro ⟨err, herr, -⟩
    cases herr

/-- Two nodes that do not find the tx. -/
theorem wait_for_tx_unbounded :
    (∃ polls : Nat → Poll Receipt, Steady 0 polls ∧
      ∀ n, EVMBridgeClient.waitForTx "" 0 polls n = none) ∧
      ∃ polls : Nat → Poll ResultTx, Steady 0 polls ∧
      ∀ n, CosmosBridgeClient.waitForTx "" 0 polls n = none := by
  have hretried (i : Nat) : (sameAnswer (R := ResultTx) (.error (newErr "not found")) i).Retried
      CosmosBridgeClient.waitError [] := ⟨_, rfl, if_pos (by decide)⟩
  exact ⟨⟨_, steady_sameAnswer (.error (newErr "not found")),
      wait_eq_none (steady_sameAnswer _) fun _ => ⟨_, rfl, rfl⟩⟩,
    _, steady_sameAnswer (.error (newErr "not found")), wait_eq_none (steady_sameAnswer _) hretried⟩

end PlatformRelayer

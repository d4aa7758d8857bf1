import PlatformRelayer.Proof.Runs

/-!
# What the batch middleware returns

The middleware is followed here with its lists as a whole, whatever batch
processor it wraps. A transfer whose state cannot be written gets into both of
its lists (`Routed.updated`), and with it into what is handed to the processor
and, once more, into what is returned: the batch is conserved just where all
updates of the state succeed (`batch_conserved_iff`).
-/

namespace PlatformRelayer

open Db Prog

/-- The statements that failed, with their errors. -/
def failedStatements (tr : List Event) : List (Query × Err) :=
  tr.filterMap fun
    | ⟨.exec q, .error err⟩ => some (q, err)
    | _ => none

/-- A call that is no statement fails none. -/
theorem failedStatements_cons {c : Call} (hc : c.queries = []) (ans : c.Ans) (tr : List Event) :
    failedStatements (⟨c, ans⟩ :: tr) = failedStatements tr := by
  cases c <;> first | rfl | cases hc

namespace IBCV2BatchProcessor

variable (p : IBCV2BatchProcessor)

/-- Its guard makes no statement. -/
def GuardReads : Prop :=
  ∀ t w, wp world (fun c _ => c.queries = []) (p.shouldProcess t) (fun _ _ => True) w

/-- On success it returns its transfers, in some order, and its errors are not
those of a cancelled context. -/
def Conserving : Prop :=
  ∀ transfers h w, wp world (fun _ _ => True) (p.process transfers h)
    (fun x _ => (∀ out, x.1 = .ok out → out.Perm transfers) ∧
      ∀ err, x.1 = .error err → err.is .contextCanceled = false) w

end IBCV2BatchProcessor

theorem failedStatements_of_reads {α : Type} {x : Relay α} {w : World}
    (h : wp world (fun c _ => c.queries = []) x (fun _ _ => True) w) :
    wp world (fun _ _ => True) x
      (fun _ w' => failedStatements w'.trace = failedStatements w.trace) w := by
  induction x generalizing w with
  | ret a => rfl
  | call c k ih =>
    refine ⟨trivial, fun ans hans => ?_⟩
    have hk := ih ans (h.2 ans hans)
    rwa [show failedStatements (world.next c ans w).trace = _ from failedStatements_cons h.1 ans
      w.trace] at hk

section Loop

variable {p : IBCV2BatchProcessor} {batch rest : List Ref} {a : Routed} {w w' : World} {r : Ref}

/-- The invariant of the loop: the two lists hold what the loop has passed and,
once more, `again`, as many as updates failed. -/
def Routed.Passed (batch rest : List Ref) (a : Routed) (w : World) : Prop :=
  ∃ done again, batch = done ++ rest ∧ (a.toProcess ++ a.notProcessing).Perm (done ++ again) ∧
    again.length = (failedStatements w.trace).length

/-- A pass of the loop adds the transfer to the lists, and `more`. -/
theorem Routed.Passed.step {b : Routed} (h : Routed.Passed batch (r :: rest) a w) (more : List Ref)
    (hb : (b.toProcess ++ b.notProcessing).Perm (a.toProcess ++ a.notProcessing ++ ([r] ++ more)))
    (hw : (failedStatements w'.trace).length = (failedStatements w.trace).length + more.length) :
    Routed.Passed batch rest b w' := by
  obtain ⟨done, again, hbatch, hp, hl⟩ := h
  refine ⟨done ++ [r], again ++ more, by simp [hbatch], ?_, by rw [List.length_append, hl, hw]⟩
  have hswap : (done ++ again ++ ([r] ++ more)).Perm (done ++ [r] ++ (again ++ more)) := by
    simp only [List.perm_iff_count, List.count_append]
    omega
  exact (hb.trans (hp.append_right _)).trans hswap

theorem Routed.Passed.skip (h : Routed.Passed batch (r :: rest) a w)
    (hw : failedStatements w'.trace = failedStatements w.trace) :
    Routed.Passed batch rest (a.skip r) w' :=
  h.step [] (by simp [Routed.skip]) (by simp [hw])

theorem Routed.Passed.updated (h : Routed.Passed batch (r :: rest) a w) (q : Query)
    (state : Ibcv2RelayStatus)
    (ans : Except Err Unit) :
    Routed.Passed batch rest (a.updated r state ans) (world.next (.exec q) ans w) := by
  cases ans with
  | error err =>
    refine h.step [r] ?_ rfl
    simp only [Routed.updated, Routed.hand, Routed.skip, Routed.fail, List.perm_iff_count,
      List.count_append]
    omega
  | ok _ =>
    refine h.step [] ?_ rfl
    simp only [Routed.updated, Routed.hand, List.perm_iff_count, List.count_append, List.append_nil]
    omega

theorem routeOne_passed (hp : p.GuardReads) (h : Routed.Passed batch (r :: rest) a w) :
    wp world (fun _ _ => True) (IBCV2BatchProcessorMW.routeOne p r a)
      (Routed.Passed batch rest) w := by
  refine wp_routeOne (fun _ => h.skip rfl) fun _ =>
    (failedStatements_of_reads (hp (a.heap r) w)).post fun _ w₁ hw => ?_
  have h₁ : Routed.Passed batch (r :: rest) a w₁ := by rwa [Routed.Passed, hw]
  exact ⟨fun _ => h.skip hw, fun _ => ⟨trivial, fun ans => h₁.updated _ _ ans⟩⟩

theorem route_passed (hp : p.GuardReads) (batch : List Ref) (h : Heap) (db : Transfers) :
    wp world (fun _ _ => True) (IBCV2BatchProcessorMW.route p batch { heap := h })
      (Routed.Passed batch []) ⟨db, []⟩ :=
  wp_each _ (fun _ _ _ _ => routeOne_passed hp) batch _ ⟨[], [], rfl, .nil, rfl⟩

/-- What follows the loop returns what is in the two lists. -/
theorem finish_perm (hp : p.Conserving) (a : Routed) (w : World) :
    wp world (fun _ _ => True) (IBCV2BatchProcessorMW.finish p a)
      (fun x _ => ∃ out, x.1 = .ok out ∧ out.Perm (a.toProcess ++ a.notProcessing)) w := by
  refine wp_bind.mpr ((hp a.toProcess a.heap w).post fun x w' hx => ?_)
  obtain ⟨o, h'⟩ := x
  cases o with
  | error err =>
    change wp _ _ (if err.is .contextCanceled then _ else _) _ _
    rw [if_neg (by simp [hx.2 err rfl])]
    exact ⟨_, rfl, .refl _⟩
  | ok out => exact ⟨_, rfl, (hx.1 out rfl).append_right _⟩

end Loop

/-- A batch is conserved: what is returned is the batch, and a transfer whose
state could not be written was not handed to the processor, keeps its state
and has the error. -/
def Conserved (p : IBCV2BatchProcessor) (batch : List Ref) (h : Heap) (toProcess : List Ref)
    (tr : List Event) (out : List Ref) (h' : Heap) : Prop :=
  out.Perm batch ∧ ∀ r ∈ batch, ∀ err,
    (updateTransferState p.state (h r).key, err) ∈ failedStatements tr →
    r ∉ toProcess ∧ (h' r).state = (h r).state ∧
      (h' r).processingError = some (stateUpdateErr p.state (h r).state err)

/-- In every run of the middleware, with `a` the lists after its loop. -/
theorem batch_conserved_iff {p : IBCV2BatchProcessor} (hguard : p.GuardReads) (hp : p.Conserving)
    {batch : List Ref} {h h' : Heap} {o : Except Err (List Ref)} {db : Transfers} {w : World}
    (hrun : Steps world (IBCV2BatchProcessorMW.process p batch h) ⟨db, []⟩ (.ret (o, h')) w) :
    ∃ a w₁ out, Steps world (IBCV2BatchProcessorMW.route p batch { heap := h }) ⟨db, []⟩
      (.ret a) w₁ ∧ Steps world (IBCV2BatchProcessorMW.finish p a) w₁ (.ret (o, h')) w ∧
      o = .ok out ∧ (Conserved p batch h a.toProcess w₁.trace out h' ↔
      failedStatements w₁.trace = []) := by
  obtain ⟨a, w₁, hroute, hfinish⟩ := Steps.of_bind hrun
  obtain ⟨done, again, hb, hperm, hl⟩ := (route_passed hguard batch h db).returned hroute
  obtain ⟨out, ho, hout⟩ := (finish_perm hp a w₁).returned hfinish
  rw [List.append_nil] at hb
  subst hb
  refine ⟨a, w₁, out, hroute, hfinish, ho, fun hc => ?_, fun hnone => ⟨?_, ?_⟩⟩
  · have hlen := hc.1.symm.trans (hout.trans hperm) |>.length_eq
    rw [List.length_append] at hlen
    exact List.length_eq_zero_iff.mp (by omega)
  · rw [hnone] at hl
    rw [List.length_eq_zero_iff.mp hl, List.append_nil] at hperm
    exact hout.trans hperm
  · intro r _ err herr
    rw [hnone] at herr
    cases herr

/-- The processor that takes every transfer and returns what it is handed. -/
def passOn : IBCV2BatchProcessor where
  shouldProcess _ := .ret true
  state := .deliverRecvPacket
  process transfers h := .ret (.ok transfers, h)

theorem passOn_guardReads : passOn.GuardReads := fun _ _ => trivial

theorem passOn_conserving : passOn.Conserving := by
  refine fun transfers h w => ⟨fun out ho => ?_, by simp⟩
  obtain rfl : transfers = out := Except.ok.inj ho
  exact .refl _

/-- Transfers of one client, with their sequence numbers from 7 on. -/
def someTransfers : Heap := fun r =>
  newIBCV2Transfer (insertedRow { somePacket with packetSequenceNumber := .ofNat (7 + r) })

/-- The middleware on a batch of two transfers whose states are written. -/
theorem batch_conserved_written : ∃ h' a w,
    Steps world (IBCV2BatchProcessorMW.route passOn [0, 1] { heap := someTransfers })
      ⟨⟨[], .nil⟩, []⟩ (.ret a) w ∧
    Steps world (IBCV2BatchProcessorMW.finish passOn a) w (.ret (.ok [0, 1], h')) w ∧
    Conserved passOn [0, 1] someTransfers a.toProcess w.trace [0, 1] h' := by
  have hupdates : Steps world (IBCV2BatchProcessorMW.route passOn [0, 1] { heap := someTransfers })
      ⟨⟨[], .nil⟩, []⟩ (.ret _) _ := .call (.ok ()) trivial (.call (.ok ()) trivial (.refl _ _))
  have hrun := hupdates.bind (.refl (IBCV2BatchProcessorMW.finish passOn _) _)
  obtain ⟨a, w, out, hroute, hfinish, ho, hiff⟩ :=
    batch_conserved_iff passOn_guardReads passOn_conserving hrun
  -- `passOn` makes no call, so the trace ends with the loop.
  obtain rfl : _ = w := (show Steps world (.ret _) w _ _ from hfinish).of_ret.2
  obtain rfl := Except.ok.inj ho
  exact ⟨_, a, _, hroute, hfinish, hiff.mpr rfl⟩

/-- Where the state cannot be written, the transfer is handed to the processor
all the same, has its state changed, and comes back twice. -/
theorem batch_not_conserved : passOn.GuardReads ∧ passOn.Conserving ∧ ∃ err a w h',
    Steps world (IBCV2BatchProcessorMW.route passOn [0] { heap := someTransfers }) ⟨⟨[], .nil⟩, []⟩
      (.ret a) w ∧
    Steps world (IBCV2BatchProcessorMW.finish passOn a) w (.ret (.ok [0, 0], h')) w ∧
    failedStatements w.trace = [(updateTransferState passOn.state (someTransfers 0).key, err)] ∧
    ¬[0, 0].Perm [0] ∧ 0 ∈ a.toProcess ∧ (h' 0).state ≠ (someTransfers 0).state := by
  refine ⟨passOn_guardReads, passOn_conserving, newErr "closed", _, _, _,
    .call (.error (newErr "closed")) trivial (.refl _ _),
    .refl _ _, rfl, by decide, by decide +kernel, by decide +kernel⟩

end PlatformRelayer

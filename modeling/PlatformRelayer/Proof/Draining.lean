import Mathlib.Order.WellFounded
import PlatformRelayer.Framework.Draining
import PlatformRelayer.Ibcv2.Deduper
import PlatformRelayer.Proof.Channels

/-!
# The pipelines drain

What the goroutines of the pipelines do with the transfers they have comes to an end,
whatever is answered to them and however they take turns. A job is below another if one
turn can make it of the other (`Job.Below`): a transfer has more stages left, or is still
to be put into a batch, before a goroutine takes it, and a goroutine has more of its
program or more to send on. This holds although a batch may send on more transfers than
it was made of: each of them has one stage less.

It comes to an end with no transfer left, or with one that waits for a lock. Of all that
is in a pipeline, what has come furthest (`Spot.rank`) has nothing before it, so there is
room for it to go on (`advances_or_locked`), unless it has been through the pipeline and
`Push` has the lock of the deduper. Then `Push` waits for room in the input channel
(`pipelines_drain`).
-/

namespace PlatformRelayer

open Prog Db Relation

/-! ## What is sent on -/

section Follows

variable {tok u : Token} {task : Task} {toks : List Token}

/-- What a transfer has before it: two turns for each stage, the one to be put
into a batch and the one to be collected. -/
def Token.ahead (tok : Token) : Nat := 2 * tok.stages.length + if tok.queued then 0 else 1

/-- A transfer that is to be put into a batch waits at a batch stage. -/
def Token.Waits (tok : Token) : Prop :=
  tok.queued = true → ∃ k rest, tok.stages = batchStage k :: rest

/-- What a transfer can be sent on as. -/
structure Token.Follows (u tok : Token) : Prop where
  pipeline : u.pipeline = tok.pipeline
  ahead : u.ahead < tok.ahead
  waits : u.Waits

def Task.Sends (task : Task) (tok : Token) : Prop :=
  wp (settled false) (fun _ _ => True) task.prog (fun out _ => ∀ u ∈ out, u.Follows tok) ()

theorem queued_of_start (h : tok.start = some task) : tok.queued = false := by
  rw [Token.start] at h
  split at h
  · assumption
  · cases h

theorem start_sends (h : tok.start = some task) : task.Sends tok := by
  have hq := queued_of_start h
  cases started h with
  | @decides k rest hst =>
    refine wp_bind.mpr (wp_of_forall (fun should _ u hu => ?_) _ _)
    obtain rfl := List.mem_singleton.mp hu
    cases should with
    | true => exact ⟨rfl, by simp [Token.ahead, hst, hq], fun _ => ⟨k, rest, rfl⟩⟩
    | false => exact ⟨rfl, by simp [Token.ahead, hst, hq], fun h => by cases h⟩
  | @works st rest hq hst hb =>
    refine wp_bind.mpr (wp_of_forall (fun o _ u hu => ?_) _ _)
    obtain ⟨t, -, rfl⟩ := List.mem_map.mp hu
    exact ⟨rfl, by simp [Token.ahead, hst, hq], fun h => by cases hq.symm.trans h⟩

theorem queued_of_collect (h : collect toks = some task) (hm : tok ∈ toks) : tok.queued = true := by
  cases collected h with
  | mk d hall => exact (hall tok hm).1

theorem collect_sends (h : collect toks = some task) (hm : tok ∈ toks) : task.Sends tok := by
  cases collected h with
  | @mk pl k rest d hall =>
  obtain ⟨hq, hpl, hst⟩ := hall tok hm
  refine wp_bind.mpr (wp_of_forall ?_ _ _)
  rintro ⟨o, h'⟩ _ u hu
  cases o with
  | error err => cases hu
  | ok refs =>
    obtain ⟨r, -, rfl⟩ := List.mem_map.mp hu
    refine ⟨hpl.symm, ?_, fun h => by cases h⟩
    simp only [Token.ahead, hst, hq, List.length_cons, if_true, Bool.false_eq_true, if_false]
    omega

theorem Task.Sends.act {a : Call} {k : a.Ans → Relay (List Token)} (h : task.Sends tok)
    (hc : task.prog = .call a k) (ans : a.Ans) : Task.Sends { task with prog := k ans } tok := by
  rw [Task.Sends, hc] at h
  exact h.2 ans (by simp [settled])

theorem Task.Sends.follows (h : task.Sends tok)
    (hr : task.prog = .ret toks) : ∀ u ∈ toks, u.Follows tok := by
  rw [Task.Sends, hr] at h
  exact h

end Follows

/-! ## The order of the jobs -/

inductive Job.Below : Job → Job → Prop where
  | start {tok task} : tok.start = some task → Job.Below (.run task) (.rest tok)
  | collect {toks tok task} : collect toks = some task → tok ∈ toks →
    Job.Below (.run task) (.rest tok)
  | act {task : Task} {c k} (ans : c.Ans) : task.prog = .call c k →
    Job.Below (.run { task with prog := k ans }) (.run task)
  | keeps {task : Task} {tok toks} : task.prog = .ret (tok :: toks) →
    Job.Below (.run { task with prog := .ret toks }) (.run task)
  | sends {task : Task} {tok toks} : task.prog = .ret (tok :: toks) →
    Job.Below (.rest tok) (.run task)

section Below

variable {task : Task}

/-- A goroutine comes to an end if what it sends on does. -/
theorem acc_run {p : Relay (List Token)} (hp : task.prog = p)
    (h : wp (settled false)
      (fun _ _ => True) p (fun out _ => ∀ u ∈ out, Acc Job.Below (.rest u)) ()) :
    Acc Job.Below (.run task) := by
  induction p generalizing task with
  | ret toks =>
    induction toks generalizing task with
    | nil =>
      refine .intro _ fun j hj => ?_
      cases hj with
      | act ans he => cases hp.symm.trans he
      | keeps he => cases hp.symm.trans he
      | sends he => cases hp.symm.trans he
    | cons tok toks ih =>
      refine .intro _ fun j hj => ?_
      cases hj with
      | act ans he => cases hp.symm.trans he
      | keeps he =>
        cases hp.symm.trans he
        exact ih rfl fun u hu => h u (List.mem_cons_of_mem _ hu)
      | sends he =>
        cases hp.symm.trans he
        exact h _ List.mem_cons_self
  | call c k ih =>
    refine .intro _ fun j hj => ?_
    cases hj with
    | act ans he =>
      obtain ⟨rfl, hk⟩ := Prog.call.inj (hp.symm.trans he)
      obtain rfl := eq_of_heq hk
      exact ih ans rfl (h.2 ans (by simp [settled]))
    | keeps he => cases hp.symm.trans he
    | sends he => cases hp.symm.trans he

theorem acc_rest (tok : Token) : Acc Job.Below (.rest tok) := by
  induction hn : tok.ahead using Nat.strong_induction_on generalizing tok with
  | _ n ih =>
  subst hn
  refine .intro _ fun j hj => ?_
  cases hj with
  | start h => exact acc_run rfl ((start_sends h).post fun _ _ hout u hu =>
    ih _ (hout u hu).ahead u rfl)
  | collect h hm =>
    exact acc_run rfl ((collect_sends h hm).post fun _ _ hout u hu => ih _ (hout u hu).ahead u rfl)

theorem wellFounded_below : WellFounded Job.Below := by
  refine ⟨fun j => ?_⟩
  cases j with
  | rest tok => exact acc_rest tok
  | run task => exact acc_run rfl (wp_of_forall (fun _ _ u _ => acc_rest u) _ _)

end Below

/-- How far a place is from the end of its stage. -/
def Place.depth : Place → Nat
  | push => 7
  | input => 6
  | door => 5
  | stage => 4
  | toBatch => 3
  | batch => 2
  | results => 1
  | output => 0

theorem Place.depth_lt (place : Place) : place.depth < 8 := by cases place <;> decide

theorem Token.depth_place (tok : Token) : tok.place.depth < Place.input.depth := by
  unfold Token.place
  split
  · decide
  · split
    · split <;> decide
    · decide

/-- A job goes on, or stays what it is and gets to a place that is further on. -/
def Placed.Below (p q : Placed) : Prop :=
  p.job.Below q.job ∨ p.job = q.job ∧ p.spot.place.depth < q.spot.place.depth

theorem wellFounded_placed : WellFounded Placed.Below := by
  have hlex : WellFounded (Prod.Lex Job.Below (· < · : Nat → Nat → Prop)) :=
    WellFounded.prod_lex wellFounded_below Nat.lt_wfRel.wf
  refine Subrelation.wf ?_ (InvImage.wf (fun p : Placed => (p.job, p.spot.place.depth)) hlex)
  rintro p q (h | ⟨hjob, hdepth⟩)
  · exact .left _ _ h
  · change Prod.Lex _ _ (p.job, _) (q.job, _)
    rw [hjob]
    exact .right _ hdepth

theorem Placed.Below.single {p q : Placed} (h : p.Below q) :
    [q] ≠ [] ∧ ∀ p' ∈ [p], ∃ q' ∈ [q], p'.Below q' := by
  refine ⟨List.cons_ne_nil _ _, fun p' hp => ⟨q, List.mem_singleton_self _, ?_⟩⟩
  obtain rfl := List.mem_singleton.mp hp
  exact h

theorem PlacedStep.below {db db' : Transfers} {old new : List Placed}
    (h : PlacedStep db old new db') : old ≠ [] ∧ ∀ p ∈ new, ∃ q ∈ old, p.Below q := by
  cases h with
  | enter hplace =>
    refine Placed.Below.single (.inr ⟨rfl, ?_⟩)
    rw [hplace]
    show Place.input.depth < Place.push.depth
    decide
  | emit hplace =>
    refine Placed.Below.single (.inr ⟨rfl, ?_⟩)
    rw [hplace]
    exact Token.depth_place _
  | start _ htask => exact Placed.Below.single (.inl (.start htask))
  | @collect q batch toks task _ hjobs htask =>
    refine ⟨List.cons_ne_nil _ _, fun p hp => ⟨q, List.mem_cons_self, ?_⟩⟩
    obtain rfl := List.mem_singleton.mp hp
    have hjob : q.job ∈ toks.map Job.rest := hjobs ▸ List.mem_cons_self
    obtain ⟨tok, hm, hrest⟩ := List.mem_map.mp hjob
    refine .inl ?_
    rw [← hrest]
    exact .collect htask hm
  | act ans hc => exact Placed.Below.single (.inl (.act ans hc))
  | hand hplace _ =>
    refine Placed.Below.single (.inr ⟨rfl, ?_⟩)
    rw [hplace]
    show Place.results.depth < Place.batch.depth
    decide
  | send _ hr =>
    refine ⟨List.cons_ne_nil _ _, fun p hp => ⟨_, List.mem_singleton_self _, ?_⟩⟩
    rcases List.mem_cons.mp hp with rfl | hp
    · exact .inl (.keeps hr)
    · obtain rfl := List.mem_singleton.mp hp
      exact .inl (.sends hr)
  | done _ => exact ⟨List.cons_ne_nil _ _, fun _ hp => absurd hp List.not_mem_nil⟩

def Flow.Advances (sizes : Sizes) (c c' : Flow) : Prop :=
  ∃ a : FlowAction, a.advances = true ∧ c.step sizes a = some c'

theorem Flow.Advances.replaces {sizes : Sizes} {c c' : Flow} (h : c.Advances sizes c') :
    Replaces Placed.Below c.jobs c'.jobs := by
  obtain ⟨a, ha, hs⟩ := h
  cases flow_progress ha hs with
  | work hp hw => exact ⟨_, _, _, hw.below.1, hp, .refl _, hw.below.2⟩
  | output hp _ =>
    exact ⟨[_], [], _, List.cons_ne_nil _ _, hp, by simp, fun _ h => absurd h List.not_mem_nil⟩

theorem wellFounded_advances (sizes : Sizes) : WellFounded fun c' c : Flow => c.Advances sizes c' :=
  Subrelation.wf Flow.Advances.replaces
    (InvImage.wf Flow.jobs (wellFounded_replaces wellFounded_placed))

/-! ## Where the jobs are -/

/-- What is at a spot is what belongs there. A goroutine has taken a transfer from where
it is, and what it sends on follows that transfer. -/
inductive Placed.Fits : Placed → Prop where
  | pushed {tok} : tok.queued = false → tok.stages ≠ [] → Fits ⟨tok.at .push, .rest tok⟩
  | entered {tok} : tok.queued = false → tok.stages ≠ [] → Fits ⟨tok.at .input, .rest tok⟩
  | arrived {tok} : tok.Waits → Fits ⟨tok.spot, .rest tok⟩
  | works {tok task} : tok.queued = false → task.Sends tok → Fits ⟨tok.at .stage, .run task⟩
  | batch {tok task} : tok.queued = true → task.Sends tok → Fits ⟨tok.at .batch, .run task⟩
  | results {tok task} : tok.queued = true → task.Sends tok → Fits ⟨tok.at .results, .run task⟩

theorem Token.place_ne (tok : Token) {place : Place} (h : Place.input.depth ≤ place.depth) :
    tok.place ≠ place :=
  fun heq => absurd (heq ▸ tok.depth_place) (Nat.not_lt.mpr h)

theorem PlacedStep.fits {db db' : Transfers} {old new : List Placed} (h : PlacedStep db old new db')
    (hold : ∀ p ∈ old, p.Fits) : ∀ p ∈ new, p.Fits ∧ p.spot.place ≠ .push := by
  intro p hp
  cases h with
  | enter hplace =>
    obtain rfl := List.mem_singleton.mp hp
    refine ⟨?_, by simp⟩
    cases hold _ List.mem_cons_self with
    | pushed hq hst => exact .entered hq hst
    | entered _ _ => cases hplace
    | arrived _ => exact absurd hplace (Token.place_ne _ (by decide))
  | emit hplace =>
    obtain rfl := List.mem_singleton.mp hp
    refine ⟨?_, Token.place_ne _ (by decide)⟩
    cases hold _ List.mem_cons_self with
    | pushed _ _ => cases hplace
    | entered hq _ => exact .arrived fun h => by cases hq.symm.trans h
    | arrived hwaits => exact .arrived hwaits
  | start _ htask =>
    obtain rfl := List.mem_singleton.mp hp
    exact ⟨.works (queued_of_start htask) (start_sends htask), by simp⟩
  | @collect q batch toks task hplace hjobs htask =>
    obtain rfl := List.mem_singleton.mp hp
    refine ⟨?_, by simp⟩
    obtain ⟨spot, job⟩ := q
    have hjob : job ∈ toks.map Job.rest := hjobs ▸ List.mem_cons_self
    obtain ⟨tok, hm, rfl⟩ := List.mem_map.mp hjob
    have hspot : { spot with place := .batch } = tok.at .batch := by
      cases hold _ List.mem_cons_self <;> rfl
    rw [hspot]
    exact .batch (queued_of_collect htask hm) (collect_sends htask hm)
  | act ans hc =>
    obtain rfl := List.mem_singleton.mp hp
    cases hold _ List.mem_cons_self with
    | works hq hs => exact ⟨.works hq (hs.act hc ans), by simp⟩
    | batch hq hs => exact ⟨.batch hq (hs.act hc ans), by simp⟩
    | results hq hs => exact ⟨.results hq (hs.act hc ans), by simp⟩
  | hand hplace hr =>
    obtain rfl := List.mem_singleton.mp hp
    refine ⟨?_, by simp⟩
    cases hold _ List.mem_cons_self with
    | works _ _ => cases hplace
    | batch hq hs => exact .results hq hs
    | results _ _ => cases hplace
  | @send spot task tok toks hplace hr =>
    have hkept {tok' : Token} (hs : task.Sends tok') :
        Task.Sends { task with prog := .ret toks } tok' :=
      fun u hu => hs.follows hr u (List.mem_cons_of_mem _ hu)
    have harrived {tok' : Token} (hs : task.Sends tok') : Placed.Fits ⟨tok.spot, .rest tok⟩ :=
      .arrived (hs.follows hr tok List.mem_cons_self).waits
    rcases List.mem_cons.mp hp with rfl | hp
    · cases hold _ List.mem_cons_self with
      | works hq hs => exact ⟨.works hq (hkept hs), by simp⟩
      | batch _ _ => exact absurd rfl hplace
      | results hq hs => exact ⟨.results hq (hkept hs), by simp⟩
    · obtain rfl := List.mem_singleton.mp hp
      refine ⟨?_, Token.place_ne _ (by decide)⟩
      cases hold _ List.mem_cons_self with
      | works _ hs => exact harrived hs
      | batch _ hs => exact harrived hs
      | results _ hs => exact harrived hs
  | done _ => cases hp

/-- Everything is where it belongs, and the dispatcher is in one `Push` at most. -/
structure Flow.Inv (c : Flow) : Prop where
  fits : ∀ p ∈ c.jobs, p.Fits
  single : ∀ p ∈ c.jobs, ∀ q ∈ c.jobs, p.spot.place = .push → q.spot.place = .push →
    p.spot.pipeline = q.spot.pipeline

section Inv

variable {sizes : Sizes} {c c' : Flow}

theorem Flow.Inv.progress (h : c.Inv) (hp : c.Progress c') : c'.Inv := by
  cases hp with
  | @work old new others db' hperm hstep =>
    have hothers : ∀ p ∈ others, p ∈ c.jobs :=
      fun p hm => hperm.symm.subset (List.mem_append_right _ hm)
    have hnew := hstep.fits fun p hm => h.fits p (hperm.symm.subset (List.mem_append_left _ hm))
    refine ⟨fun p hm => ?_, fun p hp q hq hpush hpush' => ?_⟩
    · rcases List.mem_append.mp hm with hm | hm
      · exact h.fits p (hothers p hm)
      · exact (hnew p hm).1
    · rcases List.mem_append.mp hp with hp | hp
      · rcases List.mem_append.mp hq with hq | hq
        · exact h.single p (hothers p hp) q (hothers q hq) hpush hpush'
        · exact absurd hpush' (hnew q hq).2
      · exact absurd hpush (hnew p hp).2
  | @output spot tok others hperm _ =>
    have hothers : ∀ p ∈ others, p ∈ c.jobs :=
      fun p hm => hperm.symm.subset (List.mem_cons_of_mem _ hm)
    exact ⟨fun p hm => h.fits p (hothers p hm), fun p hp q hq =>
      h.single p (hothers p hp) q (hothers q hq)⟩

theorem not_push_of_isPushing (h : c.isPushing = false) : ∀ p ∈ c.jobs, p.spot.place ≠ .push := by
  intro p hp hplace
  rw [Flow.isPushing, List.any_eq_false] at h
  exact h p hp (decide_eq_true hplace)

theorem Flow.Inv.dispatched (h : c.Inv) {a : Action} (ha : a.advances = false) {r : Relayer}
    (hr : c.relayer.step a = some r)
    (hpushing : ∀ opts ans, a = .submit opts ans → c.isPushing = false) : (c.dispatched r).Inv := by
  obtain ⟨toks, hjobs, hpushes⟩ := dispatcher_jobs ha hr
  have heq := jobs_dispatched hjobs
  refine ⟨fun p hm => ?_, fun p hp q hq hpush hpush' => ?_⟩
  · rcases List.mem_append.mp (heq ▸ hm) with hm | hm
    · exact h.fits p hm
    · obtain ⟨tok, htok, rfl⟩ := List.mem_map.mp hm
      obtain ⟨hq, hst⟩ := hpushes.fresh tok htok
      exact .pushed hq hst
  · cases toks with
    | nil =>
      rw [heq, List.map_nil, List.append_nil] at hp hq
      exact h.single p hp q hq hpush hpush'
    | cons tok toks =>
      -- The new transfer is the only one in `Push`.
      obtain rfl : toks = [] :=
        List.eq_nil_of_length_eq_zero (Nat.le_zero.mp (Nat.le_of_succ_le_succ hpushes.length))
      obtain ⟨opts, ans, hsubmit⟩ := hpushes.submits (List.cons_ne_nil _ _)
      have hfree := not_push_of_isPushing (hpushing opts ans hsubmit)
      have hself : ∀ p ∈ (c.dispatched r).jobs, p.spot.place = .push →
          p.spot.pipeline = tok.pipeline.key := by
        intro p hp hpush
        rcases List.mem_append.mp (heq ▸ hp) with hp | hp
        · exact absurd hpush (hfree p hp)
        · obtain rfl := List.mem_singleton.mp hp
          rfl
      rw [hself p hp hpush, hself q hq hpush']

theorem Flow.Inv.run {db : Transfers} {hasPriceClient : Bool}
    (h : ReflTransGen (Flow.Turn sizes) { db, hasPriceClient } c) : c.Inv := by
  induction h with
  | refl => exact ⟨fun _ hm => absurd hm List.not_mem_nil, fun _ hm => absurd hm List.not_mem_nil⟩
  | tail _ hturn ih =>
    obtain ⟨a, hstep⟩ := hturn
    cases ha : a.advances with
    | true => exact ih.progress (flow_progress ha hstep)
    | false =>
      obtain ⟨a', r, ha', hr, rfl, hpushing⟩ := flow_dispatched ha hstep
      exact ih.dispatched ha' hr hpushing

end Inv

/-! ## What has come furthest can go on -/

/-- What is before a spot, on the way through a pipeline. -/
def Spot.rank (spot : Spot) : Nat := 8 * spot.left + spot.place.depth

section Rank

variable {tok u : Token}

theorem Token.rank_lt_of_depth {place place' : Place} (h : place.depth < place'.depth) :
    (tok.at place).rank < (tok.at place').rank :=
  Nat.add_lt_add_left h _

/-- What is sent on gets to a later stage, or to the collector of the stage. -/
theorem Token.Follows.rank_lt (h : u.Follows tok) :
    u.spot.rank < (tok.at (if tok.queued then .results else .stage)).rank := by
  have hahead := h.ahead
  have hdepth := u.place.depth_lt
  simp only [Token.ahead, Spot.rank, Token.spot, Token.at] at hahead ⊢
  by_cases hlength : u.stages.length < tok.stages.length
  · omega
  · -- With as many stages left it is queued now, and was not before.
    have hq : u.queued = true ∧ tok.queued = false := by
      cases hu : u.queued <;> cases ht : tok.queued <;> simp [hu, ht] at hahead ⊢ <;> omega
    obtain ⟨k, rest, hst⟩ := h.waits hq.1
    have hplace : u.place = .toBatch := by
      unfold Token.place
      rw [hst]
      simp only [batchStage_processor, hq.1, if_true]
    simp only [hq, hplace, Place.depth, if_true, Bool.false_eq_true, if_false] at hahead ⊢
    omega

end Rank

section Furthest

variable {sizes : Sizes} {c : Flow} {p : Placed}

theorem exists_takeAt {α : Type} {x : α} {l : List α}
    (h : x ∈ l) : ∃ i others, takeAt [i] l = some ([x], others) := by
  obtain ⟨before, after, rfl⟩ := List.append_of_mem h
  have hperm : (before ++ x :: after).Perm (x :: (before ++ after)) := List.perm_middle
  obtain ⟨i, others, ht, -⟩ := takeAt_singleton_of_perm hperm
  exact ⟨i, others, ht⟩

theorem hasRoom_of_empty {spot : Spot} (h : ∀ q ∈ c.jobs, q.spot ≠ spot) :
    c.hasRoom sizes spot = true := by
  have hzero : c.jobs.countP (·.spot = spot) = 0 :=
    List.countP_eq_zero.mpr fun q hq heq => h q hq (of_decide_eq_true heq)
  rw [Flow.hasRoom, hzero]
  exact decide_eq_true (sizes.pos spot)

theorem advances_of_isSome {a : FlowAction} (ha : a.advances = true)
    (h : (c.step sizes a).isSome = true) : ∃ c', c.Advances sizes c' := by
  obtain ⟨c', hc'⟩ := Option.isSome_iff_exists.mp h
  exact ⟨c', a, ha, hc'⟩

/-- A goroutine takes its turn, if there is room for what it sends. -/
theorem run_advances {spot : Spot} {task : Task} (hp : ⟨spot, .run task⟩ ∈ c.jobs)
    (hplace : spot.place ≠ .batch)
    (hroom : ∀ tok toks, task.prog = .ret (tok :: toks) → c.hasRoom sizes tok.spot = true) :
    ∃ c', c.Advances sizes c' := by
  obtain ⟨i, others, ht⟩ := exists_takeAt hp
  cases hprog : task.prog with
  | call a k =>
    exact advances_of_isSome (a := .act i (Answers.answer {})) rfl (by simp [Flow.step, ht, hprog])
  | ret toks =>
    cases toks with
    | nil => exact advances_of_isSome (a := .done i) rfl (by simp [Flow.step, ht, hprog])
    | cons tok toks =>
      have htok := hroom tok toks hprog
      exact advances_of_isSome (a := .send i) rfl (by simp [Flow.step, ht, hprog, hplace, htok])

/-- A `Push` that finds room returns. -/
theorem push_advances {tok : Token} (hp : ⟨tok.at .push, .rest tok⟩ ∈ c.jobs)
    (hroom : c.hasRoom sizes (tok.at .input) = true) : ∃ c', c.Advances sizes c' := by
  obtain ⟨i, others, ht⟩ := exists_takeAt hp
  exact advances_of_isSome (a := .enter i) rfl (by simp [Flow.step, ht, hroom])

/-- The results of a batch are handed over. -/
theorem batch_advances {tok : Token} {task : Task} (hp : ⟨tok.at .batch, .run task⟩ ∈ c.jobs)
    (hroom : c.hasRoom sizes (tok.at .results) = true) : ∃ c', c.Advances sizes c' := by
  obtain ⟨i, others, ht⟩ := exists_takeAt hp
  cases hprog : task.prog with
  | call a k =>
    exact advances_of_isSome (a := .act i (Answers.answer {})) rfl (by simp [Flow.step, ht, hprog])
  | ret toks =>
    refine advances_of_isSome (a := .hand i) rfl ?_
    rw [Flow.step, ht]
    simp only [Token.at_at, Token.place_at, hprog, result?, hroom, Option.isSome_some, and_self,
      if_true]

theorem start_isSome {tok : Token} {st : Stage} {rest : List Stage} (hq : tok.queued = false)
    (hst : tok.stages = st :: rest) : tok.start.isSome = true := by
  simp [Token.start, hq, hst]

/-- A transfer that was sent on is taken by the next goroutine, or waits for the lock. -/
theorem arrived_advances {tok : Token} (hp : ⟨tok.spot, .rest tok⟩ ∈ c.jobs) (hwaits : tok.Waits)
    (hroom : ∀ place : Place, place.depth < tok.place.depth →
      c.hasRoom sizes (tok.at place) = true) :
    (∃ c', c.Advances sizes c') ∨ tok.place = .output ∧ c.isLocked tok.pipeline.key = true := by
  obtain ⟨i, others, ht⟩ := exists_takeAt hp
  cases hst : tok.stages with
  | nil =>
    cases hlocked : c.isLocked tok.pipeline.key with
    | true => exact .inr ⟨by simp [Token.place, hst], rfl⟩
    | false => exact .inl (advances_of_isSome (a := .output i) rfl
      (by simp [Flow.step, ht, hst, hlocked]))
  | cons st rest =>
    refine .inl ?_
    cases hbatch : st.processor tok.pipeline with
    | batch packet =>
      cases hq : tok.queued with
      | true =>
        have hplace : tok.place = .toBatch := by simp [Token.place, hst, hbatch, hq]
        have hfree : c.hasRoom sizes (tok.at .batch) = true := hroom .batch (by rw [hplace]; decide)
        have hcollect : (collect [tok]).isSome = true := by simp [collect, hst, hbatch, hq]
        refine advances_of_isSome (a := .startBatch [i]) rfl ?_
        simp [Flow.step, ht, Job.token?, hfree, hplace, hcollect]
      | false =>
        have hplace : tok.place = .stage := by simp [Token.place, hst, hbatch, hq]
        have hstart := start_isSome hq hst
        refine advances_of_isSome (a := .start i) rfl ?_
        simp [Flow.step, ht, hplace, hstart]
    | _ =>
      have hplace : tok.place = .door := by simp [Token.place, hst, hbatch]
      have hfree : c.hasRoom sizes (tok.at .stage) = true := hroom .stage (by rw [hplace]; decide)
      have hq : tok.queued = false := by
        by_contra hq
        obtain ⟨k, rest', hst'⟩ := hwaits (Bool.not_eq_false _ ▸ hq)
        obtain ⟨rfl, -⟩ := List.cons.inj (hst.symm.trans hst')
        cases (batchStage_processor tok.pipeline k).symm.trans hbatch
      have hstart := start_isSome hq hst
      refine advances_of_isSome (a := .start i) rfl ?_
      simp [Flow.step, ht, hfree, hplace, hstart]

/-- Where nothing in the pipeline is before it, a job can go on, or waits for the lock. -/
theorem advances_or_locked (hp : p ∈ c.jobs) (hfits : p.Fits)
    (hfirst : ∀ q ∈ c.jobs, q.spot.pipeline = p.spot.pipeline → p.spot.rank ≤ q.spot.rank) :
    (∃ c', c.Advances sizes c') ∨ p.spot.place = .output ∧ c.isLocked p.spot.pipeline = true := by
  have hroom {spot : Spot} (hkey : spot.pipeline = p.spot.pipeline)
      (hlt : spot.rank < p.spot.rank) : c.hasRoom sizes spot = true := by
    refine hasRoom_of_empty fun q hq heq => ?_
    subst heq
    exact absurd hlt (Nat.not_lt.mpr (hfirst q hq hkey))
  cases hfits with
  | pushed _ _ => exact .inl (push_advances hp (hroom rfl (Token.rank_lt_of_depth (by decide))))
  | @entered tok _ _ =>
    obtain ⟨i, others, ht⟩ := exists_takeAt hp
    have hfree : c.hasRoom sizes tok.spot = true :=
      hroom rfl (Token.rank_lt_of_depth tok.depth_place)
    refine .inl (advances_of_isSome (a := .emit i) rfl ?_)
    simp [Flow.step, ht, hfree]
  | arrived hwaits =>
    exact arrived_advances hp hwaits fun place h => hroom rfl (Token.rank_lt_of_depth h)
  | @works tok task hq hs =>
    refine .inl (run_advances hp (by simp) fun u toks hr => ?_)
    have hu := hs.follows hr u List.mem_cons_self
    refine hroom (congrArg Pipeline.key hu.pipeline) ?_
    simpa [hq] using hu.rank_lt
  | batch _ _ => exact .inl (batch_advances hp (hroom rfl (Token.rank_lt_of_depth (by decide))))
  | @results tok task hq hs =>
    refine .inl (run_advances hp (by simp) fun u toks hr => ?_)
    have hu := hs.follows hr u List.mem_cons_self
    refine hroom (congrArg Pipeline.key hu.pipeline) ?_
    simpa [hq] using hu.rank_lt

end Furthest

/-! ## Whole runs -/

/-- The dispatcher waits in `Push` for room in the input channel of a pipeline, and has
the lock that a transfer waits for which has been through the pipeline. There is nothing
in any other pipeline. -/
def Flow.Deadlocked (sizes : Sizes) (c : Flow) : Prop :=
  ∃ p ∈ c.jobs, p.spot.place = .push ∧ c.hasRoom sizes { p.spot with place := .input } = false ∧
    (∃ q ∈ c.jobs, q.spot.place = .output) ∧ ∀ q ∈ c.jobs, q.spot.pipeline = p.spot.pipeline

section Runs

variable {sizes : Sizes} {c c' : Flow}

/-- Where nothing can go on, every pipeline that is not empty is locked. -/
theorem locked_of_stuck (h : c.Inv) (hstuck : ∀ c', ¬c.Advances sizes c') {p : Placed}
    (hp : p ∈ c.jobs) : (∃ q ∈ c.jobs, q.spot.place = .output) ∧
      c.isLocked p.spot.pipeline = true := by
  obtain ⟨q, ⟨hq, hkey⟩, hfirst⟩ := (measure fun q : Placed => q.spot.rank).wf.has_min
    { q | q ∈ c.jobs ∧ q.spot.pipeline = p.spot.pipeline } ⟨p, hp, rfl⟩
  have hle : ∀ q' ∈ c.jobs, q'.spot.pipeline = q.spot.pipeline → q.spot.rank ≤ q'.spot.rank :=
    fun q' hq' hkey' => Nat.not_lt.mp (hfirst q' ⟨hq', hkey'.trans hkey⟩)
  rcases advances_or_locked hq (h.fits q hq) hle with ⟨c', hc'⟩ | ⟨hplace, hlocked⟩
  · exact absurd hc' (hstuck c')
  · exact ⟨⟨q, hq, hplace⟩, hkey ▸ hlocked⟩

theorem exists_push_of_isLocked {key : PipelineKey} (h : c.isLocked key = true) :
    ∃ p ∈ c.jobs, p.spot.place = .push ∧ p.spot.pipeline = key := by
  obtain ⟨p, hp, hpush⟩ := List.any_eq_true.mp h
  exact ⟨p, hp, of_decide_eq_true hpush⟩

theorem Placed.Fits.pushed_of_place {p : Placed} (h : p.Fits) (hplace : p.spot.place = .push) :
    ∃ tok : Token, p = ⟨tok.at .push, .rest tok⟩ := by
  cases h with
  | @pushed tok _ _ => exact ⟨tok, rfl⟩
  | entered _ _ => cases hplace
  | arrived _ => exact absurd hplace (Token.place_ne _ (by decide))
  | works _ _ => cases hplace
  | batch _ _ => cases hplace
  | results _ _ => cases hplace

theorem deadlocked_of_stuck (h : c.Inv) (hstuck : ∀ c', ¬c.Advances sizes c')
    (hjobs : c.jobs ≠ []) : c.Deadlocked sizes := by
  obtain ⟨q, hq⟩ := List.exists_mem_of_ne_nil _ hjobs
  obtain ⟨houtput, hlocked⟩ := locked_of_stuck h hstuck hq
  obtain ⟨p, hp, hpush, -⟩ := exists_push_of_isLocked hlocked
  refine ⟨p, hp, hpush, ?_, houtput, fun q' hq' => ?_⟩
  · by_contra hroom
    rw [Bool.not_eq_false] at hroom
    obtain ⟨tok, rfl⟩ := (h.fits p hp).pushed_of_place hpush
    obtain ⟨c', hc'⟩ := push_advances hp hroom
    exact hstuck c' hc'
  · obtain ⟨p', hp', hpush', hkey⟩ := exists_push_of_isLocked (locked_of_stuck h hstuck hq').2
    exact hkey.symm.trans (h.single p' hp' p hp hpush' hpush)

theorem turn_of_advances (c c' : Flow) (h : c.Advances sizes c') : c.Turn sizes c' := by
  obtain ⟨a, -, hs⟩ := h
  exact ⟨a, hs⟩

/-- In every state that the process can get to, whatever room there is: it is one of the
process that always has room; its goroutines do not go on for ever with the transfers they
have; and where none of them can take a turn, no transfer is left in a pipeline, or the
dispatcher waits for room with the lock of a deduper that waits for it. -/
theorem pipelines_drain {db : Transfers} {hasPriceClient : Bool}
    (h : ReflTransGen (Flow.Turn sizes) { db, hasPriceClient } c) :
    (∃ r, ReflTransGen (Relayer.Turn fun _ _ => True) { db, hasPriceClient } r ∧ r.Same c.relayer) ∧
      (¬∃ run : Nat → Flow, run 0 = c ∧ ∀ n, (run n).Advances sizes (run (n + 1))) ∧
      ∀ c', ReflTransGen (Flow.Advances sizes) c c' → (∀ c'', ¬c'.Advances sizes c'') →
        c'.jobs = [] ∨ c'.Deadlocked sizes := by
  refine ⟨flow_refines h, ?_, fun c' hc' hstuck => ?_⟩
  · rintro ⟨run, -, hrun⟩
    exact (wellFounded_iff_isEmpty_descending_chain.mp (wellFounded_advances sizes)).false
      ⟨run, hrun⟩
  · have hinv : c'.Inv := Flow.Inv.run (h.trans (ReflTransGen.mono turn_of_advances _ _ hc'))
    by_cases hjobs : c'.jobs = []
    · exact .inl hjobs
    · exact .inr (deadlocked_of_stuck hinv hstuck hjobs)

end Runs

/-- The input channel as it is in the source, and room for one everywhere else. -/
def someSizes : Sizes where
  capacity spot := if spot.place = .input then PipelineDeduper.inputBufferSize else 1
  pos spot := by split <;> decide

/-- The state after a turn, if it can be taken. -/
def Flow.after (c : Flow) (a : FlowAction) : Flow := (c.step someSizes a).getD c

theorem flow_turns_after (c : Flow)
    (a : FlowAction) : ReflTransGen (Flow.Turn someSizes) c (c.after a) := by
  rw [Flow.after]
  cases hs : c.step someSizes a with
  | none => exact .refl
  | some c' => exact .single ⟨a, hs⟩

/-- The dispatcher has submitted a transfer and is in `Push`. -/
def pushing : Flow := (Flow.after { db := oneRow } .poll).after (.submit (.ok someOptions) (.ok ()))

theorem pipelines_drain_submitted : pushing.jobs.map (·.spot.place) = [.push] ∧
    (¬∃ run : Nat → Flow, run 0 = pushing ∧ ∀ n, (run n).Advances someSizes (run (n + 1))) ∧
      ∀ c', ReflTransGen (Flow.Advances someSizes) pushing c' →
      (∀ c'', ¬c'.Advances someSizes c'') →
        c'.jobs = [] ∨ c'.Deadlocked someSizes :=
  ⟨rfl, (pipelines_drain ((flow_turns_after _ _).trans (flow_turns_after _ _))).2⟩

end PlatformRelayer

import Mathlib.Data.List.Perm.Basic
import PlatformRelayer.Ibcv2.Channels
import PlatformRelayer.Proof.Jobs

/-!
# With channels and without

`Flow.Progress` says what the turns of the goroutines, of the dedupers and of a waiting
`Push` do to the jobs and their places. Apart from the places, each of these turns is one
of the process that always has room, or two, or none: what is sent on one by one is there
sent at once, when the goroutine is done (`Job.sent`). So every state of the process with
its channels is, but for the order of its jobs, one of the process without them
(`flow_refines`), and what holds in all states there holds here.
-/

namespace PlatformRelayer

open Prog Db Relation

/-! ## What a turn does -/

/-- The turns of the goroutines, of the dedupers and of a `Push` that waits for room. -/
def FlowAction.advances : FlowAction → Bool
  | .insert _ | .poll | .submit .. => false
  | _ => true

/-- What a turn makes of the jobs that it takes, and of the table. -/
inductive PlacedStep (db : Transfers) : List Placed → List Placed → Transfers → Prop where
  | enter {spot tok} : spot.place = .push →
    PlacedStep db [⟨spot, .rest tok⟩] [⟨tok.at .input, .rest tok⟩] db
  | emit {spot tok} : spot.place = .input →
    PlacedStep db [⟨spot, .rest tok⟩] [⟨tok.spot, .rest tok⟩] db
  | start {spot tok task} : spot.place = .door ∨ spot.place = .stage → tok.start = some task →
    PlacedStep db [⟨spot, .rest tok⟩] [⟨tok.at .stage, .run task⟩] db
  | collect {p batch toks task} : (∀ q ∈ p :: batch, q.spot.place = .toBatch) →
    (p :: batch).map (·.job) = toks.map .rest → collect toks = some task →
    PlacedStep db (p :: batch) [⟨{ p.spot with place := .batch }, .run task⟩] db
  | act {spot} {task : Task} {a k} (ans : a.Ans) : task.prog = .call a k →
    PlacedStep db [⟨spot, .run task⟩] [⟨spot, .run { task with prog := k ans }⟩] (a.effect ans db)
  | hand {spot} {task : Task} {toks} : spot.place = .batch → task.prog = .ret toks →
    PlacedStep db [⟨spot, .run task⟩] [⟨{ spot with place := .results }, .run task⟩] db
  | send {spot} {task : Task} {tok toks} : spot.place ≠ .batch → task.prog = .ret (tok :: toks) →
    PlacedStep db [⟨spot, .run task⟩]
      [⟨spot, .run { task with prog := .ret toks }⟩, ⟨tok.spot, .rest tok⟩] db
  | done {spot} {task : Task} : task.prog = .ret [] → PlacedStep db [⟨spot, .run task⟩] [] db

inductive Flow.Progress (c : Flow) : Flow → Prop where
  | work {old new others db'} : c.jobs.Perm (old ++ others) → PlacedStep c.db old new db' →
    c.Progress { c with db := db', jobs := others ++ new }
  | output {spot tok others} : c.jobs.Perm (⟨spot, .rest tok⟩ :: others) → tok.stages = [] →
    c.Progress { c with inPipeline := c.inPipeline.filter (· ≠ tok.entry), jobs := others }

theorem flow_progress {sizes : Sizes} {c c' : Flow} {a : FlowAction} (ha : a.advances = true)
    (h : c.step sizes a = some c') : c.Progress c' := by
  cases a with
  | insert p => cases ha
  | poll => cases ha
  | submit opts ans => cases ha
  | enter i =>
    rw [Flow.step] at h
    split at h
    · rename_i spot tok others ht
      obtain ⟨hroom, ⟨⟩⟩ := Option.ite_none_right_eq_some.mp h
      exact .work (takeAt_perm ht) (.enter hroom.1)
    · cases h
  | emit i =>
    rw [Flow.step] at h
    split at h
    · rename_i spot tok others ht
      obtain ⟨hroom, ⟨⟩⟩ := Option.ite_none_right_eq_some.mp h
      exact .work (takeAt_perm ht) (.emit hroom.1)
    · cases h
  | start i =>
    rw [Flow.step] at h
    split at h
    · rename_i spot tok others ht
      obtain ⟨hroom, h⟩ := Option.ite_none_right_eq_some.mp h
      obtain ⟨task, htask, rfl⟩ := Option.map_eq_some_iff.mp h
      exact .work (takeAt_perm ht) (.start (hroom.imp_left And.left) htask)
    · cases h
  | startBatch is =>
    rw [Flow.step] at h
    split at h
    · rename_i p batch others ht
      obtain ⟨hroom, h⟩ := Option.ite_none_right_eq_some.mp h
      obtain ⟨toks, htoks, h⟩ := Option.bind_eq_some_iff.mp h
      obtain ⟨task, htask, rfl⟩ := Option.map_eq_some_iff.mp h
      refine .work (takeAt_perm ht) (.collect (fun q hq => ?_) (mapM_token? htoks) htask)
      exact of_decide_eq_true (List.all_eq_true.mp hroom.1 q hq)
    · cases h
  | act i ω =>
    rw [Flow.step] at h
    split at h
    · rename_i spot task others ht
      split at h
      · rename_i a k hc
        obtain rfl := Option.some.inj h
        exact .work (takeAt_perm ht) (.act _ hc)
      · cases h
    · cases h
  | hand i =>
    rw [Flow.step] at h
    split at h
    · rename_i spot task others ht
      obtain ⟨hroom, ⟨⟩⟩ := Option.ite_none_right_eq_some.mp h
      obtain ⟨toks, htoks⟩ := Option.isSome_iff_exists.mp hroom.2.1
      exact .work (takeAt_perm ht) (.hand hroom.1 (result?_eq_some htoks))
    · cases h
  | send i =>
    rw [Flow.step] at h
    split at h
    · rename_i spot task others ht
      split at h
      · rename_i tok toks hr
        obtain ⟨hroom, ⟨⟩⟩ := Option.ite_none_right_eq_some.mp h
        exact .work (takeAt_perm ht) (.send hroom.1 hr)
      · cases h
    · cases h
  | done i =>
    rw [Flow.step] at h
    split at h
    · rename_i spot task others ht
      split at h
      · rename_i hr
        obtain rfl := Option.some.inj h
        exact List.append_nil others ▸ .work (takeAt_perm ht) (.done hr)
      · cases h
    · cases h
  | output i =>
    rw [Flow.step] at h
    split at h
    · rename_i spot tok others ht
      obtain ⟨hfree, ⟨⟩⟩ := Option.ite_none_right_eq_some.mp h
      exact .output (takeAt_perm ht) (List.isEmpty_iff.mp hfree.1)
    · cases h

/-! ## The process without the places -/

/-- The same process, but for the order of the jobs. -/
structure Relayer.Same (r r' : Relayer) : Prop where
  eq : { r with jobs := r'.jobs } = r'
  jobs : r.jobs.Perm r'.jobs

theorem Relayer.Same.of_perm {r s : Relayer} (h : r.Same s) {jobs : List Job}
    (hjobs : r.jobs.Perm jobs) : r.Same { s with jobs := jobs } :=
  ⟨by rw [← h.eq], hjobs⟩

/-- Any items can be taken, wherever they are. -/
theorem takeAt_of_perm {α : Type} {xs l others : List α} (h : l.Perm (xs ++ others)) :
    ∃ is others', is.length = xs.length ∧ takeAt is l = some (xs, others') ∧
      others'.Perm others := by
  induction xs generalizing l with
  | nil => exact ⟨[], l, rfl, rfl, h⟩
  | cons x xs ih =>
    obtain ⟨i, hi, rfl⟩ := List.getElem_of_mem (h.symm.subset List.mem_cons_self)
    have hrest : (l.eraseIdx i).Perm (xs ++ others) :=
      ((List.getElem_cons_eraseIdx_perm hi).trans h).cons_inv
    obtain ⟨is, others', hlength, htake, hothers⟩ := ih hrest
    refine ⟨i :: is, others', by simp [hlength], ?_, hothers⟩
    simp [takeAt, List.getElem?_eq_getElem hi, htake]

theorem takeAt_singleton_of_perm {α : Type} {x : α} {l others : List α} (h : l.Perm (x :: others)) :
    ∃ i others', takeAt [i] l = some ([x], others') ∧ others'.Perm others := by
  have hperm : l.Perm ([x] ++ others) := h
  obtain ⟨is, others', hlength, htake, hothers⟩ := takeAt_of_perm hperm
  obtain ⟨i, rfl⟩ := List.length_eq_one_iff.mp hlength
  exact ⟨i, others', htake, hothers⟩

section Turns

variable {r s s' : Relayer}

theorem mapM_token?_rest (toks : List Token) : (toks.map Job.rest).mapM Job.token? = some toks := by
  induction toks with
  | nil => rfl
  | cons tok toks ih =>
    rw [List.map_cons, List.mapM_cons, ih]
    rfl

/-- What can be done with the jobs in one order can be done with them in any. -/
theorem Relayer.Same.progress {adm : (c : Call) → c.Ans → Prop} (h : r.Same s)
    (hp : s.Progress adm s') : ∃ r', r.Turn (fun _ _ => True) r' ∧ r'.Same s' := by
  obtain ⟨heq, hjobs⟩ := h
  cases hp with
  | @work old new others db' hperm hstep =>
    have hsame {others'} (ho : others'.Perm others) :
        Relayer.Same { r with db := db', jobs := others' ++ new }
        { s with db := db', jobs := others ++ new } :=
      ⟨by rw [← heq], ho.append_right _⟩
    have hdb : r.db = s.db := by rw [← heq]
    cases hstep with
    | start htask =>
      obtain ⟨i, others', ht, ho⟩ := takeAt_singleton_of_perm (hjobs.trans hperm)
      refine ⟨_, ⟨.start i, trivial, ?_⟩, hsame ho⟩
      rw [Relayer.step, ht]
      simp only [htask, Option.map_some, hdb]
    | collect htask =>
      obtain ⟨is, others', -, ht, ho⟩ := takeAt_of_perm (hjobs.trans hperm)
      refine ⟨_, ⟨.startBatch is, trivial, ?_⟩, hsame ho⟩
      rw [Relayer.step, ht]
      simp only [mapM_token?_rest, Option.bind_some, htask, Option.map_some, hdb]
    | @act task c k ans hc _ =>
      obtain ⟨i, others', ht, ho⟩ := takeAt_singleton_of_perm (hjobs.trans hperm)
      classical
      refine ⟨_, ⟨.act i (Function.update (Answers.answer {}) c ans), trivial, ?_⟩, hsame ho⟩
      rw [Relayer.step, ht]
      simp only [hc, Function.update_self, hdb]
    | finish hr =>
      obtain ⟨i, others', ht, ho⟩ := takeAt_singleton_of_perm (hjobs.trans hperm)
      refine ⟨_, ⟨.finish i, trivial, ?_⟩, hsame ho⟩
      rw [Relayer.step, ht]
      simp only [hr, result?, Option.map_some, hdb]
  | @output tok others hperm hstages =>
    obtain ⟨i, others', ht, ho⟩ := takeAt_singleton_of_perm (hjobs.trans hperm)
    have hin : r.inPipeline = s.inPipeline := by rw [← heq]
    refine ⟨{ r with inPipeline := s.inPipeline.filter (· ≠ tok.entry), jobs := others' },
      ⟨.output i, trivial, ?_⟩, ⟨by rw [← heq], ho⟩⟩
    rw [Relayer.step, ht]
    simp [hstages, hin]

/-- The dispatcher does not look at the jobs, and puts its transfer after them. -/
theorem submit_jobs (s : Relayer) (l : List Job) (t : IBCV2Transfer)
    (opts : Except Err PipelineOptions)
    (ans : Except Err Unit) : Relayer.submit { s with jobs := l } t opts ans =
      { s.submit t opts ans with jobs := l ++ (s.submit t opts ans).jobs.drop s.jobs.length } := by
  have hpush (pl : Pipeline) (s : Relayer) : (Relayer.push { s with jobs := l } pl t).2 =
      { (s.push pl t).2 with jobs := l ++ (s.push pl t).2.jobs.drop s.jobs.length } := by
    by_cases hm : Token.entry ⟨pl, t, newPipeline pl, false⟩ ∈ s.inPipeline <;>
      simp [Relayer.push, hm]
  -- Only the pipelines change before `Push`, and the jobs have no part in it.
  have hjobs : (s.pipeline t opts).2.jobs = s.jobs := rfl
  have hpipeline : Relayer.pipeline { s with jobs := l } t opts =
      ((s.pipeline t opts).1, { (s.pipeline t opts).2 with jobs := l }) := rfl
  rcases h : s.pipeline t opts with ⟨res, s₁⟩
  rw [h] at hjobs hpipeline
  rw [← hjobs]
  cases res with
  | ok pl =>
    rw [submit_of_pipeline h, submit_of_pipeline hpipeline]
    exact hpush pl s₁
  | error err =>
    rw [submit_of_error h, submit_of_error hpipeline]
    split <;> simp

theorem step_jobs {a : Action} (ha : a.advances = false) (s : Relayer) (l : List Job) :
    Relayer.step { s with jobs := l } a =
      (s.step a).map fun s' => { s' with jobs := l ++ s'.jobs.drop s.jobs.length } := by
  cases a with
  | insert p =>
    rw [Relayer.step, Relayer.step]
    split <;> simp
  | poll =>
    rw [Relayer.step, Relayer.step]
    split <;> simp
  | submit opts ans =>
    rw [Relayer.step, Relayer.step]
    cases hp : s.polled with
    | nil => rfl
    | cons r polled => exact congrArg some (submit_jobs { s with polled := polled } l ..)
  | _ => cases ha

/-- The transfers that the dispatcher adds to the jobs: one, if it submits a row. -/
structure Action.Pushes (a : Action) (toks : List Token) : Prop where
  length : toks.length ≤ 1
  submits : toks ≠ [] → ∃ opts ans, a = .submit opts ans
  fresh : ∀ tok ∈ toks, tok.queued = false ∧ tok.stages ≠ []

theorem Action.Pushes.nil (a : Action) : a.Pushes [] := ⟨by simp, by simp, by simp⟩

theorem dispatcher_jobs {a : Action} (ha : a.advances = false) (h : s.step a = some s') :
    ∃ toks : List Token, s'.jobs = s.jobs ++ toks.map .rest ∧ a.Pushes toks := by
  cases a with
  | insert p =>
    rw [Relayer.step] at h
    split at h
    · cases h
    · cases h
      exact ⟨[], (List.append_nil _).symm, .nil _⟩
  | poll =>
    rw [Relayer.step] at h
    split at h
    · cases h
      exact ⟨[], (List.append_nil _).symm, .nil _⟩
    · cases h
  | submit opts ans =>
    obtain ⟨t, polled, -, htakes⟩ := takes_of_step h
    cases htakes with
    | refused _ => exact ⟨[], (List.append_nil _).symm, .nil _⟩
    | failed _ => exact ⟨[], (List.append_nil _).symm, .nil _⟩
    | @pushed pl pipelines _ _ =>
      refine ⟨[⟨pl, newIBCV2Transfer t, newPipeline pl, false⟩], rfl,
        by simp, fun _ => ⟨opts, ans, rfl⟩, ?_⟩
      simp [newPipeline]
  | _ => cases ha

end Turns

section Refines

variable {sizes : Sizes} {c c' : Flow} {r r' : Relayer}

theorem jobs_dispatched {toks : List Token} (h : r.jobs = c.relayer.jobs ++ toks.map .rest) :
    (c.dispatched r).jobs = c.jobs ++ toks.map fun tok => ⟨tok.at .push, .rest tok⟩ := by
  have htoks : (toks.map Job.rest).filterMap Job.token? = toks := by
    rw [List.filterMap_map]
    exact List.filterMap_some
  rw [Flow.dispatched, h, List.drop_left, htoks]

/-- What the dispatcher makes of the process with its channels is what it makes of the
one without. -/
theorem relayer_dispatched {a : Action} (ha : a.advances = false) (h : c.relayer.step a = some r) :
    (c.dispatched r).relayer = r := by
  obtain ⟨toks, hjobs, -⟩ := dispatcher_jobs ha h
  have hsent : (toks.map fun tok => (⟨tok.at .push, .rest tok⟩ : Placed)).flatMap (·.job.sent) =
      toks.map .rest := by
    rw [List.flatMap_map]
    exact List.map_eq_flatMap.symm
  have heq : (c.dispatched r).relayer.jobs = r.jobs := by
    rw [Flow.relayer, jobs_dispatched hjobs, List.flatMap_append, hsent, hjobs]
    rfl
  obtain ⟨db, hasPriceClient, polled, pipelines, inPipeline, jobs⟩ := r
  exact congrArg (Relayer.mk db hasPriceClient polled pipelines inPipeline) heq

theorem Relayer.Same.dispatcher {a : Action} {s s' : Relayer} (ha : a.advances = false)
    (h : r.Same s) (hs : s.step a = some s') : ∃ r', r.Turn (fun _ _ => True) r' ∧ r'.Same s' := by
  obtain ⟨toks, hjobs, -⟩ := dispatcher_jobs ha hs
  have hr : r = { s with jobs := r.jobs } := by rw [← h.eq]
  refine ⟨{ s' with jobs := r.jobs ++ s'.jobs.drop s.jobs.length }, ⟨a, trivial, ?_⟩, rfl, ?_⟩
  · rw [hr, step_jobs ha, hs, ← hr]
    rfl
  · rw [hjobs, List.drop_left]
    exact h.jobs.append_right _

/-- A turn of the dispatcher, which submits a row only if it is not in `Push`. -/
theorem flow_dispatched {a : FlowAction} (ha : a.advances = false) (h : c.step sizes a = some c') :
    ∃ a' r, Action.advances a' = false ∧ c.relayer.step a' = some r ∧ c.dispatched r = c' ∧
      ∀ opts ans, a' = .submit opts ans → c.isPushing = false := by
  cases a with
  | insert p =>
    obtain ⟨r, hr, rfl⟩ := Option.map_eq_some_iff.mp h
    exact ⟨.insert p, r, rfl, hr, rfl, fun _ _ h => by cases h⟩
  | poll =>
    obtain ⟨-, h⟩ := Option.ite_none_left_eq_some.mp h
    obtain ⟨r, hr, rfl⟩ := Option.map_eq_some_iff.mp h
    exact ⟨.poll, r, rfl, hr, rfl, fun _ _ h => by cases h⟩
  | submit opts ans =>
    obtain ⟨hpushing, h⟩ := Option.ite_none_left_eq_some.mp h
    obtain ⟨r, hr, rfl⟩ := Option.map_eq_some_iff.mp h
    exact ⟨.submit opts ans, r, rfl, hr, rfl, fun _ _ _ => Bool.eq_false_iff.mpr hpushing⟩
  | _ => cases ha

/-- A step is none of the process without channels, or one of a goroutine that may be
done with it. -/
theorem PlacedStep.sent {db db' : Transfers} {old new : List Placed}
    (h : PlacedStep db old new db') :
    db' = db ∧ (old.flatMap (·.job.sent)).Perm (new.flatMap (·.job.sent)) ∨
      ∃ task, JobStep (fun _ _ => True) db (old.flatMap (·.job.sent)) [.run task] db' ∧
        new.flatMap (·.job.sent) = (Job.run task).sent := by
  cases h with
  | enter _ => exact .inl ⟨rfl, .refl _⟩
  | emit _ => exact .inl ⟨rfl, .refl _⟩
  | start _ htask => exact .inr ⟨_, .start htask, List.append_nil _⟩
  | @collect p batch toks task _ hjobs htask =>
    refine .inr ⟨task, ?_, List.append_nil _⟩
    have hsent : (p :: batch).flatMap (·.job.sent) = toks.map .rest := by
      rw [← List.flatMap_map, hjobs, List.flatMap_map]
      exact List.map_eq_flatMap.symm
    rw [hsent]
    exact .collect htask
  | @act spot task a k ans hc =>
    refine .inr ⟨_, ?_, List.append_nil _⟩
    have hsent : [(⟨spot, .run task⟩ : Placed)].flatMap (·.job.sent) = [.run task] := by
      simp [Job.sent, hc]
    rw [hsent]
    exact .act ans hc trivial
  | hand _ _ => exact .inl ⟨rfl, .refl _⟩
  | send _ hr =>
    refine .inl ⟨rfl, ?_⟩
    simpa [Job.sent, hr] using (List.perm_append_singleton ..).symm
  | done hr => exact .inl ⟨rfl, by simp [Job.sent, hr]⟩

/-- A goroutine that is done sends its transfers on. -/
theorem Relayer.Same.finishes {s : Relayer} {others : List Job} {task : Task}
    (h : r.Same { s with jobs := others ++ [.run task] }) :
    ∃ r', ReflTransGen (Relayer.Turn fun _ _ => True) r r' ∧
      r'.Same { s with jobs := others ++ (Job.run task).sent } := by
  cases hp : task.prog with
  | call a k =>
    refine ⟨r, .refl, ?_⟩
    simpa only [Job.sent, hp] using h
  | ret toks =>
    have hprogress : Relayer.Progress (fun _ _ => True) { s with jobs := others ++ [.run task] }
        { s with jobs := others ++ toks.map .rest } :=
      .work List.perm_append_comm (.finish hp)
    obtain ⟨r', hturn, hsame⟩ := h.progress hprogress
    refine ⟨r', .single hturn, ?_⟩
    simpa only [Job.sent, hp] using hsame

theorem Flow.Progress.refines (h : c.Progress c') (hr : r.Same c.relayer) :
    ∃ r', ReflTransGen (Relayer.Turn fun _ _ => True) r r' ∧ r'.Same c'.relayer := by
  cases h with
  | @work old new others db' hperm hstep =>
    have hjobs : c.relayer.jobs.Perm (old.flatMap (·.job.sent) ++ others.flatMap (·.job.sent)) := by
      rw [← List.flatMap_append]
      exact hperm.flatMap_right _
    rcases hstep.sent with ⟨rfl, hsent⟩ | ⟨task, hstep, hsent⟩
    · refine ⟨r, .refl, hr.of_perm ?_⟩
      rw [List.flatMap_append]
      exact (hr.jobs.trans hjobs).trans ((hsent.append_right _).trans List.perm_append_comm)
    · obtain ⟨r₁, hturn, hsame⟩ := hr.progress (.work hjobs hstep)
      obtain ⟨r₂, hturns, hsame'⟩ := Relayer.Same.finishes (s := { c.relayer with db := db' }) hsame
      refine ⟨r₂, (ReflTransGen.single hturn).trans hturns, ?_⟩
      rw [← hsent, ← List.flatMap_append] at hsame'
      exact hsame'
  | @output spot tok others hperm hstages =>
    have hjobs : c.relayer.jobs.Perm (.rest tok :: others.flatMap (·.job.sent)) := by
      have hsent := hperm.flatMap_right fun p => p.job.sent
      exact hsent
    have hprogress : c.relayer.Progress (fun _ _ => True) _ := .output hjobs hstages
    obtain ⟨r', hturn, hsame⟩ := hr.progress hprogress
    exact ⟨r', .single hturn, hsame⟩

theorem flow_refines {db : Transfers} {hasPriceClient : Bool}
    (h : ReflTransGen (Flow.Turn sizes) { db, hasPriceClient } c) :
    ∃ r, ReflTransGen (Relayer.Turn fun _ _ => True) { db, hasPriceClient } r ∧
      r.Same c.relayer := by
  induction h with
  | refl => exact ⟨_, .refl, rfl, .refl _⟩
  | @tail c c' _ hturn ih =>
    obtain ⟨r, hr, hsame⟩ := ih
    obtain ⟨a, hstep⟩ := hturn
    cases ha : a.advances with
    | true =>
      obtain ⟨r', hturns, hsame'⟩ := (flow_progress ha hstep).refines hsame
      exact ⟨r', hr.trans hturns, hsame'⟩
    | false =>
      obtain ⟨a', s', ha', hs', rfl, -⟩ := flow_dispatched ha hstep
      obtain ⟨r', hturn, hsame'⟩ := hsame.dispatcher ha' hs'
      rw [relayer_dispatched ha' hs']
      exact ⟨r', hr.tail hturn, hsame'⟩

end Refines

end PlatformRelayer

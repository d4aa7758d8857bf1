import PlatformRelayer.Proof.Races

/-!
# What the turns do to the jobs

A goroutine makes other jobs of those that it takes (`JobStep`), whatever it is
answered. `Relayer.Changes` says what a turn can do to the jobs, and `jobs_turns`
is the rule for what holds of all of them.
-/

namespace PlatformRelayer

open Prog Db Relation

/-- The turns of the goroutines and of the dedupers: all but those of the
dispatcher, and of the rows that come in. -/
def Action.advances : Action → Bool
  | .insert _ | .poll | .submit .. => false
  | _ => true

/-- What a goroutine makes in a turn of the jobs that it takes, and of the table,
where its call is answered as `adm` allows. -/
inductive JobStep (adm : (c : Call) → c.Ans → Prop)
    (db : Transfers) : List Job → List Job → Transfers → Prop where
  | start {tok task} : tok.start = some task → JobStep adm db [.rest tok] [.run task] db
  | collect {toks task} : collect toks = some task → JobStep adm db (toks.map .rest) [.run task] db
  | act {task : Task} {c k} (ans : c.Ans) : task.prog = .call c k → adm c ans →
    JobStep adm db [.run task] [.run { task with prog := k ans }] (c.effect ans db)
  | finish {task : Task} {toks} : task.prog = .ret toks →
    JobStep adm db [.run task] (toks.map .rest) db

/-- The rule for what holds of the jobs that a goroutine makes. -/
theorem JobStep.preserves {adm : (c : Call) → c.Ans → Prop} {db db' : Transfers}
    {old new : List Job} {P : Job → Prop} (h : JobStep adm db old new db') (hold : ∀ j ∈ old, P j)
    (hstart : ∀ {tok task}, tok.start = some task → P (.rest tok) → P (.run task))
    (hcollect : ∀ {toks task}, PlatformRelayer.collect toks = some task →
      (∀ tok ∈ toks, P (.rest tok)) → P (.run task))
    (hact : ∀ {task : Task} {c k} (ans : c.Ans), task.prog = .call c k → adm c ans → P (.run task) →
      P (.run { task with prog := k ans }))
    (hfinish : ∀ {task : Task} {toks}, task.prog = .ret toks → P (.run task) → ∀ tok ∈ toks,
      P (.rest tok)) :
    ∀ j ∈ new, P j := by
  intro j hj
  cases h with
  | start htask =>
    obtain rfl := List.mem_singleton.mp hj
    exact hstart htask (hold _ List.mem_cons_self)
  | collect htask =>
    obtain rfl := List.mem_singleton.mp hj
    exact hcollect htask fun tok hm => hold _ (List.mem_map_of_mem hm)
  | act ans hc hans =>
    obtain rfl := List.mem_singleton.mp hj
    exact hact ans hc hans (hold _ List.mem_cons_self)
  | finish hr =>
    obtain ⟨tok, hm, rfl⟩ := List.mem_map.mp hj
    exact hfinish hr (hold _ List.mem_cons_self) tok hm

inductive Relayer.Progress (adm : (c : Call) → c.Ans → Prop) (s : Relayer) : Relayer → Prop where
  | work {old new others db'} : s.jobs.Perm (old ++ others) → JobStep adm s.db old new db' →
    s.Progress adm { s with db := db', jobs := others ++ new }
  | output {tok others} : s.jobs.Perm (.rest tok :: others) → tok.stages = [] →
    s.Progress adm { s with inPipeline := s.inPipeline.filter (· ≠ tok.entry), jobs := others }

/-- The answers that a turn is given. -/
def Action.Answers (adm : (c : Call) → c.Ans → Prop) : Action → Prop
  | .act _ ω => ∀ c, adm c (ω c)
  | _ => True

theorem progress {adm : (c : Call) → c.Ans → Prop} {s s' : Relayer} {a : Action}
    (ha : a.advances = true)
    (hadm : a.Answers adm) (h : s.step a = some s') : s.Progress adm s' := by
  cases a with
  | insert p => cases ha
  | poll => cases ha
  | submit opts ans => cases ha
  | start i =>
    rw [Relayer.step] at h
    split at h
    · rename_i tok others ht
      obtain ⟨task, htask, rfl⟩ := Option.map_eq_some_iff.mp h
      exact .work (takeAt_perm ht) (.start htask)
    · cases h
  | startBatch is =>
    rw [Relayer.step] at h
    split at h
    · rename_i batch others ht
      obtain ⟨toks, htoks, h⟩ := Option.bind_eq_some_iff.mp h
      obtain ⟨task, htask, rfl⟩ := Option.map_eq_some_iff.mp h
      exact .work (mapM_token? htoks ▸ takeAt_perm ht) (.collect htask)
    · cases h
  | act i ω =>
    rw [Relayer.step] at h
    split at h
    · rename_i task others ht
      split at h
      · rename_i c k hc
        obtain rfl := Option.some.inj h
        exact .work (takeAt_perm ht) (.act _ hc (hadm c))
      · cases h
    · cases h
  | finish i =>
    rw [Relayer.step] at h
    split at h
    · rename_i task others ht
      obtain ⟨toks, htoks, rfl⟩ := Option.map_eq_some_iff.mp h
      exact .work (takeAt_perm ht) (.finish (result?_eq_some htoks))
    · cases h
  | output i =>
    rw [Relayer.step] at h
    split at h
    · rename_i tok others ht
      split at h
      · rename_i hempty
        obtain rfl := Option.some.inj h
        exact .output (takeAt_perm ht) (List.isEmpty_iff.mp hempty)
      · cases h
    · cases h

/-- What the dispatcher does with a transfer. -/
inductive Relayer.Takes (s : Relayer) (t : IBCV2Transfer)
    (opts : Except Err PipelineOptions) : Relayer → Prop where
  | refused {pipelines} : (newPipelineKey t, t.key) ∈ s.inPipeline →
    s.Takes t opts { s with pipelines := pipelines }
  | failed {err db} : opts = .error err → s.Takes t opts { s with db := db }
  | pushed {pl pipelines} : pl.key = newPipelineKey t → (newPipelineKey t, t.key) ∉ s.inPipeline →
    s.Takes t opts { s with
      pipelines := pipelines
      inPipeline := (newPipelineKey t, t.key) :: s.inPipeline
      jobs := s.jobs ++ [.rest ⟨pl, t, newPipeline pl, false⟩] }

theorem takes_submit (s : Relayer) (t : IBCV2Transfer) (opts : Except Err PipelineOptions)
    (ans : Except Err Unit) : s.Takes t opts (s.submit t opts ans) := by
  have hpush {pl : Pipeline} {pipelines : List Pipeline} (hk : pl.key = newPipelineKey t) :
      s.Takes t opts (Relayer.push { s with pipelines := pipelines } pl t).2 := by
    have he : Token.entry ⟨pl, t, newPipeline pl, false⟩ = (newPipelineKey t, t.key) :=
      Prod.ext hk rfl
    rw [Relayer.push, he]
    split
    · exact .refused ‹_›
    · exact .pushed hk ‹_›
  rcases pipeline_cases s t opts with ⟨pl, -, hk, h⟩ | ⟨-, ⟨e, err, he, h⟩ | ⟨o, -, h⟩⟩
  · rw [submit_of_pipeline h]
    exact hpush hk
  · rw [submit_of_error h]
    split <;> exact .failed he
  · rw [submit_of_pipeline h]
    exact hpush rfl

theorem takes_of_step {s s' : Relayer} {opts : Except Err PipelineOptions} {ans : Except Err Unit}
    (hs : s.step (.submit opts ans) = some s') :
    ∃ r polled, s.polled = r :: polled ∧
      Relayer.Takes { s with polled := polled } (newIBCV2Transfer r) opts s' := by
  rw [Relayer.step] at hs
  split at hs
  · cases hs
  · rename_i r polled hp
    obtain rfl := Option.some.inj hs
    exact ⟨r, polled, hp, takes_submit _ _ _ _⟩

/-- What a turn does to the jobs and to the sets of the dedupers. -/
inductive Relayer.Changes (adm : (c : Call) → c.Ans → Prop) (s s' : Relayer) : Prop where
  | kept : s'.jobs = s.jobs → s'.inPipeline = s.inPipeline → s.Changes adm s'
  | pushed (tok : Token) : tok.queued = false → tok.entry ∉ s.inPipeline →
    s'.inPipeline = tok.entry :: s.inPipeline → s'.jobs = s.jobs ++ [.rest tok] → s.Changes adm s'
  | progress : s.Progress adm s' → s.Changes adm s'

section Changes

variable {adm : (c : Call) → c.Ans → Prop} {s s' : Relayer}

theorem changes {a : Action} (hadm : a.Answers adm)
    (hs : s.step a = some s') : s.Changes adm s' := by
  cases ha : a.advances with
  | true => exact .progress (progress ha hadm hs)
  | false =>
    cases a with
    | insert p =>
      rw [Relayer.step] at hs
      split at hs
      · cases hs
      · obtain rfl := Option.some.inj hs
        exact .kept rfl rfl
    | poll =>
      rw [Relayer.step] at hs
      split at hs
      · obtain rfl := Option.some.inj hs
        exact .kept rfl rfl
      · cases hs
    | submit opts ans =>
      obtain ⟨r, polled, -, ht⟩ := takes_of_step hs
      cases ht with
      | refused _ => exact .kept rfl rfl
      | failed _ => exact .kept rfl rfl
      | @pushed pl pipelines hk hn =>
        have he : Token.entry ⟨pl, newIBCV2Transfer r, newPipeline pl, false⟩ =
            (newPipelineKey (newIBCV2Transfer r), (newIBCV2Transfer r).key) := Prod.ext hk rfl
        refine .pushed ⟨pl, newIBCV2Transfer r, newPipeline pl, false⟩ rfl ?_ ?_ rfl
        · rw [he]
          exact hn
        · rw [he]
    | _ => cases ha

/-- What holds for the transfers that are pushed, and for what a goroutine makes
of jobs for which it holds, holds for all jobs. -/
theorem Relayer.Changes.jobs (h : s.Changes adm s') {P : Job → Prop}
    (hpush : ∀ tok, tok.queued = false → P (.rest tok))
    (hstep : ∀ {db db' old new}, JobStep adm db old new db' → (∀ j ∈ old, P j) → ∀ j ∈ new, P j)
    (hs : ∀ j ∈ s.jobs, P j) : ∀ j ∈ s'.jobs, P j := by
  intro j hj
  cases h with
  | kept hjobs _ => exact hs j (hjobs ▸ hj)
  | pushed tok hq _ _ hjobs =>
    rw [hjobs] at hj
    rcases List.mem_append.mp hj with hj | hj
    · exact hs j hj
    · obtain rfl := List.mem_singleton.mp hj
      exact hpush tok hq
  | progress h =>
    cases h with
    | work hp hw =>
      rcases List.mem_append.mp hj with hj | hj
      · exact hs j (hp.symm.subset (List.mem_append_right _ hj))
      · exact hstep hw (fun i hi => hs i (hp.symm.subset (List.mem_append_left _ hi))) j hj
    | output hp _ => exact hs j (hp.symm.subset (List.mem_cons_of_mem _ hj))

theorem jobs_turns {ok : Relayer → Action → Prop} (hok : ∀ s a, ok s a → a.Answers adm)
    {P : Job → Prop} (hpush : ∀ tok, tok.queued = false → P (.rest tok))
    (hstep : ∀ {db db' old new}, JobStep adm db old new db' → (∀ j ∈ old, P j) → ∀ j ∈ new, P j)
    {db : Transfers} {hasPriceClient : Bool}
    (hs : ReflTransGen (Relayer.Turn ok) { db, hasPriceClient } s) : ∀ j ∈ s.jobs, P j := by
  induction hs with
  | refl => exact fun _ h => absurd h List.not_mem_nil
  | tail _ ht ih =>
    obtain ⟨a, ha, hs⟩ := ht
    exact (changes (hok _ a ha) hs).jobs hpush hstep ih

/-- Any answers are allowed. -/
theorem answers_any (a : Action) : a.Answers fun _ _ => True := by
  cases a with
  | act i ω => exact fun _ => trivial
  | _ => trivial

end Changes

end PlatformRelayer

import PlatformRelayer.Proof.Deliveries
import PlatformRelayer.Proof.Interleaving

/-!
# What the dispatcher races with

The dispatcher submits a row some time after it has polled it, and the deduper
only looks whether a transfer of the row is in the pipeline at that time. If
what comes in is up to date, no tx of a kind is submitted while one is recorded
(`not_submitted_twice`), and a finished row is left alone (`finished_stays`).
If a transfer of the row has gone through the pipeline since the poll, it may be
out of date: the same tx is submitted again (`submitted_twice`), and a finished
row is worked on (`finished_changed`).
-/

namespace PlatformRelayer

open Db Prog Relation

variable {pl : Pipeline} {tr : List Event} {st : Stage} {x y : IBCV2Transfer × Ibcv2Transfer}

/-- Nothing is done to a transfer that has an error. -/
theorem Life.columns_of_errored (hl : Life pl tr st x y) (hx : x.1.processingError ≠ none) :
    y.2.columns = x.2.columns := by
  cases hl with
  | enter _ ha => exact absurd ha.1 hx
  | found _ _ ha => exact absurd ha.1 hx
  | delivered _ _ ha => exact absurd ha.1 hx
  | cleared _ _ ha => exact absurd ha.1 hx
  | wroteAck _ _ _ ha => exact absurd ha.1 hx
  | priced _ _ _ ha => exact absurd ha.1 hx
  | finish he => exact absurd he hx
  | _ => rfl

/-! ## Runs that can be computed -/

section Runs

variable {ok : Relayer → Action → Prop}

/-- The state after a turn, if it can be taken. -/
def Relayer.after (s : Relayer) (a : Action) : Relayer := (s.step a).getD s

theorem turns_after {s : Relayer} {a : Action}
    (h : ok s a) : ReflTransGen (Relayer.Turn ok) s (s.after a) := by
  rw [Relayer.after]
  cases hs : s.step a with
  | none => exact .refl
  | some s' => exact .single ⟨a, h, hs⟩

/-- The turn that takes the first job on, with these answers. -/
def Relayer.nextAction (w : Answers) (s : Relayer) : Action :=
  match s.jobs with
  | .run task :: _ => if task.prog.result?.isSome then .finish 0 else .act 0 w.answer
  | .rest tok :: _ => if tok.queued then .startBatch [0] else if tok.stages.isEmpty then .output 0
    else .start 0
  | [] => .output 0

/-- The first job is taken on for `n` turns. -/
def Relayer.drive (w : Answers) : Nat → Relayer → Relayer
  | 0, s => s
  | n + 1, s => Relayer.drive w n (s.after (s.nextAction w))

theorem turns_drive {w : Answers} (h : ∀ s : Relayer, ok s (s.nextAction w)) (n : Nat)
    (s : Relayer) : ReflTransGen (Relayer.Turn ok) s (s.drive w n) := by
  induction n generalizing s with
  | zero => exact .refl
  | succ n ih => exact (turns_after (h s)).trans (ih _)

theorem nextAction_cases {P : Action → Prop} {w : Answers} (hact : P (.act 0 w.answer))
    (hfinish : P (.finish 0))
    (hstart : P (.start 0)) (hbatch : P (.startBatch [0])) (houtput : P (.output 0)) (s : Relayer) :
    P (s.nextAction w) := by
  rw [Relayer.nextAction]
  split
  · split <;> assumption
  · split
    · exact hbatch
    · split <;> assumption
  · exact houtput

/-- No statement fails. -/
def Call.StorageSucceeds : (c : Call) → c.Ans → Prop
  | .exec _, ans => ans = .ok ()
  | .txBegin, ans => ans = .ok ()
  | .txExec _, ans => ans = .ok ()
  | .txCommit _, ans => ans = .ok ()
  | .txRollback, ans => ans = .ok ()
  | _, _ => True

def Action.StorageSucceeds : Action → Prop
  | .submit _ ans => ans = .ok ()
  | .act _ ω => ∀ c : Call, c.StorageSucceeds (ω c)
  | _ => True

theorem storageSucceeds_nextAction (w : Answers) (s : Relayer) : (s.nextAction w).StorageSucceeds :=
  nextAction_cases (fun c => by cases c <;> first | rfl | trivial) trivial trivial trivial trivial s

theorem settles_nextAction {Fresh : Ibcv2Transfer → Ibcv2Transfer → Prop} (w : Answers)
    (s : Relayer) : s.Settles (s.nextAction w) ∧ s.Submits Fresh (s.nextAction w) :=
  nextAction_cases (P := fun a => s.Settles a ∧ s.Submits Fresh a)
    ⟨fun _ c _ _ _ => by cases c <;> first | rfl | trivial, trivial⟩ ⟨trivial, trivial⟩
    ⟨trivial, trivial⟩
    ⟨trivial, trivial⟩ ⟨trivial, trivial⟩ s

/-- What the first job is about to submit. -/
def Relayer.submission? (s : Relayer) : Option Submission :=
  match s.jobs with
  | .run task :: _ => task.prog.next?.bind Call.submission?
  | _ => none

theorem submission?_eq_some {s : Relayer} {sub : Submission} (h : s.submission? = some sub) :
    ∃ task c, .run task ∈ s.jobs ∧ task.prog.next? = some c ∧ c.submission? = some sub := by
  rw [Relayer.submission?] at h
  split at h
  · rename_i task _ hj
    obtain ⟨c, hc, hsub⟩ := Option.bind_eq_some_iff.mp h
    exact ⟨task, c, hj ▸ List.mem_cons_self, hc, hsub⟩
  · cases h

/-- The dispatcher has polled and submitted the one row there is. -/
def submitted : Relayer :=
  (Relayer.after { db := oneRow } .poll).after (.submit (.ok someOptions) (.ok ()))

theorem turns_submitted {Fresh : Ibcv2Transfer → Ibcv2Transfer → Prop}
    (h : Fresh (insertedRow somePacket) (insertedRow somePacket)) :
    ReflTransGen (Relayer.Turn fun s a => s.Settles a ∧ s.Submits Fresh a) { db := oneRow }
      submitted := by
  refine (turns_after ⟨trivial, trivial⟩).trans (turns_after ⟨trivial, fun polled hp _ r hr => ?_⟩)
  have hpolled : polled = insertedRow somePacket := (Option.some.inj hp).symm
  subst hpolled
  have hrow : oneRow.row? (insertedRow somePacket).key = some (insertedRow somePacket) := by
    decide +kernel
  rw [← Option.some.inj (hrow.symm.trans hr)]
  exact h

/-- The dispatcher polls while the transfer is in the pipeline, the transfer
goes through it for `n` turns, and then what was polled is submitted. -/
def raced (w : Answers) (n : Nat) : Relayer :=
  ((submitted.after .poll).drive w n).after (.submit (.ok someOptions) (.ok ()))

theorem turns_raced (w : Answers) (n : Nat) :
    ReflTransGen (Relayer.Turn fun _ a => a.StorageSucceeds) { db := oneRow } (raced w n) :=
  (turns_after trivial).trans <| (turns_after rfl).trans <| (turns_after trivial).trans <|
    (turns_drive (storageSucceeds_nextAction w) n _).trans (turns_after rfl)

end Runs

/-! ## Recorded txs -/

/-- The txs that the polled row does not have are not recorded by now. -/
def NotRecordedSince (polled r : Ibcv2Transfer) : Prop :=
  ∀ k, (polled.tx k).hash = none → (r.tx k).hash = none

/-- A row gets no tx that the transfer does not get, and loses one only where
the transfer fails. -/
theorem Life.row_hash (hl : Life pl tr st x y) (hy : y.1.processingError = none) {j : TxKind}
    (hj : (y.1.tx j).hash = none) : (y.2.tx j).hash = (x.2.tx j).hash := by
  cases hl with
  | fail => cases hy
  | @found t r k tx =>
    have hne : j ≠ k := by
      rintro rfl
      exact absurd (hj.symm.trans (t.hash_foundTx j tx)) (by simp)
    rw [tx_recorded, if_neg hne]
  | @delivered t r k tx =>
    have hne : j ≠ k := by
      rintro rfl
      exact absurd (hj.symm.trans (t.hash_record j tx)) (by simp)
    rw [tx_recorded, if_neg hne]
  | cleared => cases hy
  | writeAckFinalized => cases j <;> rfl
  | priced k => cases k <;> cases j <;> rfl
  | _ => cases j <;> rfl

/-- While it has no error, a transfer knows of the txs that are recorded. -/
theorem Life.knows (hl : Life pl tr st x y)
    (hx : x.1.processingError = none → ∀ k, (x.1.tx k).hash = none → (x.2.tx k).hash = none)
    (hy : y.1.processingError = none) (j : TxKind)
    (hj : (y.1.tx j).hash = none) : (y.2.tx j).hash = none := by
  have hhash : (x.1.tx j).hash = none := by
    simpa [IBCV2Transfer.has] using hl.has_false (k := j) (by simp [IBCV2Transfer.has, hj])
  exact (hl.row_hash hy hj).trans (hx (hl.clean hy) j hhash)

/-- A transfer knows of the txs that are recorded, and where a tx is submitted
none of its kind is. -/
def recording : Discipline where
  Fresh := NotRecordedSince
  Safe tok cols := tok.transfer.processingError = none → ∀ k, (tok.transfer.tx k).hash = none →
    cols.hash k = none
  Pre K c cols := ∀ sub, c.submission? = some sub → (∃ u ∈ sub.transfers, u.key = K) →
    cols.hash sub.kind = none
  enter {polled _} _ h _ k hk := h k (((Synced.load polled).hash k).symm.trans hk)
  idle _ hc sub hsub := fun ⟨u, hu, _⟩ => absurd (hc.transfers sub hsub u hu) List.not_mem_nil
  wait _ h _ := h
  work {tok st rest x r} _ _ hs hx := by
    refine hx.mono ?_ ?_
    · rintro c _ ⟨s', rfl, ⟨-, hq | hsp⟩, -⟩ sub hsub ⟨u, hu, hk⟩
      · cases c with
        | deliverTx => exact absurd hq id
        | _ => cases hsub
      · cases hsp with
        | finish => cases hsub
        | deliver hstage hh _ =>
          cases hsub
          have hd := hh u hu hk
          have hnone : (tok.transfer.tx sub.kind).hash = none := by
            simpa [IBCV2Transfer.has] using hd.guard.deliverable.has
          exact (congrArg TxRecord.hash hd.row).trans (hs hd.active.1 _ hnone)
    · rintro out _ ⟨-, hout⟩ tok' hm hk
      obtain ⟨-, s', rfl, hreach⟩ := hout tok' hm hk
      exact hreach.keep (P := fun x => x.1.processingError = none → ∀ k, (x.1.tx k).hash = none →
        (x.2.tx k).hash = none) (fun _ _ hl => hl.knows) hs

/-- Where a batch is delivered, no tx of its kind is recorded for any of its
transfers, in every run in which the dispatcher submits up to date rows and the
states of batches can be written. -/
theorem not_submitted_twice {db : Transfers} {hasPriceClient : Bool} {s : Relayer} {task : Task}
    {c : Call} {sub : Submission}
    (hrun : ReflTransGen (Relayer.Turn fun s a => s.Settles a ∧ s.Submits NotRecordedSince a)
      { db := db, hasPriceClient := hasPriceClient } s)
    (hjob : .run task ∈ s.jobs) (hcall : task.prog.next? = some c) (hsub : c.submission? = some sub)
    {u : IBCV2Transfer} (hu : u ∈ sub.transfers) :
    ∃ r, s.db.row? u.key = some r ∧ (r.tx sub.kind).hash = none := by
  have hinv : s.Inv recording := (Relayer.Inv.start recording db hasPriceClient).run hrun
  obtain ⟨hw, hpre⟩ := hinv.next hjob hcall
  obtain ⟨e, he, hk⟩ := List.mem_map.mp (hw.transfers sub hsub u hu)
  obtain ⟨r, hr, hp⟩ := hpre e he
  exact ⟨r, hk ▸ hr.1, hp sub hsub ⟨u, hu, hk.symm⟩⟩

/-- The recv tx is about to be submitted for the first time. -/
theorem not_submitted_twice_first : ∃ task c sub u r, .run task ∈ (submitted.drive {} 34).jobs ∧
    task.prog.next? = some c ∧ c.submission? = some sub ∧ u ∈ sub.transfers ∧
    (submitted.drive {} 34).db.row? u.key = some r ∧ (r.tx sub.kind).hash = none := by
  have hsub : (submitted.drive {} 34).submission?.any
      (fun sub => !sub.transfers.isEmpty) = true := by decide +kernel
  obtain ⟨sub, hs, hne⟩ := (Option.any_eq_true _ _).mp hsub
  obtain ⟨task, c, hjob, hcall, hsub⟩ := submission?_eq_some hs
  obtain ⟨u, hu⟩ := List.exists_mem_of_ne_nil sub.transfers (by simpa using hne)
  obtain ⟨r, hr, hh⟩ := not_submitted_twice
    ((turns_submitted fun _ h => h).trans (turns_drive (settles_nextAction {}) 34 _)) hjob
    hcall hsub hu
  exact ⟨task, c, sub, u, r, hjob, hcall, hsub, hu, hr, hh⟩

/-- The transfer is polled before its recv tx is recorded, and leaves the
pipeline since the write ack cannot be read: a copy without a recv tx comes in,
and a second one is submitted. -/
theorem submitted_twice : ∃ s task c sub u r,
    ReflTransGen (Relayer.Turn fun _ a => a.StorageSucceeds) { db := oneRow } s ∧
    .run task ∈ s.jobs ∧ task.prog.next? = some c ∧ c.submission? = some sub ∧ u ∈ sub.transfers ∧
    s.db.row? u.key = some r ∧ (r.tx sub.kind).hash ≠ none := by
  let s := (raced { writeAck := fun _ => .error (newErr "node down") } 60).drive {} 34
  have hsub : s.submission?.any (fun sub => sub.transfers.any fun u =>
      (s.db.row? u.key).any fun r => (r.tx sub.kind).hash.isSome) = true := by decide +kernel
  obtain ⟨sub, hs, hany⟩ := (Option.any_eq_true _ _).mp hsub
  obtain ⟨u, hu, hrow⟩ := List.any_eq_true.mp hany
  obtain ⟨r, hr, hh⟩ := (Option.any_eq_true _ _).mp hrow
  obtain ⟨task, c, hjob, hcall, hsub⟩ := submission?_eq_some hs
  have hrun := (turns_raced { writeAck := fun _ => .error (newErr "node down") } 60).trans
    (turns_drive (fun s => storageSucceeds_nextAction {} s) 34 _)
  exact ⟨s, task, c, sub, u, r, hrun, hjob, hcall, hsub, hu, hr, Option.isSome_iff_ne_none.mp hh⟩

/-! ## Finished rows -/

def Unfinished (_polled r : Ibcv2Transfer) : Prop := r.status.isFinished = false

/-- A row is unfinished while a transfer of it is in the pipeline without an
error, and a finished row is not written. -/
def finishing : Discipline where
  Fresh := Unfinished
  Safe tok cols := tok.transfer.processingError = none → tok.stages ≠ [] →
    cols.status.isFinished = false
  Pre K c cols := cols.status.isFinished = true → ∀ (ans : c.Ans) (r : Ibcv2Transfer),
    r.columns = cols → (c.effectOn K ans r).columns = cols
  enter _ h _ _ := h
  idle _ hc _ ans r hr := (columns_frame hc List.not_mem_nil ans r).trans hr
  wait _ h hsuf he hne := h he fun hnil => hne (List.suffix_nil.mp (hnil ▸ hsuf))
  work {tok st rest x r} hw hst hs hx := by
    by_cases he : tok.transfer.processingError = none
    · have hr : r.status.isFinished = false := hs he (by simp [hst])
      by_cases hfin : st = .stateFinisher
      · obtain ⟨done, hdone⟩ := hw.stages
        have hrest : rest = [] := rest_of_stateFinisher (hst ▸ hdone).symm hfin
        refine hx.mono ?_ ?_
        · rintro c _ ⟨s', rfl, -, hrow⟩ hf
          have hun : s'.row.status.isFinished = false := hrow hfin ▸ hr
          exact absurd (hf.symm.trans hun) (by simp)
        · rintro out _ ⟨-, hout⟩ tok' hm hk _ hne
          exact absurd ((hout tok' hm hk).1.trans hrest) hne
      · have hun {t' : IBCV2Transfer} {s' : Focus}
            (h : Reaches tok.pipeline st tok.transfer ⟨r, []⟩ t' s') :
            s'.row.status.isFinished = false :=
          h.keep (P := fun x => x.2.status.isFinished = false) (fun _ _ hl => hl.unfinished hfin) hr
        refine hx.mono ?_ ?_
        · rintro c _ ⟨s', rfl, ⟨⟨t', ht'⟩, -⟩, -⟩ hf
          exact absurd (hf.symm.trans (hun ht')) (by simp)
        · rintro out _ ⟨-, hout⟩ tok' hm hk _ _
          obtain ⟨-, s', rfl, hreach⟩ := hout tok' hm hk
          exact hun hreach
    · have hsame {t' : IBCV2Transfer} {s' : Focus}
          (h : Reaches tok.pipeline st tok.transfer ⟨r, []⟩ t' s') :
          t'.processingError ≠ none ∧ s'.row.columns = r.columns :=
        h.keep (P := fun x => x.1.processingError ≠ none ∧ x.2.columns = r.columns)
          (fun _ _ hl hx => ⟨fun hy => hx.1 (hl.clean hy), (hl.columns_of_errored hx.1).trans hx.2⟩)
          ⟨he, rfl⟩
      refine (hx.after (I := fun r' => r'.columns = r.columns) ?_ ?_).mono ?_ ?_
      · rintro c _ ⟨s', rfl, ⟨⟨t', ht'⟩, -⟩, -⟩
        exact (hsame ht').2
      · rintro out _ ⟨⟨t', s', rfl, ht'⟩, -⟩
        exact (hsame ht').2
      · rintro c _ ⟨⟨s', rfl, ⟨⟨t', ht'⟩, -⟩, -⟩, hafter⟩ _ ans r' hr'
        exact (columns_effectOn hr' ans).trans ((hafter ans trivial).trans (hsame ht').2.symm)
      · rintro out _ ⟨-, hout⟩ tok' hm hk he'
        obtain ⟨-, s', rfl, hreach⟩ := hout tok' hm hk
        exact absurd he' (hsame hreach).1

/-- A turn leaves a finished row as it is. -/
theorem Relayer.Moves.finished {s s' : Relayer} {K : TransferKey} {r : Ibcv2Transfer}
    (h : s.Inv finishing) (hm : s.Moves Unfinished s') (hr : s.db.row? K = some r)
    (hf : r.status.isFinished = true) : ∃ r', s'.db.row? K = some r' ∧ r'.columns = r.columns := by
  cases hm with
  | insert x hx => exact ⟨r, Table.row?_insert hx hr, rfl⟩
  | @failed x polled ans hp hx hnone =>
    have hne : K ∉ [x.key] := fun hm => by
      obtain rfl := List.mem_singleton.mp hm
      exact absurd (hf.symm.trans (hx (h.not_mem_inPipeline hnone) r hr)) (by simp)
    let c : Call := .exec (updateTransferState .failed x.key)
    have hw : c.WritesOnly [x.key] := .exec List.mem_cons_self
    exact ⟨_, row?_effect c ans hr, columns_frame hw hne ans r⟩
  | work hp hw =>
    cases hw with
    | @act task c k ans hc hset =>
      refine ⟨_, row?_effect c ans hr, ?_⟩
      have hj : .run task ∈ s.jobs := hp.symm.subset (List.mem_append_left _ List.mem_cons_self)
      obtain ⟨hwrites, hpre⟩ := h.next hj (by rw [hc]; rfl)
      by_cases hK : K ∈ task.holds.map (·.2)
      · obtain ⟨e, he, rfl⟩ := List.mem_map.mp hK
        obtain ⟨r', hr', hp⟩ := hpre e he
        obtain rfl : r' = r := Option.some.inj (hr'.1.symm.trans hr)
        exact hp hf ans r' rfl
      · exact columns_frame hwrites hK ans r
    | _ => exact ⟨r, hr, rfl⟩
  | _ => exact ⟨r, hr, rfl⟩

/-- The status and the hashes of a finished row stay, in every run in which the
dispatcher submits no row that is finished by then and the states of batches can
be written. -/
theorem finished_stays {db : Transfers} {hasPriceClient : Bool} {s s' : Relayer} {K : TransferKey}
    {r : Ibcv2Transfer}
    (hrun : ReflTransGen (Relayer.Turn fun s a => s.Settles a ∧ s.Submits Unfinished a)
      { db := db, hasPriceClient := hasPriceClient } s)
    (hr : s.db.row? K = some r) (hf : r.status.isFinished = true)
    (hrun' : ReflTransGen (Relayer.Turn fun s a => s.Settles a ∧ s.Submits Unfinished a) s s') :
    ∃ r', s'.db.row? K = some r' ∧ r'.columns = r.columns := by
  have hinv : s.Inv finishing := (Relayer.Inv.start finishing db hasPriceClient).run hrun
  induction hrun' with
  | refl => exact ⟨r, hr, rfl⟩
  | tail hprev hturn ih =>
    obtain ⟨r₁, hr₁, hc₁⟩ := ih
    obtain ⟨a, ⟨hset, hsub⟩, hstep⟩ := hturn
    have hf₁ : r₁.status.isFinished = true :=
      (congrArg Ibcv2RelayStatus.isFinished (status_of_columns hc₁)).trans hf
    obtain ⟨r₂, hr₂, hc₂⟩ := (moves hset hsub hstep).finished (hinv.run hprev) hr₁ hf₁
    exact ⟨r₂, hr₂, hc₂.trans hc₁⟩

/-- A complete row, and the next poll. -/
theorem finished_stays_complete : ∃ r r',
    (submitted.drive {} 85).db.row? (insertedRow somePacket).key = some r ∧
    r.status = .completeWithAck ∧
    ((submitted.drive {} 85).after .poll).db.row? (insertedRow somePacket).key = some r' ∧
      r'.columns = r.columns := by
  have hrow : ((submitted.drive {} 85).db.row? (insertedRow somePacket).key).any
      (fun r => r.status = .completeWithAck) = true := by decide +kernel
  obtain ⟨r, hr, hs⟩ := (Option.any_eq_true _ _).mp hrow
  have hstatus : r.status = .completeWithAck := of_decide_eq_true hs
  have hrun := @turns_submitted Unfinished rfl
  obtain ⟨r', hr', hc⟩ := finished_stays
    (hrun.trans (turns_drive (settles_nextAction {}) 85 _)) hr (by rw [hstatus]; rfl)
    (turns_after (a := .poll) ⟨trivial, trivial⟩)
  exact ⟨r, r', hr, hstatus, hr', hc⟩

/-- The transfer is polled while it is in the pipeline, and completes: a copy
that is not complete comes in, and its first stage writes its own status. -/
theorem finished_changed : ∃ s s' K r r',
    ReflTransGen (Relayer.Turn fun _ a => a.StorageSucceeds) { db := oneRow } s ∧
    s.db.row? K = some r ∧ r.status.isFinished = true ∧
    ReflTransGen (Relayer.Turn fun _ a => a.StorageSucceeds) s s' ∧
    s'.db.row? K = some r' ∧ r'.status ≠ r.status := by
  let s := raced {} 85
  let s' := s.drive {} 2
  let K := (insertedRow somePacket).key
  have hrow : (s.db.row? K).any (fun r => r.status.isFinished &&
      (s'.db.row? K).any fun r' => !decide (r'.status = r.status)) = true := by decide +kernel
  obtain ⟨r, hr, hf⟩ := (Option.any_eq_true _ _).mp hrow
  obtain ⟨hf, hany⟩ := Bool.and_eq_true_iff.mp hf
  obtain ⟨r', hr', hne⟩ := (Option.any_eq_true _ _).mp hany
  exact ⟨s, s', K, r, r', turns_raced {} 85, hr, hf,
    turns_drive (fun s => storageSucceeds_nextAction {} s) 2 s, hr', by simpa using hne⟩

end PlatformRelayer

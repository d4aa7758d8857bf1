import Mathlib.Data.List.Perm.Subperm
import PlatformRelayer.Ibcv2.Dispatcher
import PlatformRelayer.Proof.Frames

/-!
# What holds across every interleaving

While the states of batches can be written, no transfer is in the pipelines
twice (`Relayer.Inv.nodup`): a deduper takes one in only where none of it is
left. So the row of a transfer is written by no one but the goroutine that
holds it, and what the stages do to a transfer and its row, seen alone, they do
in the midst of the others too. A `Discipline` is a property of a transfer and
its row with what the theory needs of it, once for each way to take a transfer;
it then holds in every state (`Relayer.Inv.run`).
-/

namespace PlatformRelayer

open Db Prog Relation

/-! ## Columns -/

/-- What is followed of a row: its status and its hashes. -/
@[ext] structure Columns where
  status : Ibcv2RelayStatus
  hash : TxKind → Option String
  writeAckTxHash : Option String

def Db.Ibcv2Transfer.columns (r : Ibcv2Transfer) : Columns :=
  ⟨r.status, fun k => (r.tx k).hash, r.writeAckTxHash⟩

variable {K : TransferKey} {Ks : List TransferKey} {c : Call} {r r' : Ibcv2Transfer}

section Columns

variable (h : r.columns = r'.columns)
include h

theorem status_of_columns : r.status = r'.status := congrArg Columns.status h

theorem hash_of_columns : (fun k => (r.tx k).hash) = fun k => (r'.tx k).hash :=
  congrArg Columns.hash h

theorem writeAck_of_columns : r.writeAckTxHash = r'.writeAckTxHash :=
  congrArg Columns.writeAckTxHash h

theorem columns_setTx (k : TxKind) {x x' : TxRecord Numeric} (hx : x.hash = x'.hash) :
    (r.setTx k x).columns = (r'.setTx k x').columns := by
  refine Columns.ext ?_ (funext fun j => ?_) ?_
  · simpa [Ibcv2Transfer.columns] using status_of_columns h
  · simp only [Ibcv2Transfer.columns, Ibcv2Transfer.tx_setTx]
    split
    · exact hx
    · exact congrFun (hash_of_columns h) j
  · simpa [Ibcv2Transfer.columns] using writeAck_of_columns h

/-- What an update makes of the columns depends on nothing else. -/
theorem columns_apply (set : SetClause) : (set.apply r).columns = (set.apply r').columns := by
  have hs := status_of_columns h
  have hh := hash_of_columns h
  have hw := writeAck_of_columns h
  cases set with
  | status => exact Columns.ext rfl hh hw
  | tx k => exact columns_setTx h k rfl
  | clearTx k => exact columns_setTx h k rfl
  | txGasCostUSD k => exact columns_setTx h k (congrFun hh k)
  | writeAckTx => exact Columns.ext hs hh rfl
  | sourceTxFinalizedTime => exact h
  | writeAckTxFinalizedTime => exact h

end Columns

theorem columns_effectOn (h : r.columns = r'.columns) (ans : c.Ans) :
    (c.effectOn K ans r).columns = (c.effectOn K ans r').columns := by
  rw [Call.effectOn, Call.effectOn]
  induction c.done ans generalizing r r' with
  | nil => exact h
  | cons q qs ih =>
    refine ih ?_
    rw [Query.on, Query.on]
    split
    · exact columns_apply h q.set
    · exact h

/-- A call leaves the columns of the rows it does not write. -/
theorem columns_frame (h : c.WritesOnly Ks) (hK : K ∉ Ks) (ans : c.Ans) (r : Ibcv2Transfer) :
    (c.effectOn K ans r).columns = r.columns := by
  have hq : ∀ q ∈ c.done ans, q ∈ c.queries := by
    rcases c.done_eq ans with hd | hd <;> simp [hd]
  rw [Call.effectOn]
  generalize c.done ans = qs at hq
  induction qs generalizing r with
  | nil => rfl
  | cons q qs ih =>
    refine (ih _ fun q hm => hq q (List.mem_cons_of_mem _ hm)).trans ?_
    rw [Query.on]
    split
    · rename_i hqK
      rcases h.queries q (hq q List.mem_cons_self) with hm | ⟨time, hset⟩
      · exact absurd (hqK ▸ hm) hK
      · rw [hset]
        rfl
    · rfl

/-- The calls as a row sees them, with any answers. -/
def onRow (K : TransferKey) : Sem Call Call.Ans Ibcv2Transfer where
  adm _ _ _ := True
  next c ans r := c.effectOn K ans r

/-- What holds of a row and its history, as the row alone sees it. -/
theorem wp_onRow {α : Type} {x : Relay α} {pre : Call → Focus → Prop} {Q : α → Focus → Prop}
    (h : wp (focus K anyAnswer) pre x Q ⟨r, []⟩) :
    wp (onRow K) (fun c r' => ∃ s', s'.row = r' ∧ pre c s') x
      (fun a r' => ∃ s', s'.row = r' ∧ Q a s') r :=
  h.simulate (fun s r => s.row = r) (fun c ans _ _ hr _ =>
    ⟨trivial, congrArg (c.effectOn K ans) hr⟩)
    (fun _ s' _ hr hp => ⟨s', hr, hp⟩) (fun _ s' _ hr hq => ⟨s', hr, hq⟩) rfl

/-- The pipeline that a row belongs to. -/
def Db.Ibcv2Transfer.pipelineKey (r : Ibcv2Transfer) : PipelineKey :=
  newPipelineKey (newIBCV2Transfer r)

theorem pipelineKey_apply (set : SetClause)
    (r : Ibcv2Transfer) : (set.apply r).pipelineKey = r.pipelineKey := by
  cases set with
  | tx k => cases k <;> rfl
  | clearTx k => cases k <;> rfl
  | txGasCostUSD k => cases k <;> rfl
  | _ => rfl

theorem pipelineKey_effectOn (ans : c.Ans)
    (r : Ibcv2Transfer) : (c.effectOn K ans r).pipelineKey = r.pipelineKey := by
  rw [Call.effectOn]
  induction c.done ans generalizing r with
  | nil => rfl
  | cons q qs ih =>
    refine (ih _).trans ?_
    rw [Query.on]
    split
    · exact pipelineKey_apply q.set r
    · rfl

/-- The rows of a table stay, in their pipelines, and but for those with these
keys with their columns. -/
def Keeps (Ks : List TransferKey) (db db' : Transfers) : Prop :=
  ∀ K r, db.row? K = some r → ∃ r', db'.row? K = some r' ∧ r'.pipelineKey = r.pipelineKey ∧
    (K ∉ Ks → r'.columns = r.columns)

theorem Keeps.refl (Ks : List TransferKey) (db : Transfers) : Keeps Ks db db :=
  fun _ r hr => ⟨r, hr, rfl, fun _ => rfl⟩

theorem Keeps.insert (db : Transfers) (r : Ibcv2Transfer)
    (h : r.key ∉ db.rows.map Ibcv2Transfer.key) :
    Keeps Ks db (db.insert r h) := fun _ x hx => ⟨x, Table.row?_insert h hx, rfl, fun _ => rfl⟩

theorem Keeps.effect (h : c.WritesOnly Ks) (ans : c.Ans)
    (db : Transfers) : Keeps Ks db (c.effect ans db) :=
  fun _ r hr => ⟨_, row?_effect c ans hr, pipelineKey_effectOn ans r, fun hK =>
    columns_frame h hK ans r⟩

/-! ## Goroutines -/

section Safely

variable (Safe : Token → Columns → Prop) (Pre : TransferKey → Call → Columns → Prop)

/-- The program makes its calls where `Pre` holds of the row, and the transfer
it sends on is safe. -/
def Safely (K : TransferKey) (x : Relay (List Token)) (r : Ibcv2Transfer) : Prop :=
  wp (onRow K) (fun c r => Pre K c r.columns) x
    (fun out r => ∀ tok ∈ out, tok.transfer.key = K → Safe tok r.columns) r

variable {Safe Pre} {x : Relay (List Token)}

/-- It does not depend on the other columns. -/
theorem Safely.congr (hx : Safely Safe Pre K x r)
    (h : r.columns = r'.columns) : Safely Safe Pre K x r' :=
  hx.simulate (fun r r' => r.columns = r'.columns) (fun _ ans _ _ h _ =>
    ⟨trivial, columns_effectOn h ans⟩)
    (fun _ _ _ h hp => h ▸ hp) (fun _ _ _ h hq tok hm hk => h ▸ hq tok hm hk) h

end Safely

/-- A transfer is in its pipeline, and with an error it is in no batch. -/
structure Token.WellFormed (tok : Token) : Prop where
  key : tok.pipeline.key = newPipelineKey tok.transfer
  stages : tok.stages <:+ newPipeline tok.pipeline
  queued : tok.queued = true → tok.transfer.processingError = none

theorem processor_batch {pl : Pipeline} {st : Stage} {p : BatchPacket}
    (h : st.processor pl = .batch p) : ∃ k, st = batchStage k ∧ p = batchOf pl k := by
  cases st with
  | batchRecvPacket => exact ⟨.recv, rfl, (Processor.batch.inj h).symm⟩
  | batchAckPacket => exact ⟨.ack, rfl, (Processor.batch.inj h).symm⟩
  | batchTimeoutPacket => exact ⟨.timeout, rfl, (Processor.batch.inj h).symm⟩
  | _ => cases h

/-- What a goroutine that takes one transfer is going to do: decide whether to
put it into a batch, or the work of a stage. -/
inductive Started (tok : Token) : Task → Prop where
  | decides {k rest} : tok.stages = batchStage k :: rest →
    Started tok ⟨false, [tok.entry], ((batchOf tok.pipeline k).forward tok.transfer).bind
      fun should =>
      .ret [{ tok with stages := if should then batchStage k :: rest else rest, queued := should }]⟩
  | works {st rest} : tok.queued = false → tok.stages = st :: rest → (∀ k, st ≠ batchStage k) →
    Started tok ⟨false, [tok.entry], (st.process tok.pipeline tok.transfer).bind fun output =>
      .ret (output.toList.map fun t => { tok with transfer := t, stages := rest })⟩

theorem started {tok : Token} {task : Task} (h : tok.start = some task) : Started tok task := by
  rw [Token.start] at h
  split at h
  · rename_i st rest hq hst
    obtain rfl := Option.some.inj h
    split
    · rename_i p hp
      obtain ⟨k, rfl, rfl⟩ := processor_batch hp
      exact .decides hst
    · rename_i hp
      exact .works hq hst fun k hk => hp _ (hk ▸ batchStage_processor tok.pipeline k)
  · cases h

/-- What a goroutine that takes a batch is going to do. -/
inductive Collected (toks : List Token) : Task → Prop where
  | mk {pl k rest} (d) : (∀ u ∈ toks, u.queued = true ∧ u.pipeline = pl ∧
    u.stages = batchStage k :: rest) → Collected toks ⟨true, toks.map Token.entry,
      ((batchOf pl k).processBatch d (toks.map (·.transfer))).bind fun output =>
      .ret (pl.sendOn rest output)⟩

theorem collected {toks : List Token} {task : Task}
    (h : collect toks = some task) : Collected toks task := by
  rw [PlatformRelayer.collect.eq_def] at h
  split at h
  · cases h
  split at h
  · cases h
  rename_i tok toks st rest hst
  split at h
  · rename_i p hp
    split at h
    · rename_i hall
      obtain rfl := Option.some.inj h
      obtain ⟨k, rfl, rfl⟩ := processor_batch hp
      refine .mk _ fun u hu => ?_
      have := List.all_eq_true.mp hall u hu
      simp only [Bool.and_eq_true, decide_eq_true_eq] at this
      exact ⟨this.1.1, this.1.2, this.2.trans hst⟩
    · cases h
  · cases h

/-- What a goroutine does to the others: it writes the rows it holds, and sends
on no more than it holds, if the states of a batch can be written. -/
def Task.Sound (task : Task) : Prop :=
  wp (settled task.batched) (fun c _ => c.WritesOnly (task.holds.map (·.2))) task.prog
    (fun out _ => (out.map Token.entry).Subperm task.holds ∧ ∀ tok ∈ out, tok.WellFormed) ()

section Sound

variable {tok : Token} {task : Task} {toks : List Token}

theorem forward_frames {σ : Type} {S : Sem Call Call.Ans σ} {pl : Pipeline} {k : TxKind}
    (t : IBCV2Transfer) (s : σ) : wp S (fun c _ => c.WritesOnly Ks) ((batchOf pl k).forward t)
      (fun should _ => should = true → t.processingError = none) s :=
  (forward_makes .ordinary t s).mono (fun _ _ h => h.toWritesOnly) fun _ _ h => h

/-- A stage sends a transfer on with its packet. -/
theorem process_packet {σ : Type} (S : Sem Call Call.Ans σ) (pl : Pipeline) (st : Stage)
    (t : IBCV2Transfer) (s : σ) :
    wp S (fun _ _ => True) (st.process pl t)
      (fun o _ => ∀ t', o = some t' → t'.packet = t.packet) s := by
  have h : wp (focus t.key anyAnswer) _ _ _ _ := stage_spec pl st t ⟨insertedRow somePacket, []⟩
  refine h.simulate (fun _ _ => True) (fun _ _ _ _ _ _ => ⟨trivial, trivial⟩)
    (fun _ _ _ _ _ => trivial) (fun o _ _ _ ho t' h => ?_) trivial
  subst h
  exact ho.1.packet

theorem newPipelineKey_of_packet {t t' : IBCV2Transfer} (h : t'.packet = t.packet) :
    newPipelineKey t' = newPipelineKey t := by
  have hkey (t : IBCV2Transfer) :
      newPipelineKey t = ⟨t.packet.sourceChainID, t.packet.sourceClientID,
    t.packet.destinationChainID, t.packet.destinationClientID⟩ := rfl
  rw [hkey, hkey, h]

theorem Started.sound (h : Started tok task) (hw : tok.WellFormed) : task.Sound := by
  cases h with
  | @decides k rest hst =>
    refine wp_bind.mpr ((forward_frames tok.transfer ()).post fun should _ herr => ?_)
    refine ⟨.refl _, fun tok' hm => ?_⟩
    obtain rfl := List.mem_singleton.mp hm
    refine ⟨hw.key, ?_, herr⟩
    have hs := hst ▸ hw.stages
    cases should with
    | true => exact hs
    | false => exact (List.suffix_cons _ _).trans hs
  | @works st rest hq hst hb =>
    refine wp_bind.mpr
      (((process_frames hb tok.transfer ()).and
        (process_packet _ tok.pipeline st tok.transfer ())).mono
      (fun _ _ hc => hc.1) fun o _ ho => ?_)
    cases o with
    | none => exact ⟨List.nil_subperm, fun _ h => absurd h List.not_mem_nil⟩
    | some t' =>
      have hp := ho.2 t' rfl
      refine ⟨?_, fun tok' hm => ?_⟩
      · have hk : t'.key = tok.transfer.key := congrArg Packet.key hp
        simp only [Option.toList_some, List.map_cons, List.map_nil, Token.entry, hk]
        exact .refl _
      · obtain rfl := List.mem_singleton.mp hm
        refine ⟨hw.key.trans (newPipelineKey_of_packet hp).symm, ?_, fun h =>
          absurd (hq.symm.trans h) (by simp)⟩
        exact (List.suffix_cons _ _).trans (hst ▸ hw.stages)

theorem Collected.sound (h : Collected toks task) (hw : ∀ u ∈ toks, u.WellFormed) : task.Sound := by
  cases h with
  | @mk pl k rest d hall =>
  have hkeys : (toks.map Token.entry).map (·.2) = (toks.map (·.transfer)).map (·.key) := by
    rw [List.map_map, List.map_map]
    rfl
  have hlen : (toks.map (·.transfer)).length = toks.length := List.length_map _
  refine wp_bind.mpr
    (((processBatch_frames d (toks.map (·.transfer)) ()).and (processBatch_conserves d _)).mono
    (fun _ _ hc => hkeys ▸ hc.1) ?_)
  rintro ⟨o, h'⟩ _ ⟨⟨hpacket, hrefs⟩, hperm⟩
  cases o with
  | error err => exact ⟨List.nil_subperm, fun _ h => absurd h List.not_mem_nil⟩
  | ok refs =>
    -- A pointer of the batch has the packet of the transfer it was made for.
    have hget (r : Ref) (hr : r < toks.length) : (h' r).packet = toks[r].transfer.packet := by
      rw [hpacket r, ofList_apply d (hlen ▸ hr), List.getElem_map]
    refine ⟨?_, fun tok' hm => ?_⟩
    · have hmap : (List.range toks.length).map (fun r => (pl.key, (h' r).key)) = toks.map
          Token.entry := by
        refine List.ext_getElem (by simp) fun r hr _ => ?_
        have hr' : r < toks.length := by simpa using hr
        have hk : (h' r).key = toks[r].transfer.key := congrArg Packet.key (hget r hr')
        simp [Token.entry, hk, (hall toks[r] (List.getElem_mem hr')).2.1]
      have hout : ((pl.sendOn rest (.ok refs, h')).map Token.entry) = refs.map fun r =>
          (pl.key, (h' r).key) :=
        List.map_map
      rw [hout]
      refine List.Perm.subperm ?_
      rw [← hmap, ← hlen]
      exact (hperm refs rfl).map _
    · obtain ⟨r, hr, rfl⟩ := List.mem_map.mp hm
      have hr' : r < toks.length := hlen ▸ List.mem_range.mp (hrefs refs rfl hr)
      obtain ⟨-, hpl, hst⟩ := hall toks[r] (List.getElem_mem hr')
      have hwf := hw toks[r] (List.getElem_mem hr')
      subst hpl
      refine ⟨hwf.key.trans (newPipelineKey_of_packet (hget r hr')).symm, ?_, by simp⟩
      exact (List.suffix_cons _ _).trans (hst ▸ hwf.stages)

end Sound

/-! ## Disciplines -/

theorem stage_calls {adm : (c : Call) → c.Ans → Focus → Prop} (pl : Pipeline) (st : Stage)
    (t : IBCV2Transfer) (s : Focus) :
    wp (focus t.key adm) (fun c s' => Calls pl st t s c s' ∧ (st = .stateFinisher → s'.row = s.row))
      (st.process pl t) (Passed pl st t s) s := by
  by_cases hst : st = .stateFinisher
  · subst hst
    exact (finisher_spec t s).mono (fun _ _ hc => ⟨hc.1, fun _ => hc.2⟩) fun _ _ hq => hq
  · exact (stage_spec pl st t s).mono (fun _ _ hc => ⟨hc, fun h => absurd h hst⟩) fun _ _ hq => hq

/-- What a goroutine at a stage does to a transfer and its row: what `Life`
allows, and it sends it on to the stages that are left. -/
def Works (tok : Token) (st : Stage) (rest : List Stage) (x : Relay (List Token))
    (r : Ibcv2Transfer) : Prop :=
  wp (onRow tok.transfer.key)
    (fun c r' => ∃ s', s'.row = r' ∧ Calls tok.pipeline st tok.transfer ⟨r, []⟩ c s' ∧
      (st = .stateFinisher → r' = r)) x
    (fun out r' => (∃ t' s', s'.row = r' ∧ Reaches tok.pipeline st tok.transfer ⟨r, []⟩ t' s') ∧
      ∀ tok' ∈ out, tok'.transfer.key = tok.transfer.key → tok'.stages = rest ∧
        ∃ s', s'.row = r' ∧ Reaches tok.pipeline st tok.transfer ⟨r, []⟩ tok'.transfer s') r

/-- What there is to show of a property of a transfer and its row. `Fresh` is
asked of a row as polled and as stored, where the dispatcher submits it: then
the transfer that comes in is safe. At each stage a safe transfer stays safe,
and `Pre` holds of the row where a goroutine that holds it makes a call. -/
structure Discipline where
  Fresh : Ibcv2Transfer → Ibcv2Transfer → Prop
  Safe : Token → Columns → Prop
  Pre : TransferKey → Call → Columns → Prop
  enter {polled r : Ibcv2Transfer} (pl : Pipeline) : Fresh polled r →
    Safe ⟨pl, newIBCV2Transfer polled, newPipeline pl, false⟩ r.columns
  idle {K : TransferKey} {c : Call} (cols : Columns) : c.WritesOnly [] → Pre K c cols
  wait {tok : Token} {cols : Columns} {stages : List Stage} (queued : Bool) : Safe tok cols →
    stages <:+ tok.stages → Safe { tok with stages := stages, queued := queued } cols
  work {tok : Token} {st : Stage} {rest : List Stage} {x : Relay (List Token)} {r : Ibcv2Transfer} :
    tok.WellFormed → tok.stages = st :: rest → Safe tok r.columns → Works tok st rest x r →
    Safely Safe Pre tok.transfer.key x r

section Discipline

variable {D : Discipline} {tok : Token} {task : Task} {toks : List Token}

/-- Where a program does not write the row, it finds it with its columns. -/
theorem wp_columns {α : Type} {x : Relay α} {Q : α → Ibcv2Transfer → Prop} {cols : Columns}
    (hK : K ∉ Ks) (h : wp (onRow K) (fun c _ => c.WritesOnly Ks) x Q r) (hr : r.columns = cols) :
    wp (onRow K) (fun c r' => c.WritesOnly Ks ∧ r'.columns = cols) x
      (fun a r' => Q a r' ∧ r'.columns = cols) r := by
  induction x generalizing r with
  | ret a => exact ⟨h, hr⟩
  | call c k ih =>
    exact ⟨⟨h.1, hr⟩, fun ans _ => ih ans (h.2 ans trivial) ((columns_frame h.1 hK ans r).trans hr)⟩

theorem Started.safely (h : Started tok task) (hw : tok.WellFormed) (hs : D.Safe tok r.columns) :
    Safely D.Safe D.Pre tok.transfer.key task.prog r := by
  cases h with
  | @decides k rest hst =>
    refine wp_bind.mpr ((wp_columns List.not_mem_nil (forward_frames tok.transfer r) rfl).mono
      (fun c r' hc => D.idle _ hc.1) ?_)
    rintro should r' ⟨-, hr⟩ tok' hm -
    obtain rfl := List.mem_singleton.mp hm
    rw [hr]
    refine D.wait should hs ?_
    rw [hst]
    cases should with
    | true => exact List.suffix_rfl
    | false => exact List.suffix_cons _ _
  | @works st rest hq hst hb =>
    refine D.work hw hst hs (wp_bind.mpr ?_)
    refine (wp_onRow (stage_calls tok.pipeline st tok.transfer ⟨r, []⟩)).mono ?_ ?_
    · rintro c _ ⟨s', rfl, hc⟩
      exact ⟨s', rfl, hc⟩
    rintro o _ ⟨s', rfl, ho⟩
    cases o with
    | none =>
      obtain ⟨t', ht'⟩ := ho
      exact ⟨⟨t', s', rfl, ht'⟩, fun _ h => absurd h List.not_mem_nil⟩
    | some t' =>
      refine ⟨⟨t', s', rfl, ho.1⟩, fun tok' hm _ => ?_⟩
      obtain rfl := List.mem_singleton.mp hm
      exact ⟨rfl, s', rfl, ho.1⟩

theorem Collected.safely (h : Collected toks task) (hw : ∀ u ∈ toks, u.WellFormed)
    (hnd : (toks.map (·.transfer.key)).Nodup) (hm : tok ∈ toks) (hs : D.Safe tok r.columns) :
    Safely D.Safe D.Pre tok.transfer.key task.prog r := by
  cases h with
  | @mk pl k rest d hall =>
  obtain ⟨-, rfl, hst⟩ := hall tok hm
  obtain ⟨i, hi, hget⟩ := List.getElem_of_mem hm
  refine D.work (hw tok hm) hst hs (wp_bind.mpr ?_)
  have hts : (toks.map (·.transfer))[i]? = some tok.transfer := by simp [hi, hget]
  have hpipe (u : IBCV2Transfer) (hu : u ∈ toks.map (·.transfer)) :
      newPipelineKey u = newPipelineKey tok.transfer := by
    obtain ⟨tok', hm', rfl⟩ := List.mem_map.mp hu
    rw [← (hw tok' hm').key, ← (hw tok hm).key, (hall tok' hm').2.1]
  have hkeys : ((toks.map (·.transfer)).map (·.key)).Nodup := by rwa [List.map_map]
  have hk : batchStage k ≠ .stateFinisher := by cases k <;> simp [batchStage]
  refine (wp_onRow ((processBatch_spec hts hpipe hkeys).and (processBatch_frames d _ _))).mono ?_ ?_
  · rintro c _ ⟨s', rfl, hc, -⟩
    exact ⟨s', rfl, hc, fun h => absurd h hk⟩
  rintro ⟨o, h'⟩ _ ⟨s', rfl, ⟨⟨⟨t', ht'⟩, hout⟩, -⟩, hpacket, hrefs⟩
  refine ⟨⟨t', s', rfl, ht'⟩, fun tok' hm' hkey => ?_⟩
  cases o with
  | error err => exact absurd hm' List.not_mem_nil
  | ok refs =>
    obtain ⟨ref, href, rfl⟩ := List.mem_map.mp hm'
    obtain rfl : ref = i := ofList_key_inj d hts hkeys (List.mem_range.mp (hrefs refs rfl href))
      ((congrArg Packet.key (hpacket ref)).symm.trans hkey)
    exact ⟨rfl, s', rfl, hout refs rfl⟩

end Discipline

/-! ## Turns -/

/-- What a goroutine does in a turn, to the jobs it takes part in and to the
table. -/
inductive Work (db : Transfers) : List Job → List Job → Transfers → Prop where
  | start {tok task} : Started tok task → Work db [.rest tok] [.run task] db
  | collect {toks task} : Collected toks task → Work db (toks.map .rest) [.run task] db
  | act {task : Task} {c : Call} {k : c.Ans → Relay (List Token)} (ans : c.Ans) :
    task.prog = .call c k → (task.batched = true → c.Settled ans) →
    Work db [.run task] [.run { task with prog := k ans }] (c.effect ans db)
  | finish {task toks} : task.prog = .ret toks → Work db [.run task] (toks.map .rest) db

/-- If the row is not in a pipeline, it was polled as `Fresh` asks for. -/
def Relayer.Polled (Fresh : Ibcv2Transfer → Ibcv2Transfer → Prop) (s : Relayer)
    (polled : Ibcv2Transfer) : Prop :=
  (polled.pipelineKey, polled.key) ∉ s.inPipeline → ∀ r, s.db.row? polled.key = some r →
    Fresh polled r

/-- The rows that the turn submits were polled as `Fresh` asks for. -/
def Relayer.Submits (Fresh : Ibcv2Transfer → Ibcv2Transfer → Prop) (s : Relayer) : Action → Prop
  | .submit _ _ => ∀ polled, s.polled.head? = some polled → s.Polled Fresh polled
  | _ => True

/-- If the turn is a statement of a batch and not part of a transaction, it
succeeds. -/
def Relayer.Settles (s : Relayer) : Action → Prop
  | .act i ω => ∀ task c, s.jobs[i]? = some (.run task) → task.prog.next? = some c →
    task.batched = true → c.Settled (ω c)
  | _ => True

/-- What a turn can do. -/
inductive Relayer.Moves (Fresh : Ibcv2Transfer → Ibcv2Transfer → Prop)
    (s : Relayer) : Relayer → Prop where
  | insert (r : Ibcv2Transfer) (h : r.key ∉ s.db.rows.map Ibcv2Transfer.key) :
    Moves Fresh s { s with db := s.db.insert r h }
  | poll : Moves Fresh s { s with polled := getUnfinishedIBCV2Transfers s.db }
  | refused {r : Ibcv2Transfer} {polled pipelines} : s.polled = r :: polled →
    s.pipelines ⊆ pipelines → Moves Fresh s { s with polled := polled, pipelines := pipelines }
  | failed {r : Ibcv2Transfer} {polled} (ans : Except Err Unit) : s.polled = r :: polled →
    s.Polled Fresh r → (∀ pl ∈ s.pipelines, pl.key ≠ r.pipelineKey) →
    Moves Fresh s { s with
      polled := polled
      db := Call.effect (.exec (updateTransferState .failed r.key)) ans s.db }
  | pushed {r : Ibcv2Transfer} {polled pl pipelines} : s.polled = r :: polled → s.Polled Fresh r →
    s.pipelines ⊆ pipelines →
    pl ∈ pipelines → pl.key = r.pipelineKey → (r.pipelineKey, r.key) ∉ s.inPipeline →
    Moves Fresh s { s with
      polled := polled
      pipelines := pipelines
      inPipeline := (r.pipelineKey, r.key) :: s.inPipeline
      jobs := s.jobs ++ [.rest ⟨pl, newIBCV2Transfer r, newPipeline pl, false⟩] }
  | work {old new others db'} : s.jobs.Perm (old ++ others) → Work s.db old new db' →
    Moves Fresh s { s with db := db', jobs := others ++ new }
  | output {tok others} : s.jobs.Perm (.rest tok :: others) →
    Moves Fresh s { s with inPipeline := s.inPipeline.filter (· ≠ tok.entry), jobs := others }

theorem takeAt_perm {α : Type} {is : List Nat} {l xs others : List α}
    (h : takeAt is l = some (xs, others)) : l.Perm (xs ++ others) := by
  induction is generalizing l xs others with
  | nil =>
    cases h
    exact .refl _
  | cons i is ih =>
    rw [takeAt] at h
    split at h
    · cases h
    · rename_i x hx
      obtain ⟨⟨ys, others'⟩, ht, hp⟩ := Option.map_eq_some_iff.mp h
      cases hp
      obtain ⟨hi, rfl⟩ := List.getElem?_eq_some_iff.mp hx
      exact (List.getElem_cons_eraseIdx_perm hi).symm.trans ((ih ht).cons _)

theorem getElem?_of_takeAt {α : Type} {i : Nat} {l others : List α} {x : α}
    (h : takeAt [i] l = some ([x], others)) : l[i]? = some x := by
  rw [takeAt] at h
  split at h
  · cases h
  · rename_i y hy
    cases h
    exact hy

theorem mapM_token? {batch : List Job} {toks : List Token} (h : batch.mapM Job.token? = some toks) :
    batch = toks.map .rest := by
  induction batch generalizing toks with
  | nil =>
    obtain rfl : [] = toks := Option.some.inj h
    rfl
  | cons j batch ih =>
    rw [List.mapM_cons] at h
    cases j with
    | run task => cases h
    | rest tok =>
      change (batch.mapM Job.token?).bind (fun toks => some (tok :: toks)) = some toks at h
      obtain ⟨toks', hb, ht⟩ := Option.bind_eq_some_iff.mp h
      rw [ih hb, ← Option.some.inj ht]
      rfl

section Moves

variable {Fresh : Ibcv2Transfer → Ibcv2Transfer → Prop} {s s' : Relayer}

/-- The pipeline is one of the manager's, or there was none with the key. -/
theorem pipeline_cases (s : Relayer) (t : IBCV2Transfer) (opts : Except Err PipelineOptions) :
    (∃ pl ∈ s.pipelines, pl.key = newPipelineKey t ∧ s.pipeline t opts = (.ok pl, s)) ∨
      (∀ pl ∈ s.pipelines, pl.key ≠ newPipelineKey t) ∧
        ((∃ e err, opts = .error e ∧ s.pipeline t opts = (.error err, s)) ∨
          ∃ o, opts = .ok o ∧ s.pipeline t opts = (.ok ⟨newPipelineKey t, o, s.hasPriceClient⟩,
            { s with pipelines := ⟨newPipelineKey t, o, s.hasPriceClient⟩ :: s.pipelines })) := by
  unfold Relayer.pipeline IBCV2PipelineManager.pipeline
  cases hf : s.pipelines.find? (·.key = newPipelineKey t) with
  | some pl => exact .inl ⟨pl, List.mem_of_find?_eq_some hf, by simpa using List.find?_some hf, rfl⟩
  | none =>
    refine .inr ⟨fun pl hm => by simpa using List.find?_eq_none.mp hf pl hm, ?_⟩
    cases opts with
    | error err => exact .inl ⟨err, _, rfl, rfl⟩
    | ok o => exact .inr ⟨o, rfl, rfl⟩

theorem submit_of_pipeline {s s₁ : Relayer} {t : IBCV2Transfer} {opts : Except Err PipelineOptions}
    {pl : Pipeline} (h : s.pipeline t opts = (.ok pl, s₁))
    (ans : Except Err Unit) : s.submit t opts ans = (s₁.push pl t).2 := by
  rw [Relayer.submit, h]
  dsimp only [RelayDispatcher.submitOrFail, RelayDispatcher.submitTransfer]
  simp only [StateT.run_bind, StateT.run_modifyGet]
  generalize s₁.push pl t = pushed
  obtain ⟨b, s₂⟩ := pushed
  cases b <;> rfl

theorem submit_of_error {s s₁ : Relayer} {t : IBCV2Transfer} {opts : Except Err PipelineOptions}
    {err : Err} (h : s.pipeline t opts = (.error err, s₁))
    (ans : Except Err Unit) : s.submit t opts ans =
      if (errorf "getting pipeline to push transfer onto from manager: %w" [] err).is
          .errTransferAlreadyInPipeline
      then s₁
      else { s₁ with db := Call.effect (.exec (updateTransferState .failed t.key)) ans s₁.db } := by
  rw [Relayer.submit, h]
  change (StateT.run (if _ then _ else _ : StateM Relayer Unit) s₁).2 = _
  split <;> rfl

theorem moves_submit {polled : List Ibcv2Transfer} (hp : s.polled = r :: polled)
    (hr : s.Polled Fresh r) (opts : Except Err PipelineOptions) (ans : Except Err Unit) :
    s.Moves Fresh (Relayer.submit { s with polled := polled } (newIBCV2Transfer r) opts ans) := by
  have hpush {pl : Pipeline} {pipelines : List Pipeline} (hsub : s.pipelines ⊆ pipelines)
      (hm : pl ∈ pipelines) (hk : pl.key = r.pipelineKey) :
      s.Moves Fresh (Relayer.push { s with polled := polled, pipelines := pipelines } pl
        (newIBCV2Transfer r)).2 := by
    have he : Token.entry ⟨pl, newIBCV2Transfer r, newPipeline pl, false⟩ =
        (r.pipelineKey, r.key) :=
      Prod.ext hk rfl
    rw [Relayer.push, he]
    split
    · exact .refused hp hsub
    · rename_i hn
      exact .pushed hp hr hsub hm hk hn
  rcases pipeline_cases { s with polled := polled } (newIBCV2Transfer r) opts with
    ⟨pl, hm, hk, h⟩ | ⟨hnone, ⟨-, err, -, h⟩ | ⟨o, -, h⟩⟩
  · rw [submit_of_pipeline h]
    exact hpush (List.Subset.refl _) hm hk
  · rw [submit_of_error h]
    split
    · exact .refused hp (List.Subset.refl _)
    · exact .failed ans hp hr hnone
  · rw [submit_of_pipeline h]
    exact hpush (List.subset_cons_self _ _) List.mem_cons_self rfl

theorem moves {a : Action} (hs : s.Settles a) (hp : s.Submits Fresh a) (h : s.step a = some s') :
    s.Moves Fresh s' := by
  cases a with
  | insert p =>
    rw [Relayer.step] at h
    split at h
    · cases h
    · obtain rfl := Option.some.inj h
      exact .insert _ _
  | poll =>
    rw [Relayer.step] at h
    split at h
    · obtain rfl := Option.some.inj h
      exact .poll
    · cases h
  | submit opts ans =>
    rw [Relayer.step] at h
    split at h
    · cases h
    · rename_i r polled hr
      obtain rfl := Option.some.inj h
      exact moves_submit hr (hp r (by rw [hr]; rfl)) opts ans
  | start i =>
    rw [Relayer.step] at h
    split at h
    · rename_i tok others ht
      obtain ⟨task, htask, rfl⟩ := Option.map_eq_some_iff.mp h
      exact .work (takeAt_perm ht) (.start (started htask))
    · cases h
  | startBatch is =>
    rw [Relayer.step] at h
    split at h
    · rename_i batch others ht
      obtain ⟨toks, htoks, h⟩ := Option.bind_eq_some_iff.mp h
      obtain ⟨task, htask, rfl⟩ := Option.map_eq_some_iff.mp h
      exact .work (mapM_token? htoks ▸ takeAt_perm ht) (.collect (collected htask))
    · cases h
  | act i ω =>
    rw [Relayer.step] at h
    split at h
    · rename_i task others ht
      split at h
      · rename_i c k hc
        obtain rfl := Option.some.inj h
        exact .work (takeAt_perm ht)
          (.act _ hc (hs task c (getElem?_of_takeAt ht) (by rw [hc]; rfl)))
      · cases h
    · cases h
  | finish i =>
    rw [Relayer.step] at h
    split at h
    · rename_i task others ht
      obtain ⟨toks, htoks, rfl⟩ := Option.map_eq_some_iff.mp h
      exact .work (takeAt_perm ht) (.finish (result?_eq_some htoks))
    · cases h
  | output i =>
    rw [Relayer.step] at h
    split at h
    · rename_i tok others ht
      split at h
      · obtain rfl := Option.some.inj h
        exact .output (takeAt_perm ht)
      · cases h
    · cases h

end Moves

/-! ## The invariant -/

/-- The row of an entry. -/
def IsRow (db : Transfers) (e : Entry) (r : Ibcv2Transfer) : Prop := db.row? e.2 = some r ∧
    r.pipelineKey = e.1

theorem Keeps.isRow {db db' : Transfers} {e : Entry} (h : Keeps Ks db db') (hr : IsRow db e r) :
    ∃ r', IsRow db' e r' ∧ (e.2 ∉ Ks → r'.columns = r.columns) := by
  obtain ⟨r', hr', hp, hc⟩ := h _ r hr.1
  exact ⟨r', ⟨hr', hp.trans hr.2⟩, hc⟩

def Job.holds : Job → List Entry
  | .rest tok => [tok.entry]
  | .run task => task.holds

/-- The transfers in the pipelines. -/
def held (jobs : List Job) : List Entry := jobs.flatMap Job.holds

theorem held_append (jobs jobs' : List Job) : held (jobs ++ jobs') = held jobs ++ held jobs' :=
  List.flatMap_append

theorem held_singleton (j : Job) : held [j] = j.holds := List.append_nil _

theorem held_rest (toks : List Token) : held (toks.map .rest) = toks.map Token.entry := by
  rw [held, List.flatMap_map, List.map_eq_flatMap]
  rfl

theorem mem_held {jobs : List Job} {j : Job} {e : Entry} (hj : j ∈ jobs)
    (he : e ∈ j.holds) : e ∈ held jobs :=
  List.mem_flatMap.mpr ⟨j, hj, he⟩

variable {D : Discipline} {s s' : Relayer} {db db' : Transfers} {j : Job} {e : Entry}

/-- A transfer between two stages is safe, and a goroutine is going to leave
what it holds safe. -/
def Job.Inv (D : Discipline) (db : Transfers) : Job → Prop
  | .rest tok => tok.WellFormed ∧ ∃ r, IsRow db tok.entry r ∧ D.Safe tok r.columns
  | .run task => task.Sound ∧ ∀ e ∈ task.holds, ∃ r, IsRow db e r ∧
  Safely D.Safe D.Pre e.2 task.prog r

theorem Job.Inv.isRow (h : j.Inv D db) (he : e ∈ j.holds) : ∃ r, IsRow db e r := by
  cases j with
  | rest tok =>
    obtain rfl := List.mem_singleton.mp he
    obtain ⟨-, r, hr, -⟩ := h
    exact ⟨r, hr⟩
  | run task =>
    obtain ⟨r, hr, -⟩ := h.2 e he
    exact ⟨r, hr⟩

/-- It is kept where the rows of the job are. -/
theorem Job.Inv.keeps (h : j.Inv D db) (hk : Keeps Ks db db')
    (hd : ∀ e ∈ j.holds, e.2 ∉ Ks) : j.Inv D db' := by
  cases j with
  | rest tok =>
    obtain ⟨hw, r, hr, hs⟩ := h
    obtain ⟨r', hr', hc⟩ := hk.isRow hr
    exact ⟨hw, r', hr', hc (hd _ List.mem_cons_self) ▸ hs⟩
  | run task =>
    refine ⟨h.1, fun e he => ?_⟩
    obtain ⟨r, hr, hs⟩ := h.2 e he
    obtain ⟨r', hr', hc⟩ := hk.isRow hr
    exact ⟨r', hr', hs.congr (hc (hd e he)).symm⟩

/-- No transfer is in the pipelines twice, and each is entered in the
`inPipeline` set of its deduper. -/
structure Relayer.Inv (D : Discipline) (s : Relayer) : Prop where
  jobs : ∀ j ∈ s.jobs, j.Inv D s.db
  nodup : ((held s.jobs).map (·.2)).Nodup
  deduped : held s.jobs ⊆ s.inPipeline
  cached : ∀ e ∈ s.inPipeline, ∃ pl ∈ s.pipelines, pl.key = e.1
  polled : ∀ r ∈ s.polled, ∃ r', IsRow s.db (r.pipelineKey, r.key) r'

theorem Relayer.Inv.isRow (h : s.Inv D) (he : e ∈ held s.jobs) : ∃ r, IsRow s.db e r := by
  obtain ⟨j, hj, he⟩ := List.mem_flatMap.mp he
  exact (h.jobs j hj).isRow he

/-- Without a pipeline there is no deduper. -/
theorem Relayer.Inv.not_mem_inPipeline (h : s.Inv D) (hnone : ∀ pl ∈ s.pipelines, pl.key ≠ e.1) :
    e ∉ s.inPipeline :=
  fun hm => by
    obtain ⟨pl, hpl, hk⟩ := h.cached e hm
    exact hnone pl hpl hk

/-- A row that is not in a deduper is held by no one. -/
theorem Relayer.Inv.free (h : s.Inv D) (hr : r ∈ s.polled)
    (hn : (r.pipelineKey, r.key) ∉ s.inPipeline) (he : e ∈ held s.jobs) :
    e.2 ≠ r.key := by
  intro hk
  obtain ⟨r₁, h₁, hp₁⟩ := h.isRow he
  obtain ⟨r₂, h₂, hp₂⟩ := h.polled r hr
  have hr : r₁ = r₂ := Option.some.inj (h₁.symm.trans (hk ▸ h₂))
  have hee : e = (r.pipelineKey, r.key) := Prod.ext (hp₁.symm.trans ((congrArg _ hr).trans hp₂)) hk
  exact hn (hee ▸ h.deduped he)

theorem nodup_of_subperm {l l' : List Entry} (h : l.Subperm l')
    (hn : (l'.map (·.2)).Nodup) : (l.map (·.2)).Nodup := by
  obtain ⟨l₁, hp, hs⟩ := h
  exact ((hp.map _).nodup_iff).mp ((hs.map _).nodup hn)

/-- What a goroutine does in a turn keeps what it holds, or less. -/
theorem Work.inv {old new : List Job} (hw : Work db old new db') (h : ∀ j ∈ old, j.Inv D db)
    (hnd : ((held old).map (·.2)).Nodup) : (held new).Subperm (held old) ∧
      Keeps ((held old).map (·.2)) db db' ∧ ∀ j ∈ new, j.Inv D db' := by
  cases hw with
  | @start tok task hs =>
    obtain ⟨hwf, r, hr, hsafe⟩ := h _ List.mem_cons_self
    have hh : (Job.run task).holds = (Job.rest tok).holds := by cases hs <;> rfl
    refine ⟨?_, .refl _ _, fun j hj => ?_⟩
    · rw [held_singleton, held_singleton, hh]
    · obtain rfl := List.mem_singleton.mp hj
      refine ⟨hs.sound hwf, fun e (he : e ∈ (Job.run task).holds) => ?_⟩
      obtain rfl := List.mem_singleton.mp (hh ▸ he)
      exact ⟨r, hr, hs.safely hwf hsafe⟩
  | @collect toks task hc =>
    have hh : (Job.run task).holds = toks.map Token.entry := by cases hc; rfl
    have hjob (tok : Token) (hm : tok ∈ toks) := h _ (List.mem_map_of_mem hm)
    refine ⟨?_, .refl _ _, fun j hj => ?_⟩
    · rw [held_rest, held_singleton, hh]
    · obtain rfl := List.mem_singleton.mp hj
      have hwf : ∀ u ∈ toks, u.WellFormed := fun u hu => (hjob u hu).1
      refine ⟨hc.sound hwf, fun e (he : e ∈ (Job.run task).holds) => ?_⟩
      obtain ⟨tok, hm, rfl⟩ := List.mem_map.mp (hh ▸ he)
      obtain ⟨-, r, hr, hsafe⟩ := hjob tok hm
      rw [held_rest, List.map_map] at hnd
      exact ⟨r, hr, hc.safely hwf hnd hm hsafe⟩
  | @act task c k ans hc hset =>
    obtain ⟨hsound, hjob⟩ := h _ List.mem_cons_self
    rw [Task.Sound, hc] at hsound
    refine ⟨?_, ?_, fun j hj => ?_⟩
    · rw [held_singleton, held_singleton]
      exact .refl _
    · rw [held_singleton]
      exact .effect hsound.1 ans db
    · obtain rfl := List.mem_singleton.mp hj
      refine ⟨hsound.2 ans hset, fun e he => ?_⟩
      obtain ⟨r, hr, hs⟩ := hjob e he
      rw [hc] at hs
      exact ⟨_, ⟨row?_effect c ans hr.1, (pipelineKey_effectOn ans r).trans hr.2⟩, hs.2 ans trivial⟩
  | @finish task toks hp =>
    obtain ⟨hsound, hjob⟩ := h _ List.mem_cons_self
    rw [Task.Sound, hp] at hsound
    refine ⟨?_, .refl _ _, fun j hj => ?_⟩
    · rw [held_rest, held_singleton]
      exact hsound.1
    · obtain ⟨tok, hm, rfl⟩ := List.mem_map.mp hj
      obtain ⟨r, hr, hs⟩ := hjob tok.entry (hsound.1.subset (List.mem_map_of_mem hm))
      rw [hp] at hs
      exact ⟨hsound.2 tok hm, r, hr, hs tok hm rfl⟩

/-- The rows that were polled stay in the table. -/
theorem Relayer.Inv.polled_of_keeps (h : s.Inv D) {Ks : List TransferKey} (hk : Keeps Ks s.db db')
    (hr : r ∈ s.polled) : ∃ r', IsRow db' (r.pipelineKey, r.key) r' := by
  obtain ⟨r', hr'⟩ := h.polled r hr
  obtain ⟨r'', hr'', -⟩ := hk.isRow hr'
  exact ⟨r'', hr''⟩

theorem Relayer.Inv.cached_of_subset (h : s.Inv D) {pipelines : List Pipeline}
    (hsub : s.pipelines ⊆ pipelines) (he : e ∈ s.inPipeline) : ∃ pl ∈ pipelines, pl.key = e.1 := by
  obtain ⟨pl, hpl, hk⟩ := h.cached e he
  exact ⟨pl, hsub hpl, hk⟩

/-- Some jobs make place for others that hold no more. -/
theorem Relayer.Inv.replace (h : s.Inv D) (old new : List Job) {others : List Job}
    {inPipeline : List Entry}
    (hp : s.jobs.Perm (old ++ others)) (hsub : (held new).Subperm (held old))
    (hk : Keeps ((held old).map (·.2)) s.db db') (hnew : ∀ j ∈ new, j.Inv D db')
    (hin : inPipeline ⊆ s.inPipeline)
    (hheld : ∀ e ∈ held others ++ held new, e ∈ s.inPipeline → e ∈ inPipeline) :
    Relayer.Inv D { s with db := db', inPipeline := inPipeline, jobs := others ++ new } := by
  have hperm : (held s.jobs).Perm (held old ++ held others) :=
    held_append old others ▸ hp.flatMap_right _
  have hnd : ((held old ++ held others).map (·.2)).Nodup := ((hperm.map _).nodup_iff).mp h.nodup
  have hsub' : (held others ++ held new).Subperm (held s.jobs) :=
    (List.perm_append_comm.subperm.trans (hsub.append (.refl _))).trans hperm.symm.subperm
  refine ⟨fun j hj => ?_, ?_, fun e he => ?_, fun e he => h.cached e (hin he), fun r hr => ?_⟩
  · rcases List.mem_append.mp hj with hj | hj
    · refine (h.jobs j (hp.symm.subset (List.mem_append_right _ hj))).keeps hk fun e he hm => ?_
      rw [List.map_append] at hnd
      exact (List.nodup_append.mp hnd).2.2 _ hm _ (List.mem_map_of_mem (mem_held hj he)) rfl
    · exact hnew j hj
  · exact held_append others new ▸ nodup_of_subperm hsub' h.nodup
  · have he : e ∈ held others ++ held new := held_append others new ▸ he
    exact hheld e he (h.deduped (hsub'.subset he))
  · exact h.polled_of_keeps hk hr

/-- A polled row that is not in a deduper gets into its pipeline. -/
theorem Relayer.Inv.push (h : s.Inv D) {polled : List Ibcv2Transfer} {pl : Pipeline}
    {pipelines : List Pipeline}
    (hp : s.polled = r :: polled) (hr : s.Polled D.Fresh r) (hsub : s.pipelines ⊆ pipelines)
    (hpl : pl ∈ pipelines) (hk : pl.key = r.pipelineKey)
    (hn : (r.pipelineKey, r.key) ∉ s.inPipeline) : Relayer.Inv D { s with
      polled := polled, pipelines := pipelines, inPipeline :=
  (r.pipelineKey, r.key) :: s.inPipeline,
      jobs := s.jobs ++ [.rest ⟨pl, newIBCV2Transfer r, newPipeline pl, false⟩] } := by
  have hr' : r ∈ s.polled := hp ▸ List.mem_cons_self
  set tok : Token := ⟨pl, newIBCV2Transfer r, newPipeline pl, false⟩
  have he : tok.entry = (r.pipelineKey, r.key) := Prod.ext hk rfl
  have hheld : held (s.jobs ++ [.rest tok]) = held s.jobs ++ [(r.pipelineKey, r.key)] := by
    rw [held_append, held_singleton, Job.holds, he]
  refine ⟨fun j hj => ?_, ?_, ?_, ?_, fun _ hr => h.polled _ (hp ▸ List.mem_cons_of_mem _ hr)⟩
  · rcases List.mem_append.mp hj with hj | hj
    · exact h.jobs j hj
    · obtain rfl := List.mem_singleton.mp hj
      obtain ⟨r', hrow⟩ := h.polled r hr'
      exact ⟨⟨hk, List.suffix_refl _, by simp⟩, r', he ▸ hrow, D.enter pl (hr hn r' hrow.1)⟩
  · change ((held (s.jobs ++ [.rest tok])).map _).Nodup
    rw [hheld, List.map_append]
    refine List.nodup_append.mpr ⟨h.nodup, List.nodup_singleton _, fun x hx y hy hxy => ?_⟩
    obtain ⟨e, hm, rfl⟩ := List.mem_map.mp hx
    exact h.free hr' hn hm (hxy.trans (List.mem_singleton.mp hy))
  · change held (s.jobs ++ [.rest tok]) ⊆ _
    rw [hheld]
    exact List.append_subset.mpr ⟨fun _ he => List.mem_cons_of_mem _ (h.deduped he),
      fun _ he => List.mem_singleton.mp he ▸ List.mem_cons_self⟩
  · intro e hm
    rcases List.mem_cons.mp hm with rfl | hm
    · exact ⟨pl, hpl, hk⟩
    · exact h.cached_of_subset hsub hm

theorem Relayer.Inv.moves (h : s.Inv D) (hm : s.Moves D.Fresh s') : s'.Inv D := by
  cases hm with
  | insert r hr =>
    have hk : Keeps [] s.db (s.db.insert r hr) := .insert s.db r hr
    exact ⟨fun j hj => (h.jobs j hj).keeps hk fun _ _ => List.not_mem_nil, h.nodup, h.deduped,
      h.cached, fun _ hr => h.polled_of_keeps hk hr⟩
  | poll =>
    refine ⟨h.jobs, h.nodup, h.deduped, h.cached, fun r hr => ⟨r, ?_, rfl⟩⟩
    exact Table.row?_of_mem (List.mem_of_mem_filter hr)
  | refused hp hsub =>
    exact ⟨h.jobs, h.nodup, h.deduped, fun _ => h.cached_of_subset hsub,
      fun _ hr => h.polled _ (hp ▸ List.mem_cons_of_mem _ hr)⟩
  | @failed r polled ans hp hr hnone =>
    have hr' : r ∈ s.polled := hp ▸ List.mem_cons_self
    have hn : (r.pipelineKey, r.key) ∉ s.inPipeline := h.not_mem_inPipeline hnone
    have hk : Keeps [r.key] s.db
        (Call.effect (.exec (updateTransferState .failed r.key)) ans s.db) :=
      .effect (.exec List.mem_cons_self) ans s.db
    refine ⟨fun j hj => (h.jobs j hj).keeps hk fun e he hm => ?_, h.nodup, h.deduped, h.cached,
      fun _ hr => h.polled_of_keeps hk (hp ▸ List.mem_cons_of_mem _ hr)⟩
    exact h.free hr' hn (mem_held hj he) (List.mem_singleton.mp hm)
  | pushed hp hr hsub hpl hk hn => exact h.push hp hr hsub hpl hk hn
  | work hp hw =>
    have hold := hp.symm.subset
    have hnd := ((hp.flatMap_right Job.holds).map (·.2)).nodup_iff.mp h.nodup
    rw [← held, held_append, List.map_append] at hnd
    obtain ⟨hsub, hk, hnew⟩ := hw.inv (fun j hj => h.jobs j (hold (List.mem_append_left _ hj)))
      (List.nodup_append.mp hnd).1
    exact h.replace _ _ hp hsub hk hnew (List.Subset.refl _) fun _ _ he => he
  | @output tok others hp =>
    have hnd := ((hp.flatMap_right Job.holds).map (·.2)).nodup_iff.mp h.nodup
    have hne (e : Entry) (he : e ∈ held others) : e ≠ tok.entry := by
      rintro rfl
      exact (List.nodup_cons.mp hnd).1 (List.mem_map_of_mem he)
    have hinv := h.replace [.rest tok] [] hp List.nil_subperm (.refl _ _)
      (fun j hj => absurd hj List.not_mem_nil)
      (List.filter_subset_self _) fun e he hm => List.mem_filter.mpr ⟨hm, decide_eq_true (hne e ?_)⟩
    · rwa [List.append_nil] at hinv
    · exact List.append_nil (held others) ▸ he

theorem Relayer.Inv.start (D : Discipline) (db : Transfers) (hasPriceClient : Bool) :
    Relayer.Inv D { db := db, hasPriceClient := hasPriceClient } :=
  ⟨fun _ h => absurd h List.not_mem_nil, List.nodup_nil, List.Subset.refl _, fun _ h =>
    absurd h List.not_mem_nil, fun _ h => absurd h List.not_mem_nil⟩

theorem Relayer.Inv.run (h : s.Inv D)
    (hr : ReflTransGen (Relayer.Turn fun s a => s.Settles a ∧ s.Submits D.Fresh a) s s') :
    s'.Inv D := by
  induction hr with
  | refl => exact h
  | tail _ hturn ih =>
    obtain ⟨a, ⟨hset, hsub⟩, hstep⟩ := hturn
    exact ih.moves (PlatformRelayer.moves hset hsub hstep)

/-- A goroutine is about to make a call. -/
theorem Relayer.Inv.next {task : Task} (h : s.Inv D) (hj : .run task ∈ s.jobs)
    (hc : task.prog.next? = some c) :
    c.WritesOnly (task.holds.map (·.2)) ∧ ∀ e ∈ task.holds, ∃ r, IsRow s.db e r ∧
      D.Pre e.2 c r.columns := by
  obtain ⟨hsound, hjob⟩ := h.jobs _ hj
  refine ⟨hsound.next (.refl _ _) hc, fun e he => ?_⟩
  obtain ⟨r, hr, hs⟩ := hjob e he
  exact ⟨r, hr, wp.next hs (.refl _ _) hc⟩

end PlatformRelayer

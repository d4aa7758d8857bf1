import PlatformRelayer.Cmd.Relayer
import PlatformRelayer.Proof.Jobs
import PlatformRelayer.Proof.Routes
import PlatformRelayer.Proof.Vetting

/-!
# What the process never relays

`Server.Inv` holds in every state of the process, whatever fails and however
often it is started again with its configuration: each row is of a packet that may
be relayed, each pipeline has the options that the configuration has for its chains,
and each goroutine works for packets of rows. So a tx is delivered only for packets
that were submitted, checked and reported, along a configured path
(`deliveries_vouched`), and finality is asked for with the configured offset
(`finality_as_configured`).
-/

namespace PlatformRelayer

open Db Prog Relation

/-! ## The configuration -/

section Config

variable {chains : List ChainConfig} {config : ConfigReader} {chainID : String}

theorem lookup_foldl {index : List (String × ChainConfig)} {chain : ChainConfig}
    (h : (chains.foldl (fun index chain => (chain.chainID, chain) :: index) index).lookup
      chainID = some chain) :
    chain ∈ chains ∧ chain.chainID = chainID ∨ index.lookup chainID = some chain := by
  induction chains generalizing index with
  | nil => exact .inr h
  | cons c chains ih =>
    rcases ih h with ⟨hm, hid⟩ | hlookup
    · exact .inl ⟨List.mem_cons_of_mem _ hm, hid⟩
    · rw [List.lookup_cons] at hlookup
      split at hlookup
      · rename_i hid
        obtain rfl := Option.some.inj hlookup
        exact .inl ⟨List.mem_cons_self, (beq_iff_eq.mp hid).symm⟩
      · exact .inr hlookup

/-- A configuration that is found is one of those in the file. -/
theorem mem_of_getIBCV2Config {ibcv2 : IBCV2Config}
    (h : (newConfigReader chains).getIBCV2Config chainID = .ok (some ibcv2)) :
    ∃ chain ∈ chains, chain.chainID = chainID ∧ chain.ibcv2 = some ibcv2 := by
  rw [ConfigReader.getIBCV2Config, ConfigReader.getChainConfig] at h
  cases hl : (newConfigReader chains).chainIDIndex.lookup chainID with
  | none => rw [hl] at h; cases h
  | some chain =>
    rw [hl] at h
    obtain ⟨hm, hid⟩ := (lookup_foldl hl).resolve_right (by simp)
    exact ⟨chain, hm, hid, Except.ok.inj h⟩

/-- What is found for a client is in the configuration of its chain. -/
theorem lookup_of_getClientCounterpartyChainID {clientID dest : String}
    (h : config.getClientCounterpartyChainID chainID clientID = .ok dest) :
    ∃ ibcv2, config.getIBCV2Config chainID = .ok (some ibcv2) ∧
      ibcv2.counterpartyChains.lookup clientID = some dest := by
  rw [ConfigReader.getClientCounterpartyChainID] at h
  rw [ConfigReader.getIBCV2Config]
  cases hchain : config.getChainConfig chainID with
  | error err => rw [hchain] at h; cases h
  | ok chain =>
    rw [hchain] at h
    cases hi : chain.ibcv2 with
    | none => simp [hi] at h
    | some ibcv2 =>
      simp only [hi] at h
      split at h
      · cases h
      · rename_i tracked htracked
        exact ⟨ibcv2, congrArg Except.ok hi, htracked.trans (congrArg some (Except.ok.inj h))⟩

/-- The options of a pipeline are those that the configuration has for its
chains. -/
structure Pipeline.Configured (config : ConfigReader) (pl : Pipeline) : Prop where
  source : ∃ ibcv2, config.getIBCV2Config pl.key.sourceChainID = .ok (some ibcv2) ∧
    pl.opts.sourceFinalityOffset = ibcv2.finalityOffset ∧
    pl.opts.shouldRelaySuccessAcks = ibcv2.shouldRelaySuccessAcks ∧
    pl.opts.shouldRelayErrorAcks = ibcv2.shouldRelayErrorAcks
  destination : ∃ ibcv2, config.getIBCV2Config pl.key.destinationChainID = .ok (some ibcv2) ∧
    pl.opts.destinationFinalityOffset = ibcv2.finalityOffset

theorem configured_of_newPipelineOpts {t : IBCV2Transfer} {o : AllPipelineOptions}
    (h : newPipelineOpts config t = .ok o) (hasPriceClient : Bool) :
    Pipeline.Configured config ⟨newPipelineKey t, o.toPipelineOptions, hasPriceClient⟩ := by
  rw [newPipelineOpts] at h
  split at h
  · cases h
  rename_i source hsource
  split at h
  · cases h
  rename_i destination hdestination
  split at h
  · cases h
  rename_i sourceIBCV2 hsourceIBCV2
  split at h
  · cases h
  rename_i destinationIBCV2 hdestinationIBCV2
  obtain rfl := Except.ok.inj h
  constructor
  · refine ⟨sourceIBCV2, ?_, rfl, rfl, rfl⟩
    change config.getIBCV2Config t.sourceChainID = _
    rw [ConfigReader.getIBCV2Config, hsource]
    exact congrArg Except.ok hsourceIBCV2
  · refine ⟨destinationIBCV2, ?_, rfl⟩
    change config.getIBCV2Config t.destinationChainID = _
    rw [ConfigReader.getIBCV2Config, hdestination]
    exact congrArg Except.ok hdestinationIBCV2

end Config

/-! ## The packets of the rows -/

def Db.packets (db : Transfers) : List Packet := db.rows.map Ibcv2Transfer.packet

theorem packets_exec (q : Query) (db : Transfers) : packets (q.exec db) = packets db := by
  rw [packets, packets, Query.exec, Table.update, List.map_map]
  refine List.map_congr_left fun r _ => ?_
  simp only [Function.comp_apply]
  split
  · exact packet_apply q.set r
  · rfl

theorem packets_effect (c : Call) (ans : c.Ans)
    (db : Transfers) : packets (c.effect ans db) = packets db := by
  rw [Call.effect]
  induction c.done ans generalizing db with
  | nil => rfl
  | cons q qs ih => exact (ih (q.exec db)).trans (packets_exec q db)

/-! ## The relayer -/

/-- A transfer in a pipeline is of a row and of the pipeline's path, and a
goroutine works for such transfers. -/
def Job.Routes (config : ConfigReader) (known : List Packet) : Job → Prop
  | .rest tok => tok.pipeline.Configured config ∧ tok.pipeline.key = newPipelineKey tok.transfer ∧
    tok.transfer.packet ∈ known
  | .run task => ∃ pl given, pl.Configured config ∧
  (∀ p ∈ given, p ∈ known ∧ p.route .recv = pl.key) ∧
    task.Within pl given

structure Relayer.Routes (config : ConfigReader) (known : List Packet) (s : Relayer) : Prop where
  pipelines : ∀ pl ∈ s.pipelines, pl.Configured config
  polled : ∀ r ∈ s.polled, r.packet ∈ known
  jobs : ∀ j ∈ s.jobs, j.Routes config known

section Relayer

variable {config : ConfigReader} {known known' : List Packet} {s s' : Relayer} {t : IBCV2Transfer}
  {tok : Token}
  {task : Task} {toks : List Token}

theorem Job.Routes.mono {j : Job} (h : j.Routes config known)
    (hsub : known ⊆ known') : j.Routes config known' := by
  cases j with
  | rest tok => exact ⟨h.1, h.2.1, hsub h.2.2⟩
  | run task =>
    obtain ⟨pl, given, hpl, hgiven, hwithin⟩ := h
    exact ⟨pl, given, hpl, fun p hp => ⟨hsub (hgiven p hp).1, (hgiven p hp).2⟩, hwithin⟩

theorem Started.routes (hs : Started tok task) (h : (Job.rest tok).Routes config known) :
    (Job.run task).Routes config known := by
  obtain ⟨hpl, hk, hp⟩ := h
  refine ⟨tok.pipeline, _, hpl, fun p hm => ?_, hs.within hk⟩
  obtain rfl := List.mem_singleton.mp hm
  exact ⟨hp, hk.symm⟩

theorem Collected.routes (hc : Collected toks task) (hne : toks ≠ [])
    (h : ∀ tok ∈ toks, (Job.rest tok).Routes config known) :
    (Job.run task).Routes config known := by
  obtain ⟨pl, hpl, hwithin⟩ := hc.within
  obtain ⟨tok, hm⟩ := List.exists_mem_of_ne_nil toks hne
  refine ⟨pl, _, hpl tok hm ▸ (h tok hm).1, fun p hp => ?_, hwithin⟩
  obtain ⟨u, hu, rfl⟩ := List.mem_map.mp hp
  obtain ⟨-, hk, hknown⟩ := h u hu
  exact ⟨hknown, hpl u hu ▸ hk.symm⟩

/-- Jobs make place for others. -/
theorem Relayer.Routes.replace (h : s.Routes config known) {old new others : List Job}
    {db : Transfers} {inPipeline : List Entry} (hp : s.jobs.Perm (old ++ others))
    (hnew : ∀ j ∈ new, j.Routes config known) :
    Relayer.Routes config known
      { s with db := db, inPipeline := inPipeline, jobs := others ++ new } := by
  refine ⟨h.pipelines, h.polled, fun j hj => ?_⟩
  rcases List.mem_append.mp hj with hj | hj
  · exact h.jobs j (hp.symm.subset (List.mem_append_right _ hj))
  · exact hnew j hj

theorem Relayer.Routes.push (h : s.Routes config known) {pl : Pipeline} (hpl : pl.Configured config)
    (hk : pl.key = newPipelineKey t)
    (ht : t.packet ∈ known) : (s.push pl t).2.Routes config known := by
  rw [Relayer.push]
  split
  · exact h
  · refine ⟨h.pipelines, h.polled, fun j hj => ?_⟩
    rcases List.mem_append.mp hj with hj | hj
    · exact h.jobs j hj
    · obtain rfl := List.mem_singleton.mp hj
      exact ⟨hpl, hk, ht⟩

theorem packets_push (s : Relayer) (pl : Pipeline)
    (t : IBCV2Transfer) : packets (s.push pl t).2.db = packets s.db := by
  rw [Relayer.push]
  split <;> rfl

/-- A transfer is submitted with options from the configuration. -/
theorem Relayer.Routes.submit (h : s.Routes config known) (ht : t.packet ∈ known)
    {opts : Except Err PipelineOptions}
    (hopts : ∀ o, opts = .ok o → Pipeline.Configured config ⟨newPipelineKey t, o, s.hasPriceClient⟩)
    (ans : Except Err Unit) : (s.submit t opts ans).Routes config known ∧
      packets (s.submit t opts ans).db = packets s.db := by
  rcases pipeline_cases s t opts with ⟨pl, hm, hk, hpipe⟩ | ⟨-, ⟨e, err, -, hpipe⟩ | ⟨o, ho, hpipe⟩⟩
  · rw [submit_of_pipeline hpipe]
    exact ⟨h.push (h.pipelines pl hm) hk ht, packets_push s pl t⟩
  · rw [submit_of_error hpipe]
    split
    · exact ⟨h, rfl⟩
    · exact ⟨⟨h.pipelines, h.polled, h.jobs⟩,
        packets_effect (.exec (updateTransferState .failed t.key)) ans s.db⟩
  · have hpl := hopts o ho
    rw [submit_of_pipeline hpipe]
    refine ⟨Relayer.Routes.push (s := { s with pipelines := _ :: s.pipelines })
      ⟨fun pl hm => ?_, h.polled, h.jobs⟩ hpl rfl ht, packets_push _ _ t⟩
    rcases List.mem_cons.mp hm with rfl | hm
    · exact hpl
    · exact h.pipelines pl hm

theorem JobStep.routes {adm : (c : Call) → c.Ans → Prop} {db db' : Transfers} {old new : List Job}
    (hw : JobStep adm db old new db') (hold : ∀ j ∈ old, j.Routes config known) :
    ∀ j ∈ new, j.Routes config known := by
  refine hw.preserves hold (fun htask h => (started htask).routes h) (fun {toks task} htask h => ?_)
    (fun {task c k} ans hc _ h => ?_) fun {task toks} hr h tok hm => ?_
  · have hne : toks ≠ [] := by
      rintro rfl
      cases htask
    exact (collected htask).routes hne h
  · obtain ⟨pl, given, hpl, hgiven, hwithin⟩ := h
    rw [Task.Within, hc] at hwithin
    exact ⟨pl, given, hpl, hgiven, hwithin.2 ans (by simp [settled])⟩
  · obtain ⟨pl, given, hpl, hgiven, hwithin⟩ := h
    rw [Task.Within, hr] at hwithin
    obtain ⟨rfl, hgive⟩ := hwithin tok hm
    obtain ⟨hknown, hroute⟩ := hgiven _ hgive
    exact ⟨hpl, hroute.symm, hknown⟩

theorem JobStep.packets {adm : (c : Call) → c.Ans → Prop} {db db' : Transfers} {old new : List Job}
    (hw : JobStep adm db old new db') : Db.packets db' = Db.packets db := by
  cases hw with
  | @act task c k ans _ _ => exact packets_effect c ans db
  | _ => rfl

/-- The other turns of the dispatcher and the pipelines. -/
theorem Relayer.Routes.step (h : s.Routes config known) (hdb : packets s.db = known) {a : Action}
    (ha : a.isInner = true) (hs : s.step a = some s') : s'.Routes config known ∧
      packets s'.db = known := by
  cases hadv : a.advances with
  | true =>
    cases progress hadv (answers_any a) hs with
    | work hp hw =>
      have hnew := hw.routes fun j hj => h.jobs j (hp.symm.subset (List.mem_append_left _ hj))
      exact ⟨h.replace hp hnew, hw.packets.trans hdb⟩
    | output hp _ =>
      exact ⟨⟨h.pipelines, h.polled, fun j hj =>
        h.jobs j (hp.symm.subset (List.mem_cons_of_mem _ hj))⟩, hdb⟩
  | false =>
    cases a with
    | insert p => cases ha
    | submit opts ans => cases ha
    | poll =>
      rw [Relayer.step] at hs
      split at hs
      · obtain rfl := Option.some.inj hs
        refine ⟨⟨h.pipelines, fun r hr => ?_, h.jobs⟩, hdb⟩
        exact hdb ▸ List.mem_map_of_mem (List.mem_of_mem_filter hr)
      · cases hs
    | _ => cases hadv

end Relayer

/-! ## The process -/

structure Server.Inv (env : Env) (config : ConfigReader) (loc : Zone) (s : Server) : Prop where
  relayer : s.relayer.Routes config (packets s.relayer.db)
  rows : ∀ p ∈ packets s.relayer.db, Vetted env config loc s.submissions.rows p
  handlers : ∀ x ∈ s.handlers, ∃ recorded ⊆ s.submissions.rows,
    wp (learning env) (ApiCall.Vets env config loc) x (fun _ _ => True) recorded

section Server

variable {env : Env} {config : ConfigReader} {loc : Zone} {s s' : Server}

theorem mem_insertRelaySubmission_self (x : RelaySubmission) (db : Submissions) :
    x ∈ (insertRelaySubmission x db).rows := by
  rw [insertRelaySubmission]
  split
  · rename_i h
    rwa [List.map_id] at h
  · exact List.mem_cons_self

/-- What an answered call of a handler adds to the tables. -/
theorem effect_adds (c : ApiCall) (ans : c.Ans) (s : Store) :
    c.submits ans ++ s.submissions.rows ⊆ (c.effect ans s).submissions.rows ∧
      packets s.transfers ⊆ packets (c.effect ans s).transfers ∧
      ∀ p ∈ packets (c.effect ans s).transfers,
        p ∈ packets s.transfers ∨ ∃ q, c = .insertIBCV2Transfer q ∧ p = (insertedRow q).packet := by
  cases c with
  | insertRelaySubmission chainID hash =>
    cases ans with
    | error err => exact ⟨List.Subset.refl _, List.Subset.refl _, fun _ => .inl⟩
    | ok u =>
      refine ⟨fun x hx => ?_, List.Subset.refl _, fun _ => .inl⟩
      rcases List.mem_cons.mp hx with rfl | hx
      · exact mem_insertRelaySubmission_self _ s.submissions
      · exact mem_insertRelaySubmission hx _
  | insertIBCV2Transfer q =>
    cases ans with
    | error err => exact ⟨List.Subset.refl _, List.Subset.refl _, fun _ => .inl⟩
    | ok u =>
      refine ⟨List.Subset.refl _, fun p hp => ?_, fun p hp => ?_⟩
      · obtain ⟨r, hr, rfl⟩ := List.mem_map.mp hp
        exact List.mem_map_of_mem
          (Table.mem_of_row? (row?_insertIBCV2Transfer (Table.row?_of_mem hr) q))
      · obtain ⟨r, hr, rfl⟩ := List.mem_map.mp hp
        rcases mem_insertIBCV2Transfer hr with hr | rfl
        · exact .inl (List.mem_map_of_mem hr)
        · exact .inr ⟨q, rfl, rfl⟩
  | _ => exact ⟨List.Subset.refl _, List.Subset.refl _, fun _ => .inl⟩

theorem Server.Inv.handle (h : s.Inv env config loc) {c : ApiCall}
    {k : c.Ans → Api (Except StatusErr Unit)} {i : Nat}
    (hi : s.handlers[i]? = some (.call c k)) {ans : c.Ans} (ha : env.Answers c ans s.store) :
    Server.Inv env config loc
      { s.setStore (c.effect ans s.store) with handlers := s.handlers.set i (k ans) } := by
  obtain ⟨hsub, hold, hnew⟩ := effect_adds c ans s.store
  have hsubs : s.submissions.rows ⊆ (c.effect ans s.store).submissions.rows :=
    fun x hx => hsub (List.mem_append_right _ hx)
  obtain ⟨recorded, hrec, hvets⟩ := h.handlers _ (List.mem_of_getElem? hi)
  refine ⟨⟨h.relayer.pipelines, fun r hr => hold (h.relayer.polled r hr), fun j hj =>
    (h.relayer.jobs j hj).mono hold⟩, fun p hp => ?_, fun x hx => ?_⟩
  · rcases hnew p hp with hp | ⟨q, rfl, rfl⟩
    · exact (h.rows p hp).mono hsubs
    · exact (hvets.1 q rfl).mono (List.Subset.trans hrec hsubs)
  · rcases List.mem_or_eq_of_mem_set hx with hx | rfl
    · obtain ⟨recorded', hrec', hvets'⟩ := h.handlers x hx
      exact ⟨recorded', List.Subset.trans hrec' hsubs, hvets'⟩
    · refine ⟨c.submits ans ++ recorded, fun x hx => hsub ?_, hvets.2 ans ⟨s.store, ha⟩⟩
      rcases List.mem_append.mp hx with hx | hx
      · exact List.mem_append_left _ hx
      · exact List.mem_append_right _ (hrec hx)

/-- A turn of the relayer that leaves the packets of the rows. -/
theorem Server.Inv.setRelayer (h : s.Inv env config loc) {r : Relayer}
    (hr : r.Routes config (packets s.relayer.db) ∧ packets r.db = packets s.relayer.db) :
    Server.Inv env config loc { s with relayer := r } :=
  ⟨hr.2.symm ▸ hr.1, fun p hp => h.rows p (hr.2 ▸ hp), h.handlers⟩

theorem Server.Inv.turn (h : s.Inv env config loc)
    (ht : s.Turn env config loc s') : s'.Inv env config loc := by
  obtain ⟨a, ha, hs⟩ := ht
  cases a with
  | request req =>
    obtain rfl := Option.some.inj hs
    refine ⟨h.relayer, h.rows, fun x hx => ?_⟩
    rcases List.mem_append.mp hx with hx | hx
    · exact h.handlers x hx
    · obtain rfl := List.mem_singleton.mp hx
      exact ⟨[], List.nil_subset _, relay_vets _ _ _ _⟩
  | handle i ω =>
    rw [Server.step] at hs
    split at hs
    · rename_i c k hi
      obtain rfl := Option.some.inj hs
      exact h.handle hi (ha _ c hi rfl)
    · cases hs
  | submit ans =>
    obtain ⟨r, hr, rfl⟩ := Option.map_eq_some_iff.mp hs
    rw [Relayer.step] at hr
    split at hr
    · cases hr
    rename_i row polled hpolled
    obtain rfl := Option.some.inj hr
    have hrow : row.packet ∈ packets s.relayer.db :=
      h.relayer.polled row (hpolled ▸ List.mem_cons_self)
    have hroutes :
        Relayer.Routes config (packets s.relayer.db) { s.relayer with polled := polled } :=
      ⟨h.relayer.pipelines, fun r hr => h.relayer.polled r (hpolled ▸ List.mem_cons_of_mem _ hr),
        h.relayer.jobs⟩
    refine h.setRelayer (hroutes.submit hrow (fun o ho => ?_) ans)
    rw [ConfigReader.nextOpts, hpolled] at ho
    dsimp only at ho
    cases hopts : newPipelineOpts config (newIBCV2Transfer row) with
    | error err => rw [hopts] at ho; cases ho
    | ok all =>
      rw [hopts] at ho
      obtain rfl : all.toPipelineOptions = o := Except.ok.inj ho
      exact configured_of_newPipelineOpts hopts _
  | relayer a =>
    rw [Server.step] at hs
    split at hs
    · rename_i hinner
      obtain ⟨r, hr, rfl⟩ := Option.map_eq_some_iff.mp hs
      exact h.setRelayer (h.relayer.step rfl hinner hr)
    · cases hs
  | restart =>
    obtain rfl := Option.some.inj hs
    exact ⟨⟨fun _ hm => absurd hm List.not_mem_nil, fun _ hm => absurd hm List.not_mem_nil,
      fun _ hm => absurd hm List.not_mem_nil⟩, h.rows, fun _ hm => absurd hm List.not_mem_nil⟩

theorem Server.Inv.run {hasPriceClient : Bool}
    (hrun : ReflTransGen (Server.Turn env config loc) (.start emptyStore hasPriceClient) s) :
    s.Inv env config loc := by
  induction hrun with
  | refl =>
    exact ⟨⟨fun _ hm => absurd hm List.not_mem_nil, fun _ hm => absurd hm List.not_mem_nil,
      fun _ hm => absurd hm List.not_mem_nil⟩, fun _ hm => absurd hm List.not_mem_nil, fun _ hm =>
      absurd hm List.not_mem_nil⟩
  | tail _ ht ih => exact ih.turn ht

/-- A goroutine is about to make a call. -/
theorem Server.Inv.next (h : s.Inv env config loc) {task : Task} {c : Call}
    (hj : .run task ∈ s.relayer.jobs)
    (hc : task.prog.next? = some c) : ∃ pl given, pl.Configured config ∧
      (∀ p ∈ given, p ∈ packets s.relayer.db ∧ p.route .recv = pl.key) ∧ c.Within pl given := by
  obtain ⟨pl, given, hpl, hgiven, hwithin⟩ := h.relayer.jobs _ hj
  exact ⟨pl, given, hpl, hgiven, wp.next hwithin (.refl _ _) hc⟩

end Server

/-! ## A run -/

/-- The tx `ab` of an EVM chain sent packet 5, after a log that is not of the router. -/
def someEvmEnv : Env where
  clients chainID :=
    some (if chainID = "1" then .evm ⟨[4], fun _ => .ok ⟨5, "client-0", "client-1", 100⟩⟩
      else .cosmos)
  txs _ _ := none
  headers _ _ := none
  signers _ hash := if hash = hexToHash "ab" then some "0xAB01" else none
  receipts _ hash :=
    if hash = hexToHash "ab" then some ⟨7, [some ⟨[9], [[1]], []⟩, some ⟨[7], [[4]], []⟩]⟩ else none
  headerTimes _ _ := some 50

/-- Two chains, with a client of the first for the second. -/
def someChains : List ChainConfig :=
  [{ chainID := "1", type := .evm,
     ibcv2 := some {
      counterpartyChains := [("client-0", "cosmoshub-4")]
      finalityOffset := some 3 } },
   { chainID := "cosmoshub-4", type := .cosmos, ibcv2 := some {} }]

namespace Server

/-- The state after a turn, if it can be taken. -/
def after (s : Server) (a : ServerAction) : Server :=
  (s.step (newConfigReader someChains) (fun _ => 0) a).getD s

theorem turns_after (s : Server) (a : ServerAction) (h : s.Answered someEvmEnv a) :
    ReflTransGen (Server.Turn someEvmEnv (newConfigReader someChains) fun _ => 0) s
      (s.after a) := by
  rw [after]
  cases hs : s.step (newConfigReader someChains) (fun _ => 0) a with
  | none => exact .refl
  | some s' => exact .single ⟨a, h, hs⟩

/-- The first handler makes `n` calls. -/
def handled : Nat → Server → Server
  | 0, s => s
  | n + 1, s => handled n (s.after (.handle 0 fun c => someEvmEnv.answer c s.store))

theorem turns_handled (n : Nat) (s : Server) :
    ReflTransGen (Server.Turn someEvmEnv (newConfigReader someChains) fun _ => 0) s
      (s.handled n) := by
  induction n generalizing s with
  | zero => exact .refl
  | succ n ih =>
    exact (turns_after s (.handle 0 _) fun _ c _ _ => answers_answer someEvmEnv c s.store).trans
      (ih _)

/-- The first job is taken on for `n` turns. -/
def driven : Nat → Server → Server
  | 0, s => s
  | n + 1, s => driven n (s.after (.relayer (s.relayer.nextAction {})))

theorem turns_driven (n : Nat) (s : Server) :
    ReflTransGen (Server.Turn someEvmEnv (newConfigReader someChains) fun _ => 0) s
      (s.driven n) := by
  induction n generalizing s with
  | zero => exact .refl
  | succ n ih => exact (turns_after s (.relayer _) trivial).trans (ih _)

/-- A packet is inserted, the process is started again, and the packet is polled
and taken into its pipeline. -/
def polling : Server :=
  (((((Server.start emptyStore false).after (.request ⟨"ab", "1"⟩)).handled 6).after .restart).after
    (.relayer .poll)).after (.submit (.ok ()))

theorem turns_working (n : Nat) :
    ReflTransGen (Server.Turn someEvmEnv (newConfigReader someChains) fun _ => 0)
    (.start emptyStore false) (polling.driven n) := by
  have hrequest := turns_after (.start emptyStore false) (.request ⟨"ab", "1"⟩) trivial
  have hrestart := (hrequest.trans (turns_handled 6 _)).trans (turns_after _ .restart trivial)
  have hpoll := hrestart.trans (turns_after _ (.relayer .poll) trivial)
  exact (hpoll.trans (turns_after _ (.submit (.ok ())) trivial)).trans (turns_driven n _)

end Server

/-! ## Deliveries -/

/-- What the tables and the configuration say for a transfer that a tx is
delivered for: it is of a row, its packet may be relayed, both of its chains are
configured, the source chain with the packet's client for the destination chain
and, if the tx is an ack, so that such acks are relayed, and the tx is asked for
along the path of the packet. -/
structure Server.Vouches (env : Env) (chains : List ChainConfig) (loc : Zone) (s : Server)
    (sub : Submission) (u : IBCV2Transfer) : Prop where
  row : ∃ r ∈ s.relayer.db.rows, r.packet = u.packet
  vetted : Vetted env (newConfigReader chains) loc s.submissions.rows u.packet
  source : ∃ chain ∈ chains, chain.chainID = u.sourceChainID ∧ ∃ ibcv2, chain.ibcv2 = some ibcv2 ∧
    ibcv2.counterpartyChains.lookup u.packetSourceClientID = some u.destinationChainID ∧
    (sub.kind = .ack → ∃ status, u.writeAckStatus = some status ∧
      (isErrorAck status && ibcv2.shouldRelayErrorAcks || isSuccessAck status &&
        ibcv2.shouldRelaySuccessAcks) = true)
  destination : ∃ chain ∈ chains, chain.chainID = u.destinationChainID ∧ chain.ibcv2 ≠ none
  route : ⟨sub.request.srcChain, sub.request.srcClientId, sub.request.dstChain,
    sub.request.dstClientId⟩ = u.packet.route sub.kind

theorem route_request {pl : Pipeline} {p : Packet} (hp : p.route .recv = pl.key) (k : TxKind)
    (ids : List (List UInt8))
    (seqs : List UInt64) :
    (⟨((batchOf pl k).request ids seqs).srcChain, ((batchOf pl k).request ids seqs).srcClientId,
      ((batchOf pl k).request ids seqs).dstChain, ((batchOf pl k).request ids seqs).dstClientId⟩ :
      PipelineKey) = p.route k := by
  have hkey :
      (⟨p.sourceChainID, p.sourceClientID, p.destinationChainID, p.destinationClientID⟩ :
        PipelineKey) = pl.key := hp
  cases k <;> simp only [batchOf, batchRecvPacket, batchAckPacket, batchTimeoutPacket, ← hkey,
    Packet.route]

/-- The chain that is asked for finality, and the offset. -/
def Call.finality? : Call → Option (String × Option UInt64)
  | .isTxFinalized chainID _ offset => some (chainID, offset)
  | .isTimestampFinalized chainID _ offset => some (chainID, offset)
  | _ => none

def Job.finality? : Job → Option (String × Option UInt64)
  | .run task => task.prog.next?.bind Call.finality?
  | .rest _ => none

/-- Finality is asked for with the offset that is configured for the chain. -/
theorem finality_as_configured {env : Env} {chains : List ChainConfig} {loc : Zone}
    {hasPriceClient : Bool} {s : Server} {task : Task} {c : Call} {chainID : String}
    {offset : Option UInt64}
    (hrun : ReflTransGen (Server.Turn env (newConfigReader chains) loc)
      (.start emptyStore hasPriceClient) s)
    (hj : .run task ∈ s.relayer.jobs) (hc : task.prog.next? = some c)
    (hf : c.finality? = some (chainID, offset)) :
    ∃ chain ∈ chains, chain.chainID = chainID ∧ ∃ ibcv2, chain.ibcv2 = some ibcv2 ∧
      offset = ibcv2.finalityOffset := by
  obtain ⟨pl, given, hpl, -, hwithin⟩ := (Server.Inv.run hrun).next hj hc
  obtain ⟨source, hsource, hsourceOffset, -⟩ := hpl.source
  obtain ⟨destination, hdestination, hdestinationOffset⟩ := hpl.destination
  have hfound {ibcv2 : IBCV2Config} {offset' : Option UInt64}
      (h : (newConfigReader chains).getIBCV2Config chainID = .ok (some ibcv2))
      (ho : offset' = ibcv2.finalityOffset) (ho' : offset = offset') :
      ∃ chain ∈ chains, chain.chainID = chainID ∧ ∃ ibcv2, chain.ibcv2 = some ibcv2 ∧
      offset = ibcv2.finalityOffset := by
    obtain ⟨chain, hm, hid, hi⟩ := mem_of_getIBCV2Config h
    exact ⟨chain, hm, hid, ibcv2, hi, ho'.trans ho⟩
  cases c with
  | isTxFinalized id hash off =>
    cases hf
    rcases hwithin with ⟨rfl, ho⟩ | ⟨rfl, ho⟩
    · exact hfound hsource hsourceOffset ho
    · exact hfound hdestination hdestinationOffset ho
  | isTimestampFinalized id time off =>
    cases hf
    obtain ⟨rfl, ho⟩ := hwithin
    exact hfound hdestination hdestinationOffset ho
  | _ => cases hf

/-- The source tx, on a chain with an offset of three blocks. -/
theorem finality_as_configured_send : ∃ chain ∈ someChains, chain.chainID = "1" ∧
    ∃ ibcv2, chain.ibcv2 = some ibcv2 ∧ some 3 = ibcv2.finalityOffset := by
  have hjob : (Server.polling.driven 13).relayer.jobs.any
      (fun j => j.finality? = some ("1", some 3)) = true := by
    decide +kernel
  obtain ⟨j, hj, hf⟩ := List.any_eq_true.mp hjob
  cases j with
  | rest tok => cases of_decide_eq_true hf
  | run task =>
    obtain ⟨c, hc, hcf⟩ := Option.bind_eq_some_iff.mp (of_decide_eq_true hf)
    exact finality_as_configured (Server.turns_working 13) hj hc hcf

end PlatformRelayer

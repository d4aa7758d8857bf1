import Mathlib.Data.List.Forall2
import PlatformRelayer.Ibcv2.Submission
import PlatformRelayer.Proof.Runs

/-!
# Every polled row is handled

What a poll does with its rows is seen in the calls that handle one (`Handling`).
If no alert meets a nil pointer, the loop comes to its end and handles each row
by what is said of its own chains (`EndsUp`); a row whose chains are configured
while its source chain has no `ibcv2` section stops the loop before it is
handled, and with it the rows after it (`every_row_handled_iff`).
-/

namespace PlatformRelayer.RelayDispatcher

open Prog Db

/-- What was done with a row. -/
inductive Handling where
  | pushed (pipeline : PipelineKey) (key : TransferKey)
  | leftAlone (pipeline : PipelineKey) (key : TransferKey)
  | markedFailed (q : Query)
deriving DecidableEq

/-- The keys that may be in the pipelines, and how rows were handled. -/
structure Poll where
  inPipeline : List Entry
  handled : List Handling := []

/-- A poll returns the rows. A transfer is refused if its key is in its pipeline;
while the dispatcher is at work keys leave the pipelines, so it may be pushed
whatever is said in `inPipeline`. -/
def Poll.allows (rows : List Ibcv2Transfer) (s : Poll) : (c : Call) → c.Ans → Prop
  | .getUnfinishedIBCV2Transfers, ans => ans = .ok rows
  | .push pl t, false => (pl.key, t.key) ∈ s.inPipeline
  | _, _ => True

def Poll.after (s : Poll) : (c : Call) → c.Ans → Poll
  | .push pl t, true => ⟨(pl.key, t.key) :: s.inPipeline, s.handled ++ [.pushed pl.key t.key]⟩
  | .push pl t, false => { s with handled := s.handled ++ [.leftAlone pl.key t.key] }
  | .updateTransferState q, _ => { s with handled := s.handled ++ [.markedFailed q] }
  | _, _ => s

def dispatching (rows : List Ibcv2Transfer) : Sem Call Call.Ans Poll where
  adm c ans s := s.allows rows c ans
  next c ans s := s.after c ans

/-- The configuration has what a pipeline for the transfer takes: both chains,
with their `ibcv2` sections. -/
def Relayable (cfg : ConfigReader) (t : IBCV2Transfer) : Prop :=
  ∃ source dest, cfg.getChainConfig t.sourceChainID = .ok source ∧
    cfg.getChainConfig t.destinationChainID = .ok dest ∧
    source.ibcv2.isSome = true ∧ dest.ibcv2.isSome = true

/-- If both chains of the transfer are configured, the source chain has an
`ibcv2` section. -/
def SourceSection (cfg : ConfigReader) (t : IBCV2Transfer) : Prop :=
  ∀ source dest, cfg.getChainConfig t.sourceChainID = .ok source →
    cfg.getChainConfig t.destinationChainID = .ok dest → source.ibcv2.isSome = true

/-- How a row is handled: pushed, or left alone because its key is in the
pipeline, or marked `FAILED` because no pipeline can be made for it. -/
inductive EndsUp (cfg : ConfigReader) (inPipeline : List Entry)
    (r : Ibcv2Transfer) : Handling → Prop where
  | pushed : Relayable cfg (newIBCV2Transfer r) →
    EndsUp cfg inPipeline r (.pushed (newPipelineKey (newIBCV2Transfer r)) (newIBCV2Transfer r).key)
  | leftAlone : Relayable cfg (newIBCV2Transfer r) →
    (newPipelineKey (newIBCV2Transfer r), (newIBCV2Transfer r).key) ∈ inPipeline →
    EndsUp cfg inPipeline r
    (.leftAlone (newPipelineKey (newIBCV2Transfer r)) (newIBCV2Transfer r).key)
  | markedFailed : ¬Relayable cfg (newIBCV2Transfer r) →
    EndsUp cfg inPipeline r (.markedFailed (updateTransferState .failed (newIBCV2Transfer r).key))

variable {cfg : ConfigReader} {rows : List Ibcv2Transfer} {t : IBCV2Transfer} {s : Poll}

theorem EndsUp.mono {inPipeline inPipeline' : List Entry} {r : Ibcv2Transfer} {a : Handling}
    (h : EndsUp cfg inPipeline r a) (hsub : inPipeline ⊆ inPipeline') :
    EndsUp cfg inPipeline' r a := by
  cases h with
  | pushed h => exact .pushed h
  | leftAlone h hm => exact .leftAlone h (hsub hm)
  | markedFailed h => exact .markedFailed h

/-! ## The alert -/

/-- The program handles no row. -/
def Idles {α : Type} (rows : List Ibcv2Transfer) (x : Dispatch α) : Prop :=
  ∀ s, wp (dispatching rows) (fun _ _ => True) x (fun _ s' => s' = s) s

namespace Idles

variable {α β : Type}

theorem ret (a : α) : Idles rows (.ret a) := fun _ => rfl

theorem bind {x : Dispatch α} {f : α → Dispatch β} (hx : Idles rows x)
    (hf : ∀ a, Idles rows (f a)) : Idles rows (x.bind f) := by
  intro s
  refine wp_bind.mpr ((hx s).post fun a s' h => ?_)
  rw [h]
  exact hf a s

theorem now : Idles rows (call .now) := fun _ => ⟨trivial, fun _ _ => rfl⟩

theorem observation (source dest environment : String) (relayType : RelayType) :
    Idles rows (call (.addExcessiveRelayLatencyObservation source dest environment relayType)) :=
  fun _ => ⟨trivial, fun _ _ => rfl⟩

theorem since (u : Time) : Idles rows (timeSince u) := now.bind fun _ => ret _

theorem observeIf (ofType : Bool) (u : Time) (limit : Duration) {x : Dispatch Unit}
    (hx : Idles rows x) : Idles rows (observeIf ofType u limit x) := by
  rw [RelayDispatcher.observeIf]
  split
  · refine (since u).bind fun latency => ?_
    split
    · exact hx
    · exact ret _
  · exact ret _

end Idles

theorem observeLatency_idles (source dest : ChainConfig) (t : IBCV2Transfer)
    (relayType : RelayType) : Idles rows (observeLatency source dest t relayType) := by
  cases relayType with
  | ibcv2SendToRecv =>
    exact (Idles.observeIf _ _ _ (.observation _ _ _ _)).bind fun _ =>
      .observeIf _ _ _ (.observation _ _ _ _)
  | ibcv2RecvToAck =>
    exact (Idles.observeIf _ _ _ (.observation _ _ _ _)).bind fun _ =>
      .observeIf _ _ _ (.observation _ _ _ _)
  | ibcv2SendToTimeout =>
    rw [observeLatency]
    refine (Idles.since _).bind fun late => ?_
    split
    · exact .ret _
    dsimp only
    split
    · refine (Idles.since _).bind fun age => ?_
      split
      · exact .ret _
      · exact .observation _ _ _ _
    · exact .observation _ _ _ _

theorem ongoingRelayType_idles (t : IBCV2Transfer) (success error : Bool) :
    Idles rows (ongoingRelayType t success error) := by
  rw [ongoingRelayType]
  split
  · exact .ret _
  split
  · exact Idles.now.bind fun _ => .ret _
  · exact .ret _

/-- With a section to read, the alert returns, and has handled nothing. -/
theorem alert_returns (h : SourceSection cfg t) (s : Poll) :
    wp (dispatching rows) (fun _ _ => True) (alertOnExcessiveRelayLatency cfg t)
      (fun out s' => out = some () ∧ s' = s) s := by
  rw [alertOnExcessiveRelayLatency]
  cases hs : cfg.getChainConfig t.sourceChainID with
  | error _ => exact ⟨rfl, rfl⟩
  | ok source =>
  cases hd : cfg.getChainConfig t.destinationChainID with
  | error _ => exact ⟨rfl, rfl⟩
  | ok dest =>
  obtain ⟨ibcv2, hsection⟩ := Option.isSome_iff_exists.mp (h source dest hs hd)
  dsimp only
  rw [hsection]
  refine wp_bind.mpr ((ongoingRelayType_idles t _ _ s).post fun relayType s₁ h₁ => ?_)
  subst h₁
  cases relayType with
  | none => exact ⟨rfl, rfl⟩
  | some relayType =>
    exact wp_bind.mpr ((observeLatency_idles source dest t relayType s₁).post fun _ s₂ h₂ =>
      ⟨rfl, h₂⟩)

theorem alert_panics (h : ¬SourceSection cfg t) :
    alertOnExcessiveRelayLatency cfg t = .ret none := by
  simp only [SourceSection, not_forall] at h
  obtain ⟨source, dest, hs, hd, hsection⟩ := h
  have hnone : source.ibcv2 = none := by simpa using hsection
  rw [alertOnExcessiveRelayLatency, hs]
  dsimp only
  rw [hd]
  dsimp only
  rw [hnone]

/-! ## The pipeline -/

theorem exists_newPipelineOpts_iff :
    (∃ opts, (newPipelineOpts cfg t).map (·.toPipelineOptions) = .ok opts) ↔ Relayable cfg t := by
  unfold newPipelineOpts Relayable
  cases cfg.getChainConfig t.sourceChainID with
  | error _ => simp [Except.map]
  | ok source =>
  cases cfg.getChainConfig t.destinationChainID with
  | error _ => simp [Except.map]
  | ok dest =>
  cases hs : source.ibcv2 <;> cases hd : dest.ibcv2 <;> simp [hs, hd, Except.map]

/-- The errors of the configuration are no sentinel errors. -/
theorem wraps_newPipelineOpts {err : Err} (h : newPipelineOpts cfg t = .error err) :
    err.wraps = [] := by
  have hchain {chainID : String} {err : Err} (h : cfg.getChainConfig chainID = .error err) :
      err.wraps = [] := by
    rw [ConfigReader.getChainConfig] at h
    split at h <;> cases h
    rfl
  unfold newPipelineOpts at h
  split at h
  · rename_i hs
    cases h
    exact (hchain hs :)
  split at h
  · rename_i hd
    cases h
    exact (hchain hd :)
  split at h
  · cases h
    rfl
  split at h <;> cases h
  rfl

theorem relayable_of_key {u : IBCV2Transfer} (h : newPipelineKey u = newPipelineKey t)
    (hu : Relayable cfg u) : Relayable cfg t := by
  have hs : u.sourceChainID = t.sourceChainID := congrArg PipelineKey.sourceChainID h
  have hd : u.destinationChainID = t.destinationChainID := congrArg PipelineKey.destinationChainID h
  rw [Relayable, hs, hd] at hu
  exact hu

/-- What the manager returns does not depend on the pipelines it has. -/
theorem pipeline_spec (m : ConfiguredManager cfg) (t : IBCV2Transfer) :
    (Relayable cfg t → ∃ pl m', m.pipeline t = (.ok pl, m') ∧ pl.key = newPipelineKey t) ∧
      (¬Relayable cfg t → ∃ err m', m.pipeline t = (.error err, m') ∧ err.wraps = []) := by
  suffices h : (Relayable cfg t → ∃ pl, (m.pipeline t).1 = .ok pl ∧ pl.key = newPipelineKey t) ∧
      (¬Relayable cfg t → ∃ err, (m.pipeline t).1 = .error err ∧ err.wraps = []) by
    refine ⟨fun hr => ?_, fun hr => ?_⟩
    · obtain ⟨pl, hpl, hkey⟩ := h.1 hr
      exact ⟨pl, (m.pipeline t).2, Prod.ext hpl rfl, hkey⟩
    · obtain ⟨err, herr, hwraps⟩ := h.2 hr
      exact ⟨err, (m.pipeline t).2, Prod.ext herr rfl, hwraps⟩
  dsimp only [ConfiguredManager.pipeline]
  unfold IBCV2PipelineManager.pipeline
  cases hfind : m.pipelines.find? (·.key = newPipelineKey t) with
  | some pl =>
    have hkey : pl.key = newPipelineKey t := by simpa using List.find?_some hfind
    obtain ⟨u, hu, hopts⟩ := m.made pl (List.mem_of_find?_eq_some hfind)
    exact ⟨fun _ => ⟨pl, rfl, hkey⟩,
      fun hn => absurd
      (relayable_of_key (hu.trans hkey) (exists_newPipelineOpts_iff.mp ⟨_, hopts⟩)) hn⟩
  | none =>
    cases hopts : newPipelineOpts cfg t with
    | error err =>
      refine ⟨fun hr => ?_, fun _ => ⟨_, rfl, (wraps_newPipelineOpts hopts :)⟩⟩
      obtain ⟨opts, hok⟩ := exists_newPipelineOpts_iff.mpr hr
      rw [hopts] at hok
      cases hok
    | ok opts =>
      have hok : (newPipelineOpts cfg t).map (·.toPipelineOptions) = .ok
          opts.toPipelineOptions := by
        rw [hopts]
        rfl
      exact ⟨fun _ => ⟨_, rfl, rfl⟩, fun hn => absurd (exists_newPipelineOpts_iff.mp ⟨_, hok⟩) hn⟩

/-! ## The loop -/

/-- One row more was handled, as it should be. -/
def HandlesOne (cfg : ConfigReader) (r : Ibcv2Transfer) (s s' : Poll) : Prop :=
  s.inPipeline ⊆ s'.inPipeline ∧ ∃ a, s'.handled = s.handled ++ [a] ∧ EndsUp cfg s'.inPipeline r a

theorem submit_handles (m : ConfiguredManager cfg) (r : Ibcv2Transfer) (s : Poll) :
    wp (dispatching rows) (fun _ _ => True) (submit m (newIBCV2Transfer r))
      (fun _ s' => HandlesOne cfg r s s') s := by
  rw [RelayDispatcher.submit]
  obtain ⟨hok, herr⟩ := pipeline_spec m (newIBCV2Transfer r)
  by_cases hr : Relayable cfg (newIBCV2Transfer r)
  · obtain ⟨pl, m', hpl, hkey⟩ := hok hr
    rw [hpl]
    refine ⟨trivial, fun pushed hans => ?_⟩
    cases pushed with
    | true =>
      refine ⟨List.subset_cons_self _ _, _, rfl, ?_⟩
      rw [hkey]
      exact .pushed hr
    | false =>
      have hans : (pl.key, (newIBCV2Transfer r).key) ∈ s.inPipeline := hans
      refine ⟨List.Subset.refl _, _, rfl, ?_⟩
      rw [hkey] at hans ⊢
      exact .leftAlone hr hans
  · obtain ⟨err, m', hpl, hwraps⟩ := herr hr
    rw [hpl]
    have his : (errorf "getting pipeline to push transfer onto from manager: %w" [] err).is
        .errTransferAlreadyInPipeline = false := by simp [Err.is, errorf, hwraps]
    change wp _ _ (Prog.bind
      (if (errorf "getting pipeline to push transfer onto from manager: %w" [] err).is
      .errTransferAlreadyInPipeline then _ else _) _) _ _
    rw [his]
    exact ⟨trivial, fun _ _ => ⟨List.Subset.refl _, _, rfl, .markedFailed hr⟩⟩

/-- The invariant of the loop: the rows so far were handled in their order. -/
theorem submitAll_handles (h : ∀ r ∈ rows, SourceSection cfg (newIBCV2Transfer r))
    {polled : List Ibcv2Transfer} (m : ConfiguredManager cfg) (s : Poll) :
    wp (dispatching polled) (fun _ _ => True) (submitAll rows m)
      (fun out s' => out.isSome = true ∧ s.inPipeline ⊆ s'.inPipeline ∧
        ∃ new, s'.handled = s.handled ++ new ∧ List.Forall₂ (EndsUp cfg s'.inPipeline) rows new)
        s := by
  induction rows generalizing m s with
  | nil => exact ⟨rfl, List.Subset.refl _, [], (List.append_nil _).symm, .nil⟩
  | cons r rows ih =>
    obtain ⟨hr, hrows⟩ := List.forall_mem_cons.mp h
    refine wp_bind.mpr ((alert_returns hr s).post ?_)
    rintro _ _ ⟨rfl, rfl⟩
    refine wp_bind.mpr ((submit_handles m r _).post fun m' s₁ h₁ => ?_)
    obtain ⟨hsub, a, ha, hends⟩ := h₁
    refine (ih hrows m' s₁).post fun out s₂ h₂ => ?_
    obtain ⟨hout, hsub', new, hnew, hall⟩ := h₂
    refine ⟨hout, List.Subset.trans hsub hsub', a :: new, ?_, .cons (hends.mono hsub') hall⟩
    rw [hnew, ha, List.append_assoc]
    rfl

theorem submitAll_panics (h : ∃ r ∈ rows, ¬SourceSection cfg (newIBCV2Transfer r))
    {polled : List Ibcv2Transfer} (m : ConfiguredManager cfg) (s : Poll) :
    wp (dispatching polled) (fun _ _ => True) (submitAll rows m) (fun out _ => out = none) s := by
  induction rows generalizing m s with
  | nil => simp at h
  | cons r rows ih =>
    rw [submitAll]
    by_cases hr : SourceSection cfg (newIBCV2Transfer r)
    · refine wp_bind.mpr ((alert_returns hr s).post ?_)
      rintro _ _ ⟨rfl, rfl⟩
      refine wp_bind.mpr ((submit_handles m r _).post fun m' s₁ _ => ih ?_ m' s₁)
      obtain ⟨r', hmem, hr'⟩ := h
      rcases List.mem_cons.mp hmem with rfl | hmem
      · exact absurd hr hr'
      · exact ⟨r', hmem, hr'⟩
    · rw [alert_panics hr]
      rfl

/-- Every call of the dispatcher can be answered. -/
theorem exists_answer (c : Call) (s : Poll) : ∃ ans, (dispatching rows).adm c ans s := by
  cases c with
  | getUnfinishedIBCV2Transfers => exact ⟨.ok rows, rfl⟩
  | now => exact ⟨0, trivial⟩
  | addExcessiveRelayLatencyObservation => exact ⟨(), trivial⟩
  | push => exact ⟨true, trivial⟩
  | updateTransferState => exact ⟨.ok (), trivial⟩

/-- For every configuration, manager and list of rows: in every run of the poll
that returns these rows. -/
theorem every_row_handled_iff (m : ConfiguredManager cfg) (rows : List Ibcv2Transfer)
    (inPipeline : List Entry) :
    (∀ out s, Steps (dispatching rows) (submitWaitingUnfinishedTransfers m) ⟨inPipeline, []⟩
      (.ret out) s →
        (∃ m', out = some (.ok (), m')) ∧ List.Forall₂ (EndsUp cfg s.inPipeline) rows s.handled) ↔
      ∀ r ∈ rows, SourceSection cfg (newIBCV2Transfer r) := by
  constructor
  · intro h
    by_contra hn
    simp only [not_forall] at hn
    obtain ⟨r, hr, hn⟩ := hn
    have hpanics : wp (dispatching rows) (fun _ _ => True) (submitWaitingUnfinishedTransfers m)
        (fun out _ => out = none) ⟨inPipeline, []⟩ := by
      refine ⟨trivial, ?_⟩
      rintro _ rfl
      change wp _ _ ((submitAll rows m).bind _) _ _
      refine wp_bind.mpr ((submitAll_panics ⟨r, hr, hn⟩ m _).post ?_)
      rintro _ _ rfl
      rfl
    obtain ⟨out, s, hrun⟩ := exists_returned (S := dispatching rows) exists_answer
      (submitWaitingUnfinishedTransfers m) ⟨inPipeline, []⟩
    obtain ⟨⟨m', hout⟩, -⟩ := h out s hrun
    rw [hpanics.returned hrun] at hout
    cases hout
  · intro h out s hrun
    have hall : wp (dispatching rows) (fun _ _ => True) (submitWaitingUnfinishedTransfers m)
        (fun out s => (∃ m', out = some (.ok (), m')) ∧
          List.Forall₂ (EndsUp cfg s.inPipeline) rows s.handled)
        ⟨inPipeline, []⟩ := by
      refine ⟨trivial, ?_⟩
      rintro _ rfl
      change wp _ _ ((submitAll rows m).bind _) _ _
      refine wp_bind.mpr ((submitAll_handles h m _).post ?_)
      rintro out s ⟨hout, -, new, hnew, hends⟩
      obtain ⟨m', rfl⟩ := Option.isSome_iff_exists.mp hout
      have hhandled : s.handled = new := hnew
      exact ⟨⟨m', rfl⟩, hhandled ▸ hends⟩
    exact hall.returned hrun

/-- Two chains, of which the source chain has no `ibcv2` section. -/
def noSourceSection : ConfigReader where
  chainIDIndex :=
    [("source", { chainID := "source", type := .cosmos }),
     ("destination", { chainID := "destination", type := .cosmos, ibcv2 := some {} })]

/-- The row of a packet between the two stops the poll, and a row that can be
relayed is not handled. -/
theorem row_not_handled : ∃ good s,
    Steps (dispatching [insertedRow somePacket, good])
      (submitWaitingUnfinishedTransfers ({ made := by simp } : ConfiguredManager noSourceSection))
      ⟨[], []⟩ (.ret none) s ∧ Relayable noSourceSection (newIBCV2Transfer good) ∧
      s.handled = [] := by
  exact ⟨insertedRow { somePacket with sourceChainID := "destination" }, _,
    .call (.ok _) rfl (.refl _ _), ⟨_, _, rfl, rfl, rfl, rfl⟩, rfl⟩

end PlatformRelayer.RelayDispatcher

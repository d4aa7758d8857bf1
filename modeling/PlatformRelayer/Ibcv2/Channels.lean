import PlatformRelayer.Ibcv2.Dispatcher

/-!
# The pipelines with their channels

In `Dispatcher.lean` a transfer goes on to its next stage at any time. But the channels
between the stages have finite room, most of them none at all, and so many goroutines
read from them as they were made with. `Flow` is the state of the process with the
place of each transfer and of each goroutine, and whatever goes on needs room where it
gets to (`Flow.hasRoom`). A goroutine that is done sends its transfers on one by one.

`Push` of a deduper waits for room in the input channel of its pipeline, and has the
lock of the deduper meanwhile (`Place.push`). The transfer that the pipeline puts out
needs the lock too. The dispatcher pushes one transfer after the other, so it does
nothing else until then.
-/

namespace PlatformRelayer

open Prog Db

/-- Where in a pipeline something is. -/
inductive Place where
  /-- In `Push`, with the lock. -/
  | push
  /-- In the input channel, or with the emitter behind it. -/
  | input
  /-- With the loop of `ProcessConcurrently`, which waits for a goroutine to be free. -/
  | door
  /-- With a goroutine of the stage; of a batch stage, the one that reads the transfers. -/
  | stage
  /-- With the collector of a batch stage, or in a batch that waits for a goroutine. -/
  | toBatch
  /-- With a goroutine that processes batches. -/
  | batch
  /-- With the goroutine that sends on what the batches result in. -/
  | results
  /-- With the goroutine of the deduper. -/
  | output
deriving DecidableEq

/-- A place at the stage of a pipeline after which there are so many left, with itself. -/
structure Spot where
  pipeline : PipelineKey
  left : Nat
  place : Place
deriving DecidableEq

def Token.at (tok : Token) (place : Place) : Spot := ⟨tok.pipeline.key, tok.stages.length, place⟩

/-- Where a transfer gets to when it is sent on. -/
def Token.place (tok : Token) : Place :=
  match tok.stages with
  | [] => .output
  | st :: _ => match st.processor tok.pipeline with
    | .batch _ => if tok.queued then .toBatch else .stage
    | _ => .door

def Token.spot (tok : Token) : Spot := tok.at tok.place

section Spot

variable (tok : Token) (place place' : Place)

@[simp] theorem Token.pipeline_at : (tok.at place).pipeline = tok.pipeline.key := rfl

@[simp] theorem Token.place_at : (tok.at place).place = place := rfl

@[simp] theorem Token.place_spot : tok.spot.place = tok.place := rfl

@[simp] theorem Token.at_at :
    (⟨(tok.at place).pipeline, (tok.at place).left, place'⟩ : Spot) = tok.at place' := rfl

@[simp] theorem Token.at_spot : (⟨tok.spot.pipeline, tok.spot.left, place⟩ : Spot) = tok.at place :=
  rfl

end Spot

structure Placed where
  spot : Spot
  job : Job

/-- How many transfers or goroutines there is room for at each spot. -/
structure Sizes where
  capacity : Spot → Nat
  pos (spot : Spot) : 0 < capacity spot

structure Flow where
  db : Transfers
  hasPriceClient : Bool := false
  polled : List Ibcv2Transfer := []
  pipelines : List Pipeline := []
  inPipeline : List Entry := []
  jobs : List Placed := []

/-- What a job comes to where there is always room: a goroutine that is done has sent
everything on. -/
def Job.sent : Job → List Job
  | .rest tok => [.rest tok]
  | .run task => match task.prog with
    | .ret toks => toks.map .rest
    | .call .. => [.run task]

namespace Flow

variable (sizes : Sizes) (c : Flow)

/-- The process if there is always room. -/
def relayer : Relayer where
  db := c.db
  hasPriceClient := c.hasPriceClient
  polled := c.polled
  pipelines := c.pipelines
  inPipeline := c.inPipeline
  jobs := c.jobs.flatMap (·.job.sent)

/-- What the dispatcher has made of the process. A transfer that it pushes is in `Push`. -/
def dispatched (r : Relayer) : Flow where
  db := r.db
  hasPriceClient := r.hasPriceClient
  polled := r.polled
  pipelines := r.pipelines
  inPipeline := r.inPipeline
  jobs := c.jobs ++ ((r.jobs.drop c.relayer.jobs.length).filterMap Job.token?).map fun tok =>
    ⟨tok.at .push, .rest tok⟩

def hasRoom (spot : Spot) : Bool := decide (c.jobs.countP (·.spot = spot) < sizes.capacity spot)

/-- The dispatcher is in `Push`. -/
def isPushing : Bool := c.jobs.any (·.spot.place = .push)

/-- `Push` has the lock of the deduper of a pipeline. -/
def isLocked (key : PipelineKey) : Bool :=
  c.jobs.any fun p => p.spot.place = .push ∧ p.spot.pipeline = key

end Flow

/-- A turn: one of those of `Action`, where `finish` is now `send`, for one transfer
after the other, and `done`; or a transfer gets into the input channel, from there to the
first stage, or the results of a batch get to the goroutine that sends them on. -/
inductive FlowAction where
  | insert (p : InsertIBCV2TransferParams)
  | poll
  | submit (opts : Except Err PipelineOptions) (ans : Except Err Unit)
  | enter (i : Nat)
  | emit (i : Nat)
  | start (i : Nat)
  | startBatch (is : List Nat)
  | act (i : Nat) (ω : (c : Call) → c.Ans)
  | hand (i : Nat)
  | send (i : Nat)
  | done (i : Nat)
  | output (i : Nat)

def Flow.step (sizes : Sizes) (c : Flow) : FlowAction → Option Flow
  | .insert p => (c.relayer.step (.insert p)).map c.dispatched
  | .poll => if c.isPushing then none else (c.relayer.step .poll).map c.dispatched
  | .submit opts ans =>
    if c.isPushing then none else (c.relayer.step (.submit opts ans)).map c.dispatched
  | .enter i => match takeAt [i] c.jobs with
    | some ([⟨spot, .rest tok⟩], others) =>
      if spot.place = .push ∧ c.hasRoom sizes (tok.at .input) then
        some { c with jobs := others ++ [⟨tok.at .input, .rest tok⟩] }
      else none
    | _ => none
  | .emit i => match takeAt [i] c.jobs with
    | some ([⟨spot, .rest tok⟩], others) =>
      if spot.place = .input ∧ c.hasRoom sizes tok.spot then
        some { c with jobs := others ++ [⟨tok.spot, .rest tok⟩] }
      else none
    | _ => none
  | .start i => match takeAt [i] c.jobs with
    | some ([⟨spot, .rest tok⟩], others) =>
      -- The goroutine that reads for a batch stage has the transfer already.
      if spot.place = .door ∧ c.hasRoom sizes (tok.at .stage) ∨ spot.place = .stage then
        tok.start.map fun task => { c with jobs := others ++ [⟨tok.at .stage, .run task⟩] }
      else none
    | _ => none
  | .startBatch is => match takeAt is c.jobs with
    | some (p :: batch, others) =>
      let spot : Spot := { p.spot with place := .batch }
      if (p :: batch).all (·.spot.place = .toBatch) ∧ c.hasRoom sizes spot then
        (((p :: batch).map (·.job)).mapM Job.token?).bind fun toks =>
          (collect toks).map fun task => { c with jobs := others ++ [⟨spot, .run task⟩] }
      else none
    | _ => none
  | .act i ω => match takeAt [i] c.jobs with
    | some ([⟨spot, .run task⟩], others) => match task.prog with
      | .call a k => some { c with
          db := a.effect (ω a) c.db
          jobs := others ++ [⟨spot, .run { task with prog := k (ω a) }⟩] }
      | .ret _ => none
    | _ => none
  | .hand i => match takeAt [i] c.jobs with
    | some ([⟨spot, .run task⟩], others) =>
      let results : Spot := { spot with place := .results }
      if spot.place = .batch ∧ task.prog.result?.isSome ∧ c.hasRoom sizes results then
        some { c with jobs := others ++ [⟨results, .run task⟩] }
      else none
    | _ => none
  | .send i => match takeAt [i] c.jobs with
    | some ([⟨spot, .run task⟩], others) => match task.prog with
      | .ret (tok :: toks) =>
        if spot.place ≠ .batch ∧ c.hasRoom sizes tok.spot then
          some { c with jobs := others ++
            [⟨spot, .run { task with prog := .ret toks }⟩, ⟨tok.spot, .rest tok⟩] }
        else none
      | _ => none
    | _ => none
  | .done i => match takeAt [i] c.jobs with
    | some ([⟨_, .run task⟩], others) => match task.prog with
      | .ret [] => some { c with jobs := others }
      | _ => none
    | _ => none
  | .output i => match takeAt [i] c.jobs with
    | some ([⟨_, .rest tok⟩], others) =>
      if tok.stages.isEmpty ∧ !c.isLocked tok.pipeline.key then some { c with
        inPipeline := c.inPipeline.filter (· ≠ tok.entry)
        jobs := others }
      else none
    | _ => none

def Flow.Turn (sizes : Sizes) (c c' : Flow) : Prop := ∃ a, c.step sizes a = some c'

end PlatformRelayer

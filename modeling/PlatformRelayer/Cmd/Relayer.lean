import PlatformRelayer.Ibcv2.Dispatcher
import PlatformRelayer.Ibcv2.PipelineOpts
import PlatformRelayer.RelayerApi.Service

/-!
# The relayer process

`main` starts the server of the API, whose handlers insert rows, and the
dispatcher, which takes them from the table to the pipelines; the two share the
database and the configuration. `Server` is the state of both: what
`Dispatcher.lean` calls a `Relayer`, the table of submissions, and the `Relay`
requests in progress. `Status` requests only read, and are left out.

All of them take turns in any order (`Server.step`), and the process may be
stopped and started again at any point: then the tables are all that is left.
-/

namespace PlatformRelayer

open Prog Db

structure Server where
  relayer : Relayer
  submissions : Submissions
  handlers : List (Api (Except StatusErr Unit)) := []

/-- The tables. -/
def Server.store (s : Server) : Store := ⟨s.submissions, s.relayer.db⟩

def Server.setStore (s : Server) (store : Store) : Server :=
  { s with relayer := { s.relayer with db := store.transfers }, submissions := store.submissions }

/-- The server as `main` starts it. -/
def Server.start (store : Store) (hasPriceClient : Bool) : Server where
  relayer := { db := store.transfers, hasPriceClient := hasPriceClient }
  submissions := store.submissions

/-- A turn: a request comes in, a handler makes a call that is answered by `ω`,
the dispatcher submits the next of the rows that it has polled, with the answer
to the update to `FAILED`, or takes another turn, as do the pipelines, or the
process is started again. -/
inductive ServerAction where
  | request (req : RelayRequest)
  | handle (i : Nat) (ω : (c : ApiCall) → c.Ans)
  | submit (ans : Except Err Unit)
  | relayer (a : Action)
  | restart

/-- The turns of a relayer that are not given with a `ServerAction`: rows come
from the handlers, and options from the configuration. -/
def Action.isInner : Action → Bool
  | .insert _ | .submit .. => false
  | _ => true

/-- `NewPipelineOpts`, for the row that is next to be submitted. -/
def ConfigReader.nextOpts (config : ConfigReader) (s : Relayer) : Except Err PipelineOptions :=
  match s.polled with
  | [] => .error (newErr "")
  | r :: _ => (newPipelineOpts config (newIBCV2Transfer r)).map (·.toPipelineOptions)

def Server.step (config : ConfigReader) (loc : Zone) (s : Server) : ServerAction → Option Server
  | .request req => some { s with handlers := s.handlers ++ [relay config loc req] }
  | .handle i ω => match s.handlers[i]? with
    | some (.call c k) =>
      some { s.setStore (c.effect (ω c) s.store) with handlers := s.handlers.set i (k (ω c)) }
    | _ => none
  | .submit ans => (s.relayer.step (.submit (config.nextOpts s.relayer) ans)).map fun r =>
  { s with relayer := r }
  | .relayer a => if a.isInner then (s.relayer.step a).map fun r => { s with relayer := r }
  else none
  | .restart => some (.start s.store s.relayer.hasPriceClient)

/-- What the nodes and Postgres may answer to a handler; anything may be the
answer to a goroutine of a pipeline. -/
def Server.Answered (env : Env) (s : Server) : ServerAction → Prop
  | .handle i ω => ∀ p c, s.handlers[i]? = some p → p.next? = some c → env.Answers c (ω c) s.store
  | _ => True

def Server.Turn (env : Env) (config : ConfigReader) (loc : Zone) (s s' : Server) : Prop :=
  ∃ a, s.Answered env a ∧ s.step config loc a = some s'

end PlatformRelayer

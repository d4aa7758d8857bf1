import PlatformRelayer.Framework.Prog
import PlatformRelayer.Framework.Table
import PlatformRelayer.Framework.Concurrent
import PlatformRelayer.Framework.SeenSet
import PlatformRelayer.Framework.Escape
import PlatformRelayer.Framework.Trace
import PlatformRelayer.Framework.Layers
import PlatformRelayer.Framework.Lock
import PlatformRelayer.Framework.Draining
import PlatformRelayer.Db.Models
import PlatformRelayer.Db.Queries
import PlatformRelayer.Db.Columns
import PlatformRelayer.Ibcv2.Errors
import PlatformRelayer.Ibcv2.Transfer
import PlatformRelayer.Ibcv2.Calls
import PlatformRelayer.Ibcv2.Processors
import PlatformRelayer.Ibcv2.BatchProcessors
import PlatformRelayer.Ibcv2.ProcessorMW
import PlatformRelayer.Ibcv2.Pipeline
import PlatformRelayer.Ibcv2.Dispatcher
import PlatformRelayer.Ibcv2.Channels
import PlatformRelayer.Ibcv2.ConditionalBatch
import PlatformRelayer.Ibcv2.Deduper
import PlatformRelayer.Ibcv2.Submission
import PlatformRelayer.Shared.Times
import PlatformRelayer.Shared.Config
import PlatformRelayer.Shared.Bridges
import PlatformRelayer.Shared.PriceClient
import PlatformRelayer.RelayerApi.Calls
import PlatformRelayer.RelayerApi.Service
import PlatformRelayer.Ibcv2.PipelineOpts
import PlatformRelayer.Cmd.Relayer
import PlatformRelayer.Bridges.Nodes
import PlatformRelayer.Bridges.WriteAcks
import PlatformRelayer.Bridges.Finality
import PlatformRelayer.Signing.CosmosTx
import PlatformRelayer.Bridges.CosmosSubmission
import PlatformRelayer.Bridges.EvmTx
import PlatformRelayer.Bridges.WaitForTx
import PlatformRelayer.Bridges.Once
import PlatformRelayer.Bridges.Delivery
import PlatformRelayer.Bridges.ChainClient
import PlatformRelayer.Proof.Packets
import PlatformRelayer.Proof.Lifecycle
import PlatformRelayer.Proof.Stages
import PlatformRelayer.Proof.Batches
import PlatformRelayer.Proof.Runs
import PlatformRelayer.Proof.Rows
import PlatformRelayer.Proof.Evidence
import PlatformRelayer.Proof.Recovery
import PlatformRelayer.Proof.Middleware
import PlatformRelayer.Proof.Deliveries
import PlatformRelayer.Proof.Frames
import PlatformRelayer.Proof.Interleaving
import PlatformRelayer.Proof.Races
import PlatformRelayer.Proof.Jobs
import PlatformRelayer.Proof.Channels
import PlatformRelayer.Proof.Draining
import PlatformRelayer.Proof.Conservation
import PlatformRelayer.Proof.Noticed
import PlatformRelayer.Proof.Guards
import PlatformRelayer.Proof.Columns
import PlatformRelayer.Proof.Agreement
import PlatformRelayer.Proof.Gas
import PlatformRelayer.Proof.Counts
import PlatformRelayer.Proof.ConditionalBatch
import PlatformRelayer.Proof.Deduper
import PlatformRelayer.Proof.Relay
import PlatformRelayer.Proof.Instants
import PlatformRelayer.Proof.Requests
import PlatformRelayer.Proof.Rechecks
import PlatformRelayer.Proof.Submission
import PlatformRelayer.Proof.RouterLogs
import PlatformRelayer.Proof.WriteAcks
import PlatformRelayer.Proof.Finality
import PlatformRelayer.Proof.Signing
import PlatformRelayer.Proof.CosmosSubmission
import PlatformRelayer.Proof.Prices
import PlatformRelayer.Proof.Fees
import PlatformRelayer.Proof.WaitForTx
import PlatformRelayer.Proof.Once
import PlatformRelayer.Proof.SingleFlight
import PlatformRelayer.Proof.Delivery
import PlatformRelayer.Proof.Chains
import PlatformRelayer.Proof.EvmClient
import PlatformRelayer.Proof.CosmosClient
import PlatformRelayer.Proof.TxHashes
import PlatformRelayer.Proof.Network
import PlatformRelayer.Proof.PacketChecks
import PlatformRelayer.Proof.TxChecks
import PlatformRelayer.Proof.Courses
import PlatformRelayer.Proof.Relaying
import PlatformRelayer.Proof.Routes
import PlatformRelayer.Proof.Vetting
import PlatformRelayer.Proof.Server

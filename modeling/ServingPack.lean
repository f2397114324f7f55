import ServingPack.Api.V1alpha1
import ServingPack.Console.Client
import ServingPack.Console.Conservation
import ServingPack.Console.Costs
import ServingPack.Console.Counts
import ServingPack.Console.Csv
import ServingPack.Console.Drill
import ServingPack.Console.Hub
import ServingPack.Console.HubInvariant
import ServingPack.Console.HubRuns
import ServingPack.Console.Identity
import ServingPack.Console.Keys
import ServingPack.Console.Paging
import ServingPack.Console.Prices
import ServingPack.Console.ReceiptStream
import ServingPack.Console.Receipts
import ServingPack.Console.Scan
import ServingPack.Console.Settled
import ServingPack.Console.Spend
import ServingPack.Console.StreamReader
import ServingPack.Console.StreamReads
import ServingPack.Console.StreamRuns
import ServingPack.Console.Streamed
import ServingPack.Console.Tails
import ServingPack.Console.TokenBatches
import ServingPack.Console.Tokens
import ServingPack.Console.Traffic
import ServingPack.Console.TrafficReturns
import ServingPack.Console.TrafficRuns
import ServingPack.Console.TrafficSeries
import ServingPack.Console.TrafficTrims
import ServingPack.Console.Usage
import ServingPack.Gateway.Access
import ServingPack.Gateway.Authorization
import ServingPack.Gateway.Dispatch
import ServingPack.Gateway.Envoy
import ServingPack.KeyManager.Audit
import ServingPack.KeyManager.Calls
import ServingPack.KeyManager.ClientID
import ServingPack.KeyManager.Conflicts
import ServingPack.KeyManager.CustomerRuns
import ServingPack.KeyManager.CustomerShapes
import ServingPack.KeyManager.CustomerStore
import ServingPack.KeyManager.CustomerSync
import ServingPack.KeyManager.CustomerWrites
import ServingPack.KeyManager.Customers
import ServingPack.KeyManager.DataKeys
import ServingPack.KeyManager.Fleet
import ServingPack.KeyManager.FleetInvariant
import ServingPack.KeyManager.FleetRuns
import ServingPack.KeyManager.Handler
import ServingPack.KeyManager.KeyOwnerInvariant
import ServingPack.KeyManager.KeyOwnerRuns
import ServingPack.KeyManager.KeyOwners
import ServingPack.KeyManager.Keys
import ServingPack.KeyManager.Lifecycle
import ServingPack.KeyManager.LifecycleInvariant
import ServingPack.KeyManager.LifecycleRuns
import ServingPack.KeyManager.LifecycleWrites
import ServingPack.KeyManager.Listing
import ServingPack.KeyManager.Manager
import ServingPack.KeyManager.RequestInvariant
import ServingPack.KeyManager.RequestRuns
import ServingPack.KeyManager.Requests
import ServingPack.KeyManager.SignIn
import ServingPack.KeyManager.Store
import ServingPack.KeyManager.Sync
import ServingPack.KeyManager.SyncInvariant
import ServingPack.KeyManager.SyncRuns
import ServingPack.KeyManager.Watcher
import ServingPack.Kube.Objects
import ServingPack.Lib.ApiServer.Cache
import ServingPack.Lib.ApiServer.Exec
import ServingPack.Lib.ApiServer.Handle
import ServingPack.Lib.ApiServer.State
import ServingPack.Lib.Delimited
import ServingPack.Lib.Domains
import ServingPack.Lib.Fields
import ServingPack.Lib.GoMap
import ServingPack.Lib.GoString
import ServingPack.Lib.Grouping
import ServingPack.Lib.JsMap
import ServingPack.Lib.Json
import ServingPack.Lib.Loop
import ServingPack.Lib.Machine
import ServingPack.Lib.Memory
import ServingPack.Lib.Names
import ServingPack.Lib.Newest
import ServingPack.Lib.Numbers
import ServingPack.Lib.Paging
import ServingPack.Lib.Program
import ServingPack.Lib.Protocol
import ServingPack.Lib.Run
import ServingPack.Lib.Singleflight
import ServingPack.Lib.Unstructured
import ServingPack.Lib.Upkeep
import ServingPack.Oidc.KeySets
import ServingPack.Oidc.Outcomes
import ServingPack.Oidc.PublicKeys
import ServingPack.Oidc.Refresh
import ServingPack.Oidc.Validation
import ServingPack.Oidc.Validator
import ServingPack.OpenMeter.Bootstrap
import ServingPack.OpenMeter.Canonical
import ServingPack.OpenMeter.FeatureKeys
import ServingPack.OpenMeter.Lists
import ServingPack.OpenMeter.Normalize
import ServingPack.OpenMeter.Paging
import ServingPack.OpenMeter.Store
import ServingPack.Operator.ConfigHash
import ServingPack.Operator.Controller.ApiKeys
import ServingPack.Operator.Controller.Apply
import ServingPack.Operator.Controller.ClusterTLS
import ServingPack.Operator.Controller.Conditions
import ServingPack.Operator.Controller.Keeping
import ServingPack.Operator.Controller.LLMModel
import ServingPack.Operator.Controller.LLMModelFollows
import ServingPack.Operator.Controller.LLMModelSteps
import ServingPack.Operator.Controller.ListenerHeaders
import ServingPack.Operator.Controller.PassthroughModel
import ServingPack.Operator.Controller.PassthroughModelFollows
import ServingPack.Operator.Controller.PassthroughModelSteps
import ServingPack.Operator.Controller.Runs
import ServingPack.Operator.Controller.SharedTLS
import ServingPack.Operator.Controller.Told
import ServingPack.Operator.EndpointRemoval
import ServingPack.Operator.GeneratedNames
import ServingPack.Operator.Generations
import ServingPack.Operator.KeyCleanup
import ServingPack.Operator.ListenerHeaders
import ServingPack.Operator.ListenerPolicies
import ServingPack.Operator.ObjectNames
import ServingPack.Operator.Provider
import ServingPack.Operator.Reconcilers.Auth
import ServingPack.Operator.Reconcilers.ClusterTLS
import ServingPack.Operator.Reconcilers.Common
import ServingPack.Operator.Reconcilers.ListenerHeaders
import ServingPack.Operator.Reconcilers.Passthrough
import ServingPack.Operator.Reconcilers.Routing
import ServingPack.Operator.Reconcilers.Serving
import ServingPack.Operator.RouteGuard
import ServingPack.Operator.SharedListeners
import ServingPack.Operator.SharedTLS
import ServingPack.Operator.SharedTLSPasses
import ServingPack.Operator.SigningRegion
import ServingPack.Operator.SpecEquality
import ServingPack.Usage.Attribution
import ServingPack.Usage.Collector
import ServingPack.Usage.EventIDs
import ServingPack.Usage.Receipts
import ServingPack.Webhook.Admission
import ServingPack.Webhook.Checked
import ServingPack.Webhook.Deletion
import ServingPack.Webhook.Uniqueness
import ServingPack.Webhook.Validators

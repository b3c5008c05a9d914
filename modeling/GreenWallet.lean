import GreenWallet.Library.Reactive
import GreenWallet.Library.Keyed
import GreenWallet.Library.Flood
import GreenWallet.Library.Jobs
import GreenWallet.Library.Reader
import GreenWallet.Library.Chunks
import GreenWallet.Library.CompactSize
import GreenWallet.Library.Serial
import GreenWallet.Library.Backlinks
import GreenWallet.Dlc.Coordinator
import GreenWallet.Dlc.StateMachine
import GreenWallet.Dlc.Operation
import GreenWallet.Dlc.Projection
import GreenWallet.Dlc.System
import GreenWallet.Dlc.Progress
import GreenWallet.Dlc.Submission
import GreenWallet.Dlc.Failures
import GreenWallet.Dlc.Routing
import GreenWallet.Dlc.SubmissionGuard
import GreenWallet.Dlc.Idempotency
import GreenWallet.Dlc.Polling
import GreenWallet.Dlc.RetryBudget
import GreenWallet.Jade.Variant
import GreenWallet.Jade.Api
import GreenWallet.Jade.Signing
import GreenWallet.Jade.Exchange
import GreenWallet.Jade.AllowList
import GreenWallet.Jade.AntiExfil
import GreenWallet.Jade.Session
import GreenWallet.Jade.Outline
import GreenWallet.Jade.Laws
import GreenWallet.Jade.Ids
import GreenWallet.Jade.Inflight
import GreenWallet.Jade.Exclusive
import GreenWallet.Jade.SerialWrite
import GreenWallet.Jade.Connection
import GreenWallet.Jade.Reconnect
import GreenWallet.Jade.Forwarding
import GreenWallet.Jade.HttpChain
import GreenWallet.Jade.HttpAnswer
import GreenWallet.Jade.Ota
import GreenWallet.Jade.OtaUpload
import GreenWallet.Jade.UpdateActivity
import GreenWallet.Jade.FirmwareUpdate
import GreenWallet.Jade.FirmwareCheck
import GreenWallet.Tasks.World
import GreenWallet.Tasks.Update
import GreenWallet.Tasks.Completion
import GreenWallet.Tasks.Propagation
import GreenWallet.Tasks.History
import GreenWallet.Tasks.Shape
import GreenWallet.Tasks.Terminal
import GreenWallet.Tasks.Frame
import GreenWallet.Tasks.Resolving
import GreenWallet.Tasks.Dispatching
import GreenWallet.Tasks.Dependencies
import GreenWallet.Tasks.Once
import GreenWallet.Tasks.Alone
import GreenWallet.Tasks.Unlocking
import GreenWallet.Login.System
import GreenWallet.Login.Requests
import GreenWallet.Login.HttpRequest
import GreenWallet.Login.AuthUser
import GreenWallet.Controllers.Convert
import GreenWallet.Controllers.Conversion
import GreenWallet.Controllers.Submarine
import GreenWallet.Controllers.Validation
import GreenWallet.Controllers.CreateTransaction
import GreenWallet.Controllers.Draft
import GreenWallet.Controllers.Swaps
import GreenWallet.Library.Crash
import GreenWallet.Wallets.Transactions
import GreenWallet.Wallets.SwapLinks
import GreenWallet.Wallets.Sessions
import GreenWallet.Wallets.Record
import GreenWallet.Wallets.Store
import GreenWallet.Wallets.Recovery
import GreenWallet.Accounts.Context
import GreenWallet.Accounts.Outputs
import GreenWallet.Accounts.Expiry
import GreenWallet.Accounts.Records
import GreenWallet.Accounts.Fetching
import GreenWallet.Accounts.Spending
import GreenWallet.Accounts.Payments
import GreenWallet.Ledger.Framing
import GreenWallet.Ledger.Reassembly
import GreenWallet.Ledger.Queue
import GreenWallet.Ledger.WriteFailures
import GreenWallet.Ledger.Batch
import GreenWallet.Ledger.Traversal
import GreenWallet.Ledger.DataStream
import GreenWallet.Ledger.Apdu
import GreenWallet.Ledger.SignTransaction
import GreenWallet.Ledger.SignLiquid
import GreenWallet.Ledger.Counts
import GreenWallet.Ledger.Outputs
import GreenWallet.Ledger.Fits
import GreenWallet.Ledger.FitsLiquid
import GreenWallet.Ledger.Commitments
import GreenWallet.Ledger.SignMessage
import GreenWallet.Ledger.Signing
import GreenWallet.Ledger.Finishing
import GreenWallet.Ledger.SigningRun
import GreenWallet.Ledger.Signatures
import GreenWallet.Ledger.Rounds
import GreenWallet.Ledger.InputSignatures
import GreenWallet.Devices.BlindingFactors
import GreenWallet.Devices.LedgerBlinding
import GreenWallet.Devices.Resolvers
import GreenWallet.Devices.PublicKeys
import GreenWallet.Http.HttpManager
import GreenWallet.Http.ConnectFailure
import GreenWallet.Tasks.Failing
import GreenWallet.Wallets.Naming
import GreenWallet.Controllers.Mnemonic
import GreenWallet.Controllers.MnemonicState
import GreenWallet.Tasks.Paging
import GreenWallet.Tasks.Monitor
import GreenWallet.Controllers.ChainSwaps
import GreenWallet.Controllers.BCUR
import GreenWallet.Controllers.BCURSubmission
import GreenWallet.Controllers.BCURRestart
import GreenWallet.Library.Fresh
import GreenWallet.Accounts.Creation
import GreenWallet.Accounts.CreationNames
import GreenWallet.Library.Csv
import GreenWallet.Accounts.Export
import GreenWallet.Library.WeakOrder
import GreenWallet.Accounts.OutputOrder
import GreenWallet.Dlc.Decoding
import GreenWallet.Controllers.SwapQuotes
import GreenWallet.Library.Members
import GreenWallet.Wallets.Objects
import GreenWallet.Wallets.Settings
import GreenWallet.Library.Clock
import GreenWallet.Sessions.Session
import GreenWallet.Sessions.AutoLogout
import GreenWallet.Library.Leases
import GreenWallet.Sessions.Registry
import GreenWallet.Sessions.Delivery
import GreenWallet.Jade.Discovery
import GreenWallet.Jade.Identity
import GreenWallet.Jade.Ports
import GreenWallet.Jade.Plugged
import GreenWallet.Http.Attention
import GreenWallet.Http.Online
import GreenWallet.Tasks.Deadlock
import GreenWallet.Notifications.Context
import GreenWallet.Notifications.Raised
import GreenWallet.Notifications.Resets
import GreenWallet.Notifications.Changes
import GreenWallet.Notifications.View
import GreenWallet.Notifications.Mirror
import GreenWallet.Wallets.PinAttempts
import GreenWallet.Controllers.Receive
import GreenWallet.Sending.Sent
import GreenWallet.Buying.Entries
import GreenWallet.Restoring.Restore
import GreenWallet.Restoring.WatchOnly

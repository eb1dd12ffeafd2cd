import CivicConnect.Abi.CLayout
import CivicConnect.AdaCore.AccountChecks
import CivicConnect.AdaCore.Leveling
import CivicConnect.ConsentApi.ContentHash
import CivicConnect.ConsentApi.OptOut
import CivicConnect.ConsentApi.SerialStores
import CivicConnect.Contracts.Allowances
import CivicConnect.Contracts.Registry
import CivicConnect.Contracts.TransferLog
import CivicConnect.GraphqlDns.AddressRecords
import CivicConnect.GraphqlDns.AnchoredColumn
import CivicConnect.GraphqlDns.ApprovalOrder
import CivicConnect.GraphqlDns.Atomicity
import CivicConnect.GraphqlDns.Progress
import CivicConnect.GraphqlDns.Blockchain
import CivicConnect.GraphqlDns.ClosedRecords
import CivicConnect.GraphqlDns.ConsentProtocol
import CivicConnect.GraphqlDns.Guards
import CivicConnect.GraphqlDns.JsonScalar
import CivicConnect.GraphqlDns.Outsiders
import CivicConnect.GraphqlDns.Pages
import CivicConnect.GraphqlDns.ProvenanceRuns
import CivicConnect.GraphqlDns.ReverseLookups
import CivicConnect.GraphqlDns.Statistics
import CivicConnect.GraphqlDns.StatusAgreement
import CivicConnect.GraphqlDns.ZoneKeys
import CivicConnect.GraphqlDns.ZoneRuns
import CivicConnect.Icp.ConsentCanister
import CivicConnect.Odns.Durations
import CivicConnect.Odns.Provisioning
import CivicConnect.Odns.Sessions
import CivicConnect.Odns.Signatures
import CivicConnect.Triage.LabelRuns
import CivicConnect.Webmention.Amplification
import CivicConnect.Webmention.Bookkeeping
import CivicConnect.Webmention.Budget
import CivicConnect.Webmention.Bursts
import CivicConnect.Webmention.Contention
import CivicConnect.Webmention.Domains
import CivicConnect.Webmention.Interleaving
import CivicConnect.Webmention.Isolation
import CivicConnect.Webmention.Locks
import CivicConnect.Webmention.Panics
import CivicConnect.Webmention.Proxying
import CivicConnect.Webmention.Refusals
import CivicConnect.Webmention.SelfPings
import CivicConnect.Webmention.Windows
import CivicConnect.WordPress.Agreement

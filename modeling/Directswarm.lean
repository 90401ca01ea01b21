import Directswarm.Runs
import Directswarm.Words
import Directswarm.Interleaving
import Directswarm.Notes
import Directswarm.Text
import Directswarm.Files
import Directswarm.Maps
import Directswarm.Cheques
import Directswarm.SpendGuard
import Directswarm.ChequeOrder
import Directswarm.Issuance
import Directswarm.LedgerText
import Directswarm.FastLedger
import Directswarm.Durability
import Directswarm.Resume
import Directswarm.Fetch
import Directswarm.Pacing
import Directswarm.WorkPool
import Directswarm.Connection
import Directswarm.Moves
import Directswarm.Accounts
import Directswarm.Exposure
import Directswarm.Parking
import Directswarm.Settlement
import Directswarm.PeerTable
import Directswarm.PeerRecords
import Directswarm.Store
import Directswarm.StoreReads
import Directswarm.StoreReopen
import Directswarm.SinkFailure
import Directswarm.Proximity
import Directswarm.Routing
import Directswarm.Dispatching
import Directswarm.Errands
import Directswarm.Scheduler
import Directswarm.Pulls
import Directswarm.Tokens
import Directswarm.Ownership
import Directswarm.Fates
import Directswarm.Counts
import Directswarm.SpendRoom
import Directswarm.Neighborhoods
import Directswarm.Restarts
import Directswarm.Replanning
import Directswarm.Crew
import Directswarm.Progress
import Directswarm.Figures
import Directswarm.Payments
import Directswarm.Liability
import Directswarm.Landing
import Directswarm.Wire
import Directswarm.Headers
import Directswarm.CacheFile
import Directswarm.Joins
import Directswarm.Merging
import Directswarm.Standstill
import Directswarm.Convergence
import Directswarm.Growth
import Directswarm.SweepRoom
import Directswarm.LedgerObjects
import Directswarm.PeerHistory
import Directswarm.Messages
import Directswarm.Framing
import Directswarm.Amounts
import Directswarm.Hive
import Directswarm.Etiquette
import Directswarm.Survey
import Directswarm.IndexLoading
import Directswarm.ServiceRate
import Directswarm.GrowthOverflow
import Directswarm.GrowthView
import Directswarm.Probing
import Directswarm.ProbeBooks
import Directswarm.ProbeReports

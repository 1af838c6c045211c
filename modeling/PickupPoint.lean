import PickupPoint.Config
import PickupPoint.Cache.Address
import PickupPoint.Cache.Timed
import PickupPoint.Cache.KeyValue
import PickupPoint.Store.ClientFault
import PickupPoint.Store.Memory
import PickupPoint.Store.Tables
import PickupPoint.Store.Unreachable
import PickupPoint.Service.Script
import PickupPoint.Http.OpenApi
import PickupPoint.Http.Route
import PickupPoint.Proofs.Faults
import PickupPoint.Proofs.Changes
import PickupPoint.Proofs.Laws
import PickupPoint.Proofs.Transactions
import PickupPoint.Proofs.Tally
import PickupPoint.Proofs.Atomicity
import PickupPoint.Proofs.Faultless
import PickupPoint.Proofs.Batch
import PickupPoint.Proofs.Interleaving
import PickupPoint.Proofs.Runs
import PickupPoint.Proofs.Lifecycle
import PickupPoint.Proofs.Outbox
import PickupPoint.Proofs.Digits
import PickupPoint.Proofs.Nesting
import PickupPoint.Proofs.Calendar
import PickupPoint.Proofs.JsonText
import PickupPoint.Proofs.TimeText
import PickupPoint.Proofs.HistoryText
import PickupPoint.Proofs.EventText
import PickupPoint.Proofs.Caches
import PickupPoint.Proofs.Dates
import PickupPoint.Proofs.Steps
import PickupPoint.Proofs.Calls
import PickupPoint.Proofs.Staleness
import PickupPoint.Proofs.Coherence
import PickupPoint.Proofs.Races
import PickupPoint.Proofs.SideBySide
import PickupPoint.Proofs.Simulation
import PickupPoint.Proofs.Accord
import PickupPoint.Proofs.Tandem
import PickupPoint.Proofs.Statements
import PickupPoint.Proofs.IdBlind
import PickupPoint.Proofs.Indifference
import PickupPoint.Proofs.Columns
import PickupPoint.Proofs.Rows
import PickupPoint.Proofs.Mirror
import PickupPoint.Proofs.Abreast
import PickupPoint.Proofs.Refinement
import PickupPoint.Proofs.Listing
import PickupPoint.Proofs.Walks
import PickupPoint.Proofs.Cursors
import PickupPoint.Proofs.Pages
import PickupPoint.Proofs.Verdicts
import PickupPoint.Proofs.Tenants
import PickupPoint.Proofs.Prospects
import PickupPoint.Proofs.Contest
import PickupPoint.Proofs.Finality
import PickupPoint.Proofs.Deeds
import PickupPoint.Proofs.Counters
import PickupPoint.Proofs.Deadlines
import PickupPoint.Proofs.Refusals
import PickupPoint.Proofs.Amounts
import PickupPoint.Proofs.Settlement
import PickupPoint.Proofs.Admission
import PickupPoint.Proofs.Imports
import PickupPoint.Proofs.PriceText
import PickupPoint.Proofs.Receipts
import PickupPoint.Proofs.Interface
import PickupPoint.Proofs.RoundTrip
import PickupPoint.Proofs.Rejections
import PickupPoint.Proofs.Expiry
import PickupPoint.Proofs.Utf8
import PickupPoint.Proofs.ColdReads
import PickupPoint.Proofs.Spelling
import PickupPoint.Proofs.Settings
import PickupPoint.Proofs.Secrecy
import PickupPoint.Proofs.Enclosure
import PickupPoint.Proofs.Records
import PickupPoint.Proofs.Intake

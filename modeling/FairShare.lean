import FairShare.Config.Json
import FairShare.Config.WeightList
import FairShare.Lock.Call
import FairShare.Lock.NamedForm
import FairShare.Rota.Basic
import FairShare.Script.Exchange
import FairShare.Script.Lock.Step
import FairShare.Script.Rota
import FairShare.Script.WakeEvent
import FairShare.Proofs.Effect
import FairShare.Proofs.Views
import FairShare.Proofs.Slots
import FairShare.Proofs.Channels
import FairShare.Proofs.Clones
import FairShare.Proofs.Turns
import FairShare.Proofs.Conservation
import FairShare.Proofs.Sequence
import FairShare.Proofs.Demand
import FairShare.Proofs.Owners
import FairShare.Proofs.Fates
import FairShare.Proofs.Verdicts
import FairShare.Proofs.Rounds
import FairShare.Proofs.Polls
import FairShare.Proofs.Wakeups
import FairShare.Proofs.Closings
import FairShare.Proofs.Passes
import FairShare.Proofs.Kills
import FairShare.Proofs.Queues
import FairShare.Proofs.Reuse
import FairShare.Proofs.Order
import FairShare.Proofs.Starvation
import FairShare.Proofs.Admissions
import FairShare.Proofs.Registrations
import FairShare.Proofs.Halts
import FairShare.Proofs.Answers
import FairShare.Proofs.Lifetime
import FairShare.Proofs.Shares
import FairShare.Proofs.Limits
import FairShare.Proofs.Rotation
import FairShare.Proofs.Servings
import FairShare.Proofs.Callbacks
import FairShare.Proofs.Termination
import FairShare.Proofs.FastPath
import FairShare.Proofs.Departures
import FairShare.Proofs.Retreats
import FairShare.Proofs.Withdrawals
import FairShare.Proofs.Batches
import FairShare.Proofs.Notifications
import FairShare.Proofs.Receivers
import FairShare.Proofs.Scans
import FairShare.Proofs.Stops
import FairShare.Proofs.Apportionment
import FairShare.Proofs.Displays
import FairShare.Proofs.WeightTexts

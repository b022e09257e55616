import ZoneBus.Main
import ZoneBus.Link.Settle
import ZoneBus.Session.Simulation
import ZoneBus.Proofs.Session.Change
import ZoneBus.Proofs.Directory.Keys
import ZoneBus.Proofs.Session.Inversion
import ZoneBus.Proofs.Request.Settling
import ZoneBus.Proofs.Session.Ledger
import ZoneBus.Proofs.Session.Lifecycle
import ZoneBus.Proofs.Session.Overlap
import ZoneBus.Proofs.Session.Outcomes
import ZoneBus.Proofs.Request.Expiry
import ZoneBus.Proofs.Request.Lines
import ZoneBus.Proofs.SendQueue.Items
import ZoneBus.Proofs.Session.TableOperations
import ZoneBus.Proofs.Session.Frames
import ZoneBus.Proofs.Session.Answers
import ZoneBus.Proofs.Session.Copies
import ZoneBus.Proofs.Frame.Scanning
import ZoneBus.Proofs.Message.Bodies
import ZoneBus.Proofs.Reassembly.Sequence
import ZoneBus.Proofs.Transfer.Delivery
import ZoneBus.Proofs.Reassembly.Windows
import ZoneBus.Proofs.Frame.Results
import ZoneBus.Proofs.Frame.Streams
import ZoneBus.Proofs.Message.Envelopes
import ZoneBus.Proofs.Frame.Damage
import ZoneBus.Proofs.Directory.Values
import ZoneBus.Proofs.Session.FramesInFlight
import ZoneBus.Proofs.Session.RequestEvents
import ZoneBus.Proofs.Session.Retries
import ZoneBus.Proofs.Runs
import ZoneBus.Proofs.SendQueue.Arrivals
import ZoneBus.Proofs.Request.Register
import ZoneBus.Proofs.Request.Withdrawal
import ZoneBus.Proofs.Session.ReplySources
import ZoneBus.Proofs.Session.Inbound
import ZoneBus.Proofs.Session.Correlation
import ZoneBus.Proofs.Link.CallMoves
import ZoneBus.Proofs.Link.Locks
import ZoneBus.Proofs.Link.Closing
import ZoneBus.Proofs.Link.Halves
import ZoneBus.Proofs.Link.Refusals
import ZoneBus.Proofs.Link.Writing
import ZoneBus.Proofs.Link.Blocks
import ZoneBus.Proofs.Session.Order
import ZoneBus.Proofs.Session.Isolation
import ZoneBus.Proofs.Link.Progress
import ZoneBus.Proofs.Link.Stopping
import ZoneBus.Proofs.Session.CallOwnership
import ZoneBus.Proofs.Session.WriterOutput
import ZoneBus.Proofs.Session.CallerEffects
import ZoneBus.Proofs.Session.Origins
import ZoneBus.Proofs.Session.FarEnd
import ZoneBus.Proofs.Session.TaskMoves
import ZoneBus.Proofs.Session.Transfers
import ZoneBus.Proofs.Reassembly.Calls
import ZoneBus.Proofs.Reassembly.Fields
import ZoneBus.Proofs.Reassembly.Places
import ZoneBus.Proofs.Reassembly.Views
import ZoneBus.Proofs.Session.Callbacks
import ZoneBus.Proofs.Session.Subscribers
import ZoneBus.Proofs.Session.Ignored
import ZoneBus.Proofs.Message.Limits
import ZoneBus.Proofs.Transfer.Drivers
import ZoneBus.Proofs.Request.Overdue
import ZoneBus.Proofs.Request.Attempts
import ZoneBus.Proofs.Frame.Altered
import ZoneBus.Proofs.Message.Cuts
import ZoneBus.Proofs.Bounds
import ZoneBus.Proofs.Message.Places
import ZoneBus.Proofs.Frame.Fields
import ZoneBus.Proofs.Transfer.Splitting
import ZoneBus.Proofs.Frame.Escaping
import ZoneBus.Proofs.SendQueue.Waking
import ZoneBus.Proofs.Session.QueueOrder
import ZoneBus.Proofs.Session.SingleRun
import ZoneBus.Proofs.Session.Acknowledging
import ZoneBus.Proofs.Session.Acknowledgements
import ZoneBus.Proofs.Subscription.Roll
import ZoneBus.Proofs.Subscription.Rounds
import ZoneBus.Proofs.Path.Texts

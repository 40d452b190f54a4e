import MessageBus.Connection
import MessageBus.Connection.Settings
import MessageBus.Data.Realize
import MessageBus.Main
import MessageBus.Proofs.Wire.RoundTrip
import MessageBus.Proofs.Message.Fields
import MessageBus.Proofs.Message.RoundTrip
import MessageBus.Proofs.FrameBuffer.Frames
import MessageBus.Proofs.Message.FixedPoint
import MessageBus.Proofs.Connection.Calls
import MessageBus.Proofs.Connection.Outgoing
import MessageBus.Proofs.Connection.Closing
import MessageBus.Proofs.Wire.Placement
import MessageBus.Proofs.Wire.Refusals
import MessageBus.Proofs.Message.Writing
import MessageBus.Proofs.Connection.Answers
import MessageBus.Proofs.Wire.Limits
import MessageBus.Proofs.Data.Mapping
import MessageBus.Proofs.Connection.Late
import MessageBus.Proofs.Capture
import MessageBus.Proofs.Wire.Truncation
import MessageBus.Proofs.Data.Arguments
import MessageBus.Proofs.Wire.Progress
import MessageBus.Proofs.Wire.DictForms
import MessageBus.Proofs.Message.Body
import MessageBus.Proofs.Wire.Offsets
import MessageBus.Proofs.Message.Sorting
import MessageBus.Proofs.Message.Orders
import MessageBus.Proofs.Wire.Extent
import MessageBus.Proofs.Wire.Depth
import MessageBus.Proofs.Connection.Refused
import MessageBus.Proofs.Connection.Registry
import MessageBus.Proofs.FrameBuffer.Storage
import MessageBus.Proofs.Connection.Signals
import MessageBus.Proofs.Connection.Handlers
import MessageBus.Proofs.Data.Coercion
import MessageBus.Proofs.Data.Policies
import MessageBus.Proofs.Data.Boxes
import MessageBus.Proofs.Data.Target
import MessageBus.Proofs.Name.Grammar
import MessageBus.Proofs.Ty.Counters
import MessageBus.Proofs.Value.Inference
import MessageBus.Proofs.Wire.Backfill

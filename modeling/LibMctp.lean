import LibMctp.Lib.Batches
import LibMctp.Lib.Drain
import LibMctp.Lib.Fragment
import LibMctp.Lib.Reassembly
import LibMctp.Lib.Lease
import LibMctp.Lib.Ledger
import LibMctp.Lib.Loss
import LibMctp.Lib.Parts
import LibMctp.Lib.Recognize
import LibMctp.Lib.Records
import LibMctp.Lib.Ring
import LibMctp.Lib.Run
import LibMctp.Lib.Shortage
import LibMctp.Lib.Table
import LibMctp.Lib.Exchange
import LibMctp.Model.Packet
import LibMctp.Model.State
import LibMctp.Model.Transmit
import LibMctp.Model.Tags
import LibMctp.Model.Control
import LibMctp.Model.Receive
import LibMctp.Model.Instance
import LibMctp.Model.Driver
import LibMctp.Model.Mmbi
import LibMctp.Model.Context
import LibMctp.Proof.Base.Acts
import LibMctp.Proof.Base.Frame
import LibMctp.Proof.Base.Packets
import LibMctp.Proof.Base.Pktbuf
import LibMctp.Proof.Transmit.Loop
import LibMctp.Proof.Transmit.Calls
import LibMctp.Proof.Transmit.Queue
import LibMctp.Proof.Transmit.Replay
import LibMctp.Proof.Transmit.Errors
import LibMctp.Proof.Tags.Alloc
import LibMctp.Proof.Tags.Unique
import LibMctp.Proof.Tags.Release
import LibMctp.Proof.Receive.Contexts
import LibMctp.Proof.Receive.Spec
import LibMctp.Proof.Receive.Outcome
import LibMctp.Proof.Receive.Endpoint
import LibMctp.Proof.Receive.Replies
import LibMctp.Proof.Receive.Isolation
import LibMctp.Proof.Receive.Runs
import LibMctp.Proof.Receive.Adds
import LibMctp.Proof.Instance.Linkage
import LibMctp.Proof.Instance.Start
import LibMctp.Proof.Tags.Atomic
import LibMctp.Proof.Tags.Rate
import LibMctp.Proof.Receive.SetEid
import LibMctp.Proof.Instance.Buffers
import LibMctp.Proof.Instance.Types
import LibMctp.Proof.Instance.Reached
import LibMctp.Proof.Instance.Asserts
import LibMctp.Proof.Receive.Bounds
import LibMctp.Proof.Receive.Effects
import LibMctp.Proof.Receive.Dispatch
import LibMctp.Proof.Driver.Rings
import LibMctp.Proof.Driver.Framing
import LibMctp.Proof.Driver.Contention
import LibMctp.Proof.Driver.Region
import LibMctp.Proof.Driver.Memory
import LibMctp.Proof.Driver.Release
import LibMctp.Proof.Receive.TagOwner
import LibMctp.Proof.Link.Wire
import LibMctp.Proof.Link.Loss
import LibMctp.Proof.Link.Duplex
import LibMctp.Proof.Link.Bridge
import LibMctp.Proof.Link.Capacity
import LibMctp.Proof.Link.Between
import LibMctp.Proof.Link.Limit
import LibMctp.Proof.Link.Quiesce
import LibMctp.Proof.Link.Chain
import LibMctp.Proof.Link.Settle
import LibMctp.Proof.Link.Requests
import LibMctp.Proof.Link.Throttle
import LibMctp.Proof.Receive.Anon
import LibMctp.Proof.Receive.Filter
import LibMctp.Proof.Receive.Silent
import LibMctp.Proof.Receive.Serve
import LibMctp.Proof.Receive.Shortage
import LibMctp.Proof.Context.Setup
import LibMctp.Proof.Context.Pipe
import LibMctp.Proof.Context.Deliver
import LibMctp.Proof.Context.Merge

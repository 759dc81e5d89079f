import AppCore.Types
import AppCore.Lib.Machine
import AppCore.Lib.Ring
import AppCore.Lib.Family
import AppCore.Lib.Holding
import AppCore.Lib.Custody
import AppCore.Lib.Counter
import AppCore.Lib.Fifo
import AppCore.Lib.Condition
import AppCore.Lib.Program
import AppCore.Lib.Reentry
import AppCore.Lib.Dict
import AppCore.Lib.Digraph
import AppCore.Lib.CmakeList
import AppCore.Lib.Checks
import AppCore.Lib.ArrayList
import AppCore.Lib.Blocks
import AppCore.Component.Model
import AppCore.Component.Program
import AppCore.Component.Graph
import AppCore.Component.Coherence
import AppCore.Component.CoherentSteps
import AppCore.Component.Status
import AppCore.Component.InitOrder
import AppCore.Component.InitPass
import AppCore.Component.Rounds
import AppCore.Component.StartPass
import AppCore.Component.Balance
import AppCore.Component.Outcome
import AppCore.Component.ReleaseOrder
import AppCore.Component.SlowPass
import AppCore.Component.Confluence
import AppCore.Component.Cycles
import AppCore.Component.Divergence
import AppCore.Component.LinkOrder
import AppCore.Component.Bounds
import AppCore.Service.Model
import AppCore.Service.References
import AppCore.Service.Ownership
import AppCore.Service.Sections
import AppCore.Channel.Buffer
import AppCore.Channel.Layout
import AppCore.Channel.Model
import AppCore.Channel.Fifo
import AppCore.Channel.System
import AppCore.Channel.Steps
import AppCore.Channel.Delivery
import AppCore.Channel.Ownership
import AppCore.Channel.RefCount
import AppCore.Channel.Sections
import AppCore.Channel.Wakeup
import AppCore.Channel.Statistics
import AppCore.Channel.CallSteps
import AppCore.Channel.FailedSend
import AppCore.Channel.Timeout
import AppCore.Event.Model
import AppCore.Event.System
import AppCore.Event.Steps
import AppCore.Event.References
import AppCore.Event.Lifetime
import AppCore.Event.Accepting
import AppCore.Event.Delivery
import AppCore.Event.Threads
import AppCore.Event.Table
import AppCore.Event.Ordinary
import AppCore.Event.Sessions
import AppCore.Event.Compact
import AppCore.Event.Statistics
import AppCore.Config.Normalize
import AppCore.Config.Validators
import AppCore.Config.SavedConfig
import AppCore.Config.Build
import AppCore.Core.System
import AppCore.Core.Table
import AppCore.Core.Threads
import AppCore.Core.SelfWait
import AppCore.Core.Handles
import AppCore.Core.Sessions
import AppCore.Core.Lone
import AppCore.Core.Restart
import AppCore.Camera.Rollback
import AppCore.Camera.Shutdown
import AppCore.Camera.FrameSize
import AppCore.Camera.Frames
import AppCore.Camera.Sequence
import AppCore.Camera.Backpressure
import AppCore.Camera.Bystander
import AppCore.Camera.Labels
import AppCore.Zlmedia.Model
import AppCore.Zlmedia.Attachment
import AppCore.Zlmedia.Refinement
import AppCore.Zlmedia.Consumer
import AppCore.Thread.Model
import AppCore.Thread.System
import AppCore.Thread.Ownership
import AppCore.Thread.Accounting
import AppCore.Runtime.Model
import AppCore.Runtime.System
import AppCore.Runtime.Presence
import AppCore.Runtime.Stop
import AppCore.Runtime.Results
import AppCore.Features.Model
import AppCore.Features.System
import AppCore.Features.Calls
import AppCore.Features.Operations
import AppCore.Features.Availability
import AppCore.Lib.Relay
import AppCore.Log.Model
import AppCore.Log.Order
import AppCore.Log.Sinks

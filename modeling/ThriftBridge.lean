import ThriftBridge.Lib.BigEndian
import ThriftBridge.Lib.Cells
import ThriftBridge.Lib.LastWrite
import ThriftBridge.Lib.Machine
import ThriftBridge.Lib.Program
import ThriftBridge.Lib.RefCount
import ThriftBridge.Lib.Wp
import ThriftBridge.Zend.Strings
import ThriftBridge.Zend.World
import ThriftBridge.Core.Factory
import ThriftBridge.Core.Owners
import ThriftBridge.Core.Loader
import ThriftBridge.Core.Scan
import ThriftBridge.Core.Restart
import ThriftBridge.Core.Handles
import ThriftBridge.Core.MemoryBuffer
import ThriftBridge.Core.Generic
import ThriftBridge.Core.Growth
import ThriftBridge.Core.RawBuffer
import ThriftBridge.Core.RawGeneric
import ThriftBridge.Transport.Methods
import ThriftBridge.Transport.Engine
import ThriftBridge.Transport.Ownership
import ThriftBridge.Transport.Spec
import ThriftBridge.Transport.Invariant
import ThriftBridge.Transport.Queues
import ThriftBridge.Transport.Refinement
import ThriftBridge.Transport.Calls
import ThriftBridge.Transport.Responses
import ThriftBridge.Transport.Failures
import ThriftBridge.Transport.Lifetime
import ThriftBridge.Transport.Changes
import ThriftBridge.Transport.Construction
import ThriftBridge.Transport.Buffers
import ThriftBridge.Transport.Cursor
import ThriftBridge.Transport.Exhaustion
import ThriftBridge.Transport.Accounts
import ThriftBridge.Transport.Balance
import ThriftBridge.Transport.Batches
import ThriftBridge.Transport.Trace
import ThriftBridge.Protocol.Code
import ThriftBridge.Protocol.Presented
import ThriftBridge.Protocol.Binary
import ThriftBridge.Protocol.Readers
import ThriftBridge.Protocol.Wire
import ThriftBridge.Protocol.Skip
import ThriftBridge.Protocol.Malformed
import ThriftBridge.Protocol.Writers
import ThriftBridge.Protocol.Values
import ThriftBridge.Protocol.Messages
import ThriftBridge.Protocol.ApplicationException
import ThriftBridge.Protocol.Dispatch
import ThriftBridge.Protocol.Multiplexed
import ThriftBridge.Protocol.Rpc

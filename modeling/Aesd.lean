import Aesd.Library.Runs
import Aesd.Library.MachineInt
import Aesd.Library.Window
import Aesd.Library.Locate
import Aesd.Library.Lines
import Aesd.Library.CString
import Aesd.Library.KernelMemory
import Aesd.Library.OpenFile
import Aesd.Library.Descriptors
import Aesd.Library.Parties
import Aesd.Library.Sections
import Aesd.Library.LinkedList
import Aesd.CircularBuffer.Core
import Aesd.CircularBuffer.Layout
import Aesd.CircularBuffer.History
import Aesd.Driver.Core
import Aesd.Driver.Write
import Aesd.Driver.Ownership
import Aesd.Driver.Leaks
import Aesd.Driver.Contents
import Aesd.Driver.Chunking
import Aesd.Driver.Atomicity
import Aesd.Driver.Reading
import Aesd.Driver.Delivery
import Aesd.Driver.Overflow
import Aesd.Driver.LostBlocks
import Aesd.Driver.Lengths
import Aesd.Driver.Accounting
import Aesd.Driver.Seek
import Aesd.Driver.Positioning
import Aesd.Driver.Files
import Aesd.Driver.Archive
import Aesd.Driver.Refinement
import Aesd.Driver.Linearization
import Aesd.Driver.Concurrency
import Aesd.Driver.Unlocked
import Aesd.Driver.Module
import Aesd.Server.Receive
import Aesd.Server.Pressure
import Aesd.Server.Request
import Aesd.Server.Aliasing
import Aesd.Server.FileLog
import Aesd.Server.FileReplies
import Aesd.Server.Session
import Aesd.Server.Isolation
import Aesd.Server.Succession
import Aesd.Server.Answers
import Aesd.Server.Sending
import Aesd.Server.ThreadList
import Aesd.Server.AcceptLoop
import Aesd.Server.Joining
import Aesd.Server.Shutdown
import Aesd.Server.Daemon
import Aesd.Server.Closing
import Aesd.Server.Attribution
import Aesd.Examples.Threading
import Aesd.Examples.Waiting
import Aesd.Examples.Systemcalls

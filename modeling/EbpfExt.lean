import EbpfExt.Basic
import EbpfExt.ListEntry
import EbpfExt.Memory
import EbpfExt.HookProvider
import EbpfExt.Properties.CheckAttachParameter
import EbpfExt.Properties.Attach
import EbpfExt.Properties.Lifecycle
import EbpfExt.Properties.Sequential
import EbpfExt.Concurrent.System
import EbpfExt.Concurrent.Steps
import EbpfExt.Concurrent.Invariant
import EbpfExt.Concurrent.Preservation
import EbpfExt.Concurrent.Links
import EbpfExt.Concurrent.Safety
import EbpfExt.Concurrent.Iteration
import EbpfExt.Concurrent.Exclusion
import EbpfExt.Concurrent.Progress
import EbpfExt.Concurrent.Order
import EbpfExt.Concurrent.Teardown

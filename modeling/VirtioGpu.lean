import VirtioGpu.Machine.Basic
import VirtioGpu.Machine.Loans
import VirtioGpu.Data.ArrayQueue
import VirtioGpu.Data.Memory
import VirtioGpu.Data.Ranges
import VirtioGpu.Data.Align
import VirtioGpu.Data.Reads
import VirtioGpu.Fence.Engine
import VirtioGpu.Fence.Notify
import VirtioGpu.Fence.Order
import VirtioGpu.Fence.Tracker
import VirtioGpu.Queue.ArraySeg
import VirtioGpu.Queue.Buffer
import VirtioGpu.Queue.BufferBytes
import VirtioGpu.Adapter.InitOption
import VirtioGpu.Wdk.Allocator
import VirtioGpu.Wdk.Heap
import VirtioGpu.Queue.Requests
import VirtioGpu.Queue.Virtq
import VirtioGpu.Queue.Device
import VirtioGpu.Queue.Slots
import VirtioGpu.Queue.Delivery
import VirtioGpu.Queue.Responses
import VirtioGpu.Queue.Handler
import VirtioGpu.Uapi.Command
import VirtioGpu.Uapi.Parse
import VirtioGpu.Device.Command
import VirtioGpu.Device.Render
import VirtioGpu.Device.Context
import VirtioGpu.Queue.Blocking
import VirtioGpu.Queue.Submit
import VirtioGpu.Resource.Ids
import VirtioGpu.Allocation.Attach
import VirtioGpu.Allocation.Release
import VirtioGpu.Blob.Window
import VirtioGpu.Blob.Map
import VirtioGpu.Blob.Race
import VirtioGpu.Adapter.Submit
import VirtioGpu.Adapter.Paging
import VirtioGpu.Data.Places
import VirtioGpu.Fence.Wrap
import VirtioGpu.Fence.Preempt
import VirtioGpu.Fence.Submissions
import VirtioGpu.Fence.Wakeup
import VirtioGpu.Queue.Batch
import VirtioGpu.Device.Stream
import VirtioGpu.Device.RenderPanics
import VirtioGpu.Device.Parsers
import VirtioGpu.Data.Holdings
import VirtioGpu.Allocation.InFlight
import VirtioGpu.Allocation.Accounts
import VirtioGpu.Allocation.Busy
import VirtioGpu.Allocation.HandlerDrop
import VirtioGpu.Data.Coalesce
import VirtioGpu.Data.Arrange
import VirtioGpu.Allocation.Pages
import VirtioGpu.Allocation.PageOrder
import VirtioGpu.Adapter.PageTable
import VirtioGpu.Device.Present
import VirtioGpu.Adapter.Room
import VirtioGpu.Allocation.RenderBusy
import VirtioGpu.Queue.Operations
import VirtioGpu.Fence.Leaks
import VirtioGpu.Resource.Allocator
import VirtioGpu.Resource.Creation
import VirtioGpu.Device.Layout
import VirtioGpu.Allocation.Rollback
import VirtioGpu.Data.Fields
import VirtioGpu.Adapter.Aperture
import VirtioGpu.Device.Blit
import VirtioGpu.Allocation.BusyEvents
import VirtioGpu.Allocation.SyncFiles
import VirtioGpu.Allocation.Close
import VirtioGpu.Adapter.Placement
import VirtioGpu.Adapter.Contiguous
import VirtioGpu.Data.Until
import VirtioGpu.Data.Utf8
import VirtioGpu.Device.DebugName
import VirtioGpu.Device.ResourceInfo
import VirtioGpu.Data.Raster
import VirtioGpu.Display.Framebuffer
import VirtioGpu.Display.Commit
import VirtioGpu.Display.CursorPasses
import VirtioGpu.Display.CursorImage
import VirtioGpu.Display.PointerShape
import VirtioGpu.Display.Pointer
import VirtioGpu.Display.PointerRuns
import VirtioGpu.Display.Sources
import VirtioGpu.Display.Flip
import VirtioGpu.Display.Modality
import VirtioGpu.Display.Guards
import VirtioGpu.Display.Vidpn
import VirtioGpu.Data.SmallFloat
import VirtioGpu.Offset.SmallFloat
import VirtioGpu.Data.Except
import VirtioGpu.Display.Edid

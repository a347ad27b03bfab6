import RoDos.Heap.Statistics
import RoDos.Heap.Reclaim
import RoDos.Heap.Served
import RoDos.Heap.Refusals
import RoDos.Heap.Validate
import RoDos.Shell.Accounts
import RoDos.Shell.Arguments
import RoDos.Shell.Display
import RoDos.Fs.Names
import RoDos.Fs.Tree
import RoDos.Fs.Layout
import RoDos.Fs.Sizes
import RoDos.Fs.PathBuffers
import RoDos.Fs.Editing
import RoDos.Fs.TableBounds
import RoDos.Dns.Resolve
import RoDos.Dns.Query
import RoDos.Tcp.Receive
import RoDos.Tcp.Foreign
import RoDos.Tcp.Bounds
import RoDos.Tcp.Reader
import RoDos.Virtio.Served
import RoDos.Virtio.Transmit
import RoDos.Virtio.Layout
import RoDos.Interrupt.Layout
import RoDos.Mouse.Packets
import RoDos.Clock.Rtc
import RoDos.Screen.Paging
import RoDos.Video.Vga
import RoDos.Syscall.Stub
import RoDos.Arp.Exchange
import RoDos.Dhcp.Routing
import RoDos.Net.Delivery
import RoDos.Wget.Fetch
import RoDos.Fat.Handles
import RoDos.Fat.Init
import RoDos.Fat.Disk
import RoDos.Utils.Concat
import RoDos.Utils.Strtok
import RoDos.Gui.Notepad
import RoDos.Gui.FileBrowser
import RoDos.Gui.Chains
import RoDos.Pci.Enumerate
import RoDos.Boot.Loader
import RoDos.Ne2000.Receive
import RoDos.Utils.Arithmetic
import RoDos.Utils.Copy
import RoDos.Utils.ReadBack
import RoDos.Python.Programs
import RoDos.Ata.Calls
import RoDos.Ata.Detect
import RoDos.Ata.Session
import RoDos.Base.Substrings
import RoDos.Fs.Listing
import RoDos.Ne2000.Transmit
import RoDos.Net.Lease
import RoDos.Shell.Processes
import RoDos.Utils.Bits
import RoDos.Utils.Searching
import RoDos.Wget.Download
import RoDos.Wget.Frames

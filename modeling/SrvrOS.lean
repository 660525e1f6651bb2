import SrvrOS.Files.Descriptors
import SrvrOS.Scheduler.Ordinary
import SrvrOS.Process.ScopeRun
import SrvrOS.Process.Mmap
import SrvrOS.Net.Arrival
import SrvrOS.Accept
import SrvrOS.Memory.HeapSpec
import SrvrOS.Memory.FirstFit
import SrvrOS.Vfs.NamespaceView
import SrvrOS.Pty.Refinement
import SrvrOS.Pty.Poll
import SrvrOS.Exfat.Reach
import SrvrOS.Exfat.Upcase
import SrvrOS.Exfat.Import
import SrvrOS.Block.Claim
import SrvrOS.Block.Transparency
import SrvrOS.Output
import SrvrOS.Tar
import SrvrOS.Codec
import SrvrOS.Convert
import SrvrOS.Numbers
import SrvrOS.Scene
import SrvrOS.Sha256
import SrvrOS.Trackpad

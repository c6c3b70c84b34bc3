import ViOS.Task.List
import ViOS.Task.ProcessLoad
import ViOS.Task.ReallocUnknown
import ViOS.Task.FileBuffers
import ViOS.Task.LocalBuffers
import ViOS.Task.Registers
import ViOS.Loader.ElfBounds
import ViOS.Fs.Descriptors
import ViOS.Fs.OpenFailure
import ViOS.Fs.ChainRead
import ViOS.Fs.ClusterSearch
import ViOS.Fs.ShortNames
import ViOS.Fs.Positions
import ViOS.Fs.DirectoryPaths
import ViOS.Fs.WriteFailure
import ViOS.Fs.ErrorPointers
import ViOS.Fs.Fat16Chains
import ViOS.Fs.FatTable
import ViOS.Fs.FreeChain
import ViOS.Fs.PathParserLaws
import ViOS.Fs.RoundTrip
import ViOS.Fs.FileStore
import ViOS.Task.LibraryFiles
import ViOS.Task.Lifecycle
import ViOS.Task.AddressSpace
import ViOS.Disk.Gpt
import ViOS.Keyboard.Ps2Keyboard
import ViOS.Graphics.WindowHit
import ViOS.Graphics.ChildOrder
import ViOS.Graphics.Focus
import ViOS.Graphics.MoveBounds
import ViOS.Graphics.Containment
import ViOS.Memory.HeapRuns
import ViOS.Memory.SecondPass
import ViOS.Memory.KheapInit
import ViOS.Memory.PagingGet
import ViOS.Memory.VectorRefinement
import ViOS.Memory.PushFailure
import ViOS.Graphics.PixelCopy
import ViOS.Graphics.RedrawBounds
import ViOS.Graphics.MouseHandlers
import ViOS.Graphics.FreeSubtree
import ViOS.Graphics.Bmp
import ViOS.Graphics.Font
import ViOS.Graphics.TerminalBackspace
import ViOS.Graphics.TerminalBackground
import ViOS.User.Printf
import ViOS.User.Readline
import ViOS.User.Strtok
import ViOS.User.ParseRuns
import ViOS.Mouse.Ps2Mouse

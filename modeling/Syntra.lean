import Syntra.Manual.Guarantees
import Syntra.Clipboard.FinalRange
import Syntra.Store.Tombstones
import Syntra.History.Pages
import Syntra.ClipboardStream.Delivery
import Syntra.Emulation.Consumption
import Syntra.History.Transport
import Syntra.Emulation.Replay
import Syntra.ClipboardMonitor.Echo
import Syntra.Capture.Handback
import Syntra.Entry.Agreement
import Syntra.Plugins.Digest
import Syntra.Plugins.Authority
import Syntra.Plugins.Revocation
import Syntra.Service.Endings
import Syntra.Files.WithinManifest
import Syntra.Plugins.Running
import Syntra.Plugins.Restart
import Syntra.Clients.Survival
import Syntra.Clients.Admission
import Syntra.ClipboardSync.Exactness
import Syntra.Service.FileReads
import Syntra.Clipboard.ChunkAdmission
import Syntra.Clipboard.Progress
import Syntra.Store.Transaction
import Syntra.Manual.Separation
import Syntra.Plugins.Diagnostics
import Syntra.History.Snapshot
import Syntra.Layout.Placement
import Syntra.Plugins.Lines
import Syntra.Store.Like
import Syntra.EdgeGlow.State
import Syntra.Emulation.Scroll
import Syntra.Log.Spec
import Syntra.ClipboardSync.OwnMount
import Syntra.Layout.Crossings
import Syntra.Fuse.Mount
import Syntra.Capture.Multiplexing
import Syntra.Clients.WriteBack
import Syntra.Emulation.Connections
import Syntra.Plugins.Repetition
import Syntra.Clients.Resolver
import Syntra.Emulation.Balance
import Syntra.ClipboardMonitor.LastWrite
import Syntra.Store.Latest
import Syntra.History.Limits
import Syntra.History.Acknowledged
import Syntra.Manual.Serving
import Syntra.Capture.Replay
import Syntra.Profiles.Transport
import Syntra.Files.Uri
import Syntra.Service.Answers

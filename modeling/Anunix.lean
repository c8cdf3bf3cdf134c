import Anunix.Capability.Authority
import Anunix.Cell.Dependencies
import Anunix.Context.Provenance
import Anunix.Credential.Persistent
import Anunix.Disk.Failed
import Anunix.Disk.Index
import Anunix.Disk.Partitions
import Anunix.Disk.Probe
import Anunix.Disk.RingApart
import Anunix.Effect.Soundness
import Anunix.Exposure.Soundness
import Anunix.Md.Confined
import Anunix.Md.Erase
import Anunix.Md.Order
import Anunix.Md.Rebuild
import Anunix.Memory.Eviction
import Anunix.Memory.Protection
import Anunix.Net.Ingress
import Anunix.Object.Coherent
import Anunix.Object.Meta
import Anunix.Object.Sealed
import Anunix.Page.Alloc
import Anunix.Route.Conservation
import Anunix.Sched.Queue
import Anunix.Speculation.Once
import Anunix.Sshd.HostKey
import Anunix.Sshd.Window
import Anunix.Tcp.Stream
import Anunix.Utf8
import Anunix.View.Runs
import Anunix.Wifi.Station
import Anunix.Wifi.Undisturbed
import Anunix.Workflow.Template

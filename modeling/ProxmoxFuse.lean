import ProxmoxFuse.Codec
import ProxmoxFuse.FlagWords
import ProxmoxFuse.SignedWords
import ProxmoxFuse.Terminated
import ProxmoxFuse.Records
import ProxmoxFuse.Ledger
import ProxmoxFuse.Returns
import ProxmoxFuse.ArcHeap
import ProxmoxFuse.Overlay
import ProxmoxFuse.Slots
import ProxmoxFuse.LinkTree
import ProxmoxFuse.Protocol
import ProxmoxFuse.Bodies
import ProxmoxFuse.Sys
import ProxmoxFuse.Reply
import ProxmoxFuse.Requests
import ProxmoxFuse.Session
import ProxmoxFuse.Stream
import ProxmoxFuse.BlockFile
import ProxmoxFuse.Tmpfs
import ProxmoxFuse.TmpfsServer
import ProxmoxFuse.ReplyPlan
import ProxmoxFuse.Framing
import ProxmoxFuse.Listing
import ProxmoxFuse.XattrNames
import ProxmoxFuse.Dispatch
import ProxmoxFuse.Process
import ProxmoxFuse.Grammar
import ProxmoxFuse.Handshake
import ProxmoxFuse.Turns
import ProxmoxFuse.Obligations
import ProxmoxFuse.Answers
import ProxmoxFuse.Buffers
import ProxmoxFuse.Termination
import ProxmoxFuse.InOrder
import ProxmoxFuse.KernelEncoding
import ProxmoxFuse.Decoding
import ProxmoxFuse.Attributes
import ProxmoxFuse.Forgets
import ProxmoxFuse.Limits
import ProxmoxFuse.Negotiation
import ProxmoxFuse.Versions
import ProxmoxFuse.SparseFile
import ProxmoxFuse.SparseWrites
import ProxmoxFuse.FsTree
import ProxmoxFuse.Pruning
import ProxmoxFuse.Guards
import ProxmoxFuse.FsOps
import ProxmoxFuse.Directory
import ProxmoxFuse.Effects
import ProxmoxFuse.FsRuns
import ProxmoxFuse.Lookups
import ProxmoxFuse.Namespace
import ProxmoxFuse.Nesting
import ProxmoxFuse.Handling
import ProxmoxFuse.Miscounts
import ProxmoxFuse.FileData
import ProxmoxFuse.Paging
import ProxmoxFuse.Descriptors
import ProxmoxFuse.Mounting
import ProxmoxFuse.Sharing

import Stalwart.Utils.Leb128
import Stalwart.Lib.ListKinds
import Stalwart.Lib.KeyRange
import Stalwart.Lib.ExceptBind
import Stalwart.Lib.SortedMap
import Stalwart.Lib.KeepIdx
import Stalwart.Lib.ListPatch
import Stalwart.Store.WriteLog
import Stalwart.Store.QueryLog
import Stalwart.Store.Coalesce
import Stalwart.Store.Window
import Stalwart.Store.Search
import Stalwart.Jmap.Changes
import Stalwart.Jmap.Query
import Stalwart.Jmap.QueryChanges
import Stalwart.Imap.Mailbox
import Stalwart.Imap.Announce
import Stalwart.Imap.SearchParse
import Stalwart.Imap.SearchQuery
import Stalwart.Smtp.QueueQuota
import Stalwart.Pop3.Session
import Stalwart.Lib.Bitmap
import Stalwart.Sharing.Acl
import Stalwart.Jmap.EmailSet
import Stalwart.Scheduling.Snapshot
import Stalwart.Scheduling.Inbound
import Stalwart.Lib.Forest
import Stalwart.Email.Mailbox
import Stalwart.Jmap.MailboxSet
import Stalwart.Imap.Folder
import Stalwart.Dav.Urn
import Stalwart.Dav.LockData
import Stalwart.Dav.Headers
import Stalwart.Dav.Lock
import Stalwart.Lib.Paging
import Stalwart.Dav.SyncCollection
import Stalwart.Imap.Receiver
import Stalwart.Imap.Grammar
import Stalwart.Imap.Sequence
import Stalwart.Expr.Variable
import Stalwart.Jmap.TopologicalSort
import Stalwart.Jmap.References
import Stalwart.Lib.BitPacking
import Stalwart.Lib.Utf16
import Stalwart.Imap.Utf7
import Stalwart.Smtp.Delivery
import Stalwart.Expr.Tokenizer
import Stalwart.Expr.Parser
import Stalwart.Expr.Eval
import Stalwart.Expr.Compiler
import Stalwart.Config.Cron
import Stalwart.Lib.Wildcard
import Stalwart.Imap.ListPattern
import Stalwart.Utils.Glob
import Stalwart.Config.IpMask
import Stalwart.Utils.Template
import Stalwart.Store.SearchSplit
import Stalwart.Lib.Acyclic
import Stalwart.Utils.Topological
import Stalwart.Email.MailboxCache
import Stalwart.Imap.CopyMove
import Stalwart.Config.Toml
import Stalwart.Config.Local
import Stalwart.Store.Bitpack
import Stalwart.Calendar.EventData
import Stalwart.Imap.Partial
import Stalwart.Listener.Limiter
import Stalwart.Sharing.Resources
import Stalwart.Auth.Roles
import Stalwart.Types.Id
import Stalwart.Types.Blob
import Stalwart.Lib.StateOption
import Stalwart.Utils.Base32
import Stalwart.Jmap.StateString
import Stalwart.Pop3.Response
import Stalwart.Nlp.Snippet
import Stalwart.Store.SearchIndex
import Stalwart.Email.MergeThreads
import Stalwart.Trc.EventType
import Stalwart.Trc.Binary

import OrgLittle.Java.Text
import OrgLittle.Java.LetterCase
import OrgLittle.Lib.Machine
import OrgLittle.Util.Base64
import OrgLittle.Util.StringParser
import OrgLittle.Smtp.Element
import OrgLittle.Smtp.Command
import OrgLittle.Smtp.CommandHandler
import OrgLittle.Smtp.DataTransparency
import OrgLittle.Smtp.AuthGate
import OrgLittle.Smtp.Replies
import OrgLittle.Smtp.CommandOrder
import OrgLittle.Smtp.Proxy
import OrgLittle.Imap.Command
import OrgLittle.Lib.StreamDecoder
import OrgLittle.Imap.CommandDecoder
import OrgLittle.Imap.Lexer
import OrgLittle.Imap.Fragmentation
import OrgLittle.Imap.Append
import OrgLittle.Imap.Mailbox
import OrgLittle.Imap.UidStability
import OrgLittle.Imap.RoundTrip
import OrgLittle.Smtp.RequestCodec
import OrgLittle.Smtp.AuthRecovery
import OrgLittle.Imap.Login
import OrgLittle.Smtp.ReplyRelay
import OrgLittle.Lib.Sql
import OrgLittle.Lmsg.Message
import OrgLittle.MailWeb.FolderDB
import OrgLittle.Syslog.TcpFraming
import OrgLittle.MailWeb.Revocation
import OrgLittle.MailWeb.Retry
import OrgLittle.MailWeb.Alarm
import OrgLittle.Lib.Effect
import OrgLittle.Lmsg.X509
import OrgLittle.MailWeb.Deduplication
import OrgLittle.Lib.Xml
import OrgLittle.Lmsg.MessageFile
import OrgLittle.Lmsg.MessageRoundTrip
import OrgLittle.Lib.Path
import OrgLittle.Lmsg.StorePath
import OrgLittle.Imap.InboxVisible
import OrgLittle.Imap.Isolation
import OrgLittle.Lmsg.Eml
import OrgLittle.Smtp.Envelope
import OrgLittle.Lmsg.MessageMove
import OrgLittle.Mq.Control
import OrgLittle.Mq.Flow
import OrgLittle.Mq.Node
import OrgLittle.Java.Json
import OrgLittle.Mq.Stat
import OrgLittle.Mq.Mirror
import OrgLittle.Mq.Remote
import OrgLittle.MailWeb.Loaders
import OrgLittle.MailWeb.RoundTrip
import OrgLittle.Util.ConnectionPool
import OrgLittle.Util.Scheduler
import OrgLittle.Util.StringWildCard
import OrgLittle.Lib.UnitOfWork
import OrgLittle.Mq.UfpsParser
import OrgLittle.Mq.Processor
import OrgLittle.Mq.CopyQ
import OrgLittle.Stream.SendPool
import OrgLittle.Lib.Heap
import OrgLittle.Stream.Frame
import OrgLittle.Stream.FrameCodec
import OrgLittle.Stream.FrameTimes
import OrgLittle.Stream.Manager
import OrgLittle.Java.Strings
import OrgLittle.Proxy.NullProxyPair
import OrgLittle.Proxy.NullRelay
import OrgLittle.Lmsg.BodyViews
import OrgLittle.Imap.IdRange
import OrgLittle.Auth.UserXML
import OrgLittle.Http.Digest
import OrgLittle.Http.Request
import OrgLittle.Http.Authorised
import OrgLittle.Http.Leftovers
import OrgLittle.Http.FilePath
import OrgLittle.Lib.QuickSort
import OrgLittle.Util.StringQSort
import OrgLittle.Lib.Glob
import OrgLittle.Util.MaskMatching
import OrgLittle.Lmsg.Folder
import OrgLittle.Lmsg.FolderTree
import OrgLittle.Imap.Fetch
import OrgLittle.Imap.FetchItems
import OrgLittle.Imap.FetchNames
import OrgLittle.Imap.FetchAnswers
import OrgLittle.Imap.LiteralLength
import OrgLittle.Imap.Envelope
import OrgLittle.Imap.InternalDate
import OrgLittle.Imap.LineDecoding
import OrgLittle.Lib.Interleave
import OrgLittle.Imap.Commands
import OrgLittle.Imap.Connections
import OrgLittle.Web.LdapAccessControl
import OrgLittle.Web.AccessFreshness
import OrgLittle.Imap.CommandAnswers
import OrgLittle.Java.JsonText
import OrgLittle.Java.JsonReading
import OrgLittle.Java.JsonRoundTrip
import OrgLittle.Java.JsonEmbedding
import OrgLittle.Java.JsonTransfer
import OrgLittle.Mq.StatText
import OrgLittle.MailWeb.Addressee
import OrgLittle.Lib.Simulation
import OrgLittle.Kir.ListKIR
import OrgLittle.Kir.Journal
import OrgLittle.Syslog.Rfc5424Event
import OrgLittle.Syslog.Rfc5424Message
import OrgLittle.Lmsg.X509Atomic
import OrgLittle.Stream.SAXParser
import OrgLittle.Stream.HeaderExtraction
import OrgLittle.Stream.MessageRewriting
import OrgLittle.Lib.Overlap
import OrgLittle.Util.Query
import OrgLittle.Util.StringTransform
import OrgLittle.Util.ByteBuilder
import OrgLittle.Smtp.PlainToken
import OrgLittle.Mq.Router
import OrgLittle.Mq.SendDir
import OrgLittle.Rcmd.Sequences
import OrgLittle.Rcmd.Request
import OrgLittle.Rcmd.RemoteCopy

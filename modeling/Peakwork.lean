import Peakwork.Proof.Db.Upgrade
import Peakwork.Library.Run
import Peakwork.Proof.Db.Store
import Peakwork.Proof.Db.Calls
import Peakwork.Proof.Db.Integrity
import Peakwork.Proof.Db.Lookup
import Peakwork.Construction.CommonData
import Peakwork.Construction.UpdatePrices
import Peakwork.Proof.UpdatePrices
import Peakwork.Library.Json
import Peakwork.Construction.Rpc.GetCompanyInfo
import Peakwork.Proof.Rpc.GetCompanyInfo
import Peakwork.Construction.Rpc.RPCService
import Peakwork.Proof.Rpc.Lifecycle
import Peakwork.Construction.Controller
import Peakwork.Construction.Process.Supervisor
import Peakwork.Proof.Process.OneWorker
import Peakwork.Proof.Process.Termination
import Peakwork.Proof.Process.Orphans
import Peakwork.Library.Decimal
import Peakwork.Library.Paths
import Peakwork.Construction.Config.Config
import Peakwork.Construction.Config.Daemon
import Peakwork.Proof.Config.Calls
import Peakwork.Proof.Config.Restart
import Peakwork.Library.Writable
import Peakwork.Proof.Config.Symbols
import Peakwork.Construction.CommonUtils.HTTPTransaction
import Peakwork.Proof.Config.Writes
import Peakwork.Construction.Rpc.IEXClient
import Peakwork.Proof.CommonUtils.PerformGet
import Peakwork.Proof.Rpc.IEXClient
import Peakwork.Construction.Db.Restarts
import Peakwork.Library.Sql.Commits
import Peakwork.Proof.Db.Contents
import Peakwork.Proof.Db.Crash
import Peakwork.Proof.Db.History
import Peakwork.Proof.Process.Signals
import Peakwork.Proof.Controller
import Peakwork.Construction.UpdateThread
import Peakwork.Proof.UpdateThread
import Peakwork.Proof.Shutdown
import Peakwork.Proof.CommonUtils.Headers
import Peakwork.Proof.CommonUtils.Decoding
import Peakwork.Proof.CommonUtils.Uploads
import Peakwork.Proof.CommonUtils.Downloads
import Peakwork.Proof.CommonUtils.Retries
import Peakwork.Construction.Rpc.HTTPCompanyInfo
import Peakwork.Library.Url
import Peakwork.Proof.Rpc.RequestUrl
import Peakwork.Library.Nodes
import Peakwork.Library.Frames
import Peakwork.Proof.Config.Arrays
import Peakwork.Proof.Logos
import Peakwork.Proof.Db.Deletions
import Peakwork.Library.Registry
import Peakwork.Proof.Db.ById
import Peakwork.Proof.Config.Registration
import Peakwork.Proof.Config.Frame
import Peakwork.Construction.Config.ConfigManager
import Peakwork.Proof.Config.Others
import Peakwork.Proof.Config.Handles
import Peakwork.Library.FileSystem
import Peakwork.Construction.CommonUtils.Filesystem
import Peakwork.Library.Folders
import Peakwork.Proof.CommonUtils.Folders
import Peakwork.Library.Disk
import Peakwork.Library.Archive
import Peakwork.Library.Rotation
import Peakwork.Library.Fairness
import Peakwork.Library.Csv
import Peakwork.Construction.Plog.Record
import Peakwork.Construction.Plog.Formatters
import Peakwork.Construction.Plog.RollingFileAppender
import Peakwork.Construction.Plog.Logger
import Peakwork.Proof.Plog.FileNames
import Peakwork.Proof.Plog.Appender
import Peakwork.Proof.Plog.Refusals
import Peakwork.Proof.Plog.Rolling
import Peakwork.Proof.Plog.Csv
import Peakwork.Proof.Plog.Logger
import Peakwork.Library.PathMap
import Peakwork.Proof.Config.Persistence
import Peakwork.Library.Sql.Journal
import Peakwork.Construction.Service
import Peakwork.Proof.Service

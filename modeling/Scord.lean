import Scord.Lib.StepSystem
import Scord.Lib.ObjectStore
import Scord.Types
import Scord.Server.InternalTypes
import Scord.Server.Managers
import Scord.Server.Effects
import Scord.Server.Invariants
import Scord.Server.Query
import Scord.Server.Clients
import Scord.Server.AdhocControl
import Scord.Server.JobIndex
import Scord.Transfers.World
import Scord.Transfers.Invariant
import Scord.Transfers.Preservation
import Scord.Transfers.Wait
import Scord.Transfers.Outcome
import Scord.CApi.Types
import Scord.CApi.Requirements
import Scord.Lib.FileSystem
import Scord.Lib.PathResolution
import Scord.Plugin.RemoveDirContent
import Scord.Server.ClientSlots
import Scord.Server.RedisRecords
import Scord.Lib.FreshMap
import Scord.Server.ManagerMaps
import Scord.Server.History
import Scord.Server.Resize
import Scord.Lib.MakeDirectory
import Scord.Ctl.Command
import Scord.Ctl.RpcServer
import Scord.Ctl.InstanceDirectory
import Scord.Lib.ExitSteps
import Scord.Plugin.Library
import Scord.Plugin.SlurmJob
import Scord.Plugin.Registration
import Scord.Plugin.CleanUp
import Scord.Plugin.Stubs
import Scord.Lib.Keywords
import Scord.Server.DatasetProcess
import Scord.Ctl.Substitution
import Scord.Transfers.Tick
import Scord.CApi.AdhocView
import Scord.Lib.Archive
import Scord.Wire.Messages
import Scord.Wire.RoundTrip
import Scord.Lib.AdvisoryLock
import Scord.Daemon.Pidfile
import Scord.Transfers.Privacy
import Scord.CApi.DatasetRoutes
import Scord.Lib.Tokens
import Scord.Cli.AdhocClient
import Scord.Lib.Strtol
import Scord.Plugin.ProcessOpts
import Scord.Plugin.OptionRuns
import Scord.Plugin.AdhocNodes
import Scord.Plugin.ProcessConfig
import Scord.Transfers.QosClass
import Scord.Lib.YamlTree
import Scord.Daemon.ConfigYaml
import Scord.Lib.ExceptLoop
import Scord.Ctl.ConfigFile
import Scord.Lib.EnvStrings
import Scord.Ctl.ExecEnvironment
import Scord.Abt.LockGuards
import Scord.Abt.LockRuns
import Scord.Lib.PathText
import Scord.Lib.UndoStack
import Scord.Utils.LexicalNormalize
import Scord.Lib.Significand
import Scord.Lib.SuffixTable
import Scord.Utils.ParseSize
import Scord.Lib.RwLock
import Scord.Lib.RwLockReduction
import Scord.Lib.RwLockProgress
import Scord.Server.ManagerMethods
import Scord.Server.ManagerRuns
import Scord.Server.ManagerTables
import Scord.Lib.IssuedIds
import Scord.Server.Ids
import Scord.Ctl.HandlerSteps
import Scord.Server.ControlSteps
import Scord.Nodes.Daemons
import Scord.Nodes.Deployments
import Scord.Wire.Rpc
import Scord.Wire.Transparency
import Scord.Wire.Controllers

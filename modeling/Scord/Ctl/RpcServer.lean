/-
  Scord.Ctl.RpcServer

  The request handlers of `scord-ctl` (`scord-ctl/rpc_server.cpp`), which run the
  commands that are configured for a type of adhoc storage.  `deploy` makes the
  working directory of an instance first; no handler removes it.

  A handler is run against an environment, which says how the file system and
  the child process answer.
-/
import Scord.Ctl.Command
import Scord.Types

namespace ScordCtl

open FileSystem
open Scord (AdhocStorageType AdhocResources ErrorCode GenericResponse ResponseWithValue)

/-! ## Configuration -/

structure AdhocStorageConfig where
  workingDirectory : Path
  startupCommand : Command
  shutdownCommand : Command
  expandCommand : Command
  shrinkCommand : Command

/-- `adhoc_storage_config_map`; the first entry of a type is the one that
    `emplace` has put in. -/
abbrev AdhocStorageConfigMap := List (AdhocStorageType × AdhocStorageConfig)

structure ConfigFile where
  adhocStorageConfigs : AdhocStorageConfigMap

/-! ## The server -/

/-- How the outside answers while a handler runs. -/
structure Env where
  /-- Whether `exists` throws, because the status cannot be told. -/
  existsThrows : Bool
  /-- The directories that the system refuses to make. -/
  refuses : List Name → Bool
  /-- What becomes of a command. -/
  child : List String → List String → ChildOutcome

structure RpcServer where
  config : Option ConfigFile
  /-- the directory that the server runs in -/
  cwd : List Name
  /-- the counter behind `rpc_info::new_id` -/
  rpcCount : UInt64
  /-- the files of the node -/
  fs : Tree

/-- The server afterwards, and the response, unless an exception ends the
    handler. -/
structure Handled (ρ : Type) where
  server : RpcServer
  response : Option ρ

/-- The configuration of a type, or the code that is answered without one. -/
def adhocConfig (config : Option ConfigFile) (adhocType : AdhocStorageType) :
    Except ErrorCode AdhocStorageConfig :=
  match config with
  | none => .error .snafu
  | some config =>
      if config.adhocStorageConfigs.isEmpty then .error .snafu
      else
        match config.adhocStorageConfigs.lookup adhocType with
        | some cfg => .ok cfg
        | none => .error .adhocTypeUnsupported

/-- Run a command; an exception is logged. -/
def execCode (env : Env) (cmd : Command) : ErrorCode :=
  match cmd.exec env.child with
  | .ok _ => .success
  | .error _ => .subprocessError

namespace RpcServer

/-- `exists(path)` -/
def pathExists (s : RpcServer) (path : Path) : Bool :=
  (s.fs.stat (path.namesFrom s.cwd)).isSome

/-- `rpc_info::create` draws the next id. -/
def nextRpc (s : RpcServer) : RpcServer := { s with rpcCount := s.rpcCount + 1 }

def ping (s : RpcServer) : Handled GenericResponse :=
  ⟨s.nextRpc, some ⟨s.rpcCount, .success⟩⟩

def deployAdhocStorage (s : RpcServer) (env : Env) (adhocUuid : String)
    (adhocType : AdhocStorageType) (adhocResources : AdhocResources) :
    Handled (ResponseWithValue Path) :=
  match adhocConfig s.config adhocType with
  | .error ec => ⟨s.nextRpc, some ⟨s.rpcCount, ec, none⟩⟩
  | .ok cfg =>
      let adhocDir := cfg.workingDirectory / ⟨adhocUuid⟩
      if env.existsThrows then ⟨s.nextRpc, none⟩
      else if s.pathExists adhocDir then
        ⟨s.nextRpc, some ⟨s.rpcCount, .adhocDirExists, some adhocDir⟩⟩
      else
        let created := s.fs.createDirectories env.refuses adhocDir s.cwd
        if created.2 = false then
          ⟨{ s.nextRpc with fs := created.1 },
            some ⟨s.rpcCount, .adhocDirCreateFailed, some adhocDir⟩⟩
        else
          let cmd := cfg.startupCommand.eval adhocUuid adhocDir
            (adhocResources.nodes.map fun node => node.hostname)
          -- the directory stays, whatever becomes of the command
          ⟨{ s.nextRpc with fs := created.1 },
            some ⟨s.rpcCount, execCode env cmd, some adhocDir⟩⟩

/-- The handlers that only run one of the configured commands. -/
def runConfigured (s : RpcServer) (env : Env) (adhocType : AdhocStorageType)
    (cmd : AdhocStorageConfig → Command) : Handled GenericResponse :=
  match adhocConfig s.config adhocType with
  | .error ec => ⟨s.nextRpc, some ⟨s.rpcCount, ec⟩⟩
  | .ok cfg => ⟨s.nextRpc, some ⟨s.rpcCount, execCode env (cmd cfg)⟩⟩

def expandAdhocStorage (s : RpcServer) (env : Env) (adhocUuid : String)
    (adhocType : AdhocStorageType) (adhocResources : AdhocResources) : Handled GenericResponse :=
  s.runConfigured env adhocType fun cfg => cfg.expandCommand.evalMalleability adhocUuid
    (adhocResources.nodes.map fun node => node.hostname)

def shrinkAdhocStorage (s : RpcServer) (env : Env) (adhocUuid : String)
    (adhocType : AdhocStorageType) (adhocResources : AdhocResources) : Handled GenericResponse :=
  s.runConfigured env adhocType fun cfg => cfg.shrinkCommand.evalMalleability adhocUuid
    (adhocResources.nodes.map fun node => node.hostname)

def terminateAdhocStorage (s : RpcServer) (env : Env) (adhocUuid : String)
    (adhocType : AdhocStorageType) : Handled GenericResponse :=
  s.runConfigured env adhocType fun cfg =>
    cfg.shutdownCommand.eval adhocUuid (cfg.workingDirectory / ⟨adhocUuid⟩) []

end RpcServer

/-! ## Requests -/

inductive Request
  | ping
  | deployAdhocStorage (adhocUuid : String) (adhocType : AdhocStorageType)
      (adhocResources : AdhocResources)
  | expandAdhocStorage (adhocUuid : String) (adhocType : AdhocStorageType)
      (adhocResources : AdhocResources)
  | shrinkAdhocStorage (adhocUuid : String) (adhocType : AdhocStorageType)
      (adhocResources : AdhocResources)
  | terminateAdhocStorage (adhocUuid : String) (adhocType : AdhocStorageType)

namespace RpcServer

/-- One request, and the code of the response to it. -/
def handle (s : RpcServer) (env : Env) : Request → RpcServer × Option ErrorCode
  | .ping =>
      let h := s.ping
      (h.server, h.response.map GenericResponse.errorCode)
  | .deployAdhocStorage uuid type resources =>
      let h := s.deployAdhocStorage env uuid type resources
      (h.server, h.response.map ResponseWithValue.errorCode)
  | .expandAdhocStorage uuid type resources =>
      let h := s.expandAdhocStorage env uuid type resources
      (h.server, h.response.map GenericResponse.errorCode)
  | .shrinkAdhocStorage uuid type resources =>
      let h := s.shrinkAdhocStorage env uuid type resources
      (h.server, h.response.map GenericResponse.errorCode)
  | .terminateAdhocStorage uuid type =>
      let h := s.terminateAdhocStorage env uuid type
      (h.server, h.response.map GenericResponse.errorCode)

/-- As a step of the server, with the code as its answer. -/
def step (s : RpcServer) (e : Env × Request) : Option (RpcServer × Option ErrorCode) :=
  some (s.handle e.1 e.2)

end RpcServer

/-! ## What a request does -/

/-- The child process of a command exits with status 0. -/
def ExitsWithZero (env : Env) (cmd : Command) : Prop :=
  env.child cmd.asVector (cmd.env.getD .empty).asVector = .exited 0

theorem execCode_eq_success_iff {env : Env} {cmd : Command} :
    execCode env cmd = .success ↔ ExitsWithZero env cmd := by
  rw [ExitsWithZero, ← Command.exec_eq_ok_iff, execCode]
  cases cmd.exec env.child with
  | ok u => simp
  | error e => simp

theorem adhocConfig_ne_success {config : Option ConfigFile} {adhocType : AdhocStorageType}
    {ec : ErrorCode} (h : adhocConfig config adhocType = .error ec) : ec ≠ .success := by
  unfold adhocConfig at h
  rintro rfl
  split at h
  case h_1 => cases h
  case h_2 =>
    split at h
    case isTrue => cases h
    case isFalse => split at h <;> cases h

namespace RpcServer

variable {s : RpcServer} {env : Env} {uuid : String} {type : AdhocStorageType}
  {resources : AdhocResources} {cfg : AdhocStorageConfig}

theorem runConfigured_server (s : RpcServer) (env : Env) (type : AdhocStorageType)
    (cmd : AdhocStorageConfig → Command) : (s.runConfigured env type cmd).server = s.nextRpc := by
  unfold runConfigured
  split <;> rfl

/-- Such a request is answered success exactly when its type is configured, and
    the command exits with status 0. -/
theorem runConfigured_success_iff {cmd : AdhocStorageConfig → Command} :
    (s.runConfigured env type cmd).response.map GenericResponse.errorCode = some .success ↔
      ∃ cfg, adhocConfig s.config type = .ok cfg ∧ ExitsWithZero env (cmd cfg) := by
  unfold runConfigured
  cases hcfg : adhocConfig s.config type with
  | error ec =>
      have hne := adhocConfig_ne_success hcfg
      simp [hne]
  | ok cfg => simp [execCode_eq_success_iff]

/-- A deploy that goes as far as making the directory. -/
structure Creates (s : RpcServer) (env : Env) (uuid : String) (type : AdhocStorageType)
    (cfg : AdhocStorageConfig) : Prop where
  config : adhocConfig s.config type = .ok cfg
  known : env.existsThrows = false
  missing : s.pathExists (cfg.workingDirectory / ⟨uuid⟩) = false

/-- The files after a deploy has made its directory, and whether it could. -/
def created (s : RpcServer) (env : Env) (uuid : String) (cfg : AdhocStorageConfig) :
    Tree × Bool :=
  s.fs.createDirectories env.refuses (cfg.workingDirectory / ⟨uuid⟩) s.cwd

/-- The command that a deploy runs. -/
def startup (cfg : AdhocStorageConfig) (uuid : String) (resources : AdhocResources) : Command :=
  cfg.startupCommand.eval uuid (cfg.workingDirectory / ⟨uuid⟩)
    (resources.nodes.map fun node => node.hostname)

theorem deployAdhocStorage_of_creates (h : s.Creates env uuid type cfg)
    (resources : AdhocResources) :
    s.deployAdhocStorage env uuid type resources
      = ⟨{ s.nextRpc with fs := (s.created env uuid cfg).1 },
          some ⟨s.rpcCount,
            if (s.created env uuid cfg).2 then execCode env (startup cfg uuid resources)
            else .adhocDirCreateFailed,
            some (cfg.workingDirectory / ⟨uuid⟩)⟩⟩ := by
  unfold deployAdhocStorage
  simp only [h.config, h.known, h.missing, Bool.false_eq_true, if_false]
  show (if (s.created env uuid cfg).2 = false then _ else _) = _
  cases hmade : (s.created env uuid cfg).2 with
  | true => rfl
  | false => rfl

/-- Any other deploy leaves the files as they are, and is not answered success. -/
theorem deployAdhocStorage_of_not_creates (h : ∀ cfg, ¬ s.Creates env uuid type cfg)
    (resources : AdhocResources) :
    (s.deployAdhocStorage env uuid type resources).server = s.nextRpc ∧
      (s.deployAdhocStorage env uuid type resources).response.map ResponseWithValue.errorCode
        ≠ some .success := by
  unfold deployAdhocStorage
  cases hcfg : adhocConfig s.config type with
  | error ec =>
      have hne := adhocConfig_ne_success hcfg
      simp [hne]
  | ok cfg =>
      cases hthrows : env.existsThrows with
      | true => simp
      | false =>
          cases hexists : s.pathExists (cfg.workingDirectory / ⟨uuid⟩) with
          | true => simp [hexists]
          | false => exact absurd ⟨hcfg, hthrows, hexists⟩ (h cfg)

theorem config_cwd_of_nextRpc {s' : RpcServer} (h : s' = s.nextRpc) :
    s'.config = s.config ∧ s'.cwd = s.cwd := by
  rw [h]
  exact ⟨rfl, rfl⟩

/-- No request changes the configuration, or where the server runs. -/
theorem handle_config_cwd (s : RpcServer) (env : Env) (req : Request) :
    (s.handle env req).1.config = s.config ∧ (s.handle env req).1.cwd = s.cwd := by
  cases req with
  | ping => exact ⟨rfl, rfl⟩
  | deployAdhocStorage uuid type resources =>
      show (s.deployAdhocStorage env uuid type resources).server.config = _ ∧
        (s.deployAdhocStorage env uuid type resources).server.cwd = _
      by_cases hcreates : ∃ cfg, s.Creates env uuid type cfg
      · obtain ⟨cfg, hcfg⟩ := hcreates
        rw [deployAdhocStorage_of_creates hcfg]
        exact ⟨rfl, rfl⟩
      · have hdeploy := deployAdhocStorage_of_not_creates (not_exists.mp hcreates) resources
        exact config_cwd_of_nextRpc hdeploy.1
  | expandAdhocStorage uuid type resources =>
      exact config_cwd_of_nextRpc (runConfigured_server s env type _)
  | shrinkAdhocStorage uuid type resources =>
      exact config_cwd_of_nextRpc (runConfigured_server s env type _)
  | terminateAdhocStorage uuid type =>
      exact config_cwd_of_nextRpc (runConfigured_server s env type _)

end RpcServer

end ScordCtl

/-
  Scord.Plugin.SlurmJob

  `scord_register_job` and `scord_unregister_job` of the Slurm plugin
  (`slurmadmcli.c`), which share their handles as global variables.

  The registration is a sequence of steps with a failure exit after each one.
  It leaves behind what it has created; the other function, called when the job
  is over, is the one path that cleans up, whatever there is.
-/
import Scord.Lib.ExitSteps
import Scord.Plugin.Library

namespace Scord.Plugin

open ExitSteps StepSystem

variable {H : Type}

/-! ## Options and handles -/

/-- `scord_server_info_t` -/
structure ServerInfo where
  addr : String
  proto : String
  port : Int

/-- The options of the job and of the plugin.  The nodes are those of the
    allocation, and a dataset route is the pair of its ids. -/
structure Options where
  scordInfo : ServerInfo
  scordctlInfo : ServerInfo
  cargoInfo : ServerInfo
  nodelist : List Node
  jobid : UInt32
  adhocNnodes : Int
  adhocWalltime : UInt32
  adhocMode : ExecutionMode
  adhocType : AdhocStorageType
  inputDatasets : List DatasetRoute
  outputDatasets : List DatasetRoute
  expectedOutputDatasets : List DatasetRoute
  limit : Int

/-- The global handles, all of them null at first. -/
structure Handles where
  scordServer : Option AdmServer := none
  jobResources : Option JobResources := none
  adhocResources : Option AdhocResources := none
  adhocCtx : Option AdhocCtx := none
  adhocStorage : Option AdhocStorage := none
  scordReqs : Option JobRequirements := none
  scordJob : Option Job := none
  adhocPath : Option String := none

/-- The plugin on node 0. -/
structure Process (H : Type) where
  session : Session H
  handles : Handles
  /-- what `spank_setenv` has set -/
  env : List (String × String)

/-- The process before the registration, and the server that it finds. -/
def Process.start (logger : Bool) (s : Server H) : Process H := ⟨⟨logger, some s, []⟩, {}, []⟩

/-- The requests of others in between. -/
def Process.wait (p : Process H) (others : List (Env H × Request)) : Process H :=
  { p with session := { p.session with server := serve p.session.server others } }

/-- The objects that the registration allocates. -/
inductive Object
  | server
  | jobResources
  | adhocResources
  | adhocContext
  | adhocStorage
  | jobRequirements
  | job
  | path
deriving DecidableEq

/-- `margo_address_create` for a server on the first node of the job: null if
    the host cannot be resolved. -/
def margoAddressCreate (resolveHost : String → Option String) (info : ServerInfo)
    (nodelist : List Node) : Option String :=
  match nodelist with
  | [] => none
  | ctlNode :: _ =>
      (resolveHost ctlNode.hostname).map fun buffer =>
        info.proto ++ "://" ++ buffer ++ ":" ++ toString info.port

/-! ## Registration -/

/-- How the outside answers during the registration. -/
structure RegisterEnv (H : Type) where
  resolveHost : String → Option String
  allocates : Object → Bool
  registerAdhoc : Call H
  registerJob : Call H
  deploy : Call H
  stageIn : Call H
  stageInPolls : List (Call H)

section Register

variable (o : Options) (env : RegisterEnv H)

/-- A step that creates an object without asking the server. -/
def create {α : Type} (object : Option α) (set : Handles → Option α → Handles) :
    Step Fault (Process H) :=
  fun p => .ok ({ p with handles := set p.handles object }, object.isSome)

def createServer : Step Fault (Process H) :=
  create (if env.allocates .server then some ⟨o.scordInfo.proto, o.scordInfo.addr⟩ else none)
    fun h x => { h with scordServer := x }

/-- `nnodes <= 0` -/
def checkNodecount : Step Fault (Process H) :=
  fun p => .ok (p, !o.nodelist.isEmpty)

def createJobResources : Step Fault (Process H) :=
  create (if env.allocates .jobResources then some ⟨o.nodelist⟩ else none)
    fun h x => { h with jobResources := x }

/-- `adhoc_nnodes < nnodes ? adhoc_nnodes : nnodes` -/
def adhocNodes : List Node :=
  o.nodelist.take (if o.adhocNnodes < o.nodelist.length then o.adhocNnodes.toNat
    else o.nodelist.length)

def createAdhocResources : Step Fault (Process H) :=
  create (if env.allocates .adhocResources then some ⟨adhocNodes o⟩ else none)
    fun h x => { h with adhocResources := x }

/-- The address of the stager may be null. -/
def createAdhocContext (ctlAddress : String) : Step Fault (Process H) :=
  create
    (match margoAddressCreate env.resolveHost o.cargoInfo o.nodelist with
      | none => none
      | some stagerAddress =>
          if env.allocates .adhocContext then
            some ⟨ctlAddress, stagerAddress, o.adhocMode, .readWrite, o.adhocWalltime, false⟩
          else none)
    fun h x => { h with adhocCtx := x }

def registerAdhocStorage : Step Fault (Process H) := fun p => do
  let r ← p.session.admRegisterAdhocStorage env.registerAdhoc (env.allocates .adhocStorage)
    p.handles.scordServer "mystorage" o.adhocType p.handles.adhocCtx p.handles.adhocResources
  match r.2 with
  -- the handle stays null
  | .error _ => return ({ p with session := r.1 }, false)
  | .ok st => return ({ p with session := r.1, handles := { p.handles with adhocStorage := st } },
      true)

/-- `ADM_job_requirements_create` copies the routes and the storage. -/
def createRequirements : Step Fault (Process H) := fun p =>
  create
    (if env.allocates .jobRequirements then
      some ⟨o.inputDatasets, o.outputDatasets, o.expectedOutputDatasets, p.handles.adhocStorage⟩
    else none)
    (fun h x => { h with scordReqs := x }) p

def registerJob : Step Fault (Process H) := fun p => do
  let r ← p.session.admRegisterJob env.registerJob (env.allocates .job) p.handles.scordServer
    p.handles.jobResources p.handles.scordReqs (UInt64.ofNat o.jobid.toNat)
  match r.2 with
  -- the server may have registered the job all the same
  | .error _ => return ({ p with session := r.1 }, false)
  | .ok job => return ({ p with session := r.1, handles := { p.handles with scordJob := job } },
      true)

def deployAdhocStorage : Step Fault (Process H) := fun p => do
  let r ← p.session.admDeployAdhocStorage env.deploy (env.allocates .path)
    p.handles.scordServer p.handles.adhocStorage
  return ({ p with session := r.1, handles := { p.handles with adhocPath := r.2.1 } },
    decide (r.2.2 = .success))

/-- The environment variables of the job. -/
def jobEnvironment (p : Process H) : List (String × String) :=
  (match o.adhocType with
    | .gekkofs =>
        [("ADHOC_TYPE", "gekkofs"), ("LIBGKFS_HOSTS_FILE", "/tmp/gekkofs/gkfs_hosts.txt")]
    | .expand => [("ADHOC_TYPE", "expand")]
    | .dataclay => [("ADHOC_TYPE", "dataclay")]
    | .hercules => [("ADHOC_TYPE", "hercules")])
  ++ (p.handles.adhocPath.map fun path => ("ADHOC_PATH", path)).toList

def setEnvironment : Step Fault (Process H) :=
  fun p => .ok ({ p with env := p.env ++ jobEnvironment o p }, true)

/-- `nlimit` -/
def limitsLen : Nat := if o.limit > 0 then 1 else 0

/-- `sources[i]` and `targets[i]` for the first `n` routes of a list. -/
def splitRoutes (routes : List DatasetRoute) (n : Nat) :
    Outcome (List Dataset × List Dataset) := do
  let rs ← ofResult (CMemory.collect (fun i => CMemory.readAt routes i) n)
  return (rs.map DatasetRoute.source, rs.map DatasetRoute.destination)

def stageIn : Step Fault (Process H) := fun p =>
  if o.inputDatasets.isEmpty then .ok (p, true)
  else do
    let reqs ← handle p.handles.scordReqs
    let datasets ← splitRoutes reqs.inputs o.inputDatasets.length
    -- `sleep(5)`, and then the transfer is waited for
    let r ← p.session.admTransferDatasets1 env.stageIn env.stageInPolls p.handles.scordServer
      p.handles.scordJob datasets.1 datasets.2 (UInt64.ofInt o.limit) (limitsLen o) .oneToOne
    return ({ p with session := r.1 }, decide (r.2 = .success))

def registerSteps (ctlAddress : String) : List (Step Fault (Process H)) :=
  [createServer o env, checkNodecount o, createJobResources o env, createAdhocResources o env,
    createAdhocContext o env ctlAddress, registerAdhocStorage o env, createRequirements o env,
    registerJob o env, deployAdhocStorage env, setEnvironment o, stageIn o env]

/-- `scord_register_job`: it keeps all that it has created when it fails. -/
def scordRegisterJob (p : Process H) : Outcome (Process H × Int) :=
  match margoAddressCreate env.resolveHost o.scordctlInfo o.nodelist with
  -- no handle has been created yet
  | none => .ok (p, -1)
  | some ctlAddress => do
      let r ← seq (registerSteps o env ctlAddress) p
      return (r.1, if r.2 then 0 else -1)

end Register

/-! ## Clean-up -/

/-- How the outside answers during the clean-up. -/
structure UnregisterEnv (H : Type) where
  resolveHost : String → Option String
  stageOut : Call H
  stageOutPolls : List (Call H)
  terminate : Call H
  removeJob : Call H

section Unregister

variable (o : Options) (env : UnregisterEnv H)

/-- Step 1, the stage-out: its return code, `ADM_SUCCESS` when there is none. -/
def stageOut (p : Process H) : Outcome (Process H × ErrorCode) :=
  if o.outputDatasets.isEmpty then .ok (p, .success)
  else do
    let reqs ← handle p.handles.scordReqs
    let datasets ← splitRoutes reqs.outputs o.outputDatasets.length
    let r ← p.session.admTransferDatasets1 env.stageOut env.stageOutPolls p.handles.scordServer
      p.handles.scordJob datasets.1 datasets.2 (UInt64.ofInt o.limit) (limitsLen o) .oneToOne
    return ({ p with session := r.1 }, r.2)

/-- What follows a stage-out.  The return codes of the two requests are ignored,
    and so is what `remove_dir_content` does to the files; its `opendir` wants a
    path. -/
def removeAll (p : Process H) : Outcome (Process H) := do
  let r ← p.session.admTerminateAdhocStorage env.terminate p.handles.scordServer
    p.handles.adhocStorage
  let _ ← handle p.handles.adhocPath
  let r ← r.1.admRemoveJob env.removeJob p.handles.scordServer p.handles.scordJob
  return { p with session := r.1 }

/-- `scord_unregister_job`.  The handles that are not null are freed at the
    end. -/
def scordUnregisterJob (p : Process H) : Outcome (Process H × Int) :=
  match margoAddressCreate env.resolveHost o.scordctlInfo o.nodelist with
  -- it returns without the `end` label, and frees nothing
  | none => .ok (p, -1)
  | some _ => do
      let r ← stageOut o env p
      if r.2 = .success then
        let p ← removeAll env r.1
        return (p, 0)
      -- `goto end`, past the removals
      else return (r.1, -1)

end Unregister

end Scord.Plugin

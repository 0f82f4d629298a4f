/-
  Scord.Ctl.HandlerSteps

  A handler of `scord-ctl` as the steps between which other handlers run: it looks
  its configuration up and the directory, it makes the directory, and it runs the
  command.  Nothing is locked in between.

  What a handler has still to do is a `Work`.  Taken in a row, its steps are the
  handler as a whole (`undisturbed_eq_answer`).
-/
import Scord.Ctl.RpcServer

namespace ScordCtl

open FileSystem
open Scord (AdhocStorageType AdhocResources ErrorCode GenericResponse ResponseWithValue)

/-- What is sent back; a generic response has no value. -/
abbrev Reply := ResponseWithValue Path

def Reply.ofGeneric (r : GenericResponse) : Reply := ⟨r.opId, r.errorCode, none⟩

/-- What a handler has still to do: handle the request, make the directory of an
    instance, run a command.  Once it is done, what it has run stays on record. -/
inductive Work
  | arrived (req : Request)
  | create (opId : UInt64) (adhocDir : Path) (cmd : Command)
  | run (opId : UInt64) (adhocDir : Option Path) (cmd : Command)
  | done (reply : Option Reply) (ran : Option (Command × ChildOutcome))

/-- The handler has made this directory. -/
def Work.HasMade (dir : Path) : Work → Prop
  | .run _ adhocDir _ => adhocDir = some dir
  | .done (some reply) (some _) => reply.value = some dir
  | _ => False

namespace Request

def type? : Request → Option AdhocStorageType
  | ping => none
  | deployAdhocStorage _ type _ => some type
  | expandAdhocStorage _ type _ => some type
  | shrinkAdhocStorage _ type _ => some type
  | terminateAdhocStorage _ type => some type

/-- The directory that is reported back. -/
def dir? (cfg : AdhocStorageConfig) : Request → Option Path
  | deployAdhocStorage uuid _ _ => some (cfg.workingDirectory / ⟨uuid⟩)
  | _ => none

/-- The command that a request runs. -/
def command? (cfg : AdhocStorageConfig) : Request → Option Command
  | ping => none
  | deployAdhocStorage uuid _ resources => some (RpcServer.startup cfg uuid resources)
  | expandAdhocStorage uuid _ resources =>
      some (cfg.expandCommand.evalMalleability uuid
        (resources.nodes.map fun node => node.hostname))
  | shrinkAdhocStorage uuid _ resources =>
      some (cfg.shrinkCommand.evalMalleability uuid
        (resources.nodes.map fun node => node.hostname))
  | terminateAdhocStorage uuid _ =>
      some (cfg.shutdownCommand.eval uuid (cfg.workingDirectory / ⟨uuid⟩) [])

end Request

namespace RpcServer

/-- A handler as a whole: the server afterwards, and what is sent back. -/
def answer (s : RpcServer) (env : Env) : Request → RpcServer × Option Reply
  | .ping => (s.ping.server, s.ping.response.map Reply.ofGeneric)
  | .deployAdhocStorage uuid type resources =>
      let h := s.deployAdhocStorage env uuid type resources
      (h.server, h.response)
  | .expandAdhocStorage uuid type resources =>
      let h := s.expandAdhocStorage env uuid type resources
      (h.server, h.response.map Reply.ofGeneric)
  | .shrinkAdhocStorage uuid type resources =>
      let h := s.shrinkAdhocStorage env uuid type resources
      (h.server, h.response.map Reply.ofGeneric)
  | .terminateAdhocStorage uuid type =>
      let h := s.terminateAdhocStorage env uuid type
      (h.server, h.response.map Reply.ofGeneric)

/-- The first step of the handlers that only run one of the configured commands. -/
def startConfigured (s : RpcServer) (type : AdhocStorageType)
    (cmd : AdhocStorageConfig → Command) : RpcServer × Work :=
  match adhocConfig s.config type with
  | .error ec => (s.nextRpc, .done (some ⟨s.rpcCount, ec, none⟩) none)
  | .ok cfg => (s.nextRpc, .run s.rpcCount none (cmd cfg))

/-- The first step of a deploy: up to the test whether its directory exists. -/
def startDeploy (s : RpcServer) (env : Env) (uuid : String) (type : AdhocStorageType)
    (resources : AdhocResources) : RpcServer × Work :=
  match adhocConfig s.config type with
  | .error ec => (s.nextRpc, .done (some ⟨s.rpcCount, ec, none⟩) none)
  | .ok cfg =>
      let adhocDir := cfg.workingDirectory / ⟨uuid⟩
      if env.existsThrows then (s.nextRpc, .done none none)
      else if s.pathExists adhocDir then
        (s.nextRpc, .done (some ⟨s.rpcCount, .adhocDirExists, some adhocDir⟩) none)
      else (s.nextRpc, .create s.rpcCount adhocDir (startup cfg uuid resources))

/-- One step of a handler. -/
def advance (s : RpcServer) (env : Env) : Work → RpcServer × Work
  | .arrived .ping => (s.nextRpc, .done (some ⟨s.rpcCount, .success, none⟩) none)
  | .arrived (.deployAdhocStorage uuid type resources) => s.startDeploy env uuid type resources
  | .arrived (.expandAdhocStorage uuid type resources) =>
      s.startConfigured type fun cfg => cfg.expandCommand.evalMalleability uuid
        (resources.nodes.map fun node => node.hostname)
  | .arrived (.shrinkAdhocStorage uuid type resources) =>
      s.startConfigured type fun cfg => cfg.shrinkCommand.evalMalleability uuid
        (resources.nodes.map fun node => node.hostname)
  | .arrived (.terminateAdhocStorage uuid type) =>
      s.startConfigured type fun cfg =>
        cfg.shutdownCommand.eval uuid (cfg.workingDirectory / ⟨uuid⟩) []
  | .create opId adhocDir cmd =>
      let created := s.fs.createDirectories env.refuses adhocDir s.cwd
      if created.2 = false then
        ({ s with fs := created.1 },
          .done (some ⟨opId, .adhocDirCreateFailed, some adhocDir⟩) none)
      else ({ s with fs := created.1 }, .run opId (some adhocDir) cmd)
  | .run opId adhocDir cmd =>
      (s, .done (some ⟨opId, execCode env cmd, adhocDir⟩)
        (some (cmd, env.child cmd.asVector (cmd.env.getD .empty).asVector)))
  | .done reply ran => (s, .done reply ran)

end RpcServer

/-! ## What a step can do -/

/-- With this configuration, the request runs this command, and reports this
    directory. -/
def Orders (config : Option ConfigFile) (req : Request) (adhocDir : Option Path)
    (cmd : Command) : Prop :=
  ∃ type cfg, req.type? = some type ∧ adhocConfig config type = .ok cfg ∧
    req.dir? cfg = adhocDir ∧ req.command? cfg = some cmd

/-- The command of the request has exited with status 0, and its directory is
    reported. -/
def Succeeded (config : Option ConfigFile) (req : Request) (adhocDir : Option Path)
    (ran : Option (Command × ChildOutcome)) : Prop :=
  ∃ cmd, Orders config req adhocDir cmd ∧ ran = some (cmd, .exited 0)

/-- What can be left of a request, under this configuration. -/
def Work.For (config : Option ConfigFile) (req : Request) : Work → Prop
  | .arrived r => r = req
  | .create _ adhocDir cmd => Orders config req (some adhocDir) cmd
  | .run _ adhocDir cmd => Orders config req adhocDir cmd
  | .done reply ran => ∀ r, reply = some r → r.errorCode = .success →
      req = .ping ∨ Succeeded config req r.value ran

namespace RpcServer

variable {s : RpcServer} {env : Env} {req : Request}

/-- The files change in one of the steps only, and the rest of the server but for
    the rpc counter in none. -/
theorem advance_fs (s : RpcServer) (env : Env) (w : Work) :
    (s.advance env w).1.config = s.config ∧ (s.advance env w).1.cwd = s.cwd ∧
      ((s.advance env w).1.fs = s.fs ∨
        ∃ opId adhocDir cmd, w = .create opId adhocDir cmd ∧
          (s.advance env w).1.fs = (s.fs.createDirectories env.refuses adhocDir s.cwd).1) := by
  have hsame : ∀ {r : RpcServer × Work} {n : UInt64}, r.1 = { s with rpcCount := n } →
      r.1.config = s.config ∧ r.1.cwd = s.cwd ∧ (r.1.fs = s.fs ∨
        ∃ opId adhocDir cmd, w = .create opId adhocDir cmd ∧
          r.1.fs = (s.fs.createDirectories env.refuses adhocDir s.cwd).1) := by
    intro r n hr
    rw [hr]
    exact ⟨rfl, rfl, .inl rfl⟩
  have hstart : ∀ type cmd, (s.startConfigured type cmd).1 = s.nextRpc := by
    intro type cmd
    unfold startConfigured
    split <;> rfl
  cases w with
  | arrived r =>
      cases r with
      | ping => exact hsame rfl
      | deployAdhocStorage uuid type resources =>
          refine hsame (n := s.rpcCount + 1) ?_
          show (s.startDeploy env uuid type resources).1 = _
          unfold startDeploy
          split
          · rfl
          · simp only
            split
            · rfl
            · split <;> rfl
      | expandAdhocStorage uuid type resources => exact hsame (hstart _ _)
      | shrinkAdhocStorage uuid type resources => exact hsame (hstart _ _)
      | terminateAdhocStorage uuid type => exact hsame (hstart _ _)
  | create opId adhocDir cmd =>
      unfold advance
      simp only
      split <;> exact ⟨rfl, rfl, .inr ⟨opId, adhocDir, cmd, rfl, rfl⟩⟩
  | run opId adhocDir cmd => exact ⟨rfl, rfl, .inl rfl⟩
  | done reply ran => exact ⟨rfl, rfl, .inl rfl⟩

/-- Nothing that is there goes away. -/
theorem sub_advance (s : RpcServer) (env : Env) (w : Work) :
    Tree.Sub s.fs (s.advance env w).1.fs := by
  obtain ⟨-, -, hsame | ⟨opId, adhocDir, cmd, -, hfs⟩⟩ := s.advance_fs env w
  · rw [hsame]
    exact Tree.Sub.refl _
  · rw [hfs]
    exact Tree.sub_createDirectories _ _ _ _

theorem for_startConfigured {type : AdhocStorageType} {cmd : AdhocStorageConfig → Command}
    (htype : req.type? = some type) (hdir : ∀ cfg, req.dir? cfg = none)
    (hcmd : ∀ cfg, req.command? cfg = some (cmd cfg)) :
    (s.startConfigured type cmd).2.For s.config req := by
  unfold startConfigured
  cases hcfg : adhocConfig s.config type with
  | error ec =>
      rintro r hr hsuccess
      obtain rfl := Option.some.inj hr
      exact absurd hsuccess (adhocConfig_ne_success hcfg)
  | ok cfg => exact ⟨type, cfg, htype, hcfg, hdir cfg, hcmd cfg⟩

theorem for_startDeploy (s : RpcServer) (env : Env) (uuid : String) (type : AdhocStorageType)
    (resources : AdhocResources) :
    (s.startDeploy env uuid type resources).2.For s.config
      (.deployAdhocStorage uuid type resources) := by
  unfold startDeploy
  cases hcfg : adhocConfig s.config type with
  | error ec =>
      rintro r hr hsuccess
      obtain rfl := Option.some.inj hr
      exact absurd hsuccess (adhocConfig_ne_success hcfg)
  | ok cfg =>
      simp only
      split
      · rintro r hr
        cases hr
      · split
        · rintro r hr hsuccess
          obtain rfl := Option.some.inj hr
          cases hsuccess
        · exact ⟨type, cfg, rfl, hcfg, rfl, rfl⟩

/-- **A handler stays with its request**: it runs the command that the
    configuration has for it, and answers success only if that exits with status
    0. -/
theorem for_advance {w : Work} (h : w.For s.config req) :
    (s.advance env w).2.For s.config req := by
  cases w with
  | arrived r =>
      obtain rfl : r = req := h
      cases r with
      | ping => exact fun _ _ _ => .inl rfl
      | deployAdhocStorage uuid type resources => exact for_startDeploy s env uuid type resources
      | expandAdhocStorage uuid type resources =>
          exact for_startConfigured rfl (fun _ => rfl) fun _ => rfl
      | shrinkAdhocStorage uuid type resources =>
          exact for_startConfigured rfl (fun _ => rfl) fun _ => rfl
      | terminateAdhocStorage uuid type =>
          exact for_startConfigured rfl (fun _ => rfl) fun _ => rfl
  | create opId adhocDir cmd =>
      unfold advance
      simp only
      split
      · rintro r hr hsuccess
        obtain rfl := Option.some.inj hr
        cases hsuccess
      · exact h
  | run opId adhocDir cmd =>
      rintro r hr hsuccess
      obtain rfl := Option.some.inj hr
      have hexits : ExitsWithZero env cmd := execCode_eq_success_iff.mp hsuccess
      exact .inr ⟨cmd, h, congrArg (fun o => some (cmd, o)) hexits⟩
  | done reply ran => exact h

def HasDir (s : RpcServer) (dir : Path) : Prop := s.fs.stat (dir.namesFrom s.cwd) = some .dir

/-- **Only one handler makes a directory**: the step that does finds none, and leaves
    one behind.  Whether there was one when the handler looked does not matter. -/
theorem hasMade_advance {dir : Path} {w : Work} (h : (s.advance env w).2.HasMade dir) :
    w.HasMade dir ∨ ¬ s.HasDir dir ∧ (s.advance env w).1.HasDir dir := by
  have hconfigured : ∀ type cmd, ¬ (s.startConfigured type cmd).2.HasMade dir := by
    intro type cmd hmade
    unfold startConfigured at hmade
    split at hmade
    · exact hmade
    · cases (hmade : none = some dir)
  cases w with
  | arrived r =>
      cases r with
      | ping => exact absurd h id
      | deployAdhocStorage uuid type resources =>
          have hmade : (s.startDeploy env uuid type resources).2.HasMade dir := h
          unfold startDeploy at hmade
          split at hmade
          · exact absurd hmade id
          · simp only at hmade
            split at hmade
            · exact absurd hmade id
            · split at hmade <;> exact absurd hmade id
      | expandAdhocStorage uuid type resources => exact absurd h (hconfigured _ _)
      | shrinkAdhocStorage uuid type resources => exact absurd h (hconfigured _ _)
      | terminateAdhocStorage uuid type => exact absurd h (hconfigured _ _)
  | create opId adhocDir cmd =>
      right
      unfold advance at h ⊢
      simp only at h ⊢
      split at h
      case isTrue => exact absurd h id
      case isFalse hmade =>
        obtain rfl : adhocDir = dir := Option.some.inj h
        have hmade := Bool.of_not_eq_false hmade
        rw [if_neg (by simp [hmade])]
        exact ⟨Tree.not_stat_of_createDirectories hmade, Tree.stat_createDirectories hmade⟩
  | run opId adhocDir cmd => exact .inl h
  | done reply ran => exact .inl h

theorem HasDir.advance {dir : Path} (h : s.HasDir dir) (env : Env) (w : Work) :
    (s.advance env w).1.HasDir dir := by
  unfold HasDir
  rw [(s.advance_fs env w).2.1]
  exact Tree.stat_sub (s.sub_advance env w) h

/-! ## The steps in a row -/

/-- So many steps of a handler that nobody disturbs. -/
def undisturbed (env : Env) : Nat → RpcServer × Work → RpcServer × Work
  | 0, x => x
  | n + 1, x => undisturbed env n (x.1.advance env x.2)

/-- **Undisturbed, the steps are the handler**: the same server, and the same
    reply. -/
theorem undisturbed_eq_answer (s : RpcServer) (env : Env) (req : Request) :
    ∃ ran, undisturbed env 3 (s, .arrived req)
      = ((s.answer env req).1, .done (s.answer env req).2 ran) := by
  have hconfigured : ∀ type cmd, ∃ ran, undisturbed env 2 (s.startConfigured type cmd)
      = ((s.runConfigured env type cmd).server,
          .done ((s.runConfigured env type cmd).response.map Reply.ofGeneric) ran) := by
    intro type cmd
    unfold startConfigured runConfigured
    cases adhocConfig s.config type with
    | error ec => exact ⟨none, rfl⟩
    | ok cfg => exact ⟨some (cmd cfg, _), rfl⟩
  cases req with
  | ping => exact ⟨none, rfl⟩
  | deployAdhocStorage uuid type resources =>
      show ∃ ran, undisturbed env 2 (s.startDeploy env uuid type resources)
        = ((s.deployAdhocStorage env uuid type resources).server,
            .done (s.deployAdhocStorage env uuid type resources).response ran)
      unfold startDeploy deployAdhocStorage
      cases adhocConfig s.config type with
      | error ec => exact ⟨none, rfl⟩
      | ok cfg =>
          simp only
          cases env.existsThrows with
          | true => exact ⟨none, rfl⟩
          | false =>
              simp only [Bool.false_eq_true, if_false]
              cases s.pathExists (cfg.workingDirectory / ⟨uuid⟩) with
              | true => exact ⟨none, rfl⟩
              | false =>
                  simp only [Bool.false_eq_true, if_false, undisturbed, advance]
                  -- the directory is made in the files as they were
                  have hfs : s.nextRpc.fs = s.fs := rfl
                  have hcwd : s.nextRpc.cwd = s.cwd := rfl
                  rw [hfs, hcwd]
                  cases hmade : (s.fs.createDirectories env.refuses
                    (cfg.workingDirectory / ⟨uuid⟩) s.cwd).2 with
                  | false => exact ⟨none, rfl⟩
                  | true => exact ⟨some (startup cfg uuid resources, _), rfl⟩
  | expandAdhocStorage uuid type resources => exact hconfigured _ _
  | shrinkAdhocStorage uuid type resources => exact hconfigured _ _
  | terminateAdhocStorage uuid type => exact hconfigured _ _

end RpcServer

end ScordCtl

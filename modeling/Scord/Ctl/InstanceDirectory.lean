/-
  Scord.Ctl.InstanceDirectory

  The directory of an adhoc storage instance over runs of `scord-ctl`.  As far as
  its existence goes it tracks the instance: it is there while the instance is
  deployed, and gone after it has been terminated.

  `deploy` makes the directory before it runs the startup command, and leaves it
  behind when the command fails; `terminate` leaves it to the shutdown command.
  So a run keeps track exactly as long as it stays clear of these two.
-/
import Scord.Ctl.RpcServer
import Scord.Lib.StepSystem

namespace ScordCtl

open FileSystem StepSystem
open Scord (AdhocStorageType AdhocResources ErrorCode GenericResponse ResponseWithValue Node)

/-- An instance is known by its uuid, under the working directory of its type. -/
structure Instance where
  workingDirectory : Path
  uuid : String

/-- `working_directory / adhoc_uuid` -/
def Instance.dir (k : Instance) : Path := k.workingDirectory / ⟨k.uuid⟩

/-- A request, and the code of the response to it. -/
abbrev Entry := (Env × Request) × Option ErrorCode

/-- The instance that a configuration gives to a uuid. -/
def AdhocStorageConfig.instanceOf (cfg : AdhocStorageConfig) (uuid : String) : Instance :=
  ⟨cfg.workingDirectory, uuid⟩

/-- A deploy of the instance that was answered success. -/
def Deployed (config : Option ConfigFile) (k : Instance) : Entry → Prop
  | ((_, .deployAdhocStorage uuid type _), ec) =>
      ec = some .success ∧ ∃ cfg, adhocConfig config type = .ok cfg ∧ cfg.instanceOf uuid = k
  | _ => False

/-- A terminate of the instance that was answered success. -/
def Terminated (config : Option ConfigFile) (k : Instance) : Entry → Prop
  | ((_, .terminateAdhocStorage uuid type), ec) =>
      ec = some .success ∧ ∃ cfg, adhocConfig config type = .ok cfg ∧ cfg.instanceOf uuid = k
  | _ => False

namespace RpcServer

variable {s s' : RpcServer} {k : Instance} {env : Env} {uuid : String}
  {type : AdhocStorageType} {resources : AdhocResources} {cfg : AdhocStorageConfig}

def DirExists (s : RpcServer) (k : Instance) : Prop :=
  s.fs.stat (k.dir.namesFrom s.cwd) = some .dir

/-- The directory exists exactly when some deploy of the instance was answered
    success, and no terminate of it since. -/
def Tracks (k : Instance) (w : RpcServer × List Entry) : Prop :=
  w.1.DirExists k ↔ Since (Deployed w.1.config k) (Terminated w.1.config k) w.2

/-- The directory of `k` is made by a deploy, be it on the way to another one. -/
def Makes (s : RpcServer) (env : Env) (uuid : String) (cfg : AdhocStorageConfig)
    (k : Instance) : Prop :=
  ¬ s.DirExists k ∧ (s.created env uuid cfg).1.stat (k.dir.namesFrom s.cwd) = some .dir

/-- A deploy that makes the directory of `k` is one of `k`, reaches the end of
    the path, and its startup command exits with status 0.  A terminate of `k`
    whose shutdown command exits with status 0 finds no directory. -/
def Tidy (k : Instance) (w : RpcServer × List Entry) : Env × Request → Prop
  | (env, .deployAdhocStorage uuid type resources) =>
      ∀ cfg, w.1.Creates env uuid type cfg → w.1.Makes env uuid cfg k →
        cfg.instanceOf uuid = k ∧ (w.1.created env uuid cfg).2 = true ∧
          ExitsWithZero env (startup cfg uuid resources)
  | (env, .terminateAdhocStorage uuid type) =>
      ∀ cfg, adhocConfig w.1.config type = .ok cfg → cfg.instanceOf uuid = k →
        ExitsWithZero env (cfg.shutdownCommand.eval uuid (cfg.workingDirectory / ⟨uuid⟩) []) →
        ¬ w.1.DirExists k
  | _ => True

/-! ## One step -/

theorem logged_step {log : List Entry} {e : Env × Request} {w : RpcServer × List Entry} :
    logged step (s, log) e = some w ↔
      w = ((s.handle e.1 e.2).1, (e, (s.handle e.1 e.2).2) :: log) := by
  rw [logged_eq_some]
  refine ⟨?_, ?_⟩
  · rintro ⟨t, ec, ht, rfl⟩
    obtain ⟨rfl, rfl⟩ := Prod.mk.inj (Option.some.inj ht)
    rfl
  · rintro rfl
    exact ⟨_, _, rfl, rfl⟩

/-- No directory goes away. -/
theorem DirExists.handle (h : s.DirExists k) (env : Env) (req : Request) :
    (s.handle env req).1.DirExists k := by
  unfold DirExists
  rw [(s.handle_config_cwd env req).2]
  have hsame : ∀ {t : RpcServer}, t = s.nextRpc →
      t.fs.stat (k.dir.namesFrom s.cwd) = some .dir := by
    rintro t rfl
    exact h
  -- only a deploy touches the files, and it only adds to them
  cases req with
  | ping => exact hsame rfl
  | deployAdhocStorage uuid type resources =>
      show (s.deployAdhocStorage env uuid type resources).server.fs.stat _ = _
      by_cases hcreates : ∃ cfg, s.Creates env uuid type cfg
      · obtain ⟨cfg, hcfg⟩ := hcreates
        rw [deployAdhocStorage_of_creates hcfg]
        exact Tree.stat_sub (Tree.sub_createDirectories _ _ _ _) h
      · exact hsame (deployAdhocStorage_of_not_creates (not_exists.mp hcreates) resources).1
  | expandAdhocStorage uuid type resources => exact hsame (runConfigured_server s env type _)
  | shrinkAdhocStorage uuid type resources => exact hsame (runConfigured_server s env type _)
  | terminateAdhocStorage uuid type => exact hsame (runConfigured_server s env type _)

/-- A request that is neither a deploy nor a terminate of the instance. -/
theorem tracks_of_nextRpc {log : List Entry} {e : Entry} (hserver : s' = s.nextRpc)
    (hdeployed : ¬ Deployed s.config k e) (hterminated : ¬ Terminated s.config k e)
    (h : Tracks k (s, log)) : Tracks k (s', e :: log) := by
  subst hserver
  unfold Tracks at h ⊢
  rw [since_cons]
  show s.DirExists k ↔ Deployed s.config k e ∨ ¬ Terminated s.config k e ∧ _
  rw [h, or_iff_right hdeployed, and_iff_right hterminated]
  exact Iff.rfl

/-- After a request that is no successful terminate of the instance, either it is
    a successful deploy, or the directory is there only if it was. -/
theorem tracks_cons_iff {log : List Entry} {e : Entry} (hconfig : s'.config = s.config)
    (hkeep : s.DirExists k → s'.DirExists k) (hterminated : ¬ Terminated s.config k e)
    (h : Tracks k (s, log)) :
    Tracks k (s', e :: log) ↔
      (s'.DirExists k → s.DirExists k ∨ Deployed s.config k e) ∧
        (Deployed s.config k e → s'.DirExists k) := by
  unfold Tracks at h ⊢
  rw [since_cons, hconfig]
  show (s'.DirExists k ↔ Deployed s.config k e ∨ _ ∧ _) ↔ _
  rw [← h]
  by_cases hdeployed : Deployed s.config k e
  · simp [hdeployed]
  · simp only [hdeployed, hterminated, not_false_eq_true, true_and, false_or, or_false,
      false_imp_iff, and_true]
    exact ⟨fun hiff => hiff.mp, fun himp => ⟨himp, hkeep⟩⟩

/-- The answer to a deploy that makes its directory. -/
theorem deployed_iff_of_creates (hcfg : s.Creates env uuid type cfg) :
    Deployed s.config k ((env, .deployAdhocStorage uuid type resources),
        (s.handle env (.deployAdhocStorage uuid type resources)).2) ↔
      cfg.instanceOf uuid = k ∧ (s.created env uuid cfg).2 = true ∧
        ExitsWithZero env (startup cfg uuid resources) := by
  have hcode : (s.handle env (.deployAdhocStorage uuid type resources)).2
      = some (if (s.created env uuid cfg).2 then execCode env (startup cfg uuid resources)
          else .adhocDirCreateFailed) := by
    show Option.map _ (s.deployAdhocStorage env uuid type resources).response = _
    rw [deployAdhocStorage_of_creates hcfg]
    rfl
  have hconfig : (∃ cfg', adhocConfig s.config type = .ok cfg' ∧ cfg'.instanceOf uuid = k) ↔
      cfg.instanceOf uuid = k := by
    rw [hcfg.config]
    simp
  show _ = some ErrorCode.success ∧ (∃ cfg', _) ↔ _
  rw [hcode, hconfig, ← execCode_eq_success_iff, Option.some.injEq]
  cases (s.created env uuid cfg).2 with
  | true => simp [and_comm]
  | false => simp

theorem tracks_deploy_iff {log : List Entry} (h : Tracks k (s, log)) :
    Tracks k ((s.handle env (.deployAdhocStorage uuid type resources)).1,
        ((env, .deployAdhocStorage uuid type resources),
          (s.handle env (.deployAdhocStorage uuid type resources)).2) :: log) ↔
      Tidy k (s, log) (env, .deployAdhocStorage uuid type resources) := by
  have hconfig := (s.handle_config_cwd env (.deployAdhocStorage uuid type resources)).1
  have hno : ¬ Terminated s.config k ((env, .deployAdhocStorage uuid type resources),
      (s.handle env (.deployAdhocStorage uuid type resources)).2) := fun h => h
  rw [tracks_cons_iff hconfig (fun hk => hk.handle env _) hno h]
  by_cases hcreates : ∃ cfg, s.Creates env uuid type cfg
  case neg =>
    -- neither the files nor the answer say anything
    have hdeploy := deployAdhocStorage_of_not_creates (not_exists.mp hcreates) resources
    refine iff_of_true ⟨fun hdir => Or.inl ?_, fun hdeployed => ?_⟩ ?_
    · have hserver : (s.handle env (.deployAdhocStorage uuid type resources)).1 = s.nextRpc :=
        hdeploy.1
      rw [hserver] at hdir
      exact hdir
    · exact absurd hdeployed.1 hdeploy.2
    · exact fun cfg hcfg => absurd ⟨cfg, hcfg⟩ hcreates
  case pos =>
    obtain ⟨cfg, hcfg⟩ := hcreates
    -- there is one configuration of the type
    have honly : ∀ cfg', s.Creates env uuid type cfg' → cfg' = cfg := by
      intro cfg' hcfg'
      exact Except.ok.inj (hcfg'.config.symm.trans hcfg.config)
    have hdir : (s.handle env (.deployAdhocStorage uuid type resources)).1.DirExists k ↔
        (s.created env uuid cfg).1.stat (k.dir.namesFrom s.cwd) = some .dir := by
      show (s.deployAdhocStorage env uuid type resources).server.DirExists k ↔ _
      rw [deployAdhocStorage_of_creates hcfg]
      exact Iff.rfl
    rw [hdir, deployed_iff_of_creates hcfg]
    refine ⟨?_, ?_⟩
    · rintro ⟨hnew, -⟩ cfg' hcfg' ⟨hnot, hmade⟩
      obtain rfl := honly cfg' hcfg'
      exact (hnew hmade).resolve_left hnot
    · intro htidy
      refine ⟨fun hmade => ?_, ?_⟩
      · by_cases hold : s.DirExists k
        · exact Or.inl hold
        · exact Or.inr (htidy cfg hcfg ⟨hold, hmade⟩)
      · rintro ⟨rfl, hmade, -⟩
        exact Tree.stat_createDirectories hmade

theorem tracks_terminate_iff {log : List Entry} (h : Tracks k (s, log)) :
    Tracks k ((s.handle env (.terminateAdhocStorage uuid type)).1,
        ((env, .terminateAdhocStorage uuid type),
          (s.handle env (.terminateAdhocStorage uuid type)).2) :: log) ↔
      Tidy k (s, log) (env, .terminateAdhocStorage uuid type) := by
  have hserver : (s.handle env (.terminateAdhocStorage uuid type)).1 = s.nextRpc :=
    runConfigured_server s env type _
  have hsuccess : (s.handle env (.terminateAdhocStorage uuid type)).2 = some .success ↔ _ :=
    runConfigured_success_iff
  have htracks : s.DirExists k ↔ Since (Deployed s.config k) (Terminated s.config k) log := h
  unfold Tracks
  rw [since_cons, hserver]
  show (s.DirExists k ↔ False ∨ ¬ (_ ∧ _) ∧ Since (Deployed s.config k) (Terminated s.config k) log)
    ↔ _
  -- the files are as before, so only the log counts
  rw [← htracks, false_or, hsuccess]
  refine ⟨?_, ?_⟩
  · intro hiff cfg hcfg hk hexits hdir
    exact (hiff.mp hdir).1 ⟨⟨cfg, hcfg, hexits⟩, cfg, hcfg, hk⟩
  · intro htidy
    refine ⟨fun hdir => ⟨?_, hdir⟩, fun hboth => hboth.2⟩
    rintro ⟨⟨cfg, hcfg, hexits⟩, cfg', hcfg', hk⟩
    obtain rfl := Except.ok.inj (hcfg.symm.trans hcfg')
    exact htidy cfg hcfg hk hexits hdir

theorem tracks_step_iff {w w' : RpcServer × List Entry} {e : Env × Request} (h : Tracks k w)
    (hs : logged step w e = some w') : Tracks k w' ↔ Tidy k w e := by
  obtain ⟨s, log⟩ := w
  obtain ⟨env, req⟩ := e
  obtain rfl := logged_step.mp hs
  cases req with
  | ping => exact iff_of_true (tracks_of_nextRpc rfl (fun h => h) (fun h => h) h) trivial
  | deployAdhocStorage uuid type resources => exact tracks_deploy_iff h
  | expandAdhocStorage uuid type resources =>
      refine iff_of_true (tracks_of_nextRpc ?_ (fun h => h) (fun h => h) h) trivial
      exact runConfigured_server s env type _
  | shrinkAdhocStorage uuid type resources =>
      refine iff_of_true (tracks_of_nextRpc ?_ (fun h => h) (fun h => h) h) trivial
      exact runConfigured_server s env type _
  | terminateAdhocStorage uuid type => exact tracks_terminate_iff h

/-- An instance whose directory is there cannot be deployed, be it left behind. -/
theorem deploy_refused_of_dirExists (hcfg : adhocConfig s.config type = .ok cfg)
    (hknown : env.existsThrows = false) (hdir : s.DirExists (cfg.instanceOf uuid)) :
    (s.handle env (.deployAdhocStorage uuid type resources)).2 = some .adhocDirExists := by
  have hexists : s.pathExists (cfg.workingDirectory / ⟨uuid⟩) = true := by
    show (s.fs.stat ((cfg.instanceOf uuid).dir.namesFrom s.cwd)).isSome = true
    rw [show s.fs.stat _ = some .dir from hdir]
    rfl
  show Option.map _ (s.deployAdhocStorage env uuid type resources).response = _
  unfold deployAdhocStorage
  simp [hcfg, hknown, hexists]

/-! ## Runs -/

/-- **The directory tracks the instance** in a run from where it does not exist
    exactly when the run is tidy. -/
theorem directory_tracks_iff {s : RpcServer} {k : Instance} (hnew : ¬ s.DirExists k)
    (es : List (Env × Request)) :
    Always (logged step) (Tracks k) (s, []) es ↔ StepsMeet (logged step) (Tidy k) (s, []) es :=
  always_iff (I := fun _ => True) (fun _ _ _ _ _ => trivial)
    (fun _ _ _ _ h hs => tracks_step_iff h hs) es (s, []) trivial
    (iff_of_false hnew not_since_nil)

/-- A node without files, where only GekkoFS is configured. -/
def sampleConfig : AdhocStorageConfig where
  workingDirectory := ⟨"/gekkofs"⟩
  startupCommand := ⟨"/bin/gekkofs.sh start --workdir \x7bADHOC_DIRECTORY\x7d", none⟩
  shutdownCommand := ⟨"/bin/gekkofs.sh stop --workdir \x7bADHOC_DIRECTORY\x7d", none⟩
  expandCommand := ⟨"/bin/gekkofs.sh expand --hosts \x7bADHOC_NODES\x7d", none⟩
  shrinkCommand := ⟨"/bin/gekkofs.sh shrink --hosts \x7bADHOC_NODES\x7d", none⟩

def sampleServer : RpcServer where
  config := some ⟨[(.gekkofs, sampleConfig)]⟩
  cwd := []
  rpcCount := 0
  fs := ⟨[], List.nodup_nil, fun _ h => absurd h List.not_mem_nil⟩

/-- Every command exits with this status. -/
def exits (status : UInt8) : Env where
  existsThrows := false
  refuses _ := false
  child _ _ := .exited status

theorem exitsWithZero_exits {status : UInt8} {cmd : Command} :
    ExitsWithZero (exits status) cmd ↔ status = 0 := by
  show ChildOutcome.exited status = .exited 0 ↔ _
  rw [ChildOutcome.exited.injEq]

theorem sample_namesFrom : (sampleConfig.instanceOf "u").dir.namesFrom [] = ["gekkofs", "u"] := by
  decide

theorem not_dirExists_sample : ¬ sampleServer.DirExists (sampleConfig.instanceOf "u") := by
  show ¬ sampleServer.fs.stat ((sampleConfig.instanceOf "u").dir.namesFrom []) = some .dir
  rw [sample_namesFrom]
  decide

theorem created_sample (status : UInt8) :
    (sampleServer.created (exits status) "u" sampleConfig).2 = true := by
  have hbase : (sampleConfig.instanceOf "u").dir.base [] = [] := by decide
  have hnames : (sampleConfig.instanceOf "u").dir.names = ["gekkofs", "u"] := by decide
  show (Tree.createDirectoriesFrom (fun _ => false) sampleServer.fs
    ((sampleConfig.instanceOf "u").dir.base []) false
    (sampleConfig.instanceOf "u").dir.names).2 = true
  rw [hbase, hnames]
  decide +kernel

/-- A deploy whose command succeeds makes the directory, and a failing terminate
    leaves it. -/
theorem directory_tracks_iff_sample :
    ¬ sampleServer.DirExists (sampleConfig.instanceOf "u") ∧
      Always (logged step) (Tracks (sampleConfig.instanceOf "u")) (sampleServer, [])
        [(exits 0, .deployAdhocStorage "u" .gekkofs ⟨[]⟩),
          (exits 1, .terminateAdhocStorage "u" .gekkofs)] := by
  refine ⟨not_dirExists_sample, (directory_tracks_iff not_dirExists_sample _).mpr ?_⟩
  refine fun w _ => ⟨fun cfg hcfg _ => ?_, fun w' _ => ⟨fun cfg _ _ hexits => ?_, trivial⟩⟩
  · obtain rfl : sampleConfig = cfg := Except.ok.inj hcfg.config
    exact ⟨rfl, created_sample 0, rfl⟩
  · exact absurd (exitsWithZero_exits.mp hexits) (by decide)

/-- The startup command exits with status 1: its directory stays behind. -/
theorem not_tracks_failed_deploy :
    ¬ Always (logged step) (Tracks (sampleConfig.instanceOf "u")) (sampleServer, [])
      [(exits 1, .deployAdhocStorage "u" .gekkofs ⟨[]⟩)] := by
  intro hall
  obtain ⟨w, hw⟩ : ∃ w, logged step (sampleServer, [])
      (exits 1, .deployAdhocStorage "u" .gekkofs ⟨[]⟩) = some w := ⟨_, rfl⟩
  have hinit : Tracks (sampleConfig.instanceOf "u") (sampleServer, []) :=
    iff_of_false not_dirExists_sample not_since_nil
  -- the deploy makes the directory, so it would have to be tidy
  have htidy := (tracks_step_iff hinit hw).mp (hall.2 w hw)
  have hcreates : sampleServer.Creates (exits 1) "u" .gekkofs sampleConfig := by
    refine ⟨rfl, rfl, ?_⟩
    show (sampleServer.fs.stat ((sampleConfig.instanceOf "u").dir.namesFrom [])).isSome = false
    rw [sample_namesFrom]
    decide
  have hmakes : sampleServer.Makes (exits 1) "u" sampleConfig (sampleConfig.instanceOf "u") :=
    ⟨not_dirExists_sample, Tree.stat_createDirectories (created_sample 1)⟩
  have hexits := (htidy sampleConfig hcreates hmakes).2.2
  exact absurd (exitsWithZero_exits.mp hexits) (by decide)

end RpcServer

end ScordCtl

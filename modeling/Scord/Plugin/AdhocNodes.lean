/-
  Scord.Plugin.AdhocNodes

  How many nodes of a job its adhoc storage gets.  The number goes from the
  command line through a global variable, whose value is 0 until an option sets
  it, into the resources that the registration creates.
-/
import Scord.Plugin.CleanUp
import Scord.Plugin.OptionRuns

namespace Scord.Plugin

open ExitSteps StepSystem
open ExceptLoop (bind_eq_ok)

variable {H : Type}

/-! ## From the variables to the registration -/

/-- What an array of routes holds; an array that was freed holds nothing at all. -/
def RoutePtr.Holds : RoutePtr → List DatasetRoute → Prop
  | .null, routes => routes = []
  | .live array, routes =>
      List.Forall₂ (fun r route => DatasetRoute.ofAdm r = .ok route) array routes
  | .freed, _ => False

/-- The options that the registration reads from the variables.  Nothing sets
    `adhoc_walltime`. -/
structure Globals.Gives (g : Globals) (o : Options) : Prop where
  adhocNnodes : o.adhocNnodes = g.adhocNnodes
  adhocWalltime : o.adhocWalltime = 0
  adhocMode : o.adhocMode = g.adhocMode
  adhocType : o.adhocType = g.adhocType
  inputDatasets : (g.datasets .input).ptr.Holds o.inputDatasets
  outputDatasets : (g.datasets .output).ptr.Holds o.outputDatasets
  expectedOutputDatasets : (g.datasets .expectedOutput).ptr.Holds o.expectedOutputDatasets
  limit : o.limit = g.limit

/-! ## The number that was asked for -/

/-- `--adm-adhoc-nodes` was given. -/
def NnodesGiven (log : UseLog) : Prop := ∃ e ∈ log, e.1.1 = .nnodes

/-- The latest `--adm-adhoc-nodes` asks for `m`. -/
def NnodesAsked (log : UseLog) (m : Int) : Prop :=
  Since (fun e => e.1.1 = .nnodes ∧ Strtol.Denotes 0 e.1.2.toList m)
    (fun e => e.1.1 = .nnodes) log

/-- The nodes of the adhoc storage are as many of the first nodes of the job as
    were asked for, or else all of them, and there is at least one. -/
structure NodesFollow (log : UseLog) (nodelist nodes : List Node) : Prop where
  given : ∀ m, NnodesAsked log m → nodes = nodelist.take (min m nodelist.length).toNat
  absent : ¬ NnodesGiven log → nodes = nodelist
  nonempty : nodes ≠ []

def AllAccepted (log : UseLog) : Prop := ∀ e ∈ log, e.2 = 0

/-- After options that were all accepted, `adhoc_nnodes` is what the latest
    `--adm-adhoc-nodes` asks for, and its default without one. -/
structure NnodesInv (s : Globals × UseLog) : Prop where
  asked : ∀ m, NnodesAsked s.2 m → s.1.adhocNnodes = m
  positive : NnodesGiven s.2 → 0 < s.1.adhocNnodes
  default : ¬ NnodesGiven s.2 → s.1.adhocNnodes = 0

theorem nnodesGiven_cons {e : Use × Int} {log : UseLog} :
    NnodesGiven (e :: log) ↔ e.1.1 = .nnodes ∨ NnodesGiven log :=
  List.exists_mem_cons_iff ..

theorem nnodesInv_start : NnodesInv (Globals.start, []) where
  asked _ h := absurd h not_since_nil
  positive h := by
    obtain ⟨e, he, -⟩ := h
    exact absurd he List.not_mem_nil
  default _ := rfl

/-- The number of a text that is accepted. -/
theorem positiveNumber_of_accepted {optarg : String} (hrc : (positiveNumber optarg).2 = 0) :
    0 < (positiveNumber optarg).1 ∧
      ∀ m, Strtol.Denotes 0 optarg.toList m → (positiveNumber optarg).1 = m := by
  rcases positiveNumber_cases optarg with ⟨-, v, hv, hrange, hpos⟩ | ⟨hbad, -⟩
  · obtain ⟨herange, hmoved, hrest, hvalue⟩ := Strtol.strtol_checked_iff.mpr ⟨hv, hrange⟩
    have hnumber : (positiveNumber optarg).1 = v := hvalue
    refine ⟨hnumber ▸ hpos, fun m hm => ?_⟩
    -- it is read as `m` too
    rw [Strtol.strtol_of_denotes hm] at herange
    have hrangem : Strtol.inRange m = true := by simpa using herange
    exact (Strtol.strtol_checked_iff.mpr ⟨hm, hrangem⟩).2.2.2
  · rw [hbad] at hrc
    cases hrc

section Runs

variable {sctx : SpankContext} {s s' : Globals × UseLog} {u : Use}

theorem NnodesInv.step (hctx : sctx.takesOptions) (hi : NnodesInv s)
    (hs : useStep sctx s u = some s') (haccepted : AllAccepted s'.2) : NnodesInv s' := by
  obtain ⟨tag, optarg⟩ := u
  obtain ⟨g', rc, hopts, rfl⟩ := useStep_eq_some.mp hs
  have hrc : rc = 0 := haccepted _ List.mem_cons_self
  by_cases htag : tag = .nnodes
  · subst htag
    rw [processOpts_of_takesOptions hctx] at hopts
    obtain ⟨rfl, rfl⟩ := Prod.mk.inj (Option.some.inj hopts)
    obtain ⟨hpos, hasked⟩ := positiveNumber_of_accepted hrc
    refine ⟨fun m hm => ?_, fun _ => hpos, fun hnot => ?_⟩
    · rcases since_cons.mp hm with ⟨-, hdenotes⟩ | ⟨hnot, -⟩
      · exact hasked m hdenotes
      · exact absurd rfl hnot
    · exact absurd (nnodesGiven_cons.mpr (Or.inl rfl)) hnot
  · -- any other option leaves the number alone
    have hfield : Field.nnodes ≠ tag.field := by
      intro hfield
      cases tag <;> first | exact htag rfl | cases hfield
    have hsame : g'.adhocNnodes = s.1.adhocNnodes := processOpts_frame hctx hopts hfield
    have hgiven : NnodesGiven (((tag, optarg), rc) :: s.2) ↔ NnodesGiven s.2 := by
      rw [nnodesGiven_cons]
      exact or_iff_right htag
    refine ⟨fun m hm => ?_, fun h => ?_, fun h => ?_⟩
    · rcases since_cons.mp hm with ⟨htag', -⟩ | ⟨-, hm⟩
      · exact absurd htag' htag
      · exact hsame.trans (hi.asked m hm)
    · exact hsame ▸ hi.positive (hgiven.mp h)
    · exact hsame.trans (hi.default (mt hgiven.mpr h))

theorem nnodesInv_of_reachable (hctx : sctx.takesOptions)
    (hreach : Reachable (useStep sctx) (Globals.start, []) s) (haccepted : AllAccepted s.2) :
    NnodesInv s := by
  refine hreach.invariant (I := fun s => AllAccepted s.2 → NnodesInv s)
    (fun _ => nnodesInv_start) (fun t u t' hi ht haccepted' => ?_) haccepted
  have hearlier : AllAccepted t.2 := by
    obtain ⟨g', rc, -, rfl⟩ := useStep_eq_some.mp ht
    exact fun e he => haccepted' e (List.mem_cons_of_mem _ he)
  exact (hi hearlier).step hctx ht haccepted'

end Runs

/-! ## What the registration makes of it -/

section Register

variable (o : Options) (env : RegisterEnv H)

/-- The resources, if there are any, have the nodes that the options give. -/
def HasAdhocNodes (p : Process H) : Prop :=
  ∀ res, p.handles.adhocResources = some res → res.nodes = adhocNodes o

/-- A step that keeps the resources. -/
theorem triple_hasAdhocNodes {f : Step Fault (Process H)}
    (hf : ∀ {p p' goesOn}, f p = .ok (p', goesOn) →
      p'.handles.adhocResources = p.handles.adhocResources) :
    Triple (HasAdhocNodes o) f (HasAdhocNodes o) (HasAdhocNodes o) := by
  refine .of_either (fun h hp res hres => ?_) fun _ => id
  exact h res ((hf hp).symm.trans hres)

theorem triple_createAdhocResources_nodes :
    Triple (HasAdhocNodes (H := H) o) (createAdhocResources o env) (HasAdhocNodes o)
      (HasAdhocNodes o) := by
  refine .of_either (fun _ hp res hres => ?_) fun _ => id
  cases hp
  obtain ⟨-, hres⟩ := Option.ite_none_right_eq_some.mp hres
  rw [← Option.some.inj hres]

theorem registerAdhocStorage_adhocResources {p p' : Process H} {goesOn : Bool}
    (hp : registerAdhocStorage o env p = .ok (p', goesOn)) :
    p'.handles.adhocResources = p.handles.adhocResources := by
  obtain ⟨⟨w, rv⟩, -, hp⟩ := bind_eq_ok.mp hp
  cases rv <;> cases hp <;> rfl

theorem registerJob_adhocResources {p p' : Process H} {goesOn : Bool}
    (hp : registerJob o env p = .ok (p', goesOn)) :
    p'.handles.adhocResources = p.handles.adhocResources := by
  obtain ⟨⟨w, rv⟩, -, hp⟩ := bind_eq_ok.mp hp
  cases rv <;> cases hp <;> rfl

theorem deployAdhocStorage_adhocResources {p p' : Process H} {goesOn : Bool}
    (hp : deployAdhocStorage env p = .ok (p', goesOn)) :
    p'.handles.adhocResources = p.handles.adhocResources := by
  obtain ⟨r, -, hp⟩ := bind_eq_ok.mp hp
  cases hp
  rfl

theorem stageIn_adhocResources {p p' : Process H} {goesOn : Bool}
    (hp : stageIn o env p = .ok (p', goesOn)) :
    p'.handles.adhocResources = p.handles.adhocResources := by
  unfold stageIn at hp
  split at hp
  · cases hp
    rfl
  · obtain ⟨reqs, -, hp⟩ := bind_eq_ok.mp hp
    obtain ⟨datasets, -, hp⟩ := bind_eq_ok.mp hp
    obtain ⟨r, -, hp⟩ := bind_eq_ok.mp hp
    cases hp
    rfl

/-- **Wherever the registration stops**, its resources have those nodes. -/
theorem hasAdhocNodes_of_scordRegisterJob {logger : Bool} {s : Server H} {p : Process H} {rc : Int}
    (h : scordRegisterJob o env (Process.start logger s) = .ok (p, rc)) : HasAdhocNodes o p := by
  have hstart : HasAdhocNodes o (Process.start logger s) := fun _ hres => (nomatch hres)
  unfold scordRegisterJob at h
  split at h
  case h_1 =>
    cases h
    exact hstart
  case h_2 ctlAddress _ =>
    obtain ⟨⟨q, goesOn⟩, hseq, h⟩ := bind_eq_ok.mp h
    cases h
    -- one step of these creates the resources, and the others keep them
    have htriple : Triple (HasAdhocNodes o) (seq (registerSteps o env ctlAddress))
        (HasAdhocNodes o) (HasAdhocNodes o) :=
      (triple_hasAdhocNodes o (f := createServer o env) fun hp => by cases hp; rfl).cons <|
      (triple_hasAdhocNodes o (f := checkNodecount o) fun hp => by cases hp; rfl).cons <|
      (triple_hasAdhocNodes o (f := createJobResources o env) fun hp => by cases hp; rfl).cons <|
      (triple_createAdhocResources_nodes o env).cons <|
      (triple_hasAdhocNodes o (f := createAdhocContext o env ctlAddress)
        fun hp => by cases hp; rfl).cons <|
      (triple_hasAdhocNodes o (registerAdhocStorage_adhocResources o env)).cons <|
      (triple_hasAdhocNodes o (f := createRequirements o env) fun hp => by cases hp; rfl).cons <|
      (triple_hasAdhocNodes o (registerJob_adhocResources o env)).cons <|
      (triple_hasAdhocNodes o (deployAdhocStorage_adhocResources env)).cons <|
      (triple_hasAdhocNodes o (f := setEnvironment o) fun hp => by cases hp; rfl).cons <|
      (triple_hasAdhocNodes o (stageIn_adhocResources o env)).cons <|
      Triple.nil fun _ hq => hq
    exact htriple.either hstart hseq

/-- Every object is there but the context of the adhoc storage, so that nothing is
    asked of the server. -/
def noContextEnv : RegisterEnv H where
  resolveHost := some
  allocates object := object != .adhocContext
  registerAdhoc := Call.lost
  registerJob := Call.lost
  deploy := Call.lost
  stageIn := Call.lost
  stageInPolls := []

theorem scordRegisterJob_noContextEnv (hnodes : o.nodelist ≠ []) (logger : Bool) (s : Server H) :
    ∃ p, scordRegisterJob o noContextEnv (Process.start logger s) = .ok (p, -1) ∧
      p.handles.adhocResources = some ⟨adhocNodes o⟩ := by
  obtain ⟨node, rest, hnodelist⟩ := List.exists_cons_of_ne_nil hnodes
  have hctl : ∃ address, margoAddressCreate some o.scordctlInfo o.nodelist = some address := by
    rw [hnodelist]
    exact ⟨_, rfl⟩
  have hstager : ∃ address, margoAddressCreate some o.cargoInfo o.nodelist = some address := by
    rw [hnodelist]
    exact ⟨_, rfl⟩
  obtain ⟨ctlAddress, hctl⟩ := hctl
  obtain ⟨stagerAddress, hstager⟩ := hstager
  have hcount : (!o.nodelist.isEmpty) = true := by
    rw [hnodelist]
    rfl
  let handles : Handles :=
    { scordServer := some ⟨o.scordInfo.proto, o.scordInfo.addr⟩
      jobResources := some ⟨o.nodelist⟩
      adhocResources := some ⟨adhocNodes o⟩ }
  have hexit : seq (registerSteps o noContextEnv ctlAddress) (Process.start logger s)
      = .ok ({ Process.start logger s with handles := handles }, false) := by
    simp [registerSteps, seq, createServer, createJobResources, createAdhocResources,
      createAdhocContext, create, checkNodecount, noContextEnv, hcount, hstager, Process.start,
      handles]
  refine ⟨{ Process.start logger s with handles := handles }, ?_, rfl⟩
  unfold scordRegisterJob
  rw [show (noContextEnv (H := H)).resolveHost = some from rfl, hctl]
  exact bind_eq_ok.mpr ⟨_, hexit, rfl⟩

end Register

section Follow

variable {sctx : SpankContext} {s : Globals × UseLog} {o : Options}

/-- A number that was asked for is followed. -/
theorem NnodesInv.nodesFollow (hi : NnodesInv s) (ho : s.1.Gives o) (hnodes : o.nodelist ≠ [])
    (hgiven : NnodesGiven s.2) : NodesFollow s.2 o.nodelist (adhocNodes o) := by
  have hpos : 0 < o.adhocNnodes := ho.adhocNnodes ▸ hi.positive hgiven
  have hlength : 0 < o.nodelist.length := List.length_pos_of_ne_nil hnodes
  have hcount : adhocNodes o
      = o.nodelist.take (min o.adhocNnodes o.nodelist.length).toNat := by
    unfold adhocNodes
    congr 1
    split <;> omega
  refine ⟨fun m hm => ?_, fun hnot => absurd hgiven hnot, ?_⟩
  · rw [hcount, ho.adhocNnodes, hi.asked m hm]
  · rw [hcount]
    refine List.ne_nil_of_length_pos ?_
    rw [List.length_take]
    omega

/-- Without the option there is none. -/
theorem NnodesInv.adhocNodes_eq_nil (hi : NnodesInv s) (ho : s.1.Gives o)
    (hnodes : o.nodelist ≠ []) (hnot : ¬ NnodesGiven s.2) : adhocNodes o = [] := by
  have hzero : o.adhocNnodes = 0 := ho.adhocNnodes.trans (hi.default hnot)
  have hlength : 0 < o.nodelist.length := List.length_pos_of_ne_nil hnodes
  unfold adhocNodes
  rw [hzero, if_pos (by omega)]
  rfl

/-- **The adhoc storage gets the nodes that the options say exactly when they give
    a number.** -/
theorem nodesFollow_iff (hctx : sctx.takesOptions)
    (hreach : Reachable (useStep sctx) (Globals.start, []) s) (haccepted : AllAccepted s.2)
    (ho : s.1.Gives o) (hnodes : o.nodelist ≠ []) (logger : Bool) (server : Server H) :
    (∀ env p rc res, scordRegisterJob o env (Process.start logger server) = .ok (p, rc) →
      p.handles.adhocResources = some res → NodesFollow s.2 o.nodelist res.nodes) ↔
    NnodesGiven s.2 := by
  have hi : NnodesInv s := nnodesInv_of_reachable hctx hreach haccepted
  refine ⟨fun h => ?_, fun hgiven env p rc res hp hres => ?_⟩
  · by_cases hgiven : NnodesGiven s.2
    · exact hgiven
    · obtain ⟨p, hp, hres⟩ := scordRegisterJob_noContextEnv o hnodes logger server
      exact absurd (hi.adhocNodes_eq_nil ho hnodes hgiven) (h _ p _ _ hp hres).nonempty
  · rw [hasAdhocNodes_of_scordRegisterJob o env hp res hres]
    exact hi.nodesFollow ho hnodes hgiven

end Follow

/-- A job on two nodes that asks for as many nodes as given. -/
def sampleNnodes (adhocNnodes : Int) : Options :=
  { sampleOptions with
    nodelist := [⟨"n0", .regular⟩, ⟨"n1", .regular⟩]
    adhocNnodes := adhocNnodes
    adhocWalltime := 0 }

/-- `--adm-adhoc-nodes 1` -/
theorem nodesFollow_sample :
    NnodesGiven [((.nnodes, "1"), 0)] ∧ ∀ env p rc res,
      scordRegisterJob (sampleNnodes 1) env (Process.start false (Server.init true : Server Unit))
        = .ok (p, rc) → p.handles.adhocResources = some res →
      NodesFollow [((.nnodes, "1"), 0)] (sampleNnodes 1).nodelist res.nodes := by
  have hreach : Reachable (useStep .ctxRemote) (Globals.start, [])
      ({ Globals.start with scordFlag := true, adhocNnodes := 1 }, [((.nnodes, "1"), 0)]) :=
    ⟨[(.nnodes, "1")], rfl⟩
  have haccepted : AllAccepted [((.nnodes, "1"), 0)] := by
    intro e he
    rw [List.mem_singleton.mp he]
  have hgives : Globals.Gives { Globals.start with scordFlag := true, adhocNnodes := 1 }
      (sampleNnodes 1) := ⟨rfl, rfl, rfl, rfl, rfl, rfl, rfl, rfl⟩
  have hgiven : NnodesGiven [((.nnodes, "1"), 0)] := ⟨_, List.mem_singleton_self _, rfl⟩
  exact ⟨hgiven, (nodesFollow_iff (Or.inr (Or.inr rfl)) hreach haccepted hgives
    (List.cons_ne_nil _ _) false (Server.init true)).mpr hgiven⟩

/-- `--adm-adhoc gekkofs` on its own: the adhoc storage gets no node. -/
theorem not_nodesFollow_default :
    ∃ s, Reachable (useStep .ctxRemote) (Globals.start, []) s ∧ AllAccepted s.2 ∧
      s.1.Gives (sampleNnodes 0) ∧
      ∃ p res, scordRegisterJob (sampleNnodes 0) (sampleRegisterEnv Call.answered)
          (Process.start false (Server.init true)) = .ok (p, 0) ∧
        p.handles.adhocResources = some res ∧
        ¬ NodesFollow s.2 (sampleNnodes 0).nodelist res.nodes := by
  refine ⟨({ Globals.start with scordFlag := true }, [((.adhocType, "gekkofs"), 0)]),
    ⟨[(.adhocType, "gekkofs")], rfl⟩, fun e he => ?_, ⟨rfl, rfl, rfl, rfl, rfl, rfl, rfl, rfl⟩,
    _, ⟨[]⟩, rfl, rfl, fun h => h.nonempty rfl⟩
  rw [List.mem_singleton.mp he]

end Scord.Plugin

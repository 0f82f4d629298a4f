/-
  Scord.CApi.AdhocView

  The conversions of an adhoc storage to its C view (`operator
  ADM_adhoc_storage_t`) and back.  The C view has the type of every node; the
  loop that reads the nodes of an adhoc storage does not, while the loop that
  reads the nodes of a job does.
-/
import Mathlib.Data.List.TakeWhile
import Scord.CApi.Types

namespace Scord

open CMemory
open ExceptLoop (bind_eq_ok)

/-! ## The C view -/

/-- What C reads of `s.c_str()`: the bytes in front of the first NUL. -/
def cStr (s : String) : String := String.ofList (s.toList.takeWhile fun c => c ≠ '\x00')

/-- `ADM_node_create` with a hostname that is not null. -/
def admNodeCreate (hostname : String) (type : NodeType) : AdmNode := ⟨some hostname, type⟩

/-- `ADM_node_copy` into a node that is not null. -/
def admNodeCopy (src : Option AdmNode) : Option AdmNode :=
  src.map fun src => { nHostname := src.nHostname, nType := src.nType }

/-- `ADM_node_list_create`: null if a node is. -/
def admNodeListCreate (nodes : List (Option AdmNode)) (length : Nat) :
    Result (Option AdmNodeList) := do
  let copies ← collectNonNull (fun i => (readAt nodes i).map admNodeCopy) length
  return copies.map fun lNodes => ⟨lNodes, length⟩

/-- `ADM_adhoc_resources_create`: null if there is no node list. -/
def admAdhocResourcesCreate (nodes : List (Option AdmNode)) (nodesLen : Nat) :
    Result (Option AdmAdhocResources) := do
  let nodesList ← admNodeListCreate nodes nodesLen
  return nodesList.map fun nodesList => ⟨some nodesList⟩

/-- `ADM_adhoc_context_create`: null without one of the addresses. -/
def admAdhocContextCreate (ctlAddress stagerAddress : Option String) (execMode : ExecutionMode)
    (accessType : AccessType) (walltime : UInt32) (shouldFlush : Bool) :
    Option AdmAdhocContext :=
  match ctlAddress, stagerAddress with
  | some ctlAddress, some stagerAddress =>
      some ⟨some ctlAddress, some stagerAddress, execMode, accessType, walltime, shouldFlush⟩
  | _, _ => none

/-- `adhoc_storage::resources::operator ADM_adhoc_resources_t` -/
def AdhocResources.toAdm (r : AdhocResources) : Result (Option AdmAdhocResources) :=
  let tmp := r.nodes.map fun n => some (admNodeCreate (cStr n.hostname) n.nodeType)
  admAdhocResourcesCreate tmp tmp.length

/-- `adhoc_storage::ctx::operator ADM_adhoc_context_t` -/
def AdhocCtx.toAdm (c : AdhocCtx) : Option AdmAdhocContext :=
  admAdhocContextCreate (some (cStr c.controllerAddress)) (some (cStr c.dataStagerAddress))
    c.execMode c.accessType c.walltime c.shouldFlush

/-- `adhoc_storage::operator ADM_adhoc_storage_t` -/
def AdhocStorage.toAdm (s : AdhocStorage) : Result (Option AdmAdhocStorage) := do
  let resources ← s.resources.toAdm
  return admAdhocStorageCreate (some (cStr s.name)) (some s.type) s.id s.context.toAdm resources

/-- `adhoc_storage{static_cast<ADM_adhoc_storage_t>(s)}` -/
def AdhocStorage.throughAdm (s : AdhocStorage) : Result AdhocStorage := do
  let view ← s.toAdm
  let st ← deref view
  AdhocStorage.ofAdm st

/-! ## The sibling of the loop over the nodes -/

structure AdmJobResources where
  rNodes : Option AdmNodeList
deriving DecidableEq, Repr

/-- `emplace_back(node.n_hostname, node.n_type)` -/
def Node.ofAdm (node : AdmNode) : Result Node := do
  let hostname ← deref node.nHostname
  return ⟨hostname, node.nType⟩

/-- `job::resources(ADM_job_resources_t)` -/
def JobResources.ofAdm (res : Option AdmJobResources) : Result JobResources := do
  let res ← deref res
  let rNodes ← deref res.rNodes
  let nodes ← collect (fun i => readAt rNodes.lNodes i >>= Node.ofAdm) rNodes.lLength
  return ⟨nodes⟩

/-! ## Strings without NUL -/

def NoNul (s : String) : Prop := '\x00' ∉ s.toList

instance (s : String) : Decidable (NoNul s) := inferInstanceAs (Decidable ('\x00' ∉ s.toList))

/-- No string of the adhoc storage contains a NUL. -/
structure AdhocStorage.NoNul (s : AdhocStorage) : Prop where
  name : Scord.NoNul s.name
  controllerAddress : Scord.NoNul s.context.controllerAddress
  dataStagerAddress : Scord.NoNul s.context.dataStagerAddress
  hostnames : ∀ n ∈ s.resources.nodes, Scord.NoNul n.hostname

theorem NoNul.cStr_eq {s : String} (h : NoNul s) : cStr s = s := by
  have hall : s.toList.takeWhile (fun c => c ≠ '\x00') = s.toList := by
    rw [List.takeWhile_eq_self_iff]
    intro c hc
    apply decide_eq_true
    rintro rfl
    exact h hc
  unfold cStr
  rw [hall, String.ofList_toList]

/-! ## Step by step -/

/-- A node, as C has it. -/
def admNode (n : Node) : AdmNode := ⟨some n.hostname, n.nodeType⟩

theorem admNodeListCreate_map (nodes : List Node) :
    admNodeListCreate (nodes.map fun n => some (admNode n)) nodes.length
      = .ok (some ⟨nodes.map admNode, nodes.length⟩) := by
  have hlength : nodes.length = (nodes.map admNode).length := by simp
  have hcopies : collectNonNull
      (fun i => (readAt (nodes.map fun n => some (admNode n)) i).map admNodeCopy) nodes.length
        = .ok (some (nodes.map admNode)) := by
    rw [hlength]
    apply collectNonNull_of_some
    intro i node hnode
    rw [List.getElem?_map] at hnode
    obtain ⟨n, hn, rfl⟩ := Option.map_eq_some_iff.mp hnode
    have hread : readAt (nodes.map fun n => some (admNode n)) i = .ok (some (admNode n)) := by
      rw [readAt_eq_ok, List.getElem?_map, hn]
      rfl
    rw [hread]
    rfl
  unfold admNodeListCreate
  rw [hcopies]
  rfl

/-- The C view of the resources has all nodes, with their types. -/
theorem AdhocResources.toAdm_eq {r : AdhocResources} (h : ∀ n ∈ r.nodes, NoNul n.hostname) :
    r.toAdm = .ok (some ⟨some ⟨r.nodes.map admNode, r.nodes.length⟩⟩) := by
  have htmp : (r.nodes.map fun n => some (admNodeCreate (cStr n.hostname) n.nodeType))
      = r.nodes.map fun n => some (admNode n) := by
    apply List.map_congr_left
    intro n hn
    rw [(h n hn).cStr_eq]
    rfl
  unfold AdhocResources.toAdm admAdhocResourcesCreate
  simp only [htmp, List.length_map, admNodeListCreate_map]
  rfl

/-- A loop over the node list, with a conversion that does not fault. -/
theorem collect_admNode {convert : AdmNode → Result Node} {f : Node → Node}
    (h : ∀ n, convert (admNode n) = .ok (f n)) (nodes : List Node) :
    collect (fun i => readAt (nodes.map admNode) i >>= convert) nodes.length
      = .ok (nodes.map f) := by
  have hloop : ∀ i, (readAt (nodes.map admNode) i >>= convert)
      = (readAt nodes i >>= fun n => convert (admNode n)) := by
    intro i
    unfold readAt
    rw [List.getElem?_map]
    cases nodes[i]? with
    | none => rfl
    | some n => rfl
  simp only [hloop]
  rw [collect_readAt fun n _ => h n]
  exact ⟨Nat.le_refl _, by rw [List.take_length]⟩

/-- The loop over the nodes of an adhoc storage forgets their types, -/
theorem AdhocResources.ofAdm_nodes (nodes : List Node) :
    AdhocResources.ofAdm (some ⟨some ⟨nodes.map admNode, nodes.length⟩⟩)
      = .ok ⟨nodes.map fun n => ⟨n.hostname, .regular⟩⟩ := by
  show (collect _ nodes.length >>= fun v => pure (⟨v⟩ : AdhocResources)) = _
  rw [collect_admNode fun _ => rfl]
  rfl

/-- and the loop over the nodes of a job keeps them. -/
theorem JobResources.ofAdm_nodes (nodes : List Node) :
    JobResources.ofAdm (some ⟨some ⟨nodes.map admNode, nodes.length⟩⟩) = .ok ⟨nodes⟩ := by
  show (collect _ nodes.length >>= fun v => pure (⟨v⟩ : JobResources)) = _
  rw [collect_admNode (f := fun n => n) fun _ => rfl, List.map_id']
  rfl

/-- The context comes back as it was. -/
theorem AdhocCtx.ofAdm_toAdm {c : AdhocCtx} (hctl : NoNul c.controllerAddress)
    (hstager : NoNul c.dataStagerAddress) : AdhocCtx.ofAdm c.toAdm = .ok c := by
  unfold AdhocCtx.toAdm
  rw [hctl.cStr_eq, hstager.cStr_eq]
  rfl

/-- The C view of an adhoc storage. -/
theorem AdhocStorage.toAdm_eq {s : AdhocStorage} (h : s.NoNul) :
    s.toAdm = .ok (some
      { sName := some s.name
        sType := some s.type
        sId := s.id
        sAdhocCtx := s.context.toAdm
        sResources := some ⟨some ⟨s.resources.nodes.map admNode, s.resources.nodes.length⟩⟩ }) := by
  unfold AdhocStorage.toAdm
  rw [AdhocResources.toAdm_eq h.hostnames, h.name.cStr_eq]
  rfl

/-- What comes back of an adhoc storage: everything but the types of its nodes. -/
theorem AdhocStorage.throughAdm_eq {s : AdhocStorage} (h : s.NoNul) :
    s.throughAdm
      = .ok (s.update ⟨s.resources.nodes.map fun n => ⟨n.hostname, .regular⟩⟩) := by
  have hctx := AdhocCtx.ofAdm_toAdm h.controllerAddress h.dataStagerAddress
  have hresources := AdhocResources.ofAdm_nodes s.resources.nodes
  unfold AdhocStorage.throughAdm
  rw [AdhocStorage.toAdm_eq h, bind_eq_ok]
  refine ⟨_, rfl, ?_⟩
  rw [bind_eq_ok]
  refine ⟨_, rfl, ?_⟩
  simp only [AdhocStorage.ofAdm, hctx, hresources]
  rfl

/-! ## The two views -/

/-- **The two views of an adhoc storage agree exactly when all of its nodes are
    regular.** -/
theorem AdhocStorage.throughAdm_eq_self_iff {s : AdhocStorage} (h : s.NoNul) :
    s.throughAdm = .ok s ↔ ∀ n ∈ s.resources.nodes, n.nodeType = .regular := by
  obtain ⟨type, name, id, context, ⟨nodes⟩⟩ := s
  rw [AdhocStorage.throughAdm_eq h]
  simp only [AdhocStorage.update, Except.ok.injEq, AdhocStorage.mk.injEq, AdhocResources.mk.injEq,
    true_and]
  constructor
  · intro hnodes n hn
    rw [← hnodes] at hn
    obtain ⟨m, -, rfl⟩ := List.mem_map.mp hn
    rfl
  · intro hregular
    have hsame : nodes.map (fun n => (⟨n.hostname, .regular⟩ : Node)) = nodes.map fun n => n := by
      apply List.map_congr_left
      intro n hn
      rw [← hregular n hn]
    rw [hsame, List.map_id']

/-- An adhoc storage on two nodes. -/
def sampleTwoNodes (nodeType : NodeType) : AdhocStorage :=
  ⟨.gekkofs, "a", 7, ⟨"ctl", "stager", .separateNew, .readWrite, 60, true⟩,
    ⟨[⟨"n1", .regular⟩, ⟨"n2", nodeType⟩]⟩⟩

theorem sampleTwoNodes_noNul (nodeType : NodeType) : (sampleTwoNodes nodeType).NoNul := by
  have hall : ∀ text ∈ ["a", "ctl", "stager", "n1", "n2"], NoNul text := by decide
  refine ⟨hall "a" (by simp), hall "ctl" (by simp), hall "stager" (by simp), ?_⟩
  intro n hn
  have hhostname : n.hostname = "n1" ∨ n.hostname = "n2" := by
    rcases List.mem_cons.mp hn with rfl | hn
    · exact .inl rfl
    · rw [List.mem_singleton.mp hn]
      exact .inr rfl
  exact hall n.hostname (by simp [hhostname])

theorem throughAdm_eq_self_sample :
    (sampleTwoNodes .regular).throughAdm = .ok (sampleTwoNodes .regular) :=
  (AdhocStorage.throughAdm_eq_self_iff (sampleTwoNodes_noNul .regular)).mpr (by decide)

/-- An administrative node comes back as a regular one. -/
theorem throughAdm_ne_administrative :
    (sampleTwoNodes .administrative).NoNul ∧
      (sampleTwoNodes .administrative).throughAdm ≠ .ok (sampleTwoNodes .administrative) := by
  refine ⟨sampleTwoNodes_noNul _, ?_⟩
  rw [AdhocStorage.throughAdm_eq (sampleTwoNodes_noNul _)]
  decide

end Scord

/-
  Scord.CApi.Types

  The C objects of `types_private.h` for datasets, dataset routes and adhoc
  storage, their constructors in `types.c`, and the C++ constructors of
  `types.cpp` that read them.

  Allocations succeed, and a string is copied whole: a `const char*` that is not
  null is the `String` of the bytes in front of its terminator.  An object that
  was copied shares nothing with its original that anyone writes to, so objects
  are values here.
-/
import Scord.Lib.CMemory
import Scord.Types

namespace Scord

open CMemory
open ExceptLoop (bind_eq_ok)

/-! ## The C objects -/

structure AdmDataset where
  dId : Option String
deriving DecidableEq, Repr

structure AdmDatasetRoute where
  dSrc : Option AdmDataset
  dDst : Option AdmDataset
deriving DecidableEq, Repr

structure AdmDatasetRouteList where
  lRoutes : List AdmDatasetRoute
  lLength : Nat
deriving DecidableEq, Repr

structure AdmNode where
  nHostname : Option String
  nType : NodeType
deriving DecidableEq, Repr

structure AdmNodeList where
  lNodes : List AdmNode
  lLength : Nat
deriving DecidableEq, Repr

structure AdmAdhocResources where
  rNodes : Option AdmNodeList
deriving DecidableEq, Repr

structure AdmAdhocContext where
  cCtlAddress : Option String
  cStagerAddress : Option String
  cMode : ExecutionMode
  cAccess : AccessType
  cWalltime : UInt32
  cShouldBgFlush : Bool
deriving DecidableEq, Repr

/-- `adm_adhoc_storage`.  A type that is none of the four enumerators is
    `none`. -/
structure AdmAdhocStorage where
  sName : Option String
  sType : Option AdhocStorageType
  sId : UInt64
  sAdhocCtx : Option AdmAdhocContext
  sResources : Option AdmAdhocResources
deriving DecidableEq, Repr

/-! ## Their constructors -/

/-- `ADM_dataset_create` -/
def admDatasetCreate (id : Option String) : AdmDataset := ⟨id⟩

/-- `ADM_dataset_route_create` -/
def admDatasetRouteCreate (source destination : Option AdmDataset) :
    Result AdmDatasetRoute := do
  let source ← deref source
  let destination ← deref destination
  return ⟨some (admDatasetCreate source.dId), some (admDatasetCreate destination.dId)⟩

/-- `ADM_dataset_route_copy` into a route that is not null. -/
def admDatasetRouteCopy (src : Option AdmDatasetRoute) : Option AdmDatasetRoute :=
  src.map fun src =>
    { dSrc := src.dSrc.map fun d => admDatasetCreate d.dId
      dDst := src.dDst.map fun d => admDatasetCreate d.dId }

/-- `ADM_dataset_route_list_create`: null if a route is. -/
def admDatasetRouteListCreate (routes : List (Option AdmDatasetRoute)) (length : Nat) :
    Result (Option AdmDatasetRouteList) := do
  let copies ← collectNonNull (fun i => (readAt routes i).map admDatasetRouteCopy) length
  return copies.map fun lRoutes => ⟨lRoutes, length⟩

/-- `ADM_adhoc_storage_create`: null without a name or without a context.  The
    context is copied, the resources are shared. -/
def admAdhocStorageCreate (name : Option String) (type : Option AdhocStorageType)
    (id : UInt64) (adhocCtx : Option AdmAdhocContext)
    (adhocResources : Option AdmAdhocResources) : Option AdmAdhocStorage :=
  match name, adhocCtx with
  | some name, some adhocCtx => some ⟨some name, type, id, some adhocCtx, adhocResources⟩
  | _, _ => none

/-! ## The C++ constructors that read them -/

/-- `dataset(ADM_dataset_t)` -/
def Dataset.ofAdm (dataset : Option AdmDataset) : Result Dataset := do
  let dataset ← deref dataset
  let id ← deref dataset.dId
  return ⟨id⟩

/-- `emplace_back(dataset{route.d_src}, dataset{route.d_dst})` -/
def DatasetRoute.ofAdm (route : AdmDatasetRoute) : Result DatasetRoute := do
  let source ← Dataset.ofAdm route.dSrc
  let destination ← Dataset.ofAdm route.dDst
  return ⟨source, destination⟩

/-- `adhoc_storage::ctx(ADM_adhoc_context_t)` -/
def AdhocCtx.ofAdm (ctx : Option AdmAdhocContext) : Result AdhocCtx := do
  let ctx ← deref ctx
  let controllerAddress ← deref ctx.cCtlAddress
  let dataStagerAddress ← deref ctx.cStagerAddress
  return {
    controllerAddress, dataStagerAddress
    execMode := ctx.cMode
    accessType := ctx.cAccess
    walltime := ctx.cWalltime
    shouldFlush := ctx.cShouldBgFlush }

/-- `emplace_back(node.n_hostname)`: the node gets the type `regular`. -/
def Node.ofHostname (node : AdmNode) : Result Node := do
  let hostname ← deref node.nHostname
  return { hostname }

/-- `adhoc_storage::resources(ADM_adhoc_resources_t)` -/
def AdhocResources.ofAdm (res : Option AdmAdhocResources) : Result AdhocResources := do
  let res ← deref res
  let rNodes ← deref res.rNodes
  let nodes ← collect (fun i => readAt rNodes.lNodes i >>= Node.ofHostname) rNodes.lLength
  return ⟨nodes⟩

/-- `adhoc_storage(ADM_adhoc_storage_t)` -/
def AdhocStorage.ofAdm (st : AdmAdhocStorage) : Result AdhocStorage := do
  let type ← st.sType.elim (.error .invalidEnum) .ok
  let name ← deref st.sName
  let context ← AdhocCtx.ofAdm st.sAdhocCtx
  let resources ← AdhocResources.ofAdm st.sResources
  return { type, name, id := st.sId, context, resources }

/-! ## When the objects can be read -/

/-- The route between two dataset ids, as C has it -/
def admRoute (ids : String × String) : AdmDatasetRoute :=
  ⟨some (admDatasetCreate (some ids.1)), some (admDatasetCreate (some ids.2))⟩

/-- and as C++ has it. -/
def datasetRoute (ids : String × String) : DatasetRoute := ⟨⟨ids.1⟩, ⟨ids.2⟩⟩

@[simp] theorem admDatasetRouteCopy_admRoute (ids : String × String) :
    admDatasetRouteCopy (some (admRoute ids)) = some (admRoute ids) := rfl

@[simp] theorem DatasetRoute.ofAdm_admRoute (ids : String × String) :
    DatasetRoute.ofAdm (admRoute ids) = .ok (datasetRoute ids) := rfl

/-- The ids are in the C++ route, so different ids give different routes. -/
theorem datasetRoute_injective : Function.Injective datasetRoute := by
  rintro ⟨src, dst⟩ ⟨src', dst'⟩ h
  simp only [datasetRoute, DatasetRoute.mk.injEq, Dataset.mk.injEq] at h
  obtain ⟨hsrc, hdst⟩ := h
  rw [hsrc, hdst]

/-- The copy of an array of routes. -/
theorem admDatasetRouteListCreate_map (ids : List (String × String)) :
    admDatasetRouteListCreate (ids.map fun e => some (admRoute e)) ids.length
      = .ok (some ⟨ids.map admRoute, ids.length⟩) := by
  have hlength : ids.length = (ids.map admRoute).length := by simp
  have hcopies : collectNonNull
      (fun i => (readAt (ids.map fun e => some (admRoute e)) i).map admDatasetRouteCopy)
      ids.length = .ok (some (ids.map admRoute)) := by
    rw [hlength]
    apply collectNonNull_of_some
    intro i route hroute
    rw [List.getElem?_map] at hroute
    obtain ⟨e, he, rfl⟩ := Option.map_eq_some_iff.mp hroute
    have hread : readAt (ids.map fun e => some (admRoute e)) i = .ok (some (admRoute e)) := by
      rw [readAt_eq_ok, List.getElem?_map, he]
      rfl
    rw [hread]
    rfl
  unfold admDatasetRouteListCreate
  rw [hcopies]
  rfl

/-- The addresses, the node list and the host names behind an adhoc storage are
    not null, and the node list has as many nodes as it says. -/
structure AdmAdhocStorage.Readable (st : AdmAdhocStorage) : Prop where
  ctlAddress : ∀ ctx, st.sAdhocCtx = some ctx → ctx.cCtlAddress ≠ none
  stagerAddress : ∀ ctx, st.sAdhocCtx = some ctx → ctx.cStagerAddress ≠ none
  nodes : ∃ res nodes, st.sResources = some res ∧ res.rNodes = some nodes ∧
    ∀ i < nodes.lLength, ∃ node, nodes.lNodes[i]? = some node ∧ node.nHostname ≠ none

theorem exists_deref_eq_ok {α : Type} {p : Option α} : (∃ a, deref p = .ok a) ↔ p ≠ none := by
  simp only [deref_eq_ok]
  exact Option.ne_none_iff_exists'.symm

theorem AdhocResources.exists_ofAdm_eq_ok {res : Option AdmAdhocResources} :
    (∃ r, AdhocResources.ofAdm res = .ok r) ↔
      ∃ res₁ nodes, res = some res₁ ∧ res₁.rNodes = some nodes ∧
        ∀ i < nodes.lLength, ∃ node, nodes.lNodes[i]? = some node ∧ node.nHostname ≠ none := by
  have hnode : ∀ (nodes : AdmNodeList) (i : Nat),
      (∃ n, (readAt nodes.lNodes i >>= Node.ofHostname) = .ok n) ↔
        ∃ node, nodes.lNodes[i]? = some node ∧ node.nHostname ≠ none := by
    intro nodes i
    simp only [bind_eq_ok, readAt_eq_ok, Node.ofHostname, ← exists_deref_eq_ok]
    refine ⟨?_, ?_⟩
    · rintro ⟨n, node, hnode, hostname, hhostname, -⟩
      exact ⟨node, hnode, hostname, hhostname⟩
    · rintro ⟨node, hnode, hostname, hhostname⟩
      exact ⟨_, node, hnode, hostname, hhostname, rfl⟩
  have hnodes : ∀ nodes : AdmNodeList,
      (∃ v, collect (fun i => readAt nodes.lNodes i >>= Node.ofHostname) nodes.lLength = .ok v) ↔
        ∀ i < nodes.lLength, ∃ node, nodes.lNodes[i]? = some node ∧ node.nHostname ≠ none := by
    intro nodes
    rw [exists_collect_eq_ok]
    simp only [hnode]
  simp only [AdhocResources.ofAdm, bind_eq_ok, deref_eq_ok, ← hnodes]
  refine ⟨?_, ?_⟩
  · rintro ⟨r, res₁, hres, nodes, hrNodes, v, hv, -⟩
    exact ⟨res₁, nodes, hres, hrNodes, v, hv⟩
  · rintro ⟨res₁, nodes, hres, hrNodes, v, hv⟩
    exact ⟨_, res₁, hres, nodes, hrNodes, v, hv, rfl⟩

theorem AdhocCtx.exists_ofAdm_eq_ok {ctx : AdmAdhocContext} :
    (∃ c, AdhocCtx.ofAdm (some ctx) = .ok c) ↔
      ctx.cCtlAddress ≠ none ∧ ctx.cStagerAddress ≠ none := by
  simp only [AdhocCtx.ofAdm, bind_eq_ok, deref_some, ← exists_deref_eq_ok]
  refine ⟨?_, ?_⟩
  · rintro ⟨c, _, ⟨⟩, ctl, hctl, stager, hstager, -⟩
    exact ⟨⟨ctl, hctl⟩, ⟨stager, hstager⟩⟩
  · rintro ⟨⟨ctl, hctl⟩, ⟨stager, hstager⟩⟩
    exact ⟨_, ctx, rfl, ctl, hctl, stager, hstager, rfl⟩

/-- An adhoc storage that has its type, its name and its context is converted
    exactly when it is readable. -/
theorem AdhocStorage.exists_ofAdm_eq_ok {st : AdmAdhocStorage} (htype : st.sType ≠ none)
    (hname : st.sName ≠ none) (hctx : st.sAdhocCtx ≠ none) :
    (∃ s, AdhocStorage.ofAdm st = .ok s) ↔ st.Readable := by
  obtain ⟨type, htype⟩ := Option.ne_none_iff_exists'.mp htype
  obtain ⟨name, hname⟩ := Option.ne_none_iff_exists'.mp hname
  obtain ⟨ctx, hctx⟩ := Option.ne_none_iff_exists'.mp hctx
  have hsplit : (∃ s, AdhocStorage.ofAdm st = .ok s) ↔
      (∃ c, AdhocCtx.ofAdm (some ctx) = .ok c) ∧
        ∃ r, AdhocResources.ofAdm st.sResources = .ok r := by
    simp only [AdhocStorage.ofAdm, bind_eq_ok, htype, hname, hctx]
    refine ⟨?_, ?_⟩
    · rintro ⟨s, _, -, _, -, c, hc, r, hr, -⟩
      exact ⟨⟨c, hc⟩, r, hr⟩
    · rintro ⟨⟨c, hc⟩, r, hr⟩
      exact ⟨_, type, rfl, name, rfl, c, hc, r, hr, rfl⟩
  rw [hsplit, AdhocCtx.exists_ofAdm_eq_ok, AdhocResources.exists_ofAdm_eq_ok]
  refine ⟨?_, ?_⟩
  · rintro ⟨⟨hctl, hstager⟩, hnodes⟩
    refine ⟨fun ctx' hctx' => ?_, fun ctx' hctx' => ?_, hnodes⟩
    · cases hctx.symm.trans hctx'
      exact hctl
    · cases hctx.symm.trans hctx'
      exact hstager
  · intro h
    exact ⟨⟨h.ctlAddress ctx hctx, h.stagerAddress ctx hctx⟩, h.nodes⟩

end Scord

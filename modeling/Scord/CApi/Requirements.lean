/-
  Scord.CApi.Requirements

  `ADM_job_requirements_create` and the C++ constructor that reads its result.
  The loop of the constructor over the output routes takes its bound from the
  output list and its routes from the input list.
-/
import Scord.CApi.Types

namespace Scord

open CMemory
open ExceptLoop (bind_eq_ok)

structure AdmJobRequirements where
  rInputs : Option AdmDatasetRouteList
  rOutputs : Option AdmDatasetRouteList
  rExpectedOutputs : Option AdmDatasetRouteList
  rAdhocStorage : Option AdmAdhocStorage
deriving DecidableEq, Repr

/-- `ADM_job_requirements_create`: null if a route is, or if the type of the
    adhoc storage is invalid. -/
def admJobRequirementsCreate (inputs : List (Option AdmDatasetRoute)) (inputsLen : Nat)
    (outputs : List (Option AdmDatasetRoute)) (outputsLen : Nat)
    (expectedOutputs : List (Option AdmDatasetRoute)) (expectedOutputsLen : Nat)
    (adhocStorage : Option AdmAdhocStorage) : Result (Option AdmJobRequirements) := do
  match ← admDatasetRouteListCreate inputs inputsLen with
  | none => return none
  | some inputsList =>
      match ← admDatasetRouteListCreate outputs outputsLen with
      | none => return none
      | some outputsList =>
          match ← admDatasetRouteListCreate expectedOutputs expectedOutputsLen with
          | none => return none
          | some expectedOutputsList =>
              match adhocStorage with
              | none =>
                  return some ⟨inputsList, outputsList, expectedOutputsList, none⟩
              | some adhoc =>
                  match adhoc.sType with
                  | none => return none
                  | some type =>
                      return some ⟨inputsList, outputsList, expectedOutputsList,
                        admAdhocStorageCreate adhoc.sName (some type) adhoc.sId
                          adhoc.sAdhocCtx adhoc.sResources⟩

/-- `job::requirements(ADM_job_requirements_t)` -/
def JobRequirements.ofAdm (reqs : Option AdmJobRequirements) : Result JobRequirements := do
  let reqs ← deref reqs
  let rInputs ← deref reqs.rInputs
  let inputs ← collect (fun i => readAt rInputs.lRoutes i >>= DatasetRoute.ofAdm) rInputs.lLength
  let rOutputs ← deref reqs.rOutputs
  -- the bound is that of the outputs, the routes are those of the inputs
  let outputs ← collect (fun i => readAt rInputs.lRoutes i >>= DatasetRoute.ofAdm)
    rOutputs.lLength
  let rExpectedOutputs ← deref reqs.rExpectedOutputs
  let expectedOutputs ← collect
    (fun i => readAt rExpectedOutputs.lRoutes i >>= DatasetRoute.ofAdm) rExpectedOutputs.lLength
  match reqs.rAdhocStorage with
  | none => return ⟨inputs, outputs, expectedOutputs, none⟩
  | some adhoc =>
      let adhocStorage ← AdhocStorage.ofAdm adhoc
      return ⟨inputs, outputs, expectedOutputs, some adhocStorage⟩

/-- Three arrays of routes and an adhoc storage, to C requirements, to C++
    requirements. -/
def convertRequirements (inputs outputs expectedOutputs : List (String × String))
    (adhocStorage : Option AdmAdhocStorage) : Result JobRequirements := do
  let reqs ← admJobRequirementsCreate (inputs.map fun e => some (admRoute e)) inputs.length
    (outputs.map fun e => some (admRoute e)) outputs.length
    (expectedOutputs.map fun e => some (admRoute e)) expectedOutputs.length adhocStorage
  JobRequirements.ofAdm reqs

/-- The conversion reads no array past its end and no null pointer, and every
    list of its result has the ids of its own array. -/
def ConvertsExactly (inputs outputs expectedOutputs : List (String × String))
    (adhocStorage : Option AdmAdhocStorage) : Prop :=
  ∃ reqs, convertRequirements inputs outputs expectedOutputs adhocStorage = .ok reqs ∧
    reqs.inputs = inputs.map datasetRoute ∧ reqs.outputs = outputs.map datasetRoute ∧
    reqs.expectedOutputs = expectedOutputs.map datasetRoute

/-! ## Step by step -/

/-- The adhoc storage in the C requirements: a copy, or null when there is no
    name or no context to copy. -/
def copiedAdhoc (adhocStorage : Option AdmAdhocStorage) : Option AdmAdhocStorage :=
  adhocStorage.bind fun adhoc =>
    admAdhocStorageCreate adhoc.sName adhoc.sType adhoc.sId adhoc.sAdhocCtx adhoc.sResources

theorem admJobRequirementsCreate_map (inputs outputs expectedOutputs : List (String × String))
    {adhocStorage : Option AdmAdhocStorage}
    (hvalid : ∀ adhoc, adhocStorage = some adhoc → adhoc.sType ≠ none) :
    admJobRequirementsCreate (inputs.map fun e => some (admRoute e)) inputs.length
        (outputs.map fun e => some (admRoute e)) outputs.length
        (expectedOutputs.map fun e => some (admRoute e)) expectedOutputs.length adhocStorage
      = .ok (some ⟨some ⟨inputs.map admRoute, inputs.length⟩,
          some ⟨outputs.map admRoute, outputs.length⟩,
          some ⟨expectedOutputs.map admRoute, expectedOutputs.length⟩,
          copiedAdhoc adhocStorage⟩) := by
  unfold admJobRequirementsCreate
  simp only [admDatasetRouteListCreate_map]
  cases adhocStorage with
  | none => rfl
  | some adhoc =>
      obtain ⟨type, htype⟩ := Option.ne_none_iff_exists'.mp (hvalid adhoc rfl)
      simp only [copiedAdhoc, Option.bind_some, htype]
      rfl

/-- A loop over the routes of an array, `n` of them. -/
theorem collect_routes {ids : List (String × String)} {n : Nat} {v : List DatasetRoute} :
    (collect (fun i => readAt (ids.map admRoute) i >>= DatasetRoute.ofAdm) n = .ok v) ↔
      n ≤ ids.length ∧ v = (ids.take n).map datasetRoute := by
  -- `datasetRoute` is recovered from the C route by reading its ids
  have hloop : ∀ i, (readAt (ids.map admRoute) i >>= DatasetRoute.ofAdm)
      = (readAt ids i >>= fun e => .ok (datasetRoute e)) := by
    intro i
    unfold readAt
    rw [List.getElem?_map]
    cases ids[i]? with
    | none => rfl
    | some e => rfl
  simp only [hloop]
  exact collect_readAt fun e _ => rfl

/-- When the copied adhoc storage can be converted. -/
def AdhocConverts (adhocStorage : Option AdmAdhocStorage) : Prop :=
  ∀ adhoc, copiedAdhoc adhocStorage = some adhoc → ∃ s, AdhocStorage.ofAdm adhoc = .ok s

theorem convertRequirements_eq_ok {inputs outputs expectedOutputs : List (String × String)}
    {adhocStorage : Option AdmAdhocStorage}
    (hvalid : ∀ adhoc, adhocStorage = some adhoc → adhoc.sType ≠ none) {v : List DatasetRoute} :
    (∃ reqs, convertRequirements inputs outputs expectedOutputs adhocStorage = .ok reqs ∧
        reqs.inputs = inputs.map datasetRoute ∧ reqs.outputs = v ∧
        reqs.expectedOutputs = expectedOutputs.map datasetRoute) ↔
      (outputs.length ≤ inputs.length ∧ v = (inputs.take outputs.length).map datasetRoute) ∧
        AdhocConverts adhocStorage := by
  have hown : ∀ ids : List (String × String),
      collect (fun i => readAt (ids.map admRoute) i >>= DatasetRoute.ofAdm) ids.length
        = .ok (ids.map datasetRoute) := by
    intro ids
    rw [collect_routes]
    exact ⟨Nat.le_refl _, by rw [List.take_length]⟩
  unfold convertRequirements AdhocConverts
  simp only [admJobRequirementsCreate_map _ _ _ hvalid, bind_eq_ok, Except.ok.injEq,
    exists_eq_left', JobRequirements.ofAdm, deref_some, hown, collect_routes]
  cases copiedAdhoc adhocStorage with
  | none =>
      refine ⟨?_, ?_⟩
      · rintro ⟨reqs, ⟨w, hw, hreqs⟩, -, rfl, -⟩
        cases hreqs
        refine ⟨hw, fun adhoc hadhoc => ?_⟩
        cases hadhoc
      · rintro ⟨hv, -⟩
        exact ⟨_, ⟨v, hv, rfl⟩, rfl, rfl, rfl⟩
  | some adhoc =>
      refine ⟨?_, ?_⟩
      · rintro ⟨reqs, ⟨w, hw, hreqs⟩, -, rfl, -⟩
        obtain ⟨s, hs, hreqs⟩ := bind_eq_ok.mp hreqs
        cases hreqs
        refine ⟨hw, ?_⟩
        rintro _ ⟨⟩
        exact ⟨s, hs⟩
      · rintro ⟨hv, hadhoc⟩
        obtain ⟨s, hs⟩ := hadhoc adhoc rfl
        exact ⟨_, ⟨v, hv, bind_eq_ok.mpr ⟨s, hs, rfl⟩⟩, rfl, rfl, rfl⟩

/-- The copy is made for a storage with a name and a context, and no other. -/
theorem copiedAdhoc_eq_some {adhoc copy : AdmAdhocStorage} :
    copiedAdhoc (some adhoc) = some copy ↔
      adhoc.sName ≠ none ∧ adhoc.sAdhocCtx ≠ none ∧ copy = adhoc := by
  obtain ⟨name, type, id, ctx, res⟩ := adhoc
  cases name <;> cases ctx <;> simp [copiedAdhoc, admAdhocStorageCreate, eq_comm]

theorem adhocConverts_iff {adhocStorage : Option AdmAdhocStorage}
    (hvalid : ∀ adhoc, adhocStorage = some adhoc → adhoc.sType ≠ none) :
    AdhocConverts adhocStorage ↔
      ∀ adhoc, adhocStorage = some adhoc →
        adhoc.sName = none ∨ adhoc.sAdhocCtx = none ∨ adhoc.Readable := by
  unfold AdhocConverts
  refine ⟨fun hconverts adhoc hadhoc => ?_, fun hreadable copy hcopy => ?_⟩
  · subst hadhoc
    by_cases hname : adhoc.sName = none
    · exact .inl hname
    by_cases hctx : adhoc.sAdhocCtx = none
    · exact .inr (.inl hctx)
    have hcopied := copiedAdhoc_eq_some.mpr ⟨hname, hctx, rfl⟩
    have hok := hconverts adhoc hcopied
    exact .inr (.inr ((AdhocStorage.exists_ofAdm_eq_ok (hvalid adhoc rfl) hname hctx).mp hok))
  · cases adhocStorage with
    | none => cases hcopy
    | some adhoc =>
        obtain ⟨hname, hctx, rfl⟩ := copiedAdhoc_eq_some.mp hcopy
        -- the copy has a name and a context, so that only `Readable` is left
        have hcopied := ((hreadable copy rfl).resolve_left hname).resolve_left hctx
        exact (AdhocStorage.exists_ofAdm_eq_ok (hvalid copy rfl) hname hctx).mpr hcopied

/-! ## The conversion as a whole -/

/-- **The conversion is exact for the output routes that are a prefix of the
    input routes**, and an adhoc storage that can be read. -/
theorem convertsExactly_iff (inputs outputs expectedOutputs : List (String × String))
    (adhocStorage : Option AdmAdhocStorage)
    (hvalid : ∀ adhoc, adhocStorage = some adhoc → adhoc.sType ≠ none) :
    ConvertsExactly inputs outputs expectedOutputs adhocStorage ↔
      outputs <+: inputs ∧
        ∀ adhoc, adhocStorage = some adhoc →
          adhoc.sName = none ∨ adhoc.sAdhocCtx = none ∨ adhoc.Readable := by
  unfold ConvertsExactly
  rw [convertRequirements_eq_ok hvalid, adhocConverts_iff hvalid]
  have hfront : (outputs.length ≤ inputs.length ∧
      outputs.map datasetRoute = (inputs.take outputs.length).map datasetRoute) ↔
        outputs <+: inputs := by
    rw [List.prefix_iff_eq_take]
    refine ⟨?_, ?_⟩
    · rintro ⟨-, heq⟩
      exact List.map_inj_right (fun _ _ h => datasetRoute_injective h) |>.mp heq
    · intro heq
      refine ⟨?_, congrArg _ heq⟩
      have hlength := congrArg List.length heq
      rw [List.length_take] at hlength
      omega
  rw [hfront]

/-- An adhoc storage on one node, with everything that the constructor reads. -/
def readableStorage : AdmAdhocStorage where
  sName := some "fs"
  sType := some .gekkofs
  sId := 0
  sAdhocCtx := some ⟨some "ofi+tcp://ctl:52000", some "ofi+tcp://stager:62000", .inJobShared,
    .readWrite, 60, false⟩
  sResources := some ⟨some ⟨[⟨some "node1", .regular⟩], 1⟩⟩

/-- Of two inputs the first is an output too, and the storage can be read. -/
theorem convertsExactly_sample :
    ConvertsExactly [("/in", "/adhoc/in"), ("/more", "/adhoc/more")] [("/in", "/adhoc/in")]
      [("/adhoc/out", "/out")] (some readableStorage) := by
  rw [convertsExactly_iff]
  · refine ⟨⟨[("/more", "/adhoc/more")], rfl⟩, ?_⟩
    rintro adhoc ⟨⟩
    refine .inr (.inr ⟨?_, ?_, ⟨_, _, rfl, rfl, ?_⟩⟩)
    · rintro ctx ⟨⟩
      exact nofun
    · rintro ctx ⟨⟩
      exact nofun
    · intro i hi
      obtain rfl : i = 0 := Nat.lt_one_iff.mp hi
      exact ⟨_, rfl, nofun⟩
  · rintro adhoc ⟨⟩
    exact nofun

/-- One output and no input: the constructor reads past the end of the inputs. -/
theorem not_convertsExactly_output :
    ¬ ConvertsExactly [] [("/adhoc/out", "/out")] [] none := by
  rintro ⟨reqs, hreqs, -⟩
  have hfault : convertRequirements [] [("/adhoc/out", "/out")] [] none
      = .error .outOfBounds := rfl
  rw [hfault] at hreqs
  cases hreqs

end Scord

/-
  Scord.Plugin.ProcessOpts

  The options of the Slurm plugin (`slurmadmcli.c`): the table that is registered
  with Slurm, and `process_opts`, which is called for each option of a command
  line and writes into global variables.

  A use of an option that is rejected has often written already.  What a whole
  command line keeps is stated over the log of the uses and their return codes.
-/
import Scord.CApi.DatasetRoutes
import Scord.Lib.StepSystem
import Scord.Lib.Strtol

namespace Scord.Plugin

open StepSystem

/-! ## The table -/

/-- The lists of dataset routes: each has its own tag and its own variables. -/
inductive DatasetList
  | input
  | output
  | expectedOutput
  | expectedInout
deriving DecidableEq, Repr

inductive Tag
  | nnodes
  | adhocType
  | adhocOverlap
  | adhocExclusive
  | adhocDedicated
  | adhocRemote
  | dataset (list : DatasetList)
  | qosLimit
deriving DecidableEq, Repr

/-- `struct spank_option`, without the usage text. -/
structure SpankOption where
  name : String
  arginfo : Option String
  hasArg : Bool
  tag : Tag

def spankOpts : List SpankOption :=
  [⟨"adm-adhoc", some "type", true, .adhocType⟩,
    ⟨"adm-adhoc-overlap", none, false, .adhocOverlap⟩,
    ⟨"adm-adhoc-exclusive", none, false, .adhocExclusive⟩,
    ⟨"adm-adhoc-dedicated", none, false, .adhocDedicated⟩,
    ⟨"adm-adhoc-remote", some "adhoc-id", true, .adhocRemote⟩,
    ⟨"adm-adhoc-nodes", some "nnodes", true, .nnodes⟩,
    ⟨"adm-input-datasets", some "dataset-route[,dataset-route...]", true, .dataset .input⟩,
    ⟨"adm-output-datasets", some "dataset-route[,dataset-route...]", true, .dataset .output⟩,
    ⟨"adm-expected-output-datasets", some "dataset-route[,dataset-route...]", true,
      .dataset .expectedOutput⟩,
    ⟨"adm-expected-inout-datasets", some "dataset-route[,dataset-route...]", true,
      .dataset .expectedInout⟩,
    ⟨"adm-qos-limit", some "qos-limit-bw", true, .qosLimit⟩]

/-- Every tag is registered, and none of them twice. -/
theorem mem_tags (tag : Tag) : tag ∈ spankOpts.map SpankOption.tag := by
  cases tag with
  | dataset list => cases list <;> decide
  | _ => decide

theorem nodup_tags : (spankOpts.map SpankOption.tag).Nodup := by decide

/-! ## The global variables -/

/-- `spank_context_t` -/
inductive SpankContext
  | ctxError
  | ctxLocal
  | ctxRemote
  | ctxAllocator
  | ctxSlurmd
  | ctxJobScript
deriving DecidableEq, Repr

/-- An array of routes: it may have been freed without being set to null. -/
inductive RoutePtr
  | null
  | live (routes : List AdmDatasetRoute)
  | freed
deriving DecidableEq, Repr

/-- `input_datasets` and `input_datasets_count`, and so on. -/
structure Datasets where
  ptr : RoutePtr
  count : Nat
deriving DecidableEq, Repr

structure Globals where
  scordFlag : Bool
  adhocNnodes : Int
  adhocMode : ExecutionMode
  adhocType : AdhocStorageType
  adhocId : String
  datasets : DatasetList → Datasets
  limit : Int

namespace Globals

/-- The variables when the plugin is loaded. -/
def start : Globals where
  scordFlag := false
  adhocNnodes := 0
  adhocMode := .inJobShared
  -- enumerator 0
  adhocType := .gekkofs
  adhocId := ""
  datasets := fun _ => ⟨.null, 0⟩
  limit := 0

def setDatasets (g : Globals) (list : DatasetList) (d : Datasets) : Globals :=
  { g with datasets := fun l => if l = list then d else g.datasets l }

end Globals

/-! ## One option -/

/-- The number that `strtol` reads, and the return code of the option. -/
def positiveNumber (optarg : String) : Int × Int :=
  let r := Strtol.strtol 0 optarg.toList
  (r.value, if r.erange = true ∨ r.rest = optarg.toList ∨ r.rest ≠ [] ∨ r.value ≤ 0 then -1 else 0)

/-- The pointer after what it points to has been freed, if it points to anything. -/
def RoutePtr.old (ptr : RoutePtr) : RoutePtr := if ptr = .null then .null else .freed

/-- `free` the old array, and parse; `none` when the old one was freed before. -/
def parseDatasets (d : Datasets) (optarg : String) : Option (Datasets × Int) :=
  match d.ptr with
  | .freed => none
  | ptr =>
      match scordUtilsParseDatasetRoutes (some optarg) (some none) (some d.count) with
      | .ok ⟨.success, some (some routes), some count⟩ => some (⟨.live routes, count⟩, 0)
      -- the parser has left the pointer alone
      | _ => some (⟨ptr.old, d.count⟩, -1)

/-- `!strncmp(optarg, name, strlen(name))` -/
def beginsWith (optarg name : String) : Bool := name.toList.isPrefixOf optarg.toList

/-- The type that `--adm-adhoc` names. -/
def adhocTypeOf (optarg : String) : Option AdhocStorageType :=
  if beginsWith optarg "gekkofs" then some .gekkofs
  else if beginsWith optarg "expand" then some .expand
  else if beginsWith optarg "hercules" then some .hercules
  else if beginsWith optarg "dataclay" then some .dataclay
  else none

/-- The size of the buffer for the id, with its terminator. -/
def adhocIdLen : Nat := 64

/-- `process_opts`: the variables afterwards and the return code, or nothing after
    undefined behaviour.  A flag gets a null pointer, and no other option does. -/
def processOpts (sctx : SpankContext) (g : Globals) (tag : Tag) (optarg : String) :
    Option (Globals × Int) :=
  if sctx ≠ .ctxLocal ∧ sctx ≠ .ctxAllocator ∧ sctx ≠ .ctxRemote then some (g, 0)
  else
    let g := { g with scordFlag := true }
    match tag with
    | .nnodes =>
        -- the variable is written before the number is checked
        let r := positiveNumber optarg
        some ({ g with adhocNnodes := r.1 }, r.2)
    | .adhocType =>
        match adhocTypeOf optarg with
        | some adhocType => some ({ g with adhocType }, 0)
        | none => some (g, -1)
    | .adhocExclusive => some ({ g with adhocMode := .inJobDedicated }, 0)
    | .adhocDedicated => some ({ g with adhocMode := .separateNew }, 0)
    | .adhocRemote =>
        some ({ g with
          adhocMode := .separateExisting
          adhocId := String.ofList (optarg.toList.take (adhocIdLen - 1)) }, 0)
    | .dataset list =>
        (parseDatasets (g.datasets list) optarg).map fun r => (g.setDatasets list r.1, r.2)
    | .qosLimit =>
        let r := positiveNumber optarg
        some ({ g with limit := r.1 }, r.2)
    -- there is no case for the tag: `default`
    | .adhocOverlap => some (g, -1)

/-! ## The documented language -/

/-- A positive integer that a `long` can hold, written as in C. -/
def PositiveNumber (optarg : String) : Prop :=
  ∃ v, Strtol.Denotes 0 optarg.toList v ∧ Strtol.inRange v = true ∧ 0 < v

def adhocNames : List String := ["gekkofs", "expand", "hercules", "dataclay"]

/-- The uses that the documentation of the options allows. -/
def Valid : Tag → String → Prop
  | .nnodes, optarg => PositiveNumber optarg
  | .adhocType, optarg => optarg ∈ adhocNames
  | .dataset _, optarg => ∃ routes, RouteList optarg routes
  | .qosLimit, optarg => PositiveNumber optarg
  | .adhocOverlap, _ => True
  | .adhocExclusive, _ => True
  | .adhocDedicated, _ => True
  | .adhocRemote, _ => True

/-- The uses that `process_opts` accepts: any text that begins with the name of a
    type, and no overlap. -/
def Accepts : Tag → String → Prop
  | .adhocType, optarg => ∃ name ∈ adhocNames, beginsWith optarg name = true
  | .adhocOverlap, _ => False
  | tag, optarg => Valid tag optarg

/-- A slip of the switch: the flag without a case, or a text with the name of a
    type and something behind it. -/
def Mistaken : Tag → String → Prop
  | .adhocOverlap, _ => True
  | .adhocType, optarg => optarg ∉ adhocNames ∧ ∃ name ∈ adhocNames, beginsWith optarg name = true
  | _, _ => False

theorem beginsWith_self (s : String) : beginsWith s s = true :=
  List.isPrefixOf_iff_prefix.mpr (List.prefix_refl _)

/-- Apart from the slips, what is accepted is what is valid. -/
theorem accepts_iff_valid {tag : Tag} {optarg : String} :
    (Accepts tag optarg ↔ Valid tag optarg) ↔ ¬ Mistaken tag optarg := by
  cases tag with
  | adhocOverlap => simp [Accepts, Valid, Mistaken]
  | adhocType =>
      simp only [Accepts, Valid, Mistaken]
      by_cases hname : optarg ∈ adhocNames
      · have haccepts : ∃ name ∈ adhocNames, beginsWith optarg name = true :=
          ⟨optarg, hname, beginsWith_self optarg⟩
        simp [hname, haccepts]
      · simp [hname]
  | _ => simp [Accepts, Mistaken]

/-! ## Return codes -/

theorem adhocTypeOf_isSome (optarg : String) :
    (adhocTypeOf optarg).isSome = true ↔ ∃ name ∈ adhocNames, beginsWith optarg name = true := by
  unfold adhocTypeOf adhocNames
  simp only [List.exists_mem_cons_iff, List.not_mem_nil, false_and, exists_false, or_false]
  split
  · next h => simp [h]
  · next hg =>
      split
      · next h => simp [h]
      · next he =>
          split
          · next h => simp [h]
          · next hh =>
              split
              · next h => simp [h]
              · next hd => simp [hg, he, hh, hd]

theorem positiveNumber_cases (optarg : String) :
    (positiveNumber optarg).2 = 0 ∧ PositiveNumber optarg ∨
      (positiveNumber optarg).2 = -1 ∧ ¬ PositiveNumber optarg := by
  have hiff : PositiveNumber optarg ↔
      ¬ ((Strtol.strtol 0 optarg.toList).erange = true ∨
        (Strtol.strtol 0 optarg.toList).rest = optarg.toList ∨
        (Strtol.strtol 0 optarg.toList).rest ≠ [] ∨
        (Strtol.strtol 0 optarg.toList).value ≤ 0) := by
    simp only [not_or, Bool.not_eq_true, Decidable.not_not, Int.not_le]
    refine ⟨?_, ?_⟩
    · rintro ⟨v, hv, hrange, hpos⟩
      obtain ⟨herange, hmoved, hrest, hvalue⟩ := Strtol.strtol_checked_iff.mpr ⟨hv, hrange⟩
      exact ⟨herange, hmoved, hrest, hvalue ▸ hpos⟩
    · rintro ⟨herange, hmoved, hrest, hpos⟩
      obtain ⟨hv, hrange⟩ := Strtol.strtol_checked_iff.mp ⟨herange, hmoved, hrest, rfl⟩
      exact ⟨_, hv, hrange, hpos⟩
  unfold positiveNumber
  by_cases hpos : PositiveNumber optarg
  · exact Or.inl ⟨if_neg (hiff.mp hpos), hpos⟩
  · exact Or.inr ⟨if_pos (Decidable.not_not.mp (mt hiff.mpr hpos)), hpos⟩

theorem positiveNumber_eq_zero_iff {optarg : String} :
    (positiveNumber optarg).2 = 0 ↔ PositiveNumber optarg := by
  rcases positiveNumber_cases optarg with ⟨hrc, hpos⟩ | ⟨hrc, hpos⟩
  · exact iff_of_true hrc hpos
  · exact iff_of_false (by rw [hrc]; decide) hpos

/-- A list of routes replaces the old one; anything else frees it. -/
theorem parseDatasets_cases {d : Datasets} (hptr : d.ptr ≠ .freed) (optarg : String) :
    (∃ routes, RouteList optarg routes ∧
      parseDatasets d optarg = some (⟨.live (routes.map admRoute), routes.length⟩, 0)) ∨
    (¬ ∃ routes, RouteList optarg routes) ∧
      parseDatasets d optarg = some (⟨d.ptr.old, d.count⟩, -1) := by
  unfold parseDatasets
  -- the old array is freed in both cases
  by_cases hlist : ∃ routes, RouteList optarg routes
  · obtain ⟨routes, hroutes⟩ := hlist
    refine Or.inl ⟨routes, hroutes, ?_⟩
    rw [scordUtilsParseDatasetRoutes_of_routeList hroutes]
    split
    · next hfreed => exact absurd hfreed hptr
    · rfl
  · refine Or.inr ⟨hlist, ?_⟩
    rw [scordUtilsParseDatasetRoutes_of_not hlist]
    split
    · next hfreed => exact absurd hfreed hptr
    · rfl

/-! ## What a use changes -/

/-- The values that the options set. -/
inductive Field
  | type
  | mode
  | nnodes
  | limit
  | datasets (list : DatasetList)
deriving DecidableEq, Repr

/-- The value that an option is there to set. -/
def Tag.field : Tag → Field
  | .nnodes => .nnodes
  | .adhocType => .type
  | .dataset list => .datasets list
  | .qosLimit => .limit
  | .adhocOverlap => .mode
  | .adhocExclusive => .mode
  | .adhocDedicated => .mode
  | .adhocRemote => .mode

def SameField : Field → Globals → Globals → Prop
  | .type, g, g' => g'.adhocType = g.adhocType
  | .mode, g, g' => g'.adhocMode = g.adhocMode
  | .nnodes, g, g' => g'.adhocNnodes = g.adhocNnodes
  | .limit, g, g' => g'.limit = g.limit
  | .datasets list, g, g' => g'.datasets list = g.datasets list

/-- The contexts in which the plugin takes options. -/
def SpankContext.takesOptions (sctx : SpankContext) : Prop :=
  sctx = .ctxLocal ∨ sctx = .ctxAllocator ∨ sctx = .ctxRemote

section OneUse

variable {sctx : SpankContext} {g g' : Globals} {tag : Tag} {optarg : String} {rc : Int}

/-- In these contexts the switch is reached. -/
theorem processOpts_of_takesOptions (hctx : sctx.takesOptions) :
    processOpts sctx g tag optarg = processOpts .ctxLocal g tag optarg := by
  rcases hctx with rfl | rfl | rfl <;> rfl

/-- A use of a dataset option. -/
theorem processOpts_dataset (hctx : sctx.takesOptions) {list : DatasetList}
    (h : processOpts sctx g (.dataset list) optarg = some (g', rc)) :
    (g.datasets list).ptr ≠ .freed ∧ ∃ d, parseDatasets (g.datasets list) optarg = some (d, rc) ∧
      g' = Globals.setDatasets { g with scordFlag := true } list d := by
  rw [processOpts_of_takesOptions hctx] at h
  obtain ⟨⟨d, rc'⟩, hparse, heq⟩ := Option.map_eq_some_iff.mp h
  obtain ⟨rfl, rfl⟩ := Prod.mk.inj heq
  refine ⟨fun hfreed => ?_, d, hparse, rfl⟩
  have hparse : parseDatasets (g.datasets list) optarg = some (d, rc') := hparse
  unfold parseDatasets at hparse
  rw [hfreed] at hparse
  cases hparse

/-- A use of `--adm-adhoc`. -/
theorem processOpts_adhocType (hctx : sctx.takesOptions)
    (h : processOpts sctx g .adhocType optarg = some (g', rc)) :
    (∃ t, adhocTypeOf optarg = some t ∧ rc = 0 ∧
      g' = { g with scordFlag := true, adhocType := t }) ∨
    adhocTypeOf optarg = none ∧ rc = -1 ∧ g' = { g with scordFlag := true } := by
  rw [processOpts_of_takesOptions hctx] at h
  unfold processOpts at h
  cases htype : adhocTypeOf optarg with
  | some t =>
      simp only [htype] at h
      obtain ⟨rfl, rfl⟩ := Prod.mk.inj (Option.some.inj h)
      exact Or.inl ⟨t, rfl, rfl, rfl⟩
  | none =>
      simp only [htype] at h
      obtain ⟨rfl, rfl⟩ := Prod.mk.inj (Option.some.inj h)
      exact Or.inr ⟨rfl, rfl, rfl⟩

/-- An option is accepted exactly when its code is 0. -/
theorem processOpts_eq_zero_iff (hctx : sctx.takesOptions)
    (h : processOpts sctx g tag optarg = some (g', rc)) : rc = 0 ↔ Accepts tag optarg := by
  rw [processOpts_of_takesOptions hctx] at h
  cases tag with
  | dataset list =>
      obtain ⟨hptr, d, hparse, -⟩ := processOpts_dataset (Or.inl rfl) h
      rcases parseDatasets_cases hptr optarg with ⟨routes, hroutes, hok⟩ | ⟨hnone, hbad⟩
      · cases hparse.symm.trans hok
        exact iff_of_true rfl ⟨routes, hroutes⟩
      · cases hparse.symm.trans hbad
        exact iff_of_false (by decide) hnone
  | nnodes =>
      obtain ⟨-, rfl⟩ := Prod.mk.inj (Option.some.inj h)
      exact positiveNumber_eq_zero_iff
  | qosLimit =>
      obtain ⟨-, rfl⟩ := Prod.mk.inj (Option.some.inj h)
      exact positiveNumber_eq_zero_iff
  | adhocType =>
      have hsome := adhocTypeOf_isSome optarg
      rcases processOpts_adhocType (Or.inl rfl) h with ⟨t, htype, rfl, -⟩ | ⟨htype, rfl, -⟩
      · exact iff_of_true rfl (hsome.mp (by rw [htype]; rfl))
      · refine iff_of_false (by decide) fun haccepts => ?_
        rw [htype] at hsome
        cases hsome.mpr haccepts
  | adhocOverlap =>
      obtain ⟨-, rfl⟩ := Prod.mk.inj (Option.some.inj h)
      exact iff_of_false (by decide) id
  | adhocExclusive =>
      obtain ⟨-, rfl⟩ := Prod.mk.inj (Option.some.inj h)
      exact iff_of_true rfl trivial
  | adhocDedicated =>
      obtain ⟨-, rfl⟩ := Prod.mk.inj (Option.some.inj h)
      exact iff_of_true rfl trivial
  | adhocRemote =>
      obtain ⟨-, rfl⟩ := Prod.mk.inj (Option.some.inj h)
      exact iff_of_true rfl trivial

/-- An option changes its own value alone. -/
theorem processOpts_frame (hctx : sctx.takesOptions)
    (h : processOpts sctx g tag optarg = some (g', rc)) {f : Field} (hf : f ≠ tag.field) :
    SameField f g g' := by
  rw [processOpts_of_takesOptions hctx] at h
  cases tag with
  | dataset list =>
      obtain ⟨-, d, -, rfl⟩ := processOpts_dataset (Or.inl rfl) h
      cases f with
      | datasets l =>
          have hl : l ≠ list := fun hl => hf (congrArg Field.datasets hl)
          exact if_neg hl
      | _ => rfl
  | adhocType =>
      rcases processOpts_adhocType (Or.inl rfl) h with ⟨t, -, -, rfl⟩ | ⟨-, -, rfl⟩
      · cases f <;> first | rfl | exact absurd rfl hf
      · cases f <;> rfl
  | _ =>
      obtain ⟨rfl, -⟩ := Prod.mk.inj (Option.some.inj h)
      cases f <;> first | rfl | exact absurd rfl hf

/-- A use that is rejected and writes nothing but what is there already. -/
def Harmless (g : Globals) : Tag → String → Prop
  | .nnodes, optarg => (positiveNumber optarg).1 = g.adhocNnodes
  | .qosLimit, optarg => (positiveNumber optarg).1 = g.limit
  | .dataset list, _ => (g.datasets list).ptr = .null
  | _, _ => True

/-- A rejected use keeps its own value exactly when it is harmless. -/
theorem processOpts_rejected_iff (hctx : sctx.takesOptions)
    (h : processOpts sctx g tag optarg = some (g', rc)) (hrc : rc ≠ 0) :
    SameField tag.field g g' ↔ Harmless g tag optarg := by
  have hnot : ¬ Accepts tag optarg := mt (processOpts_eq_zero_iff hctx h).mpr hrc
  rw [processOpts_of_takesOptions hctx] at h
  cases tag with
  | dataset list =>
      obtain ⟨hptr, d, hparse, rfl⟩ := processOpts_dataset (Or.inl rfl) h
      rcases parseDatasets_cases hptr optarg with ⟨routes, hroutes, -⟩ | ⟨-, hbad⟩
      · exact absurd ⟨routes, hroutes⟩ hnot
      · cases hparse.symm.trans hbad
        have hself : (Globals.setDatasets { g with scordFlag := true } list
            ⟨(g.datasets list).ptr.old, (g.datasets list).count⟩).datasets list
              = ⟨(g.datasets list).ptr.old, (g.datasets list).count⟩ := if_pos rfl
        show _ = _ ↔ _ = _
        rw [hself]
        cases hold : g.datasets list with
        | mk ptr count =>
            rw [hold] at hptr
            cases ptr with
            | null => exact iff_of_true rfl rfl
            | live routes => simp [RoutePtr.old]
            | freed => exact absurd rfl hptr
  | nnodes =>
      obtain ⟨rfl, -⟩ := Prod.mk.inj (Option.some.inj h)
      exact Iff.rfl
  | qosLimit =>
      obtain ⟨rfl, -⟩ := Prod.mk.inj (Option.some.inj h)
      exact Iff.rfl
  | adhocType =>
      rcases processOpts_adhocType (Or.inl rfl) h with ⟨t, -, hzero, -⟩ | ⟨-, -, rfl⟩
      · exact absurd hzero hrc
      · exact iff_of_true rfl trivial
  | adhocOverlap =>
      obtain ⟨rfl, -⟩ := Prod.mk.inj (Option.some.inj h)
      exact iff_of_true rfl trivial
  | adhocExclusive => exact absurd trivial hnot
  | adhocDedicated => exact absurd trivial hnot
  | adhocRemote => exact absurd trivial hnot

end OneUse

end Scord.Plugin

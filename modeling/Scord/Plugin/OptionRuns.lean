/-
  Scord.Plugin.OptionRuns

  Command lines of the Slurm plugin: what a sequence of options leaves in the
  variables of `process_opts`.

  The state of a run is the variables with the log of the uses so far, so that
  "set by an earlier accepted option" can be said of it.
-/
import Scord.Plugin.ProcessOpts

namespace Scord.Plugin

open StepSystem

/-! ## Runs -/

/-- An option with its argument. -/
abbrev Use := Tag × String

/-- The uses so far with their return codes, the latest one first. -/
abbrev UseLog := List (Use × Int)

def useStep (sctx : SpankContext) : Globals × UseLog → Use → Option (Globals × UseLog) :=
  logged fun g u => processOpts sctx g u.1 u.2

/-- An accepted option has set the value. -/
def AcceptedFor (log : UseLog) (f : Field) : Prop :=
  ∃ e ∈ log, e.2 = 0 ∧ e.1.1.field = f

/-- A use is answered with 0 exactly when it is valid, and one that is rejected
    keeps the values that accepted ones have set. -/
def ConformsAt (sctx : SpankContext) (s : Globals × UseLog) (u : Use) : Prop :=
  ∀ g' rc, processOpts sctx s.1 u.1 u.2 = some (g', rc) →
    (rc = 0 ↔ Valid u.1 u.2) ∧ (rc ≠ 0 → ∀ f, AcceptedFor s.2 f → SameField f s.1 g')

/-- A command line without undefined behaviour whose uses all conform. -/
def Conforms (sctx : SpankContext) (uses : List Use) : Prop :=
  (∃ s, run (useStep sctx) (Globals.start, []) uses = some s) ∧
    StepsMeet (useStep sctx) (ConformsAt sctx) (Globals.start, []) uses

/-- The use is no slip of the switch, and if it is invalid then no option has set
    its value before, or it writes what is there already. -/
def Unspoilt (s : Globals × UseLog) (u : Use) : Prop :=
  ¬ Mistaken u.1 u.2 ∧ (Valid u.1 u.2 ∨ ¬ AcceptedFor s.2 u.1.field ∨ Harmless s.1 u.1 u.2)

section Runs

variable {sctx : SpankContext} {s s' : Globals × UseLog} {u : Use} {uses : List Use}

theorem useStep_eq_some :
    useStep sctx s u = some s' ↔
      ∃ g' rc, processOpts sctx s.1 u.1 u.2 = some (g', rc) ∧ s' = (g', (u, rc) :: s.2) := by
  obtain ⟨g, log⟩ := s
  exact logged_eq_some

/-- **One use**: it conforms exactly when it is unspoilt. -/
theorem conformsAt_iff (hctx : sctx.takesOptions) (hs : useStep sctx s u = some s') :
    ConformsAt sctx s u ↔ Unspoilt s u := by
  obtain ⟨g', rc, hopts, -⟩ := useStep_eq_some.mp hs
  have hzero := processOpts_eq_zero_iff hctx hopts
  have hvalid : (rc = 0 ↔ Valid u.1 u.2) ↔ ¬ Mistaken u.1 u.2 := by
    rw [hzero]
    exact accepts_iff_valid
  have honly : ConformsAt sctx s u ↔ (rc = 0 ↔ Valid u.1 u.2) ∧
      (rc ≠ 0 → ∀ f, AcceptedFor s.2 f → SameField f s.1 g') := by
    refine ⟨fun h => h g' rc hopts, fun h g'' rc' hopts' => ?_⟩
    obtain ⟨rfl, rfl⟩ := Prod.mk.inj (Option.some.inj (hopts.symm.trans hopts'))
    exact h
  -- a rejected use can only change its own value
  have hown : (∀ f, AcceptedFor s.2 f → SameField f s.1 g') ↔
      (AcceptedFor s.2 u.1.field → SameField u.1.field s.1 g') := by
    refine ⟨fun h => h _, fun h f hf => ?_⟩
    by_cases hfield : f = u.1.field
    · exact hfield ▸ h (hfield ▸ hf)
    · exact processOpts_frame hctx hopts hfield
  rw [honly, hvalid, hown]
  unfold Unspoilt
  refine and_congr_right fun hmistaken => ?_
  rw [← hvalid] at hmistaken
  by_cases hrc : rc = 0
  · exact iff_of_true (fun hne => absurd hrc hne) (Or.inl (hmistaken.mp hrc))
  · rw [processOpts_rejected_iff hctx hopts hrc]
    refine ⟨fun h => Or.inr ?_, fun h _ haccepted => ?_⟩
    · by_cases haccepted : AcceptedFor s.2 u.1.field
      · exact Or.inr (h hrc haccepted)
      · exact Or.inl haccepted
    · rcases h with hvalid | hnot | hharmless
      · exact absurd (hmistaken.mpr hvalid) hrc
      · exact absurd haccepted hnot
      · exact hharmless

/-! ## No array is freed twice -/

/-- No pointer dangles, and one that is not null was set by an accepted option. -/
structure RoutesInv (s : Globals × UseLog) : Prop where
  notFreed : ∀ list, (s.1.datasets list).ptr ≠ .freed
  accepted : ∀ list, (s.1.datasets list).ptr ≠ .null → AcceptedFor s.2 (.datasets list)

theorem routesInv_start : RoutesInv (Globals.start, []) :=
  ⟨fun _ h => (nomatch h), fun _ h => absurd rfl h⟩

theorem AcceptedFor.cons {log : UseLog} {f : Field} (h : AcceptedFor log f) (e : Use × Int) :
    AcceptedFor (e :: log) f := by
  obtain ⟨e', he', hcode, hfield⟩ := h
  exact ⟨e', List.mem_cons_of_mem _ he', hcode, hfield⟩

/-- An unspoilt use frees no array that it does not replace. -/
theorem RoutesInv.step (hctx : sctx.takesOptions) (hi : RoutesInv s) (hu : Unspoilt s u)
    (hs : useStep sctx s u = some s') : RoutesInv s' := by
  obtain ⟨tag, optarg⟩ := u
  obtain ⟨g', rc, hopts, rfl⟩ := useStep_eq_some.mp hs
  have hnew : ∀ list, (g'.datasets list).ptr ≠ .freed ∧
      ((g'.datasets list).ptr ≠ .null →
        AcceptedFor (((tag, optarg), rc) :: s.2) (.datasets list)) := by
    intro list
    by_cases hfield : Field.datasets list = tag.field
    · obtain rfl : tag = .dataset list := by
        cases tag <;> cases hfield
        rfl
      obtain ⟨hptr, d, hparse, rfl⟩ := processOpts_dataset hctx hopts
      have hself : (Globals.setDatasets { s.1 with scordFlag := true } list d).datasets list = d :=
        if_pos rfl
      rw [hself]
      rcases parseDatasets_cases hptr optarg with ⟨routes, -, hok⟩ | ⟨hnone, hbad⟩
      · cases hparse.symm.trans hok
        exact ⟨fun h => (nomatch h), fun _ => ⟨_, List.mem_cons_self, rfl, rfl⟩⟩
      · -- nothing has set the routes before, so there are none
        cases hparse.symm.trans hbad
        have hnull : (s.1.datasets list).ptr = .null := by
          rcases hu.2 with hvalid | hnot | hharmless
          · exact absurd hvalid hnone
          · exact Decidable.not_not.mp (mt (hi.accepted list) hnot)
          · exact hharmless
        rw [hnull]
        exact ⟨fun h => (nomatch h), fun h => absurd rfl h⟩
    · have hsame : g'.datasets list = s.1.datasets list := processOpts_frame hctx hopts hfield
      rw [hsame]
      exact ⟨hi.notFreed list, fun h => (hi.accepted list h).cons _⟩
  exact ⟨fun list => (hnew list).1, fun list => (hnew list).2⟩

/-- Where no pointer dangles, every use is defined. -/
theorem RoutesInv.progress (hctx : sctx.takesOptions) (hi : RoutesInv s) (u : Use) :
    ∃ s', useStep sctx s u = some s' := by
  obtain ⟨tag, optarg⟩ := u
  have hopts : ∃ r, processOpts sctx s.1 tag optarg = some r := by
    rw [processOpts_of_takesOptions hctx]
    cases tag with
    | dataset list =>
        rcases parseDatasets_cases (hi.notFreed list) optarg with ⟨routes, -, hok⟩ | ⟨-, hbad⟩
        · exact ⟨_, Option.map_eq_some_iff.mpr ⟨_, hok, rfl⟩⟩
        · exact ⟨_, Option.map_eq_some_iff.mpr ⟨_, hbad, rfl⟩⟩
    | adhocType =>
        unfold processOpts
        cases adhocTypeOf optarg with
        | some t => exact ⟨_, rfl⟩
        | none => exact ⟨_, rfl⟩
    | _ => exact ⟨_, rfl⟩
  obtain ⟨⟨g', rc⟩, hopts⟩ := hopts
  exact ⟨_, useStep_eq_some.mpr ⟨g', rc, hopts, rfl⟩⟩

/-- **A command line conforms exactly when each of its uses is unspoilt.** -/
theorem conforms_iff (hctx : sctx.takesOptions) (uses : List Use) :
    Conforms sctx uses ↔ StepsMeet (useStep sctx) Unspoilt (Globals.start, []) uses := by
  have hsteps : StepsMeet (useStep sctx) (ConformsAt sctx) (Globals.start, []) uses ↔
      StepsMeet (useStep sctx) Unspoilt (Globals.start, []) uses :=
    stepsMeet_congr (fun s u s' hs => conformsAt_iff hctx hs) uses _
  unfold Conforms
  rw [hsteps]
  refine ⟨And.right, fun h => ⟨?_, h⟩⟩
  exact h.exists_run routesInv_start (fun s u hi => hi.progress hctx u)
    fun s u s' hi hu hs => hi.step hctx hu hs

end Runs

/-- `--adm-adhoc gekkofs --adm-adhoc-nodes 4` -/
theorem conforms_sample : Conforms .ctxLocal [(.adhocType, "gekkofs"), (.nnodes, "4")] := by
  have hnumber : Valid .nnodes "4" := by
    rcases positiveNumber_cases "4" with ⟨-, hpos⟩ | ⟨hbad, -⟩
    · exact hpos
    · exact absurd hbad (by decide)
  rw [conforms_iff (Or.inl rfl)]
  intro s' _
  refine ⟨⟨fun hmistaken => ?_, Or.inl ?_⟩, fun s'' _ => ⟨⟨id, Or.inl hnumber⟩, trivial⟩⟩
  · exact hmistaken.1 (by decide)
  · show "gekkofs" ∈ adhocNames
    decide

/-- `--adm-adhoc-overlap` is valid, and it is rejected. -/
theorem not_conforms_overlap : ¬ Conforms .ctxLocal [(.adhocOverlap, "")] := by
  rintro ⟨-, hsteps⟩
  have hfirst := (hsteps ({ Globals.start with scordFlag := true }, [((.adhocOverlap, ""), -1)])
    rfl).1 _ (-1) rfl
  exact absurd (hfirst.1.mpr trivial) (by decide)

end Scord.Plugin

/-
  Scord.Cli.AdhocClient

  The client `scord_adhoc` (`cli/scord_adhoc.cpp`): what it reads off its command
  line before it talks to the server.

  The routes of `--inputs` and `--outputs` are taken apart by the same loop in
  three places, first at `;` and then at `,`.  The loop indexes the tokens of a
  segment without looking at their number.
-/
import Mathlib.Data.List.Forall2
import Scord.Lib.CMemory
import Scord.Lib.Tokens
import Scord.Types

namespace ScordAdhoc

open CMemory
open Scord (AdhocStorageType Dataset DatasetRoute Node)

/-! ## The command line -/

/-- The options that the routes, the nodes and the storage are read off. -/
structure QueryConfig where
  slurmId : UInt32
  nodes : String
  adhocfs : String
  inputs : String
  outputs : String

/-- What ends `main` early. -/
inductive Ending
  /-- an exception, which `main` catches and prints -/
  | exception (what : String)
  /-- undefined behaviour -/
  | fault (fault : Fault)
deriving DecidableEq, Repr

/-- The tokens of `split`. -/
def split (s : String) (delimiter : Char) : List String :=
  (Tokens.getlines delimiter s.toList).map String.ofList

/-- `nodes.push_back(scord::node{node})` for each of the names. -/
def readNodes (nodes : String) : List Node := (split nodes ',').map fun node => { hostname := node }

def createAdhocTypeFromName (name : String) : Except Ending AdhocStorageType :=
  if name = "gekkofs" then .ok .gekkofs
  else if name = "hercules" then .ok .hercules
  else if name = "expand" then .ok .expand
  else if name = "dataclay" then .ok .dataclay
  else .error (.exception ("Invalid adhoc fs type: " ++ name))

/-- `route[i]` -/
def tokenAt (route : List String) (i : Nat) : Except Ending String :=
  (readAt route i).mapError .fault

section Routes

variable {σ : Type}

/-- The loop over the segments; `push` adds a source and a destination to what
    the loop has so far. -/
def forEachRoute (push : σ → Dataset → Dataset → σ) (acc : σ) :
    List String → Except Ending σ
  | [] => .ok acc
  | srcDst :: rest => do
      let route := split srcDst ','
      let source ← tokenAt route 0
      let destination ← tokenAt route 1
      forEachRoute push (push acc ⟨source⟩ ⟨destination⟩) rest

/-- The loop of `create`, for the inputs and for the outputs. -/
def createRoutes (text : String) : Except Ending (List DatasetRoute) :=
  forEachRoute (fun routes source destination => routes ++ [⟨source, destination⟩]) []
    (split text ';')

/-- The loop of `stage-in` and `stage-out`: the sources and the destinations. -/
def stageDatasets (text : String) : Except Ending (List Dataset × List Dataset) :=
  forEachRoute (fun datasets source destination =>
    (datasets.1 ++ [source], datasets.2 ++ [destination])) ([], []) (split text ';')

end Routes

/-- What `create` sends to the server, but for the addresses. -/
structure CreateArguments where
  nodes : List Node
  type : AdhocStorageType
  adhocName : String
  inputs : List DatasetRoute
  outputs : List DatasetRoute

def createArguments (cfg : QueryConfig) : Except Ending CreateArguments := do
  let nodes := readNodes cfg.nodes
  let type ← createAdhocTypeFromName cfg.adhocfs
  let adhocName := cfg.adhocfs ++ toString cfg.slurmId
  -- here the storage is registered and deployed
  let inputs ← createRoutes cfg.inputs
  let outputs ← createRoutes cfg.outputs
  return { nodes, type, adhocName, inputs, outputs }

def stageInArguments (cfg : QueryConfig) : Except Ending (List Dataset × List Dataset) :=
  stageDatasets cfg.inputs

def stageOutArguments (cfg : QueryConfig) : Except Ending (List Dataset × List Dataset) :=
  stageDatasets cfg.outputs

/-! ## What the texts mean -/

/-- The segments between semicolons; the empty text has none. -/
def segments (text : String) : List String :=
  if text = "" then [] else (text.toList.splitOn ';').map String.ofList

/-- The pair is what is before and after the only comma of the segment. -/
structure TakesApart (segment : String) (pair : Dataset × Dataset) : Prop where
  text : segment.toList = pair.1.id.toList ++ ',' :: pair.2.id.toList
  source : ',' ∉ pair.1.id.toList
  destination : ',' ∉ pair.2.id.toList

/-- The text is read as one pair for each segment, in their order, or an error
    is reported. -/
def Total {σ : Type} (text : String) (r : Except Ending σ)
    (view : List (Dataset × Dataset) → σ) : Prop :=
  (∃ what, r = .error (.exception what)) ∨
    ∃ pairs, r = .ok (view pairs) ∧ List.Forall₂ TakesApart (segments text) pairs

/-- Every segment has one comma, and something behind it. -/
def WellSeparated (text : String) : Prop :=
  ∀ segment ∈ segments text, ∃ pair, TakesApart segment pair ∧ pair.2.id ≠ ""

/-! ## One segment -/

theorem split_eq {s : String} {delimiter : Char} {tokens : List (List Char)}
    (h : Tokens.getlines delimiter s.toList = tokens) :
    split s delimiter = tokens.map String.ofList := congrArg (List.map String.ofList) h

/-- Nothing behind the comma is no token. -/
theorem TakesApart.split_eq {segment : String} {pair : Dataset × Dataset}
    (h : TakesApart segment pair) :
    split segment ',' =
      if pair.2.id = "" then [pair.1.id] else [pair.1.id, pair.2.id] := by
  have hlines := Tokens.getlines_append_cons h.source pair.2.id.toList
  rw [← h.text] at hlines
  -- behind a comma at the end of the stream, `getline` has nothing to give
  by_cases hempty : pair.2.id = ""
  · rw [if_pos hempty, ScordAdhoc.split_eq hlines, hempty]
    simp
  · have hne : pair.2.id.toList ≠ [] := fun hnil => hempty (String.toList_eq_nil_iff.mp hnil)
    rw [if_neg hempty, ScordAdhoc.split_eq hlines,
      Tokens.getlines_of_not_mem h.destination hne]
    simp

/-! ## The loop -/

section Loop

variable {σ : Type} {push : σ → Dataset → Dataset → σ} {acc : σ}

/-- The first two tokens of a segment. -/
def FirstTokens (segment : String) (pair : Dataset × Dataset) : Prop :=
  ∃ more, split segment ',' = pair.1.id :: pair.2.id :: more

/-- A pass of the loop over a segment with two tokens, -/
theorem forEachRoute_cons {segment : String} {pair : Dataset × Dataset}
    (h : FirstTokens segment pair) (segs : List String) :
    forEachRoute push acc (segment :: segs) = forEachRoute push (push acc pair.1 pair.2) segs := by
  obtain ⟨more, hsplit⟩ := h
  rw [forEachRoute]
  simp only [hsplit]
  rfl

/-- and over one with less: a token is read that does not exist. -/
theorem forEachRoute_cons_of_not {segment : String}
    (h : ¬ ∃ pair, FirstTokens segment pair) (segs : List String) :
    forEachRoute push acc (segment :: segs) = .error (.fault .outOfBounds) := by
  rw [forEachRoute]
  cases hsplit : split segment ',' with
  | nil => rfl
  | cons source rest =>
      cases rest with
      | nil => rfl
      | cons destination more => exact absurd ⟨(⟨source⟩, ⟨destination⟩), more, hsplit⟩ h

/-- The loop goes by the first two tokens of each segment. -/
theorem forEachRoute_of_firstTokens {segs : List String} {pairs : List (Dataset × Dataset)}
    (h : List.Forall₂ FirstTokens segs pairs) (acc : σ) :
    forEachRoute push acc segs
      = .ok (pairs.foldl (fun acc pair => push acc pair.1 pair.2) acc) := by
  induction h generalizing acc with
  | nil => rfl
  | cons hpair _ ih =>
      rw [forEachRoute_cons hpair, List.foldl_cons]
      exact ih _

/-- It succeeds when each segment has two tokens, and is undefined else: it never
    throws. -/
theorem forEachRoute_cases (push : σ → Dataset → Dataset → σ) (segs : List String) (acc : σ) :
    (∃ pairs, List.Forall₂ FirstTokens segs pairs) ∨
      forEachRoute push acc segs = .error (.fault .outOfBounds) := by
  induction segs generalizing acc with
  | nil => exact Or.inl ⟨[], .nil⟩
  | cons segment segs ih =>
      by_cases hfirst : ∃ pair, FirstTokens segment pair
      · obtain ⟨pair, hpair⟩ := hfirst
        rw [forEachRoute_cons hpair]
        rcases ih (push acc pair.1 pair.2) with ⟨pairs, hpairs⟩ | hfault
        · exact Or.inl ⟨pair :: pairs, .cons hpair hpairs⟩
        · exact Or.inr hfault
      · exact Or.inr (forEachRoute_cons_of_not hfirst segs)

end Loop

/-! ## The whole text -/

theorem split_eq_segments_or (text : String) :
    segments text = split text ';' ∨ text ≠ "" ∧ segments text = split text ';' ++ [""] := by
  unfold segments split
  by_cases hempty : text = ""
  · rw [if_pos hempty, hempty, String.toList_empty, Tokens.getlines_nil]
    exact Or.inl rfl
  · rw [if_neg hempty]
    rcases Tokens.splitOn_eq_getlines ';' text.toList with h | h
    · rw [h]
      exact Or.inl rfl
    · rw [h, List.map_append]
      exact Or.inr ⟨hempty, rfl⟩

/-- The first two tokens of a segment, when they are what it takes apart to. -/
theorem destination_ne_empty {segment : String} {pair : Dataset × Dataset}
    (hapart : TakesApart segment pair) (hfirst : FirstTokens segment pair) : pair.2.id ≠ "" := by
  intro hempty
  obtain ⟨more, hsplit⟩ := hfirst
  rw [hapart.split_eq, if_pos hempty] at hsplit
  cases hsplit

theorem TakesApart.firstTokens {segment : String} {pair : Dataset × Dataset}
    (h : TakesApart segment pair) (hne : pair.2.id ≠ "") : FirstTokens segment pair := by
  refine ⟨[], ?_⟩
  rw [h.split_eq, if_neg hne]

/-- In a well-separated text there is no segment that the loop does not see. -/
theorem WellSeparated.segments_eq {text : String} (h : WellSeparated text) :
    segments text = split text ';' := by
  rcases split_eq_segments_or text with hsegs | ⟨-, hsegs⟩
  · exact hsegs
  · obtain ⟨pair, hpair, -⟩ := h "" (by rw [hsegs]; simp)
    have htext := hpair.text
    simp at htext

/-- One element at a time. -/
theorem exists_of_forall₂ {α β : Type} {R S : α → β → Prop} {as : List α} {bs : List β}
    (hR : List.Forall₂ R as bs) (hS : List.Forall₂ S as bs) :
    ∀ a ∈ as, ∃ b, R a b ∧ S a b := by
  induction hR with
  | nil => exact fun a ha => absurd ha List.not_mem_nil
  | @cons a b as bs hab _ ih =>
      cases hS with
      | cons hab' hS =>
          intro c hc
          rcases List.mem_cons.mp hc with rfl | hc
          · exact ⟨b, hab, hab'⟩
          · exact ih hS c hc

theorem exists_forall₂ {α β : Type} {R : α → β → Prop} {as : List α}
    (h : ∀ a ∈ as, ∃ b, R a b) : ∃ bs, List.Forall₂ R as bs := by
  induction as with
  | nil => exact ⟨[], .nil⟩
  | cons a as ih =>
      obtain ⟨b, hb⟩ := h a List.mem_cons_self
      obtain ⟨bs, hbs⟩ := ih fun c hc => h c (List.mem_cons_of_mem _ hc)
      exact ⟨b :: bs, .cons hb hbs⟩

/-- **The loop reads a text totally exactly when each of its segments has one
    comma, and something behind it.** -/
theorem total_iff {σ : Type} {push : σ → Dataset → Dataset → σ} {acc : σ}
    {view : List (Dataset × Dataset) → σ}
    (hview : ∀ pairs, pairs.foldl (fun acc pair => push acc pair.1 pair.2) acc = view pairs)
    (hinj : Function.Injective view) (text : String) :
    Total text (forEachRoute push acc (split text ';')) view ↔ WellSeparated text := by
  refine ⟨?_, fun hwell => ?_⟩
  · rcases forEachRoute_cases push (split text ';') acc with ⟨pairs, hfirst⟩ | hfault
    · rw [forEachRoute_of_firstTokens hfirst, hview]
      rintro (⟨what, hthrows⟩ | ⟨pairs', hok, hapart⟩)
      · cases hthrows
      · obtain rfl := hinj (Except.ok.inj hok)
        -- one pair for each segment, so that no segment was missed
        have hlength := hfirst.length_eq.trans hapart.length_eq.symm
        have hsegs : segments text = split text ';' := by
          rcases split_eq_segments_or text with hsegs | ⟨-, hsegs⟩
          · exact hsegs
          · rw [hsegs, List.length_append, List.length_singleton] at hlength
            omega
        rw [← hsegs] at hfirst
        intro segment hsegment
        obtain ⟨pair, hpair, htokens⟩ := exists_of_forall₂ hapart hfirst segment hsegment
        exact ⟨pair, hpair, destination_ne_empty hpair htokens⟩
    · rw [hfault]
      rintro (⟨what, hthrows⟩ | ⟨pairs, hok, -⟩)
      · cases hthrows
      · cases hok
  · have hsegs := hwell.segments_eq
    obtain ⟨pairs, hpairs⟩ := exists_forall₂ hwell
    have hfirst : List.Forall₂ FirstTokens (split text ';') pairs := by
      rw [← hsegs]
      exact hpairs.imp fun segment pair h => h.1.firstTokens h.2
    refine Or.inr ⟨pairs, ?_, hpairs.imp fun segment pair h => h.1⟩
    rw [forEachRoute_of_firstTokens hfirst, hview]

/-! ## The three places -/

/-- `create` appends the routes, -/
theorem foldl_createRoutes (pairs : List (Dataset × Dataset)) (routes : List DatasetRoute) :
    pairs.foldl (fun routes pair => routes ++ [⟨pair.1, pair.2⟩]) routes
      = routes ++ pairs.map fun pair => ⟨pair.1, pair.2⟩ := by
  induction pairs generalizing routes with
  | nil => simp
  | cons pair pairs ih => rw [List.foldl_cons, ih, List.map_cons, List.append_assoc]; rfl

/-- and the stages append sources and destinations. -/
theorem foldl_stageDatasets (pairs : List (Dataset × Dataset))
    (datasets : List Dataset × List Dataset) :
    pairs.foldl (fun datasets pair => (datasets.1 ++ [pair.1], datasets.2 ++ [pair.2])) datasets
      = (datasets.1 ++ pairs.map Prod.fst, datasets.2 ++ pairs.map Prod.snd) := by
  induction pairs generalizing datasets with
  | nil => simp
  | cons pair pairs ih => rw [List.foldl_cons, ih]; simp

/-- The routes of these pairs. -/
def routesOf (pairs : List (Dataset × Dataset)) : List DatasetRoute :=
  pairs.map fun pair => ⟨pair.1, pair.2⟩

def datasetsOf (pairs : List (Dataset × Dataset)) : List Dataset × List Dataset :=
  (pairs.map Prod.fst, pairs.map Prod.snd)

theorem routesOf_injective : Function.Injective routesOf := by
  apply List.map_injective_iff.mpr
  intro pair pair' h
  obtain ⟨hsource, hdestination⟩ := DatasetRoute.mk.inj h
  exact Prod.ext hsource hdestination

theorem datasetsOf_injective : Function.Injective datasetsOf := by
  intro pairs pairs' h
  obtain ⟨hsources, hdestinations⟩ := Prod.mk.inj h
  rw [← List.zip_unzip pairs, ← List.zip_unzip pairs', List.unzip_eq_map, List.unzip_eq_map,
    hsources, hdestinations]

theorem createRoutes_total_iff (text : String) :
    Total text (createRoutes text) routesOf ↔ WellSeparated text := by
  refine total_iff (fun pairs => ?_) routesOf_injective text
  rw [foldl_createRoutes, List.nil_append]
  rfl

theorem stageDatasets_total_iff (text : String) :
    Total text (stageDatasets text) datasetsOf ↔ WellSeparated text := by
  refine total_iff (fun pairs => ?_) datasetsOf_injective text
  rw [foldl_stageDatasets, List.nil_append, List.nil_append]
  rfl

/-- **The inputs and the outputs are read totally, by `create` and by the stages,
    exactly when they are well separated.** -/
theorem routes_total_iff (cfg : QueryConfig) :
    (Total cfg.inputs (createRoutes cfg.inputs) routesOf ↔ WellSeparated cfg.inputs) ∧
      (Total cfg.outputs (createRoutes cfg.outputs) routesOf ↔ WellSeparated cfg.outputs) ∧
      (Total cfg.inputs (stageInArguments cfg) datasetsOf ↔ WellSeparated cfg.inputs) ∧
      (Total cfg.outputs (stageOutArguments cfg) datasetsOf ↔ WellSeparated cfg.outputs) :=
  ⟨createRoutes_total_iff _, createRoutes_total_iff _, stageDatasets_total_iff _,
    stageDatasets_total_iff _⟩

/-- A dataset without a comma: there is no second token to read. -/
theorem not_total_no_comma :
    ¬ Total "lustre:/a" (createRoutes "lustre:/a") routesOf := by
  rw [createRoutes_total_iff]
  intro hwell
  obtain ⟨pair, hpair, -⟩ := hwell "lustre:/a" (by decide)
  have hmem : ',' ∈ "lustre:/a".toList := by
    rw [hpair.text]
    simp
  revert hmem
  decide

/-! ## The arguments of `create` -/

/-- A text of routes that is read without undefined behaviour. -/
def Readable (text : String) : Prop := ∃ pairs, List.Forall₂ FirstTokens (split text ';') pairs

theorem exists_createRoutes_eq_ok {text : String} :
    (∃ routes, createRoutes text = .ok routes) ↔ Readable text := by
  refine ⟨fun ⟨routes, hok⟩ => ?_, fun ⟨pairs, hpairs⟩ => ⟨_, forEachRoute_of_firstTokens hpairs _⟩⟩
  rcases forEachRoute_cases (fun routes source destination =>
    routes ++ [(⟨source, destination⟩ : DatasetRoute)]) (split text ';') [] with hpairs | hfault
  · exact hpairs
  · cases hok.symm.trans hfault

/-- **`create` gets to the registration of the job exactly when the type is known
    and both texts are readable**; by then the storage has been deployed. -/
theorem exists_createArguments_eq_ok {cfg : QueryConfig} :
    (∃ arguments, createArguments cfg = .ok arguments) ↔
      (∃ type, createAdhocTypeFromName cfg.adhocfs = .ok type) ∧
        Readable cfg.inputs ∧ Readable cfg.outputs := by
  rw [← exists_createRoutes_eq_ok, ← exists_createRoutes_eq_ok]
  unfold createArguments
  cases createAdhocTypeFromName cfg.adhocfs with
  | error e => exact iff_of_false (fun ⟨_, h⟩ => nomatch h) (fun ⟨⟨_, h⟩, _⟩ => nomatch h)
  | ok type =>
      cases createRoutes cfg.inputs with
      | error e => exact iff_of_false (fun ⟨_, h⟩ => nomatch h) (fun ⟨_, ⟨_, h⟩, _⟩ => nomatch h)
      | ok inputs =>
          cases createRoutes cfg.outputs with
          | error e =>
              exact iff_of_false (fun ⟨_, h⟩ => nomatch h) (fun ⟨_, _, _, h⟩ => nomatch h)
          | ok outputs => exact iff_of_true ⟨_, rfl⟩ ⟨⟨_, rfl⟩, ⟨_, rfl⟩, ⟨_, rfl⟩⟩

end ScordAdhoc

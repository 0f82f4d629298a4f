/-
  Scord.CApi.DatasetRoutes

  `scord_utils_parse_dataset_routes` (`utils.cpp`): the routes that are written
  as `src=dst;...;src=dst`.  The grammar of such a text is stated on its own; the
  parser accepts exactly this grammar, and inverts printing.
-/
import Mathlib.Data.List.Forall2
import Scord.CApi.Types
import Scord.Lib.Tokens

namespace Scord

open CMemory

/-! ## The parser -/

/-- `*parsed_routes`: an array of routes, or null. -/
abbrev RouteArray := Option (List AdmDatasetRoute)

/-- The return code, and what the two output parameters point to afterwards. -/
structure ParsedRoutes where
  returned : ErrorCode
  parsedRoutes : Option RouteArray
  parsedRoutesCount : Option Nat

/-- The loop over the segments, which appends to `tmp`. -/
def parseSegments (tmp : List AdmDatasetRoute) :
    List (List Char) → Result (Except ErrorCode (List AdmDatasetRoute))
  | [] => .ok (.ok tmp)
  | rs :: rest =>
      match Tokens.split rs '=' with
      | [source, destination] => do
          let dr ← admDatasetRouteCreate
            (some (admDatasetCreate (some (String.ofList source))))
            (some (admDatasetCreate (some (String.ofList destination))))
          parseSegments (tmp ++ [dr]) rest
      -- `parts.size() != 2`
      | _ => .ok (.error .badArgs)

/-- `scord_utils_parse_dataset_routes`.  A pointer that is null is `none`; else it
    is what it points to. -/
def scordUtilsParseDatasetRoutes (routes : Option String) (parsedRoutes : Option RouteArray)
    (parsedRoutesCount : Option Nat) : Result ParsedRoutes :=
  match routes, parsedRoutes, parsedRoutesCount with
  | some routes, some _, some _ =>
      if routes = "" then .ok ⟨.badArgs, parsedRoutes, parsedRoutesCount⟩
      else do
        match ← parseSegments [] (Tokens.split routes.toList ';') with
        | .error ec => return ⟨ec, parsedRoutes, parsedRoutesCount⟩
        | .ok tmp => return ⟨.success, some (some tmp), some tmp.length⟩
  | _, _, _ => .ok ⟨.badArgs, parsedRoutes, parsedRoutesCount⟩

/-! ## The grammar -/

/-- A segment: a source and a destination around its only `=`. -/
structure RouteSegment (segment : List Char) (ids : String × String) : Prop where
  text : segment = ids.1.toList ++ '=' :: ids.2.toList
  source : '=' ∉ ids.1.toList
  destination : '=' ∉ ids.2.toList

/-- The text is the sequence of the segments of at least one route, with `;`
    between them. -/
def RouteList (s : String) (routes : List (String × String)) : Prop :=
  routes ≠ [] ∧ ∃ segments, s.toList = [';'].intercalate segments ∧
    (∀ segment ∈ segments, ';' ∉ segment) ∧ List.Forall₂ RouteSegment segments routes

/-- `src=dst;...;src=dst` -/
def printRoutes (routes : List (String × String)) : String :=
  ";".intercalate (routes.map fun e => e.1 ++ "=" ++ e.2)

/-- The sources and destinations can be told from the separators. -/
def Separable (routes : List (String × String)) : Prop :=
  ∀ e ∈ routes, ';' ∉ e.1.toList ∧ '=' ∉ e.1.toList ∧ ';' ∉ e.2.toList ∧ '=' ∉ e.2.toList

/-! ## One segment -/

/-- A route segment has two parts, -/
theorem RouteSegment.split_eq {segment : List Char} {ids : String × String}
    (h : RouteSegment segment ids) :
    Tokens.split segment '=' = [ids.1.toList, ids.2.toList] := by
  rw [Tokens.split_eq_splitOn, h.text, List.splitOn_append_cons_self_of_not_mem h.source,
    List.splitOn_eq_singleton h.destination]

/-- and what has two parts is a route segment. -/
theorem routeSegment_of_split_eq {segment source destination : List Char}
    (h : Tokens.split segment '=' = [source, destination]) :
    RouteSegment segment (String.ofList source, String.ofList destination) := by
  rw [Tokens.split_eq_splitOn] at h
  have htext : ['='].intercalate (segment.splitOn '=') = segment := List.intercalate_splitOn '='
  have hparts : ∀ part ∈ [source, destination], '=' ∉ part := by
    intro part hpart
    rw [← h] at hpart
    exact Tokens.not_mem_of_mem_splitOn hpart
  constructor
  · rw [← htext, h, String.toList_ofList, String.toList_ofList]
    simp
  · rw [String.toList_ofList]
    exact hparts source (by simp)
  · rw [String.toList_ofList]
    exact hparts destination (by simp)

/-! ## All segments -/

/-- The loop over route segments. -/
theorem parseSegments_of_routes {segments : List (List Char)} {routes : List (String × String)}
    (h : List.Forall₂ RouteSegment segments routes) (tmp : List AdmDatasetRoute) :
    parseSegments tmp segments = .ok (.ok (tmp ++ routes.map admRoute)) := by
  induction h generalizing tmp with
  | nil =>
      rw [List.map_nil, List.append_nil]
      rfl
  | @cons segment ids segments routes hsegment _ ih =>
      have hnext := ih (tmp ++ [admRoute ids])
      rw [List.append_assoc, List.singleton_append] at hnext
      rw [parseSegments, hsegment.split_eq]
      show parseSegments (tmp ++ [admRoute (String.ofList ids.1.toList,
        String.ofList ids.2.toList)]) segments = _
      rw [String.ofList_toList, String.ofList_toList, hnext, List.map_cons]

/-- The loop ends with `ADM_EBADARGS` at a segment that is none. -/
theorem parseSegments_of_not {segments : List (List Char)}
    (h : ¬ ∃ routes, List.Forall₂ RouteSegment segments routes) (tmp : List AdmDatasetRoute) :
    parseSegments tmp segments = .ok (.error .badArgs) := by
  induction segments generalizing tmp with
  | nil => exact absurd ⟨[], List.Forall₂.nil⟩ h
  | cons segment segments ih =>
      rw [parseSegments]
      split
      · next source destination hsplit =>
          apply ih
          rintro ⟨routes, hroutes⟩
          exact h ⟨_, List.Forall₂.cons (routeSegment_of_split_eq hsplit) hroutes⟩
      · rfl

/-- The segments of a route list are those that the parser finds. -/
theorem routeList_iff {s : String} {routes : List (String × String)} :
    RouteList s routes ↔ List.Forall₂ RouteSegment (Tokens.split s.toList ';') routes := by
  rw [Tokens.split_eq_splitOn]
  refine ⟨?_, ?_⟩
  · rintro ⟨hne, segments, htext, hfree, hroutes⟩
    have hsegments : segments ≠ [] := by
      rintro rfl
      cases hroutes
      exact hne rfl
    rw [htext, List.splitOn_intercalate _ hfree hsegments]
    exact hroutes
  · intro hroutes
    refine ⟨?_, _, (List.intercalate_splitOn ';').symm,
      fun _ => Tokens.not_mem_of_mem_splitOn, hroutes⟩
    rintro rfl
    cases hsegments : s.toList.splitOn ';' with
    | nil => exact List.splitOn_ne_nil _ _ hsegments
    | cons segment segments =>
        rw [hsegments] at hroutes
        cases hroutes

/-- The empty text is no route list. -/
theorem not_routeList_empty (routes : List (String × String)) : ¬ RouteList "" routes := by
  rw [routeList_iff]
  intro h
  have hsegments : Tokens.split "".toList ';' = [[]] := by
    rw [Tokens.split_eq_splitOn]
    rfl
  rw [hsegments] at h
  cases h with
  | cons hsegment _ =>
      have htext := hsegment.text
      simp at htext

/-- A printed list of routes is in the grammar. -/
theorem routeList_printRoutes {routes : List (String × String)} (hne : routes ≠ [])
    (h : Separable routes) : RouteList (printRoutes routes) routes := by
  refine ⟨hne, routes.map fun e => e.1.toList ++ '=' :: e.2.toList, ?_, ?_, ?_⟩
  · rw [printRoutes, String.toList_intercalate, List.map_map]
    apply congrArg
    apply List.map_congr_left
    intro e _
    simp
  · intro segment hsegment
    obtain ⟨e, he, rfl⟩ := List.mem_map.mp hsegment
    obtain ⟨hsrc, -, hdst, -⟩ := h e he
    simp [hsrc, hdst]
  · rw [List.forall₂_map_left_iff, List.forall₂_same]
    intro e he
    obtain ⟨-, hsrc, -, hdst⟩ := h e he
    exact ⟨rfl, hsrc, hdst⟩

/-! ## The whole text -/

/-- A text in the grammar: the routes are reported, in their order. -/
theorem scordUtilsParseDatasetRoutes_of_routeList {s : String} {routes : List (String × String)}
    (h : RouteList s routes) (p : RouteArray) (n : Nat) :
    scordUtilsParseDatasetRoutes (some s) (some p) (some n)
      = .ok ⟨.success, some (some (routes.map admRoute)), some routes.length⟩ := by
  have hne : s ≠ "" := by
    rintro rfl
    exact not_routeList_empty routes h
  have hsegments := parseSegments_of_routes (routeList_iff.mp h) []
  rw [List.nil_append] at hsegments
  simp only [scordUtilsParseDatasetRoutes, if_neg hne, hsegments]
  show Except.ok _ = _
  rw [List.length_map]

/-- Any other text: the output parameters keep their contents. -/
theorem scordUtilsParseDatasetRoutes_of_not {s : String} (h : ¬ ∃ routes, RouteList s routes)
    (p : RouteArray) (n : Nat) :
    scordUtilsParseDatasetRoutes (some s) (some p) (some n) = .ok ⟨.badArgs, some p, some n⟩ := by
  simp only [scordUtilsParseDatasetRoutes]
  by_cases hempty : s = ""
  · rw [if_pos hempty]
  · simp only [routeList_iff] at h
    rw [if_neg hempty, parseSegments_of_not h]
    rfl

/-- A null pointer is a bad argument, too. -/
theorem scordUtilsParseDatasetRoutes_of_null {routes : Option String} {p : Option RouteArray}
    {n : Option Nat} (h : routes = none ∨ p = none ∨ n = none) :
    scordUtilsParseDatasetRoutes routes p n = .ok ⟨.badArgs, p, n⟩ := by
  rcases h with rfl | rfl | rfl
  · rfl
  · cases routes <;> rfl
  · cases routes <;> cases p <;> rfl

/-- **The parser accepts exactly its grammar, and inverts printing**; with
    `ADM_EBADARGS` the output parameters keep their contents. -/
theorem scordUtilsParseDatasetRoutes_spec (s : String) (p : RouteArray) (n : Nat) :
    (∃ r, scordUtilsParseDatasetRoutes (some s) (some p) (some n) = .ok r ∧
      (r.returned = .success ↔ ∃ routes, RouteList s routes) ∧
      (∀ routes, RouteList s routes → r.parsedRoutes = some (some (routes.map admRoute)) ∧
        r.parsedRoutesCount = some routes.length) ∧
      (r.returned = .success ∨
        r.returned = .badArgs ∧ r.parsedRoutes = some p ∧ r.parsedRoutesCount = some n)) ∧
    ∀ routes, routes ≠ [] → Separable routes →
      scordUtilsParseDatasetRoutes (some (printRoutes routes)) (some p) (some n)
        = .ok ⟨.success, some (some (routes.map admRoute)), some routes.length⟩ := by
  refine ⟨?_, fun routes hne hsep =>
    scordUtilsParseDatasetRoutes_of_routeList (routeList_printRoutes hne hsep) p n⟩
  by_cases hlist : ∃ routes, RouteList s routes
  · obtain ⟨routes, hroutes⟩ := hlist
    refine ⟨_, scordUtilsParseDatasetRoutes_of_routeList hroutes p n, ?_, ?_, Or.inl rfl⟩
    · exact iff_of_true rfl ⟨routes, hroutes⟩
    · intro routes' hroutes'
      -- both lists are what the same result reports
      have hsame := (scordUtilsParseDatasetRoutes_of_routeList hroutes p n).symm.trans
        (scordUtilsParseDatasetRoutes_of_routeList hroutes' p n)
      obtain ⟨-, harray, hcount⟩ := ParsedRoutes.mk.inj (Except.ok.inj hsame)
      exact ⟨harray, hcount⟩
  · refine ⟨_, scordUtilsParseDatasetRoutes_of_not hlist p n, ?_, ?_, Or.inr ⟨rfl, rfl, rfl⟩⟩
    · exact iff_of_false (fun h : ErrorCode.badArgs = .success => nomatch h) hlist
    · exact fun routes hroutes => absurd ⟨routes, hroutes⟩ hlist

end Scord

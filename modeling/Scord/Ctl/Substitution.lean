/-
  Scord.Ctl.Substitution

  What `command::eval` makes of a template, and what `as_vector` makes of the
  evaluated command.

  Every keyword begins with a brace that is nowhere else in it, so a template is
  taken apart at its keywords in one way, and `eval` fills in the values between
  the literals.  The command line is split at its spaces after that, so a value
  with a space is more than one argument.
-/
import Mathlib.Data.List.ModifyLast
import Scord.Ctl.Command
import Scord.Lib.Keywords

namespace ScordCtl

open FileSystem

namespace Command

/-! ## The two overloads of `eval` -/

def keywords : List String := [keywordId, keywordDirectory, keywordNodes]
def keywordsMalleability : List String := [keywordId, keywordNodes]

/-- The arguments of the overload for startup and shutdown, and of the one for
    expand and shrink. -/
inductive Arguments
  | startup (adhocId : String) (adhocDirectory : Path) (adhocNodes : List String)
  | malleability (adhocId : String) (adhocNodes : List String)

namespace Arguments

/-- `replacements`, in the order of its keys. -/
def replacements : Arguments → List (String × String)
  | startup adhocId adhocDirectory adhocNodes =>
      [(keywordDirectory, adhocDirectory.text), (keywordId, adhocId),
        (keywordNodes, nodesText adhocNodes)]
  | malleability adhocId adhocNodes =>
      [(keywordId, adhocId), (keywordNodes, nodesText adhocNodes)]

def adhocId : Arguments → String
  | startup adhocId _ _ => adhocId
  | malleability adhocId _ => adhocId

def adhocNodes : Arguments → List String
  | startup _ _ adhocNodes => adhocNodes
  | malleability _ adhocNodes => adhocNodes

/-- The value of a keyword: the id, the hostnames joined by commas between double
    quotes, or the directory, for the overload that has one. -/
def value (a : Arguments) (k : List Char) : List Char :=
  if k = keywordId.toList then a.adhocId.toList
  else if k = keywordNodes.toList then (nodesText a.adhocNodes).toList
  else
    match a with
    | startup _ adhocDirectory _ => adhocDirectory.text.toList
    | malleability _ _ => k

/-- The keywords of the overload. -/
def keys : Arguments → List (List Char)
  | startup _ _ _ => keywords.map String.toList
  | malleability _ _ => keywordsMalleability.map String.toList

end Arguments

/-- `eval` -/
def evalAt (c : Command) : Arguments → Command
  | .startup adhocId adhocDirectory adhocNodes => c.eval adhocId adhocDirectory adhocNodes
  | .malleability adhocId adhocNodes => c.evalMalleability adhocId adhocNodes

theorem evalAt_eq (c : Command) (a : Arguments) :
    c.evalAt a
      = ⟨String.ofList (replaceKeywords a.replacements 0 c.cmdline.toList), c.env⟩ := by
  cases a <;> rfl

/-! ## The matches of the regular expression -/

/-- The keyword at the front of a text, with the characters of its value. -/
def findKeyword (replacements : List (String × String)) (cs : List Char) :
    Option (List Char × Nat) :=
  (keywordAt replacements cs).map fun r => (r.1.toList, r.2)

theorem replaceKeywords_eq (replacements : List (String × String)) (skip : Nat)
    (cs : List Char) :
    replaceKeywords replacements skip cs
      = Keywords.replace (findKeyword replacements) skip cs := by
  induction cs generalizing skip with
  | nil => cases skip <;> rfl
  | cons c cs ih =>
      cases skip with
      | succ skip => exact ih skip
      | zero =>
          rw [replaceKeywords, Keywords.replace]
          unfold findKeyword
          cases h : keywordAt replacements (c :: cs) with
          | none => simp only [Option.map_none, ih]; rfl
          | some r => simp only [Option.map_some, ih]; rfl

theorem evalAt_cmdline (c : Command) (a : Arguments) : (c.evalAt a).cmdline
    = String.ofList (Keywords.replace (findKeyword a.replacements) 0 c.cmdline.toList) := by
  rw [evalAt_eq, replaceKeywords_eq]

/-- Every keyword begins with the brace in front. -/
theorem delimited_keywords : Keywords.Delimited '\x7b' (keywords.map String.toList) := by
  have hshape : ∀ k ∈ keywords.map String.toList, k = '\x7b' :: k.tail ∧ '\x7b' ∉ k.tail := by
    decide
  exact ⟨fun k hk => ⟨k.tail, hshape k hk⟩, by decide⟩

theorem Arguments.mem_keywords (a : Arguments) : ∀ k ∈ a.keys, k ∈ keywords.map String.toList := by
  cases a with
  | startup adhocId adhocDirectory adhocNodes => exact fun _ hk => hk
  | malleability adhocId adhocNodes =>
      have hsub : ∀ k ∈ keywordsMalleability.map String.toList, k ∈ keywords.map String.toList := by
        decide
      exact hsub

theorem Arguments.delimited (a : Arguments) : Keywords.Delimited '\x7b' a.keys :=
  delimited_keywords.mono a.mem_keywords

/-- A space is in no keyword. -/
theorem Arguments.space_not_mem (a : Arguments) : ∀ k ∈ a.keys, ' ' ∉ k := by
  have hspace : ∀ k ∈ keywords.map String.toList, ' ' ∉ k := by decide
  exact fun k hk => hspace k (a.mem_keywords k hk)

/-- The regular expression finds the keywords of the map, each with its value. -/
theorem finds_findKeyword {replacements : List (String × String)} {v : List Char → List Char}
    (hv : ∀ r ∈ replacements, v r.1.toList = r.2.toList) :
    Keywords.Finds (replacements.map fun r => r.1.toList) v (findKeyword replacements) where
  found := by
    intro cs r h
    obtain ⟨⟨value, length⟩, hsome, rfl⟩ := Option.map_eq_some_iff.mp h
    obtain ⟨e, he, hmatch⟩ := List.exists_of_findSome?_eq_some hsome
    by_cases hprefix : e.1.toList.isPrefixOf cs = true
    · rw [if_pos hprefix, Option.some.injEq] at hmatch
      cases hmatch
      refine ⟨e.1.toList, List.mem_map_of_mem he, List.isPrefixOf_iff_prefix.mp hprefix, ?_⟩
      rw [hv e he, String.length_toList]
    · rw [if_neg hprefix] at hmatch
      cases hmatch
  notFound := by
    intro cs h k hk hprefix
    obtain ⟨e, he, rfl⟩ := List.mem_map.mp hk
    have hnone := List.findSome?_eq_none_iff.mp (Option.map_eq_none_iff.mp h) e he
    rw [if_pos (List.isPrefixOf_iff_prefix.mpr hprefix)] at hnone
    cases hnone

section Values

variable (a : Arguments)

theorem Arguments.value_id : a.value keywordId.toList = a.adhocId.toList := if_pos rfl

theorem Arguments.value_nodes :
    a.value keywordNodes.toList = (nodesText a.adhocNodes).toList := by
  have hne : keywordNodes.toList ≠ keywordId.toList := by decide
  unfold value
  rw [if_neg hne, if_pos rfl]

theorem Arguments.value_directory (adhocId : String) (adhocDirectory : Path)
    (adhocNodes : List String) :
    (startup adhocId adhocDirectory adhocNodes).value keywordDirectory.toList
      = adhocDirectory.text.toList := by
  have hid : keywordDirectory.toList ≠ keywordId.toList := by decide
  have hnodes : keywordDirectory.toList ≠ keywordNodes.toList := by decide
  unfold value
  rw [if_neg hid, if_neg hnodes]

theorem Arguments.finds : Keywords.Finds a.keys a.value (findKeyword a.replacements) := by
  have hv : ∀ r ∈ a.replacements, a.value r.1.toList = r.2.toList := by
    intro r hr
    cases a with
    | startup adhocId adhocDirectory adhocNodes =>
        simp only [replacements, List.mem_cons, List.not_mem_nil, or_false] at hr
        rcases hr with rfl | rfl | rfl
        · exact value_directory adhocId adhocDirectory adhocNodes
        · exact value_id _
        · exact value_nodes _
    | malleability adhocId adhocNodes =>
        simp only [replacements, List.mem_cons, List.not_mem_nil, or_false] at hr
        rcases hr with rfl | rfl
        · exact value_id _
        · exact value_nodes _
  apply (finds_findKeyword hv).perm
  cases a with
  | startup adhocId adhocDirectory adhocNodes =>
      -- the map has the keywords in the order of their characters
      exact List.Perm.swap ..
  | malleability adhocId adhocNodes => exact List.Perm.refl _

end Values

/-! ## Substitution -/

/-- The command is the template with all keywords substituted at once: the
    template is taken apart at its keywords in one way, the values are filled in
    between the literals, and the environment is the same. -/
structure Substitutes (keys : List (List Char)) (value : List Char → List Char)
    (template result : Command) : Prop where
  unique : ∃! d : Keywords.Parts Char, d.At keys ∧ d.text = template.cmdline.toList
  filled : ∀ d : Keywords.Parts Char, d.At keys → d.text = template.cmdline.toList →
    result.cmdline.toList = d.fill value
  env : result.env = template.env

theorem substitutes_evalAt (c : Command) (a : Arguments) :
    Substitutes a.keys a.value c (c.evalAt a) := by
  refine ⟨?_, ?_, ?_⟩
  · obtain ⟨d, hat, htext⟩ := Keywords.Parts.exists_at a.delimited c.cmdline.toList
    refine ⟨d, ⟨hat, htext⟩, fun d' h' => ?_⟩
    exact h'.1.unique a.delimited hat (h'.2.trans htext.symm)
  · intro d hat htext
    rw [evalAt_cmdline, String.toList_ofList, ← htext]
    exact Keywords.replace_text a.finds a.delimited hat
  · rw [evalAt_eq]

theorem eq_of_fields {c c' : Command} (hcmdline : c.cmdline = c'.cmdline)
    (henv : c.env = c'.env) : c = c' := by
  obtain ⟨cmdline, env⟩ := c
  rw [show cmdline = c'.cmdline from hcmdline, show env = c'.env from henv]

/-- A template without the keyword of the directory is taken apart in the same
    way for both overloads. -/
theorem evalAt_agree (c : Command) (adhocId : String) (adhocDirectory : Path)
    (adhocNodes : List String) (h : ¬ keywordDirectory.toList <:+: c.cmdline.toList) :
    c.evalAt (.startup adhocId adhocDirectory adhocNodes)
      = c.evalAt (.malleability adhocId adhocNodes) := by
  have hboth : ∀ k, k ∈ keywords.map String.toList →
      k ∈ keywordsMalleability.map String.toList ∨ k = keywordDirectory.toList := by decide
  have hs := substitutes_evalAt c (.startup adhocId adhocDirectory adhocNodes)
  have hm := substitutes_evalAt c (.malleability adhocId adhocNodes)
  have hdelimited := Arguments.delimited (.startup adhocId adhocDirectory adhocNodes)
  obtain ⟨d, ⟨hat, htext⟩, -⟩ := hs.unique
  have hkeywords : ∀ k ∈ d.keywords, k ∈ keywordsMalleability.map String.toList := by
    intro k hk
    have hmem := hat.mem_keys k hk
    refine (hboth k hmem).resolve_right ?_
    rintro rfl
    exact h (htext ▸ (hat.mem_keywords_iff hdelimited hmem).mp hk)
  have hat' : d.At (keywordsMalleability.map String.toList) :=
    hat.of_subset (Arguments.mem_keywords (.malleability adhocId adhocNodes)) hkeywords
  have hvalues : ∀ k ∈ keywordsMalleability.map String.toList,
      Arguments.value (.startup adhocId adhocDirectory adhocNodes) k
        = Arguments.value (.malleability adhocId adhocNodes) k := by
    intro k hk
    have heither : k = keywordId.toList ∨ k = keywordNodes.toList := by
      simpa [keywordsMalleability] using hk
    rcases heither with rfl | rfl
    · rw [Arguments.value_id, Arguments.value_id]
      rfl
    · rw [Arguments.value_nodes, Arguments.value_nodes]
      rfl
  have hcmdline : (c.evalAt (.startup adhocId adhocDirectory adhocNodes)).cmdline
      = (c.evalAt (.malleability adhocId adhocNodes)).cmdline := by
    apply String.toList_inj.mp
    rw [hs.filled d hat htext, hm.filled d hat' htext]
    exact Keywords.Parts.fill_congr fun k hk => hvalues k (hkeywords k hk)
  exact eq_of_fields hcmdline (hs.env.trans hm.env.symm)

/-- **`eval` is simultaneous substitution**, in both overloads, and they agree on
    the templates that do not have the keyword of the directory. -/
theorem eval_simultaneous (c : Command) (adhocId : String) (adhocDirectory : Path)
    (adhocNodes : List String) :
    Substitutes (keywords.map String.toList)
        (Arguments.value (.startup adhocId adhocDirectory adhocNodes)) c
        (c.eval adhocId adhocDirectory adhocNodes) ∧
      Substitutes (keywordsMalleability.map String.toList)
        (Arguments.value (.malleability adhocId adhocNodes)) c
        (c.evalMalleability adhocId adhocNodes) ∧
      (¬ keywordDirectory.toList <:+: c.cmdline.toList →
        c.eval adhocId adhocDirectory adhocNodes = c.evalMalleability adhocId adhocNodes) :=
  ⟨substitutes_evalAt c (.startup adhocId adhocDirectory adhocNodes),
    substitutes_evalAt c (.malleability adhocId adhocNodes),
    evalAt_agree c adhocId adhocDirectory adhocNodes⟩

/-- An id that contains a keyword is not looked at again. -/
example : (eval ⟨"run \x7bADHOC_ID\x7d", none⟩ "\x7bADHOC_ID\x7d" ⟨"/d"⟩ []).cmdline
    = "run \x7bADHOC_ID\x7d" := by decide

/-- A template with two keywords, and hostnames. -/
theorem eval_simultaneous_sample :
    eval ⟨"run \x7bADHOC_NODES\x7d \x7bADHOC_ID\x7d", none⟩ "u" ⟨"/d"⟩ ["a", "b"]
      = evalMalleability ⟨"run \x7bADHOC_NODES\x7d \x7bADHOC_ID\x7d", none⟩ "u" ["a", "b"] :=
  (eval_simultaneous ⟨"run \x7bADHOC_NODES\x7d \x7bADHOC_ID\x7d", none⟩ "u" ⟨"/d"⟩
    ["a", "b"]).2.2 (by decide)

/-! ## Arguments -/

/-- A token of the template with its keywords substituted. -/
def substituted (a : Arguments) (token : String) : String :=
  (evalAt ⟨token, none⟩ a).cmdline

/-- The arguments of the evaluated command are those of the template, each with
    its keywords substituted. -/
def ArgumentsKept (c : Command) (a : Arguments) : Prop :=
  (c.evalAt a).asVector = c.asVector.map (substituted a)

/-- Of the template nothing is left: it consists of keywords with empty values. -/
def Vanishes (c : Command) (a : Arguments) : Prop :=
  ∃ ks ≠ [], (∀ k ∈ ks, k ∈ a.keys ∧ a.value k = []) ∧ c.cmdline.toList = ks.flatten

/-- No value that the template asks for has a space. -/
def WithoutSpaces (c : Command) (a : Arguments) : Prop :=
  ∀ k ∈ a.keys, k <:+: c.cmdline.toList → ' ' ∉ a.value k

theorem asVector_of_empty {c : Command} (h : c.cmdline = "") : c.asVector = [] := if_pos h

theorem asVector_of_nonempty {c : Command} (h : c.cmdline ≠ "") :
    c.asVector = (c.cmdline.toList.splitOn ' ').map String.ofList := if_neg h

section Split

/-- Each token with its keywords substituted, as lists of characters. -/
theorem map_substituted (a : Arguments) (tokens : List (List Char)) :
    (tokens.map String.ofList).map (substituted a)
      = (tokens.map (Keywords.replace (findKeyword a.replacements) 0)).map String.ofList := by
  rw [List.map_map, List.map_map]
  apply List.map_congr_left
  intro token _
  show (evalAt ⟨String.ofList token, none⟩ a).cmdline = _
  rw [evalAt_cmdline, String.toList_ofList]
  rfl

variable {c : Command} {a : Arguments}

/-- An empty template has nothing in it, no keyword either. -/
theorem toList_of_empty (h : c.cmdline = "") : c.cmdline.toList = [] := by
  rw [h]
  rfl

theorem withoutSpaces_of_empty (h : c.cmdline = "") : c.WithoutSpaces a := by
  intro k hk hin
  rw [toList_of_empty h] at hin
  exact absurd hin (a.delimited.free_nil k hk)

theorem not_vanishes_of_empty (h : c.cmdline = "") : ¬ c.Vanishes a := by
  rintro ⟨ks, hne, hks, hflatten⟩
  obtain ⟨k, ks, rfl⟩ := List.exists_cons_of_ne_nil hne
  have hk := hks k List.mem_cons_self
  rw [toList_of_empty h, List.flatten_cons, eq_comm, List.append_eq_nil_iff] at hflatten
  exact a.delimited.free_nil k hk.1 (hflatten.1 ▸ List.infix_refl [])

theorem evalAt_of_empty (h : c.cmdline = "") : (c.evalAt a).cmdline = "" := by
  rw [evalAt_cmdline, toList_of_empty h]
  rfl

/-- A template vanishes when its evaluation is empty. -/
theorem vanishes_iff (h : c.cmdline ≠ "") : c.Vanishes a ↔ (c.evalAt a).cmdline = "" := by
  rw [evalAt_cmdline, String.ofList_eq_empty_iff,
    Keywords.replace_eq_nil_iff a.finds a.delimited]
  constructor
  · rintro ⟨ks, -, hks, hflatten⟩
    exact ⟨ks, hks, hflatten⟩
  · rintro ⟨ks, hks, hflatten⟩
    refine ⟨ks, ?_, hks, hflatten⟩
    rintro rfl
    exact h (String.toList_eq_nil_iff.mp hflatten)

/-- Neither the template nor the command line is empty: then they are split at
    the same spaces, unless a value has one. -/
theorem argumentsKept_iff_of_nonempty (h : c.cmdline ≠ "") (hresult : (c.evalAt a).cmdline ≠ "") :
    c.ArgumentsKept a ↔ c.WithoutSpaces a := by
  have hinj : Function.Injective String.ofList := fun _ _ h => String.ofList_inj.mp h
  unfold ArgumentsKept
  rw [asVector_of_nonempty hresult, asVector_of_nonempty h, map_substituted, evalAt_cmdline,
    String.toList_ofList, (List.map_injective_iff.mpr hinj).eq_iff]
  exact Keywords.splitOn_replace_iff a.finds a.delimited a.space_not_mem _

/-- An empty command line has no argument, and the template has one. -/
theorem not_argumentsKept_of_empty (h : c.cmdline ≠ "") (hresult : (c.evalAt a).cmdline = "") :
    ¬ c.ArgumentsKept a := by
  unfold ArgumentsKept
  rw [asVector_of_empty hresult, asVector_of_nonempty h]
  intro hkept
  have hnone := List.map_eq_nil_iff.mp (List.map_eq_nil_iff.mp hkept.symm)
  exact List.splitOn_ne_nil _ _ hnone

end Split

/-- **The arguments are those of the template exactly when no value has a space,
    and the command line does not vanish.** -/
theorem argumentsKept_iff (c : Command) (a : Arguments) :
    c.ArgumentsKept a ↔ c.WithoutSpaces a ∧ ¬ c.Vanishes a := by
  by_cases hempty : c.cmdline = ""
  · have hkept : c.ArgumentsKept a := by
      unfold ArgumentsKept
      rw [asVector_of_empty (evalAt_of_empty hempty), asVector_of_empty hempty]
      rfl
    exact iff_of_true hkept ⟨withoutSpaces_of_empty hempty, not_vanishes_of_empty hempty⟩
  · by_cases hresult : (c.evalAt a).cmdline = ""
    · have hvanishes : c.Vanishes a := (vanishes_iff hempty).mpr hresult
      exact iff_of_false (not_argumentsKept_of_empty hempty hresult) fun h => h.2 hvanishes
    · have hnot : ¬ c.Vanishes a := fun h => hresult ((vanishes_iff hempty).mp h)
      rw [argumentsKept_iff_of_nonempty hempty hresult]
      exact ⟨fun h => ⟨h, hnot⟩, fun h => h.1⟩

/-- A directory with a space in its name is two arguments. -/
theorem not_argumentsKept_directory :
    ¬ ArgumentsKept ⟨"stop \x7bADHOC_DIRECTORY\x7d", none⟩ (.startup "u" ⟨"/my dir"⟩ []) := by
  unfold ArgumentsKept
  decide

end Command

end ScordCtl

/-
  Scord.Utils.LexicalNormalize

  `lexical_normalize` (`utils.cpp`), which takes the dots out of a path.

  The loop works on a path where the normal form is made on a stack of names.  It
  is compared with the stack through a machine that only takes back its latest
  push: what `remove_filename` leaves behind ends in a separator, and so has no
  filename that a second one could remove.
-/
import Scord.Lib.PathText
import Scord.Lib.UndoStack

namespace Scord.Utils

open FileSystem UndoStack

/-! ## The function -/

/-- One element of the path. -/
def normalizeElem (tmp elem : Path) : Path :=
  if elem.same ⟨".."⟩ then
    let tmp := tmp.removeFilename
    if tmp.text = "" then ⟨"/"⟩ else tmp
  else if elem.same ⟨"."⟩ = false ∧ elem.same ⟨"/"⟩ = false then
    match elem.text.toList with
    | '/' :: '/' :: c :: cs => tmp / ⟨String.ofList (c :: cs)⟩
    | _ => tmp / elem
  else tmp

def lexicalNormalize (pathname : Path) (asDirectory : Bool) : Path :=
  if pathname.text = "" then ⟨""⟩
  else if pathname.same ⟨"/"⟩ then ⟨"/"⟩
  else
    let tmp := pathname.elements.foldl normalizeElem ⟨"/"⟩
    if tmp.same ⟨"/"⟩ = false ∧ asDirectory = true then tmp / ⟨"/"⟩ else tmp

/-! ## The normal form -/

/-- What a component does to the stack of names. -/
def actionOf (component : String) : Action String :=
  if component = ".." then .pop
  else if component = "." then .skip
  else .push component

def actions (pathname : Path) : List (Action String) := pathname.components.map actionOf

/-- The absolute path of the names that are left on the stack, without dots. -/
structure IsNormalForm (pathname : Path) (asDirectory : Bool) (result : Path) : Prop where
  names : result = Path.ofNames (run (actions pathname)) asDirectory
  noDots : ∀ e ∈ result.elements, e ≠ ⟨"."⟩ ∧ e ≠ ⟨".."⟩

/-- The condition under which the loop finds it.  Of a directory, no name may be
    left.  Else every `..` comes after a name, but for `.`, or when no name is left;
    and the path ends in a name, or no name is left. -/
def Normalizes (pathname : Path) (asDirectory : Bool) : Prop :=
  pathname.text ≠ "" ∧
    if asDirectory = true then Cancels (actions pathname)
    else PopsOnce (actions pathname) ∧
      (Cancels (actions pathname) ∨
        EndsInPush (actions pathname) ∧ pathname.hasFilename = true)

/-! ## The names -/

section Names

variable {pathname : Path} {n : String}

theorem push_eq_actionOf {c : String} (h : actionOf c = .push n) : c = n ∧ n ≠ "." ∧ n ≠ ".." := by
  unfold actionOf at h
  split at h
  · cases h
  · split at h
    · cases h
    · cases h
      exact ⟨rfl, by assumption, by assumption⟩

/-- The names that are left are components, and no dots. -/
theorem mem_run_actions (h : n ∈ run (actions pathname)) :
    Path.IsName n ∧ n ≠ "." ∧ n ≠ ".." := by
  obtain ⟨c, hc, hpush⟩ := List.mem_map.mp (push_mem_of_mem_run h)
  obtain ⟨rfl, hdot, hdots⟩ := push_eq_actionOf hpush
  exact ⟨Path.isName_of_mem_components hc, hdot, hdots⟩

end Names

/-! ## One element -/

/-- The path of the loop has the names of the machine, and ends in a separator
    unless the machine can take back the last one. -/
structure Represents (tmp : Path) (s : List String × Bool) : Prop where
  text : tmp = Path.ofNames s.1 (!s.2)
  isName : ∀ n ∈ s.1, Path.IsName n
  nonempty : s.2 = true → s.1 ≠ []

section Elements

variable {tmp : Path} {s : List String × Bool} {c : String}

theorem isName_dot : Path.IsName "." := ⟨by decide, by decide⟩

theorem isName_dots : Path.IsName ".." := ⟨by decide, by decide⟩

theorem ofNames_text_ne_empty (names : List String) (d : Bool) :
    (Path.ofNames names d).text ≠ "" := by
  intro hempty
  have habs := Path.isAbsolute_ofNames names d
  unfold Path.isAbsolute at habs
  rw [hempty] at habs
  cases habs

/-- `..`: a name is removed, if the path ends in one. -/
theorem normalizeElem_dots (h : Represents tmp s) :
    Represents (normalizeElem tmp ⟨".."⟩) (stepOnce s .pop) := by
  obtain ⟨names, fresh⟩ := s
  obtain ⟨htext, hnames, hne⟩ := h
  unfold normalizeElem
  rw [if_pos (isName_dots.same_iff isName_dots |>.mpr rfl)]
  cases fresh with
  | false =>
      -- there is no filename
      have hsame : tmp.removeFilename = tmp := by
        rw [htext]
        exact Path.removeFilename_directory names
      have hnonempty : tmp.text ≠ "" := htext ▸ ofNames_text_ne_empty names true
      rw [hsame, if_neg hnonempty]
      exact ⟨htext, hnames, hne⟩
  | true =>
      obtain ⟨init, n, rfl⟩ : ∃ init n, names = init ++ [n] := by
        rcases List.eq_nil_or_concat names with rfl | ⟨init, n, rfl⟩
        · exact absurd rfl (hne rfl)
        · exact ⟨init, n, List.concat_eq_append⟩
      have hremoved : tmp.removeFilename = Path.ofNames init true := by
        rw [htext]
        exact Path.removeFilename_file (hnames n List.mem_concat_self)
      rw [hremoved, if_neg (ofNames_text_ne_empty init true)]
      refine ⟨?_, fun m hm => ?_, fun hfresh => ?_⟩
      · simp [stepOnce]
      · exact hnames m (List.mem_of_mem_dropLast hm)
      · cases hfresh

/-- Any other name but `.` is put behind the path. -/
theorem normalizeElem_push (h : Represents tmp s) (hc : Path.IsName c) (hdot : c ≠ ".")
    (hdots : c ≠ "..") : Represents (normalizeElem tmp ⟨c⟩) (stepOnce s (.push c)) := by
  have hnotdots : ¬ Path.same ⟨c⟩ ⟨".."⟩ = true := mt (hc.same_iff isName_dots).mp hdots
  have hnotdot : Path.same ⟨c⟩ ⟨"."⟩ = false := by
    simpa using mt (hc.same_iff isName_dot).mp hdot
  have hnotroot : Path.same ⟨c⟩ ⟨"/"⟩ = false := by
    have hnot : ¬ Path.same ⟨c⟩ ⟨"/"⟩ = true := by
      rw [Path.same_root, hc.isAbsolute_eq]
      rintro ⟨habs, -⟩
      cases habs
    simpa using hnot
  have happend : normalizeElem tmp ⟨c⟩ = tmp / ⟨c⟩ := by
    unfold normalizeElem
    rw [if_neg hnotdots, if_pos ⟨hnotdot, hnotroot⟩]
    split
    · next heq =>
        -- a name does not begin with separators
        have hmem : '/' ∈ c.toList := heq ▸ List.mem_cons_self
        exact absurd hmem hc.2
    · rfl
  refine ⟨?_, fun n hn => ?_, fun _ => List.append_ne_nil_of_right_ne_nil _ (List.cons_ne_nil c [])⟩
  · rw [happend, h.text]
    exact Path.append_name h.isName hc _
  · rcases List.mem_append.mp hn with hn | hn
    · exact h.isName n hn
    · exact List.mem_singleton.mp hn ▸ hc

/-- **A component** does to the path what its action does to the names. -/
theorem normalizeElem_component (h : Represents tmp s) (hc : Path.IsName c) :
    Represents (normalizeElem tmp ⟨c⟩) (stepOnce s (actionOf c)) := by
  unfold actionOf
  by_cases hdots : c = ".."
  · subst hdots
    rw [if_pos rfl]
    exact normalizeElem_dots h
  · rw [if_neg hdots]
    by_cases hdot : c = "."
    · subst hdot
      rw [if_pos rfl]
      exact h
    · rw [if_neg hdot]
      exact normalizeElem_push h hc hdot hdots

/-- The empty element puts a separator at the end. -/
theorem normalizeElem_empty (h : Represents tmp s) :
    normalizeElem tmp ⟨""⟩ = Path.ofNames s.1 true := by
  show tmp / ⟨""⟩ = _
  rw [h.text]
  exact Path.append_empty h.isName _

end Elements

/-! ## The loop -/

section Loop

variable {tmp : Path} {s : List String × Bool}

theorem foldl_components {comps : List String} (h : Represents tmp s)
    (hcomps : ∀ c ∈ comps, Path.IsName c) :
    Represents ((comps.map FileSystem.Path.mk).foldl normalizeElem tmp)
      ((comps.map actionOf).foldl stepOnce s) := by
  induction comps generalizing tmp s with
  | nil => exact h
  | cons c comps ih =>
      obtain ⟨hc, hcomps⟩ := List.forall_mem_cons.mp hcomps
      exact ih (normalizeElem_component h hc) hcomps

/-- The components of a path, from the root on. -/
theorem represents_runOnce (pathname : Path) :
    Represents ((pathname.components.map FileSystem.Path.mk).foldl normalizeElem ⟨"/"⟩)
      (runOnce (actions pathname)) := by
  have hstart : Represents ⟨"/"⟩ ([], false) :=
    ⟨rfl, fun n hn => absurd hn List.not_mem_nil, fun h => (nomatch h)⟩
  exact foldl_components hstart fun c hc => Path.isName_of_mem_components hc

/-- The root directory does nothing to the root. -/
theorem foldl_root (pathname : Path) :
    (if pathname.isAbsolute then [⟨"/"⟩] else []).foldl normalizeElem ⟨"/"⟩ = ⟨"/"⟩ := by
  cases pathname.isAbsolute <;> rfl

/-- **The loop** leaves the names of the machine, with a separator at the end if
    the machine could not take back the last of them, or if the path has one. -/
theorem foldl_elements (pathname : Path) :
    pathname.elements.foldl normalizeElem ⟨"/"⟩
      = Path.ofNames (runOnce (actions pathname)).1
          (!((runOnce (actions pathname)).2 && pathname.hasFilename)) := by
  have hloop := represents_runOnce pathname
  unfold Path.elements
  rw [List.foldl_append, List.foldl_append, foldl_root]
  split
  · next hend =>
      rw [hend.2, Bool.and_false]
      exact normalizeElem_empty hloop
  · next hend =>
      rw [List.foldl_nil, hloop.text]
      by_cases hcomps : pathname.components = []
      · have hactions : actions pathname = [] := by
          unfold actions
          rw [hcomps, List.map_nil]
        rw [hactions]
        rfl
      · have hfilename : pathname.hasFilename = true := by
          simpa [hcomps] using hend
        rw [hfilename, Bool.and_true]

end Loop

/-! ## The result -/

section Result

variable {pathname result : Path} {asDirectory : Bool}

theorem isName_run (pathname : Path) : ∀ n ∈ run (actions pathname), Path.IsName n :=
  fun _ hn => (mem_run_actions hn).1

/-- There are no dots in the names that are left. -/
theorem isNormalForm_iff :
    IsNormalForm pathname asDirectory result ↔
      result = Path.ofNames (run (actions pathname)) asDirectory := by
  refine ⟨fun h => h.names, fun hnames => ⟨hnames, fun e he => ?_⟩⟩
  rw [hnames] at he
  unfold Path.elements at he
  rw [Path.isAbsolute_ofNames, Path.components_ofNames (isName_run pathname)] at he
  rcases List.mem_append.mp he with he | hempty
  · rcases List.mem_append.mp he with hroot | hname
    · obtain rfl := List.mem_singleton.mp hroot
      exact ⟨by decide, by decide⟩
    · obtain ⟨n, hn, rfl⟩ := List.mem_map.mp hname
      obtain ⟨-, hdot, hdots⟩ := mem_run_actions hn
      exact ⟨mt (congrArg Path.text) hdot, mt (congrArg Path.text) hdots⟩
  · split at hempty
    · obtain rfl := List.mem_singleton.mp hempty
      exact ⟨by decide, by decide⟩
    · cases hempty

theorem lexicalNormalize_empty (h : pathname.text = "") :
    lexicalNormalize pathname asDirectory = ⟨""⟩ := by
  unfold lexicalNormalize
  rw [if_pos h]

/-- The root is handed back before the loop, which would make the same of it. -/
theorem lexicalNormalize_root (hempty : pathname.text ≠ "")
    (hroot : pathname.same ⟨"/"⟩ = true) :
    lexicalNormalize pathname asDirectory = ⟨"/"⟩ ∧ runOnce (actions pathname) = ([], false) := by
  have hactions : actions pathname = [] := by
    unfold actions
    rw [(Path.same_root.mp hroot).2, List.map_nil]
  refine ⟨?_, ?_⟩
  · unfold lexicalNormalize
    rw [if_neg hempty, if_pos hroot]
  · rw [hactions]
    rfl

/-- A directory is appended `"/"`, and that replaces the path. -/
theorem lexicalNormalize_directory (h : pathname.text ≠ "") :
    lexicalNormalize pathname true = ⟨"/"⟩ := by
  by_cases hroot : pathname.same ⟨"/"⟩ = true
  · exact (lexicalNormalize_root h hroot).1
  · have hisName := (represents_runOnce pathname).isName
    unfold lexicalNormalize
    rw [if_neg h, if_neg hroot, foldl_elements]
    dsimp only
    split
    · exact Path.append_root _ _
    · next hsame =>
        -- the loop has left the root
        have hnames : (runOnce (actions pathname)).1 = [] := by
          rw [← Path.same_root_iff hisName]
          simpa using hsame
        rw [hnames, Path.ofNames_nil]

/-- Else the path is the one that the loop has left. -/
theorem lexicalNormalize_file (h : pathname.text ≠ "") :
    lexicalNormalize pathname false
      = Path.ofNames (runOnce (actions pathname)).1
          (!((runOnce (actions pathname)).2 && pathname.hasFilename)) := by
  by_cases hroot : pathname.same ⟨"/"⟩ = true
  · obtain ⟨hresult, hrun⟩ := lexicalNormalize_root h hroot
    rw [hresult, hrun]
    rfl
  · unfold lexicalNormalize
    rw [if_neg h, if_neg hroot, ← foldl_elements]
    exact if_neg fun hboth => Bool.false_ne_true hboth.2

/-- **Where it normalizes.**  The result is the normal form exactly under the
    condition. -/
theorem lexicalNormalize_isNormalForm_iff (pathname : Path) (asDirectory : Bool) :
    IsNormalForm pathname asDirectory (lexicalNormalize pathname asDirectory) ↔
      Normalizes pathname asDirectory := by
  rw [isNormalForm_iff]
  unfold Normalizes
  by_cases hempty : pathname.text = ""
  · -- a normal form is absolute
    refine iff_of_false (fun heq => ?_) fun h => h.1 hempty
    rw [lexicalNormalize_empty hempty] at heq
    exact ofNames_text_ne_empty _ _ (congrArg Path.text heq).symm
  · rw [and_iff_right hempty]
    cases asDirectory with
    | true =>
        rw [lexicalNormalize_directory hempty, if_pos rfl, ← run_eq_nil_iff,
          ← Path.ofNames_nil true,
          Path.ofNames_eq_iff (fun n hn => absurd hn List.not_mem_nil) (isName_run pathname),
          and_iff_left (Or.inr rfl), eq_comm]
    | false =>
        rw [lexicalNormalize_file hempty, if_neg Bool.false_ne_true,
          Path.ofNames_eq_iff (represents_runOnce pathname).isName (isName_run pathname),
          runOnce_eq_iff, run_eq_nil_iff, Bool.not_eq_false', Bool.and_eq_true, runOnce_snd_iff]

/-- The second `..` finds no filename: of `/a/b/../..` the first name stays. -/
theorem lexicalNormalize_dots_twice :
    ¬ IsNormalForm ⟨"/a/b/../.."⟩ false (lexicalNormalize ⟨"/a/b/../.."⟩ false) := by
  rw [isNormalForm_iff]
  decide

end Result

end Scord.Utils

/-
  Scord.Lib.PathText

  What `std::filesystem::path` does with the text of a path alone: iteration,
  comparison, `operator/=` and `remove_filename`, as the standard has them where a
  path has no root name.

  An absolute path that is made of names, with or without a separator at its end,
  is `ofNames`; for each operation there is a lemma that says what becomes of it.
-/
import Mathlib.Data.List.DropRight
import Scord.Lib.MakeDirectory
import Scord.Lib.Tokens

namespace FileSystem

namespace Path

/-! ## The operations -/

/-- The pieces between separators. -/
def components (p : Path) : List String :=
  ((p.text.toList.splitOn '/').filter (· ≠ [])).map String.ofList

/-- From `begin()` to `end()`: the root directory, the filenames, and an empty
    element for a separator at the end. -/
def elements (p : Path) : List Path :=
  (if p.isAbsolute then [⟨"/"⟩] else []) ++ p.components.map Path.mk
    ++ if p.components ≠ [] ∧ p.hasFilename = false then [⟨""⟩] else []

/-- `operator==`, which compares element by element. -/
def same (p q : Path) : Bool := p.elements = q.elements

/-- `remove_filename()`: what is behind the last separator. -/
def removeFilename (p : Path) : Path := ⟨String.ofList (p.text.toList.rdropWhile (· ≠ '/'))⟩

/-! ## Absolute paths of names -/

/-- A filename of a path. -/
def IsName (n : String) : Prop := n ≠ "" ∧ '/' ∉ n.toList

/-- The absolute path with these names.  The root is the only one that ends in a
    separator anyway. -/
def ofNames (names : List String) (isDirectory : Bool) : Path :=
  ⟨String.join (names.map fun n => "/" ++ n) ++ if names = [] ∨ isDirectory then "/" else ""⟩

theorem ofNames_nil (d : Bool) : ofNames [] d = ⟨"/"⟩ := rfl

/-! ## Names and separators -/

section Texts

variable {n : String}

/-- What is behind a separator is taken apart on its own. -/
theorem components_append (xs ys : List Char) :
    components ⟨String.ofList (xs ++ '/' :: ys)⟩
      = components ⟨String.ofList xs⟩ ++ components ⟨String.ofList ys⟩ := by
  unfold components
  simp only [String.toList_ofList, List.splitOn_append_cons_self, List.filter_append,
    List.map_append]

theorem components_name (h : IsName n) : components ⟨n⟩ = [n] := by
  unfold components
  rw [List.splitOn_eq_singleton h.2]
  simp [h.1]

theorem isName_of_mem_components {p : Path} (h : n ∈ p.components) : IsName n := by
  unfold components at h
  obtain ⟨cs, hcs, rfl⟩ := List.mem_map.mp h
  obtain ⟨hsplit, hne⟩ := List.mem_filter.mp hcs
  refine ⟨?_, ?_⟩
  · simpa using hne
  · rw [String.toList_ofList]
    exact Tokens.not_mem_of_mem_splitOn hsplit

theorem IsName.isAbsolute_eq (h : IsName n) : isAbsolute ⟨n⟩ = false := by
  unfold isAbsolute
  cases htext : n.toList with
  | nil => rfl
  | cons c cs =>
      have hc : c ≠ '/' := by
        rintro rfl
        exact h.2 (htext ▸ List.mem_cons_self)
      simp [hc]

theorem IsName.hasFilename_eq (h : IsName n) : hasFilename ⟨n⟩ = true := by
  unfold hasFilename
  cases hlast : n.toList.getLast? with
  | none =>
      have hnil : n.toList = [] := List.getLast?_eq_none_iff.mp hlast
      exact absurd (String.toList_eq_nil_iff.mp hnil) h.1
  | some c =>
      have hc : c ≠ '/' := by
        rintro rfl
        exact h.2 (List.mem_of_getLast? hlast)
      simp [hc]

/-- A name is its only element. -/
theorem IsName.elements_eq (h : IsName n) : elements ⟨n⟩ = [⟨n⟩] := by
  unfold elements
  rw [components_name h, h.isAbsolute_eq, h.hasFilename_eq]
  simp

theorem IsName.same_iff {m : String} (hn : IsName n) (hm : IsName m) :
    same ⟨n⟩ ⟨m⟩ = true ↔ n = m := by
  unfold same
  rw [hn.elements_eq, hm.elements_eq]
  simp

/-- The paths that are the root, however many separators they have. -/
theorem same_root {p : Path} : same p ⟨"/"⟩ = true ↔ p.isAbsolute = true ∧ p.components = [] := by
  have hroot : elements ⟨"/"⟩ = [⟨"/"⟩] := rfl
  unfold same
  rw [hroot, decide_eq_true_eq]
  unfold elements
  refine ⟨fun h => ?_, fun ⟨habs, hcomps⟩ => ?_⟩
  · cases habs : p.isAbsolute with
    | true =>
        have hboth : p.components = [] ∧ (p.components ≠ [] → p.hasFilename = true) := by
          simpa [habs] using h
        exact ⟨rfl, hboth.1⟩
    | false =>
        -- the separator would be a name
        cases hcomps : p.components with
        | nil => simp [habs, hcomps] at h
        | cons c cs =>
            have hc : IsName c := isName_of_mem_components (hcomps ▸ List.mem_cons_self)
            have htext : c = "/" := by
              rw [habs, hcomps] at h
              simp only [Bool.false_eq_true, if_false, List.nil_append, List.map_cons,
                List.cons_append, List.cons.injEq, Path.mk.injEq] at h
              exact h.1
            rw [htext] at hc
            exact absurd (by decide) hc.2
  · simp [habs, hcomps]

end Texts

/-! ## What becomes of an absolute path -/

/-- The names, each behind a separator. -/
def below (names : List String) : List Char := names.flatMap fun n => '/' :: n.toList

section OfNames

variable {names : List String} {n : String}

theorem below_concat (names : List String) (n : String) :
    below (names ++ [n]) = below names ++ '/' :: n.toList := by
  simp [below]

theorem components_below (h : ∀ n ∈ names, IsName n) :
    components ⟨String.ofList (below names)⟩ = names := by
  induction names using List.reverseRecOn with
  | nil => rfl
  | append_singleton names n ih =>
      rw [below_concat, components_append, ih fun m hm => h m (List.mem_append_left _ hm),
        String.ofList_toList, components_name (h n List.mem_concat_self)]

/-! The two ways in which such a path ends: a directory ends in a separator, and
    a file in a name. -/

theorem ofNames_directory (names : List String) :
    ofNames names true = ⟨String.ofList (below names ++ ['/'])⟩ := by
  unfold ofNames below
  congr 1
  apply String.toList_injective
  rw [String.toList_append, String.toList_join, List.flatMap_map, String.toList_ofList]
  simp

theorem ofNames_file (names : List String) (n : String) :
    ofNames (names ++ [n]) false = ⟨String.ofList (below names ++ '/' :: n.toList)⟩ := by
  unfold ofNames
  rw [← below_concat]
  congr 1
  apply String.toList_injective
  rw [String.toList_append, String.toList_join, List.flatMap_map, String.toList_ofList]
  simp [below]

theorem ofNames_cases (names : List String) (d : Bool) :
    (ofNames names d = ofNames names true) ∨ d = false ∧ ∃ init n, names = init ++ [n] := by
  cases d with
  | true => exact Or.inl rfl
  | false =>
      rcases List.eq_nil_or_concat names with rfl | ⟨init, n, rfl⟩
      · exact Or.inl rfl
      · exact Or.inr ⟨rfl, init, n, List.concat_eq_append⟩

theorem isAbsolute_ofNames (names : List String) (d : Bool) :
    (ofNames names d).isAbsolute = true := by
  rcases ofNames_cases names d with hdir | ⟨rfl, init, n, rfl⟩
  · rw [hdir, ofNames_directory]
    cases names <;> simp [isAbsolute, below]
  · rw [ofNames_file]
    cases init <;> simp [isAbsolute, below]

theorem components_ofNames (h : ∀ n ∈ names, IsName n) (d : Bool) :
    (ofNames names d).components = names := by
  rcases ofNames_cases names d with hdir | ⟨rfl, init, n, rfl⟩
  · rw [hdir, ofNames_directory, components_append, components_below h]
    exact List.append_nil names
  · rw [ofNames_file, ← below_concat, components_below h]

theorem hasFilename_directory (names : List String) :
    (ofNames names true).hasFilename = false := by
  rw [ofNames_directory]
  simp [hasFilename]

theorem hasFilename_file (h : IsName n) : (ofNames (names ++ [n]) false).hasFilename = true := by
  have hname := h.hasFilename_eq
  rw [ofNames_file]
  unfold hasFilename at hname ⊢
  rw [String.toList_ofList, List.getLast?_append, List.getLast?_cons]
  cases hlast : n.toList.getLast? with
  | none =>
      rw [hlast] at hname
      cases hname
  | some c =>
      rw [hlast] at hname
      exact hname

theorem hasFilename_ofNames (h : ∀ n ∈ names, IsName n) (hne : names ≠ []) (d : Bool) :
    (ofNames names d).hasFilename = !d := by
  cases d with
  | true => exact hasFilename_directory names
  | false =>
      rcases List.eq_nil_or_concat names with rfl | ⟨init, n, rfl⟩
      · exact absurd rfl hne
      · rw [List.concat_eq_append] at h ⊢
        exact hasFilename_file (h n List.mem_concat_self)

/-- Two such paths are the same when their names are, and they end alike or are
    the root. -/
theorem ofNames_eq_iff {names' : List String} {d d' : Bool} (h : ∀ n ∈ names, IsName n)
    (h' : ∀ n ∈ names', IsName n) :
    ofNames names d = ofNames names' d' ↔ names = names' ∧ (names' = [] ∨ d = d') := by
  refine ⟨fun heq => ?_, ?_⟩
  · have hnames : names = names' := by
      rw [← components_ofNames h d, heq, components_ofNames h' d']
    subst hnames
    refine ⟨rfl, ?_⟩
    by_cases hnil : names = []
    · exact Or.inl hnil
    · have hends := congrArg hasFilename heq
      rw [hasFilename_ofNames h hnil, hasFilename_ofNames h hnil] at hends
      exact Or.inr (Bool.not_inj hends)
  · rintro ⟨rfl, rfl | rfl⟩
    · rfl
    · rfl

/-! The operations. -/

theorem removeFilename_append {xs ys : List Char} (h : '/' ∉ ys) :
    removeFilename ⟨String.ofList (xs ++ '/' :: ys)⟩ = ⟨String.ofList (xs ++ ['/'])⟩ := by
  have hrev : '/' ∉ ys.reverse := fun hmem => h (List.mem_reverse.mp hmem)
  unfold removeFilename List.rdropWhile
  rw [String.toList_ofList, List.reverse_append, List.reverse_cons, List.append_assoc,
    List.singleton_append, Tokens.dropWhile_ne_append hrev]
  simp

/-- A directory has no filename to remove, -/
theorem removeFilename_directory (names : List String) :
    (ofNames names true).removeFilename = ofNames names true := by
  rw [ofNames_directory]
  exact removeFilename_append List.not_mem_nil

/-- and of a file the directory is left that it is in. -/
theorem removeFilename_file (h : IsName n) :
    (ofNames (names ++ [n]) false).removeFilename = ofNames names true := by
  rw [ofNames_file, ofNames_directory]
  exact removeFilename_append h.2

theorem append_name (hnames : ∀ n ∈ names, IsName n) (h : IsName n) (d : Bool) :
    ofNames names d / ⟨n⟩ = ofNames (names ++ [n]) false := by
  show append _ _ = _
  unfold append
  rw [h.isAbsolute_eq, if_neg Bool.false_ne_true, ofNames_file]
  rcases ofNames_cases names d with hdir | ⟨rfl, init, m, rfl⟩
  · rw [hdir, hasFilename_directory, if_neg Bool.false_ne_true, ofNames_directory]
    congr 1
    apply String.toList_injective
    simp
  · rw [hasFilename_file (hnames m List.mem_concat_self), if_pos rfl, ofNames_file, below_concat]
    congr 1
    apply String.toList_injective
    simp

/-- An empty path puts a separator at the end. -/
theorem append_empty (hnames : ∀ n ∈ names, IsName n) (d : Bool) :
    ofNames names d / ⟨""⟩ = ofNames names true := by
  show append _ _ = _
  unfold append
  rw [show isAbsolute ⟨""⟩ = false from rfl, if_neg Bool.false_ne_true]
  rcases ofNames_cases names d with hdir | ⟨rfl, init, m, rfl⟩
  · rw [hdir, hasFilename_directory, if_neg Bool.false_ne_true, ofNames_directory]
    simp
  · rw [hasFilename_file (hnames m List.mem_concat_self), if_pos rfl, ofNames_file,
      ofNames_directory, below_concat]
    congr 1
    apply String.toList_injective
    simp

/-- An absolute path replaces it. -/
theorem append_root (names : List String) (d : Bool) : ofNames names d / ⟨"/"⟩ = ⟨"/"⟩ := rfl

/-- Only the root has no names. -/
theorem same_root_iff (hnames : ∀ n ∈ names, IsName n) (d : Bool) :
    same (ofNames names d) ⟨"/"⟩ = true ↔ names = [] := by
  rw [same_root, components_ofNames hnames]
  exact and_iff_right (isAbsolute_ofNames names d)

end OfNames

end Path

end FileSystem

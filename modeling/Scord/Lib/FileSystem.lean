/-
  Scord.Lib.FileSystem

  File trees of directories, regular files and symbolic links, with POSIX path
  resolution, `stat`, `readdir`, `unlink` and `rmdir`.

  A location is the list of the names on the way to an entry, the last name
  first, so that the directory of an entry is its tail.  A path is a list of
  names as it is written, and may lead through links.  The order of the entries
  is the order in which `readdir` returns them.
-/
import Mathlib.Data.List.Basic
import Mathlib.Data.List.Infix

namespace FileSystem

abbrev Name := String
abbrev Loc := List Name

/-- What a symbolic link holds. -/
structure Target where
  absolute : Bool
  comps : List Name
deriving DecidableEq, Repr

inductive Kind
  | dir
  | file
  | link (target : Target)
deriving DecidableEq, Repr

/-- Every location occurs once, under a name of its own in a directory that is
    there.  The root is a directory and no entry. -/
@[ext] structure Tree where
  entries : List (Loc × Kind)
  nodup : (entries.map Prod.fst).Nodup
  rooted : ∀ e ∈ entries, ∃ n dir, e.1 = n :: dir ∧ n ≠ "." ∧ n ≠ ".." ∧
    (dir = [] ∨ (dir, Kind.dir) ∈ entries)

/-- `l` is an entry of `d`, or of a directory beneath `d`. -/
def Beneath (d l : Loc) : Prop := d <:+ l ∧ l ≠ d

instance (d l : Loc) : Decidable (Beneath d l) :=
  inferInstanceAs (Decidable (d <:+ l ∧ l ≠ d))

theorem Beneath.cons {d l : Loc} (h : Beneath d l) (n : Name) : Beneath d (n :: l) := by
  refine ⟨h.1.trans (List.suffix_cons n l), ?_⟩
  rintro rfl
  -- a suffix of `l` is not longer than `l`
  have hlength := h.1.length_le
  rw [List.length_cons] at hlength
  omega

theorem beneath_of_child {d l : Loc} {n : Name} (h : (n :: d) <:+ l) : Beneath d l := by
  refine ⟨(List.suffix_cons n d).trans h, ?_⟩
  rintro rfl
  have hlength := h.length_le
  rw [List.length_cons] at hlength
  omega

namespace Tree

variable {t t' : Tree}

/-- The entry at a location. -/
def kindAt (t : Tree) (loc : Loc) : Option Kind :=
  if loc = [] then some .dir else t.entries.lookup loc

/-- The names in a directory. -/
def list (t : Tree) (dir : Loc) : List Name :=
  t.entries.filterMap fun e =>
    match e.1 with
    | [] => none
    | n :: dir' => if dir' = dir then some n else none

/-- The tree without the entries that `drop` names.  What is in a dropped
    directory is dropped, too. -/
def restrict (t : Tree) (drop : Loc → Bool)
    (hdrop : ∀ n dir, drop dir = true → drop (n :: dir) = true) : Tree where
  entries := t.entries.filter fun e => !drop e.1
  nodup := t.nodup.sublist (List.filter_sublist.map Prod.fst)
  rooted := by
    intro e he
    obtain ⟨hmem, hkeep⟩ := List.mem_filter.mp he
    obtain ⟨n, dir, hloc, hdot, hdots, hdir⟩ := t.rooted e hmem
    refine ⟨n, dir, hloc, hdot, hdots, hdir.imp id fun hmem' => ?_⟩
    refine List.mem_filter.mpr ⟨hmem', ?_⟩
    -- its directory is kept, or it would be dropped with it
    rw [hloc] at hkeep
    cases h : drop dir with
    | false => rfl
    | true =>
        rw [hdrop n dir h] at hkeep
        cases hkeep

/-- Without the entry at `loc`, and what is beneath it. -/
def prune (t : Tree) (loc : Loc) : Tree :=
  t.restrict (fun l => decide (loc <:+ l)) fun n dir h => by
    simp only [decide_eq_true_eq] at h ⊢
    exact h.trans (List.suffix_cons n dir)

/-- Without the children `names` of `d`, and what is beneath them. -/
def pruneAll (t : Tree) (d : Loc) (names : List Name) : Tree :=
  t.restrict (fun l => names.any fun n => decide ((n :: d) <:+ l)) fun n dir h => by
    simp only [List.any_eq_true, decide_eq_true_eq] at h ⊢
    obtain ⟨m, hm, hsuffix⟩ := h
    exact ⟨m, hm, hsuffix.trans (List.suffix_cons n dir)⟩

/-- Without what is beneath `d`. -/
def clear (t : Tree) (d : Loc) : Tree :=
  t.restrict (fun l => decide (Beneath d l)) fun n dir h => by
    simp only [decide_eq_true_eq] at h ⊢
    exact h.cons n

/-! ## Looking entries up -/

@[simp] theorem kindAt_nil (t : Tree) : t.kindAt [] = some .dir := rfl

theorem mem_of_kindAt {n : Name} {dir : Loc} {k : Kind} (h : t.kindAt (n :: dir) = some k) :
    (n :: dir, k) ∈ t.entries := by
  unfold kindAt at h
  rw [if_neg (List.cons_ne_nil n dir)] at h
  obtain ⟨l₁, l₂, heq, -⟩ := List.lookup_eq_some_iff.mp h
  rw [heq]
  exact List.mem_append_right _ List.mem_cons_self

theorem kindAt_of_mem {loc : Loc} {k : Kind} (h : (loc, k) ∈ t.entries) :
    t.kindAt loc = some k := by
  obtain ⟨n, dir, rfl : loc = n :: dir, -⟩ := t.rooted _ h
  unfold kindAt
  rw [if_neg (List.cons_ne_nil n dir)]
  obtain ⟨l₁, l₂, heq⟩ := List.append_of_mem h
  refine List.lookup_eq_some_iff.mpr ⟨l₁, l₂, heq, fun e he => ?_⟩
  -- the location occurs once
  have hnodup := t.nodup
  rw [heq, List.map_append, List.map_cons] at hnodup
  have hdisjoint := (List.nodup_append.mp hnodup).2.2
  have hne := hdisjoint e.1 (List.mem_map_of_mem he) (n :: dir) List.mem_cons_self
  simpa using hne.symm

theorem kindAt_eq_some {n : Name} {dir : Loc} {k : Kind} :
    t.kindAt (n :: dir) = some k ↔ (n :: dir, k) ∈ t.entries :=
  ⟨mem_of_kindAt, kindAt_of_mem⟩

/-- The directory of an entry is a directory. -/
theorem kindAt_parent {n : Name} {dir : Loc} {k : Kind} (h : t.kindAt (n :: dir) = some k) :
    t.kindAt dir = some .dir := by
  obtain ⟨n', dir', heq, -, -, hdir⟩ := t.rooted _ (mem_of_kindAt h)
  cases heq
  rcases hdir with rfl | hdir
  · rfl
  · exact kindAt_of_mem hdir

/-- All that an entry is beneath is a directory. -/
theorem kindAt_of_beneath {d l : Loc} {k : Kind} (h : t.kindAt l = some k)
    (hd : Beneath d l) : t.kindAt d = some .dir := by
  induction l generalizing k with
  | nil =>
      obtain ⟨hsuffix, hne⟩ := hd
      exact absurd (List.suffix_nil.mp hsuffix).symm hne
  | cons n dir ih =>
      have hparent := kindAt_parent h
      rcases List.suffix_cons_iff.mp hd.1 with heq | hsuffix
      · exact absurd heq.symm hd.2
      · by_cases hdir : dir = d
        · rw [← hdir]
          exact hparent
        · exact ih hparent ⟨hsuffix, hdir⟩

theorem mem_list {dir : Loc} {n : Name} :
    n ∈ t.list dir ↔ ∃ k, t.kindAt (n :: dir) = some k := by
  unfold list
  rw [List.mem_filterMap]
  refine ⟨?_, ?_⟩
  · rintro ⟨⟨loc, k⟩, hmem, hname⟩
    cases loc with
    | nil => cases hname
    | cons m dir' =>
        obtain ⟨hdir, hsome⟩ := Option.ite_none_right_eq_some.mp hname
        obtain rfl := Option.some.inj hsome
        subst hdir
        exact ⟨k, kindAt_of_mem hmem⟩
  · rintro ⟨k, hk⟩
    exact ⟨_, mem_of_kindAt hk, if_pos rfl⟩

/-- No entry is called `.` or `..`. -/
theorem name_of_mem_list {dir : Loc} {n : Name} (h : n ∈ t.list dir) :
    n ≠ "." ∧ n ≠ ".." := by
  obtain ⟨k, hk⟩ := mem_list.mp h
  obtain ⟨m, dir', heq, hdot, hdots, -⟩ := t.rooted _ (mem_of_kindAt hk)
  cases heq
  exact ⟨hdot, hdots⟩

/-- Nothing is beneath a directory without entries, or a file or a link. -/
theorem not_beneath_of_list_eq_nil {d l : Loc} {k : Kind} (hlist : t.list d = [])
    (h : t.kindAt l = some k) : ¬ Beneath d l := by
  rintro ⟨⟨names, rfl⟩, hne⟩
  rcases List.eq_nil_or_concat names with rfl | ⟨names, n, rfl⟩
  · exact hne rfl
  · -- the entry of `d` on the way to `l` is in the list
    have hchild : ∃ k', t.kindAt (n :: d) = some k' := by
      rw [List.concat_eq_append, List.append_assoc] at h
      by_cases hnames : names = []
      · subst hnames
        exact ⟨k, h⟩
      · refine ⟨.dir, kindAt_of_beneath h ⟨List.suffix_append _ _, fun heq => ?_⟩⟩
        exact hnames (List.append_left_eq_self.mp heq)
    rw [← mem_list, hlist] at hchild
    cases hchild

/-! ## Smaller trees -/

/-- Every entry of `t'` is one of `t`. -/
def Sub (t' t : Tree) : Prop :=
  ∀ loc k, t'.kindAt loc = some k → t.kindAt loc = some k

theorem Sub.refl (t : Tree) : Sub t t := fun _ _ h => h

theorem Sub.trans {t'' : Tree} (h : Sub t'' t') (h' : Sub t' t) : Sub t'' t :=
  fun loc k hk => h' loc k (h loc k hk)

section Restrict

variable {drop drop' : Loc → Bool}
  {hdrop : ∀ n dir, drop dir = true → drop (n :: dir) = true}
  {hdrop' : ∀ n dir, drop' dir = true → drop' (n :: dir) = true}

theorem kindAt_restrict (n : Name) (dir : Loc) :
    (t.restrict drop hdrop).kindAt (n :: dir)
      = if drop (n :: dir) then none else t.kindAt (n :: dir) := by
  apply Option.ext
  intro k
  rw [kindAt_eq_some]
  show (n :: dir, k) ∈ t.entries.filter _ ↔ _
  rw [List.mem_filter]
  cases h : drop (n :: dir) with
  | true => simp
  | false => simp [kindAt_eq_some]

theorem restrict_sub : Sub (t.restrict drop hdrop) t := by
  intro loc k hk
  cases loc with
  | nil => exact hk
  | cons n dir =>
      rw [kindAt_restrict] at hk
      exact (Option.ite_none_left_eq_some.mp hk).2

/-- Two ways of dropping the same entries. -/
theorem restrict_congr (h : ∀ e ∈ t.entries, drop e.1 = drop' e.1) :
    t.restrict drop hdrop = t.restrict drop' hdrop' := by
  apply Tree.ext
  show t.entries.filter _ = t.entries.filter _
  apply List.filter_congr
  intro e he
  rw [h e he]

/-- Dropping in two steps. -/
theorem restrict_restrict {drop'' : Loc → Bool}
    {hdrop'' : ∀ n dir, drop'' dir = true → drop'' (n :: dir) = true}
    (h : ∀ l, drop'' l = (drop l || drop' l)) :
    (t.restrict drop hdrop).restrict drop' hdrop' = t.restrict drop'' hdrop'' := by
  apply Tree.ext
  show (t.entries.filter _).filter _ = t.entries.filter _
  rw [List.filter_filter]
  apply List.filter_congr
  intro e _
  rw [h, Bool.not_or, Bool.and_comm]

/-- Nothing is dropped. -/
theorem restrict_eq_self (h : ∀ e ∈ t.entries, drop e.1 = false) :
    t.restrict drop hdrop = t := by
  apply Tree.ext
  show t.entries.filter _ = t.entries
  rw [List.filter_eq_self]
  intro e he
  rw [h e he]
  rfl

end Restrict

theorem kindAt_prune_of_not {loc l : Loc} (h : ¬ loc <:+ l) :
    (t.prune loc).kindAt l = t.kindAt l := by
  cases l with
  | nil => rfl
  | cons n dir =>
      unfold prune
      rw [kindAt_restrict, if_neg (by simpa using h)]

theorem prune_sub (t : Tree) (loc : Loc) : Sub (t.prune loc) t := restrict_sub

theorem clear_sub (t : Tree) (d : Loc) : Sub (t.clear d) t := restrict_sub

theorem kindAt_clear_of_not {d l : Loc} (h : ¬ Beneath d l) :
    (t.clear d).kindAt l = t.kindAt l := by
  cases l with
  | nil => rfl
  | cons n dir =>
      unfold clear
      rw [kindAt_restrict, if_neg (by simpa using h)]

/-- What is dropped with a child is beneath the directory. -/
theorem clear_prune (t : Tree) (d : Loc) (n : Name) :
    (t.prune (n :: d)).clear d = t.clear d := by
  unfold prune clear
  apply restrict_restrict
  intro l
  by_cases h : (n :: d) <:+ l
  · have hbeneath := beneath_of_child h
    simp [h, hbeneath]
  · simp [h]

/-- Less is beneath a child. -/
theorem clear_sub_clear (t : Tree) (d : Loc) (n : Name) :
    Sub (t.clear d) (t.clear (n :: d)) := by
  intro l k hk
  cases l with
  | nil => exact hk
  | cons m dir =>
      unfold clear at hk ⊢
      rw [kindAt_restrict] at hk ⊢
      obtain ⟨hnot, hk⟩ := Option.ite_none_left_eq_some.mp hk
      rw [if_neg]
      · exact hk
      · rw [decide_eq_true_eq] at hnot ⊢
        exact fun hbeneath => hnot (beneath_of_child hbeneath.1)

/-- One child after the other. -/
theorem pruneAll_cons (t : Tree) (d : Loc) (n : Name) (names : List Name) :
    (t.prune (n :: d)).pruneAll d names = t.pruneAll d (n :: names) := by
  unfold prune pruneAll
  apply restrict_restrict
  intro l
  rw [List.any_cons]

/-- A child that is not there. -/
theorem prune_of_kindAt_none {loc : Loc} (h : t.kindAt loc = none) : t.prune loc = t := by
  unfold prune
  apply restrict_eq_self
  rintro ⟨l, k⟩ hmem
  rw [decide_eq_false_iff_not]
  intro hsuffix
  have hl := kindAt_of_mem hmem
  by_cases heq : l = loc
  · subst heq
    rw [h] at hl
    cases hl
  · rw [kindAt_of_beneath hl ⟨hsuffix, heq⟩] at h
    cases h

/-- All children, and with them all that is beneath. -/
theorem pruneAll_list (t : Tree) (d : Loc) : t.pruneAll d (t.list d) = t.clear d := by
  unfold pruneAll clear
  apply restrict_congr
  rintro ⟨l, k⟩ hmem
  have hl := kindAt_of_mem hmem
  rw [Bool.eq_iff_iff, List.any_eq_true, decide_eq_true_eq]
  refine ⟨?_, ?_⟩
  · rintro ⟨n, -, hsuffix⟩
    exact beneath_of_child (of_decide_eq_true hsuffix)
  · rintro ⟨⟨names, rfl⟩, hne⟩
    -- the child of `d` on the way to `l` is in the list
    rcases List.eq_nil_or_concat names with rfl | ⟨names, n, rfl⟩
    · exact absurd rfl hne
    · rw [List.concat_eq_append, List.append_assoc] at hl ⊢
      have hsuffix : (n :: d) <:+ names ++ ([n] ++ d) := List.suffix_append names (n :: d)
      refine ⟨n, mem_list.mpr ?_, decide_eq_true hsuffix⟩
      by_cases hnames : names = []
      · subst hnames
        exact ⟨k, hl⟩
      · refine ⟨.dir, kindAt_of_beneath hl ⟨hsuffix, fun heq => ?_⟩⟩
        exact hnames (List.append_left_eq_self.mp heq)

end Tree

end FileSystem

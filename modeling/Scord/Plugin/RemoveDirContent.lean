/-
  Scord.Plugin.RemoveDirContent

  `remove_dir_content` of the Slurm plugin, on arbitrary file trees.  It tells
  directories from the rest with `stat`, which follows links: a link to a
  directory is entered, and a link that leads nowhere is left alone.
-/
import Scord.Lib.PathResolution

namespace Scord

open FileSystem

/-! ## The function -/

/-- A path name: its components, and how long it is as a string. -/
structure PathName where
  comps : List Name
  len : Nat

namespace PathName

/-- `"%s/%s"` -/
def child (path : PathName) (n : Name) : PathName :=
  ⟨path.comps ++ [n], path.len + 1 + n.length⟩

/-- The path name of what is at `names`, seen from `path`. -/
def below (path : PathName) (names : Loc) : PathName :=
  names.foldr (fun n p => p.child n) path

end PathName

/-- `sizeof(fname)` -/
def fnameSize : Nat := 300

/-- The body of the loop, for the directory entry `n` of `path`.  There is no
    result when `sprintf` writes past the end of `fname`, or when the recursive
    call has none. -/
def removeEntry (recurse : Tree → PathName → Option Tree) (path : PathName) (t : Tree)
    (n : Name) : Option Tree :=
  let fname := path.child n
  if fnameSize ≤ fname.len then none
  else if n = "." ∨ n = ".." then some t
  else
    match t.stat fname.comps with
    -- a link that leads nowhere
    | none => some t
    | some .dir =>
        -- `unlinkat` does not follow the link that `stat` has followed
        match t.rmdir path.comps n with
        | some t' => some t'
        | none => (recurse t fname).map fun t' => (t'.rmdir path.comps n).getD t'
    | some _ => some ((t.unlink path.comps n).getD t)

/-- The loop over what `readdir` returns. -/
def removeEntries (recurse : Tree → PathName → Option Tree) (path : PathName) :
    Tree → List Name → Option Tree
  | t, [] => some t
  | t, n :: ns => (removeEntry recurse path t n).bind fun t' => removeEntries recurse path t' ns

/-- `remove_dir_content`, at most `fuel` calls deep. -/
def removeDirContent : Nat → Tree → PathName → Option Tree
  | 0, _, _ => none
  | fuel + 1, t, path =>
      match t.opendir path.comps with
      | none => some t
      | some dir => removeEntries (removeDirContent fuel) path t (t.readdir dir)

/-! ## What it should do, and when -/

/-- `path` is a path of the directory `d`, which leads there whatever is beneath
    `d`. -/
structure IsPathOf (t : Tree) (path : PathName) (d : Loc) (budget : Nat) : Prop where
  resolve : (t.clear d).resolve path.comps = some (d, budget)
  dir : t.kindAt d = some .dir

/-- All path names beneath `path` fit into `fname`, those of `.` and `..`
    included. -/
structure FitsBelow (t : Tree) (path : PathName) (d : Loc) : Prop where
  entry : ∀ names n k, t.kindAt (n :: (names ++ d)) = some k →
    ((path.below names).child n).len < fnameSize
  dots : ∀ names, t.kindAt (names ++ d) = some .dir →
    ((path.below names).child "..").len < fnameSize

/-- Every link among the entries `names` of `d`, and beneath them, leads to a
    regular file when it is its turn: what comes before it is gone by then. -/
inductive LinksLeadToFiles : Tree → PathName → Loc → List Name → Prop
  | nil {t path d} : LinksLeadToFiles t path d []
  | gone {t path d n ns} (hk : t.kindAt (n :: d) = none)
      (rest : LinksLeadToFiles t path d ns) : LinksLeadToFiles t path d (n :: ns)
  | file {t path d n ns} (hk : t.kindAt (n :: d) = some .file)
      (rest : LinksLeadToFiles (t.prune (n :: d)) path d ns) :
      LinksLeadToFiles t path d (n :: ns)
  | link {t path d n ns target} (hk : t.kindAt (n :: d) = some (.link target))
      (hfile : t.stat (path.child n).comps = some .file)
      (rest : LinksLeadToFiles (t.prune (n :: d)) path d ns) :
      LinksLeadToFiles t path d (n :: ns)
  | dir {t path d n ns} (hk : t.kindAt (n :: d) = some .dir)
      (beneath : LinksLeadToFiles t (path.child n) (n :: d) (t.list (n :: d)))
      (rest : LinksLeadToFiles (t.prune (n :: d)) path d ns) :
      LinksLeadToFiles t path d (n :: ns)

/-! ## Paths -/

section Paths

variable {t t' : Tree} {path : PathName} {d : Loc} {budget : Nat} {n : Name}

theorem IsPathOf.resolve_self (h : IsPathOf t path d budget) :
    t.resolve path.comps = some (d, budget) :=
  Tree.resolve_sub (t.clear_sub d) h.resolve

theorem IsPathOf.child (h : IsPathOf t path d budget) (hk : t.kindAt (n :: d) = some .dir) :
    IsPathOf t (path.child n) (n :: d) budget := by
  have hname := Tree.name_of_mem_list (Tree.mem_list.mpr ⟨_, hk⟩)
  have hself : (t.clear (n :: d)).kindAt (n :: d) = some .dir := by
    rw [Tree.kindAt_clear_of_not fun h => h.2 rfl]
    exact hk
  refine ⟨?_, hk⟩
  show (t.clear (n :: d)).resolve (path.comps ++ [n]) = _
  rw [Tree.resolve_append, Tree.resolve_sub (t.clear_sub_clear d n) h.resolve]
  exact Tree.walk_of_not_link hname.1 hname.2 hself nofun

theorem IsPathOf.prune (h : IsPathOf t path d budget) (n : Name) :
    IsPathOf (t.prune (n :: d)) path d budget := by
  refine ⟨?_, ?_⟩
  · rw [Tree.clear_prune]
    exact h.resolve
  · rw [Tree.kindAt_prune_of_not fun hsuffix => (beneath_of_child hsuffix).2 rfl]
    exact h.dir

theorem PathName.below_append (path : PathName) (names : Loc) (n : Name) :
    path.below (names ++ [n]) = (path.child n).below names := by
  unfold below
  rw [List.foldr_append]
  rfl

theorem FitsBelow.child (h : FitsBelow t path d) (n : Name) :
    FitsBelow t (path.child n) (n :: d) := by
  have hsplit : ∀ names : Loc, names ++ n :: d = (names ++ [n]) ++ d := by
    intro names
    simp
  refine ⟨fun names m k hk => ?_, fun names hk => ?_⟩
  · rw [hsplit] at hk
    rw [← PathName.below_append]
    exact h.entry _ m k hk
  · rw [hsplit] at hk
    rw [← PathName.below_append]
    exact h.dots _ hk

theorem FitsBelow.sub (h : FitsBelow t path d) (hsub : Tree.Sub t' t) : FitsBelow t' path d :=
  ⟨fun names n k hk => h.entry names n k (hsub _ _ hk),
    fun names hk => h.dots names (hsub _ _ hk)⟩

end Paths

/-! ## Links that stay

A link that does not lead to a file is never removed: whatever the traversal
removes can only make it lead nowhere. -/

section Stuck

variable {t t' : Tree} {path : PathName} {l loc : Loc} {budget : Nat} {n : Name}

/-- The link `l` leads to no file, on a path with at most `budget` links left. -/
def Stuck (t : Tree) (budget : Nat) (l : Loc) : Prop :=
  ∃ n dir target, l = n :: dir ∧ t.kindAt l = some (.link target) ∧
    t.statFrom budget dir n ≠ some .file

/-- Nothing is added, and the links that are stuck stay. -/
structure Shrinks (budget : Nat) (t t' : Tree) : Prop where
  sub : Tree.Sub t' t
  stuck : ∀ l, Stuck t budget l → Stuck t' budget l

theorem Shrinks.refl (budget : Nat) (t : Tree) : Shrinks budget t t :=
  ⟨Tree.Sub.refl t, fun _ h => h⟩

theorem Shrinks.trans {t'' : Tree} (h : Shrinks budget t t') (h' : Shrinks budget t' t'') :
    Shrinks budget t t'' :=
  ⟨h'.sub.trans h.sub, fun l hl => h'.stuck l (h.stuck l hl)⟩

theorem Shrinks.prune (h : ∀ l, Stuck t budget l → ¬ loc <:+ l) :
    Shrinks budget t (t.prune loc) := by
  refine ⟨t.prune_sub loc, fun l hl => ?_⟩
  have hnot := h l hl
  obtain ⟨n, dir, target, rfl, hk, hstat⟩ := hl
  refine ⟨n, dir, target, rfl, ?_, fun hfile => hstat ?_⟩
  · rw [Tree.kindAt_prune_of_not hnot]
    exact hk
  · exact Tree.statFrom_sub (t.prune_sub loc) hfile

/-- `rmdir` removes a directory, and nothing is beneath it. -/
theorem Shrinks.rmdir {comps : List Name} (h : t.rmdir comps n = some t') :
    Shrinks budget t t' := by
  obtain ⟨dir, left, -, hk, hlist, rfl⟩ := Tree.rmdir_eq_some h
  refine Shrinks.prune ?_
  rintro l ⟨m, dir', target, rfl, hl, -⟩ hsuffix
  by_cases heq : m :: dir' = n :: dir
  · rw [heq, hk] at hl
    cases hl
  · exact Tree.not_beneath_of_list_eq_nil hlist hl ⟨hsuffix, heq⟩

/-- All ways to the directory have at most `budget` links left. -/
def LinksLeft (t : Tree) (path : PathName) (budget : Nat) : Prop :=
  ∀ dir left, t.resolve path.comps = some (dir, left) → left ≤ budget

theorem LinksLeft.sub (h : LinksLeft t path budget) (hsub : Tree.Sub t' t) :
    LinksLeft t' path budget :=
  fun dir left hresolve => h dir left (Tree.resolve_sub hsub hresolve)

theorem LinksLeft.child (h : LinksLeft t path budget) (n : Name) :
    LinksLeft t (path.child n) budget := by
  intro dir left hresolve
  have hresolve : t.resolve (path.comps ++ [n]) = some (dir, left) := hresolve
  rw [Tree.resolve_append] at hresolve
  obtain ⟨⟨mid, left'⟩, hmid, hlast⟩ := Option.bind_eq_some_iff.mp hresolve
  exact Nat.le_trans (Tree.walk_eq_some.mp hlast).left_le (h mid left' hmid)

/-- `unlink` comes after a `stat` that has found a file. -/
theorem Shrinks.unlink (hleft : LinksLeft t path budget)
    (hstat : t.stat (path.child n).comps = some .file)
    (h : t.unlink path.comps n = some t') : Shrinks budget t t' := by
  obtain ⟨dir, left, k, hresolve, hk, hdir, rfl⟩ := Tree.unlink_eq_some h
  refine Shrinks.prune ?_
  rintro l ⟨m, dir', target, rfl, hl, hnot⟩ hsuffix
  by_cases heq : m :: dir' = n :: dir
  · -- the stuck link itself: it would have led to a file
    cases heq
    have hfile : t.statFrom left dir n = some .file := by
      rw [← Tree.stat_append hresolve]
      exact hstat
    exact hnot (Tree.statFrom_mono (hleft dir left hresolve) hfile)
  · have hk' := Tree.kindAt_of_beneath hl ⟨hsuffix, heq⟩
    rw [hk] at hk'
    exact hdir (Option.some.inj hk')

end Stuck

/-! ## A traversal that returns -/

section Returns

variable {t t' : Tree} {path : PathName} {d : Loc} {budget : Nat} {n : Name}

theorem LinksLeadToFiles.cons {ns : List Name} (h : LinksLeadToFiles t path d [n])
    (rest : LinksLeadToFiles (t.prune (n :: d)) path d ns) :
    LinksLeadToFiles t path d (n :: ns) := by
  cases h with
  | gone hk =>
      rw [Tree.prune_of_kindAt_none hk] at rest
      exact .gone hk rest
  | file hk => exact .file hk rest
  | link hk hfile => exact .link hk hfile rest
  | dir hk beneath => exact .dir hk beneath rest

end Returns

/-! ## A traversal that finds files behind all links -/

section Succeeds

variable {t : Tree} {path : PathName} {d : Loc} {budget : Nat} {n : Name}

theorem removeEntry_of_dots {recurse : Tree → PathName → Option Tree}
    (hfits : (path.child n).len < fnameSize) (hn : n = "." ∨ n = "..") :
    removeEntry recurse path t n = some t := by
  unfold removeEntry
  rw [if_neg (Nat.not_le.mpr hfits), if_pos hn]

/-- From some depth on, the loop removes what it is given. -/
def Removes (t : Tree) (path : PathName) (d : Loc) (names : List Name) : Prop :=
  ∃ depth, ∀ fuel, depth ≤ fuel →
    removeEntries (removeDirContent fuel) path t names = some (t.pruneAll d names)

/-- The first entry is removed, then the others. -/
theorem Removes.cons {ns : List Name} (depth : Nat)
    (hfirst : ∀ fuel, depth ≤ fuel →
      removeEntry (removeDirContent fuel) path t n = some (t.prune (n :: d)))
    (hrest : Removes (t.prune (n :: d)) path d ns) : Removes t path d (n :: ns) := by
  obtain ⟨depth', hrest⟩ := hrest
  refine ⟨max depth depth', fun fuel hfuel => ?_⟩
  show (removeEntry _ path t n).bind _ = _
  rw [hfirst fuel (Nat.le_trans (Nat.le_max_left ..) hfuel), Option.bind_some,
    hrest fuel (Nat.le_trans (Nat.le_max_right ..) hfuel), Tree.pruneAll_cons]

/-- A call one level up. -/
theorem Removes.removeDirContent (h : Removes t path d (t.list d))
    (hp : IsPathOf t path d budget) (hfits : FitsBelow t path d) :
    ∃ depth, ∀ fuel, depth ≤ fuel → removeDirContent fuel t path = some (t.clear d) := by
  obtain ⟨depth, h⟩ := h
  refine ⟨depth + 1, fun fuel hfuel => ?_⟩
  have hdots : (path.child "..").len < fnameSize := hfits.dots [] hp.dir
  have hdot : (path.child ".").len < fnameSize :=
    Nat.lt_trans (Nat.lt_succ_self _) hdots
  cases fuel with
  | zero => omega
  | succ fuel =>
      unfold Scord.removeDirContent
      rw [Tree.opendir_of_resolve hp.resolve_self hp.dir]
      show (removeEntry _ path t ".").bind (fun t₁ => (removeEntry _ path t₁ "..").bind _) = _
      rw [removeEntry_of_dots hdot (.inl rfl), Option.bind_some,
        removeEntry_of_dots hdots (.inr rfl), Option.bind_some,
        h fuel (Nat.le_of_succ_le_succ hfuel), Tree.pruneAll_list]

end Succeeds

/-! ## The contract -/

end Scord

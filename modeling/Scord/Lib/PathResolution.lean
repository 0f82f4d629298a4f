/-
  Scord.Lib.PathResolution

  How a path is resolved in a file tree, and the calls that take a path:
  `stat`, which follows a link at the end, and `unlink` and `rmdir`, which do
  not.

  `walk` computes the resolution and `Walks` says what it is; the facts about
  resolution are proved by induction on `Walks`.  A resolution may follow a
  bounded number of links, and the number that is left is part of its result.
-/
import Scord.Lib.FileSystem

namespace FileSystem

/-- `MAXSYMLINKS` -/
def maxSymlinks : Nat := 40

/-- Where the resolution of a link starts that is in the directory `dir`. -/
def Target.start (target : Target) (dir : Loc) : Loc :=
  if target.absolute then [] else dir

namespace Tree

/-- Follow `comps` from `loc`; `jump` goes on at a link. -/
def follow (t : Tree) (jump : Loc → List Name → Option (Loc × Nat)) (budget : Nat) :
    Loc → List Name → Option (Loc × Nat)
  | loc, [] => some (loc, budget)
  | loc, c :: cs =>
      if t.kindAt loc ≠ some .dir then none
      else if c = "." then follow t jump budget loc cs
      else if c = ".." then follow t jump budget loc.tail cs
      else
        match t.kindAt (c :: loc) with
        | none => none
        | some (.link target) => jump (target.start loc) (target.comps ++ cs)
        | some .dir => follow t jump budget (c :: loc) cs
        | some .file => follow t jump budget (c :: loc) cs

/-- The location that `comps` leads to from `loc` with at most `budget` links,
    and how many are left. -/
def walk (t : Tree) : Nat → Loc → List Name → Option (Loc × Nat)
  -- `ELOOP`
  | 0 => t.follow (fun _ _ => none) 0
  | budget + 1 => t.follow (t.walk budget) (budget + 1)

/-- The resolution of an absolute path, a link at its end included. -/
def resolve (t : Tree) (path : List Name) : Option (Loc × Nat) :=
  t.walk maxSymlinks [] path

/-! ## What a resolution is -/

inductive Walks (t : Tree) : Nat → Loc → List Name → Loc → Nat → Prop
  | done {budget loc} : Walks t budget loc [] loc budget
  | dot {budget loc cs loc' left} (hdir : t.kindAt loc = some .dir)
      (h : Walks t budget loc cs loc' left) : Walks t budget loc ("." :: cs) loc' left
  | up {budget loc cs loc' left} (hdir : t.kindAt loc = some .dir)
      (h : Walks t budget loc.tail cs loc' left) : Walks t budget loc (".." :: cs) loc' left
  | step {budget loc c cs loc' left k} (hdir : t.kindAt loc = some .dir)
      (hdot : c ≠ ".") (hdots : c ≠ "..") (hk : t.kindAt (c :: loc) = some k)
      (hlink : ∀ target, k ≠ .link target)
      (h : Walks t budget (c :: loc) cs loc' left) : Walks t budget loc (c :: cs) loc' left
  | link {budget loc c cs loc' left target} (hdir : t.kindAt loc = some .dir)
      (hdot : c ≠ ".") (hdots : c ≠ "..") (hk : t.kindAt (c :: loc) = some (.link target))
      (h : Walks t budget (target.start loc) (target.comps ++ cs) loc' left) :
      Walks t (budget + 1) loc (c :: cs) loc' left

section Walks

variable {t t' : Tree} {budget left : Nat} {loc loc' : Loc} {cs : List Name}

/-- One level of `walk`, over what it does at a link. -/
theorem walks_of_follow {jump : Loc → List Name → Option (Loc × Nat)}
    (hjump : ∀ {loc₀ c cs₀ target}, t.kindAt loc₀ = some .dir → c ≠ "." → c ≠ ".." →
      t.kindAt (c :: loc₀) = some (.link target) →
      jump (target.start loc₀) (target.comps ++ cs₀) = some (loc', left) →
      Walks t budget loc₀ (c :: cs₀) loc' left)
    (h : t.follow jump budget loc cs = some (loc', left)) : Walks t budget loc cs loc' left := by
  -- name by name; a link leaves the induction through `hjump`
  induction cs generalizing loc with
  | nil =>
      cases h
      exact .done
  | cons c cs ih =>
      unfold follow at h
      by_cases hdir : t.kindAt loc = some .dir
      · rw [if_neg (not_not_intro hdir)] at h
        by_cases hdot : c = "."
        · subst hdot
          rw [if_pos rfl] at h
          exact .dot hdir (ih h)
        · rw [if_neg hdot] at h
          by_cases hdots : c = ".."
          · subst hdots
            rw [if_pos rfl] at h
            exact .up hdir (ih h)
          · rw [if_neg hdots] at h
            cases hk : t.kindAt (c :: loc) with
            | none =>
                rw [hk] at h
                cases h
            | some k =>
                rw [hk] at h
                cases k with
                | dir => exact .step hdir hdot hdots hk nofun (ih h)
                | file => exact .step hdir hdot hdots hk nofun (ih h)
                | link target => exact hjump hdir hdot hdots hk h
      · rw [if_pos hdir] at h
        cases h

theorem walks_of_walk (h : t.walk budget loc cs = some (loc', left)) :
    Walks t budget loc cs loc' left := by
  induction budget generalizing loc cs with
  | zero => exact walks_of_follow (fun _ _ _ _ hjump => by cases hjump) h
  | succ budget ih =>
      exact walks_of_follow (fun hdir hdot hdots hk hjump => .link hdir hdot hdots hk (ih hjump)) h

/-- What `walk` does at a link. -/
def jump (t : Tree) : Nat → Loc → List Name → Option (Loc × Nat)
  | 0 => fun _ _ => none
  | budget + 1 => t.walk budget

theorem walk_eq_follow (t : Tree) (budget : Nat) :
    t.walk budget = t.follow (t.jump budget) budget := by
  cases budget <;> rfl

theorem walk_of_walks (h : Walks t budget loc cs loc' left) :
    t.walk budget loc cs = some (loc', left) := by
  induction h with
  | done =>
      rw [walk_eq_follow]
      rfl
  | dot hdir _ ih =>
      rw [walk_eq_follow] at ih ⊢
      unfold follow
      rw [if_neg (not_not_intro hdir), if_pos rfl]
      exact ih
  | up hdir _ ih =>
      rw [walk_eq_follow] at ih ⊢
      unfold follow
      rw [if_neg (not_not_intro hdir), if_neg (by decide), if_pos rfl]
      exact ih
  | @step _ _ _ _ _ _ k hdir hdot hdots hk hlink _ ih =>
      rw [walk_eq_follow] at ih ⊢
      unfold follow
      rw [if_neg (not_not_intro hdir), if_neg hdot, if_neg hdots, hk]
      cases k with
      | dir => exact ih
      | file => exact ih
      | link target => exact absurd rfl (hlink target)
  | link hdir hdot hdots hk _ ih =>
      rw [walk_eq_follow]
      unfold follow
      rw [if_neg (not_not_intro hdir), if_neg hdot, if_neg hdots, hk]
      exact ih

/-- **`walk` computes the resolution.** -/
theorem walk_eq_some :
    t.walk budget loc cs = some (loc', left) ↔ Walks t budget loc cs loc' left :=
  ⟨walks_of_walk, walk_of_walks⟩

/-- No link is given back. -/
theorem Walks.left_le (h : Walks t budget loc cs loc' left) : left ≤ budget := by
  induction h with
  | done => exact Nat.le_refl _
  | dot _ _ ih => exact ih
  | up _ _ ih => exact ih
  | step _ _ _ _ _ _ ih => exact ih
  | link _ _ _ _ _ ih => exact Nat.le_succ_of_le ih

/-- With more links to follow, the same location is found. -/
theorem Walks.add (h : Walks t budget loc cs loc' left) (more : Nat) :
    Walks t (budget + more) loc cs loc' (left + more) := by
  induction h with
  | done => exact .done
  | dot hdir _ ih => exact .dot hdir ih
  | up hdir _ ih => exact .up hdir ih
  | step hdir hdot hdots hk hlink _ ih => exact .step hdir hdot hdots hk hlink ih
  | link hdir hdot hdots hk _ ih =>
      rw [Nat.succ_add]
      exact .link hdir hdot hdots hk ih

/-- A resolution in a smaller tree is one in the tree. -/
theorem Walks.sub (h : Walks t' budget loc cs loc' left) (hsub : Sub t' t) :
    Walks t budget loc cs loc' left := by
  induction h with
  | done => exact .done
  | dot hdir _ ih => exact .dot (hsub _ _ hdir) ih
  | up hdir _ ih => exact .up (hsub _ _ hdir) ih
  | step hdir hdot hdots hk hlink _ ih =>
      exact .step (hsub _ _ hdir) hdot hdots (hsub _ _ hk) hlink ih
  | link hdir hdot hdots hk _ ih => exact .link (hsub _ _ hdir) hdot hdots (hsub _ _ hk) ih

/-- One path after the other. -/
theorem Walks.trans {mid : Loc} {left' : Nat} {ds : List Name}
    (h : Walks t budget loc cs mid left) (h' : Walks t left mid ds loc' left') :
    Walks t budget loc (cs ++ ds) loc' left' := by
  induction h with
  | done => exact h'
  | dot hdir _ ih => exact .dot hdir (ih h')
  | up hdir _ ih => exact .up hdir (ih h')
  | step hdir hdot hdots hk hlink _ ih => exact .step hdir hdot hdots hk hlink (ih h')
  | link hdir hdot hdots hk _ ih =>
      have hall := ih h'
      rw [List.append_assoc] at hall
      exact .link hdir hdot hdots hk hall

/-- A path in two parts is resolved part by part. -/
theorem Walks.split {ds : List Name} (h : Walks t budget loc (cs ++ ds) loc' left) :
    ∃ mid left', Walks t budget loc cs mid left' ∧ Walks t left' mid ds loc' left := by
  -- the two parts are kept apart while `h` is taken to pieces
  generalize hcs : cs ++ ds = all at h
  induction h generalizing cs with
  | done =>
      obtain ⟨rfl, rfl⟩ := List.append_eq_nil_iff.mp hcs
      exact ⟨_, _, .done, .done⟩
  | @dot _ _ rest _ _ hdir h ih =>
      rcases List.append_eq_cons_iff.mp hcs with ⟨rfl, rfl⟩ | ⟨cs', rfl, hrest⟩
      · exact ⟨_, _, .done, .dot hdir h⟩
      · obtain ⟨mid, left', h₁, h₂⟩ := ih hrest.symm
        exact ⟨mid, left', .dot hdir h₁, h₂⟩
  | up hdir h ih =>
      rcases List.append_eq_cons_iff.mp hcs with ⟨rfl, rfl⟩ | ⟨cs', rfl, hrest⟩
      · exact ⟨_, _, .done, .up hdir h⟩
      · obtain ⟨mid, left', h₁, h₂⟩ := ih hrest.symm
        exact ⟨mid, left', .up hdir h₁, h₂⟩
  | step hdir hdot hdots hk hlink h ih =>
      rcases List.append_eq_cons_iff.mp hcs with ⟨rfl, rfl⟩ | ⟨cs', rfl, hrest⟩
      · exact ⟨_, _, .done, .step hdir hdot hdots hk hlink h⟩
      · obtain ⟨mid, left', h₁, h₂⟩ := ih hrest.symm
        exact ⟨mid, left', .step hdir hdot hdots hk hlink h₁, h₂⟩
  | link hdir hdot hdots hk h ih =>
      rcases List.append_eq_cons_iff.mp hcs with ⟨rfl, rfl⟩ | ⟨cs', rfl, hrest⟩
      · exact ⟨_, _, .done, .link hdir hdot hdots hk h⟩
      · -- the rest of the path follows the target of the link
        obtain ⟨mid, left', h₁, h₂⟩ := ih (by rw [hrest, List.append_assoc])
        exact ⟨mid, left', .link hdir hdot hdots hk h₁, h₂⟩

theorem walk_append (t : Tree) (budget : Nat) (loc : Loc) (cs ds : List Name) :
    t.walk budget loc (cs ++ ds)
      = (t.walk budget loc cs).bind fun mid => t.walk mid.2 mid.1 ds := by
  apply Option.ext
  rintro ⟨loc', left⟩
  rw [walk_eq_some, Option.bind_eq_some_iff]
  refine ⟨?_, ?_⟩
  · intro h
    obtain ⟨mid, left', h₁, h₂⟩ := h.split
    exact ⟨(mid, left'), walk_eq_some.mpr h₁, walk_eq_some.mpr h₂⟩
  · rintro ⟨⟨mid, left'⟩, h₁, h₂⟩
    exact (walk_eq_some.mp h₁).trans (walk_eq_some.mp h₂)

/-- A path that is resolved in a smaller tree leads to the same place. -/
theorem resolve_sub (hsub : Sub t' t) {path : List Name} {r : Loc × Nat}
    (h : t'.resolve path = some r) : t.resolve path = some r := by
  obtain ⟨loc, left⟩ := r
  exact walk_eq_some.mpr ((walk_eq_some.mp h).sub hsub)

theorem resolve_append (t : Tree) (path : List Name) (n : Name) :
    t.resolve (path ++ [n]) = (t.resolve path).bind fun r => t.walk r.2 r.1 [n] :=
  walk_append t maxSymlinks [] path [n]

end Walks

/-! ## One more name -/

/-- What the name `n` of the directory `dir` leads to, with so many links. -/
def statFrom (t : Tree) (budget : Nat) (dir : Loc) (n : Name) : Option Kind :=
  (t.walk budget dir [n]).bind fun r => t.kindAt r.1

section StatFrom

variable {t t' : Tree} {budget : Nat} {dir : Loc} {n : Name}

/-- A directory or a file leads to itself. -/
theorem walk_of_not_link (hdot : n ≠ ".") (hdots : n ≠ "..") {k : Kind}
    (hk : t.kindAt (n :: dir) = some k) (hlink : ∀ target, k ≠ .link target) :
    t.walk budget dir [n] = some (n :: dir, budget) :=
  walk_eq_some.mpr (.step (kindAt_parent hk) hdot hdots hk hlink .done)

theorem statFrom_of_not_link (hdot : n ≠ ".") (hdots : n ≠ "..") {k : Kind}
    (hk : t.kindAt (n :: dir) = some k) (hlink : ∀ target, k ≠ .link target) :
    t.statFrom budget dir n = some k := by
  unfold statFrom
  rw [walk_of_not_link hdot hdots hk hlink, Option.bind_some, hk]

theorem statFrom_sub (hsub : Sub t' t) {k : Kind} (h : t'.statFrom budget dir n = some k) :
    t.statFrom budget dir n = some k := by
  obtain ⟨⟨loc, left⟩, hwalk, hk⟩ := Option.bind_eq_some_iff.mp h
  refine Option.bind_eq_some_iff.mpr ⟨(loc, left), ?_, hsub _ _ hk⟩
  exact walk_eq_some.mpr ((walk_eq_some.mp hwalk).sub hsub)

theorem statFrom_mono {budget' : Nat} (hle : budget ≤ budget') {k : Kind}
    (h : t.statFrom budget dir n = some k) : t.statFrom budget' dir n = some k := by
  obtain ⟨⟨loc, left⟩, hwalk, hk⟩ := Option.bind_eq_some_iff.mp h
  refine Option.bind_eq_some_iff.mpr ⟨(loc, left + (budget' - budget)), ?_, hk⟩
  -- the difference of the two budgets is left over
  have hmore := (walk_eq_some.mp hwalk).add (budget' - budget)
  rw [Nat.add_sub_cancel' hle] at hmore
  exact walk_eq_some.mpr hmore

end StatFrom

/-! ## System calls -/

/-- `stat(path)`: what the path leads to. -/
def stat (t : Tree) (path : List Name) : Option Kind :=
  (t.resolve path).bind fun r => t.kindAt r.1

/-- `opendir(path)`: the directory that the path leads to. -/
def opendir (t : Tree) (path : List Name) : Option Loc :=
  match t.resolve path with
  | none => none
  | some r => if t.kindAt r.1 = some .dir then some r.1 else none

/-- What `readdir` returns, one after the other. -/
def readdir (t : Tree) (dir : Loc) : List Name :=
  "." :: ".." :: t.list dir

/-- `unlink(path/n)`: it fails on a directory. -/
def unlink (t : Tree) (path : List Name) (n : Name) : Option Tree :=
  match t.resolve path with
  | none => none
  | some r =>
      match t.kindAt (n :: r.1) with
      | some .file => some (t.prune (n :: r.1))
      | some (.link _) => some (t.prune (n :: r.1))
      | _ => none

/-- `unlinkat(_, path/n, AT_REMOVEDIR)`: it fails on anything but an empty
    directory. -/
def rmdir (t : Tree) (path : List Name) (n : Name) : Option Tree :=
  match t.resolve path with
  | none => none
  | some r =>
      if t.kindAt (n :: r.1) = some .dir ∧ t.list (n :: r.1) = [] then
        some (t.prune (n :: r.1))
      else none

section Calls

variable {t t' : Tree} {path : List Name} {n : Name} {dir : Loc} {budget : Nat}

theorem stat_append (h : t.resolve path = some (dir, budget)) (n : Name) :
    t.stat (path ++ [n]) = t.statFrom budget dir n := by
  unfold stat statFrom
  rw [resolve_append, h]
  rfl

/-- What `unlink` removes is a file or a link. -/
theorem unlink_eq_some (h : t.unlink path n = some t') :
    ∃ dir budget k, t.resolve path = some (dir, budget) ∧ t.kindAt (n :: dir) = some k ∧
      k ≠ .dir ∧ t' = t.prune (n :: dir) := by
  unfold unlink at h
  split at h
  · cases h
  case h_2 r hr =>
    split at h
    case h_1 hk => exact ⟨r.1, r.2, _, hr, hk, nofun, (Option.some.inj h).symm⟩
    case h_2 hk => exact ⟨r.1, r.2, _, hr, hk, nofun, (Option.some.inj h).symm⟩
    case h_3 => cases h

/-- What `rmdir` removes is an empty directory. -/
theorem rmdir_eq_some (h : t.rmdir path n = some t') :
    ∃ dir budget, t.resolve path = some (dir, budget) ∧ t.kindAt (n :: dir) = some .dir ∧
      t.list (n :: dir) = [] ∧ t' = t.prune (n :: dir) := by
  unfold rmdir at h
  split at h
  · cases h
  case h_2 r hr =>
    obtain ⟨⟨hk, hlist⟩, h⟩ := Option.ite_none_right_eq_some.mp h
    exact ⟨r.1, r.2, hr, hk, hlist, (Option.some.inj h).symm⟩

theorem opendir_of_resolve (h : t.resolve path = some (dir, budget))
    (hk : t.kindAt dir = some .dir) : t.opendir path = some dir := by
  unfold opendir
  rw [h]
  exact if_pos hk

end Calls

end Tree

end FileSystem

/-
  Scord.Lib.MakeDirectory

  The calls that make directories: `mkdir`, and `create_directories`, which makes
  every directory of a path that is missing.  The tree only grows, and a path
  that leads somewhere goes on leading there.

  `std::filesystem::path` comes first, as the text of a path and the names that
  the system reads in it.
-/
import Scord.Lib.PathResolution

namespace FileSystem

/-! ## Path texts -/

/-- `std::filesystem::path` -/
structure Path where
  text : String
deriving DecidableEq, Repr

namespace Path

def isAbsolute (p : Path) : Bool := p.text.toList.head? == some '/'

/-- Neither empty nor ended by a separator. -/
def hasFilename (p : Path) : Bool :=
  match p.text.toList.getLast? with
  | none => false
  | some c => c != '/'

/-- `operator/`: an absolute path replaces what it is appended to. -/
def append (p q : Path) : Path :=
  if q.isAbsolute then q
  else if p.hasFilename then ⟨p.text ++ "/" ++ q.text⟩
  else ⟨p.text ++ q.text⟩

instance : Div Path := ⟨append⟩

/-- The names on the way, as a system call reads them: up to the first NUL, with
    a separator at the end read as one before a `"."`.  It is assumed that
    `create_directories` reads the path as a whole in this way too: a library that hands
    over one prefix of it after the other has each of those that go past a NUL cut
    there. -/
def names (p : Path) : List Name :=
  let cs := p.text.toList.takeWhile (· ≠ '\x00')
  let comps := (cs.splitOn '/').filter (· ≠ [])
  comps.map String.ofList ++ if cs.getLast? = some '/' then ["."] else []

/-- Where the names start: at the root, or where the process runs. -/
def base (p : Path) (cwd : List Name) : List Name :=
  if p.isAbsolute then [] else cwd

/-- All the names from the root. -/
def namesFrom (p : Path) (cwd : List Name) : List Name := p.base cwd ++ p.names

end Path

namespace Tree

variable {t t' : Tree}

/-! ## One directory -/

/-- With an empty directory `n` in `dir`. -/
def addDir (t : Tree) (dir : Loc) (n : Name) (hdir : t.kindAt dir = some .dir)
    (hnew : t.kindAt (n :: dir) = none) (hname : n ≠ "." ∧ n ≠ "..") : Tree where
  entries := t.entries ++ [(n :: dir, .dir)]
  nodup := by
    rw [List.map_append, List.nodup_append]
    refine ⟨t.nodup, List.pairwise_singleton _ _, ?_⟩
    intro loc hloc loc' hloc' heq
    obtain ⟨⟨l, k⟩, hmem, rfl⟩ := List.mem_map.mp hloc
    obtain rfl : loc' = n :: dir := List.mem_singleton.mp hloc'
    -- an entry that is there already cannot be at the new location
    have hk := kindAt_of_mem hmem
    rw [show l = n :: dir from heq, hnew] at hk
    cases hk
  rooted := by
    intro e he
    rcases List.mem_append.mp he with hold | hadded
    · obtain ⟨m, dir', hloc, hdot, hdots, hparent⟩ := t.rooted e hold
      exact ⟨m, dir', hloc, hdot, hdots, hparent.imp id fun h => List.mem_append_left _ h⟩
    · obtain rfl : e = (n :: dir, .dir) := List.mem_singleton.mp hadded
      refine ⟨n, dir, rfl, hname.1, hname.2, ?_⟩
      cases dir with
      | nil => exact Or.inl rfl
      | cons m dir' => exact Or.inr (List.mem_append_left _ (mem_of_kindAt hdir))

section AddDir

variable {dir : Loc} {n : Name} {hdir : t.kindAt dir = some .dir}
  {hnew : t.kindAt (n :: dir) = none} {hname : n ≠ "." ∧ n ≠ ".."}

@[simp] theorem kindAt_addDir : (t.addDir dir n hdir hnew hname).kindAt (n :: dir) = some .dir := by
  apply kindAt_of_mem
  exact List.mem_append_right _ (List.mem_singleton.mpr rfl)

theorem sub_addDir : Sub t (t.addDir dir n hdir hnew hname) := by
  intro loc k hk
  cases loc with
  | nil => exact hk
  | cons m dir' => exact kindAt_of_mem (List.mem_append_left _ (mem_of_kindAt hk))

end AddDir

/-- `mkdir(path/n)`: it fails where there is an entry, be it a link to nowhere. -/
def mkdir (t : Tree) (path : List Name) (n : Name) : Option Tree :=
  match t.resolve path with
  | none => none
  | some r =>
      if h : t.kindAt r.1 = some .dir ∧ t.kindAt (n :: r.1) = none ∧ n ≠ "." ∧ n ≠ ".." then
        some (t.addDir r.1 n h.1 h.2.1 h.2.2)
      else none

/-- What `mkdir` makes is a directory at the path, and all else is as before. -/
theorem mkdir_eq_some {path : List Name} {n : Name} (h : t.mkdir path n = some t') :
    Sub t t' ∧ t'.stat (path ++ [n]) = some .dir := by
  unfold mkdir at h
  split at h
  case h_1 => cases h
  case h_2 r hr =>
    split at h
    case isFalse => cases h
    case isTrue hfree =>
      obtain rfl := Option.some.inj h
      refine ⟨sub_addDir, ?_⟩
      rw [stat_append (resolve_sub sub_addDir hr)]
      exact statFrom_of_not_link hfree.2.2.1 hfree.2.2.2 kindAt_addDir fun target => by simp

theorem stat_sub (hsub : Sub t' t) {path : List Name} {k : Kind} (h : t'.stat path = some k) :
    t.stat path = some k := by
  obtain ⟨r, hr, hk⟩ := Option.bind_eq_some_iff.mp h
  exact Option.bind_eq_some_iff.mpr ⟨r, resolve_sub hsub hr, hsub _ _ hk⟩

/-! ## All that are missing -/

/-- Make what is missing of `names` after `done`.  `refuses` says which `mkdir`
    the system refuses, and `made` whether the latest one made a directory. -/
def createDirectoriesFrom (refuses : List Name → Bool) :
    Tree → List Name → Bool → List Name → Tree × Bool
  | t, _, made, [] => (t, made)
  | t, done, made, c :: cs =>
      if c = "." ∨ c = ".." then createDirectoriesFrom refuses t (done ++ [c]) made cs
      else
        match t.stat (done ++ [c]) with
        | some .dir => createDirectoriesFrom refuses t (done ++ [c]) false cs
        -- `ENOTDIR`
        | some .file => (t, false)
        | some (.link _) => (t, false)
        | none =>
            if refuses (done ++ [c]) then (t, false)
            else
              match t.mkdir done c with
              | none => (t, false)
              | some t' => createDirectoriesFrom refuses t' (done ++ [c]) true cs

/-- `create_directories(path, err)`: the tree afterwards, and whether the path is
    a directory that was made.  What has been made is left behind on an error. -/
def createDirectories (t : Tree) (refuses : List Name → Bool) (path : Path) (cwd : List Name) :
    Tree × Bool :=
  createDirectoriesFrom refuses t (path.base cwd) false path.names

theorem sub_createDirectoriesFrom (refuses : List Name → Bool) (t : Tree) (done : List Name)
    (made : Bool) (cs : List Name) : Sub t (createDirectoriesFrom refuses t done made cs).1 := by
  induction cs generalizing t done made with
  | nil => exact Sub.refl t
  | cons c cs ih =>
      unfold createDirectoriesFrom
      split
      · exact ih t _ made
      · split
        · exact ih t _ false
        · exact Sub.refl t
        · exact Sub.refl t
        · split
          · exact Sub.refl t
          · split
            · exact Sub.refl t
            case h_2 t' ht' => exact (mkdir_eq_some ht').1.trans (ih t' _ true)

/-- Nothing that was there is gone. -/
theorem sub_createDirectories (t : Tree) (refuses : List Name → Bool) (path : Path)
    (cwd : List Name) : Sub t (t.createDirectories refuses path cwd).1 :=
  sub_createDirectoriesFrom refuses t _ false _

/-- From a directory, `.` and `..` lead to a directory. -/
theorem stat_dots {path : List Name} (h : t.stat path = some .dir) {c : Name}
    (hc : c = "." ∨ c = "..") : t.stat (path ++ [c]) = some .dir := by
  obtain ⟨⟨dir, budget⟩, hr, hk⟩ := Option.bind_eq_some_iff.mp h
  rw [stat_append hr]
  rcases hc with rfl | rfl
  · exact Option.bind_eq_some_iff.mpr ⟨(dir, budget), walk_eq_some.mpr (.dot hk .done), hk⟩
  · refine Option.bind_eq_some_iff.mpr ⟨(dir.tail, budget), walk_eq_some.mpr (.up hk .done), ?_⟩
    cases dir with
    | nil => rfl
    | cons n dir => exact kindAt_parent hk

theorem stat_of_createDirectoriesFrom {refuses : List Name → Bool} {done : List Name}
    {made : Bool} {cs : List Name} (hdone : made = true → t.stat done = some .dir)
    (h : (createDirectoriesFrom refuses t done made cs).2 = true) :
    (createDirectoriesFrom refuses t done made cs).1.stat (done ++ cs) = some .dir := by
  induction cs generalizing t done made with
  | nil =>
      rw [List.append_nil]
      exact hdone h
  | cons c cs ih =>
      rw [List.append_cons]
      unfold createDirectoriesFrom at h ⊢
      split at h
      -- `.` and `..` are passed over, and lead to directories all the same
      case isTrue hc =>
        rw [if_pos hc]
        exact ih (fun hmade => stat_dots (hdone hmade) hc) h
      case isFalse hc =>
        rw [if_neg hc]
        split at h
        case h_1 hstat => exact ih (fun _ => hstat) h
        case h_2 => cases h
        case h_3 => cases h
        case h_4 =>
          split at h
          case isTrue => cases h
          case isFalse hrefuses =>
            rw [if_neg hrefuses]
            split at h
            case h_1 => cases h
            -- what was made is there for the names that follow
            case h_2 t' ht' => exact ih (fun _ => (mkdir_eq_some ht').2) h

/-- When it reports that it made the path, the path is a directory. -/
theorem stat_createDirectories {refuses : List Name → Bool} {path : Path} {cwd : List Name}
    (h : (t.createDirectories refuses path cwd).2 = true) :
    (t.createDirectories refuses path cwd).1.stat (path.namesFrom cwd) = some .dir :=
  stat_of_createDirectoriesFrom (fun hmade => by cases hmade) h

/-- `.` and `..` lead on from directories only. -/
theorem stat_of_dots {path : List Name} {c : Name} (hc : c = "." ∨ c = "..") {k : Kind}
    (h : t.stat (path ++ [c]) = some k) : t.stat path = some .dir := by
  obtain ⟨⟨loc, left⟩, hr, -⟩ := Option.bind_eq_some_iff.mp h
  rw [resolve_append] at hr
  obtain ⟨⟨mid, budget⟩, hmid, hwalk⟩ := Option.bind_eq_some_iff.mp hr
  have hdir : t.kindAt mid = some .dir := by
    cases walk_eq_some.mp hwalk with
    | dot hdir _ => exact hdir
    | up hdir _ => exact hdir
    | step _ hdot hdots => exact absurd hc (not_or.mpr ⟨hdot, hdots⟩)
    | link _ hdot hdots => exact absurd hc (not_or.mpr ⟨hdot, hdots⟩)
  exact Option.bind_eq_some_iff.mpr ⟨(mid, budget), hmid, hdir⟩

theorem not_stat_of_createDirectoriesFrom {refuses : List Name → Bool} {done : List Name}
    {made : Bool} {cs : List Name} (hsub : Sub t' t)
    (hdone : made = true → t'.stat done ≠ some .dir)
    (h : (createDirectoriesFrom refuses t done made cs).2 = true) :
    t'.stat (done ++ cs) ≠ some .dir := by
  induction cs generalizing t done made with
  | nil =>
      rw [List.append_nil]
      exact hdone h
  | cons c cs ih =>
      rw [List.append_cons]
      unfold createDirectoriesFrom at h
      split at h
      case isTrue hc => exact ih hsub (fun hmade hdir => hdone hmade (stat_of_dots hc hdir)) h
      case isFalse hc =>
        split at h
        -- of a directory that is there, nothing is made
        case h_1 => exact ih hsub (fun hmade => by cases hmade) h
        case h_2 => cases h
        case h_3 => cases h
        case h_4 hnone =>
          split at h
          case isTrue => cases h
          case isFalse =>
            split at h
            case h_1 => cases h
            case h_2 u hu =>
              refine ih (hsub.trans (mkdir_eq_some hu).1) (fun _ hdir => ?_) h
              have hthere := stat_sub hsub hdir
              rw [hnone] at hthere
              cases hthere

/-- When it reports that it made the path, the path was no directory before. -/
theorem not_stat_of_createDirectories {refuses : List Name → Bool} {path : Path}
    {cwd : List Name} (h : (t.createDirectories refuses path cwd).2 = true) :
    t.stat (path.namesFrom cwd) ≠ some .dir :=
  not_stat_of_createDirectoriesFrom (Sub.refl t) (fun hmade => by cases hmade) h

end Tree

end FileSystem

/-
  Scord.Ctl.Command

  The commands of `scord-ctl` (`command.cpp`): a template with keywords, the
  command that it is evaluated to, and what `exec` makes of the child process
  that runs it.
-/
import Scord.Lib.MakeDirectory

namespace ScordCtl

open FileSystem

/-! ## The environment -/

/-- `environment`: every variable has one value. -/
structure Environment where
  vars : List (String × String)
  nodup : (vars.map Prod.fst).Nodup

namespace Environment

/-- `environment{}` -/
def empty : Environment := ⟨[], List.nodup_nil⟩

/-- `get(key)`: a variable that is not there has the empty text. -/
def get (env : Environment) (key : String) : String := (env.vars.lookup key).getD ""

/-- The variables with a new value for `key`. -/
def setVars (key value : String) : List (String × String) → List (String × String)
  | [] => [(key, value)]
  | v :: vars => if v.1 = key then (key, value) :: vars else v :: setVars key value vars

theorem mem_keys_setVars {key value k : String} {vars : List (String × String)} :
    k ∈ (setVars key value vars).map Prod.fst ↔ k = key ∨ k ∈ vars.map Prod.fst := by
  induction vars with
  | nil => simp [setVars]
  | cons v vars ih =>
      unfold setVars
      split
      · next hv => simp [hv]
      · next hv =>
          rw [List.map_cons, List.mem_cons, ih, List.map_cons, List.mem_cons]
          exact or_left_comm

theorem nodup_setVars {key value : String} {vars : List (String × String)}
    (h : (vars.map Prod.fst).Nodup) : ((setVars key value vars).map Prod.fst).Nodup := by
  induction vars with
  | nil => simp [setVars]
  | cons v vars ih =>
      obtain ⟨hnew, hvars⟩ := List.nodup_cons.mp h
      unfold setVars
      split
      · next hv => exact List.nodup_cons.mpr ⟨hv ▸ hnew, hvars⟩
      · next hv =>
          refine List.nodup_cons.mpr ⟨fun hmem => ?_, ih hvars⟩
          rcases mem_keys_setVars.mp hmem with hkey | hold
          · exact hv hkey
          · exact hnew hold

theorem lookup_setVars (key value k : String) (vars : List (String × String)) :
    (setVars key value vars).lookup k = if k = key then some value else vars.lookup k := by
  induction vars with
  | nil =>
      by_cases hk : k = key
      · simp [setVars, hk]
      · simp [setVars, List.lookup_cons, hk, beq_eq_false_iff_ne.mpr hk]
  | cons v vars ih =>
      obtain ⟨k', w⟩ := v
      by_cases hk' : k' = key
      · by_cases hk : k = key
        · simp [setVars, hk', hk]
        · simp [setVars, hk', hk, List.lookup_cons, beq_eq_false_iff_ne.mpr hk]
      · simp only [setVars, hk', if_false, List.lookup_cons, ih]
        by_cases hk : k = k'
        · subst hk
          simp [hk']
        · simp [beq_eq_false_iff_ne.mpr hk]

/-- `set(key, value)` -/
def set (env : Environment) (key value : String) : Environment :=
  ⟨setVars key value env.vars, nodup_setVars env.nodup⟩

/-- A variable that was set has its value, and the others are as before. -/
theorem get_set (env : Environment) (key value k : String) :
    (env.set key value).get k = if k = key then value else env.get k := by
  unfold get set
  rw [lookup_setVars]
  split <;> rfl

/-- Each variable as `key=value`. -/
def asVector (env : Environment) : List String :=
  env.vars.map fun v => v.1 ++ "=" ++ v.2

end Environment

/-! ## Templates -/

structure Command where
  cmdline : String
  env : Option Environment

/-- What becomes of the child process, with the `strerror(errno)` of a system
    call that fails.  A command that `execvpe` cannot run exits with status 1. -/
inductive ChildOutcome
  | forkFails (strerror : String)
  | waitFails (strerror : String)
  | notExited
  | exited (status : UInt8)
deriving DecidableEq, Repr

namespace Command

def keywordId : String := "\x7bADHOC_ID\x7d"
def keywordDirectory : String := "\x7bADHOC_DIRECTORY\x7d"
def keywordNodes : String := "\x7bADHOC_NODES\x7d"

/-- The keyword that `cs` begins with: what it is replaced by, and its length. -/
def keywordAt (replacements : List (String × String)) (cs : List Char) : Option (String × Nat) :=
  replacements.findSome? fun r =>
    if r.1.toList.isPrefixOf cs then some (r.2, r.1.length) else none

/-- The matches of the keywords from left to right, each replaced; `skip`
    characters of the latest match are still to be passed over. -/
def replaceKeywords (replacements : List (String × String)) : Nat → List Char → List Char
  | _, [] => []
  | skip + 1, _ :: cs => replaceKeywords replacements skip cs
  | 0, c :: cs =>
      match keywordAt replacements (c :: cs) with
      | some (value, length) => value.toList ++ replaceKeywords replacements (length - 1) cs
      | none => c :: replaceKeywords replacements 0 cs

/-- The hostnames as a keyword is replaced by them. -/
def nodesText (adhocNodes : List String) : String :=
  "\"" ++ ",".intercalate adhocNodes ++ "\""

/-- `eval(adhoc_id, adhoc_directory, adhoc_nodes)`, for startup and shutdown. -/
def eval (c : Command) (adhocId : String) (adhocDirectory : Path) (adhocNodes : List String) :
    Command :=
  { c with cmdline := String.ofList (replaceKeywords
      [(keywordDirectory, adhocDirectory.text), (keywordId, adhocId),
        (keywordNodes, nodesText adhocNodes)] 0 c.cmdline.toList) }

/-- `eval(adhoc_id, adhoc_nodes)`, for expand and shrink: `keywords_malleability`
    has no directory. -/
def evalMalleability (c : Command) (adhocId : String) (adhocNodes : List String) : Command :=
  { c with cmdline := String.ofList (replaceKeywords
      [(keywordId, adhocId), (keywordNodes, nodesText adhocNodes)] 0 c.cmdline.toList) }

/-- The tokens between single spaces; the split of an empty range is empty. -/
def asVector (c : Command) : List String :=
  if c.cmdline = "" then [] else (c.cmdline.toList.splitOn ' ').map String.ofList

/-- `exec()`, where `child` says what becomes of a process with these arguments
    and these additional variables. -/
def exec (c : Command) (child : List String → List String → ChildOutcome) :
    Except String Unit :=
  match child c.asVector (c.env.getD .empty).asVector with
  | .forkFails strerror => .error ("Failed to create subprocess: " ++ strerror)
  | .waitFails strerror => .error ("Failed to wait for subprocess: " ++ strerror)
  | .notExited => .error "Subprocess did not exit normally"
  | .exited status =>
      if status ≠ 0 then .error ("Subprocess exited with status " ++ toString status)
      else .ok ()

/-- `exec` returns exactly when the child exits with status 0. -/
theorem exec_eq_ok_iff {c : Command} {child : List String → List String → ChildOutcome} :
    c.exec child = .ok () ↔ child c.asVector (c.env.getD .empty).asVector = .exited 0 := by
  unfold exec
  cases child c.asVector (c.env.getD .empty).asVector with
  | forkFails strerror => simp
  | waitFails strerror => simp
  | notExited => simp
  | exited status => by_cases hstatus : status = 0 <;> simp [hstatus]

/-- The text of one keyword in a template is replaced by the id. -/
example : (eval ⟨"stop \x7bADHOC_ID\x7d", none⟩ "u" ⟨"/d"⟩ []).cmdline = "stop u" := by decide

end Command

end ScordCtl

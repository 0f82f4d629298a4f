/-
  Scord.Lib.EnvStrings

  Environments of processes as the kernel passes them on: strings `NAME=VALUE` in
  an array, in which a name may occur more than once.

  What an environment says about a name is the list of all values that it binds
  to it.  Which one of several a program gets is its own affair.
-/
import Scord.Lib.Tokens

namespace EnvStrings

/-- The name and the value of a string, around its first `=`. -/
def binding (entry : String) : Option (String × String) :=
  match entry.toList.dropWhile (· ≠ '=') with
  | [] => none
  | _ :: value => some (String.ofList (entry.toList.takeWhile (· ≠ '=')), String.ofList value)

/-- The values that an environment binds to a name. -/
def bindings (env : List String) (name : String) : List String :=
  env.filterMap fun entry => (binding entry).bind fun b => if b.1 = name then some b.2 else none

@[simp] theorem bindings_append (env env' : List String) (name : String) :
    bindings (env ++ env') name = bindings env name ++ bindings env' name :=
  List.filterMap_append

theorem mem_bindings {env : List String} {name value : String} :
    value ∈ bindings env name ↔ ∃ entry ∈ env, binding entry = some (name, value) := by
  unfold bindings
  rw [List.mem_filterMap]
  refine exists_congr fun entry => and_congr_right fun _ => ?_
  cases binding entry with
  | none => simp
  | some b =>
      obtain ⟨n, w⟩ := b
      by_cases hn : n = name <;> simp [hn]

/-- A string that binds a name is the name, `=` and the value, and the name has no
    `=` in it. -/
theorem binding_eq_some {entry name value : String} :
    binding entry = some (name, value) ↔
      '=' ∉ name.toList ∧ entry.toList = name.toList ++ '=' :: value.toList := by
  unfold binding
  refine ⟨fun h => ?_, ?_⟩
  · split at h
    · cases h
    · next c cs hrest =>
        obtain ⟨rfl, rfl⟩ := Prod.mk.inj (Option.some.inj h)
        rw [Tokens.eq_of_dropWhile_ne hrest] at hrest
        rw [String.toList_ofList, String.toList_ofList, ← hrest, List.takeWhile_append_dropWhile]
        exact ⟨Tokens.not_mem_takeWhile_ne '=' entry.toList, rfl⟩
  · rintro ⟨hname, heq⟩
    rw [heq, Tokens.takeWhile_ne_append hname, Tokens.dropWhile_ne_append hname]
    simp

/-- The string that sets a variable binds it, if there is no `=` in its name. -/
theorem binding_of_assignment {name value : String} (h : '=' ∉ name.toList) :
    binding (name ++ "=" ++ value) = some (name, value) := by
  refine binding_eq_some.mpr ⟨h, ?_⟩
  rw [String.toList_append, String.toList_append, List.append_assoc]
  rfl

/-- Where one string sets each variable, each has its one value. -/
theorem bindings_assignments {vars : List (String × String)}
    (hnames : ∀ v ∈ vars, '=' ∉ v.1.toList) (name : String) :
    bindings (vars.map fun v => v.1 ++ "=" ++ v.2) name
      = vars.filterMap fun v => if v.1 = name then some v.2 else none := by
  induction vars with
  | nil => rfl
  | cons v vars ih =>
      obtain ⟨hv, hvars⟩ := List.forall_mem_cons.mp hnames
      have hrest := ih hvars
      unfold bindings at hrest ⊢
      rw [List.map_cons, List.filterMap_cons, List.filterMap_cons, hrest,
        binding_of_assignment hv]
      rfl

theorem filterMap_of_not_mem {vars : List (String × String)} {name : String}
    (h : name ∉ vars.map Prod.fst) :
    (vars.filterMap fun v => if v.1 = name then some v.2 else none) = [] := by
  rw [List.filterMap_eq_nil_iff]
  intro v hv
  refine if_neg ?_
  rintro rfl
  exact h (List.mem_map_of_mem hv)

theorem filterMap_of_mem {vars : List (String × String)} (hnodup : (vars.map Prod.fst).Nodup)
    {name value : String} (h : (name, value) ∈ vars) :
    (vars.filterMap fun v => if v.1 = name then some v.2 else none) = [value] := by
  induction vars with
  | nil => exact absurd h List.not_mem_nil
  | cons v vars ih =>
      obtain ⟨hnew, hnodup⟩ := List.nodup_cons.mp hnodup
      rcases List.mem_cons.mp h with rfl | h
      · rw [List.filterMap_cons, if_pos rfl]
        exact congrArg (value :: ·) (filterMap_of_not_mem hnew)
      · have hne : v.1 ≠ name := by
          rintro rfl
          exact hnew (List.mem_map.mpr ⟨_, h, rfl⟩)
        rw [List.filterMap_cons, if_neg hne]
        exact ih hnodup h

end EnvStrings

/-
  Scord.Ctl.ExecEnvironment

  The environment that a command of `scord-ctl` runs in (`joinEnvironments` and
  `command::exec` in `command.cpp`): the strings of the process, and behind them
  those of the configuration.
-/
import Scord.CApi.AdhocView
import Scord.Ctl.Command
import Scord.Lib.EnvStrings

namespace ScordCtl

open EnvStrings
open Scord (cStr NoNul)

/-- `environ`: C strings, which have no NUL inside. -/
structure Environ where
  entries : List String
  noNul : ∀ e ∈ entries, NoNul e

/-- `joinEnvironments`: the strings are copied one behind the other. -/
def joinEnvironments (env1 env2 : List String) : List String := env1 ++ env2

namespace Command

/-- The environment that `exec` hands to `execvpe`. -/
def envp (c : Command) (environ : Environ) : List String :=
  joinEnvironments environ.entries ((c.env.getD .empty).asVector.map cStr)

/-- `exec()` in a process with this environment, where `execvpe` says what becomes
    of a child with these arguments and this environment. -/
def execIn (c : Command) (environ : Environ)
    (execvpe : List String → List String → ChildOutcome) : Except String Unit :=
  c.exec fun argv envs => execvpe argv (joinEnvironments environ.entries (envs.map cStr))

theorem execIn_eq_ok_iff {c : Command} {environ : Environ}
    {execvpe : List String → List String → ChildOutcome} :
    c.execIn environ execvpe = .ok () ↔ execvpe c.asVector (c.envp environ) = .exited 0 :=
  exec_eq_ok_iff

end Command

/-! ## What the environment says -/

/-- Each configured variable has its value and no other one, and the others are as
    in the parent. -/
structure TakesEffect (env : Environment) (parent envp : List String) : Prop where
  configured : ∀ v ∈ env.vars, bindings envp v.1 = [v.2]
  inherited : ∀ name, name ∉ env.vars.map Prod.fst → bindings envp name = bindings parent name

/-- The variables can be written as strings of an environment, and the parent has
    none of them. -/
structure Fits (env : Environment) (parent : List String) : Prop where
  name : ∀ v ∈ env.vars, '=' ∉ v.1.toList ∧ NoNul v.1
  value : ∀ v ∈ env.vars, NoNul v.2
  absent : ∀ v ∈ env.vars, bindings parent v.1 = []

section Bindings

variable {env : Environment} {environ : Environ}

/-- What C reads of a string has no NUL. -/
theorem noNul_cStr (s : String) : NoNul (cStr s) := by
  unfold NoNul cStr
  rw [String.toList_ofList]
  exact Tokens.not_mem_takeWhile_ne _ _

/-- Nor does what a string without a NUL binds. -/
theorem noNul_of_binding {entry name value : String} (h : NoNul entry)
    (hbinding : binding entry = some (name, value)) : NoNul name ∧ NoNul value := by
  unfold NoNul at h ⊢
  rw [(binding_eq_some.mp hbinding).2] at h
  refine ⟨fun hmem => h (List.mem_append_left _ hmem), fun hmem => h ?_⟩
  exact List.mem_append_right _ (List.mem_cons_of_mem _ hmem)

/-- A name that is bound has no `=`, and no NUL is in it or in its value. -/
theorem writable_of_mem_bindings (environ : Environ) {name value : String} {envs : List String}
    (h : value ∈ bindings (joinEnvironments environ.entries (envs.map cStr)) name) :
    '=' ∉ name.toList ∧ NoNul name ∧ NoNul value := by
  obtain ⟨entry, hentry, hbinding⟩ := mem_bindings.mp h
  have hnul : NoNul entry := by
    rcases List.mem_append.mp hentry with hentry | hentry
    · exact environ.noNul entry hentry
    · obtain ⟨s, -, rfl⟩ := List.mem_map.mp hentry
      exact noNul_cStr s
  exact ⟨(binding_eq_some.mp hbinding).1, noNul_of_binding hnul hbinding⟩

/-- Variables without a NUL are handed over as they are. -/
theorem asVector_map_cStr (h : ∀ v ∈ env.vars, NoNul v.1 ∧ NoNul v.2) :
    env.asVector.map cStr = env.vars.map fun v => v.1 ++ "=" ++ v.2 := by
  unfold Environment.asVector
  rw [List.map_map]
  refine List.map_congr_left fun v hv => ?_
  have hnul : NoNul (v.1 ++ "=" ++ v.2) := by
    obtain ⟨hname, hvalue⟩ := h v hv
    unfold NoNul at hname hvalue ⊢
    simp [hname, hvalue]
  exact hnul.cStr_eq

/-- **What the joined environment says**: first what the parent says, and then the
    configured value. -/
theorem bindings_join (environ : Environ) (hnames : ∀ v ∈ env.vars, '=' ∉ v.1.toList)
    (hnul : ∀ v ∈ env.vars, NoNul v.1 ∧ NoNul v.2) (name : String) :
    bindings (joinEnvironments environ.entries (env.asVector.map cStr)) name
      = bindings environ.entries name
        ++ env.vars.filterMap fun v => if v.1 = name then some v.2 else none := by
  unfold joinEnvironments
  rw [bindings_append, asVector_map_cStr hnul, bindings_assignments hnames]

end Bindings

/-- **The configuration takes effect exactly when** its variables fit. -/
theorem takesEffect_iff (c : Command) (environ : Environ) :
    TakesEffect (c.env.getD .empty) environ.entries (c.envp environ) ↔
      Fits (c.env.getD .empty) environ.entries := by
  generalize henv : c.env.getD .empty = env
  unfold Command.envp
  rw [henv]
  refine ⟨fun h => ?_, fun h => ?_⟩
  · have hwritable : ∀ v ∈ env.vars, '=' ∉ v.1.toList ∧ NoNul v.1 ∧ NoNul v.2 := by
      intro v hv
      have hmem : v.2 ∈
          bindings (joinEnvironments environ.entries (env.asVector.map cStr)) v.1 := by
        rw [h.configured v hv]
        exact List.mem_singleton_self _
      exact writable_of_mem_bindings environ hmem
    refine ⟨fun v hv => ⟨(hwritable v hv).1, (hwritable v hv).2.1⟩,
      fun v hv => (hwritable v hv).2.2, fun v hv => ?_⟩
    -- one value is bound, and the configuration binds it: nothing is left for the parent
    have hall := h.configured v hv
    rw [bindings_join environ (fun v hv => (hwritable v hv).1) (fun v hv => (hwritable v hv).2),
      filterMap_of_mem env.nodup hv] at hall
    have hlength := congrArg List.length hall
    rw [List.length_append] at hlength
    exact List.eq_nil_of_length_eq_zero (by simpa using hlength)
  · have hjoin := bindings_join environ (fun v hv => (h.name v hv).1)
      fun v hv => ⟨(h.name v hv).2, h.value v hv⟩
    refine ⟨fun v hv => ?_, fun name hname => ?_⟩
    · rw [hjoin, h.absent v hv, filterMap_of_mem env.nodup hv]
      rfl
    · rw [hjoin, filterMap_of_not_mem hname, List.append_nil]

/-- The library path is set in the parent already. -/
theorem not_takesEffect_bound :
    ¬ TakesEffect ⟨[("LD_LIBRARY_PATH", "/opt/lib")], by decide⟩ ["LD_LIBRARY_PATH=/usr/lib"]
      (Command.envp ⟨"/bin/gkfs start", some ⟨[("LD_LIBRARY_PATH", "/opt/lib")], by decide⟩⟩
        ⟨["LD_LIBRARY_PATH=/usr/lib"], by decide⟩) := by
  intro h
  have hvalues := h.configured _ List.mem_cons_self
  exact absurd hvalues (by decide)

end ScordCtl

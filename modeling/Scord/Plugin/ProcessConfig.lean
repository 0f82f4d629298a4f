/-
  Scord.Plugin.ProcessConfig

  The arguments of the Slurm plugin in `plugstack.conf`, and `process_config`,
  which writes them into the configuration (`slurmadmcli.c`).

  A key is recognized by the beginning of an argument, and its value is what
  stands one character after it, whatever that character is and whether or not
  it is still in the argument.
-/
import Scord.Plugin.ProcessOpts

namespace Scord.Plugin

/-! ## The configuration -/

/-- A `const char*`: null, at the beginning of a text, or behind the terminator of
    one. -/
inductive CharPtr
  | null
  | text (s : String)
  | past
deriving DecidableEq, Repr

/-- `scord_server_info_t` -/
structure ScordServerInfo where
  addr : CharPtr
  proto : CharPtr
  port : Int
  prog : CharPtr
  tmpdir : CharPtr
deriving DecidableEq, Repr

/-- `scord_plugin_config_t` -/
structure ScordPluginConfig where
  scordInfo : ScordServerInfo
  scordctlInfo : ScordServerInfo
  cargoInfo : ScordServerInfo
deriving DecidableEq, Repr

inductive Service
  | scord
  | scordctl
  | cargo
deriving DecidableEq, Repr

inductive TextItem
  | addr
  | proto
  | prog
  | tmpdir
deriving DecidableEq, Repr

/-- The address of an `int` or of a `const char*` in the configuration. -/
inductive Slot
  | port (service : Service)
  | text (service : Service) (item : TextItem)
deriving DecidableEq, Repr

/-- What is in a slot. -/
inductive SlotValue
  | int (v : Int)
  | ptr (p : CharPtr)
deriving DecidableEq, Repr

namespace ScordServerInfo

def getText (info : ScordServerInfo) : TextItem → CharPtr
  | .addr => info.addr
  | .proto => info.proto
  | .prog => info.prog
  | .tmpdir => info.tmpdir

def setText (info : ScordServerInfo) (item : TextItem) (p : CharPtr) : ScordServerInfo :=
  match item with
  | .addr => { info with addr := p }
  | .proto => { info with proto := p }
  | .prog => { info with prog := p }
  | .tmpdir => { info with tmpdir := p }

@[simp] theorem port_setText (info : ScordServerInfo) (item : TextItem) (p : CharPtr) :
    (info.setText item p).port = info.port := by
  cases item <;> rfl

@[simp] theorem getText_setText (info : ScordServerInfo) (item i : TextItem) (p : CharPtr) :
    (info.setText item p).getText i = if i = item then p else info.getText i := by
  cases item <;> cases i <;> rfl

end ScordServerInfo

namespace ScordPluginConfig

def info (cfg : ScordPluginConfig) : Service → ScordServerInfo
  | .scord => cfg.scordInfo
  | .scordctl => cfg.scordctlInfo
  | .cargo => cfg.cargoInfo

def setInfo (cfg : ScordPluginConfig) (service : Service) (info : ScordServerInfo) :
    ScordPluginConfig :=
  match service with
  | .scord => { cfg with scordInfo := info }
  | .scordctl => { cfg with scordctlInfo := info }
  | .cargo => { cfg with cargoInfo := info }

@[simp] theorem info_setInfo (cfg : ScordPluginConfig) (service s : Service)
    (info : ScordServerInfo) :
    (cfg.setInfo service info).info s = if s = service then info else cfg.info s := by
  cases service <;> cases s <;> rfl

def get (cfg : ScordPluginConfig) : Slot → SlotValue
  | .port service => .int (cfg.info service).port
  | .text service item => .ptr ((cfg.info service).getText item)

/-- `*(int*) opt_desc.value = v` -/
def setInt (cfg : ScordPluginConfig) (service : Service) (v : Int) : ScordPluginConfig :=
  cfg.setInfo service { cfg.info service with port := v }

/-- `*(char**) opt_desc.value = p` -/
def setPtr (cfg : ScordPluginConfig) (service : Service) (item : TextItem) (p : CharPtr) :
    ScordPluginConfig :=
  cfg.setInfo service ((cfg.info service).setText item p)

/-- A write changes its own slot alone. -/
theorem get_setInt (cfg : ScordPluginConfig) (service : Service) (v : Int) (slot : Slot) :
    (cfg.setInt service v).get slot = if slot = .port service then .int v else cfg.get slot := by
  cases slot with
  | port s =>
      by_cases hs : s = service
      · subst hs
        simp [get, setInt]
      · simp [get, setInt, hs]
  | text s i =>
      by_cases hs : s = service
      · subst hs
        simp [get, setInt, ScordServerInfo.getText]
      · simp [get, setInt, hs]

theorem get_setPtr (cfg : ScordPluginConfig) (service : Service) (item : TextItem) (p : CharPtr)
    (slot : Slot) :
    (cfg.setPtr service item p).get slot
      = if slot = .text service item then .ptr p else cfg.get slot := by
  cases slot with
  | port s =>
      by_cases hs : s = service
      · subst hs
        simp [get, setPtr]
      · simp [get, setPtr, hs]
  | text s i =>
      by_cases hs : s = service
      · subst hs
        by_cases hi : i = item <;> simp [get, setPtr, hi]
      · simp [get, setPtr, hs]

end ScordPluginConfig

/-- The values that the build writes into `defaults.h`. -/
structure BuildDefaults where
  transportProtocol : String
  bindAddress : String
  bindPort : Nat
  ctlBin : String
  ctlBindPort : Nat
  cargoProgram : String
  cargoBindPort : Nat

/-- `default_cfg`, which the plugin starts from. -/
def defaultCfg (d : BuildDefaults) : ScordPluginConfig where
  scordInfo :=
    { addr := .text (d.transportProtocol ++ "://" ++ d.bindAddress ++ ":" ++ toString d.bindPort)
      proto := .text d.transportProtocol
      port := d.bindPort
      prog := .null
      tmpdir := .null }
  scordctlInfo :=
    { addr := .null
      proto := .text d.transportProtocol
      port := d.ctlBindPort
      prog := .text d.ctlBin
      tmpdir := .text "/tmp" }
  cargoInfo :=
    { addr := .null
      proto := .text d.transportProtocol
      port := d.cargoBindPort
      prog := .text d.cargoProgram
      tmpdir := .null }

/-! ## The arguments -/

/-- `scord_option_t`: the slot says the type. -/
structure ScordOption where
  name : String
  value : Slot
deriving DecidableEq, Repr

def scordOptions : List ScordOption :=
  [⟨"scord_addr", .text .scord .addr⟩,
    ⟨"scord_proto", .text .scord .proto⟩,
    ⟨"scordctl_prog", .text .scordctl .prog⟩,
    ⟨"scordctl_port", .port .scordctl⟩,
    ⟨"scordctl_tmpdir", .text .scordctl .tmpdir⟩,
    ⟨"cargo_prog", .text .cargo .prog⟩,
    ⟨"cargo_port", .port .cargo⟩]

/-- The text at `av[i] + opt_desc.len + 1`: there is none behind the terminator. -/
def valueAt (arg : String) (opt : ScordOption) : Option (List Char) :=
  if arg.toList.length ≤ opt.name.toList.length then none
  else some (arg.toList.drop (opt.name.toList.length + 1))

/-- A `long` as an `int`. -/
def toInt (v : Int) : Int := v.bmod 4294967296

/-- One argument with its option: the configuration, and whether the loop goes on.
    There is none if `strtol` reads behind the terminator. -/
def takeOption (cfg : ScordPluginConfig) (arg : String) (opt : ScordOption) :
    Option (ScordPluginConfig × Bool) :=
  match opt.value with
  | .port service =>
      (valueAt arg opt).map fun text =>
        let r := Strtol.strtol 10 text
        -- neither `errno` nor the emptiness of the text is looked at
        if r.rest ≠ [] then (cfg, false) else (cfg.setInt service (toInt r.value), true)
  | .text service item =>
      -- the pointer is stored, and not read
      let p := (valueAt arg opt).elim CharPtr.past fun text => .text (String.ofList text)
      some (cfg.setPtr service item p, true)

/-- `process_config`: the configuration and the return code. -/
def processConfig : List String → ScordPluginConfig → Option (ScordPluginConfig × Int)
  | [], cfg => some (cfg, 0)
  | arg :: av, cfg =>
      match scordOptions.find? fun opt => beginsWith arg opt.name with
      | none => some (cfg, -1)
      | some opt =>
          match takeOption cfg arg opt with
          | none => none
          | some (cfg, false) => some (cfg, -1)
          | some (cfg, true) => processConfig av cfg

/-! ## Lists of assignments -/

/-- An `int` can hold it. -/
def FitsInt (v : Int) : Prop := -2147483648 ≤ v ∧ v ≤ 2147483647

/-- The value that a text stands for in a slot. -/
def Slot.Denotes : Slot → List Char → SlotValue → Prop
  | .port _, cs, w => ∃ v, Strtol.Signed 10 cs v ∧ FitsInt v ∧ w = .int v
  | .text _ _, cs, w => w = .ptr (.text (String.ofList cs))

/-- `name=value` -/
def Assigns (arg : String) (slot : Slot) (w : SlotValue) : Prop :=
  ∃ opt ∈ scordOptions, ∃ text, arg.toList = opt.name.toList ++ '=' :: text ∧
    opt.value = slot ∧ slot.Denotes text w

def WellFormed (arg : String) : Prop := ∃ slot w, Assigns arg slot w

/-- The last of the arguments for the slot assigns `w`. -/
def LastAssigns (av : List String) (slot : Slot) (w : SlotValue) : Prop :=
  ∃ before arg after, av = before ++ arg :: after ∧ Assigns arg slot w ∧
    ∀ a ∈ after, ∀ w', ¬ Assigns a slot w'

/-- Every slot has its last value, and the others are as before. -/
structure Configured (cfg : ScordPluginConfig) (av : List String) (cfg' : ScordPluginConfig) :
    Prop where
  assigned : ∀ slot w, LastAssigns av slot w → cfg'.get slot = w
  kept : ∀ slot, (∀ arg ∈ av, ∀ w, ¬ Assigns arg slot w) → cfg'.get slot = cfg.get slot

/-- Nothing is read behind a terminator, the code says whether all arguments are
    assignments, and on success the configuration has their values. -/
def AcceptsAssignments (cfg : ScordPluginConfig) (av : List String) : Prop :=
  ∃ cfg' rc, processConfig av cfg = some (cfg', rc) ∧
    (rc = 0 ↔ ∀ arg ∈ av, WellFormed arg) ∧ (rc = 0 → Configured cfg av cfg')

/-! ## What the loop does with an argument -/

/-- The name of an integer option, and nothing else. -/
def Overruns (arg : String) : Prop :=
  ∃ opt ∈ scordOptions, ∃ service, opt.value = .port service ∧ arg = opt.name

/-- No option begins it, or an integer option does, and what stands one character
    after it is not read to its end. -/
def Refused (arg : String) : Prop :=
  (∀ opt ∈ scordOptions, beginsWith arg opt.name = false) ∨
    ∃ opt ∈ scordOptions, ∃ service, opt.value = .port service ∧
      ∃ c text, arg.toList = opt.name.toList ++ c :: text ∧ (Strtol.strtol 10 text).rest ≠ []

/-- The loop comes to an argument that it refuses. -/
def Stops (av : List String) : Prop :=
  ∃ before arg after, av = before ++ arg :: after ∧ Refused arg ∧ ∀ a ∈ before, ¬ Overruns a

section OneArgument

variable {arg : String} {opt opt' : ScordOption} {text tail tail' : List Char}

/-- No name of an option is the beginning of another one. -/
theorem scordOptions_prefix_free : ∀ opt ∈ scordOptions, ∀ opt' ∈ scordOptions,
    opt.name.toList.isPrefixOf opt'.name.toList = true → opt = opt' := by decide

/-- So an argument has one option at most. -/
theorem option_unique (hopt : opt ∈ scordOptions) (hopt' : opt' ∈ scordOptions)
    (h : opt.name.toList ++ tail = opt'.name.toList ++ tail') : opt = opt' ∧ tail = tail' := by
  -- both names are beginnings of the argument, so one is the beginning of the other
  have heq : opt = opt' := by
    have hleft : opt.name.toList <+: opt.name.toList ++ tail := List.prefix_append ..
    have hright : opt'.name.toList <+: opt.name.toList ++ tail := h ▸ List.prefix_append ..
    rcases List.prefix_or_prefix_of_prefix hleft hright with hle | hle
    · exact scordOptions_prefix_free opt hopt opt' hopt' (List.isPrefixOf_iff_prefix.mpr hle)
    · exact (scordOptions_prefix_free opt' hopt' opt hopt
        (List.isPrefixOf_iff_prefix.mpr hle)).symm
  subst heq
  exact ⟨rfl, List.append_cancel_left h⟩

theorem beginsWith_iff {name : String} :
    beginsWith arg name = true ↔ ∃ tail, arg.toList = name.toList ++ tail := by
  unfold beginsWith
  rw [List.isPrefixOf_iff_prefix]
  exact exists_congr fun tail => eq_comm

theorem find_option (hopt : opt ∈ scordOptions) (harg : arg.toList = opt.name.toList ++ tail) :
    scordOptions.find? (fun opt => beginsWith arg opt.name) = some opt := by
  cases hfind : scordOptions.find? fun opt => beginsWith arg opt.name with
  | none =>
      have hnone := List.find?_eq_none.mp hfind opt hopt
      exact absurd (beginsWith_iff.mpr ⟨tail, harg⟩) hnone
  | some opt' =>
      have hbegins : beginsWith arg opt'.name = true := by simpa using List.find?_some hfind
      obtain ⟨tail', harg'⟩ := beginsWith_iff.mp hbegins
      have hopt' := List.mem_of_find?_eq_some hfind
      rw [(option_unique hopt' hopt (harg'.symm.trans harg)).1]

theorem valueAt_of_bare (harg : arg.toList = opt.name.toList) : valueAt arg opt = none := by
  unfold valueAt
  rw [if_pos (by rw [harg])]

theorem valueAt_of_cons {c : Char} (harg : arg.toList = opt.name.toList ++ c :: text) :
    valueAt arg opt = some text := by
  unfold valueAt
  rw [if_neg (by simp [harg]), harg, ← List.drop_drop, List.drop_left]
  rfl

theorem assigns_iff (hopt : opt ∈ scordOptions) (harg : arg.toList = opt.name.toList ++ tail)
    {slot : Slot} {w : SlotValue} :
    Assigns arg slot w ↔ ∃ text, tail = '=' :: text ∧ opt.value = slot ∧ slot.Denotes text w := by
  refine ⟨?_, fun ⟨text, htail, hvalue, hw⟩ => ⟨opt, hopt, text, htail ▸ harg, hvalue, hw⟩⟩
  rintro ⟨opt', hopt', text, harg', hvalue, hw⟩
  obtain ⟨rfl, rfl⟩ := option_unique hopt hopt' (harg.symm.trans harg')
  exact ⟨text, rfl, hvalue, hw⟩

theorem overruns_iff (hopt : opt ∈ scordOptions) (harg : arg.toList = opt.name.toList ++ tail) :
    Overruns arg ↔ tail = [] ∧ ∃ service, opt.value = .port service := by
  refine ⟨?_, fun ⟨htail, service, hvalue⟩ => ⟨opt, hopt, service, hvalue, ?_⟩⟩
  · rintro ⟨opt', hopt', service, hvalue, rfl⟩
    obtain ⟨rfl, rfl⟩ := option_unique hopt hopt' (harg.symm.trans (List.append_nil _).symm)
    exact ⟨rfl, service, hvalue⟩
  · rw [htail, List.append_nil] at harg
    exact String.toList_injective harg

theorem refused_iff (hopt : opt ∈ scordOptions) (harg : arg.toList = opt.name.toList ++ tail) :
    Refused arg ↔ (∃ service, opt.value = .port service) ∧
      ∃ c text, tail = c :: text ∧ (Strtol.strtol 10 text).rest ≠ [] := by
  refine ⟨?_, fun ⟨⟨service, hvalue⟩, c, text, htail, hrest⟩ =>
    Or.inr ⟨opt, hopt, service, hvalue, c, text, htail ▸ harg, hrest⟩⟩
  rintro (hnone | ⟨opt', hopt', service, hvalue, c, text, harg', hrest⟩)
  · cases (beginsWith_iff.mpr ⟨tail, harg⟩).symm.trans (hnone opt hopt)
  · obtain ⟨rfl, rfl⟩ := option_unique hopt hopt' (harg.symm.trans harg')
    exact ⟨⟨service, hvalue⟩, c, text, rfl, hrest⟩

theorem toInt_of_fitsInt {v : Int} (h : FitsInt v) : toInt v = v := by
  unfold FitsInt at h
  rw [toInt, Int.bmod_eq_emod]
  split <;> omega

/-- A number that fits is read to its end, and stored. -/
theorem strtol_of_signed {v : Int} (h : Strtol.Signed 10 text v) (hfits : FitsInt v) :
    (Strtol.strtol 10 text).rest = [] ∧ toInt (Strtol.strtol 10 text).value = v := by
  have hdenotes : Strtol.Denotes 10 text v := ⟨[], text, rfl, fun c hc => (nomatch hc), h⟩
  have hrange : Strtol.inRange v = true := by
    unfold FitsInt at hfits
    unfold Strtol.inRange Strtol.longMin Strtol.longMax
    exact decide_eq_true (by omega)
  rw [Strtol.strtol_of_denotes hdenotes, Strtol.clamp_of_inRange hrange]
  exact ⟨rfl, toInt_of_fitsInt hfits⟩

/-- The loop goes on after the argument, and if that is an assignment it has been
    carried out. -/
def Takes (arg : String) : Prop :=
  ∀ cfg, ∃ cfg', (∀ av, processConfig (arg :: av) cfg = processConfig av cfg') ∧
    ∀ slot w, Assigns arg slot w → ∀ sl, cfg'.get sl = if sl = slot then w else cfg.get sl

/-- An argument with an integer option. -/
theorem processConfig_port {service : Service} (hopt : opt ∈ scordOptions)
    (harg : arg.toList = opt.name.toList ++ tail) (hvalue : opt.value = .port service) :
    (Refused arg ∧ ∀ cfg av, processConfig (arg :: av) cfg = some (cfg, -1)) ∨
    (Overruns arg ∧ ∀ cfg av, processConfig (arg :: av) cfg = none) ∨
    ¬ Refused arg ∧ ¬ Overruns arg ∧ Takes arg := by
  have hfind := find_option hopt harg
  have hrefused := refused_iff hopt harg
  have hoverruns := overruns_iff hopt harg
  cases tail with
  | nil =>
      -- the value would stand behind the terminator
      refine Or.inr (Or.inl ⟨hoverruns.mpr ⟨rfl, service, hvalue⟩, fun cfg av => ?_⟩)
      have hnone := valueAt_of_bare (harg.trans (List.append_nil _))
      simp only [processConfig, hfind, takeOption, hvalue, hnone, Option.map_none]
  | cons c text =>
      -- whatever `c` is, `strtol` starts after it
      have hsome := valueAt_of_cons harg
      by_cases hrest : (Strtol.strtol 10 text).rest = []
      · refine Or.inr (Or.inr ⟨fun h => ?_, fun h => (nomatch (hoverruns.mp h).1), fun cfg => ?_⟩)
        · obtain ⟨-, _, _, heq, hne⟩ := hrefused.mp h
          cases heq
          exact hne hrest
        · refine ⟨cfg.setInt service (toInt (Strtol.strtol 10 text).value), fun av => ?_,
            fun slot w hassigns sl => ?_⟩
          · simp only [processConfig, hfind, takeOption, hvalue, hsome, Option.map_some, hrest,
              ne_eq, not_true_eq_false, if_false]
          · obtain ⟨_, heq, hslot, hw⟩ := (assigns_iff hopt harg).mp hassigns
            cases heq
            obtain rfl := hvalue.symm.trans hslot
            obtain ⟨v, hsigned, hfits, rfl⟩ := hw
            rw [ScordPluginConfig.get_setInt, (strtol_of_signed hsigned hfits).2]
      · refine Or.inl ⟨hrefused.mpr ⟨⟨service, hvalue⟩, c, text, rfl, hrest⟩, fun cfg av => ?_⟩
        simp only [processConfig, hfind, takeOption, hvalue, hsome, Option.map_some, ne_eq, hrest,
          not_false_eq_true, if_true]

/-- An argument with a text option is always taken. -/
theorem processConfig_text {service : Service} {item : TextItem} (hopt : opt ∈ scordOptions)
    (harg : arg.toList = opt.name.toList ++ tail) (hvalue : opt.value = .text service item) :
    ¬ Refused arg ∧ ¬ Overruns arg ∧ Takes arg := by
  have hfind := find_option hopt harg
  refine ⟨fun h => ?_, fun h => ?_, fun cfg => ?_⟩
  · obtain ⟨⟨_, hport⟩, -⟩ := (refused_iff hopt harg).mp h
    cases hvalue.symm.trans hport
  · obtain ⟨-, _, hport⟩ := (overruns_iff hopt harg).mp h
    cases hvalue.symm.trans hport
  · refine ⟨cfg.setPtr service item
      ((valueAt arg opt).elim CharPtr.past fun text => .text (String.ofList text)),
      fun av => ?_, fun slot w hassigns sl => ?_⟩
    · simp only [processConfig, hfind, takeOption, hvalue]
    · obtain ⟨text, rfl, hslot, hw⟩ := (assigns_iff hopt harg).mp hassigns
      obtain rfl := hvalue.symm.trans hslot
      obtain rfl : w = .ptr (.text (String.ofList text)) := hw
      rw [ScordPluginConfig.get_setPtr, valueAt_of_cons harg]
      rfl

/-- **One argument.**  The loop refuses it, or reads behind its terminator, or
    takes it. -/
theorem processConfig_cons_cases (arg : String) :
    (Refused arg ∧ ∀ cfg av, processConfig (arg :: av) cfg = some (cfg, -1)) ∨
    (Overruns arg ∧ ∀ cfg av, processConfig (arg :: av) cfg = none) ∨
    ¬ Refused arg ∧ ¬ Overruns arg ∧ Takes arg := by
  by_cases hany : ∃ opt ∈ scordOptions, beginsWith arg opt.name = true
  · obtain ⟨opt, hopt, hbegins⟩ := hany
    obtain ⟨tail, harg⟩ := beginsWith_iff.mp hbegins
    cases hvalue : opt.value with
    | port service => exact processConfig_port hopt harg hvalue
    | text service item => exact Or.inr (Or.inr (processConfig_text hopt harg hvalue))
  · have hnone : ∀ opt ∈ scordOptions, beginsWith arg opt.name = false := by
      intro opt hopt
      simpa using fun hbegins => hany ⟨opt, hopt, hbegins⟩
    refine Or.inl ⟨Or.inl hnone, fun cfg av => ?_⟩
    have hfind : scordOptions.find? (fun opt => beginsWith arg opt.name) = none :=
      List.find?_eq_none.mpr fun opt hopt => by simp [hnone opt hopt]
    rw [processConfig, hfind]

/-- An assignment is taken. -/
theorem WellFormed.takes (h : WellFormed arg) : ¬ Refused arg ∧ ¬ Overruns arg ∧ Takes arg := by
  obtain ⟨slot, w, opt, hopt, text, harg, rfl, hw⟩ := h
  have hnotrefused : ¬ Refused arg := by
    intro hrefused
    obtain ⟨⟨service, hvalue⟩, _, _, heq, hrest⟩ := (refused_iff hopt harg).mp hrefused
    cases heq
    rw [hvalue] at hw
    obtain ⟨v, hsigned, hfits, -⟩ := hw
    exact hrest (strtol_of_signed hsigned hfits).1
  rcases processConfig_cons_cases arg with ⟨hrefused, -⟩ | ⟨hoverruns, -⟩ | htakes
  · exact absurd hrefused hnotrefused
  · cases ((overruns_iff hopt harg).mp hoverruns).1
  · exact htakes

theorem Overruns.not_refused (h : Overruns arg) : ¬ Refused arg := by
  obtain ⟨opt, hopt, service, hvalue, rfl⟩ := h
  intro hrefused
  obtain ⟨-, _, _, heq, -⟩ := (refused_iff hopt (List.append_nil _).symm).mp hrefused
  cases heq

end OneArgument

/-! ## Argument vectors -/

section Vectors

variable {cfg cfg' : ScordPluginConfig} {arg : String} {av : List String}

/-- One assignment in front. -/
theorem Configured.cons {cfg₁ : ScordPluginConfig} (h : Configured cfg₁ av cfg')
    (hwell : WellFormed arg)
    (hcfg₁ : ∀ slot w, Assigns arg slot w →
      ∀ sl, cfg₁.get sl = if sl = slot then w else cfg.get sl) :
    Configured cfg (arg :: av) cfg' := by
  refine ⟨?_, fun slot hnone => ?_⟩
  · rintro slot w ⟨before, a, after, heq, hassigns, hafter⟩
    cases before with
    | nil =>
        obtain ⟨rfl, rfl⟩ := List.cons.inj heq
        -- it is the first argument, and no later one writes its slot
        rw [h.kept slot hafter, hcfg₁ slot w hassigns, if_pos rfl]
    | cons b before =>
        obtain ⟨rfl, rfl⟩ := List.cons.inj heq
        exact h.assigned slot w ⟨before, a, after, rfl, hassigns, hafter⟩
  · obtain ⟨slot', w', hassigns⟩ := hwell
    have hne : slot ≠ slot' := by
      rintro rfl
      exact hnone arg List.mem_cons_self w' hassigns
    rw [h.kept slot fun a ha => hnone a (List.mem_cons_of_mem _ ha), hcfg₁ slot' w' hassigns,
      if_neg hne]

theorem processConfig_of_wellFormed (hwell : ∀ arg ∈ av, WellFormed arg) (cfg) :
    ∃ cfg', processConfig av cfg = some (cfg', 0) ∧ Configured cfg av cfg' := by
  induction av generalizing cfg with
  | nil =>
      refine ⟨cfg, rfl, ?_, fun _ _ => rfl⟩
      rintro slot w ⟨before, a, after, heq, -⟩
      cases before <;> cases heq
  | cons arg av ih =>
      have harg := hwell arg List.mem_cons_self
      obtain ⟨cfg₁, hnext, hcfg₁⟩ := harg.takes.2.2 cfg
      obtain ⟨cfg', hrest, hconfigured⟩ :=
        ih (fun a ha => hwell a (List.mem_cons_of_mem _ ha)) cfg₁
      exact ⟨cfg', (hnext av).trans hrest, hconfigured.cons harg hcfg₁⟩

theorem stops_cons (htaken : ¬ Refused arg) (hno : ¬ Overruns arg) :
    Stops (arg :: av) ↔ Stops av := by
  refine ⟨?_, ?_⟩
  · rintro ⟨before, a, after, heq, hrefused, hbefore⟩
    cases before with
    | nil =>
        obtain ⟨rfl, rfl⟩ := List.cons.inj heq
        exact absurd hrefused htaken
    | cons b before =>
        obtain ⟨rfl, rfl⟩ := List.cons.inj heq
        exact ⟨before, a, after, rfl, hrefused, fun c hc => hbefore c (List.mem_cons_of_mem _ hc)⟩
  · rintro ⟨before, a, after, rfl, hrefused, hbefore⟩
    refine ⟨arg :: before, a, after, rfl, hrefused, fun c hc => ?_⟩
    rcases List.mem_cons.mp hc with rfl | hc
    · exact hno
    · exact hbefore c hc

/-- The return code is -1 exactly when the loop stops. -/
theorem processConfig_cases (av : List String) (cfg : ScordPluginConfig) :
    Stops av ∧ (∃ cfg', processConfig av cfg = some (cfg', -1)) ∨
      ¬ Stops av ∧
        (processConfig av cfg = none ∨ ∃ cfg', processConfig av cfg = some (cfg', 0)) := by
  induction av generalizing cfg with
  | nil =>
      refine Or.inr ⟨?_, Or.inr ⟨cfg, rfl⟩⟩
      rintro ⟨before, a, after, heq, -⟩
      cases before <;> cases heq
  | cons arg av ih =>
      rcases processConfig_cons_cases arg with ⟨hrefused, hexit⟩ | ⟨hoverruns, hfault⟩ |
        ⟨htaken, hno, htakes⟩
      · exact Or.inl ⟨⟨[], arg, av, rfl, hrefused, fun a ha => absurd ha List.not_mem_nil⟩,
          cfg, hexit cfg av⟩
      · refine Or.inr ⟨?_, Or.inl (hfault cfg av)⟩
        rintro ⟨before, a, after, heq, hrefused, hbefore⟩
        cases before with
        | nil =>
            obtain ⟨rfl, -⟩ := List.cons.inj heq
            exact hoverruns.not_refused hrefused
        | cons b before =>
            obtain ⟨rfl, -⟩ := List.cons.inj heq
            exact hbefore arg List.mem_cons_self hoverruns
      · obtain ⟨cfg₁, hnext, -⟩ := htakes cfg
        rw [stops_cons htaken hno, hnext av]
        exact ih cfg₁

/-- **The plugin accepts the lists of assignments alone exactly when the arguments
    are one, or the loop stops.** -/
theorem acceptsAssignments_iff (cfg : ScordPluginConfig) (av : List String) :
    AcceptsAssignments cfg av ↔ (∀ arg ∈ av, WellFormed arg) ∨ Stops av := by
  refine ⟨?_, ?_⟩
  · rintro ⟨cfg', rc, hresult, hcode, -⟩
    rcases processConfig_cases av cfg with ⟨hstops, -⟩ | ⟨-, hnone | ⟨cfg'', hzero⟩⟩
    · exact Or.inr hstops
    · cases hresult.symm.trans hnone
    · cases hresult.symm.trans hzero
      exact Or.inl (hcode.mp rfl)
  · intro h
    by_cases hwell : ∀ arg ∈ av, WellFormed arg
    · obtain ⟨cfg', hresult, hconfigured⟩ := processConfig_of_wellFormed hwell cfg
      exact ⟨cfg', 0, hresult, iff_of_true rfl hwell, fun _ => hconfigured⟩
    · rcases processConfig_cases av cfg with ⟨-, cfg', hresult⟩ | ⟨hnot, -⟩
      · exact ⟨cfg', -1, hresult, iff_of_false (by decide) hwell, fun hzero => (nomatch hzero)⟩
      · exact absurd (h.resolve_left hwell) hnot

end Vectors

/-- The key of a port, and nothing else: `strtol` starts behind the terminator. -/
theorem not_acceptsAssignments_bareKey :
    ¬ AcceptsAssignments
      (defaultCfg ⟨"tcp", "127.0.0.1", 52000, "scord-ctl", 52001, "cargo", 62000⟩)
      ["cargo_port"] := by
  rintro ⟨cfg', rc, hresult, -⟩
  cases hresult

end Scord.Plugin

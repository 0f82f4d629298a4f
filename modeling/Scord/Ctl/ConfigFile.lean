/-
  Scord.Ctl.ConfigFile

  How `scord-ctl` loads its configuration (`config_file.cpp`): nested loops over
  the keys of a YAML document, which an exception leaves.

  What a section lacks is looked for at the end of its loop, but for the four
  commands of an adhoc storage: their optionals are taken for granted.  So a
  document is stated here as the list of its entries for adhoc storages, each of
  which loads, throws, or does neither.
-/
import Scord.Ctl.RpcServer
import Scord.Lib.ExceptLoop
import Scord.Lib.YamlTree

namespace ScordCtl

open ExceptLoop FileSystem
open Scord (AdhocStorageType)
open Yaml (Node)

namespace Config

/-! ## Exceptions -/

inductive Exception
  | notOpened
  /-- the message prints the document from the type on -/
  | unsupportedType (type : String)
  | commandNull
  | commandNotAbsolute (path : Path)
  | commandNotFound (path : Path)
  /-- of `exists` itself -/
  | statusUnknown (path : Path)
  | commandMissing
  | workingDirectoryNull
  | workingDirectoryMissing
  /-- of a document that was opened, with the message of the exception above -/
  | failedParsing (e : Exception)
deriving DecidableEq, Repr

/-- How the constructor ends without a configuration. -/
inductive Failure
  | throws (e : Exception)
  /-- an optional without a value was dereferenced -/
  | undefined
deriving DecidableEq, Repr

abbrev Load (α : Type) := Except Failure α

def raise {α : Type} (e : Exception) : Load α := .error (.throws e)

/-- `*optional` -/
def deref {α : Type} : Option α → Load α
  | some a => .ok a
  | none => .error .undefined

/-! ## The source's functions -/

/-- `to_string`: a text that starts with a null character is taken for none. -/
def toText (str : String) : String :=
  if str.toList.head? = some '\x00' then "" else str

/-- `to_string` of a value -/
def textOf (node : Node) : String := toText (node.val.getD "")

/-- The path of the program in a command line. -/
def commandPath (cmdline : String) : Path :=
  ⟨String.ofList (cmdline.toList.takeWhile (· ≠ ' '))⟩

section Parse

-- `val_is_null()` of the YAML library, and `exists(path)`, which throws if the status
-- of the file cannot be told
variable (isNull : Node → Bool) (status : Path → Option Bool)

def validateCommand (cmdline : String) : Load Unit :=
  let path := commandPath cmdline
  if path.isAbsolute = false then raise (.commandNotAbsolute path)
  else
    match status path with
    | none => raise (.statusUnknown path)
    | some false => raise (.commandNotFound path)
    | some true => .ok ()

def toAdhocStorageType (type : String) : Load AdhocStorageType :=
  if type = "dataclay" then .ok .dataclay
  else if type = "expand" then .ok .expand
  else if type = "gekkofs" then .ok .gekkofs
  else if type = "hercules" then .ok .hercules
  else raise (.unsupportedType type)

def parseEnvironmentNode (node : Node) : Environment :=
  node.entries.foldl (fun env child => env.set (toText child.1) (textOf child.2)) .empty

/-- One key of a command: the command line and the environment so far. -/
def commandKey (s : String × Option Environment) (child : String × Node) :
    Load (String × Option Environment) :=
  if child.1 = "environment" then .ok (s.1, some (parseEnvironmentNode child.2))
  else if child.1 = "command" then
    if isNull child.2 then raise .commandNull
    else do
      validateCommand status (textOf child.2)
      return (textOf child.2, s.2)
  -- a key that is not known
  else .ok s

def parseCommandNode (node : Node) : Load Command := do
  let s ← node.entries.foldlM (commandKey isNull status) ("", none)
  if s.1 = "" then raise .commandMissing
  else return ⟨s.1, s.2⟩

/-- The commands of an adhoc storage. -/
inductive Section
  | startup
  | shutdown
  | expand
  | shrink
deriving DecidableEq, Repr

def Section.key : Section → String
  | .startup => "startup"
  | .shutdown => "shutdown"
  | .expand => "expand"
  | .shrink => "shrink"

def Section.ofKey (key : String) : Option Section :=
  if key = "startup" then some .startup
  else if key = "shutdown" then some .shutdown
  else if key = "expand" then some .expand
  else if key = "shrink" then some .shrink
  else none

/-- What was read of an adhoc storage so far, with an optional for each of its
    commands. -/
structure AdhocParts where
  workingDirectory : Path
  command : Section → Option Command

/-- One key of an adhoc storage. -/
def adhocKey (s : AdhocParts) (child : String × Node) : Load AdhocParts :=
  if child.1 = "working_directory" then
    if isNull child.2 then raise .workingDirectoryNull
    else .ok { s with workingDirectory := ⟨textOf child.2⟩ }
  else
    match Section.ofKey child.1 with
    | some part => do
        let command ← parseCommandNode isNull status child.2
        return { s with command := fun p => if p = part then some command else s.command p }
    -- a key that is not known
    | none => .ok s

def parseAdhocConfigNode (node : Node) : Load AdhocStorageConfig := do
  let s ← node.entries.foldlM (adhocKey isNull status) ⟨⟨""⟩, fun _ => none⟩
  if s.workingDirectory.text = "" then raise .workingDirectoryMissing
  else do
    -- nothing has looked whether they are there
    let startupCommand ← deref (s.command .startup)
    let shutdownCommand ← deref (s.command .shutdown)
    let expandCommand ← deref (s.command .expand)
    let shrinkCommand ← deref (s.command .shrink)
    return ⟨s.workingDirectory, startupCommand, shutdownCommand, expandCommand, shrinkCommand⟩

/-- `emplace`: the first configuration of a type stays. -/
def emplace (configs : AdhocStorageConfigMap) (type : AdhocStorageType)
    (config : AdhocStorageConfig) : AdhocStorageConfigMap :=
  if type ∈ configs.map Prod.fst then configs else configs ++ [(type, config)]

/-- One adhoc storage. -/
def adhocStorageKey (configs : AdhocStorageConfigMap) (child : String × Node) :
    Load AdhocStorageConfigMap := do
  let adhocType ← toAdhocStorageType child.1
  let adhocConfig ← parseAdhocConfigNode isNull status child.2
  return emplace configs adhocType adhocConfig

def parseAdhocStorageNode (node : Node) : Load AdhocStorageConfigMap :=
  node.entries.foldlM (adhocStorageKey isNull status) []

/-- One key of `config`: the last `adhoc_storage` replaces the others. -/
def configKey (configs : AdhocStorageConfigMap) (child : String × Node) :
    Load AdhocStorageConfigMap :=
  if child.1 = "adhoc_storage" then parseAdhocStorageNode isNull status child.2 else .ok configs

def parseConfigNode (node : Node) : Load AdhocStorageConfigMap :=
  node.entries.foldlM (configKey isNull status) []

/-- `catch(const std::exception& e)` -/
def Failure.rethrow : Failure → Failure
  | .throws e => .throws (.failedParsing e)
  | .undefined => .undefined

/-- One key of the document. -/
def rootKey (configs : AdhocStorageConfigMap) (child : String × Node) :
    Load AdhocStorageConfigMap :=
  if child.1 = "config" then (parseConfigNode isNull status child.2).mapError Failure.rethrow
  else .ok configs

/-- `config_file(path)`, where `document` is what the file is parsed to, if it can
    be opened. -/
def configFile (document : Option Node) : Load ConfigFile :=
  match document with
  | none => raise .notOpened
  | some root => do
      let configs ← root.entries.foldlM (rootKey isNull status) []
      return ⟨configs⟩

end Parse

/-! ## Commands -/

section Commands

variable {isNull : Node → Bool} {status : Path → Option Bool}

/-- The program of the command line has an absolute path, and is there. -/
structure ValidCommand (status : Path → Option Bool) (cmdline : String) : Prop where
  absolute : (commandPath cmdline).isAbsolute = true
  found : status (commandPath cmdline) = some true

/-- There is a command line, and all of them are valid. -/
structure CommandWellFormed (isNull : Node → Bool) (status : Path → Option Bool)
    (node : Node) : Prop where
  present : ∃ e ∈ node.entries, e.1 = "command"
  valid : ∀ e ∈ node.entries, e.1 = "command" →
    isNull e.2 = false ∧ ValidCommand status (textOf e.2)

/-- A command whose command line is in the section, and valid. -/
def CommandOf (status : Path → Option Bool) (node : Node) (command : Command) : Prop :=
  ∃ e ∈ node.entries, e.1 = "command" ∧ e.2.val = some command.cmdline ∧
    ValidCommand status command.cmdline

/-- The path of a valid command is not empty. -/
theorem ValidCommand.ne_empty {cmdline : String} (h : ValidCommand status cmdline) :
    cmdline ≠ "" := by
  rintro rfl
  cases h.absolute

theorem validateCommand_cases (status : Path → Option Bool) (cmdline : String) :
    (ValidCommand status cmdline ∧ validateCommand status cmdline = .ok ()) ∨
      ¬ ValidCommand status cmdline ∧ ∃ e, validateCommand status cmdline = raise e := by
  unfold validateCommand
  by_cases habsolute : (commandPath cmdline).isAbsolute = false
  · rw [if_pos habsolute]
    refine Or.inr ⟨fun h => ?_, _, rfl⟩
    cases habsolute.symm.trans h.absolute
  · rw [if_neg habsolute]
    have habsolute : (commandPath cmdline).isAbsolute = true := by simpa using habsolute
    cases hstatus : status (commandPath cmdline) with
    | none =>
        refine Or.inr ⟨fun h => ?_, _, rfl⟩
        cases hstatus.symm.trans h.found
    | some found =>
        cases found with
        | true => exact Or.inl ⟨⟨habsolute, hstatus⟩, rfl⟩
        | false =>
            refine Or.inr ⟨fun h => ?_, _, rfl⟩
            cases hstatus.symm.trans h.found

/-- The exception of one key of a command. -/
def commandFault (isNull : Node → Bool) (status : Path → Option Bool)
    (child : String × Node) : Option Failure :=
  if child.1 = "command" then
    if isNull child.2 then some (.throws .commandNull)
    else fault (validateCommand status (textOf child.2))
  else none

theorem fault_commandKey (s : String × Option Environment) (child : String × Node) :
    fault (commandKey isNull status s child) = commandFault isNull status child := by
  unfold commandKey commandFault
  by_cases henv : child.1 = "environment"
  · simp [henv]
  · rw [if_neg henv]
    by_cases hcommand : child.1 = "command"
    · rw [if_pos hcommand, if_pos hcommand]
      by_cases hnull : isNull child.2 = true
      · rw [if_pos hnull, if_pos hnull]
        rfl
      · rw [if_neg hnull, if_neg hnull]
        rcases validateCommand_cases status (textOf child.2) with ⟨-, hok⟩ | ⟨-, e, herror⟩
        · rw [hok]
          rfl
        · rw [herror]
          rfl
    · rw [if_neg hcommand, if_neg hcommand]
      rfl

/-- Only what is not well formed throws. -/
theorem commandFault_cases (isNull : Node → Bool) (status : Path → Option Bool)
    (child : String × Node) :
    (commandFault isNull status child = none ∧ (child.1 = "command" →
      isNull child.2 = false ∧ ValidCommand status (textOf child.2))) ∨
    (child.1 = "command" ∧ ¬ (isNull child.2 = false ∧ ValidCommand status (textOf child.2)) ∧
      ∃ e, commandFault isNull status child = some (.throws e)) := by
  unfold commandFault
  by_cases hcommand : child.1 = "command"
  · rw [if_pos hcommand]
    cases hnull : isNull child.2 with
    | true => exact Or.inr ⟨hcommand, fun h => (nomatch h.1), _, rfl⟩
    | false =>
        rcases validateCommand_cases status (textOf child.2) with ⟨hvalid, hok⟩ | ⟨hnot, e, herror⟩
        · refine Or.inl ⟨?_, fun _ => ⟨rfl, hvalid⟩⟩
          simp [hok]
        · refine Or.inr ⟨hcommand, fun h => hnot h.2, e, ?_⟩
          simp [herror, raise]
  · rw [if_neg hcommand]
    exact Or.inl ⟨rfl, fun h => absurd h hcommand⟩

/-- A text that is not empty is the one of the document. -/
theorem textOf_eq {node : Node} (h : textOf node ≠ "") : node.val = some (textOf node) := by
  unfold textOf toText at h ⊢
  cases hval : node.val with
  | none =>
      rw [hval] at h
      exact absurd rfl h
  | some text =>
      rw [hval] at h
      split at h
      · exact absurd rfl h
      · next hfirst => rw [if_neg hfirst, Option.getD_some]

/-- What one key of a command does to the command line. -/
theorem commandKey_eq_ok {s s' : String × Option Environment} {child : String × Node}
    (h : commandKey isNull status s child = .ok s') :
    (child.1 ≠ "command" ∧ s'.1 = s.1) ∨
      (child.1 = "command" ∧ child.2.val = some s'.1 ∧ ValidCommand status s'.1) := by
  have hnone : commandFault isNull status child = none := by
    rw [← fault_commandKey s child, h]
    rfl
  unfold commandKey at h
  by_cases henv : child.1 = "environment"
  · rw [if_pos henv] at h
    cases h
    exact Or.inl ⟨by simp [henv], rfl⟩
  · rw [if_neg henv] at h
    by_cases hcommand : child.1 = "command"
    · rw [if_pos hcommand] at h
      rcases commandFault_cases isNull status child with ⟨-, hwell⟩ | ⟨-, -, e, hsome⟩
      · obtain ⟨hnull, hvalid⟩ := hwell hcommand
        rw [if_neg (by simp [hnull])] at h
        obtain ⟨-, -, h⟩ := bind_eq_ok.mp h
        cases h
        exact Or.inr ⟨hcommand, textOf_eq hvalid.ne_empty, hvalid⟩
      · cases hnone.symm.trans hsome
    · rw [if_neg hcommand] at h
      cases h
      exact Or.inl ⟨hcommand, rfl⟩

/-- What the loop over a command has found. -/
theorem commandKey_found {node : Node} {s : String × Option Environment}
    (h : node.entries.foldlM (commandKey isNull status) ("", none) = .ok s) :
    (s.1 = "" ∧ ∀ e ∈ node.entries, e.1 ≠ "command") ∨
      ∃ e ∈ node.entries, e.1 = "command" ∧ e.2.val = some s.1 ∧ ValidCommand status s.1 := by
  refine foldlM_invariant (I := fun done s => (s.1 = "" ∧ ∀ e ∈ done, e.1 ≠ "command") ∨
      ∃ e ∈ done, e.1 = "command" ∧ e.2.val = some s.1 ∧ ValidCommand status s.1) h
    (Or.inl ⟨rfl, fun e he => absurd he List.not_mem_nil⟩) ?_
  intro done child s s' _ hi hs
  rcases commandKey_eq_ok hs with ⟨hother, hsame⟩ | ⟨hcommand, hval, hvalid⟩
  · rw [hsame]
    rcases hi with ⟨hempty, hnone⟩ | ⟨e, he, hfound⟩
    · refine Or.inl ⟨hempty, fun e he => ?_⟩
      rcases List.mem_append.mp he with he | he
      · exact hnone e he
      · exact List.mem_singleton.mp he ▸ hother
    · exact Or.inr ⟨e, List.mem_append_left _ he, hfound⟩
  · exact Or.inr ⟨child, List.mem_concat_self, hcommand, hval,
      hvalid⟩

/-- **A command section** loads if it is well formed, and throws otherwise. -/
theorem parseCommandNode_cases (isNull : Node → Bool) (status : Path → Option Bool) (node : Node) :
    (CommandWellFormed isNull status node ∧
      ∃ c, parseCommandNode isNull status node = .ok c ∧ CommandOf status node c) ∨
    ¬ CommandWellFormed isNull status node ∧
      ∃ e, parseCommandNode isNull status node = raise e := by
  have hfault : fault (node.entries.foldlM (commandKey isNull status) ("", none))
      = node.entries.findSome? (commandFault isNull status) :=
    fault_foldlM fault_commandKey node.entries _
  unfold parseCommandNode
  cases hloop : node.entries.foldlM (commandKey isNull status) ("", none) with
  | error f =>
      rw [hloop] at hfault
      obtain ⟨child, hchild, hf⟩ := List.exists_of_findSome?_eq_some hfault.symm
      -- it is one of a command line that is not valid
      rcases commandFault_cases isNull status child with ⟨hnone, -⟩ | ⟨hcommand, hnot, e, hsome⟩
      · cases hnone.symm.trans hf
      · cases hsome.symm.trans hf
        exact Or.inr ⟨fun hwell => hnot (hwell.valid child hchild hcommand), e, rfl⟩
  | ok s =>
      rw [hloop] at hfault
      -- no key has thrown, so all command lines are valid
      have hvalid : ∀ e ∈ node.entries, e.1 = "command" →
          isNull e.2 = false ∧ ValidCommand status (textOf e.2) := by
        intro child hchild
        rcases commandFault_cases isNull status child with ⟨-, hwell⟩ | ⟨-, -, e, hsome⟩
        · exact hwell
        · cases (List.findSome?_eq_none_iff.mp hfault.symm child hchild).symm.trans hsome
      rcases commandKey_found hloop with ⟨hempty, hnone⟩ | ⟨e, he, hcommand, hval, hvalidated⟩
      · refine Or.inr ⟨fun hwell => ?_, .commandMissing, if_pos hempty⟩
        obtain ⟨e, he, hcommand⟩ := hwell.present
        exact hnone e he hcommand
      · exact Or.inl ⟨⟨⟨e, he, hcommand⟩, hvalid⟩, ⟨s.1, s.2⟩, if_neg hvalidated.ne_empty,
          e, he, hcommand, hval, hvalidated⟩

theorem commandOf_of_parse {node : Node} {c : Command}
    (h : parseCommandNode isNull status node = .ok c) :
    CommandOf status node c := by
  rcases parseCommandNode_cases isNull status node with ⟨-, c', hc', hfound⟩ | ⟨-, e, herror⟩
  · cases h.symm.trans hc'
    exact hfound
  · cases h.symm.trans herror

end Commands

/-! ## Adhoc storages -/

def adhocStorageTypes : List String := ["dataclay", "expand", "gekkofs", "hercules"]

def commandOf (config : AdhocStorageConfig) : Section → Command
  | .startup => config.startupCommand
  | .shutdown => config.shutdownCommand
  | .expand => config.expandCommand
  | .shrink => config.shrinkCommand

section Adhoc

variable {isNull : Node → Bool} {status : Path → Option Bool}

/-- The latest working directory is not empty, none is null, and all commands are
    well formed.  Nothing says that there are any. -/
structure AdhocWellFormed (isNull : Node → Bool) (status : Path → Option Bool)
    (node : Node) : Prop where
  notNull : ∀ e ∈ node.entries, e.1 = "working_directory" → isNull e.2 = false
  workingDirectory : ∃ e,
    (node.entries.filter fun e => e.1 = "working_directory").getLast? = some e ∧ textOf e.2 ≠ ""
  commands : ∀ e ∈ node.entries, Section.ofKey e.1 ≠ none → CommandWellFormed isNull status e.2

/-- A command is not there. -/
def Lacks (node : Node) : Prop := ∃ part : Section, ∀ e ∈ node.entries, e.1 ≠ part.key

/-- A working directory that is not empty, and four valid commands, all of them
    from the section. -/
structure ConfigOf (status : Path → Option Bool) (node : Node) (config : AdhocStorageConfig) :
    Prop where
  workingDirectory : config.workingDirectory.text ≠ "" ∧ ∃ e ∈ node.entries,
    e.1 = "working_directory" ∧ e.2.val = some config.workingDirectory.text
  commands : ∀ part : Section, ∃ e ∈ node.entries, e.1 = part.key ∧
    CommandOf status e.2 (commandOf config part)

theorem Section.ofKey_eq_some {key : String} {part : Section} :
    Section.ofKey key = some part ↔ key = part.key := by
  refine ⟨fun h => ?_, fun h => ?_⟩
  · unfold Section.ofKey at h
    split at h
    · next hkey =>
        cases h
        exact hkey
    · split at h
      · next hkey =>
          cases h
          exact hkey
      · split at h
        · next hkey =>
            cases h
            exact hkey
        · split at h
          · next hkey =>
              cases h
              exact hkey
          · cases h
  · subst h
    cases part <;> rfl

/-- The exception of one key of an adhoc storage. -/
def adhocFault (isNull : Node → Bool) (status : Path → Option Bool)
    (child : String × Node) : Option Failure :=
  if child.1 = "working_directory" then
    if isNull child.2 then some (.throws .workingDirectoryNull) else none
  else if Section.ofKey child.1 ≠ none then fault (parseCommandNode isNull status child.2)
  else none

theorem fault_adhocKey (s : AdhocParts) (child : String × Node) :
    fault (adhocKey isNull status s child) = adhocFault isNull status child := by
  unfold adhocKey adhocFault
  by_cases hdir : child.1 = "working_directory"
  · rw [if_pos hdir, if_pos hdir]
    split <;> rfl
  · rw [if_neg hdir, if_neg hdir]
    cases hpart : Section.ofKey child.1 with
    | none => rfl
    | some part =>
        rw [if_pos (by simp)]
        show fault (parseCommandNode isNull status child.2 >>= _) = _
        cases hparse : parseCommandNode isNull status child.2 <;> rfl

/-- What the loop over an adhoc storage has found. -/
structure AdhocFound (status : Path → Option Bool) (entries : List (String × Node))
    (s : AdhocParts) : Prop where
  workingDirectory : s.workingDirectory.text
    = ((entries.filter fun e => e.1 = "working_directory").getLast?.elim "" fun e => textOf e.2)
  command : ∀ part, (s.command part = none ∧ ∀ e ∈ entries, e.1 ≠ part.key) ∨
    ∃ c, s.command part = some c ∧ ∃ e ∈ entries, e.1 = part.key ∧ CommandOf status e.2 c

/-- A key that is not one of a command changes none of them. -/
theorem AdhocFound.command_append {entries : List (String × Node)} {s s' : AdhocParts}
    {child : String × Node} (h : AdhocFound status entries s) {part : Section}
    (hsame : s'.command part = s.command part) (hother : child.1 ≠ part.key) :
    (s'.command part = none ∧ ∀ e ∈ entries ++ [child], e.1 ≠ part.key) ∨
      ∃ c, s'.command part = some c ∧
        ∃ e ∈ entries ++ [child], e.1 = part.key ∧ CommandOf status e.2 c := by
  rw [hsame]
  rcases h.command part with ⟨hnone, hentries⟩ | ⟨c, hc, e, he, hfound⟩
  · refine Or.inl ⟨hnone, fun e he => ?_⟩
    rcases List.mem_append.mp he with he | he
    · exact hentries e he
    · exact List.mem_singleton.mp he ▸ hother
  · exact Or.inr ⟨c, hc, e, List.mem_append_left _ he, hfound⟩

theorem adhocKey_found {node : Node} {s : AdhocParts}
    (h : node.entries.foldlM (adhocKey isNull status) ⟨⟨""⟩, fun _ => none⟩ = .ok s) :
    AdhocFound status node.entries s := by
  refine foldlM_invariant (I := AdhocFound status) h
    ⟨rfl, fun part => Or.inl ⟨rfl, fun e he => absurd he List.not_mem_nil⟩⟩ ?_
  intro done child s s' _ hi hs
  unfold adhocKey at hs
  by_cases hdir : child.1 = "working_directory"
  · rw [if_pos hdir] at hs
    split at hs
    · cases hs
    · cases hs
      refine ⟨?_, fun part => hi.command_append rfl ?_⟩
      · rw [List.filter_append, List.filter_singleton]
        simp [hdir]
      · rw [hdir]
        cases part <;> decide
  · rw [if_neg hdir] at hs
    have hfilter : ((done ++ [child]).filter fun e => e.1 = "working_directory")
        = done.filter fun e => e.1 = "working_directory" := by
      rw [List.filter_append, List.filter_singleton]
      simp [hdir]
    split at hs
    · next part hpart =>
        obtain ⟨c, hc, hs⟩ := bind_eq_ok.mp hs
        cases hs
        have hkey : child.1 = part.key := Section.ofKey_eq_some.mp hpart
        refine ⟨hfilter ▸ hi.workingDirectory, fun p => ?_⟩
        by_cases hp : p = part
        · subst hp
          exact Or.inr ⟨c, if_pos rfl, child, List.mem_concat_self,
            hkey, commandOf_of_parse hc⟩
        -- any other command keeps what it had
        · refine hi.command_append (if_neg hp) fun hother => hp ?_
          exact Option.some.inj ((Section.ofKey_eq_some.mpr hother).symm.trans hpart)
    · next hpart =>
        cases hs
        refine ⟨hfilter ▸ hi.workingDirectory, fun part => hi.command_append rfl fun hkey => ?_⟩
        cases hpart.symm.trans (Section.ofKey_eq_some.mpr hkey)

/-- Every exception of the loop is one of a section that is not well formed. -/
theorem adhocFault_cases (isNull : Node → Bool) (status : Path → Option Bool)
    (child : String × Node) :
    (adhocFault isNull status child = none ∧
      (child.1 = "working_directory" → isNull child.2 = false) ∧
      (Section.ofKey child.1 ≠ none → CommandWellFormed isNull status child.2)) ∨
    (∃ e, adhocFault isNull status child = some (.throws e)) ∧
      ((child.1 = "working_directory" ∧ isNull child.2 = true) ∨
        Section.ofKey child.1 ≠ none ∧ ¬ CommandWellFormed isNull status child.2) := by
  unfold adhocFault
  by_cases hdir : child.1 = "working_directory"
  · have hpart : Section.ofKey child.1 = none := by
      rw [hdir]
      rfl
    rw [if_pos hdir]
    cases hnull : isNull child.2 with
    | true => exact Or.inr ⟨⟨_, rfl⟩, Or.inl ⟨hdir, rfl⟩⟩
    | false => exact Or.inl ⟨rfl, fun _ => rfl, fun h => absurd hpart h⟩
  · rw [if_neg hdir]
    by_cases hpart : Section.ofKey child.1 ≠ none
    · rw [if_pos hpart]
      rcases parseCommandNode_cases isNull status child.2 with
        ⟨hwell, c, hok, -⟩ | ⟨hnot, e, herror⟩
      · exact Or.inl ⟨by rw [hok]; rfl, fun h => absurd h hdir, fun _ => hwell⟩
      · exact Or.inr ⟨⟨e, by rw [herror]; rfl⟩, Or.inr ⟨hpart, hnot⟩⟩
    · rw [if_neg hpart]
      exact Or.inl ⟨rfl, fun h => absurd h hdir, fun h => absurd h hpart⟩

/-- The four optionals, dereferenced in turn. -/
theorem deref_commands (f : Section → Option Command) (dir : Path) :
    ((∃ part, f part = none) ∧ (do
      let startupCommand ← deref (f .startup)
      let shutdownCommand ← deref (f .shutdown)
      let expandCommand ← deref (f .expand)
      let shrinkCommand ← deref (f .shrink)
      return ⟨dir, startupCommand, shutdownCommand, expandCommand, shrinkCommand⟩ :
        Load AdhocStorageConfig) = .error .undefined) ∨
    ∃ config, (do
      let startupCommand ← deref (f .startup)
      let shutdownCommand ← deref (f .shutdown)
      let expandCommand ← deref (f .expand)
      let shrinkCommand ← deref (f .shrink)
      return ⟨dir, startupCommand, shutdownCommand, expandCommand, shrinkCommand⟩ :
        Load AdhocStorageConfig) = .ok config ∧
      config.workingDirectory = dir ∧ ∀ part, f part = some (commandOf config part) := by
  cases hstartup : f .startup with
  | none => exact Or.inl ⟨⟨_, hstartup⟩, rfl⟩
  | some startupCommand =>
      cases hshutdown : f .shutdown with
      | none => exact Or.inl ⟨⟨_, hshutdown⟩, rfl⟩
      | some shutdownCommand =>
          cases hexpand : f .expand with
          | none => exact Or.inl ⟨⟨_, hexpand⟩, rfl⟩
          | some expandCommand =>
              cases hshrink : f .shrink with
              | none => exact Or.inl ⟨⟨_, hshrink⟩, rfl⟩
              | some shrinkCommand =>
                  refine Or.inr ⟨_, rfl, rfl, fun part => ?_⟩
                  cases part with
                  | startup => exact hstartup
                  | shutdown => exact hshutdown
                  | expand => exact hexpand
                  | shrink => exact hshrink

/-- **An adhoc storage** that is well formed loads if it has its four commands, and
    dereferences an empty optional otherwise.  One that is not throws. -/
theorem parseAdhocConfigNode_cases (isNull : Node → Bool) (status : Path → Option Bool)
    (node : Node) :
    (AdhocWellFormed isNull status node ∧ ¬ Lacks node ∧
      ∃ c, parseAdhocConfigNode isNull status node = .ok c ∧ ConfigOf status node c) ∨
    (AdhocWellFormed isNull status node ∧ Lacks node ∧
      parseAdhocConfigNode isNull status node = .error .undefined) ∨
    ¬ AdhocWellFormed isNull status node ∧
      ∃ e, parseAdhocConfigNode isNull status node = raise e := by
  have hfault : fault (node.entries.foldlM (adhocKey isNull status) ⟨⟨""⟩, fun _ => none⟩)
      = node.entries.findSome? (adhocFault isNull status) :=
    fault_foldlM fault_adhocKey node.entries _
  unfold parseAdhocConfigNode
  cases hloop : node.entries.foldlM (adhocKey isNull status) ⟨⟨""⟩, fun _ => none⟩ with
  | error f =>
      rw [hloop] at hfault
      obtain ⟨child, hchild, hf⟩ := List.exists_of_findSome?_eq_some hfault.symm
      rcases adhocFault_cases isNull status child with ⟨hnone, -⟩ | ⟨⟨e, hsome⟩, hbad⟩
      · cases hnone.symm.trans hf
      · cases hsome.symm.trans hf
        refine Or.inr (Or.inr ⟨fun hwell => ?_, e, rfl⟩)
        rcases hbad with ⟨hdir, hnull⟩ | ⟨hpart, hnot⟩
        · cases hnull.symm.trans (hwell.notNull child hchild hdir)
        · exact hnot (hwell.commands child hchild hpart)
  | ok s =>
      rw [hloop] at hfault
      have hfound := adhocKey_found hloop
      have hkeys : ∀ e ∈ node.entries, (e.1 = "working_directory" → isNull e.2 = false) ∧
          (Section.ofKey e.1 ≠ none → CommandWellFormed isNull status e.2) := by
        intro child hchild
        rcases adhocFault_cases isNull status child with ⟨-, hwell⟩ | ⟨⟨e, hsome⟩, -⟩
        · exact hwell
        · cases (List.findSome?_eq_none_iff.mp hfault.symm child hchild).symm.trans hsome
      by_cases hempty : s.workingDirectory.text = ""
      · refine Or.inr (Or.inr ⟨fun hwell => ?_, .workingDirectoryMissing, if_pos hempty⟩)
        obtain ⟨e, hlast, htext⟩ := hwell.workingDirectory
        rw [hfound.workingDirectory, hlast] at hempty
        exact htext hempty
      · obtain ⟨e, hlast, htext⟩ : ∃ e,
            (node.entries.filter fun e => e.1 = "working_directory").getLast? = some e ∧
              textOf e.2 = s.workingDirectory.text := by
          have hdir := hfound.workingDirectory
          cases hlast : (node.entries.filter fun e => e.1 = "working_directory").getLast? with
          | none =>
              rw [hlast] at hdir
              exact absurd hdir hempty
          | some e =>
              rw [hlast] at hdir
              exact ⟨e, rfl, hdir.symm⟩
        have hwell : AdhocWellFormed isNull status node :=
          ⟨fun e he => (hkeys e he).1, ⟨e, hlast, htext ▸ hempty⟩, fun e he => (hkeys e he).2⟩
        have hmem := List.mem_filter.mp (List.mem_of_getLast? hlast)
        have hdir : e.1 = "working_directory" := by simpa using hmem.2
        rcases deref_commands s.command s.workingDirectory with
          ⟨⟨part, hnone⟩, hundefined⟩ | ⟨config, hok, hconfig, hcommands⟩
        · -- the command was not met
          rcases hfound.command part with ⟨-, hlacks⟩ | ⟨c, hc, -⟩
          · exact Or.inr (Or.inl ⟨hwell, ⟨part, hlacks⟩, (if_neg hempty).trans hundefined⟩)
          · cases hnone.symm.trans hc
        · have hcomplete : ∀ part : Section, ∃ e ∈ node.entries, e.1 = part.key ∧
              CommandOf status e.2 (commandOf config part) := by
            intro part
            rcases hfound.command part with ⟨hnone, -⟩ | ⟨c, hc, e, he, hkey, hcommand⟩
            · cases hnone.symm.trans (hcommands part)
            · cases hc.symm.trans (hcommands part)
              exact ⟨e, he, hkey, hcommand⟩
          refine Or.inl ⟨hwell, ?_, config, (if_neg hempty).trans hok, ⟨?_, e, hmem.1, hdir, ?_⟩,
            hcomplete⟩
          · rintro ⟨part, hlacks⟩
            obtain ⟨e, he, hkey, -⟩ := hcomplete part
            exact hlacks e he hkey
          · rw [hconfig]
            exact hempty
          · rw [textOf_eq (htext ▸ hempty), htext, hconfig]

end Adhoc

/-! ## Documents -/

/-- The adhoc storages of a document, in the order in which they are read. -/
def adhocEntries : Option Node → List (String × Node)
  | none => []
  | some root => Node.under "adhoc_storage" (Node.under "config" root.entries)

section Document

variable {isNull : Node → Bool} {status : Path → Option Bool}

/-- The type is not supported, or the entry is not well formed. -/
def Malformed (isNull : Node → Bool) (status : Path → Option Bool) (entry : String × Node) : Prop :=
  ¬ (entry.1 ∈ adhocStorageTypes ∧ AdhocWellFormed isNull status entry.2)

/-- The exception of one adhoc storage, or the optional that it lacks. -/
def entryFault (isNull : Node → Bool) (status : Path → Option Bool)
    (entry : String × Node) : Option Failure :=
  (fault (toAdhocStorageType entry.1)).or (fault (parseAdhocConfigNode isNull status entry.2))

theorem toAdhocStorageType_cases (type : String) :
    (type ∈ adhocStorageTypes ∧ ∃ t, toAdhocStorageType type = .ok t) ∨
      type ∉ adhocStorageTypes ∧ toAdhocStorageType type = raise (.unsupportedType type) := by
  by_cases hmem : type ∈ adhocStorageTypes
  · refine Or.inl ⟨hmem, ?_⟩
    simp only [adhocStorageTypes, List.mem_cons, List.not_mem_nil, or_false] at hmem
    rcases hmem with rfl | rfl | rfl | rfl
    · exact ⟨_, rfl⟩
    · exact ⟨_, rfl⟩
    · exact ⟨_, rfl⟩
    · exact ⟨_, rfl⟩
  · refine Or.inr ⟨hmem, ?_⟩
    simp only [adhocStorageTypes, List.mem_cons, List.not_mem_nil, or_false, not_or] at hmem
    simp [toAdhocStorageType, hmem]

theorem entryFault_cases (isNull : Node → Bool) (status : Path → Option Bool)
    (entry : String × Node) :
    (¬ Malformed isNull status entry ∧ ¬ Lacks entry.2 ∧ entryFault isNull status entry = none) ∨
    (¬ Malformed isNull status entry ∧ Lacks entry.2 ∧
      entryFault isNull status entry = some .undefined) ∨
    Malformed isNull status entry ∧ ∃ e, entryFault isNull status entry = some (.throws e) := by
  unfold Malformed entryFault
  rcases toAdhocStorageType_cases entry.1 with ⟨htype, t, ht⟩ | ⟨htype, ht⟩
  · rw [ht]
    rcases parseAdhocConfigNode_cases isNull status entry.2 with ⟨hwell, hall, c, hok, -⟩ |
      ⟨hwell, hlacks, hundefined⟩ | ⟨hnot, e, hthrows⟩
    · exact Or.inl ⟨fun h => h ⟨htype, hwell⟩, hall, by rw [hok]; rfl⟩
    · exact Or.inr (Or.inl ⟨fun h => h ⟨htype, hwell⟩, hlacks, by rw [hundefined]; rfl⟩)
    · exact Or.inr (Or.inr ⟨fun h => hnot h.2, e, by rw [hthrows]; rfl⟩)
  · exact Or.inr (Or.inr ⟨fun h => htype h.1, _, by rw [ht]; rfl⟩)

/-! The three loops fail as one over the adhoc storages of the document. -/

theorem fault_adhocStorageKey (configs : AdhocStorageConfigMap) (child : String × Node) :
    fault (adhocStorageKey isNull status configs child) = entryFault isNull status child := by
  unfold adhocStorageKey entryFault
  cases toAdhocStorageType child.1 with
  | error f => rfl
  | ok t =>
      show fault (parseAdhocConfigNode isNull status child.2 >>= _) = _
      cases parseAdhocConfigNode isNull status child.2 <;> rfl

theorem findSome?_under (key : String) (es : List (String × Node))
    (g : String × Node → Option Failure) :
    (Node.under key es).findSome? g
      = es.findSome? fun e => if e.1 = key then e.2.entries.findSome? g else none := by
  unfold Node.under
  rw [findSome?_flatMap]
  congr 1
  funext e
  split <;> rfl

theorem fault_configKey (configs : AdhocStorageConfigMap) (child : String × Node) :
    fault (configKey isNull status configs child) = if child.1 = "adhoc_storage" then
      child.2.entries.findSome? (entryFault isNull status) else none := by
  unfold configKey
  split
  · exact fault_foldlM fault_adhocStorageKey _ _
  · rfl

theorem fault_mapError {α : Type} (x : Load α) (f : Failure → Failure) :
    fault (x.mapError f) = (fault x).map f := by
  cases x <;> rfl

theorem fault_rootKey (configs : AdhocStorageConfigMap) (child : String × Node) :
    fault (rootKey isNull status configs child) = (if child.1 = "config" then
      (Node.under "adhoc_storage" child.2.entries).findSome? (entryFault isNull status)
        else none).map Failure.rethrow := by
  unfold rootKey
  split
  · rw [fault_mapError, findSome?_under]
    exact congrArg _ (fault_foldlM fault_configKey _ _)
  · rfl

/-- **The constructor** dereferences an empty optional exactly when the first adhoc
    storage that does not load does. -/
theorem configFile_undefined_iff (document : Option Node) :
    configFile isNull status document = .error .undefined ↔
      (adhocEntries document).findSome? (entryFault isNull status) = some .undefined := by
  cases document with
  | none => exact ⟨fun h => (nomatch h), fun h => (nomatch h)⟩
  | some root =>
      have hloop : fault (root.entries.foldlM (rootKey isNull status) [])
          = ((adhocEntries (some root)).findSome? (entryFault isNull status)).map
              Failure.rethrow := by
        rw [fault_foldlM fault_rootKey]
        simp only [adhocEntries, findSome?_under]
        exact (List.map_findSome? ..).symm
      -- an exception is rethrown as another one, undefined behaviour is not
      have hrethrow : ∀ f : Failure, f.rethrow = .undefined ↔ f = .undefined := by
        intro f
        cases f <;> simp [Failure.rethrow]
      have hresult : configFile isNull status (some root) = .error .undefined ↔
          fault (root.entries.foldlM (rootKey isNull status) []) = some .undefined := by
        show (root.entries.foldlM (rootKey isNull status) [] >>=
          fun configs => (pure ⟨configs⟩ : Load ConfigFile)) = .error .undefined ↔ _
        cases root.entries.foldlM (rootKey isNull status) [] with
        | error f => simp
        | ok configs => exact iff_of_false (fun h => by cases h) fun h => by cases h
      rw [hresult, hloop, Option.map_eq_some_iff]
      refine ⟨?_, fun h => ⟨.undefined, h, rfl⟩⟩
      rintro ⟨f, hf, hrethrown⟩
      rw [hf, (hrethrow f).mp hrethrown]

/-! ## What a document that loads gives -/

/-- Every configuration comes from an adhoc storage of its type, and is complete. -/
def Complete (status : Path → Option Bool) (entries : List (String × Node))
    (configs : AdhocStorageConfigMap) : Prop :=
  ∀ t ∈ configs, ∃ e ∈ entries, toAdhocStorageType e.1 = .ok t.1 ∧ ConfigOf status e.2 t.2

theorem Complete.mono {entries entries' : List (String × Node)} {configs : AdhocStorageConfigMap}
    (h : Complete status entries configs) (hsub : ∀ e ∈ entries, e ∈ entries') :
    Complete status entries' configs := by
  intro t ht
  obtain ⟨e, he, hconfig⟩ := h t ht
  exact ⟨e, hsub e he, hconfig⟩

theorem complete_nil (entries : List (String × Node)) : Complete status entries [] :=
  fun _ ht => absurd ht List.not_mem_nil

theorem parseAdhocStorageNode_complete {node : Node} {configs : AdhocStorageConfigMap}
    (h : parseAdhocStorageNode isNull status node = .ok configs) :
    Complete status node.entries configs := by
  refine foldlM_invariant (I := Complete status) h (complete_nil []) ?_
  intro done child configs configs' _ hi hs
  obtain ⟨t, ht, hs⟩ := bind_eq_ok.mp hs
  obtain ⟨c, hc, hs⟩ := bind_eq_ok.mp hs
  cases hs
  have hold : Complete status (done ++ [child]) configs :=
    hi.mono fun e he => List.mem_append_left _ he
  have hnew : ConfigOf status child.2 c := by
    rcases parseAdhocConfigNode_cases isNull status child.2 with ⟨-, -, c', hc', hconfig⟩ |
      ⟨-, -, hundefined⟩ | ⟨-, e, hthrows⟩
    · cases hc.symm.trans hc'
      exact hconfig
    · cases hc.symm.trans hundefined
    · cases hc.symm.trans hthrows
  unfold emplace
  split
  -- the type is there already, and the new configuration is dropped
  · exact hold
  · intro u hu
    rcases List.mem_append.mp hu with hu | hu
    · exact hold u hu
    · rw [List.mem_singleton.mp hu]
      exact ⟨child, List.mem_concat_self, ht, hnew⟩

theorem parseConfigNode_complete {node : Node} {configs : AdhocStorageConfigMap}
    (h : parseConfigNode isNull status node = .ok configs) :
    Complete status (Node.under "adhoc_storage" node.entries) configs := by
  refine foldlM_invariant
    (I := fun _ => Complete status (Node.under "adhoc_storage" node.entries)) h
    (complete_nil _) ?_
  intro _ child configs configs' hchild hi hs
  unfold configKey at hs
  split at hs
  · next hkey =>
      refine (parseAdhocStorageNode_complete hs).mono fun e he => ?_
      exact Node.mem_under.mpr ⟨child, hchild, hkey, he⟩
  · cases hs
    exact hi

theorem configFile_complete {document : Option Node} {config : ConfigFile}
    (h : configFile isNull status document = .ok config) :
    Complete status (adhocEntries document) config.adhocStorageConfigs := by
  cases document with
  | none => cases h
  | some root =>
      obtain ⟨configs, hconfigs, h⟩ := bind_eq_ok.mp h
      cases h
      refine foldlM_invariant (I := fun _ => Complete status (adhocEntries (some root))) hconfigs
        (complete_nil _) ?_
      intro _ child configs configs' hchild hi hs
      unfold rootKey at hs
      split at hs
      · next hkey =>
          cases hparse : parseConfigNode isNull status child.2 with
          | error f =>
              rw [hparse] at hs
              cases hs
          | ok configs'' =>
              rw [hparse] at hs
              cases hs
              refine (parseConfigNode_complete hparse).mono fun e he => ?_
              obtain ⟨parent, hparent, hname, he⟩ := Node.mem_under.mp he
              exact Node.mem_under.mpr
                ⟨parent, Node.mem_under.mpr ⟨child, hchild, hkey, hparent⟩, hname, he⟩
      · cases hs
        exact hi

/-- The constructor throws, or yields complete configurations from the file. -/
structure LoadsTotally (isNull : Node → Bool) (status : Path → Option Bool)
    (document : Option Node) : Prop where
  defined : configFile isNull status document ≠ .error .undefined
  complete : ∀ config, configFile isNull status document = .ok config →
    Complete status (adhocEntries document) config.adhocStorageConfigs

/-- **Loading is total exactly when** an adhoc storage that lacks a command is
    malformed besides, or comes after one that is. -/
theorem loadsTotally_iff (isNull : Node → Bool) (status : Path → Option Bool)
    (document : Option Node) :
    LoadsTotally isNull status document ↔
      ∀ before e after, adhocEntries document = before ++ e :: after → Lacks e.2 →
        ∃ b ∈ before ++ [e], Malformed isNull status b := by
  have htotal : LoadsTotally isNull status document ↔
      configFile isNull status document ≠ .error .undefined :=
    ⟨fun h => h.defined, fun h => ⟨h, fun _ => configFile_complete⟩⟩
  rw [htotal, ne_eq, configFile_undefined_iff, List.findSome?_eq_some_iff]
  refine ⟨fun hdefined before e after heq hlacks => ?_, ?_⟩
  · by_cases hmalformed : ∃ b ∈ before ++ [e], Malformed isNull status b
    · exact hmalformed
    · -- then the first one that lacks a command is dereferenced
      have hfault : entryFault isNull status e ≠ none := by
        rcases entryFault_cases isNull status e with
          ⟨-, hall, -⟩ | ⟨-, -, hundefined⟩ | ⟨-, e', hthrows⟩
        · exact absurd hlacks hall
        · exact hundefined ▸ Option.some_ne_none _
        · exact hthrows ▸ Option.some_ne_none _
      have hsome : ∃ f, (before ++ [e]).findSome? (entryFault isNull status) = some f := by
        refine Option.ne_none_iff_exists'.mp fun hnone => hfault ?_
        exact List.findSome?_eq_none_iff.mp hnone e
          (List.mem_concat_self)
      obtain ⟨f, hf⟩ := hsome
      obtain ⟨l₁, a, l₂, hsplit, ha, hl₁⟩ := List.findSome?_eq_some_iff.mp hf
      have hmem : a ∈ before ++ [e] := hsplit ▸ List.mem_append_right _ List.mem_cons_self
      rcases entryFault_cases isNull status a with ⟨-, -, hnone⟩ | ⟨-, -, hundefined⟩ | ⟨hbad, -⟩
      · cases ha.symm.trans hnone
      · refine absurd ⟨l₁, a, l₂ ++ after, ?_, hundefined, hl₁⟩ hdefined
        rw [heq, List.append_cons before e after, hsplit, List.append_assoc, List.cons_append]
      · exact absurd ⟨a, hmem, hbad⟩ hmalformed
  · rintro hall ⟨before, e, after, heq, hundefined, hbefore⟩
    -- up to the optional that is dereferenced, nothing throws
    have hclean : ∀ b, entryFault isNull status b = none ∨
        entryFault isNull status b = some .undefined →
        ¬ Malformed isNull status b := by
      rintro b hb hmalformed
      rcases entryFault_cases isNull status b with ⟨hnot, -⟩ | ⟨hnot, -⟩ | ⟨-, e', hthrows⟩
      · exact hnot hmalformed
      · exact hnot hmalformed
      · rw [hthrows] at hb
        rcases hb with hb | hb <;> cases hb
    have hlacks : Lacks e.2 := by
      rcases entryFault_cases isNull status e with ⟨-, -, hnone⟩ | ⟨-, hlacks, -⟩ | ⟨-, e', hthrows⟩
      · cases hundefined.symm.trans hnone
      · exact hlacks
      · cases hundefined.symm.trans hthrows
    obtain ⟨b, hb, hmalformed⟩ := hall before e after heq hlacks
    rcases List.mem_append.mp hb with hb | hb
    · exact hclean b (Or.inl (hbefore b hb)) hmalformed
    · rw [List.mem_singleton.mp hb] at hmalformed
      exact hclean e (Or.inr hundefined) hmalformed

end Document

/-- The documented structure: a working directory, a startup and a shutdown. -/
def documentedConfig : Node :=
  .map [("config", .map [("adhoc_storage", .map [("gekkofs", .map [
    ("working_directory", .scalar (some "/tmp/gekkofs") false),
    ("startup", .map [("command", .scalar (some "/bin/gkfs start") false)]),
    ("shutdown", .map [("command", .scalar (some "/bin/gkfs stop") false)])])])])]

/-- It has no commands to expand and to shrink. -/
theorem not_loadsTotally_documented :
    ¬ LoadsTotally Node.valIsNull (fun _ => some true) (some documentedConfig) :=
  fun h => h.defined rfl

end Config

end ScordCtl

/-
  Scord.Daemon.Pidfile

  The pidfile of the daemons (`write_pidfile`, `server::run` and
  `server::teardown`): any number of processes that are configured with the same
  pidfile, started, stopped and killed in any order.

  A process holds the lock on the pidfile while it writes its pid, and no longer.
-/
import Scord.Lib.AdvisoryLock
import Scord.Lib.StepSystem

namespace Scord.Daemon

open AdvisoryLock StepSystem

/-! ## The processes -/

abbrev Pid := Nat

/-- `std::to_string(getpid())` -/
def pidText (p : Pid) : List Char := Nat.toDigits 10 p

/-- How far a process is; `fd` is its open file. -/
inductive Phase
  | started
  | opened (fd : Nat)
  | locked (fd : Nat)
  | written (fd : Nat)
  /-- `write_pidfile` has returned -/
  | running
deriving DecidableEq, Repr

structure Process where
  daemonize : Bool
  phase : Phase
deriving DecidableEq, Repr

structure Host where
  files : Files Pid
  procs : Pid → Option Process

namespace Phase

/-- The file whose lock the process has. -/
def holds : Phase → Option Nat
  | started => none
  | opened _ => none
  | locked fd => some fd
  | written fd => some fd
  | running => none

/-- The process has had the lock. -/
def active : Phase → Bool
  | started => false
  | opened _ => false
  | locked _ => true
  | written _ => true
  | running => true

theorem active_of_holds {phase : Phase} {fd : Nat} (h : phase.holds = some fd) :
    phase.active = true := by
  cases phase with
  | locked fd => rfl
  | written fd => rfl
  | _ => cases h

/-- The end of a process closes its file. -/
def closeOn (p : Pid) (files : Files Pid) : Phase → Files Pid
  | started => files
  | opened fd => files.close p fd
  | locked fd => files.close p fd
  | written fd => files.close p fd
  | running => files

end Phase

namespace Host

/-- No process runs; the pidfile is absent, or has some content. -/
def start (previous : Option (List Char)) : Host := ⟨Files.start previous, fun _ => none⟩

/-- The host with another phase of a process, or without it. -/
def set (h : Host) (files : Files Pid) (p : Pid) (proc : Option Process) : Host :=
  ⟨files, Function.update h.procs p proc⟩

inductive Event
  | start (p : Pid) (daemonize : Bool)
  | openFile (p : Pid)
  | lock (p : Pid)
  /-- `write` returns `n` -/
  | write (p : Pid) (n : Nat)
  | close (p : Pid)
  /-- a running process is shut down -/
  | exit (p : Pid)
  /-- the process is killed, or an error ends it -/
  | die (p : Pid)

def step (h : Host) : Event → Option Host
  | .start p daemonize =>
      match h.procs p with
      | none => some (h.set h.files p (some ⟨daemonize, .started⟩))
      | some _ => none
  | .openFile p =>
      match h.procs p with
      | some ⟨daemonize, .started⟩ =>
          let (files, fd) := h.files.openCreate
          some (h.set files p (some ⟨daemonize, .opened fd⟩))
      | _ => none
  | .lock p =>
      match h.procs p with
      | some ⟨daemonize, .opened fd⟩ =>
          match h.files.tryLock p fd with
          | some files => some (h.set files p (some ⟨daemonize, .locked fd⟩))
          -- another instance of this daemon may already be running
          | none => some (h.set (h.files.close p fd) p none)
      | _ => none
  | .write p n =>
      match h.procs p with
      | some ⟨daemonize, .locked fd⟩ =>
          if n = (pidText p).length then
            some (h.set (h.files.write fd (pidText p)) p (some ⟨daemonize, .written fd⟩))
          else if n < (pidText p).length then
            some (h.set ((h.files.write fd ((pidText p).take n)).close p fd) p none)
          else none
      | _ => none
  | .close p =>
      match h.procs p with
      -- the lock is released here
      | some ⟨daemonize, .written fd⟩ =>
          some (h.set (h.files.close p fd) p (some ⟨daemonize, .running⟩))
      | _ => none
  | .exit p =>
      match h.procs p with
      | some ⟨daemonize, .running⟩ =>
          some (h.set (if daemonize then h.files.unlink else h.files) p none)
      | _ => none
  | .die p =>
      match h.procs p with
      | some proc => some (h.set (proc.phase.closeOn p h.files) p none)
      | none => none

/-! ## One daemon at a time -/

/-- The process has returned normally from `write_pidfile`, and runs. -/
def Running (h : Host) (p : Pid) : Prop := ∃ daemonize, h.procs p = some ⟨daemonize, .running⟩

/-- There is one running process at most, and the pidfile has its pid. -/
structure Exclusive (h : Host) : Prop where
  one : ∀ p q, h.Running p → h.Running q → p = q
  content : ∀ p, h.Running p → ∃ fd, h.files.entry = some fd ∧ h.files.content fd = pidText p

/-- A lock is granted only while no process runs, and on the file that the name
    leads to; a pid is written only over a text that is not longer. -/
def Guarded (h : Host) : Event → Prop
  | .lock p => ∀ daemonize fd, h.procs p = some ⟨daemonize, .opened fd⟩ →
      h.files.owner fd = none → (∀ q, ¬ h.Running q) ∧ h.files.entry = some fd
  | .write p n => ∀ daemonize fd, h.procs p = some ⟨daemonize, .locked fd⟩ →
      n = (pidText p).length → (h.files.content fd).length ≤ (pidText p).length
  | _ => True

/-! ## The invariant -/

def Active (h : Host) (p : Pid) : Prop := ∃ proc, h.procs p = some proc ∧ proc.phase.active = true

structure Inv (h : Host) : Prop where
  active : ∀ p q, h.Active p → h.Active q → p = q
  held : ∀ p proc fd, h.procs p = some proc → proc.phase.holds = some fd →
    h.files.entry = some fd ∧ h.files.owner fd = some p
  owner : ∀ fd p, h.files.owner fd = some p →
    ∃ proc, h.procs p = some proc ∧ proc.phase.holds = some fd
  written : ∀ p daemonize fd, h.procs p = some ⟨daemonize, .written fd⟩ →
    h.files.content fd = pidText p
  running : ∀ p, h.Running p → ∃ fd, h.files.entry = some fd ∧ h.files.content fd = pidText p

theorem inv_start (previous : Option (List Char)) : (start previous).Inv where
  active := by
    rintro p q ⟨proc, hproc, -⟩
    cases hproc
  held := nofun
  owner := by
    intro fd p howner
    cases previous <;> cases howner
  written := nofun
  running := by
    rintro p ⟨daemonize, hproc⟩
    cases hproc

section Steps

variable {h h' : Host} {p : Pid}

theorem Running.active (hr : h.Running p) : h.Active p := by
  obtain ⟨daemonize, hproc⟩ := hr
  exact ⟨_, hproc, rfl⟩

/-- An active process runs, or has the lock on its file. -/
theorem Active.cases (ha : h.Active p) :
    h.Running p ∨ ∃ proc fd, h.procs p = some proc ∧ proc.phase.holds = some fd := by
  obtain ⟨⟨daemonize, phase⟩, hproc, hactive⟩ := ha
  cases phase with
  | started => cases hactive
  | opened fd => cases hactive
  | locked fd => exact .inr ⟨_, fd, hproc, rfl⟩
  | written fd => exact .inr ⟨_, fd, hproc, rfl⟩
  | running => exact .inl ⟨daemonize, hproc⟩

/-- While a process is active, the name leads to a file. -/
theorem Inv.entry_of_active (hi : h.Inv) (ha : h.Active p) : ∃ fd, h.files.entry = some fd := by
  rcases ha.cases with hrunning | ⟨proc, fd, hproc, hholds⟩
  · obtain ⟨fd, hentry, -⟩ := hi.running p hrunning
    exact ⟨fd, hentry⟩
  · exact ⟨fd, (hi.held p proc fd hproc hholds).1⟩

/-- Another phase of one process, and the others as they were. -/
theorem procs_set {files : Files Pid} {new proc : Option Process} {q : Pid} :
    (h.set files p new).procs q = proc ↔ q = p ∧ new = proc ∨ q ≠ p ∧ h.procs q = proc := by
  by_cases hq : q = p
  · subst hq
    simp [set]
  · simp [set, hq]

theorem active_set {files : Files Pid} {new : Option Process} {q : Pid} :
    (h.set files p new).Active q ↔
      (q = p ∧ ∃ proc, new = some proc ∧ proc.phase.active = true) ∨ q ≠ p ∧ h.Active q := by
  unfold Active
  simp only [procs_set]
  constructor
  · rintro ⟨proc, ⟨rfl, hnew⟩ | ⟨hq, hproc⟩, hactive⟩
    · exact Or.inl ⟨rfl, proc, hnew, hactive⟩
    · exact Or.inr ⟨hq, proc, hproc, hactive⟩
  · rintro (⟨rfl, proc, hnew, hactive⟩ | ⟨hq, proc, hproc, hactive⟩)
    · exact ⟨proc, Or.inl ⟨rfl, hnew⟩, hactive⟩
    · exact ⟨proc, Or.inr ⟨hq, hproc⟩, hactive⟩

/-- Every step is about one process and the files.  The others keep what they
    have, and the one has what its new phase says. -/
theorem Inv.set (hi : h.Inv) {files : Files Pid} {new : Option Process}
    (hentry : ∀ q ≠ p, h.Active q → files.entry = h.files.entry)
    (hcontent : ∀ q ≠ p, h.Active q → ∀ fd, h.files.entry = some fd →
      files.content fd = h.files.content fd)
    (howner : ∀ q ≠ p, ∀ fd, files.owner fd = some q ↔ h.files.owner fd = some q)
    (hactive : ∀ proc, new = some proc → proc.phase.active = true →
      ∀ q ≠ p, ¬ h.Active q)
    (hheld : ∀ proc fd, new = some proc → proc.phase.holds = some fd →
      files.entry = some fd ∧ files.owner fd = some p)
    (hown : ∀ fd, files.owner fd = some p →
      ∃ proc, new = some proc ∧ proc.phase.holds = some fd)
    (hwritten : ∀ daemonize fd, new = some ⟨daemonize, .written fd⟩ →
      files.content fd = pidText p)
    (hrunning : ∀ daemonize, new = some ⟨daemonize, .running⟩ →
      ∃ fd, files.entry = some fd ∧ files.content fd = pidText p) :
    (h.set files p new).Inv := by
  -- what another process holds, or has written, is the file of the name
  have hfile : ∀ q ≠ p, h.Active q → ∀ fd, h.files.entry = some fd →
      files.entry = some fd ∧ files.content fd = h.files.content fd :=
    fun q hq ha fd hfd => ⟨(hentry q hq ha).trans hfd, hcontent q hq ha fd hfd⟩
  refine
    { active := ?active
      held := ?held
      owner := ?owner
      written := ?written
      running := ?running }
  case active =>
    intro q r hq hr
    rcases active_set.mp hq with ⟨rfl, proc, hnew, hphase⟩ | ⟨hqp, hqa⟩
    · rcases active_set.mp hr with ⟨rfl, -⟩ | ⟨hrp, hra⟩
      · rfl
      · exact absurd hra (hactive proc hnew hphase r hrp)
    · rcases active_set.mp hr with ⟨rfl, proc, hnew, hphase⟩ | ⟨-, hra⟩
      · exact absurd hqa (hactive proc hnew hphase q hqp)
      · exact hi.active q r hqa hra
  case held =>
    intro q proc fd hproc hholds
    rcases procs_set.mp hproc with ⟨rfl, hnew⟩ | ⟨hqp, hold⟩
    · exact hheld proc fd hnew hholds
    · obtain ⟨hfd, hq⟩ := hi.held q proc fd hold hholds
      have ha : h.Active q := ⟨proc, hold, Phase.active_of_holds hholds⟩
      exact ⟨(hfile q hqp ha fd hfd).1, (howner q hqp fd).mpr hq⟩
  case owner =>
    intro fd q hq
    by_cases hqp : q = p
    · subst hqp
      obtain ⟨proc, hnew, hholds⟩ := hown fd hq
      exact ⟨proc, procs_set.mpr (Or.inl ⟨rfl, hnew⟩), hholds⟩
    · obtain ⟨proc, hold, hholds⟩ := hi.owner fd q ((howner q hqp fd).mp hq)
      exact ⟨proc, procs_set.mpr (Or.inr ⟨hqp, hold⟩), hholds⟩
  case written =>
    intro q daemonize fd hproc
    rcases procs_set.mp hproc with ⟨rfl, hnew⟩ | ⟨hqp, hold⟩
    · exact hwritten daemonize fd hnew
    · have hfd := (hi.held q _ fd hold rfl).1
      exact (hfile q hqp ⟨_, hold, rfl⟩ fd hfd).2.trans (hi.written q daemonize fd hold)
  case running =>
    rintro q ⟨daemonize, hproc⟩
    rcases procs_set.mp hproc with ⟨rfl, hnew⟩ | ⟨hqp, hold⟩
    · exact hrunning daemonize hnew
    · obtain ⟨fd, hfd, htext⟩ := hi.running q ⟨daemonize, hold⟩
      obtain ⟨hentry', hcontent'⟩ := hfile q hqp ⟨_, hold, rfl⟩ fd hfd
      exact ⟨fd, hentry', hcontent'.trans htext⟩

/-- The owner of a lock is in a phase that holds it. -/
theorem Inv.holds_of_owner (hi : h.Inv) {proc : Process} (hproc : h.procs p = some proc) {fd : Nat}
    (howner : h.files.owner fd = some p) : proc.phase.holds = some fd := by
  obtain ⟨proc', hproc', hholds⟩ := hi.owner fd p howner
  rw [hproc] at hproc'
  cases hproc'
  exact hholds

/-- No other process is active. -/
theorem Inv.not_active_other (hi : h.Inv) (ha : h.Active p) : ∀ q ≠ p, ¬ h.Active q :=
  fun q hq haq => hq (hi.active q p haq ha)

theorem Inv.started (hi : h.Inv) (hproc : h.procs p = none) (daemonize : Bool) :
    (h.set h.files p (some ⟨daemonize, .started⟩)).Inv := by
  apply hi.set
  case hentry => exact fun _ _ _ => rfl
  case hcontent => exact fun _ _ _ _ _ => rfl
  case howner => exact fun _ _ _ => Iff.rfl
  case hactive =>
    rintro proc ⟨⟩ hactive
    cases hactive
  case hheld =>
    rintro proc fd ⟨⟩ hholds
    cases hholds
  case hown =>
    intro fd howner
    obtain ⟨proc, hproc', -⟩ := hi.owner fd p howner
    rw [hproc] at hproc'
    cases hproc'
  case hwritten => rintro _ _ ⟨⟩
  case hrunning => rintro _ ⟨⟩

theorem Inv.openFile (hi : h.Inv) {daemonize : Bool}
    (hproc : h.procs p = some ⟨daemonize, .started⟩) :
    (h.set h.files.openCreate.1 p (some ⟨daemonize, .opened h.files.openCreate.2⟩)).Inv := by
  -- while another process is active, the file is there, and it is the one that is opened
  have hsame : ∀ q, h.Active q → h.files.openCreate.1 = h.files := by
    intro q ha
    obtain ⟨fd, hfd⟩ := hi.entry_of_active ha
    rw [Files.openCreate_of_entry hfd]
  apply hi.set
  case hentry => exact fun q _ ha => by rw [hsame q ha]
  case hcontent => exact fun q _ ha fd _ => by rw [hsame q ha]
  case howner => exact fun q _ fd => by rw [Files.owner_openCreate]
  case hactive =>
    rintro proc ⟨⟩ hactive
    cases hactive
  case hheld =>
    rintro proc fd ⟨⟩ hholds
    cases hholds
  case hown =>
    intro fd howner
    rw [Files.owner_openCreate] at howner
    cases hi.holds_of_owner hproc howner
  case hwritten => rintro _ _ ⟨⟩
  case hrunning => rintro _ ⟨⟩

/-- A process that is not the owner of any lock is gone. -/
theorem Inv.gone (hi : h.Inv) {proc : Process} (hproc : h.procs p = some proc) {files : Files Pid}
    (hentry : ∀ q ≠ p, h.Active q → files.entry = h.files.entry)
    (hcontent : ∀ q ≠ p, h.Active q → files.content = h.files.content)
    (howner : ∀ q ≠ p, ∀ fd, files.owner fd = some q ↔ h.files.owner fd = some q)
    (hown : ∀ fd, proc.phase.holds = some fd → files.owner fd ≠ some p)
    (hsub : ∀ fd, files.owner fd = some p → h.files.owner fd = some p) :
    (h.set files p none).Inv := by
  apply hi.set hentry
  case hcontent => exact fun q hq ha fd _ => by rw [hcontent q hq ha]
  case howner => exact howner
  case hactive => rintro proc ⟨⟩
  case hheld => rintro proc fd ⟨⟩
  case hown =>
    intro fd hfd
    exact absurd hfd (hown fd (hi.holds_of_owner hproc (hsub fd hfd)))
  case hwritten => rintro _ _ ⟨⟩
  case hrunning => rintro _ ⟨⟩

/-- The end of a process that closes its file on the way. -/
theorem Inv.closed (hi : h.Inv) {proc : Process} (hproc : h.procs p = some proc) {fd : Nat}
    (hholds : ∀ fd', proc.phase.holds = some fd' → fd' = fd) :
    (h.set (h.files.close p fd) p none).Inv := by
  apply hi.gone hproc
  case hentry => exact fun _ _ _ => Files.entry_close
  case hcontent => exact fun _ _ _ => Files.content_close
  case howner => exact fun q hq fd' => Files.owner_close_iff hq
  case hown =>
    intro fd' hfd' howner
    exact (Files.owner_of_close howner).2 ⟨hholds fd' hfd', rfl⟩
  case hsub => exact fun fd' howner => (Files.owner_of_close howner).1

/-- The lock is granted while nobody runs, on the file that the name leads to. -/
theorem Inv.lock (hi : h.Inv) {daemonize : Bool} {fd : Nat}
    (hproc : h.procs p = some ⟨daemonize, .opened fd⟩) {files : Files Pid}
    (hgranted : h.files.tryLock p fd = some files)
    (hguard : h.files.owner fd = none → (∀ q, ¬ h.Running q) ∧ h.files.entry = some fd) :
    (h.set files p (some ⟨daemonize, .locked fd⟩)).Inv := by
  obtain ⟨hfree, hownerEq, hentryEq, hcontentEq⟩ := Files.tryLock_cases hgranted
  have hnone : h.files.owner fd = none := by
    refine hfree.resolve_right fun howner => ?_
    cases hi.holds_of_owner hproc howner
  obtain ⟨hidle, hentry⟩ := hguard hnone
  apply hi.set
  case hentry => exact fun _ _ _ => hentryEq
  case hcontent => exact fun _ _ _ _ _ => by rw [hcontentEq]
  case howner =>
    intro q hq fd'
    rw [hownerEq]
    by_cases hfd : fd' = fd
    · subst hfd
      simp [hnone, hq.symm]
    · rw [Function.update_of_ne hfd]
  case hactive =>
    -- another active process would have the lock on this file
    rintro proc ⟨⟩ - q hq ha
    rcases ha.cases with hrunning | ⟨proc, fd', hproc', hholds⟩
    · exact hidle q hrunning
    · obtain ⟨hentry', howner'⟩ := hi.held q proc fd' hproc' hholds
      rw [hentry] at hentry'
      cases hentry'
      rw [hnone] at howner'
      cases howner'
  case hheld =>
    rintro proc fd' ⟨⟩ ⟨⟩
    refine ⟨hentryEq.trans hentry, ?_⟩
    rw [hownerEq, Function.update_self]
  case hown =>
    intro fd' howner
    by_cases hfd : fd' = fd
    · subst hfd
      exact ⟨_, rfl, rfl⟩
    · rw [hownerEq, Function.update_of_ne hfd] at howner
      cases hi.holds_of_owner hproc howner
  case hwritten => rintro _ _ ⟨⟩
  case hrunning => rintro _ ⟨⟩

/-- The pid is written over a text that is not longer. -/
theorem Inv.write (hi : h.Inv) {daemonize : Bool} {fd : Nat}
    (hproc : h.procs p = some ⟨daemonize, .locked fd⟩)
    (hguard : (h.files.content fd).length ≤ (pidText p).length) :
    (h.set (h.files.write fd (pidText p)) p (some ⟨daemonize, .written fd⟩)).Inv := by
  have hother := hi.not_active_other ⟨_, hproc, rfl⟩
  obtain ⟨hentry, howner⟩ := hi.held p _ fd hproc rfl
  apply hi.set
  case hentry => exact fun _ _ _ => Files.entry_write
  case hcontent => exact fun q hq ha => absurd ha (hother q hq)
  case howner => exact fun _ _ _ => by rw [Files.owner_write]
  case hactive => exact fun _ _ _ => hother
  case hheld =>
    rintro proc fd' ⟨⟩ ⟨⟩
    exact ⟨Files.entry_write.trans hentry, by rw [Files.owner_write, howner]⟩
  case hown =>
    intro fd' howner'
    rw [Files.owner_write] at howner'
    exact ⟨_, rfl, hi.holds_of_owner hproc howner'⟩
  case hwritten =>
    rintro _ fd' ⟨⟩
    exact Files.content_write_of_length_le hguard
  case hrunning => rintro _ ⟨⟩

/-- A short write ends the process. -/
theorem Inv.shortWrite (hi : h.Inv) {daemonize : Bool} {fd : Nat}
    (hproc : h.procs p = some ⟨daemonize, .locked fd⟩) (text : List Char) :
    (h.set ((h.files.write fd text).close p fd) p none).Inv := by
  have hother := hi.not_active_other ⟨_, hproc, rfl⟩
  apply hi.gone hproc
  case hentry => exact fun _ _ _ => Files.entry_close
  case hcontent => exact fun q hq ha => absurd ha (hother q hq)
  case howner => exact fun q hq fd' => Files.owner_close_iff hq
  case hown =>
    rintro fd' ⟨⟩ howner
    exact (Files.owner_of_close howner).2 ⟨rfl, rfl⟩
  case hsub => exact fun fd' howner => (Files.owner_of_close howner).1

/-- `write_pidfile` returns, and the lock is released. -/
theorem Inv.close (hi : h.Inv) {daemonize : Bool} {fd : Nat}
    (hproc : h.procs p = some ⟨daemonize, .written fd⟩) :
    (h.set (h.files.close p fd) p (some ⟨daemonize, .running⟩)).Inv := by
  have hother := hi.not_active_other ⟨_, hproc, rfl⟩
  obtain ⟨hentry, howner⟩ := hi.held p _ fd hproc rfl
  apply hi.set
  case hentry => exact fun _ _ _ => Files.entry_close
  case hcontent => exact fun _ _ _ _ _ => by rw [Files.content_close]
  case howner => exact fun q hq fd' => Files.owner_close_iff hq
  case hactive => exact fun _ _ _ => hother
  case hheld =>
    rintro proc fd' ⟨⟩ hholds
    cases hholds
  case hown =>
    intro fd' howner'
    obtain ⟨hheld, hnot⟩ := Files.owner_of_close howner'
    cases hi.holds_of_owner hproc hheld
    exact absurd ⟨rfl, rfl⟩ hnot
  case hwritten => rintro _ _ ⟨⟩
  case hrunning =>
    rintro _ ⟨⟩
    refine ⟨fd, Files.entry_close.trans hentry, ?_⟩
    rw [Files.content_close]
    exact hi.written p daemonize fd hproc

/-- A running process stops, and a daemon removes the pidfile. -/
theorem Inv.exit (hi : h.Inv) {daemonize : Bool}
    (hproc : h.procs p = some ⟨daemonize, .running⟩) :
    (h.set (if daemonize then h.files.unlink else h.files) p none).Inv := by
  have hother := hi.not_active_other ⟨_, hproc, rfl⟩
  have howner : (if daemonize then h.files.unlink else h.files).owner = h.files.owner := by
    split
    · exact Files.owner_unlink
    · rfl
  apply hi.gone hproc
  case hentry => exact fun q hq ha => absurd ha (hother q hq)
  case hcontent => exact fun q hq ha => absurd ha (hother q hq)
  case howner => exact fun _ _ _ => by rw [howner]
  case hown => rintro fd ⟨⟩
  case hsub => exact fun fd hfd => howner ▸ hfd

theorem Inv.die (hi : h.Inv) {proc : Process} (hproc : h.procs p = some proc) :
    (h.set (proc.phase.closeOn p h.files) p none).Inv := by
  obtain ⟨daemonize, phase⟩ := proc
  have hnothing : phase.holds = none → (h.set h.files p none).Inv := by
    intro hholds
    apply hi.gone hproc
    case hentry => exact fun _ _ _ => rfl
    case hcontent => exact fun _ _ _ => rfl
    case howner => exact fun _ _ _ => Iff.rfl
    case hown =>
      intro fd hfd
      rw [hholds] at hfd
      cases hfd
    case hsub => exact fun _ hfd => hfd
  cases phase with
  | started => exact hnothing rfl
  | opened fd => exact hi.closed hproc nofun
  | locked fd => exact hi.closed hproc fun _ hfd => (Option.some.inj hfd).symm
  | written fd => exact hi.closed hproc fun _ hfd => (Option.some.inj hfd).symm
  | running => exact hnothing rfl

/-- Every guarded step keeps the invariant. -/
theorem Inv.step (hi : h.Inv) {e : Event} (hguard : h.Guarded e) (hs : h.step e = some h') :
    h'.Inv := by
  cases e with
  | start p daemonize =>
      simp only [Host.step] at hs
      split at hs
      case h_1 hproc =>
        cases hs
        exact hi.started hproc daemonize
      case h_2 => cases hs
  | openFile p =>
      simp only [Host.step] at hs
      split at hs
      case h_1 daemonize hproc =>
        cases hs
        exact hi.openFile hproc
      case h_2 => cases hs
  | lock p =>
      simp only [Host.step] at hs
      split at hs
      case h_1 daemonize fd hproc =>
        split at hs
        case h_1 files hgranted =>
          cases hs
          exact hi.lock hproc hgranted (hguard daemonize fd hproc)
        case h_2 =>
          cases hs
          exact hi.closed hproc nofun
      case h_2 => cases hs
  | write p n =>
      simp only [Host.step] at hs
      split at hs
      case h_1 daemonize fd hproc =>
        split at hs
        case isTrue hn =>
          cases hs
          exact hi.write hproc (hguard daemonize fd hproc hn)
        case isFalse =>
          split at hs
          · cases hs
            exact hi.shortWrite hproc _
          · cases hs
      case h_2 => cases hs
  | close p =>
      simp only [Host.step] at hs
      split at hs
      case h_1 daemonize fd hproc =>
        cases hs
        exact hi.close hproc
      case h_2 => cases hs
  | exit p =>
      simp only [Host.step] at hs
      split at hs
      case h_1 daemonize hproc =>
        cases hs
        exact hi.exit hproc
      case h_2 => cases hs
  | die p =>
      simp only [Host.step] at hs
      split at hs
      case h_1 proc hproc =>
        cases hs
        exact hi.die hproc
      case h_2 => cases hs

theorem Inv.exclusive (hi : h.Inv) : h.Exclusive :=
  ⟨fun p q hp hq => hi.active p q hp.active hq.active, hi.running⟩

end Steps

/-- **A pidfile admits one daemon in every run whose locks and writes are
    guarded**, whatever the file had in it before. -/
theorem exclusive_of_guarded (previous : Option (List Char)) (es : List Event)
    (h : StepsMeet Host.step Guarded (start previous) es) :
    Always Host.step Exclusive (start previous) es := by
  have hinv := h.always (inv_start previous) fun _ _ _ hi hguard hs => hi.step hguard hs
  exact hinv.mono fun _ hi => hi.exclusive

/-- A daemon that starts over an old pid of the same length, a second one that is
    refused the lock meanwhile, and that starts again after the exit of the first. -/
theorem exclusive_of_guarded_sample :
    Always Host.step Exclusive (start (some (pidText 17)))
      [.start 42 true, .openFile 42, .lock 42, .start 57 true, .openFile 57, .lock 57,
        .write 42 2, .close 42, .exit 42, .start 57 true, .openFile 57, .lock 57, .write 57 2,
        .close 57] := by
  apply exclusive_of_guarded
  refine .cons rfl trivial (.cons rfl trivial (.cons rfl ?_ (.cons rfl trivial (.cons rfl trivial
    (.cons rfl ?_ (.cons rfl ?_ (.cons rfl trivial (.cons rfl trivial (.cons rfl trivial
      (.cons rfl trivial (.cons rfl ?_ (.cons rfl ?_ (.cons rfl trivial ?_)))))))))))))
  · -- the first lock: no other process is there
    intro daemonize fd hproc _
    cases hproc
    refine ⟨?_, rfl⟩
    rintro q ⟨daemonize', hq⟩
    by_cases hq42 : q = 42
    · subst hq42
      cases hq
    · simp [set, start, Function.update_of_ne hq42] at hq
  · -- the second: the first process has it
    intro daemonize fd hproc howner
    cases hproc
    cases howner
  · -- two characters over two
    intro daemonize fd hproc _
    cases hproc
    decide
  · -- the third lock, on a new file: the first process is gone
    intro daemonize fd hproc _
    cases hproc
    refine ⟨?_, rfl⟩
    rintro q ⟨daemonize', hq⟩
    by_cases hq57 : q = 57
    · subst hq57
      cases hq
    · by_cases hq42 : q = 42
      · subst hq42
        cases hq
      · simp [set, start, Function.update_of_ne hq57, Function.update_of_ne hq42] at hq
  · -- two characters over none
    intro daemonize fd hproc _
    cases hproc
    decide
  · trivial

/-- The lock is released when `write_pidfile` returns, so a second daemon gets it. -/
theorem not_exclusive_second_daemon :
    ∃ h, run Host.step (start none)
        [.start 1 true, .openFile 1, .lock 1, .write 1 1, .close 1,
          .start 2 true, .openFile 2, .lock 2, .write 2 1, .close 2] = some h ∧
      ¬ h.Exclusive := by
  obtain ⟨h, hrun⟩ : ∃ h, run Host.step (start none)
        [.start 1 true, .openFile 1, .lock 1, .write 1 1, .close 1,
          .start 2 true, .openFile 2, .lock 2, .write 2 1, .close 2] = some h := ⟨_, rfl⟩
  refine ⟨h, hrun, fun hexclusive => ?_⟩
  have hfirst : h.Running 1 := by
    cases hrun
    exact ⟨true, rfl⟩
  have hsecond : h.Running 2 := by
    cases hrun
    exact ⟨true, rfl⟩
  exact absurd (hexclusive.one 1 2 hfirst hsecond) (by decide)

end Host

end Scord.Daemon

import BoostTest.Dump.Ledger
import BoostTest.Log.InitLog

/-! The log file of `prj_exec1`. What `show_last_dump` logs of a dump stays in
the buffer of the file sink when the dump is removed: the flush of the logger
comes within 3 s, and a process that is killed loses it. -/
namespace BoostTest.Dump
open FileSystem Signals Transition Log

inductive Text (β : Type) where
  | lastDump (trace : List β)
  | other (text : String)
  deriving DecidableEq, Repr

/-- A line, with what the pattern says of its time and thread; `main` is the
thread of its process. -/
structure Entry (β : Type) where
  time : Nat
  thread : Nat
  text : Text β
  deriving DecidableEq, Repr

variable {P β : Type}

def Entry.report (entry : Entry β) : Option (Nat × List β) :=
  match entry.text with
  | .lastDump trace => some (entry.thread, trace)
  | .other _ => none

def Record.report : Record β → Option (Nat × List β)
  | .reported life _ trace => some (life, trace)
  | .started _ _ | .created _ _ _ | .dumped _ _ _ _ | .shown _ | .ended _ _ => none

/-- From the return of `init_log` to that of `show_last_dump`. -/
def Stage.reports : Stage → Bool
  | .logging | .segvSet | .constructed => true
  | .begun | .terminateSet | .corePrepared | .pipeIgnored | .shown | .greeted | .ran | .caught
  | .leaving _ => false

namespace Lives

/-- What `show_last_dump` logs in the next statement. -/
def reporting (s : Lives P β) : Happening → Option (Nat × List β)
  | .exec _ => s.life.bind fun l =>
    match l.crash.process.frames, l.stage, s.io.readers l.number with
    | [], .constructed, .loaded _ trace => some (l.number, trace)
    | _, _, _ => none
  | .start | .throw | .refuse | .terminate | .deliver _ | .fault | .kill => none

/-- If the step ends the process, it is by the return of `main` or by the
`std::exit` of `terminate_handle`. -/
def returns (s : Lives P β) : Happening → Bool
  | .exec _ => s.life.any fun l => l.crash.process.frames.head?.all (·.code = .thrown)
  | .start | .throw | .refuse | .terminate | .deliver _ | .fault | .kill => false

end Lives

/-- The lives and the log that they share. `due` is when the buffer is to be
flushed next; `lost` are the lines that a process left in it, each with the time
at which it was killed. -/
structure Logged (P β : Type) where
  lives : Lives P β
  log : Logging (Entry β)
  now : Nat
  due : Nat
  lost : List (Nat × Entry β)

inductive Act where
  | happen (happening : Happening)
  /-- A line of another statement. -/
  | say (level : Level) (text : String)
  | spill (lines : Nat)
  | flush
  | tick (duration : Nat)
  deriving DecidableEq, Repr

namespace Logged

/-- `disk` is what the log file holds. -/
def init (files : Files P β) (disk : List (Entry β)) : Logged P β where
  lives := .init files
  log := ⟨defaultLogger, [], Function.update (fun _ => []) defaultPath disk⟩
  now := 0
  due := 0
  lost := []

def report (s : Logged P β) : Option (Nat × List β) → Logged P β
  | some (life, trace) => { s with log := s.log.step (.log .err ⟨s.now, life, .lastDump trace⟩) }
  | none => s

/-- What the step of the lives means for the log: `init_log` returns to `main`,
and the logger is destroyed if the process returns. -/
def follow (s : Logged P β) (returns : Bool) (lives : Lives P β) : Logged P β :=
  match s.lives.life, lives.life with
  | some l, some m =>
    if l.stage = .pipeIgnored ∧ m.stage = .logging then
      { s with
        lives
        log := s.log.initLog true .info false true defaultPath
        due := s.now + flushInterval }
    else { s with lives }
  | some _, none =>
    if returns then { s with lives, log := s.log.replace defaultLogger }
    else
      { s with
        lives
        log := { s.log with logger := defaultLogger }
        lost := s.lost ++ s.log.logger.unwritten.map (s.now, ·) }
  | none, _ => { s with lives, log := s.log.replace defaultLogger }

def step [DecidableEq P] (path : P) (capture : Nat → List β) (s : Logged P β) : Act → Option (Logged P β)
  | .happen happening => (s.lives.step path capture happening).map
    ((s.report (s.lives.reporting happening)).follow (s.lives.returns happening))
  | .say level text => s.lives.life.map fun l =>
    { s with log := s.log.step (.log level ⟨s.now, l.number, .other text⟩) }
  | .spill lines => s.lives.life.map fun _ => { s with log := s.log.step (.spill lines) }
  | .flush => s.lives.life.bind fun _ =>
    if s.due ≤ s.now then some { s with log := s.log.step .flush, due := s.now + flushInterval } else none
  | .tick duration => some { s with now := s.now + duration }

/-- Every dump can be opened, and the flush is at most `delay` late. -/
def Punctual (path : P) (delay : Nat) (s : Logged P β) : Act → Prop
  | .happen happening => s.lives.Readable path happening
  | .tick duration => s.log.logger.file.isSome = true → s.now + duration ≤ s.due + delay
  | .say _ _ | .spill _ | .flush => True

instance (path : P) [DecidableEq P] (delay : Nat) (s : Logged P β) (act : Act) : Decidable (s.Punctual path delay act) :=
  match act with
  | .happen happening => inferInstanceAs (Decidable (s.lives.Readable path happening))
  | .tick duration =>
    inferInstanceAs (Decidable (s.log.logger.file.isSome = true → s.now + duration ≤ s.due + delay))
  | .say _ _ | .spill _ | .flush => .isTrue trivial

/-- All lines of the log file, and those lost. -/
def entries (s : Logged P β) : List (Entry β) := s.log.lines defaultPath ++ s.lost.map Prod.snd

end Logged

namespace Lives
section Stepped
variable {path : P} {capture : Nat → List β} {s t : Lives P β} {l : Life}

theorem reporting_eq_none (alive : s.life = some l)
    (other : l.crash.process.frames ≠ [] ∨ l.stage ≠ .constructed) : s.reporting (.exec granted) = none := by
  simp only [reporting, alive, Option.bind_some]
  split
  · rename_i free stage _
    exact absurd stage (other.resolve_left (absurd free))
  · rfl

theorem reporting_stage (logs : s.reporting happening = some told) :
    ∃ l, s.life = some l ∧ l.stage = .constructed ∧ l.number = told.1 := by
  cases happening with
  | exec =>
    obtain ⟨l, alive, logs⟩ := Option.bind_eq_some_iff.mp logs
    split at logs
    · cases logs
      exact ⟨l, alive, ‹_›, rfl⟩
    · cases logs
  | start | throw | refuse | terminate | deliver | fault | kill => cases logs

/-- What `show_last_dump` logs is what it records. -/
theorem reporting_constructed (alive : s.life = some l) (free : l.crash.process.frames = [])
    (stage : l.stage = .constructed) : (s.reporting (.exec granted)).toList =
      ((s.io.readers l.number).record l.number).filterMap Record.report := by
  simp only [reporting, alive, Option.bind_some, free, stage]
  cases s.io.readers l.number <;> rfl

theorem settle_reports (s : Lives P β) (l : Life) (crash : Crash) :
    (s.settle l crash).history.filterMap Record.report = s.history.filterMap Record.report := by
  obtain same | ⟨ending, ended⟩ := settle_history s l crash
  · rw [same]
  · rw [ended, List.filterMap_append]
    exact List.append_nil _

variable [DecidableEq P]

theorem Stepped.reports (stepped : Stepped path capture s happening t) :
    t.history.filterMap Record.report =
      s.history.filterMap Record.report ++ (s.reporting happening).toList := by
  cases stepped with
  | start => simp [Lives.start, reporting, Record.report]
  | @move l stage _ alive free next =>
    have other : l.stage ≠ .constructed := fun same => (by simp [same, Stage.next] at next)
    simp [proceed, reporting_eq_none alive (.inr other)]
  | segv alive _ stage | abrt alive _ stage =>
    simp [proceed, reporting_eq_none alive (.inr (by simp [stage]))]
  | call alive free stage =>
    rw [reporting_constructed alive free stage]
    exact List.filterMap_append
  | pass alive free stage =>
    rw [reporting_constructed alive free stage]
    simp [List.filterMap_append, Record.report]
  | leave alive _ stage =>
    simp [bury, reporting_eq_none alive (.inr (by simp [stage])), Record.report]
  | handle alive top =>
    rw [settle_reports, reporting_eq_none alive (.inl (by simp [top]))]
    exact (List.append_nil _).symm
  | @handleCall l f outer event crash _ io alive top =>
    have silent : ((s.io.writers (s.entries + f.serial)).record capture l.number
        (s.entries + f.serial) (io.writers (s.entries + f.serial))).filterMap Record.report = [] := by
      refine List.filterMap_eq_nil_iff.mpr fun record member => ?_
      obtain ⟨file, rfl | rfl⟩ := Writer.record_cases member <;> rfl
    rw [settle_reports, reporting_eq_none alive (.inl (by simp [top])), List.filterMap_append, silent]
    rfl
  | throw | terminate => exact (List.append_nil _).symm
  | deliver | fault | failThrow | failRefuse =>
    exact (settle_reports _ _ _).trans (List.append_nil _).symm
  | kill => simp [bury, reporting, Record.report]

theorem Stepped.grows (stepped : Stepped path capture s happening t) :
    ∃ more, t.history = s.history ++ more := by
  have settled : ∀ (u : Lives P β) (l : Life) (crash : Crash), (∃ more, u.history = s.history ++ more) →
      ∃ more, (u.settle l crash).history = s.history ++ more := by
    intro u l crash ⟨more, grown⟩
    obtain same | ⟨ending, ended⟩ := settle_history u l crash
    · exact ⟨more, same.trans grown⟩
    · exact ⟨more ++ _, by rw [ended, grown, List.append_assoc]⟩
  cases stepped with
  | start | call | leave | kill => exact ⟨_, rfl⟩
  | pass => exact ⟨_, List.append_assoc _ _ _⟩
  | move | segv | abrt | throw | terminate => exact ⟨[], (List.append_nil _).symm⟩
  | handle | deliver | fault | failThrow | failRefuse =>
    exact settled _ _ _ ⟨[], (List.append_nil _).symm⟩
  | handleCall => exact settled _ _ _ ⟨_, rfl⟩

theorem Stepped.starts (stepped : Stepped path capture s happening t) (dead : s.life = none)
    (alive : t.life = some m) : m.stage.reports = false := by
  cases stepped with
  | start =>
    cases alive
    rfl
  | move before | segv before | abrt before | call before | pass before | leave before
  | handle before | handleCall before | throw before | failThrow before | failRefuse before
  | terminate before | deliver before | fault before | kill before =>
    cases dead.symm.trans before

/-- `main` comes to `show_last_dump` by `init_log`. -/
theorem Stepped.goes (stepped : Stepped path capture s happening t) (before : s.life = some l)
    (after : t.life = some m) : m.number = l.number ∧
      (m.stage.reports = true → l.stage.reports = true ∨ l.stage = .pipeIgnored ∧ m.stage = .logging) := by
  cases stepped with
  | start dead => cases dead.symm.trans before
  | @move _ stage _ alive _ next =>
    cases alive.symm.trans before
    cases after
    refine ⟨rfl, fun reports => .inr ?_⟩
    cases own : l.stage with
    | pipeIgnored =>
      rw [own] at next
      cases next
      exact ⟨rfl, rfl⟩
    | begun | terminateSet | corePrepared | logging | segvSet | constructed | shown | greeted | ran
    | caught | leaving =>
      rw [own] at next
      cases next <;> cases reports
  | segv alive _ stage | abrt alive _ stage | call alive _ stage =>
    cases alive.symm.trans before
    cases after
    exact ⟨rfl, fun _ => .inl (by rw [stage]; rfl)⟩
  | pass alive | throw alive | terminate alive =>
    cases alive.symm.trans before
    cases after
    exact ⟨rfl, nofun⟩
  | leave | kill => cases after
  | handle alive | handleCall alive | deliver alive | fault alive | failThrow alive
  | failRefuse alive =>
    cases alive.symm.trans before
    obtain ⟨rfl, _⟩ := settle_life after
    exact ⟨rfl, .inl⟩

omit [DecidableEq P] in
/-- A step of the handler that ends the process without a signal is the `std::exit`. -/
theorem settle_ends {u : Lives P β} {crash : Crash} (executed : l.crash.step input = some crash)
    (dead : (u.settle l crash).life = none) : ∃ ending, .ended l.number ending ∈ (u.settle l crash).history ∧
      ((∀ status, ending ≠ .returned status) ∨
        input = .exec ∧ ∃ f outer, l.crash.process.frames = f :: outer ∧ f.code = .thrown) := by
  obtain ⟨_, same⟩ | ⟨_, exited, same⟩ | ⟨_, same⟩ := u.settle_cases l crash <;> rw [same] at dead ⊢
  · exact ⟨_, List.mem_append_right _ (List.mem_singleton_self _), .inl (by simp)⟩
  · refine ⟨_, List.mem_append_right _ (List.mem_singleton_self _), .inr ?_⟩
    obtain ⟨ended, executed⟩ := Crash.Stepped.of_step executed
    have going := (Crash.ended_eq_false.mp ended).2
    cases executed with
    | exit top code => exact ⟨rfl, _, _, top, code⟩
    | deliver | faultEnter | faultKill | reset | prepare | «open» | dump | raise | leave | leavePending
    | refuse | throw => cases going.symm.trans exited
  · cases dead

theorem Stepped.ends (stepped : Stepped path capture s happening t) (before : s.life = some l)
    (after : t.life = none) : ∃ ending, .ended l.number ending ∈ t.history ∧
      (s.returns happening = false → ∀ status, ending ≠ .returned status) := by
  have strikes : ∀ {u : Lives P β} {input crash}, l.crash.step input = some crash → input ≠ .exec →
      (u.settle l crash).life = none → ∃ ending, .ended l.number ending ∈ (u.settle l crash).history ∧
        (s.returns happening = false → ∀ status, ending ≠ .returned status) := by
    intro u input crash executed other dead
    obtain ⟨ending, ended, killed | ⟨same, _⟩⟩ := settle_ends executed dead
    · exact ⟨ending, ended, fun _ => killed⟩
    · exact absurd same other
  cases stepped with
  | start => cases after
  | move | segv | abrt | call | pass | throw | terminate => cases after
  | leave alive free =>
    cases alive.symm.trans before
    refine ⟨_, List.mem_append_right _ (List.mem_singleton_self _), fun stays => ?_⟩
    simp [returns, alive, free] at stays
  | handle alive top _ executed | handleCall alive top _ _ executed =>
    cases alive.symm.trans before
    obtain ⟨ending, ended, killed | ⟨_, f, outer, frames, code⟩⟩ := settle_ends executed after
    · exact ⟨ending, ended, fun _ => killed⟩
    · refine ⟨ending, ended, fun stays => ?_⟩
      simp [returns, alive, frames, code] at stays
  | deliver alive executed | fault alive executed | failThrow alive _ executed
  | failRefuse alive _ executed =>
    cases alive.symm.trans before
    exact strikes executed (by simp) after
  | kill alive =>
    cases alive.symm.trans before
    exact ⟨_, List.mem_append_right _ (List.mem_singleton_self _), fun _ _ => by simp⟩

end Stepped
end Lives

namespace Logged
section Follow
variable {s : Logged P β} {returns : Bool} {lives : Lives P β} {l m : Life} {e : Entry β}

theorem report_keeps (s : Logged P β) (reported : Option (Nat × List β)) :
    (s.report reported).lives = s.lives ∧ (s.report reported).now = s.now ∧
    (s.report reported).due = s.due ∧ (s.report reported).lost = s.lost ∧
    (s.report reported).log.logger.file.map FileSink.filename =
      s.log.logger.file.map FileSink.filename := by
  cases reported with
  | none => exact ⟨rfl, rfl, rfl, rfl, rfl⟩
  | some told => exact ⟨rfl, rfl, rfl, rfl, Logger.filename_log _ _ _⟩

theorem report_uniform (uniform : s.log.logger.Uniform .info false true defaultPath) (reported : Option (Nat × List β)) :
    (s.report reported).log.logger.Uniform .info false true defaultPath := by
  cases reported with
  | none => exact uniform
  | some told => exact uniform.log _ _

/-- The logger that `main` has made takes an error. -/
theorem report_lines (ready : reported.isSome = true → s.log.logger.Uniform .info false true defaultPath) :
    ((s.report reported).log.lines defaultPath).filterMap Entry.report =
      (s.log.lines defaultPath).filterMap Entry.report ++ reported.toList := by
  cases reported with
  | none => exact (List.append_nil _).symm
  | some told =>
    obtain ⟨life, trace⟩ := told
    obtain ⟨_, _, lines⟩ := Logging.step_lines (ready rfl) (.log .err ⟨s.now, life, .lastDump trace⟩)
    have written := lines defaultPath
    rw [if_pos ⟨rfl, rfl⟩] at written
    simp only [report]
    rw [written, List.filterMap_append]
    rfl

theorem report_unwritten (kept : e ∈ (s.report reported).log.logger.unwritten) :
    e ∈ s.log.logger.unwritten ∨ e.time = s.now ∧ ∃ trace, reported = some (e.thread, trace) := by
  cases reported with
  | none => exact .inl kept
  | some told =>
    obtain old | rfl := Logger.mem_unwritten_log kept
    · exact .inl old
    · exact .inr ⟨rfl, told.2, rfl⟩

theorem follow_keeps (s : Logged P β) (returns : Bool) (lives : Lives P β) :
    (s.follow returns lives).lives = lives ∧ (s.follow returns lives).now = s.now := by
  unfold follow
  split
  · split <;> exact ⟨rfl, rfl⟩
  · split <;> exact ⟨rfl, rfl⟩
  · exact ⟨rfl, rfl⟩

/-- No line appears or disappears but from the buffer to `lost`. -/
theorem follow_entries (returns : Bool) (lives : Lives P β)
    (home : ∀ path, s.log.logger.file.map FileSink.filename = some path → path = defaultPath) :
    (s.follow returns lives).entries.Perm s.entries := by
  have replaced : ∀ {logger : Logger (Entry β)}, logger.unwritten = [] →
      (s.log.replace logger).lines defaultPath ++ s.lost.map Prod.snd = s.entries := by
    intro logger fresh
    rw [Logging.lines_replace _ fresh]
    rfl
  have here : s.log.logger.unwrittenTo defaultPath = s.log.logger.unwritten := by
    cases found : s.log.logger.file with
    | none => simp [Logger.unwrittenTo, Logger.unwritten, found]
    | some sink =>
      have own := home sink.filename (by rw [found]; rfl)
      exact own ▸ Logger.unwrittenTo_of_file found
  unfold follow
  split
  · split
    · exact .of_eq (replaced (Logger.unwritten_freshLogger .info false true defaultPath))
    · exact .refl _
  · split
    · exact .of_eq (replaced rfl)
    · have lost : (s.log.logger.unwritten.map (s.now, ·)).map Prod.snd = s.log.logger.unwritten := by
        simp [List.map_map, Function.comp_def]
      simp only [entries, Logging.lines, List.map_append, lost, here]
      change (s.log.disk defaultPath ++ [] ++ (s.lost.map Prod.snd ++ s.log.logger.unwritten)).Perm _
      rw [List.append_nil, List.append_assoc]
      exact .append_left _ List.perm_append_comm
  · exact .of_eq (replaced rfl)

/-- The log file is the only one. -/
theorem follow_home {path : String}
    (home : ∀ path, s.log.logger.file.map FileSink.filename = some path → path = defaultPath)
    (file : (s.follow returns lives).log.logger.file.map FileSink.filename = some path) :
    path = defaultPath := by
  unfold follow at file
  split at file
  · split at file
    · cases file
      rfl
    · exact home path file
  · split at file <;> cases file
  · cases file

/-- The buffer is that of a process that goes on. -/
theorem follow_unwritten (kept : e ∈ (s.follow returns lives).log.logger.unwritten) :
    e ∈ s.log.logger.unwritten ∧ (s.follow returns lives).due = s.due ∧
      ∃ l m, s.lives.life = some l ∧ lives.life = some m := by
  unfold follow at kept ⊢
  split at kept
  · split at kept
    · cases kept
    · rw [if_neg ‹_›]
      exact ⟨kept, rfl, _, _, ‹_›, ‹_›⟩
  · split at kept <;> cases kept
  · cases kept

theorem follow_lost (lost : (died, e) ∈ (s.follow returns lives).lost) :
    (died, e) ∈ s.lost ∨ died = s.now ∧ e ∈ s.log.logger.unwritten ∧ returns = false ∧
      lives.life = none ∧ ∃ l, s.lives.life = some l := by
  unfold follow at lost
  split at lost
  · split at lost <;> exact .inl lost
  · split at lost
    · exact .inl lost
    · obtain old | new := List.mem_append.mp lost
      · exact .inl old
      · obtain ⟨_, kept, same⟩ := List.mem_map.mp new
        cases same
        exact .inr ⟨rfl, kept, Bool.not_eq_true _ ▸ ‹_›, ‹_›, _, ‹_›⟩
  · exact .inl lost

theorem follow_uniform (before : s.lives.life = some l) (after : lives.life = some m)
    (ready : l.stage.reports = true → s.log.logger.Uniform .info false true defaultPath)
    (stage : l.stage.reports = true ∨ l.stage = .pipeIgnored ∧ m.stage = .logging) :
    (s.follow returns lives).log.logger.Uniform .info false true defaultPath := by
  simp only [follow, before, after]
  split
  · exact Logger.uniform_freshLogger _ _ _ _
  · exact ready (stage.resolve_right ‹_›)

/-- A flush is due after `init_log`. -/
theorem follow_due (file : (s.follow returns lives).log.logger.file.isSome = true) :
    (s.follow returns lives).due = s.now + flushInterval ∨
      (s.follow returns lives).due = s.due ∧ s.log.logger.file.isSome = true := by
  unfold follow at file ⊢
  split at file
  · split at file
    · rw [if_pos ‹_›]
      exact .inl rfl
    · rw [if_neg ‹_›]
      exact .inr ⟨rfl, file⟩
  · split at file <;> cases file
  · cases file

end Follow
/-- Where each line is that a process has logged. -/
structure Attended (told : List (Nat × List β)) (s : Logged P β) : Prop where
  ready : ∀ l, s.lives.life = some l → l.stage.reports = true →
    s.log.logger.Uniform .info false true defaultPath
  home : ∀ path, s.log.logger.file.map FileSink.filename = some path → path = defaultPath
  own : ∀ e ∈ s.log.logger.unwritten, ∃ l, s.lives.life = some l ∧ l.number = e.thread
  lost : ∀ died e, (died, e) ∈ s.lost →
    ∃ ending, .ended e.thread ending ∈ s.lives.history ∧ ∀ status, ending ≠ .returned status
  reports : (s.entries.filterMap Entry.report).Perm (told ++ s.lives.history.filterMap Record.report)

section Attended
variable {path : P} {capture : Nat → List β} {s t : Logged P β} {told : List (Nat × List β)}

/-- Lines are moved or added, other than reports. -/
theorem Attended.keep (attended : Attended told s) (lives : t.lives = s.lives) (lost : t.lost = s.lost)
    (uniform : s.log.logger.Uniform .info false true defaultPath →
      t.log.logger.Uniform .info false true defaultPath)
    (file : t.log.logger.file.map FileSink.filename = s.log.logger.file.map FileSink.filename)
    (unwritten : ∀ e ∈ t.log.logger.unwritten, e ∈ s.log.logger.unwritten ∨
      ∃ l, s.lives.life = some l ∧ l.number = e.thread)
    (lines : (t.log.lines defaultPath).filterMap Entry.report =
      (s.log.lines defaultPath).filterMap Entry.report) : Attended told t where
  ready := by
    rw [lives]
    exact fun l alive reports => uniform (attended.ready l alive reports)
  home := by
    rw [file]
    exact attended.home
  own := by
    rw [lives]
    exact fun e kept => (unwritten e kept).elim (attended.own e) id
  lost := by
    rw [lives, lost]
    exact attended.lost
  reports := by
    rw [lives, entries, List.filterMap_append, lines, lost, ← List.filterMap_append]
    exact attended.reports

theorem Attended.owned (attended : Attended told s)
    (kept : e ∈ (s.report (s.lives.reporting happening)).log.logger.unwritten)
    (alive : s.lives.life = some l) : l.number = e.thread := by
  have own : ∃ l, s.lives.life = some l ∧ l.number = e.thread := by
    obtain old | ⟨_, trace, new⟩ := report_unwritten kept
    · exact attended.own e old
    · obtain ⟨l, alive, _, number⟩ := Lives.reporting_stage new
      exact ⟨l, alive, number⟩
  obtain ⟨other, same, number⟩ := own
  cases alive.symm.trans same
  exact number

theorem Attended.happen [DecidableEq P] {lives : Lives P β} (attended : Attended told s)
    (stepped : Lives.Stepped path capture s.lives happening lives) :
    Attended told ((s.report (s.lives.reporting happening)).follow (s.lives.returns happening) lives) := by
  obtain ⟨same, _, _, unlost, filename⟩ := s.report_keeps (s.lives.reporting happening)
  obtain ⟨after, _⟩ := follow_keeps (s.report (s.lives.reporting happening)) (s.lives.returns happening) lives
  constructor
  case ready =>
    intro m alive reports
    rw [after] at alive
    cases before : s.lives.life with
    | none => cases (stepped.starts before alive).symm.trans reports
    | some l =>
      have stage := (stepped.goes before alive).2 reports
      rw [← same] at before
      refine follow_uniform before alive (fun early => ?_) stage
      exact report_uniform (attended.ready l (same ▸ before) early) _
  case home =>
    intro path
    exact follow_home fun path file => attended.home path (filename ▸ file)
  case own =>
    intro e kept
    rw [after]
    obtain ⟨kept, _, l, m, before, alive⟩ := follow_unwritten kept
    rw [same] at before
    have number := (stepped.goes before alive).1
    exact ⟨m, alive, number.trans (attended.owned kept before)⟩
  case lost =>
    intro died e gone
    rw [after]
    obtain old | ⟨_, kept, stays, dead, l, before⟩ := follow_lost gone
    · obtain ⟨ending, ended, killed⟩ := attended.lost died e (unlost ▸ old)
      obtain ⟨more, grown⟩ := stepped.grows
      exact ⟨ending, by rw [grown]; exact List.mem_append_left _ ended, killed⟩
    · rw [same] at before
      obtain ⟨ending, ended, killed⟩ := stepped.ends before dead
      exact ⟨ending, attended.owned kept before ▸ ended, killed stays⟩
  case reports =>
    have lines : ((s.report (s.lives.reporting happening)).log.lines defaultPath).filterMap Entry.report =
        (s.log.lines defaultPath).filterMap Entry.report ++ (s.lives.reporting happening).toList := by
      refine report_lines fun some => ?_
      obtain ⟨reported, logs⟩ := Option.isSome_iff_exists.mp some
      obtain ⟨l, alive, stage, _⟩ := Lives.reporting_stage logs
      exact attended.ready l alive (by rw [stage]; rfl)
    have home : ∀ path, (s.report (s.lives.reporting happening)).log.logger.file.map FileSink.filename =
        some path → path = defaultPath := fun path file => attended.home path (filename ▸ file)
    refine ((follow_entries _ _ home).filterMap _).trans ?_
    have grown := attended.reports
    rw [entries, List.filterMap_append] at grown
    rw [after, entries, List.filterMap_append, lines, unlost, stepped.reports, ← List.append_assoc]
    have moved : ((s.lives.reporting happening).toList ++ (s.lost.map Prod.snd).filterMap Entry.report).Perm
        ((s.lost.map Prod.snd).filterMap Entry.report ++ (s.lives.reporting happening).toList) :=
      List.perm_append_comm
    rw [List.append_assoc]
    refine (moved.append_left _).trans ?_
    rw [← List.append_assoc]
    exact grown.append_right _

theorem Attended.step [DecidableEq P] (attended : Attended told s)
    (stepped : s.step path capture act = some t) : Attended told t := by
  cases act with
  | happen happening =>
    obtain ⟨lives, happened, rfl⟩ := Option.map_eq_some_iff.mp stepped
    exact attended.happen (.of_step happened)
  | say level text =>
    obtain ⟨l, alive, rfl⟩ := Option.map_eq_some_iff.mp stepped
    refine attended.keep rfl rfl (fun uniform => uniform.log _ _) (Logger.filename_log _ _ _)
      (fun e kept => ?_) ?_
    · obtain old | rfl := Logger.mem_unwritten_log kept
      · exact .inl old
      · exact .inr ⟨l, alive, rfl⟩
    · obtain same | more := s.log.lines_log level ⟨s.now, l.number, .other text⟩ defaultPath
      · rw [same]
      · rw [more, List.filterMap_append]
        exact List.append_nil _
  | spill lines =>
    obtain ⟨l, alive, rfl⟩ := Option.map_eq_some_iff.mp stepped
    exact attended.keep rfl rfl (fun uniform => Logging.Uniform.write uniform _) (s.log.filename_write _)
      (fun e kept => .inl (Logging.mem_unwritten_write kept)) (by rw [Logging.step, Logging.lines_write])
  | flush =>
    obtain ⟨l, alive, stepped⟩ := Option.bind_eq_some_iff.mp stepped
    split at stepped
    · cases stepped
      exact attended.keep rfl rfl (fun uniform => Logging.Uniform.write uniform _) (s.log.filename_write _)
        (fun e kept => .inl (Logging.mem_unwritten_write kept)) (by rw [Logging.step, Logging.lines_write])
    · cases stepped
  | tick duration =>
    cases stepped
    exact attended.keep rfl rfl id rfl (fun e kept => .inl kept) rfl

end Attended

/-- How long a line waits for the flush. -/
structure Timely (delay : Nat) (s : Logged P β) : Prop where
  flusher : s.log.logger.file.isSome = true → s.due ≤ s.now + flushInterval ∧ s.now ≤ s.due + delay
  buffered : ∀ e ∈ s.log.logger.unwritten, s.due ≤ e.time + flushInterval
  lost : ∀ died e, (died, e) ∈ s.lost → died ≤ e.time + flushInterval + delay

section Timely
variable {path : P} {capture : Nat → List β} {s t : Logged P β} {delay : Nat}

theorem isSome_of_filename {file other : Option (FileSink (Entry β))}
    (same : file.map FileSink.filename = other.map FileSink.filename) : file.isSome = other.isSome := by
  simpa using congrArg Option.isSome same

theorem Timely.waits (timely : Timely delay s) (kept : e ∈ s.log.logger.unwritten) :
    s.now ≤ e.time + flushInterval + delay := by
  have late := (timely.flusher (Logger.file_of_mem kept)).2
  have due := timely.buffered e kept
  omega

theorem Timely.report (timely : Timely delay s) (reported : Option (Nat × List β)) :
    Timely delay (s.report reported) := by
  obtain ⟨_, now, due, lost, filename⟩ := s.report_keeps reported
  have file := isSome_of_filename filename
  constructor
  case flusher =>
    rw [file, now, due]
    exact timely.flusher
  case buffered =>
    intro e kept
    rw [due]
    obtain old | ⟨time, _⟩ := report_unwritten kept
    · exact timely.buffered e old
    · rw [time]
      exact (timely.flusher (file ▸ Logger.file_of_mem kept)).1
  case lost =>
    rw [lost]
    exact timely.lost

theorem Timely.follow (timely : Timely delay s) (returns : Bool) (lives : Lives P β) :
    Timely delay (s.follow returns lives) := by
  obtain ⟨_, now⟩ := follow_keeps s returns lives
  constructor
  case flusher =>
    intro file
    rw [now]
    obtain due | ⟨due, before⟩ := follow_due file
    · omega
    · rw [due]
      exact timely.flusher before
  case buffered =>
    intro e kept
    obtain ⟨kept, due, _⟩ := follow_unwritten kept
    rw [due]
    exact timely.buffered e kept
  case lost =>
    intro died e gone
    obtain old | ⟨rfl, kept, _⟩ := follow_lost gone
    · exact timely.lost died e old
    · exact timely.waits kept

theorem Timely.step [DecidableEq P] (timely : Timely delay s) (punctual : s.Punctual path delay act)
    (stepped : s.step path capture act = some t) : Timely delay t := by
  cases act with
  | happen happening =>
    obtain ⟨lives, _, rfl⟩ := Option.map_eq_some_iff.mp stepped
    exact (timely.report _).follow _ _
  | say level text =>
    obtain ⟨l, _, rfl⟩ := Option.map_eq_some_iff.mp stepped
    have file := isSome_of_filename (s.log.logger.filename_log level ⟨s.now, l.number, .other text⟩)
    refine ⟨fun here => timely.flusher (file ▸ here), fun e kept => ?_, timely.lost⟩
    obtain old | rfl := Logger.mem_unwritten_log kept
    · exact timely.buffered e old
    · exact (timely.flusher (file ▸ Logger.file_of_mem kept)).1
  | spill lines =>
    obtain ⟨l, _, rfl⟩ := Option.map_eq_some_iff.mp stepped
    have file := isSome_of_filename (s.log.filename_write lines)
    exact ⟨fun here => timely.flusher (file ▸ here),
      fun e kept => timely.buffered e (Logging.mem_unwritten_write kept), timely.lost⟩
  | flush =>
    obtain ⟨l, _, stepped⟩ := Option.bind_eq_some_iff.mp stepped
    split at stepped
    · cases stepped
      refine ⟨fun _ => ⟨Nat.le_refl _, by simp only; omega⟩, fun e kept => ?_, timely.lost⟩
      have none : e ∈ ([] : List (Entry β)) := s.log.unwritten_flush ▸ kept
      cases none
    · cases stepped
  | tick duration =>
    cases stepped
    refine ⟨fun file => ⟨?_, punctual file⟩, timely.buffered, timely.lost⟩
    have due := (timely.flusher file).1
    simp only
    omega

end Timely

end Logged

namespace Logged

/-- The line is in the buffer of the process that has logged it. -/
def Waits (s : Logged P β) (delay : Nat) (e : Entry β) : Prop :=
  e ∈ s.log.logger.unwritten ∧ (∃ l, s.lives.life = some l ∧ l.number = e.thread) ∧
    s.now ≤ e.time + flushInterval + delay

end Logged

/-- Killed before the flush, it loses the only copy of the dump. -/
example : ∃ s,
    Run (Logged.step () fun writer => [writer + 7]) (Logged.Punctual () 0)
      (.init (.empty : Files Unit Nat) [])
      (.happen .start :: List.replicate 6 (.happen (.exec true)) ++ .happen (.deliver .abrt) ::
        List.replicate 6 (.happen (.exec true)) ++ .happen .start ::
        List.replicate 11 (.happen (.exec true)) ++ [.tick 5, .happen .kill]) s ∧
    s.lives.io.files.link () = none ∧ s.log.disk defaultPath = [] ∧ s.lost = [(5, ⟨0, 1, .lastDump [7]⟩)] :=
  Run.exists_of_execute ⟨_, rfl, rfl, rfl, rfl⟩

end BoostTest.Dump

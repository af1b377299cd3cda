import BoostTest.Dump.Ledger

/-! No dump is reported twice, unless something strikes a start between its log
and its removal. -/
namespace BoostTest.Dump
open FileSystem Signals Transition

variable {P β : Type}

/-- The file a start has reported. -/
def Record.file : Record β → Option Nat
  | .reported _ stream _ => stream
  | .started _ _ | .created _ _ _ | .dumped _ _ _ _ | .shown _ | .ended _ _ => none

instance (phase : Reader β) : Decidable (∀ stream trace, phase ≠ .logged stream trace) :=
  match phase with
  | .logged stream trace => .isFalse fun other => other stream trace rfl
  | .idle | .found | .opened _ | .loaded _ _ => .isTrue (by simp)

namespace Lives

/-- What has been logged is removed next. -/
def Whole (s : Lives P β) : Happening → Prop
  | .throw | .terminate | .deliver _ | .fault | .kill =>
    ∀ l ∈ s.life, ∀ stream trace, s.io.readers l.number ≠ .logged stream trace
  | .start | .exec _ | .refuse => True

instance (s : Lives P β) (happening : Happening) : Decidable (s.Whole happening) :=
  match happening with
  | .throw | .terminate | .deliver _ | .fault | .kill =>
    inferInstanceAs (Decidable (∀ l ∈ s.life, ∀ stream trace, s.io.readers l.number ≠ .logged stream trace))
  | .start | .exec _ | .refuse => .isTrue trivial

/-- The start that is about to remove the file at the path. -/
def Removes (s : Lives P β) (file : Nat) : Prop :=
  ∃ l trace, s.life = some l ∧ l.crash.process.frames = [] ∧
    s.io.readers l.number = .logged (some file) trace

structure Once (path : P) (s : Lives P β) : Prop where
  distinct : (s.history.filterMap Record.file).Nodup
  spent : ∀ file ∈ s.history.filterMap Record.file, file < s.io.files.next ∧
    (s.io.files.link path = some file → s.Removes file)
  here : ∀ l, s.life = some l → l.crash.process.frames = [] → ∀ file,
    (s.io.readers l.number).stream = some file → s.io.files.link path = some file

section Once
variable {path : P} {capture : Nat → List β} {s t : Lives P β} {l : Life}

/-- A step that reports nothing and leaves no reported file at the path. -/
theorem Once.keep (once : Once path s) (history : t.history = s.history ++ more)
    (silent : ∀ record ∈ more, record.file = none)
    (next : s.io.files.next ≤ t.io.files.next)
    (links : ∀ file ∈ s.history.filterMap Record.file, t.io.files.link path = some file → t.Removes file)
    (here : ∀ m, t.life = some m → m.crash.process.frames = [] → ∀ file,
      (t.io.readers m.number).stream = some file → t.io.files.link path = some file) :
    Once path t := by
  have same : t.history.filterMap Record.file = s.history.filterMap Record.file := by
    rw [history, List.filterMap_append, List.filterMap_eq_nil_iff.mpr silent, List.append_nil]
  refine ⟨same ▸ once.distinct, fun file member => ?_, here⟩
  rw [same] at member
  exact ⟨Nat.lt_of_lt_of_le (once.spent file member).1 next, links file member⟩

/-- Nothing that was reported is at the path, unless a start is about to remove it. -/
theorem Once.unlinked (once : Once path s) (alive : s.life = some l)
    (other : l.crash.process.frames ≠ [] ∨ ∀ stream trace, s.io.readers l.number ≠ .logged stream trace)
    (member : file ∈ s.history.filterMap Record.file) : s.io.files.link path ≠ some file := by
  intro linked
  obtain ⟨m, trace, same, free, logged⟩ := (once.spent file member).2 linked
  cases alive.symm.trans same
  obtain busy | elsewhere := other
  · exact busy free
  · exact elsewhere _ _ logged

/-- The process ends, or is struck. -/
theorem Once.bury (once : Once path s) (l : Life) (ending : Ending)
    (unlinked : ∀ file ∈ s.history.filterMap Record.file, s.io.files.link path ≠ some file) :
    Once path (s.bury l ending) := by
  have files : (s.bury l ending).io.files = s.io.files :=
    (Instances.close_keeps (s.abandon l).io s.entries l.crash.process.frames).1
  refine once.keep rfl (by simp [Record.file]) (Nat.le_of_eq (by rw [files])) ?_ nofun
  intro file member linked
  rw [files] at linked
  exact absurd linked (unlinked file member)

theorem Once.settle (once : Once path s) {crash : Crash}
    (inside : crash.process.killed = false → crash.process.frames ≠ [])
    (unlinked : ∀ file ∈ s.history.filterMap Record.file, s.io.files.link path ≠ some file) :
    Once path (s.settle l crash) := by
  obtain ⟨_, same⟩ | ⟨_, _, same⟩ | ⟨ended, same⟩ := s.settle_cases l crash <;> rw [same]
  · exact once.bury _ _ unlinked
  · exact once.bury _ _ unlinked
  · have busy := inside (Crash.ended_eq_false.mp ended).1
    refine once.keep (List.append_nil _).symm nofun (Nat.le_refl _) ?_ ?_
    · exact fun file member linked => absurd linked (unlinked file member)
    · intro m same free
      cases same
      exact absurd free busy

/-- A call of the handler makes a new file, or keeps one that nobody has reported. -/
theorem Once.handle [DecidableEq P] {io : Instances P β} (once : Once path s)
    (alive : s.life = some l) (top : l.crash.process.frames = f :: outer)
    (calls : f.code.call capture writer = some event) (called : s.io.step path event = some io)
    (silent : ∀ record ∈ more, Record.file record = none) :
    Once path { s with io, history := s.history ++ more } ∧
      ∀ file ∈ (s.history ++ more).filterMap Record.file, io.files.link path ≠ some file := by
  have busy : l.crash.process.frames ≠ [] := by simp [top]
  have unlinked : ∀ file ∈ s.history.filterMap Record.file, s.io.files.link path ≠ some file :=
    fun file member => once.unlinked alive (.inl busy) member
  have after : s.io.files.next ≤ io.files.next ∧
      ∀ file ∈ s.history.filterMap Record.file, io.files.link path ≠ some file := by
    cases code : f.code with
    | entry | dumped | raised | thrown =>
      rw [code] at calls
      cases calls
    | reset | opened =>
      rw [code] at calls
      cases calls
      cases Instances.Stepped.of_step called
      exact ⟨Nat.le_refl _, unlinked⟩
    | prepared =>
      rw [code] at calls
      cases calls
      cases Instances.Stepped.of_step called with
      | create =>
        refine ⟨s.io.files.create_next_le path, fun file member => ?_⟩
        change (s.io.files.create path).2.link path ≠ some file
        rw [Files.create_link_self]
        rintro same
        cases linked : s.io.files.link path with
        | some other =>
          rw [s.io.files.create_of_linked linked] at same
          exact unlinked file member (linked.trans same)
        | none =>
          rw [s.io.files.create_of_absent linked] at same
          have below := (once.spent file member).1
          cases same
          exact Nat.lt_irrefl _ below
  rw [List.filterMap_append, List.filterMap_eq_nil_iff.mpr silent, List.append_nil]
  refine ⟨?_, after.2⟩
  refine once.keep rfl silent after.1 (fun file member linked => absurd linked (after.2 file member)) ?_
  intro m same free
  cases alive.symm.trans same
  exact absurd free busy

/-- `main` runs on without a call. -/
theorem Once.proceed (once : Once path s) (alive : s.life = some l) (free : l.crash.process.frames = [])
    (life : t.life = some m) (number : m.number = l.number) (same : m.crash.process.frames = [])
    (io : t.io = s.io) (history : t.history = s.history) : Once path t := by
  refine once.keep (history.trans (List.append_nil _).symm) nofun (Nat.le_of_eq (by rw [io])) ?_ ?_
  · intro file member linked
    rw [io] at linked
    obtain ⟨n, trace, before, _, logged⟩ := (once.spent file member).2 linked
    cases alive.symm.trans before
    exact ⟨m, trace, life, same, by rw [number, io]; exact logged⟩
  · intro n after _ file stream
    cases life.symm.trans after
    rw [number, io] at stream
    rw [io]
    exact once.here l alive free file stream

/-- What is logged has not been reported before, as its file is still there. -/
theorem Once.log (once : Once path s) (alive : s.life = some l) (free : l.crash.process.frames = [])
    (loaded : s.io.readers l.number = .loaded stream trace) :
    Once path { s with
      io := s.io.setReader l.number (.logged stream trace)
      life := some l
      history := s.history ++ [.reported l.number stream trace] } := by
  have here : ∀ file, stream = some file → s.io.files.link path = some file := fun file same =>
    once.here l alive free file (by rw [loaded]; exact same)
  have unlinked : ∀ file ∈ s.history.filterMap Record.file, s.io.files.link path ≠ some file :=
    fun file member => once.unlinked alive (.inr fun _ _ logged => by cases loaded.symm.trans logged) member
  have added : (s.history ++ [Record.reported l.number stream trace]).filterMap Record.file =
      s.history.filterMap Record.file ++ stream.toList := by
    rw [List.filterMap_append]
    cases stream <;> rfl
  constructor
  case distinct =>
    change ((s.history ++ [Record.reported l.number stream trace]).filterMap Record.file).Nodup
    rw [added]
    refine List.nodup_append.mpr ⟨once.distinct, by cases stream <;> simp, ?_⟩
    rintro file member other new rfl
    exact unlinked file member (here file (Option.mem_toList.mp new))
  case spent =>
    intro file member
    change file ∈ (s.history ++ [Record.reported l.number stream trace]).filterMap Record.file at member
    rw [added] at member
    obtain old | new := List.mem_append.mp member
    · exact ⟨(once.spent file old).1, fun linked => absurd linked (unlinked file old)⟩
    · have same : stream = some file := Option.mem_toList.mp new
      refine ⟨s.io.files.allocated path file (here file same), fun _ => ?_⟩
      exact ⟨l, trace, rfl, free, by rw [← same]; exact Instances.setReader_self _ _ _⟩
  case here =>
    intro m same _ file stream
    cases same
    rw [Instances.setReader_self] at stream
    exact here file stream

theorem Once.call [DecidableEq P] {io : Instances P β} (once : Once path s) (alive : s.life = some l)
    (free : l.crash.process.frames = [])
    (called : s.io.step path ((s.io.readers l.number).call l.number granted) = some io)
    (busy : io.readers l.number ≠ .idle) :
    Once path { s with
      io
      life := some l
      history := s.history ++ (s.io.readers l.number).record l.number } := by
  have moves : ∀ {phase : Reader β}, (∀ stream trace, s.io.readers l.number ≠ .logged stream trace) →
      (∀ file, phase.stream = some file → s.io.files.link path = some file) →
      Once path { s with
        io := s.io.setReader l.number phase
        life := some l
        history := s.history ++ [] } := by
    intro phase unlogged stream
    refine once.keep rfl nofun (Nat.le_refl _) ?_ ?_
    · exact fun file member linked => absurd linked (once.unlinked alive (.inr unlogged) member)
    · intro m same _ file reads
      cases same
      rw [Instances.setReader_self] at reads
      exact stream file reads
  cases reader : s.io.readers l.number with
  | idle =>
    rw [reader] at called
    cases Instances.Stepped.of_step called with
    | absent => exact absurd reader busy
    | present => exact moves (by simp [reader]) nofun
  | found =>
    rw [reader] at called
    cases Instances.Stepped.of_step called with
    | openStream =>
      refine moves (by simp [reader]) fun file opens => ?_
      cases granted with
      | true => exact opens
      | false => cases opens
  | opened =>
    rw [reader] at called
    cases Instances.Stepped.of_step called with
    | load opened =>
      refine moves (by simp [reader]) fun file stream => ?_
      exact once.here l alive free file (by rw [opened]; exact stream)
  | loaded stream trace =>
    rw [reader] at called
    cases Instances.Stepped.of_step called with
    | log loaded =>
      cases reader.symm.trans loaded
      exact once.log alive free reader
  | logged =>
    rw [reader] at called
    cases Instances.Stepped.of_step called with
    | remove => exact absurd (Instances.setReader_self _ _ _) busy

/-- `show_last_dump` returns, and what it has reported is gone. -/
theorem Once.pass [DecidableEq P] {io : Instances P β} (once : Once path s) (alive : s.life = some l)
    (called : s.io.step path ((s.io.readers l.number).call l.number granted) = some io)
    (idle : io.readers l.number = .idle) (same : t.io = io)
    (history : t.history = s.history ++ ((s.io.readers l.number).record l.number ++ [.shown l.number]))
    (life : t.life = some { l with stage := .shown }) : Once path t := by
  have here : ∀ m, t.life = some m → m.crash.process.frames = [] → ∀ file,
      (t.io.readers m.number).stream = some file → t.io.files.link path = some file := by
    intro m after _ file stream
    cases life.symm.trans after
    rw [same, idle] at stream
    cases stream
  have silent : ∀ record ∈ [Record.shown l.number], (record : Record β).file = none := by
    simp [Record.file]
  cases reader : s.io.readers l.number with
  | idle =>
    rw [reader] at called history
    cases Instances.Stepped.of_step called with
    | absent =>
      refine once.keep history silent (Nat.le_of_eq (by rw [same])) ?_ here
      intro file member linked
      rw [same] at linked
      exact absurd linked (once.unlinked alive (.inr (by simp [reader])) member)
    | present =>
      rw [Instances.setReader_self] at idle
      cases idle
  | logged =>
    rw [reader] at called history
    cases Instances.Stepped.of_step called with
    | @remove _ stream trace =>
      have gone : (s.io.removeDump path stream trace).files.link path = none ∧
          (s.io.removeDump path stream trace).files.next = s.io.files.next := by
        unfold Instances.removeDump
        split
        · exact ⟨s.io.files.remove_link_self path, rfl⟩
        · exact ⟨‹_›, rfl⟩
      refine once.keep history silent (Nat.le_of_eq ?_) ?_ here
      · rw [same]
        exact gone.2.symm
      · intro file _ linked
        rw [same] at linked
        cases gone.1.symm.trans linked
  | found | opened | loaded =>
    rw [reader] at called
    cases Instances.Stepped.of_step called
    rw [Instances.setReader_self] at idle
    cases idle

theorem Once.step [DecidableEq P] (once : Once path s) (orderly : s.Orderly path)
    (whole : s.Whole happening) (stepped : s.step path capture happening = some t) :
    Once path t := by
  cases Stepped.of_step stepped with
  | start dead =>
    have unlinked : ∀ file ∈ s.history.filterMap Record.file, s.io.files.link path ≠ some file := by
      intro file member linked
      obtain ⟨l, _, alive, _⟩ := (once.spent file member).2 linked
      cases dead.symm.trans alive
    refine once.keep rfl (by simp [Record.file]) (Nat.le_refl _) ?_ ?_
    · exact fun file member linked => absurd linked (unlinked file member)
    · intro m same _ file stream
      change (s.io.readers m.number).stream = some file at stream
      rw [orderly.readers dead] at stream
      cases stream
  | move alive free | segv alive free | abrt alive free =>
    exact once.proceed alive free rfl rfl free rfl rfl
  | call alive free _ called busy => exact once.call alive free called busy
  | @pass l granted io alive free stage called idle =>
    exact once.pass alive called idle rfl (List.append_assoc _ _ _) rfl
  | @leave l _ _ alive free stage =>
    have idle := (orderly.custody l alive).reading (by simp [stage])
    exact once.bury l _ fun file member => once.unlinked alive (.inr (by simp [idle])) member
  | @handle l f outer crash _ alive top silent executed =>
    refine once.settle ((orderly.custody l alive).bounded.inside executed) fun file member => ?_
    exact once.unlinked alive (.inl (by simp [top])) member
  | @handleCall l f outer event crash _ io alive top calls called executed =>
    have silent : ∀ record ∈ (s.io.writers (s.entries + f.serial)).record capture l.number
        (s.entries + f.serial) (io.writers (s.entries + f.serial)), record.file = none := by
      intro record member
      obtain ⟨file, rfl | rfl⟩ := Writer.record_cases member <;> rfl
    obtain ⟨handled, unlinked⟩ := once.handle alive top calls called silent
    exact handled.settle ((orderly.custody l alive).bounded.inside executed) unlinked
  | @throw l alive free | @terminate l alive free =>
    refine once.keep (List.append_nil _).symm nofun (Nat.le_refl _) ?_ ?_
    · exact fun file member linked => absurd linked (once.unlinked alive (.inr (whole l alive)) member)
    · intro m same _ file stream
      cases same
      change (((s.abandon l).io.readers l.number).stream) = some file at stream
      rw [abandon, Instances.setReader_self] at stream
      cases stream
  | @failThrow l f outer crash alive top failed | @failRefuse l f outer crash alive top failed =>
    have closed : Once path { s with io := s.io.setWriter (s.entries + f.serial) .idle } := by
      refine once.keep (List.append_nil _).symm nofun (Nat.le_refl _) ?_ once.here
      exact fun file member linked => absurd linked (once.unlinked alive (.inl (by simp [top])) member)
    refine closed.settle ((orderly.custody l alive).bounded.inside failed) fun file member => ?_
    exact once.unlinked alive (.inl (by simp [top])) member
  | @deliver l crash _ alive struck | @fault l crash alive struck =>
    refine once.settle ((orderly.custody l alive).bounded.inside struck) fun file member => ?_
    exact once.unlinked alive (.inr (whole l alive)) member
  | @kill l alive =>
    exact once.bury l _ fun file member => once.unlinked alive (.inr (whole l alive)) member

end Once
end Lives

/-- A start that is killed once it has logged leaves the dump to the next. -/
example : ∃ s,
    Run (Lives.step () fun writer => [writer + 7]) (Lives.Readable ()) (.init (.empty : Files Unit Nat))
      (.start :: List.replicate 6 (.exec true) ++ .deliver .abrt :: List.replicate 6 (.exec true) ++
        .start :: List.replicate 10 (.exec true) ++ .kill ::
        .start :: List.replicate 11 (.exec true)) s ∧
    s.history.filterMap Record.file = [0, 0] :=
  Run.exists_of_execute ⟨_, rfl, rfl⟩

end BoostTest.Dump

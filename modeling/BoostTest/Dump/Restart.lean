import BoostTest.Dump.Ledger

/-! What a start reports: the dump that was there when it began, no more and no
less. After a crash that is the dump of the life that crashed. -/
namespace BoostTest.Dump
open FileSystem Signals Transition

variable {P β : Type}

/-- `main` is beyond `show_last_dump`. -/
def Stage.past : Stage → Bool
  | .shown | .greeted | .ran | .caught | .leaving _ => true
  | .begun | .terminateSet | .corePrepared | .pipeIgnored | .logging | .segvSet | .constructed => false

theorem Stage.past_next {stage next : Stage} (moves : stage.next = some next) (past : stage.past = true) :
    next.past = true := by
  cases stage <;> cases moves <;> first | rfl | cases past

/-- The record is made by `show_last_dump`. -/
def Record.tells : Record β → Bool
  | .reported _ _ _ | .shown _ => true
  | .started _ _ | .created _ _ _ | .dumped _ _ _ _ | .ended _ _ => false

theorem Reader.record_tells {made : Record β} {phase : Reader β} (member : made ∈ phase.record reader) :
    made.tells = true := by
  cases phase with
  | loaded =>
    cases List.mem_singleton.mp member
    rfl
  | idle | found | opened | logged => cases member

/-- How what a call has read so far relates to what the start has found. -/
def Reader.Reads (path : P) (files : Files P β) (present : Option (List β)) : Reader β → Prop
  | .idle => present = (files.link path).map files.content
  | .found => present = (files.link path).map files.content ∧ files.link path ≠ none
  | .opened stream =>
    present = (files.link path).map files.content ∧ stream = files.link path ∧ stream ≠ none
  | .loaded _ trace | .logged _ trace => present = some trace

/-- A life has reported what was there at its start. -/
def Told (history : List (Record β)) (life : Nat) : Prop :=
  ∃ present, .started life present ∈ history ∧
    ∀ content, present = some content ↔ ∃ stream, .reported life stream content ∈ history

theorem Told.grow {history later : List (Record β)} (told : Told history life)
    (kept : ∀ record ∈ history, record ∈ later)
    (old : ∀ stream content, .reported life stream content ∈ later →
      .reported life stream content ∈ history) : Told later life := by
  obtain ⟨present, started, reported⟩ := told
  refine ⟨present, kept _ started, fun content => (reported content).trans ?_⟩
  exact ⟨fun ⟨stream, told⟩ => ⟨stream, kept _ told⟩, fun ⟨stream, told⟩ => ⟨stream, old _ _ told⟩⟩

namespace Lives

/-- The start of a life, and what it has reported since. -/
structure Reading (path : P) (s : Lives P β) (l : Life) (present : Option (List β)) : Prop where
  started : .started l.number present ∈ s.history
  reads : (s.io.readers l.number).Reads path s.io.files present
  reported : ∀ stream content, .reported l.number stream content ∈ s.history →
    s.io.readers l.number = .logged stream content

structure Shows (path : P) (s : Lives P β) : Prop where
  told : ∀ life, .shown life ∈ s.history → Told s.history life
  past : ∀ l, s.life = some l → .shown l.number ∈ s.history → l.stage.past = true
  born : ∀ life, (.shown life ∈ s.history ∨ ∃ stream trace, .reported life stream trace ∈ s.history) →
    life < s.born
  reading : ∀ l, s.life = some l → l.crash.process.frames = [] → l.stage.past = false →
    ∃ present, Reading path s l present

/-- The process is that of an earlier state, where `main` had not yet returned
from its call if it still has not, and had read as much. -/
def Onward (s t : Lives P β) (m : Life) : Prop :=
  ∃ l, s.life = some l ∧ m.number = l.number ∧ (l.stage.past = true → m.stage.past = true) ∧
    (m.crash.process.frames = [] → m.stage.past = false →
      l.crash.process.frames = [] ∧ l.stage.past = false ∧ t.io.files = s.io.files ∧
        t.io.readers l.number = s.io.readers l.number)

section Shows
variable {path : P} {s t : Lives P β}

/-- A step that tells nothing and, where `main` goes on to its call, leaves the
dump file and the reader alone. -/
theorem Shows.quiet (shows : Shows path s) (born : t.born = s.born)
    (history : t.history = s.history ++ more) (silent : ∀ record ∈ more, record.tells = false)
    (life : ∀ m, t.life = some m → Onward s t m) : Shows path t := by
  have old : ∀ {record}, record.tells = true → record ∈ t.history → record ∈ s.history := by
    intro record tells member
    rw [history] at member
    refine (List.mem_append.mp member).resolve_right fun new => ?_
    cases tells.symm.trans (silent record new)
  have kept : ∀ {record}, record ∈ s.history → record ∈ t.history := fun member =>
    history ▸ List.mem_append_left _ member
  constructor
  case told =>
    intro life shown
    exact (shows.told life (old rfl shown)).grow (fun _ => kept) fun _ _ => old rfl
  case past =>
    intro m alive shown
    obtain ⟨l, before, number, past, _⟩ := life m alive
    exact past (shows.past l before (number ▸ old rfl shown))
  case born =>
    rintro life (shown | ⟨stream, trace, reported⟩)
    · exact born ▸ shows.born life (.inl (old rfl shown))
    · exact born ▸ shows.born life (.inr ⟨stream, trace, old rfl reported⟩)
  case reading =>
    intro m alive free early
    obtain ⟨l, before, number, _, same⟩ := life m alive
    obtain ⟨lfree, learly, files, readers⟩ := same free early
    obtain ⟨present, reading⟩ := shows.reading l before lfree learly
    refine ⟨present, ?_, ?_, ?_⟩
    · exact number ▸ kept reading.started
    · rw [number, readers, files]
      exact reading.reads
    · intro stream content reported
      rw [number] at reported ⊢
      rw [readers]
      exact reading.reported stream content (old rfl reported)

theorem Shows.start (shows : Shows path s) (orderly : s.Orderly path) (dead : s.life = none) :
    Shows path (s.start path) := by
  have old : ∀ {record}, record.tells = true → record ∈ (s.start path).history → record ∈ s.history := by
    intro record tells member
    refine (List.mem_append.mp member).resolve_right fun new => ?_
    cases List.mem_singleton.mp new
    cases tells
  have kept : ∀ {record}, record ∈ s.history → record ∈ (s.start path).history :=
    List.mem_append_left _
  constructor
  case told =>
    intro life shown
    exact (shows.told life (old rfl shown)).grow (fun _ => kept) fun _ _ => old rfl
  case past =>
    intro m alive shown
    cases alive
    exact absurd (shows.born s.born (.inl (old rfl shown))) (Nat.lt_irrefl _)
  case born =>
    rintro life (shown | ⟨stream, trace, reported⟩)
    · exact Nat.lt_succ_of_lt (shows.born life (.inl (old rfl shown)))
    · exact Nat.lt_succ_of_lt (shows.born life (.inr ⟨stream, trace, old rfl reported⟩))
  case reading =>
    intro m alive _ _
    cases alive
    refine ⟨_, List.mem_append_right _ (List.mem_singleton_self _), ?_, ?_⟩
    · change (s.io.readers s.born).Reads path s.io.files _
      rw [orderly.readers dead]
      exact rfl
    · intro stream content reported
      exact absurd (shows.born s.born (.inr ⟨stream, content, old rfl reported⟩)) (Nat.lt_irrefl _)

/-- A call that goes on has read what was there, and reports it once. -/
theorem Reading.call [DecidableEq P] {io : Instances P β} (reading : Reading path s l present)
    (readable : granted = true ∨ s.io.files.link path = none)
    (called : s.io.step path ((s.io.readers l.number).call l.number granted) = some io)
    (busy : io.readers l.number ≠ .idle) :
    (io.readers l.number).Reads path io.files present ∧
      (∀ stream content, s.io.readers l.number ≠ .logged stream content) ∧
      ∀ record ∈ (s.io.readers l.number).record l.number, ∃ stream trace,
        record = .reported l.number stream trace ∧ io.readers l.number = .logged stream trace := by
  have reads := reading.reads
  cases reader : s.io.readers l.number with
  | idle =>
    rw [reader] at called reads
    cases Instances.Stepped.of_step called with
    | absent => exact absurd reader busy
    | present _ linked =>
      rw [Instances.setReader_self]
      refine ⟨⟨reads, ?_⟩, nofun, nofun⟩
      exact fun absent => Option.some_ne_none _ (linked.symm.trans absent)
  | found =>
    rw [reader] at called reads
    cases Instances.Stepped.of_step called with
    | openStream =>
      obtain ⟨found, linked⟩ := reads
      rw [if_pos (readable.resolve_right linked), Instances.setReader_self]
      exact ⟨⟨found, rfl, linked⟩, nofun, nofun⟩
  | opened stream =>
    rw [reader] at called reads
    cases Instances.Stepped.of_step called with
    | load opened =>
      cases reader.symm.trans opened
      obtain ⟨found, same, linked⟩ := reads
      rw [Instances.setReader_self]
      refine ⟨?_, nofun, nofun⟩
      obtain ⟨file, opens⟩ := Option.ne_none_iff_exists'.mp linked
      rw [found, ← same, opens]
      rfl
  | loaded stream trace =>
    rw [reader] at called reads
    cases Instances.Stepped.of_step called with
    | log loaded =>
      cases reader.symm.trans loaded
      rw [Instances.setReader_self]
      refine ⟨reads, nofun, fun record member => ?_⟩
      exact ⟨stream, trace, List.mem_singleton.mp member, rfl⟩
  | logged =>
    rw [reader] at called
    cases Instances.Stepped.of_step called with
    | remove => exact absurd (Instances.setReader_self _ _ _) busy

/-- The call of `show_last_dump` goes on. -/
theorem Shows.call [DecidableEq P] {io : Instances P β} (shows : Shows path s)
    (orderly : s.Orderly path) (alive : s.life = some l) (free : l.crash.process.frames = [])
    (stage : l.stage = .constructed) (readable : granted = true ∨ s.io.files.link path = none)
    (called : s.io.step path ((s.io.readers l.number).call l.number granted) = some io)
    (busy : io.readers l.number ≠ .idle) :
    Shows path { s with
      io
      life := some l
      history := s.history ++ (s.io.readers l.number).record l.number } := by
  have early : l.stage.past = false := by rw [stage]; rfl
  obtain ⟨present, reading⟩ := shows.reading l alive free early
  obtain ⟨reads, unlogged, reports⟩ := reading.call readable called busy
  have kept : ∀ {record}, record ∈ s.history →
      record ∈ s.history ++ (s.io.readers l.number).record l.number := List.mem_append_left _
  have unshown : .shown l.number ∉ s.history := by
    intro shown
    cases early.symm.trans (shows.past l alive shown)
  have oldShown : ∀ {life}, .shown life ∈ s.history ++ (s.io.readers l.number).record l.number →
      .shown life ∈ s.history := by
    intro life shown
    refine (List.mem_append.mp shown).resolve_right fun new => ?_
    obtain ⟨_, _, same, _⟩ := reports _ new
    cases same
  constructor
  case told =>
    intro life shown
    refine (shows.told life (oldShown shown)).grow (fun _ => kept) fun stream content told => ?_
    refine (List.mem_append.mp told).resolve_right fun new => ?_
    obtain ⟨_, _, same, _⟩ := reports _ new
    cases same
    exact unshown (oldShown shown)
  case past =>
    intro m same shown
    cases same
    exact absurd (oldShown shown) unshown
  case born =>
    have last := (orderly.custody l alive).last
    rintro life (shown | ⟨stream, trace, reported⟩)
    · exact shows.born life (.inl (oldShown shown))
    · obtain old | new := List.mem_append.mp reported
      · exact shows.born life (.inr ⟨stream, trace, old⟩)
      · obtain ⟨_, _, same, _⟩ := reports _ new
        cases same
        change l.number < s.born
        omega
  case reading =>
    intro m same _ _
    cases same
    refine ⟨present, kept reading.started, reads, fun stream content reported => ?_⟩
    obtain old | new := List.mem_append.mp reported
    · exact absurd (reading.reported stream content old) (unlogged stream content)
    · obtain ⟨_, _, same, logged⟩ := reports _ new
      cases same
      exact logged

/-- `show_last_dump` returns. -/
theorem Shows.pass {io : Instances P β} (shows : Shows path s) (orderly : s.Orderly path)
    (alive : s.life = some l) (told : Told s.history l.number) :
    Shows path { s with
      io
      life := some { l with stage := .shown }
      history := s.history ++ [] ++ [.shown l.number] } := by
  have last := (orderly.custody l alive).last
  rw [List.append_nil]
  have kept : ∀ {record}, record ∈ s.history → record ∈ s.history ++ [.shown l.number] :=
    List.mem_append_left _
  have oldReported : ∀ {life stream content},
      .reported life stream content ∈ s.history ++ [.shown l.number] →
        .reported life stream content ∈ s.history := by
    intro life stream content member
    refine (List.mem_append.mp member).resolve_right fun new => ?_
    cases List.mem_singleton.mp new
  constructor
  case told =>
    intro life shown
    obtain old | new := List.mem_append.mp shown
    · exact (shows.told life old).grow (fun _ => kept) fun _ _ => oldReported
    · cases List.mem_singleton.mp new
      exact told.grow (fun _ => kept) fun _ _ => oldReported
  case past =>
    intro m same _
    cases same
    rfl
  case born =>
    rintro life (shown | ⟨stream, trace, reported⟩)
    · obtain old | new := List.mem_append.mp shown
      · exact shows.born life (.inl old)
      · cases List.mem_singleton.mp new
        change l.number < s.born
        omega
    · exact shows.born life (.inr ⟨stream, trace, oldReported reported⟩)
  case reading =>
    intro m same _ early
    cases same
    cases early

/-- What the last call of `show_last_dump` leaves. -/
theorem Shows.told_pass [DecidableEq P] {io : Instances P β} (shows : Shows path s)
    (ledger : Ledger path s) (alive : s.life = some l) (free : l.crash.process.frames = [])
    (stage : l.stage = .constructed)
    (called : s.io.step path ((s.io.readers l.number).call l.number granted) = some io)
    (idle : io.readers l.number = .idle) :
    Told s.history l.number ∧ (s.io.readers l.number).record l.number = [] := by
  obtain ⟨present, reading⟩ := shows.reading l alive free (by rw [stage]; rfl)
  have reads := reading.reads
  cases reader : s.io.readers l.number with
  | idle =>
    rw [reader] at called reads
    refine ⟨⟨present, reading.started, fun content => ?_⟩, rfl⟩
    cases Instances.Stepped.of_step called with
    | absent _ absent =>
      have nothing : present = none := by rw [reads, absent]; rfl
      constructor
      · intro found
        cases nothing.symm.trans found
      · rintro ⟨stream, reported⟩
        cases reader.symm.trans (reading.reported stream content reported)
    | present =>
      rw [Instances.setReader_self] at idle
      cases idle
  | logged stream trace =>
    rw [reader] at reads
    refine ⟨⟨present, reading.started, fun content => ?_⟩, rfl⟩
    constructor
    · intro found
      cases reads.symm.trans found
      exact ⟨stream, (ledger.logged l alive free stream trace reader).mem (List.mem_singleton_self _)⟩
    · rintro ⟨other, reported⟩
      cases reader.symm.trans (reading.reported other content reported)
      exact reads
  | found | opened | loaded =>
    rw [reader] at called
    cases Instances.Stepped.of_step called
    rw [Instances.setReader_self] at idle
    cases idle

theorem Shows.step [DecidableEq P] (shows : Shows path s) (accounted : Accounted path s)
    (readable : s.Readable path happening)
    (stepped : s.step path capture happening = some t) : Shows path t := by
  obtain ⟨orderly, _, ledger⟩ := accounted
  have struck : ∀ {l input crash more} {u : Lives P β}, s.life = some l →
      l.crash.step input = some crash → u.born = s.born → u.history = s.history ++ more →
      (∀ record ∈ more, record.tells = false) → Shows path (u.settle l crash) := by
    intro l input crash more u alive executed born history silent
    have inside := (orderly.custody l alive).bounded.inside executed
    have life : ∀ m, (u.settle l crash).life = some m → Onward s (u.settle l crash) m := by
      intro m after
      obtain ⟨rfl, living⟩ := settle_life after
      exact ⟨l, alive, rfl, id, fun free => absurd free (inside (Crash.ended_eq_false.mp living).1)⟩
    obtain same | ⟨ending, ended⟩ := settle_history u l crash
    · exact shows.quiet ((settle_born u l crash).trans born) (same.trans history) silent life
    · refine shows.quiet ((settle_born u l crash).trans born)
        ((ended.trans (congrArg (· ++ _) history)).trans (List.append_assoc _ _ _)) ?_ life
      intro record member
      obtain old | new := List.mem_append.mp member
      · exact silent record old
      · cases List.mem_singleton.mp new
        rfl
  cases Stepped.of_step stepped with
  | start dead => exact shows.start orderly dead
  | @move l stage _ alive free next =>
    refine shows.quiet rfl (List.append_nil _).symm nofun fun m same => ?_
    cases same
    refine ⟨l, alive, rfl, Stage.past_next next, fun free early => ⟨free, ?_, rfl, rfl⟩⟩
    cases past : l.stage.past with
    | false => rfl
    | true => cases early.symm.trans (Stage.past_next next past)
  | @segv l _ alive free stage | @abrt l _ alive free stage =>
    refine shows.quiet rfl (List.append_nil _).symm nofun fun m same => ?_
    cases same
    have early : l.stage.past = false := by rw [stage]; rfl
    have beyond : ∀ {stage : Stage}, l.stage.past = true → stage.past = true := fun past => by
      cases early.symm.trans past
    exact ⟨l, alive, rfl, beyond, fun free _ => ⟨free, early, rfl, rfl⟩⟩
  | call alive free stage called busy =>
    exact shows.call orderly alive free stage readable called busy
  | pass alive free stage called idle =>
    obtain ⟨told, nothing⟩ := shows.told_pass ledger alive free stage called idle
    rw [nothing]
    exact shows.pass orderly alive told
  | leave alive | kill alive =>
    refine shows.quiet rfl rfl ?_ nofun
    intro record member
    cases List.mem_singleton.mp member
    rfl
  | handle alive top silent executed =>
    exact struck alive executed rfl (List.append_nil _).symm nofun
  | handleCall alive top calls called executed =>
    refine struck alive executed rfl rfl fun record member => ?_
    obtain ⟨file, rfl | rfl⟩ := Writer.record_cases member <;> rfl
  | @throw l alive free | @terminate l alive free =>
    refine shows.quiet rfl (List.append_nil _).symm nofun fun m same => ?_
    cases same
    exact ⟨l, alive, rfl, fun _ => rfl, fun _ early => by cases early⟩
  | deliver alive executed | fault alive executed | failThrow alive _ executed
  | failRefuse alive _ executed => exact struck alive executed rfl (List.append_nil _).symm nofun

end Shows

end Lives

end BoostTest.Dump

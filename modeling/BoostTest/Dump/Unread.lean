import BoostTest.Dump.Instances

/-! A dump that is removed has been logged by the call that removes it, as long
as no dump is created between the opening of the stream and the removal, and no
stream is opened between the creation of a dump and its only write. -/
namespace BoostTest.Dump
open FileSystem

variable {P β : Type} [DecidableEq P]

/-- The file its stream reads, once it has been opened. -/
def Reader.stream : Reader β → Option Nat
  | .idle | .found => none
  | .opened stream | .loaded stream _ | .logged stream _ => stream

/-- The call of `show_last_dump` has passed the opening of its stream. -/
def Reader.Exposed : Reader β → Prop
  | .idle | .found => False
  | .opened _ | .loaded _ _ | .logged _ _ => True

/-- What such a call would remove now is what its stream reads or has read. -/
def Reader.Faithful (files : Files P β) (path : P) : Reader β → Prop
  | .idle | .found => True
  | .opened stream => ∀ file, files.link path = some file → stream = some file
  | .loaded stream trace | .logged stream trace =>
    ∀ file, files.link path = some file → stream = some file ∧ files.content file = trace

omit [DecidableEq P] in
theorem Reader.Faithful.of_not_exposed {reader : Reader β} {files : Files P β} {path : P}
    (hidden : ¬ reader.Exposed) : reader.Faithful files path := by
  cases reader with
  | idle | found => trivial
  | opened | loaded | logged => exact absurd trivial hidden

omit [DecidableEq P] in
theorem Reader.Faithful.of_absent {reader : Reader β} {files : Files P β} {path : P}
    (absent : files.link path = none) : reader.Faithful files path := by
  cases reader <;> simp [Reader.Faithful, absent]

/-- The removed file is the one this call has read, and it still holds nothing
but what this call has logged. -/
def Removal.Reported (files : Files P β) (removal : Removal β) : Prop :=
  removal.stream = some removal.file ∧ files.content removal.file = removal.trace

namespace Instances

def Reported (s : Instances P β) : Prop := ∀ removal ∈ s.removals, removal.Reported s.files

/-- The windows of the two sides do not overlap, and a dump that is there can
be opened. -/
def Exclusive (path : P) (s : Instances P β) : Event β → Prop
  | .create _ => ∀ reader, ¬ (s.readers reader).Exposed
  | .openStream _ granted =>
    (∀ writer file, s.writers writer ≠ .opened file) ∧
      (granted = true ∨ s.files.link path = none)
  | _ => True

/-- Nothing can change the removed file any more. -/
structure Sealed (s : Instances P β) (removal : Removal β) : Prop where
  reported : removal.Reported s.files
  allocated : removal.file < s.files.next
  unlinked : ∀ path, s.files.link path ≠ some removal.file
  closed : ∀ writer, s.writers writer ≠ .opened removal.file

structure Guarded (path : P) (s : Instances P β) : Prop where
  apart : ∀ reader writer file, (s.readers reader).Exposed → s.writers writer ≠ .opened file
  faithful : ∀ reader, (s.readers reader).Faithful s.files path
  final : ∀ removal ∈ s.removals, s.Sealed removal

omit [DecidableEq P] in
theorem init_guarded (path : P) (files : Files P β) : (init files).Guarded path where
  apart _ _ _ exposed := exposed.elim
  faithful _ := trivial
  final _ member := nomatch member

section Frame
variable {path : P} {s : Instances P β}

omit [DecidableEq P] in
theorem Sealed.setReader (sealed : s.Sealed removal) (reader : Nat) (phase : Reader β) :
    (s.setReader reader phase).Sealed removal :=
  ⟨sealed.reported, sealed.allocated, sealed.unlinked, sealed.closed⟩

omit [DecidableEq P] in
/-- A reader may move on to a faithful phase; it becomes exposed only while no
writer is inside `safe_dump_to`. -/
theorem Guarded.setReader (guarded : s.Guarded path) (reader : Nat) (phase : Reader β)
    (apart : phase.Exposed → ∀ writer file, s.writers writer ≠ .opened file)
    (faithful : phase.Faithful s.files path) : (s.setReader reader phase).Guarded path := by
  constructor
  case apart =>
    apply forall_setReader (p := fun _ phase => ∀ writer file, phase.Exposed → s.writers writer ≠ .opened file)
    · exact fun writer file exposed => apart exposed writer file
    · exact guarded.apart
  case faithful =>
    exact forall_setReader (p := fun _ phase => phase.Faithful s.files path) faithful guarded.faithful
  case final => exact fun removal member => (guarded.final removal member).setReader reader phase

omit [DecidableEq P] in
theorem Guarded.setWriter (guarded : s.Guarded path) (writer : Nat) (phase : Writer)
    (closed : ∀ file, phase ≠ .opened file) : (s.setWriter writer phase).Guarded path := by
  have kept : ∀ file, (∀ other, s.writers other ≠ .opened file) →
      ∀ other, (s.setWriter writer phase).writers other ≠ .opened file := fun file =>
    forall_setWriter (p := fun _ phase => phase ≠ .opened file) (closed file)
  constructor
  case apart =>
    intro reader other file exposed
    exact kept file (fun other => guarded.apart reader other file exposed) other
  case faithful => exact guarded.faithful
  case final =>
    intro removal member
    have sealed := guarded.final removal member
    exact ⟨sealed.reported, sealed.allocated, sealed.unlinked, kept _ sealed.closed⟩

theorem Guarded.removeDump (guarded : s.Guarded path)
    (logged : s.readers reader = .logged stream trace) :
    (s.removeDump path stream trace).Guarded path := by
  cases linked : s.files.link path with
  | none =>
    unfold Instances.removeDump
    split
    · rename_i other
      cases linked.symm.trans other
    · exact guarded
  | some file =>
    have exposed : (s.readers reader).Exposed := by rw [logged]; trivial
    have faithful := guarded.faithful reader
    rw [logged] at faithful
    have removed : s.removeDump path stream trace =
        { s with
          files := s.files.remove path
          removals := s.removals ++ [⟨file, stream, trace⟩] } := by
      unfold Instances.removeDump
      rw [linked]
    rw [removed]
    constructor
    case apart => exact guarded.apart
    case faithful => exact fun other => .of_absent (s.files.remove_link_self path)
    case final =>
      intro removal member
      obtain member | new := List.mem_append.mp member
      · have sealed := guarded.final removal member
        refine ⟨sealed.reported, sealed.allocated, ?_, sealed.closed⟩
        exact fun other linked => sealed.unlinked other (Files.linked_of_update linked).2
      · cases List.mem_singleton.mp new
        refine ⟨faithful file linked, s.files.allocated path file linked, ?_, ?_⟩
        · exact s.files.remove_unlinked linked
        · exact fun writer => guarded.apart reader writer file exposed

theorem Guarded.createDump (guarded : s.Guarded path)
    (alone : ∀ reader, ¬ (s.readers reader).Exposed) (writer : Nat) :
    (s.createDump path writer).Guarded path := by
  constructor
  case apart => exact fun reader _ _ exposed => absurd exposed (alone reader)
  case faithful => exact fun reader => .of_not_exposed (alone reader)
  case final =>
    intro removal member
    have sealed := guarded.final removal member
    have unlinked := s.files.create_unlinked sealed.allocated sealed.unlinked path
    have other : removal.file ≠ (s.files.create path).1 := by
      intro same
      apply unlinked path
      rw [Files.create_link_self, same]
    refine ⟨⟨sealed.reported.1, ?_⟩, ?_, unlinked, ?_⟩
    · change (s.files.create path).2.content removal.file = removal.trace
      rw [Files.create_content, Function.update_of_ne other]
      exact sealed.reported.2
    · exact Nat.lt_of_lt_of_le sealed.allocated (s.files.create_next_le path)
    · exact forall_setWriter (p := fun _ phase => phase ≠ .opened removal.file)
        (fun opened => other (Writer.opened.inj opened).symm) sealed.closed

omit [DecidableEq P] in
theorem Guarded.writeDump (guarded : s.Guarded path) (opened : s.writers writer = .opened file)
    (trace : List β) : (s.writeDump writer file trace).Guarded path := by
  have alone : ∀ reader, ¬ (s.readers reader).Exposed :=
    fun reader exposed => guarded.apart reader writer file exposed opened
  constructor
  case apart => exact fun reader _ _ exposed => absurd exposed (alone reader)
  case faithful => exact fun reader => .of_not_exposed (alone reader)
  case final =>
    intro removal member
    have sealed := guarded.final removal member
    have other : removal.file ≠ file := fun same =>
      sealed.closed writer (same ▸ opened)
    refine ⟨⟨sealed.reported.1, ?_⟩, sealed.allocated, sealed.unlinked, ?_⟩
    · exact (Files.write_content_of_ne _ other trace).trans sealed.reported.2
    · exact forall_setWriter (p := fun _ phase => phase ≠ .opened removal.file) nofun sealed.closed

end Frame

theorem Guarded.step {path : P} {s t : Instances P β} (guarded : s.Guarded path)
    (exclusive : s.Exclusive path event) (stepped : s.step path event = some t) :
    t.Guarded path := by
  cases Stepped.of_step stepped with
  | absent => exact guarded
  | present => exact guarded.setReader _ _ nofun trivial
  | openStream found =>
    obtain ⟨closed, reads⟩ := exclusive
    apply guarded.setReader _ _ (fun _ => closed)
    intro file linked
    obtain granted | absent := reads
    · rwa [if_pos granted]
    · cases absent.symm.trans linked
  | @load reader stream opened =>
    have exposed : (s.readers reader).Exposed := by rw [opened]; trivial
    have faithful := guarded.faithful reader
    rw [opened] at faithful
    apply guarded.setReader _ _ (fun _ writer file => guarded.apart reader writer file exposed)
    intro file linked
    have reads := faithful file linked
    subst reads
    exact ⟨rfl, rfl⟩
  | @log reader stream trace loaded =>
    have exposed : (s.readers reader).Exposed := by rw [loaded]; trivial
    have faithful := guarded.faithful reader
    rw [loaded] at faithful
    exact guarded.setReader _ _ (fun _ writer file => guarded.apart reader writer file exposed)
      faithful
  | remove logged => exact (guarded.removeDump logged).setReader _ _ nofun trivial
  | prepare => exact guarded.setWriter _ _ nofun
  | create => exact guarded.createDump exclusive _
  | dump opened => exact guarded.writeDump opened _
  | killReader => exact guarded.setReader _ _ nofun trivial
  | killWriter => exact guarded.setWriter _ _ nofun

theorem guarded_of_run {path : P} {files : Files P β}
    (run : Transition.Run (step path) (Exclusive path) (init files) events s) : s.Guarded path :=
  run.invariant (fun guarded exclusive stepped => guarded.step exclusive stepped)
    (init_guarded path files)

end Instances

/-- No dump is destroyed unread, in any run that keeps the two windows apart. -/
theorem removed_dumps_reported (path : P) (files : Files P β)
    (run : Transition.Run (Instances.step path) (Instances.Exclusive path) (.init files) events s) :
    s.Reported :=
  fun removal member => ((Instances.guarded_of_run run).final removal member).reported

/-- A crash and, after it, a start that reports it. -/
theorem removed_dumps_reported_next_start : ∃ s,
    Transition.Run (Instances.step ()) (Instances.Exclusive ()) (.init (.empty : Files Unit Nat))
      [.prepare 0, .create 0, .dump 0 [1, 2], .test 0, .openStream 0 true, .load 0, .log 0,
        .remove 0] s ∧
    s.removals = [⟨0, some 0, [1, 2]⟩] ∧ s.Reported := by
  have run : ∃ s, Transition.Run (Instances.step ()) (Instances.Exclusive ())
      (.init (.empty : Files Unit Nat))
      [.prepare 0, .create 0, .dump 0 [1, 2], .test 0, .openStream 0 true, .load 0, .log 0,
        .remove 0] s ∧ s.removals = [⟨0, some 0, [1, 2]⟩] := by
    refine ⟨_, .next trivial rfl (.next (fun _ => not_false) rfl (.next trivial rfl (.next trivial rfl
      (.next ⟨?_, .inl rfl⟩ rfl (.next trivial rfl (.next trivial rfl (.next trivial rfl
        (.refl _)))))))), rfl⟩
    intro writer file
    cases writer <;> nofun
  obtain ⟨s, run, removed⟩ := run
  exact ⟨s, run, removed, removed_dumps_reported () .empty run⟩

/-- Another instance crashes between the logging and the removal; its dump is gone. -/
theorem dump_removed_unread : ∃ s,
    Transition.Run (Instances.step ()) Instances.Interleaved (.init (.empty : Files Unit Nat))
      [.prepare 0, .create 0, .dump 0 [1], .test 0, .openStream 0 true, .load 0, .log 0,
        .prepare 1, .create 1, .dump 1 [2], .remove 0] s ∧
    s.files.content 0 = [2] ∧ s.files.link () = none ∧ ¬ s.Reported := by
  refine Transition.Run.exists_of_execute ⟨_, rfl, rfl, rfl, ?_⟩
  intro reported
  cases (reported ⟨0, some 0, [1]⟩ List.mem_cons_self).2

end BoostTest.Dump

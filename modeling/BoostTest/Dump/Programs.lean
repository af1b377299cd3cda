import BoostTest.Dump.Unread
import BoostTest.Program.DumpPath

/-! Any number of programs that share a file system, each with instances inside
`show_last_dump` and `_signal_handler` on the dump path of that program. On
Windows the handler writes elsewhere, and the runs are those without its steps. -/
namespace BoostTest.Dump
open FileSystem Transition Program

variable {ι P β : Type}

/-- Of the instances of a program, `files` is what its own last step left. -/
structure Programs (ι P β : Type) where
  files : Files P β
  instances : ι → Instances P β
  /-- The files that `safe_dump_to` has opened, with the program it ran in. -/
  dumps : List (ι × Nat)

namespace Instances

/-- A call of `show_last_dump` reads the file, or one has read or removed it. -/
def Touches (s : Instances P β) (file : Nat) : Prop :=
  (∃ reader, (s.readers reader).stream = some file) ∨
    ∃ removal ∈ s.removals, removal.file = file ∨ removal.stream = some file

variable [DecidableEq P]

/-- The file that a step opens for writing. -/
def dumped (path : P) (s : Instances P β) : Event β → List Nat
  | .create _ => [(s.files.create path).1]
  | _ => []

section Touches
variable {path : P} {s t : Instances P β}

omit [DecidableEq P] in
/-- A reader that gets a new stream is the only one that does. -/
theorem Touches.of_setReader {phase : Reader β} (touched : (s.setReader reader phase).Touches file) :
    s.Touches file ∨ phase.stream = some file := by
  obtain ⟨other, reads⟩ | removed := touched
  · by_cases same : other = reader
    · subst same
      rw [setReader_self] at reads
      exact .inr reads
    · have unchanged : (s.setReader reader phase).readers other = s.readers other :=
        Function.update_of_ne same _ _
      rw [unchanged] at reads
      exact .inl (.inl ⟨other, reads⟩)
  · exact .inl (.inr removed)

theorem Touches.of_removeDump {stream : Option Nat} {trace : List β}
    (touched : (s.removeDump path stream trace).Touches file) :
    s.Touches file ∨ s.files.link path = some file ∨ stream = some file := by
  unfold removeDump at touched
  split at touched
  · rename_i linked
    obtain reads | ⟨removal, member, names⟩ := touched
    · exact .inl (.inl reads)
    · rcases List.mem_append.mp member with old | new
      · exact .inl (.inr ⟨removal, old, names⟩)
      · cases List.mem_singleton.mp new
        rcases names with rfl | reads
        · exact .inr (.inl linked)
        · exact .inr (.inr reads)
  · exact .inl touched

/-- What a step newly touches is the file at the path. -/
theorem Stepped.touches (stepped : Stepped path s event t) (touched : t.Touches file) :
    s.Touches file ∨ s.files.link path = some file := by
  cases stepped with
  | absent | prepare | create | dump | killWriter => exact .inl touched
  | present | killReader =>
    obtain old | reads := Touches.of_setReader touched
    · exact .inl old
    · cases reads
  | @openStream reader granted found =>
    obtain old | reads := Touches.of_setReader touched
    · exact .inl old
    · right
      cases granted with
      | true => exact reads
      | false => cases reads
  | @load reader stream opened =>
    obtain old | reads := Touches.of_setReader touched
    · exact .inl old
    · exact .inl (.inl ⟨reader, by rw [opened]; exact reads⟩)
  | @log reader stream trace loaded =>
    obtain old | reads := Touches.of_setReader touched
    · exact .inl old
    · exact .inl (.inl ⟨reader, by rw [loaded]; exact reads⟩)
  | @remove reader stream trace logged =>
    obtain old | reads := Touches.of_setReader touched
    · obtain before | linked | reads := Touches.of_removeDump old
      · exact .inl before
      · exact .inr linked
      · exact .inl (.inl ⟨reader, by rw [logged]; exact reads⟩)
    · cases reads

end Touches

/-- Only the creation of a dump adds a file or a link. -/
theorem Stepped.files {path : P} {s t : Instances P β} (stepped : Stepped path s event t) :
    (s.dumped path event = [] ∧ s.files.next = t.files.next ∧
      ∀ other file, t.files.link other = some file → s.files.link other = some file) ∨
    s.dumped path event = [(s.files.create path).1] ∧ t.files = (s.files.create path).2 := by
  cases stepped with
  | create => exact .inr ⟨rfl, rfl⟩
  | remove =>
    refine .inl ⟨rfl, ?_, ?_⟩
    · change s.files.next = (s.removeDump path _ _).files.next
      unfold removeDump
      split <;> rfl
    · change ∀ other file, (s.removeDump path _ _).files.link other = some file → _
      unfold removeDump
      split
      · exact fun other file linked => (Files.linked_of_update linked).2
      · exact fun _ _ linked => linked
  | absent | present | openStream | load | log | prepare | dump | killReader | killWriter =>
    exact .inl ⟨rfl, rfl, fun _ _ linked => linked⟩

end Instances

namespace Programs

def init (files : Files P β) : Programs ι P β := ⟨files, fun _ => .init files, []⟩

/-- The instances of a program, on the files as they are now. -/
def view (s : Programs ι P β) (program : ι) : Instances P β :=
  { s.instances program with files := s.files }

variable [DecidableEq ι] [DecidableEq P]

/-- One step of one instance of one program. -/
def step (path : ι → P) (s : Programs ι P β) : ι × Event β → Option (Programs ι P β)
  | (program, event) =>
    ((s.view program).step (path program) event).map fun t =>
      { files := t.files
        instances := Function.update s.instances program t
        dumps := s.dumps ++ ((s.view program).dumped (path program) event).map (program, ·) }

/-- Nothing is assumed of the order of steps. -/
def Interleaved (_ : Programs ι P β) (_ : ι × Event β) : Prop := True

instance (s : Programs ι P β) (event : ι × Event β) : Decidable (s.Interleaved event) := .isTrue trivial

/-- Every file belongs to a path at most, for the whole run, and a program comes
by those of its own path only. -/
structure Housed (path : ι → P) (s : Programs ι P β) (home : Nat → Option P) : Prop where
  linked : ∀ other file, s.files.link other = some file → home file = some other
  fresh : ∀ file, s.files.next ≤ file → home file = none
  touched : ∀ program file, (s.instances program).Touches file → home file = some (path program)
  dumped : ∀ program file, (program, file) ∈ s.dumps → home file = some (path program)

section Housed
variable {path : ι → P} {s t : Programs ι P β}

omit [DecidableEq ι] [DecidableEq P] in
theorem housed_init (path : ι → P) (files : Files P β) :
    ∃ home, Housed path (init files : Programs ι P β) home := by
  classical
  refine ⟨fun file => if linked : ∃ other, files.link other = some file then some linked.choose
    else none, ?_, ?_, ?_, nofun⟩
  · intro other file linked
    have some' : ∃ other, files.link other = some file := ⟨other, linked⟩
    rw [dif_pos some', files.single _ _ file some'.choose_spec linked]
  · intro file unallocated
    exact dif_neg fun ⟨other, linked⟩ =>
      Nat.not_lt_of_le unallocated (files.allocated other file linked)
  · rintro program file (⟨reader, reads⟩ | ⟨removal, member, _⟩)
    · cases reads
    · cases member

/-- A step whose new file, if any, gets its path as its home. -/
theorem Housed.advance {home home' : Nat → Option P} (housed : Housed path s home) {program : ι}
    {after : Instances P β} (stepped : (s.view program).Stepped (path program) event after)
    (keeps : ∀ file other, home file = some other → home' file = some other)
    (links : ∀ other file, after.files.link other = some file → home' file = some other)
    (unallocated : ∀ file, after.files.next ≤ file → home' file = none)
    (new : ∀ file ∈ (s.view program).dumped (path program) event, home' file = some (path program)) :
    Housed path
      { files := after.files
        instances := Function.update s.instances program after
        dumps := s.dumps ++ ((s.view program).dumped (path program) event).map (program, ·) }
      home' where
  linked := links
  fresh := unallocated
  touched := by
    apply (Function.forall_update_iff s.instances fun other (t : Instances P β) =>
      ∀ file, t.Touches file → home' file = some (path other)).mpr
    refine ⟨fun file touched => ?_, fun other _ file touched =>
      keeps _ _ (housed.touched other file touched)⟩
    obtain old | linked := stepped.touches touched
    · exact keeps _ _ (housed.touched program file old)
    · exact keeps _ _ (housed.linked _ file linked)
  dumped := by
    intro other file member
    rcases List.mem_append.mp member with old | fresh
    · exact keeps _ _ (housed.dumped other file old)
    · obtain ⟨opened, mem, same⟩ := List.mem_map.mp fresh
      cases same
      exact new file mem

omit [DecidableEq ι] in
/-- The file at a path, or the next one there is, has that path or none as its home. -/
theorem Housed.create_keeps {home : Nat → Option P} (housed : Housed path s home) (place : P)
    (known : home file = some other) :
    Function.update home (s.files.create place).1 (some place) file = some other := by
  by_cases same : file = (s.files.create place).1
  · subst same
    rw [Function.update_self]
    cases linked : s.files.link place with
    | some old =>
      rw [s.files.create_of_linked linked, housed.linked _ old linked] at known
      exact known
    | none =>
      rw [s.files.create_of_absent linked, housed.fresh _ (Nat.le_refl _)] at known
      cases known
  · rw [Function.update_of_ne same]
    exact known

theorem Housed.step {home : Nat → Option P} (housed : Housed path s home)
    (stepped : s.step path input = some t) : ∃ home', Housed path t home' := by
  obtain ⟨program, event⟩ := input
  obtain ⟨after, taken, rfl⟩ := Option.map_eq_some_iff.mp stepped
  have did := Instances.Stepped.of_step taken
  obtain ⟨nothing, next, links⟩ | ⟨created, files⟩ := did.files
  · refine ⟨home, housed.advance did (fun _ _ same => same) ?_ ?_ ?_⟩
    · exact fun other file linked => housed.linked other file (links other file linked)
    · exact fun file above => housed.fresh file (Nat.le_trans (Nat.le_of_eq next) above)
    · rw [nothing]
      exact nofun
  · change after.files = (s.files.create (path program)).2 at files
    refine ⟨Function.update home (s.files.create (path program)).1 (some (path program)),
      housed.advance did (fun _ _ known => housed.create_keeps _ known) ?_ ?_ ?_⟩
    · rw [files]
      intro other file linked
      by_cases same : other = path program
      · subst same
        cases (s.files.create_link_self (path program)).symm.trans linked
        exact Function.update_self _ _ _
      · rw [Files.create_link_of_ne _ same] at linked
        exact housed.create_keeps _ (housed.linked other file linked)
    · rw [files]
      intro file above
      have allocated := Files.allocated _ (path program) _ (s.files.create_link_self (path program))
      rw [Function.update_of_ne (by omega)]
      exact housed.fresh file (Nat.le_trans (s.files.create_next_le _) above)
    · rw [created]
      intro file member
      cases List.mem_singleton.mp member
      exact Function.update_self _ _ _

/-- No call of `show_last_dump` comes by a dump of a program with another path. -/
theorem undisturbed (path : ι → P) (files : Files P β)
    (run : Run (Programs.step path) Interleaved (init files) inputs s) {reader writer : ι}
    (apart : path reader ≠ path writer) {file : Nat} (touched : (s.instances reader).Touches file) :
    (writer, file) ∉ s.dumps := by
  have housed := run.invariant (P := fun s => ∃ home, Housed path s home)
    (fun ⟨_, housed⟩ _ stepped => housed.step stepped) (housed_init path files)
  obtain ⟨home, housed⟩ := housed
  intro dumped
  have first := housed.touched reader file touched
  have second := housed.dumped writer file dumped
  exact apart (Option.some.inj (first.symm.trans second))

end Housed
end Programs
end BoostTest.Dump

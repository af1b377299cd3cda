import BoostTest.Dump.Programs

/-! Programs that locate themselves have dump files of their own, and programs
whose location is cut may not. -/
namespace BoostTest.Dump
open FileSystem Transition Program

variable {ι P β : Type} [DecidableEq ι]

namespace Programs
variable [DecidableEq P]

/-- A call of `_signal_handler`, from start to end. -/
theorem dump_run (path : ι → P) (s : Programs ι P β) (program : ι) (writer : Nat) (trace : List β)
    (idle : (s.instances program).writers writer = .idle) :
    ∃ t, Run (Programs.step path) Interleaved s
        [(program, .prepare writer), (program, .create writer), (program, .dump writer trace)] t ∧
      t.files = (s.files.store (path program) trace).2 ∧
      t.dumps = s.dumps ++ [(program, (s.files.store (path program) trace).1)] ∧
      ∀ other, (t.instances other).readers = (s.instances other).readers := by
  refine Run.exists_of_execute ?_
  simp only [execute, Interleaved, if_true, Programs.step, view, Instances.step, Instances.dumped, idle,
    Instances.setWriter, Instances.createDump, Instances.writeDump, Option.map_some, Option.bind_some,
    Function.update_self, List.map_cons, List.map_nil, List.append_nil, Option.some.injEq,
    exists_eq_left']
  refine ⟨rfl, rfl, fun other => ?_⟩
  by_cases same : other = program
  · subst same
    simp
  · simp [same]

/-- A call of `show_last_dump` that finds a file, from start to end. -/
theorem show_run (path : ι → P) (s : Programs ι P β) (program : ι) (reader : Nat)
    (idle : (s.instances program).readers reader = .idle) (linked : s.files.link (path program) = some file) :
    ∃ t, Run (Programs.step path) Interleaved s
        [(program, .test reader), (program, .openStream reader true), (program, .load reader),
          (program, .log reader), (program, .remove reader)] t ∧
      t.dumps = s.dumps ∧
      ⟨file, some file, s.files.content file⟩ ∈ (t.instances program).removals := by
  refine Run.exists_of_execute ?_
  simp [execute, Interleaved, Programs.step, view, Instances.step, Instances.dumped, idle, linked,
    Instances.setReader, Instances.loadFrom, Instances.removeDump, Files.existsAt]

/-- A program reports and removes the next dump of one that shares its path. -/
theorem shared_path_disturbs (path : ι → P) (s : Programs ι P β) {reader writer : ι}
    (same : path reader = path writer) (trace : List β) (ready : (s.instances reader).readers 0 = .idle)
    (idle : (s.instances writer).writers 0 = .idle) :
    ∃ inputs t file, Run (Programs.step path) Interleaved s inputs t ∧
      (writer, file) ∈ t.dumps ∧ ⟨file, some file, trace⟩ ∈ (t.instances reader).removals := by
  obtain ⟨middle, dumps, files, owned, readers⟩ := dump_run path s writer 0 trace idle
  have linked : middle.files.link (path reader) = some (s.files.store (path writer) trace).1 := by
    rw [files, same]
    exact s.files.store_link_self _ _
  have content : middle.files.content (s.files.store (path writer) trace).1 = trace := by
    rw [files]
    exact s.files.store_content_self _ _
  obtain ⟨t, shown, kept, removed⟩ := show_run path middle reader 0 (by rw [readers]; exact ready) linked
  refine ⟨_, t, _, dumps.trans shown, ?_, content ▸ removed⟩
  rw [kept, owned]
  exact List.mem_append_right _ (List.mem_singleton_self _)

/-- In no run does `show_last_dump` of the one come by a dump of the other. -/
def Undisturbed (β : Type) (path : ι → P) (reader writer : ι) : Prop :=
  ∀ (files : Files P β) inputs s, Run (Programs.step path) Interleaved (init files) inputs s →
    ∀ file, (s.instances reader).Touches file → (writer, file) ∉ s.dumps

theorem undisturbed_iff (path : ι → P) (reader writer : ι) :
    Undisturbed β path reader writer ↔ path reader ≠ path writer := by
  constructor
  · intro undisturbed same
    obtain ⟨inputs, t, file, run, dumped, removed⟩ :=
      shared_path_disturbs path (init Files.empty : Programs ι P β) same [] rfl rfl
    exact undisturbed _ inputs t run file (.inr ⟨_, removed, .inl rfl⟩) dumped
  · exact fun apart files inputs s run file touched => undisturbed path files run apart touched

end Programs

/-- What `program_location` has to give the programs of one system, whose file
names `upcase` makes alike. -/
structure KeepsApart (β : Type) {platform : Platform} (upcase : CodeUnit → CodeUnit)
    (programs : ι → Process platform) : Prop where
  located : ∀ program, (programs program).Located
  distinct : ∀ one other, (programs one).Succeeds → (programs other).Succeeds →
    (programs one).executable.place.fold upcase ≠ (programs other).executable.place.fold upcase →
    (programs one).dumpFile upcase ≠ (programs other).dumpFile upcase
  undisturbed : ∀ one other, (programs one).Succeeds → (programs other).Succeeds →
    (programs one).executable.place.fold upcase ≠ (programs other).executable.place.fold upcase →
    Programs.Undisturbed β (fun program => (programs program).dumpFile upcase) one other

/-- Programs are kept apart exactly when the buffer has room for every path. -/
theorem keepsApart_iff {platform : Platform} (upcase : CodeUnit → CodeUnit)
    (programs : ι → Process platform) :
    KeepsApart β upcase programs ↔ ∀ program, (programs program).Fits := by
  constructor
  · exact fun apart program => (programs program).located_iff.mp (apart.located program)
  · intro fits
    have located : ∀ program, (programs program).Located := fun program =>
      (programs program).located_iff.mpr (fits program)
    have distinct : ∀ one other, (programs one).Succeeds → (programs other).Succeeds →
        (programs one).executable.place.fold upcase ≠ (programs other).executable.place.fold upcase →
        (programs one).dumpFile upcase ≠ (programs other).dumpFile upcase :=
      fun one other first second different same =>
        different (Process.dumpFile_injective upcase (located one) (located other) first second same)
    exact ⟨located, distinct, fun one other first second different =>
      (Programs.undisturbed_iff _ one other).mpr (distinct one other first second different)⟩

/-- On Linux a location says no more than the first bytes of the path. -/
theorem programLocation_of_take {p q : Process .linux} (one : p.Succeeds) (other : q.Succeeds)
    (alike : p.executable.path.take maxBufSize = q.executable.path.take maxBufSize) :
    p.programLocation = q.programLocation := by
  have cut : ∀ r : Process .linux, r.Succeeds →
      r.programLocation = .value (r.executable.path.take maxBufSize) := by
    rintro r ⟨path, found⟩
    rw [Process.programLocation_linux] at found ⊢
    cases thrown : r.exhausted with
    | true => simp [thrown] at found
    | false =>
      cases failed : r.refused with
      | true => simp [thrown, failed] at found
      | false => rfl
  rw [cut p one, cut q other, alike]

theorem plainName {c : CodeUnit} (plain : c ∉ [0, unit '/', unit '\\', unit '.'])
    (platform : Platform) (more : Nat) : platform.Name (List.replicate (more + 1) c) := by
  simp only [List.mem_cons, List.not_mem_nil, or_false, not_or] at plain
  obtain ⟨zero, slash, backslash, dot⟩ := plain
  have only : ∀ d ∈ List.replicate (more + 1) c, d = c := fun d member => List.eq_of_mem_replicate member
  refine ⟨⟨nofun, fun d member => ?_⟩, fun current => ?_, fun parent => ?_, fun ends => ?_⟩
  · rw [only d member]
    cases platform <;> simp [Platform.separator, slash, backslash]
  · exact dot (only _ (current ▸ List.mem_cons_self)).symm
  · exact dot (only _ (parent ▸ List.mem_cons_self)).symm
  · exact zero (only _ ends).symm

/-- An executable 512 directories deep, whose path is two bytes too long. -/
def deepProgram (name : CodeUnit) (plain : name ∉ [0, unit '/', unit '\\', unit '.']) : Process .linux where
  executable :=
    { rootName := []
      directories := List.replicate 512 [unit 'a']
      name := [name]
      rooted := rfl
      below := fun _ member => List.eq_of_mem_replicate member ▸ plainName (by decide) _ 0
      named := plainName plain _ 0 }
  cwd := ⟨[], []⟩
  exhausted := false
  refused := false
  lastError := 0

def deepPrograms : Bool → Process .linux
  | false => deepProgram (unit 'a') (by decide)
  | true => deepProgram (unit 'b') (by decide)

/-- An executable whose path has as many characters as the buffer. -/
def longProgram : Process .windows where
  executable :=
    { rootName := [unit 'C', unit ':']
      directories := []
      name := List.replicate 257 (unit 'a')
      rooted := .inl ⟨unit 'C', rfl, rfl⟩
      below := nofun
      named := plainName (by decide) _ 256 }
  cwd := ⟨[], []⟩
  exhausted := false
  refused := false
  lastError := 0

theorem deepPrograms_take (program : Bool) :
    (deepPrograms program).executable.path.take maxBufSize =
      (unit '/' :: Paths.listing (unit '/') (List.replicate 512 [unit 'a'])).take maxBufSize := by
  have length : ∀ depth, (Paths.listing (unit '/') (List.replicate depth [unit 'a'])).length = 2 * depth := by
    intro depth
    induction depth with
    | zero => rfl
    | succ depth ih =>
      simp only [Paths.listing, List.replicate_succ, List.flatMap_cons, List.length_append,
        List.length_cons, List.length_nil] at ih ⊢
      omega
  have room : maxBufSize ≤ (unit '/' :: Paths.listing (unit '/') (List.replicate 512 [unit 'a'])).length := by
    rw [List.length_cons, length]
    decide
  cases program <;> exact List.take_append_of_le_length room

/-- Both programs get the location of an executable of neither, and so one dump
file; the location of the third ends in a terminator. -/
theorem truncated_locations_collide :
    (∀ program, (deepPrograms program).Succeeds) ∧
      (deepPrograms false).executable.place.fold id ≠ (deepPrograms true).executable.place.fold id ∧
      (deepPrograms false).dumpFile id = (deepPrograms true).dumpFile id ∧
      ¬ KeepsApart Nat id deepPrograms ∧
      longProgram.programLocation = .value (longProgram.executable.path.take 259 ++ [0]) := by
  have succeeds : ∀ program, (deepPrograms program).Succeeds := by
    intro program
    refine ⟨(deepPrograms program).executable.path.take maxBufSize, ?_⟩
    rw [Process.programLocation_linux]
    cases program <;> rfl
  have different : (deepPrograms false).executable.place.fold id ≠
      (deepPrograms true).executable.place.fold id := by
    intro same
    have last := congrArg (fun place => place.parts.getLast?) same
    simp only [Place.fold, Executable.place, List.map_append, List.map_cons, List.map_nil,
      List.getLast?_concat] at last
    exact absurd last (by decide)
  have located : (deepPrograms false).programLocation = (deepPrograms true).programLocation :=
    programLocation_of_take (succeeds false) (succeeds true)
      ((deepPrograms_take false).trans (deepPrograms_take true).symm)
  have same : (deepPrograms false).dumpFile id = (deepPrograms true).dumpFile id := by
    have path : (deepPrograms false).getDumpPath = (deepPrograms true).getDumpPath := by
      rw [Process.getDumpPath, Process.getDumpPath, located]
    rw [Process.dumpFile, Process.dumpFile, path]
    rfl
  refine ⟨succeeds, different, same, fun apart => ?_, ?_⟩
  · exact apart.distinct false true (succeeds false) (succeeds true) different same
  · have length : longProgram.executable.path.length = 260 := by
      simp only [longProgram, Executable.path, Paths.listing, List.flatMap_nil, List.nil_append,
        List.length_append, List.length_cons, List.length_nil, List.length_replicate]
    rw [Process.programLocation_windows, if_neg (by decide), if_neg (by decide), length,
      if_neg (by decide)]
    rfl

end BoostTest.Dump

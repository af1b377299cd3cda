import BoostTest.Dump.Lives

/-! One life after the other is a run of instances whose windows are apart:
once the handler runs, `main` does not go on, and what a process had open is
gone with it. -/
namespace BoostTest.Dump
open FileSystem Signals Transition

variable {P β : Type}

/-- Where a frame is after its next statement, unless the handler returns. -/
def Point.next : Point → Option Point
  | .entry => some .reset
  | .reset => some .prepared
  | .prepared => some .opened
  | .opened => some .dumped
  | .dumped => some .raised
  | .raised => none
  | .thrown => some .thrown

/-- At most one frame has been entered in front of `frames`. -/
inductive Entered (entries : Nat) (frames : List (Frame Signal Point)) (p : Process Signal Point) : Prop where
  | none (frames : p.frames = frames) (entries : p.entries = entries)
  | one (frames : p.frames = ⟨sig, entries, .entry⟩ :: frames) (entries : p.entries = entries + 1)

theorem Entered.of_delivered {p q : Process Signal Point}
    (delivered : Process.Delivered .entry p sig q) : Entered p.entries p.frames q := by
  cases delivered with
  | pend | kill => exact .none rfl rfl
  | enter => exact .one rfl rfl

namespace Crash

/-- Where the innermost frame is once it has executed or failed. -/
def next (f : Frame Signal Point) : Input → Option Point
  | .deliver _ | .fault => some f.code
  | .exec => f.code.next
  | .refuse => some .dumped
  | .throw => some .thrown

/-- The frames of a process, its innermost one a statement later if it runs. -/
def moved (c : Crash) (input : Input) : List (Frame Signal Point) :=
  match c.process.frames with
  | [] => []
  | f :: outer => ((next f input).map fun code => { f with code }).toList ++ outer

theorem moved_top {c : Crash} (top : c.process.frames = f :: outer) (input : Input) :
    c.moved input = ((next f input).map fun code => { f with code }).toList ++ outer := by
  rw [moved, top]

theorem moved_deliver (c : Crash) (sig : Signal) : c.moved (.deliver sig) = c.process.frames := by
  cases top : c.process.frames with
  | nil => rw [moved, top]
  | cons => rw [moved_top top]; rfl

theorem moved_fault (c : Crash) : c.moved .fault = c.process.frames := by
  cases top : c.process.frames with
  | nil => rw [moved, top]
  | cons => rw [moved_top top]; rfl

theorem Stepped.entered {c t : Crash} (stepped : Stepped c input t) :
    Entered c.process.entries (c.moved input) t.process := by
  cases stepped with
  | deliver delivered =>
    rw [moved_deliver]
    exact .of_delivered delivered
  | faultEnter =>
    rw [moved_fault]
    exact .one rfl rfl
  | faultKill =>
    rw [moved_fault]
    exact .none rfl rfl
  | reset top code | prepare top code | «open» top code | dump top code | leave top code =>
    rw [moved_top top, next, code]
    exact .none rfl rfl
  | @exit f outer top code =>
    have same : { f with code := .thrown } = f := by
      cases f
      cases code
      rfl
    rw [moved_top top, next, code]
    exact .none (by simp [Point.next, same, top]) rfl
  | refuse top | throw top =>
    rw [moved_top top]
    exact .none rfl rfl
  | raise top code delivered | leavePending top code waiting delivered =>
    rw [moved_top top, next, code]
    exact .of_delivered delivered

/-- A process that has been struck and lives is in the handler. -/
theorem Bounded.inside {c t : Crash} (bounded : c.Bounded) (stepped : c.step input = some t)
    (alive : t.process.killed = false) : t.process.frames ≠ [] := by
  have after := bounded.step stepped
  have entered : c.process.frames ≠ [] → t.process.entries ≠ 0 := by
    intro busy
    have counted := bounded.sound.counted
    have some' := List.length_pos_iff.mpr busy
    obtain ⟨_, entries⟩ | ⟨_, entries⟩ := (Stepped.of_step stepped).2.entered <;> omega
  apply (after.live alive).entered
  cases (Stepped.of_step stepped).2 with
  | deliver delivered =>
    cases delivered with
    | pend masked =>
      apply entered
      rintro empty
      simp [Process.masked, empty] at masked
    | kill => cases alive
    | enter => exact Nat.succ_ne_zero _
  | faultEnter => exact Nat.succ_ne_zero _
  | faultKill => cases alive
  | reset top | prepare top | «open» top | dump top | raise top | leave top | leavePending top
  | exit top | refuse top | throw top => exact entered (by simp [top])

end Crash

/-- Handler entries are counted once each. -/
structure Numbered (frames : List (Frame Signal Point)) (entries : Nat) : Prop where
  below : ∀ f ∈ frames, f.serial < entries
  distinct : (frames.map Frame.serial).Nodup

namespace Numbered
variable {frames : List (Frame Signal Point)}

theorem entered (numbered : Numbered frames entries) (entered : Entered entries frames p) :
    Numbered p.frames p.entries := by
  obtain ⟨same, count⟩ | ⟨new, count⟩ := entered
  · rw [same, count]
    exact numbered
  · rw [new, count]
    constructor
    · intro f member
      obtain rfl | member := List.mem_cons.mp member
      · exact Nat.lt_succ_self _
      · exact Nat.lt_succ_of_lt (numbered.below f member)
    · refine List.nodup_cons.mpr ⟨?_, numbered.distinct⟩
      intro member
      obtain ⟨f, member, serial⟩ := List.mem_map.mp member
      exact Nat.lt_irrefl _ (serial ▸ numbered.below f member)

/-- The innermost frame runs on or returns. -/
theorem tail (numbered : Numbered (f :: outer) entries) (next : Option Point) :
    Numbered ((next.map fun code => { f with code }).toList ++ outer) entries := by
  obtain ⟨fresh, distinct⟩ := List.nodup_cons.mp numbered.distinct
  have older : ∀ g ∈ outer, g.serial < entries := fun g member =>
    numbered.below g (List.mem_cons_of_mem _ member)
  cases next with
  | none => exact ⟨older, distinct⟩
  | some code =>
    refine ⟨?_, List.nodup_cons.mpr ⟨fresh, distinct⟩⟩
    intro g member
    obtain rfl | member := List.mem_cons.mp member
    · exact numbered.below f List.mem_cons_self
    · exact older g member

theorem moved {c : Crash} (numbered : Numbered c.process.frames entries) (input : Input) :
    Numbered (c.moved input) entries := by
  cases top : c.process.frames with
  | nil =>
    rw [Crash.moved, top]
    exact ⟨by simp, List.nodup_nil⟩
  | cons f outer =>
    rw [Crash.moved_top top]
    exact (top ▸ numbered).tail _

end Numbered

namespace Instances
variable {s : Instances P β} {base : Nat} {frames : List (Frame Signal Point)}

/-- Only the writers of the frames are touched. -/
theorem close_keeps (s : Instances P β) (base : Nat) (frames : List (Frame Signal Point)) :
    (s.close base frames).files = s.files ∧ (s.close base frames).readers = s.readers ∧
      (s.close base frames).removals = s.removals := by
  induction frames generalizing s with
  | nil => exact ⟨rfl, rfl, rfl⟩
  | cons f outer ih => exact ih (s.setWriter (base + f.serial) .idle)

theorem close_idle (idle : s.writers writer = .idle ∨ ∃ f ∈ frames, writer = base + f.serial) :
    (s.close base frames).writers writer = .idle := by
  induction frames generalizing s with
  | nil =>
    obtain idle | ⟨f, member, _⟩ := idle
    · exact idle
    · cases member
  | cons f outer ih =>
    apply ih
    by_cases own : writer = base + f.serial
    · exact .inl (own ▸ s.setWriter_self _ _)
    · obtain idle | ⟨g, member, same⟩ := idle
      · exact .inl ((Function.update_of_ne own _ _).trans idle)
      · obtain rfl | member := List.mem_cons.mp member
        · exact absurd same own
        · exact .inr ⟨g, member, same⟩

variable [DecidableEq P]

/-- Closing is killing the writers one by one. -/
theorem close_run (path : P) (s : Instances P β) (base : Nat) (frames : List (Frame Signal Point)) :
    Run (step path) (Exclusive path) s (frames.map fun f => .killWriter (base + f.serial))
      (s.close base frames) := by
  induction frames generalizing s with
  | nil => exact .refl _
  | cons f outer ih => exact .next trivial rfl (ih (s.setWriter (base + f.serial) .idle))

end Instances

/-- What a frame at some point of the handler has open. -/
def Point.Holds (path : P) (files : Files P β) : Point → Writer → Prop
  | .entry, writer | .reset, writer | .dumped, writer | .raised, writer
  | .thrown, writer => writer = .idle
  | .prepared, writer => writer = .prepared
  | .opened, writer => ∃ file, writer = .opened file ∧ files.link path = some file

/-- Each frame has the writer of its entry, and nobody else has one. -/
structure Writes (path : P) (io : Instances P β) (base : Nat) (frames : List (Frame Signal Point)) :
    Prop where
  holds : ∀ f ∈ frames, f.code.Holds path io.files (io.writers (base + f.serial))
  others : ∀ writer, (∀ f ∈ frames, writer ≠ base + f.serial) → io.writers writer = .idle

namespace Writes
variable {path : P} {io : Instances P β} {frames : List (Frame Signal Point)}

theorem entered (writes : Writes path io base frames) (numbered : Numbered frames entries)
    (entered : Entered entries frames p) : Writes path io base p.frames := by
  obtain ⟨same, _⟩ | ⟨new, _⟩ := entered
  · exact same ▸ writes
  · rw [new]
    constructor
    · intro f member
      obtain rfl | member := List.mem_cons.mp member
      · apply writes.others
        intro f member same
        exact Nat.ne_of_gt (numbered.below f member) (Nat.add_left_cancel same)
      · exact writes.holds f member
    · intro writer apart
      apply writes.others
      exact fun f member => apart f (List.mem_cons_of_mem _ member)

/-- A frame that holds nothing executes a statement without a call. -/
theorem silent (writes : Writes path io base (f :: outer))
    (silent : f.code.call capture (base + f.serial) = none) :
    Writes path io base ((f.code.next.map fun code => { f with code }).toList ++ outer) := by
  have own := writes.holds f List.mem_cons_self
  have idle : io.writers (base + f.serial) = .idle := by
    cases code : f.code with
    | entry | dumped | raised | thrown =>
      rw [code] at own
      exact own
    | reset | prepared | opened =>
      rw [code] at silent
      cases silent
  have older : ∀ g ∈ outer, g.code.Holds path io.files (io.writers (base + g.serial)) :=
    fun g member => writes.holds g (List.mem_cons_of_mem _ member)
  have others : ∀ writer, (∀ g ∈ outer, writer ≠ base + g.serial) → io.writers writer = .idle := by
    intro writer apart
    by_cases same : writer = base + f.serial
    · exact same ▸ idle
    · apply writes.others
      intro g member
      obtain rfl | member := List.mem_cons.mp member
      · exact same
      · exact apart g member
  cases code : f.code with
  | entry | dumped | thrown =>
    constructor
    · intro g member
      obtain rfl | member := List.mem_cons.mp member
      · exact idle
      · exact older g member
    · intro writer apart
      apply others
      exact fun g member => apart g (List.mem_cons_of_mem _ member)
  | raised => exact ⟨older, others⟩
  | reset | prepared | opened =>
    rw [code] at silent
    cases silent

/-- Whatever a frame does to its own writer, the others keep theirs, if the dump
file stays where it is. -/
theorem own (writes : Writes path io base (f :: outer)) (numbered : Numbered (f :: outer) entries)
    {files : Files P β} (holds : code.Holds path files phase)
    (kept : ∀ file, io.files.link path = some file → files.link path = some file) :
    Writes path ({ io with files }.setWriter (base + f.serial) phase) base
      ({ f with code } :: outer) := by
  have apart : ∀ g ∈ outer, base + g.serial ≠ base + f.serial := by
    intro g member same
    apply (List.nodup_cons.mp numbered.distinct).1
    exact Nat.add_left_cancel same ▸ List.mem_map_of_mem member
  constructor
  · intro g member
    obtain rfl | member := List.mem_cons.mp member
    · rw [Instances.setWriter_self]
      exact holds
    · have old := writes.holds g (List.mem_cons_of_mem _ member)
      have same : ({ io with files }.setWriter (base + f.serial) phase : Instances P β).writers
          (base + g.serial) = io.writers (base + g.serial) :=
        Function.update_of_ne (apart g member) _ _
      rw [same]
      cases point : g.code with
      | entry | reset | dumped | raised | thrown | prepared =>
        rw [point] at old
        exact old
      | opened =>
        rw [point] at old
        obtain ⟨file, opened, linked⟩ := old
        exact ⟨file, opened, kept file linked⟩
  · intro writer foreign
    have other : writer ≠ base + f.serial := foreign { f with code } List.mem_cons_self
    have same : ({ io with files }.setWriter (base + f.serial) phase : Instances P β).writers
        writer = io.writers writer := Function.update_of_ne other _ _
    rw [same]
    apply writes.others
    intro g member
    obtain rfl | member := List.mem_cons.mp member
    · exact other
    · exact foreign g (List.mem_cons_of_mem _ member)

/-- A frame fails, or has done with the file. -/
theorem closed (writes : Writes path io base (f :: outer)) (numbered : Numbered (f :: outer) entries)
    (code : Point) (after : code = .dumped ∨ code = .thrown) :
    Writes path (io.setWriter (base + f.serial) .idle) base ({ f with code } :: outer) := by
  have holds : code.Holds path io.files .idle := by
    obtain rfl | rfl := after <;> rfl
  exact writes.own numbered holds fun _ linked => linked

/-- A frame executes a statement with its call. -/
theorem call (writes : Writes path io base (f :: outer)) (numbered : Numbered (f :: outer) entries)
    [DecidableEq P] (calls : f.code.call capture (base + f.serial) = some event)
    (called : io.step path event = some after) :
    Writes path after base ((f.code.next.map fun code => { f with code }).toList ++ outer) := by
  cases code : f.code with
  | entry | dumped | raised | thrown =>
    rw [code] at calls
    cases calls
  | reset =>
    rw [code] at calls
    cases calls
    cases Instances.Stepped.of_step called with
    | prepare => exact writes.own numbered rfl fun _ linked => linked
  | prepared =>
    rw [code] at calls
    cases calls
    cases Instances.Stepped.of_step called with
    | create =>
      have kept : ∀ file, io.files.link path = some file →
          (io.files.create path).2.link path = some file := fun file linked => by
        rw [Files.create_link_self, io.files.create_of_linked linked]
      exact writes.own numbered ⟨_, rfl, io.files.create_link_self path⟩ kept
  | opened =>
    rw [code] at calls
    cases calls
    cases Instances.Stepped.of_step called with
    | dump => exact writes.own numbered rfl fun _ linked => linked

end Writes

section Calls
variable [DecidableEq P] {path : P} {s t : Instances P β}

/-- A call of `show_last_dump` concerns its own reader. -/
theorem Reader.call_frame (called : s.step path ((s.readers reader).call reader granted) = some t) :
    t.writers = s.writers ∧ ∀ other, other ≠ reader → t.readers other = s.readers other := by
  have own : ∀ phase : Reader β, ∀ other, other ≠ reader →
      (s.setReader reader phase).readers other = s.readers other :=
    fun phase other apart => Function.update_of_ne apart _ _
  cases phase : s.readers reader with
  | idle =>
    rw [phase] at called
    cases Instances.Stepped.of_step called with
    | absent => exact ⟨rfl, fun _ _ => rfl⟩
    | present => exact ⟨rfl, own _⟩
  | found =>
    rw [phase] at called
    cases Instances.Stepped.of_step called with
    | openStream => exact ⟨rfl, own _⟩
  | opened =>
    rw [phase] at called
    cases Instances.Stepped.of_step called with
    | load => exact ⟨rfl, own _⟩
  | loaded =>
    rw [phase] at called
    cases Instances.Stepped.of_step called with
    | log => exact ⟨rfl, own _⟩
  | logged =>
    rw [phase] at called
    cases Instances.Stepped.of_step called with
    | @remove _ stream trace =>
      have kept : (s.removeDump path stream trace).writers = s.writers ∧
          (s.removeDump path stream trace).readers = s.readers := by
        unfold Instances.removeDump
        split <;> exact ⟨rfl, rfl⟩
      refine ⟨kept.1, fun other apart => ?_⟩
      exact (Function.update_of_ne apart _ _).trans (congrFun kept.2 other)

/-- A call of the handler has nothing to do with the readers. -/
theorem Point.call_readers {capture : Nat → List β} {code : Point}
    (calls : code.call capture writer = some event) (called : s.step path event = some t) :
    t.readers = s.readers ∧ ∀ reader phase, (s.setReader reader phase).step path event =
      some (t.setReader reader phase) := by
  cases code with
  | entry | dumped | raised | thrown => cases calls
  | reset =>
    cases calls
    cases Instances.Stepped.of_step called with
    | prepare idle =>
      refine ⟨rfl, fun reader phase => ?_⟩
      have same : (s.setReader reader phase).writers writer = .idle := idle
      simp only [Instances.step, same]
      rfl
  | prepared =>
    cases calls
    cases Instances.Stepped.of_step called with
    | create prepared =>
      refine ⟨rfl, fun reader phase => ?_⟩
      have same : (s.setReader reader phase).writers writer = .prepared := prepared
      simp only [Instances.step, same]
      rfl
  | opened =>
    cases calls
    cases Instances.Stepped.of_step called with
    | @dump _ file _ opened =>
      refine ⟨rfl, fun reader phase => ?_⟩
      have same : (s.setReader reader phase).writers writer = .opened file := opened
      simp only [Instances.step, same]
      rfl

end Calls

/-- A process, and that nobody else has anything open. -/
structure Custody (path : P) (s : Lives P β) (l : Life) : Prop where
  bounded : l.crash.Bounded
  numbered : Numbered l.crash.process.frames l.crash.process.entries
  writes : Writes path s.io s.entries l.crash.process.frames
  last : s.born = l.number + 1
  alone : ∀ reader, reader ≠ l.number → s.io.readers reader = .idle
  reading : l.stage ≠ .constructed → s.io.readers l.number = .idle

namespace Lives

structure Orderly (path : P) (s : Lives P β) : Prop where
  custody : ∀ l, s.life = some l → Custody path s l
  living : ∀ l, s.life = some l → l.crash.ended = false
  readers : s.life = none → ∀ reader, s.io.readers reader = .idle
  writers : s.life = none → ∀ writer, s.io.writers writer = .idle

end Lives

namespace Custody
variable {path : P} {s : Lives P β} {l : Life}

theorem proceed (custody : Custody path s l) (alive : l.crash.ended = false) :
    (s.proceed l).Orderly path where
  custody m same := by
    cases same
    exact ⟨custody.bounded, custody.numbered, custody.writes, custody.last, custody.alone,
      custody.reading⟩
  living m same := by
    cases same
    exact alive
  readers := nofun
  writers := nofun

theorem bury (custody : Custody path s l) (ending : Ending) : (s.bury l ending).Orderly path where
  custody := nofun
  living := nofun
  readers _ reader := by
    have kept := (Instances.close_keeps (s.abandon l).io s.entries l.crash.process.frames).2.1
    refine (congrFun kept reader).trans ?_
    by_cases own : reader = l.number
    · exact own ▸ s.io.setReader_self _ _
    · exact (Function.update_of_ne own _ _).trans (custody.alone reader own)
  writers _ writer := by
    apply Instances.close_idle
    by_cases held : ∃ f ∈ l.crash.process.frames, writer = s.entries + f.serial
    · exact .inr held
    · left
      apply custody.writes.others
      exact fun f member same => held ⟨f, member, same⟩

theorem settle (custody : Custody path s { l with crash }) : (s.settle l crash).Orderly path := by
  obtain ⟨_, same⟩ | ⟨_, _, same⟩ | ⟨living, same⟩ := s.settle_cases l crash <;> rw [same]
  · exact custody.bury _
  · exact custody.bury _
  · exact custody.proceed living

/-- A signal strikes, or the handler executes a statement. -/
theorem struck (custody : Custody path s l) (struck : l.crash.step input = some crash)
    {io : Instances P β} {history : List (Record β)} (readers : io.readers = s.io.readers)
    (writes : Writes path io s.entries (l.crash.moved input)) :
    Custody path { s with io, history } { l with crash } := by
  have entered := (Crash.Stepped.of_step struck).2.entered
  have numbered := custody.numbered.moved input
  exact {
    bounded := custody.bounded.step struck
    numbered := numbered.entered entered
    writes := writes.entered numbered entered
    last := custody.last
    alone := fun reader apart => (congrFun readers reader).trans (custody.alone reader apart)
    reading := fun elsewhere => (congrFun readers l.number).trans (custody.reading elsewhere) }

/-- `main` takes a step that leaves its signals alone. -/
theorem move (custody : Custody path s l) (free : l.crash.process.frames = [])
    {io : Instances P β} {history : List (Record β)} (writers : io.writers = s.io.writers)
    (readers : ∀ reader, reader ≠ l.number → io.readers reader = s.io.readers reader)
    (reading : stage ≠ .constructed → io.readers l.number = .idle) :
    Custody path { s with io, history } { l with stage, constructed } where
  bounded := custody.bounded
  numbered := custody.numbered
  writes := by
    have others := custody.writes.others
    rw [free] at others
    refine ⟨fun f member => ?_, fun writer _ => (congrFun writers writer).trans (others writer nofun)⟩
    exact absurd (free ▸ member) List.not_mem_nil
  last := custody.last
  alone reader apart := (readers reader apart).trans (custody.alone reader apart)
  reading := reading

theorem abandon (custody : Custody path s l) (free : l.crash.process.frames = []) (stage : Stage) :
    Custody path (s.abandon l) { l with stage } :=
  custody.move free rfl (fun _ apart => Function.update_of_ne apart _ _)
    fun _ => s.io.setReader_self _ _

/-- A signal statement of `main`, outside every handler. -/
theorem signal (custody : Custody path s l) (free : l.crash.process.frames = [])
    (living : l.crash.ended = false) (sig : Signal) : Custody path s (l.signal sig) := by
  have alive := (Crash.ended_eq_false.mp living).1
  have consistent := custody.bounded.sound.consistent
  have unentered : l.crash.process.entries = 0 := by
    by_contra entered
    exact (custody.bounded.live alive).entered entered free
  have few : ∀ p : Process Signal Point, capacity p ≤ 2 := by
    intro p
    have first := Bool.toNat_le (p.enters .segv)
    have second := Bool.toNat_le (p.enters .abrt)
    unfold capacity
    omega
  constructor
  case bounded =>
    refine ⟨⟨⟨consistent.distinct, consistent.held⟩, ?_, custody.bounded.sound.counted, ?_⟩, fun _ => ?_⟩
    · intro f member
      exact absurd (free ▸ member) List.not_mem_nil
    · change l.crash.process.entries + _ ≤ 2
      rw [unentered, Nat.zero_add]
      exact few _
    · have live := custody.bounded.live alive
      exact ⟨live.noted, live.entered⟩
  case numbered => exact custody.numbered
  case writes => exact custody.writes
  case last => exact custody.last
  case alone => exact custody.alone
  case reading => exact custody.reading

end Custody

namespace Lives
variable [DecidableEq P] {path : P} {capture : Nat → List β} {s t : Lives P β}

omit [DecidableEq P] in
theorem init_orderly (path : P) (files : Files P β) : (init files).Orderly path where
  custody := nofun
  living := nofun
  readers _ _ := rfl
  writers _ _ := rfl

omit [DecidableEq P] in
theorem Orderly.start (orderly : s.Orderly path) (dead : s.life = none) :
    (s.start path).Orderly path where
  custody l same := by
    cases same
    have readers := orderly.readers dead
    exact {
      bounded := ⟨⟨⟨List.nodup_nil, nofun⟩, nofun, Nat.le_refl _, Nat.zero_le _⟩,
        fun _ => ⟨trivial, fun entered => absurd rfl entered⟩⟩
      numbered := ⟨nofun, List.nodup_nil⟩
      writes := ⟨nofun, fun writer _ => orderly.writers dead writer⟩
      last := rfl
      alone := fun reader _ => readers reader
      reading := fun _ => readers _ }
  living l same := by
    cases same
    rfl
  readers := nofun
  writers := nofun

theorem Orderly.step (orderly : s.Orderly path) (stepped : s.step path capture happening = some t) :
    t.Orderly path := by
  cases Stepped.of_step stepped with
  | start dead => exact orderly.start dead
  | @move l stage _ alive free next =>
    have custody := orderly.custody _ alive
    have elsewhere : l.stage ≠ .constructed := by
      intro same
      rw [same] at next
      cases next
    have moved : Custody path s { l with stage } :=
      custody.move free rfl (fun _ _ => rfl) fun _ => custody.reading elsewhere
    exact moved.proceed (orderly.living l alive)
  | @segv l _ alive free stage =>
    have custody := orderly.custody l alive
    have living := orderly.living l alive
    have moved : Custody path s { l.signal .segv with stage := .segvSet } :=
      (custody.signal free living .segv).move free rfl (fun _ _ => rfl)
        fun _ => custody.reading (by simp [stage])
    exact moved.proceed living
  | @abrt l _ alive free stage =>
    have living := orderly.living l alive
    have moved : Custody path s { l.signal .abrt with stage := .constructed, constructed := true } :=
      ((orderly.custody l alive).signal free living .abrt).move free rfl (fun _ _ => rfl)
        fun elsewhere => absurd rfl elsewhere
    exact moved.proceed living
  | @call l _ io alive free stage called busy =>
    obtain ⟨writers, readers⟩ := Reader.call_frame called
    have moved : ∀ history, Custody path { s with io, history } l := fun history =>
      (orderly.custody l alive).move free writers readers fun elsewhere => absurd stage elsewhere
    exact (moved _).proceed (orderly.living l alive)
  | @pass l _ io alive free stage called idle =>
    obtain ⟨writers, readers⟩ := Reader.call_frame called
    have moved : ∀ history, Custody path { s with io, history } { l with stage := .shown } :=
      fun history => (orderly.custody l alive).move free writers readers fun _ => idle
    exact (moved _).proceed (orderly.living l alive)
  | leave alive free => exact (orderly.custody _ alive).bury _
  | @handle l f outer crash _ alive top silent executed =>
    have custody := orderly.custody l alive
    have writes : Writes path s.io s.entries (l.crash.moved .exec) := by
      rw [Crash.moved_top top]
      exact (top ▸ custody.writes).silent silent
    exact (custody.struck executed rfl writes).settle
  | @handleCall l f outer event crash _ io alive top calls called executed =>
    have custody := orderly.custody l alive
    have writes : Writes path io s.entries (l.crash.moved .exec) := by
      rw [Crash.moved_top top]
      exact (top ▸ custody.writes).call (top ▸ custody.numbered) calls called
    exact (custody.struck executed (Point.call_readers calls called).1 writes).settle
  | @throw l alive free | @terminate l alive free =>
    exact ((orderly.custody l alive).abandon free _).proceed (orderly.living l alive)
  | @failThrow l f outer crash alive top failed =>
    have custody := orderly.custody l alive
    have writes : Writes path (s.io.setWriter (s.entries + f.serial) .idle) s.entries
        (l.crash.moved .throw) := by
      rw [Crash.moved_top top]
      exact (top ▸ custody.writes).closed (top ▸ custody.numbered) .thrown (.inr rfl)
    refine (custody.struck failed ?_ writes).settle
    rfl
  | @failRefuse l f outer crash alive top failed =>
    have custody := orderly.custody l alive
    have writes : Writes path (s.io.setWriter (s.entries + f.serial) .idle) s.entries
        (l.crash.moved .refuse) := by
      rw [Crash.moved_top top]
      exact (top ▸ custody.writes).closed (top ▸ custody.numbered) .dumped (.inl rfl)
    refine (custody.struck failed ?_ writes).settle
    rfl
  | @deliver l sig crash alive struck =>
    have custody := orderly.custody l alive
    exact (custody.struck struck rfl (l.crash.moved_deliver sig ▸ custody.writes)).settle
  | @fault l crash alive struck =>
    have custody := orderly.custody l alive
    exact (custody.struck struck rfl (l.crash.moved_fault ▸ custody.writes)).settle
  | kill alive => exact (orderly.custody _ alive).bury _

/-- A dump that is there can be opened. -/
def Readable (path : P) (s : Lives P β) : Happening → Prop
  | .exec granted => granted = true ∨ s.io.files.link path = none
  | .start | .throw | .refuse | .terminate | .deliver _ | .fault | .kill => True

instance (path : P) (s : Lives P β) (happening : Happening) : Decidable (s.Readable path happening) :=
  match happening with
  | .exec granted => inferInstanceAs (Decidable (granted = true ∨ s.io.files.link path = none))
  | .start | .throw | .refuse | .terminate | .deliver _ | .fault | .kill => .isTrue trivial

omit [DecidableEq P] in
/-- The lives as instances: inside a handler, `main` counts as killed. -/
def view (s : Lives P β) : Instances P β :=
  match s.life with
  | none => s.io
  | some l => if l.crash.process.frames = [] then s.io else (s.abandon l).io

omit [DecidableEq P] in
/-- Only a reader is seen otherwise. -/
theorem view_keeps (s : Lives P β) : s.view.removals = s.io.removals ∧ s.view.files = s.io.files := by
  unfold view
  split
  · exact ⟨rfl, rfl⟩
  · split <;> exact ⟨rfl, rfl⟩

omit [DecidableEq P] in
@[simp] theorem view_proceed_free {l : Life} (free : l.crash.process.frames = []) :
    (s.proceed l).view = s.io := if_pos free

omit [DecidableEq P] in
@[simp] theorem view_proceed_inside {l : Life} (inside : l.crash.process.frames ≠ []) :
    (s.proceed l).view = (s.abandon l).io := if_neg inside

theorem view_abandon (path : P) {l : Life} (alive : s.life = some l) :
    ∃ events, Run (Instances.step path) (Instances.Exclusive path) s.view events (s.abandon l).io := by
  unfold view
  rw [alive]
  dsimp only
  split
  · exact ⟨[.killReader l.number], .single trivial rfl⟩
  · exact ⟨[], .refl _⟩

theorem view_bury (path : P) (s : Lives P β) (l : Life) (ending : Ending) :
    ∃ events, Run (Instances.step path) (Instances.Exclusive path) (s.abandon l).io events
      (s.bury l ending).view :=
  ⟨_, Instances.close_run path _ _ _⟩

theorem view_settle (path : P) (s : Lives P β) {l : Life} {crash : Crash}
    (inside : crash.process.killed = false → crash.process.frames ≠ []) :
    ∃ events, Run (Instances.step path) (Instances.Exclusive path) (s.abandon l).io events
      (s.settle l crash).view := by
  obtain ⟨_, same⟩ | ⟨_, _, same⟩ | ⟨living, same⟩ := s.settle_cases l crash <;> rw [same]
  · exact view_bury path s { l with crash } _
  · exact view_bury path s { l with crash } _
  · rw [view_proceed_inside (inside (Crash.ended_eq_false.mp living).1)]
    exact ⟨[], .refl _⟩

omit [DecidableEq P] in
theorem view_free {l : Life} (alive : s.life = some l) (free : l.crash.process.frames = []) :
    s.view = s.io := by
  unfold view
  rw [alive]
  exact if_pos free

omit [DecidableEq P] in
/-- A call of `show_last_dump` finds no dump being written. -/
theorem call_exclusive {l : Life} (custody : Custody path s l) (free : l.crash.process.frames = [])
    (readable : granted = true ∨ s.io.files.link path = none) :
    s.io.Exclusive path ((s.io.readers l.number).call l.number granted) := by
  cases s.io.readers l.number with
  | idle | opened | loaded | logged => trivial
  | found =>
    refine ⟨fun writer file opened => ?_, readable⟩
    have idle := custody.writes.others writer (free ▸ nofun)
    cases idle.symm.trans opened

omit [DecidableEq P] in
/-- A dump is written when no call of `show_last_dump` goes on. -/
theorem handler_exclusive {l : Life} {code : Point} (custody : Custody path s l)
    (calls : code.call capture writer = some event) : (s.abandon l).io.Exclusive path event := by
  cases code with
  | entry | dumped | raised | thrown => cases calls
  | reset | opened =>
    cases calls
    trivial
  | prepared =>
    cases calls
    intro reader exposed
    by_cases own : reader = l.number
    · rw [own, abandon, Instances.setReader_self] at exposed
      exact exposed
    · have idle : (s.abandon l).io.readers reader = .idle :=
        (Function.update_of_ne own _ _).trans (custody.alone reader own)
      rw [idle] at exposed
      exact exposed

theorem view_step (orderly : s.Orderly path) (readable : s.Readable path happening)
    (stepped : s.step path capture happening = some t) :
    ∃ events, Run (Instances.step path) (Instances.Exclusive path) s.view events t.view := by
  cases Stepped.of_step stepped with
  | start dead =>
    have same : s.view = s.io := by rw [view, dead]
    rw [same]
    exact ⟨[], .refl _⟩
  | move alive free | segv alive free | abrt alive free =>
    rw [view_free alive free, view_proceed_free]
    · exact ⟨[], .refl _⟩
    · exact free
  | call alive free stage called =>
    rw [view_free alive free, view_free rfl free]
    exact ⟨_, .single (call_exclusive (orderly.custody _ alive) free readable) called⟩
  | @pass l granted io alive free stage called =>
    have after : ({ s with io }.proceed { l with stage := .shown }).view = io := view_proceed_free free
    have ran : Run (Instances.step path) (Instances.Exclusive path) s.view
        [(s.io.readers l.number).call l.number granted]
        ({ s with io }.proceed { l with stage := .shown }).view := by
      rw [view_free alive free, after]
      exact .single (call_exclusive (orderly.custody l alive) free readable) called
    exact ⟨_, ran⟩
  | leave alive | kill alive =>
    obtain ⟨first, gone⟩ := view_abandon path alive
    obtain ⟨rest, closed⟩ := view_bury path s _ _
    exact ⟨first ++ rest, gone.trans closed⟩
  | @handle l f outer crash _ alive top silent executed =>
    obtain ⟨first, gone⟩ := view_abandon path alive
    obtain ⟨rest, settled⟩ := view_settle path s ((orderly.custody l alive).bounded.inside executed)
    exact ⟨first ++ rest, gone.trans settled⟩
  | @handleCall l f outer event crash _ io alive top calls called executed =>
    have custody := orderly.custody l alive
    obtain ⟨first, gone⟩ := view_abandon path alive
    have written : (s.abandon l).io.step path event = some (io.setReader l.number .idle) :=
      (Point.call_readers calls called).2 l.number .idle
    have wrote := Run.single (handler_exclusive custody calls) written
    obtain ⟨rest, settled⟩ := view_settle path { s with io, history := _ }
      (custody.bounded.inside executed)
    exact ⟨_, (gone.trans wrote).trans settled⟩
  | throw alive free | terminate alive free =>
    rw [view_proceed_free]
    · exact view_abandon path alive
    · exact free
  | @failThrow l f outer crash alive top failed | @failRefuse l f outer crash alive top failed =>
    obtain ⟨first, gone⟩ := view_abandon path alive
    have closed : Run (Instances.step path) (Instances.Exclusive path) (s.abandon l).io
        [.killWriter (s.entries + f.serial)]
        ((s.abandon l).io.setWriter (s.entries + f.serial) .idle) := .single trivial rfl
    obtain ⟨rest, settled⟩ := view_settle path
      { s with io := s.io.setWriter (s.entries + f.serial) .idle }
      ((orderly.custody l alive).bounded.inside failed)
    exact ⟨_, (gone.trans closed).trans settled⟩
  | @deliver l _ crash alive struck | @fault l crash alive struck =>
    obtain ⟨first, gone⟩ := view_abandon path alive
    obtain ⟨rest, settled⟩ := view_settle path s ((orderly.custody l alive).bounded.inside struck)
    exact ⟨first ++ rest, gone.trans settled⟩

/-- The lives are instances that keep their windows apart. -/
theorem instances_of_run {files : Files P β}
    (run : Run (step path capture) (Readable path) (init files) happenings s) :
    ∃ events, Run (Instances.step path) (Instances.Exclusive path) (.init files) events s.view :=
  run.simulates view (fun orderly _ stepped => orderly.step stepped)
    (fun orderly readable stepped => view_step orderly readable stepped) (init_orderly path files)

/-- No start removes a dump that it has not reported. -/
theorem removals_reported {files : Files P β}
    (run : Run (step path capture) (Readable path) (init files) happenings s) : s.io.Reported := by
  obtain ⟨events, instances⟩ := instances_of_run run
  have guarded := Instances.guarded_of_run instances
  obtain ⟨removals, kept⟩ := s.view_keeps
  intro removal member
  rw [← kept]
  exact (guarded.final removal (removals ▸ member)).reported

end Lives
end BoostTest.Dump

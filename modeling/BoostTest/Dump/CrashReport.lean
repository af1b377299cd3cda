import BoostTest.Dump.Restart

/-! A life leaves a dump exactly if it crashed, and the next start reports it,
as long as nothing strikes or fails inside the handler. -/
namespace BoostTest.Dump
open FileSystem Signals Transition

variable {P β : Type}

namespace Lives

/-- The handler, once entered, is left alone and does not fail; a dump that is
there can be opened. -/
def Undisturbed (path : P) (s : Lives P β) : Happening → Prop
  | .exec granted => granted = true ∨ s.io.files.link path = none
  | .deliver _ | .fault | .kill | .throw | .refuse => ∀ l ∈ s.life, l.crash.process.frames = []
  | .start | .terminate => True

instance (path : P) (s : Lives P β) (happening : Happening) :
    Decidable (s.Undisturbed path happening) :=
  match happening with
  | .exec granted => inferInstanceAs (Decidable (granted = true ∨ s.io.files.link path = none))
  | .deliver _ | .fault | .kill | .throw | .refuse =>
    inferInstanceAs (Decidable (∀ l ∈ s.life, l.crash.process.frames = []))
  | .start | .terminate => .isTrue trivial

theorem Undisturbed.readable {path : P} {s : Lives P β} (undisturbed : s.Undisturbed path happening) :
    s.Readable path happening := by
  cases happening with
  | exec => exact undisturbed
  | start | throw | refuse | terminate | deliver | fault | kill => trivial

/-- The dump file holds the last dump of a life. -/
def Filed (path : P) (s : Lives P β) (life : Nat) : Prop :=
  ∃ writer file, s.io.files.link path = some file ∧
    .dumped life writer file (s.io.files.content file) ∈ s.history

/-- Where the innermost of the frames is, and the dump file with it. The others
have raised SIGABRT. -/
def Front (path : P) (s : Lives P β) (life : Nat) : List (Frame Signal Point) → Prop
  | [] => True
  | f :: outer =>
    f.code ≠ .thrown ∧
    (f.code = .opened → ∀ file, s.io.files.link path = some file → s.io.files.content file = []) ∧
    (f.code = .dumped ∨ f.code = .raised → Filed path s life) ∧ ∀ g ∈ outer, g.code = .raised

/-- Outside the handler, what `StacktraceDumper` has set so far. -/
structure Primed (path : P) (s : Lives P β) (l : Life) : Prop where
  handled : l.crash.process.frames = [] → l.constructed = true →
    ∀ sig, l.crash.process.disposition sig = .handler
  half : l.crash.process.frames = [] → l.stage = .segvSet →
    l.crash.process.disposition .segv = .handler
  front : Front path s l.number l.crash.process.frames

/-- What the lives that have ended left. -/
structure Left (path : P) (s : Lives P β) : Prop where
  ended : ∀ life ending, .ended life ending ∈ s.history →
    life < s.born ∧ ∀ l, s.life = some l → life < l.number
  started : ∀ life present, .started life present ∈ s.history → life < s.born
  clean : ∀ life ending, .ended life ending ∈ s.history → (∀ constructed, ending ≠ .crashed constructed) →
    ∀ writer file trace, .dumped life writer file trace ∉ s.history
  left : ∀ life, .ended life (.crashed true) ∈ s.history → ∃ writer file trace,
    .dumped life writer file trace ∈ s.history ∧
    (∀ present, .started (life + 1) present ∈ s.history → present = some trace) ∧
    (s.life = none → s.born = life + 1 →
      s.io.files.link path = some file ∧ s.io.files.content file = trace)

section Left
variable {path : P} {s t : Lives P β}

/-- A living process adds records other than those of starts and ends. -/
theorem Left.grow (left : Left path s) (alive : s.life = some l) (life : t.life = some m)
    (number : m.number = l.number) (born : t.born = s.born) (history : t.history = s.history ++ more)
    (new : ∀ record ∈ more, (∀ life ending, record ≠ .ended life ending) ∧
      (∀ life present, record ≠ .started life present) ∧
      ∀ life writer file trace, record = .dumped life writer file trace → life = l.number) :
    Left path t := by
  have oldEnded : ∀ {life ending}, .ended life ending ∈ t.history → .ended life ending ∈ s.history := by
    intro life ending member
    rw [history] at member
    exact (List.mem_append.mp member).resolve_right fun new' => (new _ new').1 life ending rfl
  have oldStarted : ∀ {life present}, .started life present ∈ t.history →
      .started life present ∈ s.history := by
    intro life present member
    rw [history] at member
    exact (List.mem_append.mp member).resolve_right fun new' => (new _ new').2.1 life present rfl
  constructor
  case ended =>
    intro life' ending member
    obtain ⟨before, earlier⟩ := left.ended life' ending (oldEnded member)
    refine ⟨born ▸ before, fun n same => ?_⟩
    cases life.symm.trans same
    exact number ▸ earlier l alive
  case started => exact fun life' present member => born ▸ left.started life' present (oldStarted member)
  case clean =>
    intro life' ending member quiet writer file trace dumped
    rw [history] at dumped
    obtain old | new' := List.mem_append.mp dumped
    · exact left.clean life' ending (oldEnded member) quiet writer file trace old
    · have own := (new _ new').2.2 _ _ _ _ rfl
      exact Nat.ne_of_lt ((left.ended life' ending (oldEnded member)).2 l alive) own
  case left =>
    intro life' crashed
    obtain ⟨writer, file, trace, dumped, started, _⟩ := left.left life' (oldEnded crashed)
    refine ⟨writer, file, trace, ?_, fun present member => started present (oldStarted member), ?_⟩
    · rw [history]
      exact List.mem_append_left _ dumped
    · intro dead
      cases life.symm.trans dead

/-- A process comes to its end. -/
theorem Left.bury (left : Left path s) (alive : s.life = some l) (last : s.born = l.number + 1)
    (ending : Ending)
    (clean : (∀ constructed, ending ≠ .crashed constructed) → ∀ writer file trace,
      .dumped l.number writer file trace ∉ s.history)
    (filed : ending = .crashed true → Filed path s l.number) : Left path (s.bury l ending) := by
  have files : (s.bury l ending).io.files = s.io.files :=
    (Instances.close_keeps (s.abandon l).io s.entries l.crash.process.frames).1
  have kept : ∀ {record}, record ∈ s.history → record ∈ (s.bury l ending).history :=
    List.mem_append_left _
  have oldStarted : ∀ {life present}, .started life present ∈ (s.bury l ending).history →
      .started life present ∈ s.history := by
    intro life present member
    refine (List.mem_append.mp member).resolve_right fun new => ?_
    cases List.mem_singleton.mp new
  have oldDumped : ∀ {life writer file trace},
      .dumped life writer file trace ∈ (s.bury l ending).history →
        .dumped life writer file trace ∈ s.history := by
    intro life writer file trace member
    refine (List.mem_append.mp member).resolve_right fun new => ?_
    cases List.mem_singleton.mp new
  constructor
  case ended =>
    intro life ended member
    refine ⟨?_, nofun⟩
    obtain old | new := List.mem_append.mp member
    · exact (left.ended life ended old).1
    · cases List.mem_singleton.mp new
      change l.number < s.born
      omega
  case started => exact fun life present member => left.started life present (oldStarted member)
  case clean =>
    intro life ended member quiet writer file trace dumped
    obtain old | new := List.mem_append.mp member
    · exact left.clean life ended old quiet writer file trace (oldDumped dumped)
    · cases List.mem_singleton.mp new
      exact clean quiet writer file trace (oldDumped dumped)
  case left =>
    intro life crashed
    obtain old | new := List.mem_append.mp crashed
    · obtain ⟨writer, file, trace, dumped, started, _⟩ := left.left life old
      refine ⟨writer, file, trace, kept dumped, fun present member => started present (oldStarted member), ?_⟩
      intro _ next
      have earlier := (left.ended life _ old).2 l alive
      change s.born = life + 1 at next
      omega
    · cases List.mem_singleton.mp new
      obtain ⟨writer, file, linked, dumped⟩ := filed rfl
      refine ⟨writer, file, _, kept dumped, fun present member => ?_, fun _ _ => ?_⟩
      · have before := left.started _ present (oldStarted member)
        omega
      · rw [files]
        exact ⟨linked, rfl⟩

theorem Left.start (left : Left path s) (dead : s.life = none) : Left path (s.start path) := by
  have kept : ∀ {record}, record ∈ s.history → record ∈ (s.start path).history :=
    List.mem_append_left _
  have oldEnded : ∀ {life ending}, .ended life ending ∈ (s.start path).history →
      .ended life ending ∈ s.history := by
    intro life ending member
    refine (List.mem_append.mp member).resolve_right fun new => ?_
    cases List.mem_singleton.mp new
  constructor
  case ended =>
    intro life ending member
    have before := (left.ended life ending (oldEnded member)).1
    refine ⟨Nat.lt_succ_of_lt before, fun l same => ?_⟩
    cases same
    exact before
  case started =>
    intro life present member
    obtain old | new := List.mem_append.mp member
    · exact Nat.lt_succ_of_lt (left.started life present old)
    · cases List.mem_singleton.mp new
      exact Nat.lt_succ_self _
  case clean =>
    intro life ending member quiet writer file trace dumped
    refine left.clean life ending (oldEnded member) quiet writer file trace ?_
    refine (List.mem_append.mp dumped).resolve_right fun new => ?_
    cases List.mem_singleton.mp new
  case left =>
    intro life crashed
    obtain ⟨writer, file, trace, dumped, started, here⟩ := left.left life (oldEnded crashed)
    refine ⟨writer, file, trace, kept dumped, fun present member => ?_, nofun⟩
    obtain old | new := List.mem_append.mp member
    · exact started present old
    · have next : s.born = life + 1 ∧ (s.io.files.link path).map s.io.files.content = present := by
        have same := List.mem_singleton.mp new
        simp only [Record.started.injEq] at same
        exact ⟨same.1.symm, same.2.symm⟩
      obtain ⟨linked, content⟩ := here dead next.1
      rw [← next.2, linked, ← content]
      rfl

theorem init_left (path : P) (files : Files P β) : Left path (init files) := ⟨nofun, nofun, nofun, nofun⟩

end Left
section Primed
variable {path : P} {capture : Nat → List β} {s t : Lives P β} {l : Life}

/-- After a step of the handler: killed with its dump in the file, or going on. -/
structure Handled (path : P) (s : Lives P β) (life : Nat) (crash : Crash) : Prop where
  going : crash.exited = false
  filed : crash.process.killed = true → Filed path s life
  front : crash.process.killed = false → Front path s life crash.process.frames

/-- A statement of the handler without a call. -/
theorem Primed.handle (primed : Primed path s l) (bounded : l.crash.Bounded)
    (top : l.crash.process.frames = f :: outer)
    (silent : f.code.call capture writer = none) (executed : l.crash.step .exec = some crash) :
    Handled path s l.number crash := by
  have front := primed.front
  rw [top] at front
  obtain ⟨whole, _, filed, raised⟩ := front
  have sameTop : ∀ {g rest}, l.crash.process.frames = g :: rest → f = g ∧ outer = rest :=
    fun same => List.cons.inj (top.symm.trans same)
  obtain ⟨ended, executed⟩ := Crash.Stepped.of_step executed
  obtain ⟨living, going⟩ := Crash.ended_eq_false.mp ended
  cases executed with
  | prepare same code | «open» same code | dump same code =>
    obtain ⟨rfl, rfl⟩ := sameTop same
    rw [code] at silent
    cases silent
  | exit same code =>
    obtain ⟨rfl, rfl⟩ := sameTop same
    exact absurd code whole
  | reset same code =>
    obtain ⟨rfl, rfl⟩ := sameTop same
    refine ⟨going, fun killed => (by cases living.symm.trans killed), fun _ => ?_⟩
    exact ⟨by simp, nofun, by simp, raised⟩
  | raise same code delivered =>
    obtain ⟨rfl, rfl⟩ := sameTop same
    have here := filed (.inl code)
    refine ⟨going, fun _ => here, fun alive => ?_⟩
    cases delivered with
    | pend => exact ⟨by simp, nofun, fun _ => here, raised⟩
    | kill => cases alive
    | enter =>
      refine ⟨by simp, nofun, by simp, fun g member => ?_⟩
      obtain rfl | member := List.mem_cons.mp member
      · rfl
      · exact raised g member
  | leave same code =>
    obtain ⟨rfl, rfl⟩ := sameTop same
    have here := filed (.inr code)
    refine ⟨going, fun _ => here, fun _ => ?_⟩
    change Front path s l.number outer
    cases outer with
    | nil => trivial
    | cons g rest =>
      have late := raised g List.mem_cons_self
      refine ⟨by simp [late], fun opened => ?_, fun _ => here, fun g member =>
        raised g (List.mem_cons_of_mem _ member)⟩
      cases late.symm.trans opened
  | leavePending same code waiting delivered =>
    obtain ⟨rfl, rfl⟩ := sameTop same
    have killed := bounded.sound.leave_kills top (by simp [code]) delivered
    refine ⟨going, fun _ => filed (.inr code), fun alive => ?_⟩
    cases killed.symm.trans alive

/-- A statement of the handler with its call. -/
theorem Primed.handleCall [DecidableEq P] {io : Instances P β} (primed : Primed path s l)
    (custody : Custody path s l) (top : l.crash.process.frames = f :: outer)
    (calls : f.code.call capture (s.entries + f.serial) = some event)
    (called : s.io.step path event = some io) (executed : l.crash.step .exec = some crash) :
    Handled path
      { s with
        io
        history := s.history ++ (s.io.writers (s.entries + f.serial)).record capture l.number
          (s.entries + f.serial) (io.writers (s.entries + f.serial)) }
      l.number crash := by
  have front := primed.front
  rw [top] at front
  obtain ⟨whole, empty, _, raised⟩ := front
  have holds := custody.writes.holds f (top ▸ List.mem_cons_self)
  have sameTop : ∀ {g rest}, l.crash.process.frames = g :: rest → f = g ∧ outer = rest :=
    fun same => List.cons.inj (top.symm.trans same)
  obtain ⟨ended, executed⟩ := Crash.Stepped.of_step executed
  obtain ⟨living, going⟩ := Crash.ended_eq_false.mp ended
  cases executed with
  | reset same code | raise same code | leave same code | leavePending same code | exit same code =>
    obtain ⟨rfl, rfl⟩ := sameTop same
    rw [code] at calls
    cases calls
  | prepare same code =>
    obtain ⟨rfl, rfl⟩ := sameTop same
    refine ⟨going, fun killed => (by cases living.symm.trans killed), fun _ => ?_⟩
    exact ⟨by simp, nofun, by simp, raised⟩
  | «open» same code =>
    obtain ⟨rfl, rfl⟩ := sameTop same
    rw [code] at calls
    cases calls
    cases Instances.Stepped.of_step called with
    | create =>
      refine ⟨going, fun killed => (by cases living.symm.trans killed), fun _ => ?_⟩
      refine ⟨by simp, fun _ file linked => ?_, by simp, raised⟩
      change (s.io.files.create path).2.link path = some file at linked
      change (s.io.files.create path).2.content file = []
      rw [Files.create_link_self] at linked
      rw [← Option.some.inj linked, Files.create_content, Function.update_self]
  | dump same code =>
    obtain ⟨rfl, rfl⟩ := sameTop same
    rw [code] at calls holds
    cases calls
    obtain ⟨file, opened, linked⟩ := holds
    have content := empty code file linked
    cases Instances.Stepped.of_step called with
    | @dump _ other _ same =>
      cases opened.symm.trans same
      refine ⟨going, fun killed => (by cases living.symm.trans killed), fun _ => ?_⟩
      refine ⟨by simp, nofun, fun _ => ⟨s.entries + f.serial, file, linked, ?_⟩, raised⟩
      have written : (s.io.files.write file (capture (s.entries + f.serial))).content file =
          capture (s.entries + f.serial) := by
        rw [Files.write_content_self, content, List.drop_nil, List.append_nil]
      have closed : (s.io.writeDump (s.entries + f.serial) file (capture (s.entries + f.serial))).writers
          (s.entries + f.serial) = .idle := Instances.setWriter_self _ _ _
      change Record.dumped l.number (s.entries + f.serial) file
        ((s.io.files.write file (capture (s.entries + f.serial))).content file) ∈ _
      rw [written, opened, closed]
      exact List.mem_append_right _ (List.mem_singleton_self _)

/-- A signal outside the handler kills only if nothing handles it yet. -/
theorem Primed.strike (primed : Primed path s l) (free : l.crash.process.frames = [])
    (executed : l.crash.step input = some crash) :
    crash.exited = false ∧ (crash.process.killed = true → l.constructed = false) ∧
      (crash.process.killed = false → Front path s l.number crash.process.frames) := by
  have unmasked : ∀ sig, l.crash.process.masked sig = false := fun sig => by simp [Process.masked, free]
  have entered : ∀ sig, Front path s l.number (l.crash.process.enter .entry sig).frames := by
    intro sig
    refine ⟨by simp, by simp, by simp, fun g member => ?_⟩
    rw [free] at member
    cases member
  have unhandled : ∀ sig, l.crash.process.enters sig = false → l.constructed = false := by
    intro sig stops
    cases constructed : l.constructed with
    | false => rfl
    | true =>
      have enters := Process.enters_iff.mpr ⟨unmasked sig, primed.handled free constructed sig⟩
      cases stops.symm.trans enters
  obtain ⟨ended, executed⟩ := Crash.Stepped.of_step executed
  obtain ⟨living, going⟩ := Crash.ended_eq_false.mp ended
  cases executed with
  | @deliver sig p delivered =>
    refine ⟨going, ?_⟩
    cases delivered with
    | pend masked => cases (unmasked sig).symm.trans masked
    | kill _ reset =>
      have stops : l.crash.process.enters sig = false := by simp [Process.enters, reset]
      exact ⟨fun _ => unhandled sig stops, fun living => (by cases living)⟩
    | enter => exact ⟨fun killed => (by cases living.symm.trans killed), fun _ => entered _⟩
  | faultEnter => exact ⟨going, fun killed => (by cases living.symm.trans killed), fun _ => entered _⟩
  | faultKill stops => exact ⟨going, fun _ => unhandled _ stops, fun living => (by cases living)⟩
  | reset top | prepare top | «open» top | dump top | raise top | leave top | leavePending top
  | exit top | refuse top | throw top => cases free.symm.trans top

end Primed

section Step
variable {path : P} {capture : Nat → List β} {s t : Lives P β}

/-- What holds in every run that leaves the handler alone. -/
structure Calm (path : P) (s : Lives P β) : Prop where
  left : Left path s
  primed : ∀ l, s.life = some l → Primed path s l

theorem init_calm (path : P) (files : Files P β) : Calm path (init files) := ⟨init_left path files, nofun⟩

/-- `main` runs on, outside the handler. -/
theorem Calm.proceed (calm : Calm path s) (alive : s.life = some l) (life : t.life = some m)
    (number : m.number = l.number) (born : t.born = s.born) (history : t.history = s.history ++ more)
    (new : ∀ record ∈ more, record.tells = true) (free : m.crash.process.frames = [])
    (handled : m.constructed = true → ∀ sig, m.crash.process.disposition sig = .handler)
    (half : m.stage = .segvSet → m.crash.process.disposition .segv = .handler) : Calm path t where
  left := by
    refine calm.left.grow alive life number born history fun record member => ?_
    have tells := new record member
    refine ⟨fun _ _ same => ?_, fun _ _ same => ?_, fun _ _ _ _ same => ?_⟩
    all_goals
      rw [same] at tells
      cases tells
  primed n same := by
    cases life.symm.trans same
    refine ⟨fun _ => handled, fun _ => half, ?_⟩
    rw [free]
    trivial

/-- A signal, or a statement of the handler. -/
theorem Calm.settle (left : Left path s) (alive : s.life = some l) (last : s.born = l.number + 1)
    (inside : crash.process.killed = false → crash.process.frames ≠ []) (going : crash.exited = false)
    (filed : crash.process.killed = true → l.constructed = true → Filed path s l.number)
    (front : crash.process.killed = false → Front path s l.number crash.process.frames) :
    Calm path (s.settle l crash) := by
  obtain ⟨killed, same⟩ | ⟨_, exited, _⟩ | ⟨ended, same⟩ := s.settle_cases l crash
  · rw [same]
    refine ⟨?_, nofun⟩
    have struck : Left path ({ s with life := some { l with crash } } : Lives P β) :=
      left.grow alive rfl rfl rfl (List.append_nil _).symm nofun
    refine struck.bury (l := { l with crash }) rfl last _ (fun quiet => absurd rfl (quiet _)) ?_
    intro crashed
    simp only [Ending.crashed.injEq] at crashed
    exact filed killed crashed
  · cases going.symm.trans exited
  · have living := (Crash.ended_eq_false.mp ended).1
    rw [same]
    refine ⟨left.grow alive rfl rfl rfl (List.append_nil _).symm nofun, fun m same => ?_⟩
    cases same
    exact ⟨fun free => absurd free (inside living), fun free => absurd free (inside living),
      front living⟩

theorem Calm.bury (calm : Calm path s) (ledger : Ledger path s) (alive : s.life = some l)
    (last : s.born = l.number + 1) (free : l.crash.process.frames = [])
    (quiet : ∀ constructed, ending ≠ .crashed constructed) : Calm path (s.bury l ending) where
  left := calm.left.bury alive last ending (fun _ => ledger.unwritten l alive free)
    fun crashed => absurd crashed (quiet true)
  primed := nofun

theorem Calm.step [DecidableEq P] (calm : Calm path s) (orderly : s.Orderly path)
    (ledger : Ledger path s) (undisturbed : s.Undisturbed path happening)
    (stepped : s.step path capture happening = some t) : Calm path t := by
  have struck : ∀ {l input crash}, s.life = some l → l.crash.process.frames = [] →
      l.crash.step input = some crash → Calm path (s.settle l crash) := by
    intro l input crash alive free executed
    have custody := orderly.custody l alive
    obtain ⟨going, unhandled, front⟩ := (calm.primed l alive).strike free executed
    refine .settle calm.left alive custody.last (custody.bounded.inside executed) going ?_ front
    intro killed constructed
    cases (unhandled killed).symm.trans constructed
  cases Stepped.of_step stepped with
  | start dead =>
    refine ⟨calm.left.start dead, fun m same => ?_⟩
    cases same
    exact ⟨nofun, nofun, trivial⟩
  | @move l stage _ alive free next =>
    refine calm.proceed alive rfl rfl rfl (List.append_nil _).symm nofun free
      ((calm.primed l alive).handled free) fun half => ?_
    cases before : l.stage <;> rw [before] at next <;> cases next <;> cases half
  | @segv l _ alive free stage =>
    refine calm.proceed alive rfl rfl rfl (List.append_nil _).symm nofun free (fun constructed sig => ?_)
      fun _ => l.signal_self .segv
    cases sig with
    | segv => exact l.signal_self .segv
    | abrt =>
      have set := (calm.primed l alive).handled free constructed .abrt
      exact (l.signal_of_ne (by decide : Signal.abrt ≠ .segv)).trans set
  | @abrt l _ alive free stage =>
    refine calm.proceed alive rfl rfl rfl (List.append_nil _).symm nofun free (fun _ sig => ?_) nofun
    cases sig with
    | segv =>
      have set := (calm.primed l alive).half free stage
      exact (l.signal_of_ne (by decide : Signal.segv ≠ .abrt)).trans set
    | abrt => exact l.signal_self .abrt
  | @call l _ io alive free stage =>
    have primed := calm.primed l alive
    exact calm.proceed alive rfl rfl rfl rfl (fun _ member => Reader.record_tells member) free
      (primed.handled free) (primed.half free)
  | @pass l _ io alive free stage =>
    refine calm.proceed alive rfl rfl rfl (List.append_assoc _ _ _) ?_ free
      ((calm.primed l alive).handled free) nofun
    intro record member
    obtain reported | shown := List.mem_append.mp member
    · exact Reader.record_tells reported
    · cases List.mem_singleton.mp shown
      rfl
  | @leave l _ _ alive free =>
    exact calm.bury ledger alive (orderly.custody l alive).last free nofun
  | @kill l alive =>
    exact calm.bury ledger alive (orderly.custody l alive).last (undisturbed l alive) nofun
  | @handle l f outer crash _ alive top silent executed =>
    have custody := orderly.custody l alive
    have handled := (calm.primed l alive).handle custody.bounded top silent executed
    exact .settle calm.left alive custody.last (custody.bounded.inside executed) handled.going
      (fun killed _ => handled.filed killed) handled.front
  | @handleCall l f outer event crash _ io alive top calls called executed =>
    have custody := orderly.custody l alive
    have handled := (calm.primed l alive).handleCall custody top calls called executed
    refine .settle ?_ alive custody.last (custody.bounded.inside executed) handled.going
      (fun killed _ => handled.filed killed) handled.front
    refine calm.left.grow alive alive rfl rfl rfl fun record member => ?_
    obtain ⟨file, rfl | rfl⟩ := Writer.record_cases member
    · exact ⟨by simp, by simp, by simp⟩
    · refine ⟨by simp, by simp, fun life writer file trace same => ?_⟩
      cases same
      rfl
  | @throw l alive free | @terminate l alive free =>
    exact calm.proceed alive rfl rfl rfl (List.append_nil _).symm nofun free
      ((calm.primed l alive).handled free) nofun
  | deliver alive executed | fault alive executed =>
    exact struck alive (undisturbed _ alive) executed
  | failThrow alive top | failRefuse alive top => cases (undisturbed _ alive).symm.trans top

end Step

variable [DecidableEq P] {path : P} {capture : Nat → List β} {s : Lives P β}

end Lives

end BoostTest.Dump

import BoostTest.Dump.Sequential

/-! What becomes of the dumps that the lives leave. A dump stays until the handler
opens or writes its file again, or a later life has logged it. -/
namespace BoostTest.Dump
open FileSystem Signals Transition

variable {P β : Type} [DecidableEq P]

/-- A call of `show_last_dump` that does not remove leaves the files alone. -/
theorem Reader.call_cases {path : P} {s t : Instances P β}
    (called : s.step path ((s.readers reader).call reader granted) = some t) :
    (t.files = s.files ∧ t.removals = s.removals ∧ ∀ stream trace,
      t.readers reader = .logged stream trace → s.readers reader = .loaded stream trace) ∨
    ∃ stream trace, s.readers reader = .logged stream trace ∧
      t = (s.removeDump path stream trace).setReader reader .idle := by
  have moved : ∀ phase : Reader β, (∀ stream trace, phase ≠ .logged stream trace) →
      ∀ stream trace, (s.setReader reader phase).readers reader = .logged stream trace →
        s.readers reader = .loaded stream trace := by
    intro phase other stream trace logged
    rw [Instances.setReader_self] at logged
    exact absurd logged (other stream trace)
  cases phase : s.readers reader with
  | idle =>
    rw [phase] at called
    cases Instances.Stepped.of_step called with
    | absent idle =>
      refine .inl ⟨rfl, rfl, fun stream trace logged => ?_⟩
      cases idle.symm.trans logged
    | present => exact .inl ⟨rfl, rfl, phase ▸ moved _ nofun⟩
  | found =>
    rw [phase] at called
    cases Instances.Stepped.of_step called with
    | openStream => exact .inl ⟨rfl, rfl, phase ▸ moved _ nofun⟩
  | opened =>
    rw [phase] at called
    cases Instances.Stepped.of_step called with
    | load => exact .inl ⟨rfl, rfl, phase ▸ moved _ nofun⟩
  | loaded stream trace =>
    rw [phase] at called
    cases Instances.Stepped.of_step called with
    | log loaded =>
      refine .inl ⟨rfl, rfl, fun _ _ logged => ?_⟩
      rw [Instances.setReader_self] at logged
      cases logged
      exact phase.symm.trans loaded
  | logged =>
    rw [phase] at called
    cases Instances.Stepped.of_step called with
    | remove logged =>
      rw [phase] at logged
      cases logged
      exact .inr ⟨_, _, rfl, rfl⟩

theorem of_suffix_append {R : Type} {x : R} {xs ys after : List R} (tail : x :: after <:+ xs ++ ys)
    (new : x ∉ ys) : ∃ earlier, after = earlier ++ ys ∧ x :: earlier <:+ xs := by
  obtain ⟨before, same⟩ := tail
  obtain ⟨middle, rfl, rest⟩ | ⟨middle, rfl, rest⟩ := List.append_eq_append_iff.mp same
  · cases middle with
    | nil => exact absurd (List.nil_append ys ▸ rest ▸ List.mem_cons_self) new
    | cons y earlier =>
      obtain ⟨rfl, rfl⟩ := List.cons.inj rest
      exact ⟨earlier, rfl, before, rfl⟩
  · exact absurd (by simp [rest]) new

/-- An entry of the handler opens the file or writes it. -/
def Record.Touches (file : Nat) : Record β → Prop
  | .created _ _ other | .dumped _ _ other _ => other = file
  | .started _ _ | .reported _ _ _ | .shown _ | .ended _ _ => False

namespace Lives

/-- What has become of a dump of a life, with the history since it was written. -/
def Kept (path : P) (s : Lives P β) (life file : Nat) (trace : List β) (after : List (Record β)) : Prop :=
  (∃ record ∈ after, record.Touches file) ∨
  (s.io.files.link path = some file ∧ trace <+: s.io.files.content file) ∨
  ∃ later content, life < later ∧ .reported later (some file) content ∈ after ∧ trace <+: content

omit [DecidableEq P] in
theorem Kept.grow {path : P} {s t : Lives P β} {life : Nat} (kept : s.Kept path life file trace after)
    (files : t.io.files = s.io.files) (more : List (Record β)) :
    t.Kept path life file trace (after ++ more) := by
  obtain ⟨record, member, touches⟩ | present | ⟨later, content, older, told, grows⟩ := kept
  · exact .inl ⟨record, List.mem_append_left _ member, touches⟩
  · exact .inr (.inl (files ▸ present))
  · exact .inr (.inr ⟨later, content, older, List.mem_append_left _ told, grows⟩)

structure Accounts (path : P) (s : Lives P β) : Prop where
  earlier : ∀ life writer file trace, .dumped life writer file trace ∈ s.history → life < s.born
  kept : ∀ life writer file trace after, .dumped life writer file trace :: after <:+ s.history →
    s.Kept path life file trace after

/-- While `main` is about to remove a dump, its report is the last record. -/
structure Ledger (path : P) (s : Lives P β) : Prop where
  accounts : Accounts path s
  unwritten : ∀ l, s.life = some l → l.crash.process.frames = [] → ∀ writer file trace,
    .dumped l.number writer file trace ∉ s.history
  logged : ∀ l, s.life = some l → l.crash.process.frames = [] → ∀ stream trace,
    s.io.readers l.number = .logged stream trace → [.reported l.number stream trace] <:+ s.history

section Accounts
variable {path : P} {capture : Nat → List β} {s t : Lives P β} {l : Life}

omit [DecidableEq P] in
/-- Records other than dumps are added, and the files stay. -/
theorem Accounts.keep (accounts : Accounts path s) (born : s.born ≤ t.born)
    (files : t.io.files = s.io.files) (history : t.history = s.history ++ more)
    (new : ∀ life writer file trace, .dumped life writer file trace ∉ more) : Accounts path t := by
  constructor
  case earlier =>
    intro life writer file trace member
    rw [history] at member
    have old := (List.mem_append.mp member).resolve_right (new _ _ _ _)
    exact Nat.lt_of_lt_of_le (accounts.earlier _ _ _ _ old) born
  case kept =>
    intro life writer file trace after tail
    rw [history] at tail
    obtain ⟨earlier, rfl, old⟩ := of_suffix_append tail (new _ _ _ _)
    exact (accounts.kept _ _ _ _ _ old).grow files more

omit [DecidableEq P] in
theorem Accounts.bury (accounts : Accounts path s) (l : Life) (ending : Ending) :
    Ledger path (s.bury l ending) where
  accounts := accounts.keep (Nat.le_refl _)
    (Instances.close_keeps (s.abandon l).io s.entries l.crash.process.frames).1 rfl (by simp)
  unwritten := nofun
  logged := nofun

omit [DecidableEq P] in
theorem Accounts.settle (accounts : Accounts path s) {crash : Crash}
    (inside : crash.process.killed = false → crash.process.frames ≠ []) :
    Ledger path (s.settle l crash) := by
  obtain ⟨_, same⟩ | ⟨_, _, same⟩ | ⟨living, same⟩ := s.settle_cases l crash <;> rw [same]
  · exact accounts.bury _ _
  · exact accounts.bury _ _
  · have busy := inside (Crash.ended_eq_false.mp living).1
    constructor
    case accounts => exact ⟨accounts.earlier, accounts.kept⟩
    case unwritten =>
      intro m same free
      cases same
      exact absurd free busy
    case logged =>
      intro m same free
      cases same
      exact absurd free busy

omit [DecidableEq P] in
/-- A frame closes what it has open without writing it. -/
theorem Accounts.close (accounts : Accounts path s) (writer : Nat) :
    Accounts path { s with io := s.io.setWriter writer .idle } :=
  accounts.keep (Nat.le_refl _) rfl (List.append_nil _).symm nofun

/-- The handler opens the file, which is the one at the path if there is one. -/
theorem Accounts.create (accounts : Accounts path s) (life writer : Nat) :
    Accounts path { s with
      io := s.io.createDump path writer
      history := s.history ++ [.created life writer (s.io.files.create path).1] } := by
  have new : ∀ dumper entry file (trace : List β), .dumped dumper entry file trace ∉
      [Record.created life writer (s.io.files.create path).1] := by simp
  constructor
  case earlier =>
    intro dumper entry file trace member
    exact accounts.earlier _ _ _ _ ((List.mem_append.mp member).resolve_right (new _ _ _ _))
  case kept =>
    intro dumper entry file trace after tail
    obtain ⟨earlier, rfl, old⟩ := of_suffix_append tail (new _ _ _ _)
    have last : Record.created life writer (s.io.files.create path).1 ∈
        earlier ++ [.created life writer (s.io.files.create path).1] :=
      List.mem_append_right _ (List.mem_singleton_self _)
    obtain ⟨record, member, touches⟩ | ⟨linked, _⟩ | ⟨later, content, older, told, grows⟩ :=
      accounts.kept _ _ _ _ _ old
    · exact .inl ⟨record, List.mem_append_left _ member, touches⟩
    · exact .inl ⟨_, last, s.io.files.create_of_linked linked⟩
    · exact .inr (.inr ⟨later, content, older, List.mem_append_left _ told, grows⟩)

omit [DecidableEq P] in
/-- The handler writes the file at the path. -/
theorem Accounts.dump (accounts : Accounts path s) {life : Nat} (born : life < s.born)
    (linked : s.io.files.link path = some file) (writer : Nat) (trace : List β) :
    Accounts path { s with
      io := s.io.writeDump writer file trace
      history := s.history ++ [.dumped life writer file trace] } := by
  constructor
  case earlier =>
    intro dumper entry other old member
    obtain member | new := List.mem_append.mp member
    · exact accounts.earlier _ _ _ _ member
    · cases List.mem_singleton.mp new
      exact born
  case kept =>
    intro dumper entry other old after grown
    obtain empty | ⟨front, same, tail⟩ := List.suffix_concat_iff.mp grown
    · cases empty
    · cases front with
      | nil =>
        cases same
        refine .inr (.inl ⟨linked, ?_⟩)
        change trace <+: (s.io.files.write file trace).content file
        rw [Files.write_content_self]
        exact List.prefix_append _ _
      | cons first earlier =>
        obtain ⟨rfl, rfl⟩ := List.cons.inj same
        have last : Record.dumped life writer file trace ∈
            earlier ++ [.dumped life writer file trace] :=
          List.mem_append_right _ (List.mem_singleton_self _)
        obtain ⟨record, member, touches⟩ | ⟨here, _⟩ | ⟨later, content, older, told, grows⟩ :=
          accounts.kept _ _ _ _ _ tail
        · exact .inl ⟨record, List.mem_append_left _ member, touches⟩
        · exact .inl ⟨_, last, Option.some.inj (linked.symm.trans here)⟩
        · exact .inr (.inr ⟨later, content, older, List.mem_append_left _ told, grows⟩)

/-- A call of the handler. -/
theorem Accounts.handle (accounts : Accounts path s) (custody : Custody path s l)
    (top : l.crash.process.frames = f :: outer)
    (calls : f.code.call capture (s.entries + f.serial) = some event)
    {io : Instances P β} (called : s.io.step path event = some io) :
    Accounts path { s with
      io
      history := s.history ++ (s.io.writers (s.entries + f.serial)).record capture l.number
        (s.entries + f.serial) (io.writers (s.entries + f.serial)) } := by
  have holds := custody.writes.holds f (top ▸ List.mem_cons_self)
  have last := custody.last
  cases code : f.code with
  | entry | dumped | raised | thrown =>
    rw [code] at calls
    cases calls
  | reset =>
    rw [code] at calls
    cases calls
    cases Instances.Stepped.of_step called with
    | prepare idle =>
      rw [idle, Instances.setWriter_self]
      exact accounts.keep (Nat.le_refl _) rfl rfl nofun
  | prepared =>
    rw [code] at calls
    cases calls
    cases Instances.Stepped.of_step called with
    | create prepared =>
      have opened : (s.io.createDump path (s.entries + f.serial)).writers (s.entries + f.serial) =
          .opened (s.io.files.create path).1 := Instances.setWriter_self _ _ _
      rw [prepared, opened]
      exact accounts.create l.number (s.entries + f.serial)
  | opened =>
    rw [code] at calls holds
    cases calls
    obtain ⟨file, opened, linked⟩ := holds
    cases Instances.Stepped.of_step called with
    | @dump _ other _ same =>
      cases opened.symm.trans same
      have closed : (s.io.writeDump (s.entries + f.serial) file (capture (s.entries + f.serial))).writers
          (s.entries + f.serial) = .idle := Instances.setWriter_self _ _ _
      rw [opened, closed]
      exact accounts.dump (by omega) linked (s.entries + f.serial) _

end Accounts
section Ledger
variable {path : P} {capture : Nat → List β} {s t : Lives P β}

omit [DecidableEq P] in
/-- `main` runs on and the files stay. -/
theorem Ledger.proceed (ledger : Ledger path s) (alive : s.life = some l)
    (free : l.crash.process.frames = []) (life : t.life = some m) (number : m.number = l.number)
    (born : t.born = s.born) (files : t.io.files = s.io.files) (history : t.history = s.history ++ more)
    (new : ∀ life writer file trace, .dumped life writer file trace ∉ more)
    (logged : ∀ stream trace, t.io.readers l.number = .logged stream trace →
      [.reported l.number stream trace] <:+ t.history) : Ledger path t where
  accounts := ledger.accounts.keep (Nat.le_of_eq born.symm) files history new
  unwritten n same _ writer file trace member := by
    cases life.symm.trans same
    rw [number, history] at member
    exact ledger.unwritten l alive free writer file trace
      ((List.mem_append.mp member).resolve_right (new _ _ _ _))
  logged n same _ := by
    cases life.symm.trans same
    rw [number]
    exact logged

/-- The removal of what has been logged. -/
theorem Ledger.remove (ledger : Ledger path s) (custody : Custody path s l) (alive : s.life = some l)
    (free : l.crash.process.frames = []) (read : s.io.readers l.number = .logged stream trace)
    (faithful : (s.io.readers l.number).Faithful s.io.files path) :
    Ledger path { s with
      io := (s.io.removeDump path stream trace).setReader l.number .idle
      life := some { l with stage := .shown }
      history := s.history ++ [.shown l.number] } where
  accounts := by
    constructor
    case earlier =>
      intro life writer file old member
      refine ledger.accounts.earlier life writer file old ((List.mem_append.mp member).resolve_right ?_)
      simp
    case kept =>
      intro life writer file old after grown
      obtain ⟨earlier, rfl, tail⟩ := of_suffix_append grown (by simp)
      obtain ⟨record, member, touches⟩ | ⟨linked, whole⟩ | ⟨later, content, older, told, grows⟩ :=
        ledger.accounts.kept _ _ _ _ _ tail
      · exact .inl ⟨record, List.mem_append_left _ member, touches⟩
      · rw [read] at faithful
        obtain ⟨same, content⟩ := faithful file linked
        have member : .dumped life writer file old ∈ s.history := tail.mem List.mem_cons_self
        have told : .reported l.number (some file) trace ∈ earlier := by
          obtain ⟨before, history⟩ := ledger.logged l alive free stream trace read
          rw [← history, same] at tail
          obtain empty | ⟨front, grown, _⟩ := List.suffix_concat_iff.mp tail
          · cases empty
          · cases front with
            | nil => cases grown
            | cons first rest =>
              rw [(List.cons.inj grown).2]
              exact List.mem_append_right _ (List.mem_singleton_self _)
        refine .inr (.inr ⟨l.number, trace, ?_, List.mem_append_left _ told, content ▸ whole⟩)
        have born := ledger.accounts.earlier _ _ _ _ member
        have last := custody.last
        have other : life ≠ l.number := by
          rintro rfl
          exact ledger.unwritten l alive free _ _ _ member
        omega
      · exact .inr (.inr ⟨later, content, older, List.mem_append_left _ told, grows⟩)
  unwritten m same _ writer file old member := by
    cases same
    refine ledger.unwritten l alive free writer file old ((List.mem_append.mp member).resolve_right ?_)
    simp
  logged m same _ stream trace idle := by
    cases same
    rw [Instances.setReader_self] at idle
    cases idle

omit [DecidableEq P] in
theorem record_undumped (reader : Nat) (phase : Reader β) (life writer file : Nat) (trace : List β) :
    .dumped life writer file trace ∉ phase.record reader := by
  cases phase <;> simp [Reader.record]

theorem Ledger.step (ledger : Ledger path s) (orderly : s.Orderly path) (guarded : s.view.Guarded path)
    (stepped : s.step path capture happening = some t) : Ledger path t := by
  cases Stepped.of_step stepped with
  | start dead =>
    constructor
    case accounts => exact ledger.accounts.keep (Nat.le_succ _) rfl rfl (by simp)
    case unwritten =>
      intro l same _ writer file trace member
      cases same
      simp only [Lives.start, List.mem_append, List.mem_singleton, reduceCtorEq, or_false] at member
      exact Nat.lt_irrefl _ (ledger.accounts.earlier _ _ _ _ member)
    case logged =>
      intro l same _ stream trace logged
      cases (orderly.readers dead l.number).symm.trans logged
  | move alive free | segv alive free | abrt alive free =>
    exact ledger.proceed alive free rfl rfl rfl rfl (List.append_nil _).symm nofun
      (ledger.logged _ alive free)
  | @call l _ io alive free stage called busy =>
    obtain ⟨files, _, logs⟩ | ⟨stream, trace, _, rfl⟩ := Reader.call_cases called
    · refine ledger.proceed alive free rfl rfl rfl files rfl (record_undumped _ _) ?_
      intro stream trace logged
      rw [logs stream trace logged]
      exact List.suffix_append _ _
    · exact absurd (Instances.setReader_self _ _ _) busy
  | @pass l _ io alive free stage called idle =>
    obtain ⟨files, _, _⟩ | ⟨stream, trace, logged, rfl⟩ := Reader.call_cases called
    · refine ledger.proceed alive free rfl rfl rfl files (List.append_assoc _ _ _) ?_ ?_
      · intro life writer file trace member
        obtain reported | shown := List.mem_append.mp member
        · exact record_undumped _ _ _ _ _ _ reported
        · cases List.mem_singleton.mp shown
      · intro stream trace logged
        cases idle.symm.trans logged
    · have faithful := guarded.faithful l.number
      rw [view_free alive free] at faithful
      have removed := ledger.remove (orderly.custody l alive) alive free logged faithful
      rw [logged]
      simpa only [Reader.record, List.append_nil] using removed
  | leave alive | kill alive => exact ledger.accounts.bury _ _
  | @handle l f outer crash _ alive top silent executed =>
    exact ledger.accounts.settle ((orderly.custody l alive).bounded.inside executed)
  | @handleCall l f outer event crash _ io alive top calls called executed =>
    have custody := orderly.custody l alive
    exact (ledger.accounts.handle custody top calls called).settle (custody.bounded.inside executed)
  | @throw l alive free | @terminate l alive free =>
    refine ledger.proceed alive free rfl rfl rfl rfl (List.append_nil _).symm nofun ?_
    intro stream trace logged
    cases (Instances.setReader_self _ _ _).symm.trans logged
  | @failThrow l f outer crash alive top failed | @failRefuse l f outer crash alive top failed =>
    exact (ledger.accounts.close _).settle ((orderly.custody l alive).bounded.inside failed)
  | @deliver l crash _ alive struck | @fault l crash alive struck =>
    exact ledger.accounts.settle ((orderly.custody l alive).bounded.inside struck)

end Ledger

/-- What holds in every run where a dump that is there can be opened. -/
structure Accounted (path : P) (s : Lives P β) : Prop where
  orderly : s.Orderly path
  guarded : s.view.Guarded path
  ledger : Ledger path s

section Accounted
variable {path : P} {capture : Nat → List β} {s t : Lives P β}

theorem Accounted.step (accounted : Accounted path s) (readable : s.Readable path happening)
    (stepped : s.step path capture happening = some t) : Accounted path t where
  orderly := accounted.orderly.step stepped
  guarded := by
    obtain ⟨events, instances⟩ := view_step accounted.orderly readable stepped
    exact instances.invariant (fun guarded exclusive stepped => guarded.step exclusive stepped)
      accounted.guarded
  ledger := accounted.ledger.step accounted.orderly accounted.guarded stepped

end Accounted
end Lives

end BoostTest.Dump

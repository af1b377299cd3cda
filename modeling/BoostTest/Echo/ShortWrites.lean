import BoostTest.Echo.Session

/-! What a session of `echo` does to the stream. A write that succeeds with less
than it was given leads straight to the next read, and the rest is lost: the
sessions without such a write are exactly those that echo what they receive. In
all sessions nothing is repeated and nothing is reordered. -/
namespace BoostTest.Echo
open Transition

variable {X : Type} {codes : ErrorCodes X}

namespace Session

/-- Whenever the loop has started a read, all bytes had been echoed in order,
and at the end what has been sent is a prefix of what has been received. -/
structure Faithful (s : Session X) : Prop where
  starts : ∀ r w, (r, w) ∈ s.starts → w = r
  closed : s.phase = .closed → s.sent <+: s.received

/-- Since the latest start only the bytes of the view have come in. -/
structure Tracked (s : Session X) (r w : List UInt8) : Prop where
  latest : s.starts.getLast? = some (r, w)
  received : s.phase ≠ .closed → s.received = r ++ s.view
  sent : s.phase ≠ .closed → s.sent = w

theorem store_take (s : Session X) (chunk : List UInt8) :
    (s.store chunk).buffer.take chunk.length = chunk := List.take_left

@[simp] theorem view_startWrite (s : Session X) (chunk : List UInt8) :
    ((s.store chunk).startWrite chunk.length).view = chunk := s.store_take chunk

theorem view_of_reading {s : Session X} (reading : s.phase = .reading) : s.view = [] := by
  simp only [view, reading]

variable {s t : Session X}

theorem Stepped.running (stepped : Stepped codes s event t) : s.phase ≠ .closed := by
  cases stepped with
  | stopReading reading | receive reading =>
    rw [reading]
    exact nofun
  | stopWriting writing | echo writing =>
    rw [writing]
    exact nofun
  | throw running => exact running

namespace Tracked

theorem mem (tracked : s.Tracked r w) : (r, w) ∈ s.starts :=
  List.mem_of_getLast? tracked.latest

theorem closing {line : Line X} (latest : s.starts.getLast? = some (r, w)) :
    (s.close line).Tracked r w where
  latest := latest
  received running := absurd rfl running
  sent running := absurd rfl running

theorem step (tracked : s.Tracked r w) (stepped : s.step codes event = some t) :
    ∃ r w, t.Tracked r w := by
  cases Stepped.of_step stepped with
  | stopReading | stopWriting | throw => exact ⟨_, _, closing tracked.latest⟩
  | @receive ec chunk reading clear =>
    have running : s.phase ≠ .closed := (Stepped.of_step stepped).running
    refine ⟨r, w, tracked.latest, fun _ => ?_, fun _ => tracked.sent running⟩
    have before := tracked.received running
    rw [view_of_reading reading, List.append_nil] at before
    rw [view_startWrite]
    exact congrArg (· ++ chunk) before
  | @echo svBuffer ec transferred writing clear =>
    refine ⟨s.received, (s.send transferred).sent, ?_, fun _ => ?_, fun _ => rfl⟩
    · exact List.getLast?_concat
    · exact (List.append_nil _).symm

/-- Whatever the pending write transfers continues what has been sent. -/
theorem continues (tracked : s.Tracked r w) (same : w = r)
    (running : s.phase ≠ .closed) (transferred : Nat) :
    (s.send transferred).sent <+: s.received := by
  change s.sent ++ s.view.take transferred <+: s.received
  rw [tracked.received running, tracked.sent running, same]
  exact (List.prefix_append_right_inj r).mpr (List.take_prefix _ _)

theorem holds (tracked : s.Tracked r w) (same : w = r)
    (running : s.phase ≠ .closed) : s.sent <+: s.received := by
  simpa [send] using tracked.continues same running 0

end Tracked

theorem init_tracked : (init : Session X).Tracked [] [] where
  latest := rfl
  received _ := rfl
  sent _ := rfl

theorem init_faithful : (init : Session X).Faithful where
  starts r w member := by
    cases List.mem_singleton.mp member
    rfl
  closed := nofun

namespace Faithful

theorem step (faithful : s.Faithful) (tracked : s.Tracked r w)
    (all : s.WritesAll codes event) (stepped : s.step codes event = some t) : t.Faithful := by
  have running := (Stepped.of_step stepped).running
  have same := faithful.starts _ _ tracked.mem
  cases Stepped.of_step stepped with
  | stopReading =>
    exact ⟨faithful.starts, fun _ => (tracked.holds same running).trans (List.prefix_append _ _)⟩
  | receive => exact ⟨faithful.starts, nofun⟩
  | stopWriting => exact ⟨faithful.starts, fun _ => tracked.continues same running _⟩
  | @echo svBuffer ec transferred writing clear =>
    refine ⟨?_, nofun⟩
    intro r w member
    rcases List.mem_append.mp member with earlier | now
    · exact faithful.starts r w earlier
    · cases List.mem_singleton.mp now
      change s.sent ++ s.view.take transferred = s.received
      rw [tracked.received running, tracked.sent running, same, all.2 clear, List.take_length]
  | throw => exact ⟨faithful.starts, fun _ => tracked.holds same running⟩

/-- A step that leaves the session faithful was not a short write. -/
theorem back (faithful : t.Faithful) (tracked : s.Tracked r w)
    (delivers : s.Delivers codes event) (stepped : s.step codes event = some t) :
    s.WritesAll codes event ∧ s.Faithful := by
  have running := (Stepped.of_step stepped).running
  have unfinished : s.phase = .closed → s.sent <+: s.received := fun closed => absurd closed running
  cases Stepped.of_step stepped with
  | stopReading | receive | throw => exact ⟨⟨delivers, trivial⟩, faithful.starts, unfinished⟩
  | stopWriting writing set =>
    refine ⟨⟨delivers, fun clear => ?_⟩, faithful.starts, unfinished⟩
    cases set.symm.trans clear
  | @echo svBuffer ec transferred writing clear =>
    have starts : ∀ r w, (r, w) ∈ s.starts → w = r := fun r w member =>
      faithful.starts r w (List.mem_append_left _ member)
    refine ⟨⟨delivers, fun _ => ?_⟩, starts, unfinished⟩
    have echoed := faithful.starts _ _ (List.mem_append_right _ List.mem_cons_self)
    change s.sent ++ s.view.take transferred = s.received at echoed
    rw [tracked.received running, tracked.sent running, starts _ _ tracked.mem,
      List.append_cancel_left_eq] at echoed
    have bounds : 1 ≤ transferred ∧ transferred ≤ s.view.length := by
      simpa only [Delivers, clear, Bool.false_eq_true, if_false] using delivers
    have lengths := congrArg List.length echoed
    rw [List.length_take] at lengths
    omega

end Faithful
end Session

/-- A session echoes its stream exactly if no write in it falls short. -/
theorem echo_faithful_iff
    (run : Run (Session.step codes) (Session.Delivers codes) .init events s) :
    s.Faithful ↔ Run (Session.step codes) (Session.WritesAll codes) .init events s := by
  have follows : ∀ {s t : Session X} {event}, (∃ r w, s.Tracked r w) →
      s.step codes event = some t → ∃ r w, t.Tracked r w :=
    fun ⟨_, _, tracked⟩ stepped => tracked.step stepped
  have start : ∃ r w, (Session.init : Session X).Tracked r w :=
    ⟨_, _, Session.init_tracked⟩
  constructor
  · intro faithful
    exact (run.backward (fun tracked _ stepped => follows tracked stepped)
      (fun ⟨_, _, tracked⟩ delivers stepped good => good.back tracked delivers stepped)
      start faithful).1
  · intro full
    exact (full.invariant (P := fun s => (∃ r w, s.Tracked r w) ∧ s.Faithful)
      (fun ⟨tracked, faithful⟩ all stepped =>
        ⟨follows tracked stepped, tracked.elim fun _ ⟨_, tracked⟩ => faithful.step tracked all stepped⟩)
      ⟨start, Session.init_faithful⟩).2

/-- Zero is success and two the end of the stream. -/
def plainCodes : ErrorCodes Nat := ⟨(· ≠ 0), (· = 2)⟩

/-- Two chunks, and then the peer closes the connection. -/
theorem echo_faithful_two_chunks : ∃ s,
    Run (Session.step plainCodes) (Session.Delivers plainCodes) .init
      [.read 0 [104, 105], .write 0 2, .read 0 [33], .write 0 1, .read 2 []] s ∧
    s.log = [.receive [104, 105], .receive [33], .connectionClose] ∧
    (s.Faithful ↔ Run (Session.step plainCodes) (Session.WritesAll plainCodes) .init
      [.read 0 [104, 105], .write 0 2, .read 0 [33], .write 0 1, .read 2 []] s) :=
  Run.instance_of_execute ⟨_, rfl, rfl⟩ fun _ run _ => echo_faithful_iff run

/-- The first write is short by one byte, which the peer never gets back. -/
theorem short_write_loses_byte : ∃ s,
    Run (Session.step plainCodes) (Session.Delivers plainCodes) .init
      [.read 0 [104, 105], .write 0 1, .read 0 [33], .write 0 1, .read 2 []] s ∧
    s.phase = .closed ∧ s.received = [104, 105, 33] ∧ s.sent = [104, 33] ∧
    ¬ s.Faithful ∧ ¬ s.sent <+: s.received := by
  refine Run.exists_of_execute ⟨_, rfl, rfl, rfl, rfl, ?_, by decide⟩
  intro faithful
  cases faithful.starts [104, 105] [104] (by decide)

/-! What holds of every session, short writes or not. -/

namespace Session

/-- Apart from the view, what has been sent is what has been received with some
bytes left out. -/
def Thinned (s : Session X) : Prop := ∃ seen, s.received = seen ++ s.view ∧ s.sent.Sublist seen

theorem Thinned.sublist {s : Session X} (thinned : s.Thinned) (transferred : Nat) :
    (s.send transferred).sent.Sublist s.received := by
  obtain ⟨seen, received, sublist⟩ := thinned
  rw [received]
  exact sublist.append (List.take_sublist transferred s.view)

theorem Thinned.step {s t : Session X} (thinned : s.Thinned)
    (stepped : s.step codes event = some t) : t.Thinned := by
  have sublist : s.sent.Sublist s.received := by simpa [send] using thinned.sublist 0
  cases Stepped.of_step stepped with
  | stopReading =>
    exact ⟨_, (List.append_nil _).symm, sublist.trans (List.sublist_append_left _ _)⟩
  | receive => exact ⟨s.received, by rw [view_startWrite]; rfl, sublist⟩
  | stopWriting | echo => exact ⟨_, (List.append_nil _).symm, thinned.sublist _⟩
  | throw => exact ⟨_, (List.append_nil _).symm, sublist⟩

end Session

def Line.bytes : Line X → List UInt8
  | .receive svBuffer => svBuffer
  | .connectionClose | .readError _ | .writeError _ | .catchException => []

theorem Line.bytes_stop (codes : ErrorCodes X) (ec : X) :
    (if codes.isEof ec then Line.connectionClose else .readError ec).bytes = [] := by
  split <;> rfl

theorem Session.logged_close (s : Session X) {line : Line X} (silent : line.bytes = []) :
    (s.close line).log.flatMap Line.bytes = s.log.flatMap Line.bytes := by
  simp [close, silent]

/-- The log of the program shows every byte it has received. -/
theorem Session.logged_step {s t : Session X} (logged : s.log.flatMap Line.bytes = s.received)
    (delivers : s.Delivers codes event) (stepped : s.step codes event = some t) :
    t.log.flatMap Line.bytes = t.received := by
  cases Stepped.of_step stepped with
  | @stopReading ec chunk reading set =>
    have none : chunk = [] := by simpa only [Delivers, set, if_true] using delivers
    rw [logged_close _ (Line.bytes_stop codes ec), none]
    exact logged.trans (List.append_nil _).symm
  | @receive ec chunk reading clear =>
    change (s.log ++ [Line.receive _]).flatMap Line.bytes = s.received ++ chunk
    rw [List.flatMap_append, logged, s.store_take]
    exact congrArg (s.received ++ ·) (List.append_nil chunk)
  | stopWriting => exact (logged_close _ rfl).trans logged
  | echo => exact logged
  | throw => exact (logged_close _ rfl).trans logged

end BoostTest.Echo

import BoostTest.Calendar
import BoostTest.Decimal
import BoostTest.FileSystem

/-! Dump files on Windows: `GenFilePath`, `GenDump` and the two functions that
call them. Paths are kept apart into directory and name; the directories of a
disk are those that exist. -/
namespace BoostTest.Dump
open Calendar Decimal FileSystem

/-- The two directories that `dump_helper.cpp` names. -/
inductive Directory where
  | dmp
  | dump
  deriving DecidableEq, Repr

structure Path where
  directory : Directory
  name : List Char
  deriving DecidableEq, Repr

def Directory.text : Directory → List Char
  | .dmp => ['.', '\\', 'd', 'm', 'p']
  | .dump => ['.', '\\', 'd', 'u', 'm', 'p']

def Path.text (path : Path) : List Char := path.directory.text ++ '\\' :: path.name

structure Disk (β : Type) where
  present : Directory → Bool
  files : Files Path β

/-- The two ways into the dump code. -/
inductive Source where
  | exceptionFilter
  | snapshotMem
  deriving DecidableEq, Repr

structure Request (β : Type) where
  source : Source
  time : Int
  trace : List β
  deriving DecidableEq, Repr

/-- A request for which `GenFilePath` returned true: the file that
`CreateFileA` opened for it, if any, and the dump that is written there. -/
structure Outcome (β : Type) where
  path : Path
  file : Option Nat
  trace : List β
  deriving DecidableEq, Repr

def maxPath : Nat := 260

variable {β : Type}

namespace Disk

def mkdir (disk : Disk β) (directory : Directory) : Disk β :=
  { disk with present := Function.update disk.present directory true }

/-- The directory that `GenFilePath` checks for and makes. -/
def makeDmp (disk : Disk β) : Disk β := if disk.present .dmp then disk else disk.mkdir .dmp

/-- With `CREATE_ALWAYS` and no sharing, by a process that closes the handle. -/
def createFileA (disk : Disk β) (path : Path) : Option (Nat × Disk β) :=
  if disk.present path.directory then
    let (file, files) := disk.files.create path
    some (file, { disk with files })
  else none

end Disk

/-- `localtime_s` under a rule for the offset from UTC. -/
def localtime (offset : Int → Int) (time : Int) : Tm := broken (time + offset time)

/-- What the format string of `GenFilePath` makes of the local time. -/
def dumpPath (tm : Tm) : Path where
  directory := .dump
  name := print (1900 + tm.tmYear) ++ (print02 (tm.tmMon + 1) ++ (print02 tm.tmMday ++
    (print02 tm.tmHour ++ (print02 tm.tmMin ++ (print02 tm.tmSec ++ ['.', 'd', 'm', 'p'])))))

/-- `sprintf_s` into a buffer of this size, which calls the invalid parameter
handler when the text and its terminator do not fit. -/
def sprintfS (size : Nat) (path : Path) : Option Path :=
  if path.text.length < size then some path else none

def genFilePath (pathLen : Nat) (tm : Tm) (disk : Disk β) : Option Path × Disk β :=
  let disk := disk.makeDmp
  match sprintfS pathLen (dumpPath tm) with
  | some path => (if path.text.length > pathLen then none else some path, disk)
  | none => (none, disk)

/-- A failure of `CreateFileA` is ignored. -/
def genDump (path : Path) (trace : List β) (disk : Disk β) : Option Nat × Disk β :=
  match disk.createFileA path with
  | some (file, disk) => (some file, { disk with files := disk.files.write file trace })
  | none => (none, disk)

/-- What the callers of `GenFilePath` do with its result. -/
def dumpTo (trace : List β) : Option Path × Disk β → Option (Outcome β) × Disk β
  | (some path, disk) =>
    let (file, disk) := genDump path trace disk
    (some ⟨path, file, trace⟩, disk)
  | (none, disk) => (none, disk)

/-- The common body of `ExceptionFilter` and `SnapshotMem`. -/
def dumpNow (offset : Int → Int) (time : Int) (trace : List β) (disk : Disk β) :
    Option (Outcome β) × Disk β :=
  dumpTo trace (genFilePath maxPath (localtime offset time) disk)

def exceptionFilter (offset : Int → Int) (time : Int) (trace : List β) (disk : Disk β) :
    Option (Outcome β) × Disk β := dumpNow offset time trace disk

def snapshotMem (offset : Int → Int) (time : Int) (trace : List β) (disk : Disk β) :
    Option (Outcome β) × Disk β := dumpNow offset time trace disk

def Request.serve (offset : Int → Int) (request : Request β) (disk : Disk β) :
    Option (Outcome β) × Disk β :=
  match request.source with
  | .exceptionFilter => exceptionFilter offset request.time request.trace disk
  | .snapshotMem => snapshotMem offset request.time request.trace disk

/-- All requests in order, with the outcomes of those that got a path. -/
def serveAll (offset : Int → Int) : List (Request β) → Disk β → List (Outcome β) × Disk β
  | [], disk => ([], disk)
  | request :: rest, disk =>
    let (outcome, disk) := request.serve offset disk
    let (outcomes, disk) := serveAll offset rest disk
    (outcome.toList ++ outcomes, disk)

/-- `GenFilePath` returns true. -/
def Request.granted (offset : Int → Int) (request : Request β) : Bool :=
  (dumpPath (localtime offset request.time)).text.length < maxPath

def Request.path (offset : Int → Int) (request : Request β) : Path :=
  dumpPath (localtime offset request.time)

theorem Request.serve_eq_dumpNow (offset : Int → Int) (request : Request β) (disk : Disk β) :
    request.serve offset disk = dumpNow offset request.time request.trace disk := by
  unfold serve
  split <;> rfl

/-- `.\dump` is the directory that is used and `.\dmp` the one that is made. -/
theorem Disk.makeDmp_dump (disk : Disk β) : disk.makeDmp.present .dump = disk.present .dump := by
  unfold makeDmp
  split
  · rfl
  · simp [mkdir]

theorem Disk.makeDmp_files (disk : Disk β) : disk.makeDmp.files = disk.files := by
  unfold makeDmp
  split <;> rfl

theorem genFilePath_eq (pathLen : Nat) (tm : Tm) (disk : Disk β) :
    genFilePath pathLen tm disk =
      (if (dumpPath tm).text.length < pathLen then some (dumpPath tm) else none, disk.makeDmp) := by
  unfold genFilePath sprintfS
  by_cases fits : (dumpPath tm).text.length < pathLen
  · simp [fits, Nat.le_of_lt fits]
  · simp [fits]

/-- A request, from the path it gets to the file it leaves. -/
theorem Request.serve_eq (offset : Int → Int) (request : Request β) (disk : Disk β) :
    request.serve offset disk =
      if request.granted offset then
        (some ⟨request.path offset, (genDump (request.path offset) request.trace disk.makeDmp).1,
          request.trace⟩, (genDump (request.path offset) request.trace disk.makeDmp).2)
      else (none, disk.makeDmp) := by
  rw [serve_eq_dumpNow, dumpNow, genFilePath_eq, granted, path]
  generalize dumpPath (localtime offset request.time) = path
  by_cases fits : path.text.length < maxPath
  · simp only [fits, dumpTo, decide_true, if_true]
  · simp only [fits, dumpTo, decide_false, if_false, Bool.false_eq_true]

theorem genDump_present (path : Path) (trace : List β) {disk : Disk β}
    (present : disk.present path.directory = true) :
    genDump path trace disk = (some (disk.files.store path trace).1,
      { disk with files := (disk.files.store path trace).2 }) := by
  simp [genDump, Disk.createFileA, present, Files.store]

theorem genDump_absent (path : Path) (trace : List β) {disk : Disk β}
    (absent : disk.present path.directory = false) : genDump path trace disk = (none, disk) := by
  simp [genDump, Disk.createFileA, absent]

theorem fields_of_inRange {tm : Tm} (range : tm.InRange) : TwoDigits (tm.tmMon + 1) ∧
    TwoDigits tm.tmMday ∧ TwoDigits tm.tmHour ∧ TwoDigits tm.tmMin ∧ TwoDigits tm.tmSec := by
  obtain ⟨sec, min, hour, mday, mon⟩ := range
  unfold TwoDigits
  omega

/-- Seconds that differ locally get different files. -/
theorem dumpPath_injective {a b : Int} (same : dumpPath (broken a) = dumpPath (broken b)) :
    a = b := by
  apply broken_injective
  obtain ⟨m, d, h, n, s⟩ := fields_of_inRange (broken_inRange a)
  obtain ⟨m', d', h', n', s'⟩ := fields_of_inRange (broken_inRange b)
  generalize broken a = first at *
  generalize broken b = second at *
  obtain ⟨years, names⟩ := List.append_inj' (Path.mk.inj same).2
    (by simp only [List.length_append, print02_length, *])
  have year := print_injective years
  obtain ⟨month, names⟩ := print02_append m m' names
  obtain ⟨day, names⟩ := print02_append d d' names
  obtain ⟨hour, names⟩ := print02_append h h' names
  obtain ⟨minute, names⟩ := print02_append n n' names
  obtain ⟨sec, _⟩ := print02_append s s' names
  cases first
  cases second
  simp only [Tm.mk.injEq] at *
  omega

/-- A local time of 64 bits always gets a path. -/
theorem Request.granted_of_bounds (offset : Int → Int) (request : Request β)
    (lower : -9223372036854775808 ≤ request.time + offset request.time)
    (upper : request.time + offset request.time < 9223372036854775808) :
    request.granted offset = true := by
  obtain ⟨m, d, h, n, s⟩ := fields_of_inRange (broken_inRange (request.time + offset request.time))
  obtain ⟨early, late⟩ := broken_year lower upper
  have year := print_length early late
  simp only [granted, localtime, dumpPath, Path.text, Directory.text, maxPath, List.length_append,
    List.length_cons, List.length_nil, print02_length, *, decide_eq_true_eq]
  omega

end BoostTest.Dump

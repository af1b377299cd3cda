import BoostTest.Paths

/-! `program_location` from util.cpp and `_get_dump_path`, on each branch of the
preprocessor. The operating system's calls fill a buffer of a given size as
documented; paths are taken apart as `std::filesystem::path` does, and printed
without a change. -/
namespace BoostTest.Program
open Paths

inductive Platform where
  | windows
  | linux
  | other
  deriving DecidableEq, Repr

/-- A `char` of a path on Linux, a `TCHAR` on Windows. -/
abbrev CodeUnit := UInt16

def unit (c : Char) : CodeUnit := c.val.toUInt16

def isLetter (c : CodeUnit) : Bool :=
  unit 'A' ≤ c && c ≤ unit 'Z' || unit 'a' ≤ c && c ≤ unit 'z'

/-- Where a file is: the name of the root, and the parts below it. -/
structure Place where
  root : List CodeUnit
  parts : List (List CodeUnit)
  deriving DecidableEq, Repr

/-- The place under a rule that makes some letters alike. -/
def Place.fold (upcase : CodeUnit → CodeUnit) (place : Place) : Place :=
  ⟨place.root.map upcase, place.parts.map (·.map upcase)⟩

namespace Platform

def separator : Platform → CodeUnit → Bool
  | .windows, c => c == unit '\\' || c == unit '/'
  | _, c => c == unit '/'

/-- The separator that the system writes. -/
def slash : Platform → CodeUnit
  | .windows => unit '\\'
  | _ => unit '/'

/-- The length of the root name: a drive with its colon, or a server. -/
def rootLength : Platform → List CodeUnit → Nat
  | .windows, a :: b :: rest =>
    if isLetter a && b == unit ':' then 2
    else if separator .windows a && separator .windows b && rest.head?.any (!separator .windows ·) then
      2 + (rest.takeWhile (!separator .windows ·)).length
    else 0
  | _, _ => 0

/-- The root name with the separators behind it. -/
def rootPath (platform : Platform) (text : List CodeUnit) : List CodeUnit :=
  text.take (platform.rootLength text) ++
    (text.drop (platform.rootLength text)).takeWhile platform.separator

def relativePath (platform : Platform) (text : List CodeUnit) : List CodeUnit :=
  (text.drop (platform.rootLength text)).dropWhile platform.separator

def parentPath (platform : Platform) (text : List CodeUnit) : List CodeUnit :=
  platform.rootPath text ++ Paths.parentPath platform.separator (platform.relativePath text)

def filename (platform : Platform) (text : List CodeUnit) : List CodeUnit :=
  Paths.filename platform.separator (platform.relativePath text)

example : Platform.windows.parentPath (['C', ':', '\\', 'a', '\\', 'b'].map unit) =
    ['C', ':', '\\', 'a'].map unit := by decide

example : Platform.linux.parentPath (['/', 'b'].map unit) = ['/'].map unit := by decide

/-- The parts of a path, of which none is the parent directory. -/
def parts (platform : Platform) (text : List CodeUnit) : List (List CodeUnit) :=
  (components platform.separator text).filter (· != [unit '.'])

/-- Where a path leads that is absolute or has no root name. -/
def resolve (platform : Platform) (cwd : Place) (text : List CodeUnit) : Place :=
  let below := text.drop (platform.rootLength text)
  if below.head?.any platform.separator then
    ⟨text.take (platform.rootLength text), platform.parts below⟩
  else ⟨cwd.root, cwd.parts ++ platform.parts text⟩

/-- The name of an entry of a directory. -/
structure Name (platform : Platform) (text : List CodeUnit) : Prop where
  part : Part platform.separator text
  notCurrent : text ≠ [unit '.']
  notParent : text ≠ [unit '.', unit '.']
  unterminated : 0 ∉ text

def RootName : Platform → List CodeUnit → Prop
  | .windows, root =>
    (∃ drive, isLetter drive = true ∧ root = [drive, unit ':']) ∨
    ∃ first second server, separator .windows first = true ∧ separator .windows second = true ∧
      Part (separator .windows) server ∧ root = first :: second :: server
  | _, root => root = []

end Platform

/-- The true path of an executable, taken apart. -/
structure Executable (platform : Platform) where
  rootName : List CodeUnit
  directories : List (List CodeUnit)
  name : List CodeUnit
  rooted : platform.RootName rootName
  below : ∀ directory ∈ directories, platform.Name directory
  named : platform.Name name

namespace Executable
variable {platform : Platform}

def path (e : Executable platform) : List CodeUnit :=
  e.rootName ++ platform.slash :: (listing platform.slash e.directories ++ e.name)

def place (e : Executable platform) : Place := ⟨e.rootName, e.directories ++ [e.name]⟩

end Executable

inductive Category where
  | system
  | generic
  | util
  deriving DecidableEq, Repr

/-- `outcome<fs::path>`. -/
inductive Outcome where
  | value (path : List CodeUnit)
  | error (category : Category) (code : Int)
  | exception
  deriving DecidableEq, Repr

/-- A process at a call of `program_location`. -/
structure Process (platform : Platform) where
  executable : Executable platform
  cwd : Place
  /-- The allocation of a string throws. -/
  exhausted : Bool
  /-- The system call fails, and leaves `lastError`. -/
  refused : Bool
  lastError : Int

def maxBufSize : Nat := 1024

def maxPath : Nat := 260

/-- What the front of a buffer becomes. -/
def fill (buffer data : List CodeUnit) : List CodeUnit := data ++ buffer.drop data.length

def resize (string : List CodeUnit) (size : Nat) : List CodeUnit :=
  string.take size ++ List.replicate (size - string.length) 0

namespace Process
variable {platform : Platform}

/-- Of `/proc/self/exe`; no terminator is written. -/
def readlink (p : Process platform) (buffer : List CodeUnit) (size : Nat) : Int × List CodeUnit :=
  if p.refused then (-1, buffer)
  else
    let copied := p.executable.path.take size
    (copied.length, fill buffer copied)

/-- A path that does not fit with its terminator is cut, and the size returned. -/
def getModuleFileName (p : Process platform) (buffer : List CodeUnit) (size : Nat) :
    Nat × List CodeUnit :=
  if p.refused then (0, buffer)
  else if p.executable.path.length < size then
    (p.executable.path.length, fill buffer (p.executable.path ++ [0]))
  else (size, fill buffer (p.executable.path.take (size - 1) ++ [0]))

def programLocation (p : Process platform) : Outcome :=
  match platform with
  | .windows =>
    if p.exhausted then .exception
    else
      let (filePathLen, ret) := p.getModuleFileName (List.replicate maxPath 0) maxPath
      if filePathLen = 0 then .error .system p.lastError
      else .value (resize ret filePathLen)
  | .linux =>
    if p.exhausted then .exception
    else
      let (filePathLen, ret) := p.readlink (List.replicate maxBufSize 0) maxBufSize
      if filePathLen = -1 then .error .generic p.lastError
      else .value (resize ret filePathLen.toNat)
  | .other => .error .util 1

def getDumpPath (p : Process platform) : List CodeUnit :=
  match p.programLocation with
  | .value path =>
    platform.parentPath path ++ (['/', 'd', 'u', 'm', 'p', '/'].map unit ++
      (platform.filename path ++ ['.', 'd', 'u', 'm', 'p'].map unit))
  | _ => ['.', '/', 'd', 'u', 'm', 'p', '/', 'd', 'e', 'f', 'a', 'u', 'l', 't', '.',
      'd', 'u', 'm', 'p'].map unit

/-- The file that `show_last_dump` and `_signal_handler` open. -/
def dumpFile (upcase : CodeUnit → CodeUnit) (p : Process platform) : Place :=
  (platform.resolve p.cwd p.getDumpPath).fold upcase

def Succeeds (p : Process platform) : Prop := ∃ path, p.programLocation = .value path

/-- The location is the true path, or it is not a path. -/
def Located (p : Process platform) : Prop :=
  ∀ path, p.programLocation = .value path → path = p.executable.path

/-- The buffer has room for the path, where one is filled. -/
def Fits (p : Process platform) : Prop :=
  match platform with
  | .windows => p.exhausted ∨ p.refused ∨ p.executable.path.length < maxPath
  | .linux => p.exhausted ∨ p.refused ∨ p.executable.path.length ≤ maxBufSize
  | .other => True

end Process

theorem resize_fill {buffer data : List CodeUnit} (room : data.length ≤ buffer.length)
    (size : Nat) (kept : size ≤ data.length) : resize (fill buffer data) size = data.take size := by
  have length : (fill buffer data).length = buffer.length := by
    simp only [fill, List.length_append, List.length_drop]
    omega
  have unpadded : size - buffer.length = 0 := by omega
  rw [resize, length, unpadded, List.replicate_zero, List.append_nil, fill,
    List.take_append_of_le_length kept]

/-- The path does not end in a terminator. -/
theorem Executable.path_unterminated {platform : Platform} (e : Executable platform)
    (text : List CodeUnit) : e.path ≠ text ++ [0] := by
  intro ends
  have last : e.path.getLast? = some 0 := by simp [ends]
  have final := List.getLast?_eq_some_getLast e.named.part.nonempty
  have own : e.path.getLast? = some (e.name.getLast e.named.part.nonempty) := by
    simp [Executable.path, List.getLast?_append, List.getLast?_cons, final]
  have zero := Option.some.inj (own.symm.trans last)
  exact e.named.unterminated (zero ▸ List.getLast_mem e.named.part.nonempty)

namespace Process

theorem programLocation_linux (p : Process .linux) : p.programLocation =
    if p.exhausted then .exception
    else if p.refused then .error .generic p.lastError
    else .value (p.executable.path.take maxBufSize) := by
  cases thrown : p.exhausted with
  | true => simp [programLocation, thrown]
  | false =>
    cases failed : p.refused with
    | true => simp [programLocation, readlink, thrown, failed]
    | false =>
      have copied : resize (fill (List.replicate maxBufSize 0) (p.executable.path.take maxBufSize))
          (p.executable.path.take maxBufSize).length = p.executable.path.take maxBufSize := by
        rw [resize_fill _ _ (Nat.le_refl _), List.take_length]
        rw [List.length_replicate]
        exact List.length_take_le _ _
      have nonnegative : ((p.executable.path.take maxBufSize).length : Int) ≠ -1 := by omega
      simp only [programLocation, readlink, thrown, failed, Bool.false_eq_true, if_false, nonnegative,
        Int.toNat_natCast, copied]

theorem programLocation_windows (p : Process .windows) : p.programLocation =
    if p.exhausted then .exception
    else if p.refused then .error .system p.lastError
    else if p.executable.path.length < maxPath then .value p.executable.path
    else .value (p.executable.path.take (maxPath - 1) ++ [0]) := by
  cases thrown : p.exhausted with
  | true => simp [programLocation, thrown]
  | false =>
    cases failed : p.refused with
    | true => simp [programLocation, getModuleFileName, thrown, failed]
    | false =>
      by_cases room : p.executable.path.length < maxPath
      · have copied : resize (fill (List.replicate maxPath 0) (p.executable.path ++ [0]))
            p.executable.path.length = p.executable.path := by
          rw [resize_fill (by simp; omega) _ (by simp), List.take_left]
        have nonempty : p.executable.path.length ≠ 0 := by simp [Executable.path]
        simp only [programLocation, getModuleFileName, thrown, failed, Bool.false_eq_true, if_false,
          if_pos room, nonempty, copied]
      · have cut : (p.executable.path.take (maxPath - 1) ++ [0]).length = maxPath := by
          simp only [List.length_append, List.length_take, List.length_singleton, maxPath] at room ⊢
          omega
        have copied : resize (fill (List.replicate maxPath 0)
            (p.executable.path.take (maxPath - 1) ++ [0])) maxPath =
              p.executable.path.take (maxPath - 1) ++ [0] := by
          rw [resize_fill (by rw [cut, List.length_replicate]) _ (Nat.le_of_eq cut.symm),
            List.take_of_length_le (Nat.le_of_eq cut)]
        have nonzero : maxPath ≠ 0 := by decide
        simp only [programLocation, getModuleFileName, thrown, failed, Bool.false_eq_true, if_false,
          if_neg room, nonzero, copied]

theorem located_linux (p : Process .linux) : p.Located ↔ p.Fits := by
  rw [Located, programLocation_linux, Fits]
  cases thrown : p.exhausted with
  | true => simp
  | false =>
    cases failed : p.refused with
    | true => simp
    | false =>
      have whole : p.executable.path.take maxBufSize = p.executable.path ↔
          p.executable.path.length ≤ maxBufSize :=
        ⟨fun same => same ▸ List.length_take_le _ _, List.take_of_length_le⟩
      simp only [Bool.false_eq_true, if_false, false_or, Outcome.value.injEq, forall_eq',
        whole]

theorem located_windows (p : Process .windows) : p.Located ↔ p.Fits := by
  rw [Located, programLocation_windows, Fits]
  cases thrown : p.exhausted with
  | true => simp
  | false =>
    cases failed : p.refused with
    | true => simp
    | false =>
      by_cases room : p.executable.path.length < maxPath
      · simp [room]
      · have cut := p.executable.path_unterminated (p.executable.path.take (maxPath - 1))
        simp [room, cut.symm]

/-- The location is right exactly where the buffer has room for it. -/
theorem located_iff {platform : Platform} (p : Process platform) : p.Located ↔ p.Fits := by
  cases platform with
  | windows => exact p.located_windows
  | linux => exact p.located_linux
  | other => exact ⟨fun _ => trivial, fun _ _ found => by cases found⟩

end Process
end BoostTest.Program

import BoostTest.Program.Location

/-! Where the dump path of an executable leads. -/
namespace BoostTest.Program
open Paths

namespace Platform
variable {platform : Platform} {rootName tail : List CodeUnit} {slash : CodeUnit}

theorem slash_separates (platform : Platform) : platform.separator platform.slash = true := by
  cases platform <;> rfl

theorem forward_separates (platform : Platform) : platform.separator (unit '/') = true := by
  cases platform <;> rfl

theorem separator_not_letter (separates : separator .windows slash = true) : isLetter slash = false := by
  simp only [separator, Bool.or_eq_true, beq_iff_eq] at separates
  rcases separates with rfl | rfl <;> rfl

theorem rootLength_server {first second : CodeUnit} {server : List CodeUnit}
    (one : separator .windows first = true) (two : separator .windows second = true)
    (part : Part (separator .windows) server) (separates : separator .windows slash = true) :
    rootLength .windows (first :: second :: (server ++ slash :: tail)) = 2 + server.length := by
  have head : (server ++ slash :: tail).head?.any (!separator .windows ·) = true := by
    obtain ⟨c, rest, shape⟩ := List.exists_cons_of_ne_nil part.nonempty
    simp [shape, part.unbroken c (by simp [shape])]
  have whole : (server ++ slash :: tail).takeWhile (!separator .windows ·) = server := by
    rw [List.takeWhile_append_of_pos fun c member => by simp [part.unbroken c member]]
    simp [separates]
  simp only [rootLength, separator_not_letter one, one, two, head, whole, Bool.false_and, Bool.and_self,
    Bool.false_eq_true, if_false, if_true]

/-- A root name ends where the first separator behind it stands. -/
theorem rootLength_rooted (rooted : platform.RootName rootName)
    (separates : platform.separator slash = true) :
    platform.rootLength (rootName ++ slash :: tail) = rootName.length := by
  cases platform with
  | windows =>
    rcases rooted with ⟨drive, letter, rfl⟩ | ⟨first, second, server, one, two, part, rfl⟩
    · simp [rootLength, letter]
    · rw [List.cons_append, List.cons_append, rootLength_server one two part separates, Nat.add_comm]
      rfl
  | linux | other =>
    cases rooted
    simp [rootLength]

theorem take_rooted (rooted : platform.RootName rootName) (separates : platform.separator slash = true) :
    (rootName ++ slash :: tail).take (platform.rootLength (rootName ++ slash :: tail)) = rootName := by
  rw [rootLength_rooted rooted separates, List.take_left]

theorem drop_rooted (rooted : platform.RootName rootName) (separates : platform.separator slash = true) :
    (rootName ++ slash :: tail).drop (platform.rootLength (rootName ++ slash :: tail)) =
      slash :: tail := by
  rw [rootLength_rooted rooted separates, List.drop_left]

theorem resolve_rooted (rooted : platform.RootName rootName)
    (separates : platform.separator slash = true) (cwd : Place) :
    platform.resolve cwd (rootName ++ slash :: tail) = ⟨rootName, platform.parts tail⟩ := by
  have absolute : (slash :: tail).head?.any platform.separator = true := by simp [separates]
  rw [resolve, drop_rooted rooted separates, if_pos absolute, take_rooted rooted separates, parts,
    components_cons separates, ← parts]

end Platform

namespace Executable
variable {platform : Platform} (e : Executable platform)

theorem parts_named (e : Executable platform) :
    ∀ part ∈ e.directories, Part platform.separator part :=
  fun directory member => (e.below directory member).part

theorem directories_parts : e.directories.filter (· != [unit '.']) = e.directories :=
  List.filter_eq_self.mpr fun directory member => by simp [(e.below directory member).notCurrent]

theorem relativePath_path :
    platform.relativePath e.path = listing platform.slash e.directories ++ e.name := by
  obtain ⟨c, tail, shape, plain⟩ := listing_append_head e.parts_named e.named.part
  rw [Platform.relativePath, path, Platform.drop_rooted e.rooted platform.slash_separates, shape]
  simp [platform.slash_separates, plain]

theorem rootPath_path : platform.rootPath e.path = e.rootName ++ [platform.slash] := by
  obtain ⟨c, tail, shape, plain⟩ := listing_append_head e.parts_named e.named.part
  rw [Platform.rootPath, path, Platform.take_rooted e.rooted platform.slash_separates,
    Platform.drop_rooted e.rooted platform.slash_separates, shape]
  simp [platform.slash_separates, plain]

theorem filename_path : platform.filename e.path = e.name := by
  rw [Platform.filename, e.relativePath_path,
    filename_listing platform.slash_separates e.named.part.unbroken]

/-- The place of the dump file of an executable. -/
def dumpPlace (e : Executable platform) : Place where
  root := e.rootName
  parts := e.directories ++ [['d', 'u', 'm', 'p'].map unit, e.name ++ ['.', 'd', 'u', 'm', 'p'].map unit]

theorem dumpPlace_parts : platform.parts (Paths.parentPath platform.separator
    (listing platform.slash e.directories ++ e.name) ++ unit '/' :: (['d', 'u', 'm', 'p'].map unit ++
      unit '/' :: (e.name ++ ['.', 'd', 'u', 'm', 'p'].map unit))) = e.dumpPlace.parts := by
  have plain : (['.', 'd', 'u', 'm', 'p'].map unit).all (!platform.separator ·) = true := by
    cases platform <;> rfl
  have suffix : ∀ c ∈ ['.', 'd', 'u', 'm', 'p'].map unit, platform.separator c = false := fun c member =>
    Bool.not_eq_true' _ ▸ List.all_eq_true.mp plain c member
  have middle : Part platform.separator (['d', 'u', 'm', 'p'].map unit) :=
    ⟨nofun, fun c member => suffix c (List.mem_cons_of_mem _ member)⟩
  have last : e.name ++ ['.', 'd', 'u', 'm', 'p'].map unit ≠ [unit '.'] := by
    intro short
    have length := congrArg List.length short
    simp at length
  rw [Platform.parts, components_append platform.forward_separates,
    components_append platform.forward_separates,
    components_parentPath_listing platform.slash_separates e.parts_named e.named.part.unbroken,
    middle.components, (e.named.part.append suffix).components, List.filter_append,
    e.directories_parts, dumpPlace]
  congr 1
  have kept : ['d', 'u', 'm', 'p'].map unit ≠ [unit '.'] := by decide
  simp only [List.cons_append, List.nil_append, List.filter_cons, List.filter_nil, bne_iff_ne, ne_eq,
    kept, last, not_false_eq_true, if_true]

/-- Executables apart, whichever letters are alike, have dump files apart. -/
theorem dumpPlace_fold_injective (upcase : CodeUnit → CodeUnit) {e f : Executable platform}
    (same : e.dumpPlace.fold upcase = f.dumpPlace.fold upcase) :
    e.place.fold upcase = f.place.fold upcase := by
  simp only [Place.fold, dumpPlace, Place.mk.injEq, List.map_append, List.map_cons, List.map_nil] at same
  obtain ⟨root, parts⟩ := same
  obtain ⟨directories, files⟩ := List.append_inj' parts rfl
  have name : e.name.map upcase = f.name.map upcase := by
    simp only [List.cons.injEq, true_and, and_true] at files
    exact List.append_cancel_right files
  simp only [Place.fold, place, root, directories, name, List.map_append, List.map_cons, List.map_nil]

end Executable

namespace Process
variable {platform : Platform} {p : Process platform}

theorem getDumpPath_located (located : p.Located) (succeeds : p.Succeeds) :
    platform.resolve p.cwd p.getDumpPath = p.executable.dumpPlace := by
  obtain ⟨path, found⟩ := succeeds
  cases located path found
  have shape : p.getDumpPath = p.executable.rootName ++ platform.slash ::
      (Paths.parentPath platform.separator
        (listing platform.slash p.executable.directories ++ p.executable.name) ++
        unit '/' :: (['d', 'u', 'm', 'p'].map unit ++ unit '/' ::
          (p.executable.name ++ ['.', 'd', 'u', 'm', 'p'].map unit))) := by
    simp only [getDumpPath, found, Platform.parentPath, p.executable.rootPath_path,
      p.executable.relativePath_path, p.executable.filename_path, List.append_assoc,
      List.map_cons, List.map_nil, List.cons_append, List.nil_append]
  rw [shape, Platform.resolve_rooted p.executable.rooted platform.slash_separates,
    p.executable.dumpPlace_parts]
  rfl

/-- Two executables that are located have a dump file each. -/
theorem dumpFile_injective {q : Process platform} (upcase : CodeUnit → CodeUnit)
    (first : p.Located) (second : q.Located) (one : p.Succeeds) (two : q.Succeeds)
    (same : p.dumpFile upcase = q.dumpFile upcase) :
    p.executable.place.fold upcase = q.executable.place.fold upcase := by
  rw [dumpFile, dumpFile, getDumpPath_located first one, getDumpPath_located second two] at same
  exact Executable.dumpPlace_fold_injective upcase same

end Process
end BoostTest.Program

import Mathlib.Logic.Function.Basic

/-! Named files as POSIX has them: a path is linked to a file at most, and a
file that has been unlinked lives on for those who have it open. Paths belong
to files that no other path is linked to. -/
namespace BoostTest.FileSystem

/-- Files are numbered in the order of their creation. -/
structure Files (P β : Type) where
  link : P → Option Nat
  content : Nat → List β
  next : Nat
  allocated : ∀ path file, link path = some file → file < next
  single : ∀ path other file, link path = some file → link other = some file → path = other

namespace Files
variable {P β : Type}

theorem linked_of_update [DecidableEq P] {link : P → Option Nat} {path other : P}
    (linked : Function.update link path none other = some file) :
    other ≠ path ∧ link other = some file := by
  by_cases same : other = path
  · subst same
    simp at linked
  · exact ⟨same, by rwa [Function.update_of_ne same] at linked⟩

def empty : Files P β where
  link _ := none
  content _ := []
  next := 0
  allocated := nofun
  single := nofun

def existsAt (files : Files P β) (path : P) : Bool := (files.link path).isSome

/-- `write` through a descriptor that is at the start of its file. -/
def write (files : Files P β) (file : Nat) (data : List β) : Files P β :=
  let content := data ++ (files.content file).drop data.length
  { files with content := Function.update files.content file content }

theorem write_content_self (files : Files P β) (file : Nat) (data : List β) :
    (files.write file data).content file = data ++ (files.content file).drop data.length := Function.update_self _ _ _

theorem write_content_of_ne (files : Files P β) {file other : Nat} (different : other ≠ file) (data : List β) :
    (files.write file data).content other = files.content other :=
  Function.update_of_ne different _ _

variable [DecidableEq P]

/-- `open` with `O_CREAT` and `O_TRUNC`: the descriptor's file, and the files
after the call. -/
def create (files : Files P β) (path : P) : Nat × Files P β :=
  match linked : files.link path with
  | some file => (file, { files with content := Function.update files.content file [] })
  | none => (files.next,
      { link := Function.update files.link path (some files.next)
        content := Function.update files.content files.next []
        next := files.next + 1
        allocated := by
          intro other file
          by_cases same : other = path
          · subst same
            rw [Function.update_self]
            rintro ⟨⟩
            exact Nat.lt_succ_self _
          · rw [Function.update_of_ne same]
            exact fun linked => Nat.lt_succ_of_lt (files.allocated other file linked)
        single := by
          have fresh : ∀ other, files.link other ≠ some files.next := fun other linked =>
            Nat.lt_irrefl _ (files.allocated other _ linked)
          intro a b file
          by_cases first : a = path <;> by_cases second : b = path
          · exact fun _ _ => first.trans second.symm
          · subst first
            rw [Function.update_self, Function.update_of_ne second]
            rintro ⟨⟩ linked
            exact absurd linked (fresh b)
          · subst second
            rw [Function.update_self, Function.update_of_ne first]
            rintro linked ⟨⟩
            exact absurd linked (fresh a)
          · rw [Function.update_of_ne first, Function.update_of_ne second]
            exact files.single a b file })

/-- A file is created or truncated, and then written. -/
def store (files : Files P β) (path : P) (data : List β) : Nat × Files P β :=
  let (file, files) := files.create path
  (file, files.write file data)

def remove (files : Files P β) (path : P) : Files P β where
  link := Function.update files.link path none
  content := files.content
  next := files.next
  allocated other file linked := files.allocated other file (linked_of_update linked).2
  single a b file first second :=
    files.single a b file (linked_of_update first).2 (linked_of_update second).2

section Observations
variable (files : Files P β)

@[simp] theorem create_link_self (path : P) :
    (files.create path).2.link path = some (files.create path).1 := by
  unfold create
  split
  · assumption
  · simp

theorem create_link_of_ne {path other : P} (different : other ≠ path) :
    (files.create path).2.link other = files.link other := by
  unfold create
  split
  · rfl
  · exact Function.update_of_ne different _ _

theorem create_of_linked {path : P} (linked : files.link path = some file) :
    (files.create path).1 = file := by
  unfold create
  split
  · rename_i found
    exact Option.some.inj (found.symm.trans linked)
  · rename_i absent
    cases absent.symm.trans linked

theorem create_of_absent {path : P} (absent : files.link path = none) :
    (files.create path).1 = files.next := by
  unfold create
  split
  · rename_i linked
    cases absent.symm.trans linked
  · rfl

@[simp] theorem create_content (path : P) :
    (files.create path).2.content = Function.update files.content (files.create path).1 [] := by
  unfold create
  split <;> rfl

theorem create_next_le (path : P) : files.next ≤ (files.create path).2.next := by
  unfold create
  split
  · exact Nat.le_refl _
  · exact Nat.le_succ _

theorem store_link_self (path : P) (data : List β) :
    (files.store path data).2.link path = some (files.store path data).1 :=
  files.create_link_self path

theorem store_keeps_link {other : P} (linked : files.link other = some file) (path : P)
    (data : List β) : (files.store path data).2.link other = some file := by
  change (files.create path).2.link other = some file
  by_cases same : other = path
  · subst same
    rw [create_link_self, files.create_of_linked linked]
  · rw [files.create_link_of_ne same, linked]

theorem store_content_self (path : P) (data : List β) :
    (files.store path data).2.content (files.store path data).1 = data := by
  simp [store, write_content_self]

theorem store_content_of_ne {path other : P} (linked : files.link other = some file)
    (different : other ≠ path) (data : List β) :
    (files.store path data).2.content file = files.content file := by
  have apart : file ≠ (files.create path).1 := by
    rintro rfl
    have kept := (files.create_link_of_ne different).trans linked
    exact different ((files.create path).2.single other path _ kept (files.create_link_self path))
  change ((files.create path).2.write (files.create path).1 data).content file = _
  rw [write_content_of_ne _ apart, create_content, Function.update_of_ne apart]

@[simp] theorem remove_link_self (path : P) : (files.remove path).link path = none :=
  Function.update_self _ _ _

/-- A file that no path is linked to stays so. -/
theorem create_unlinked {file : Nat} (old : file < files.next)
    (unlinked : ∀ path, files.link path ≠ some file) (path other : P) :
    (files.create path).2.link other ≠ some file := by
  by_cases same : other = path
  · subst same
    rw [create_link_self]
    rintro ⟨⟩
    cases linked : files.link other with
    | some file => exact unlinked other (linked.trans (by rw [files.create_of_linked linked]))
    | none =>
      rw [files.create_of_absent linked] at old
      exact Nat.lt_irrefl _ old
  · rw [files.create_link_of_ne same]
    exact unlinked other

theorem remove_unlinked {path : P} (linked : files.link path = some file) (other : P) :
    (files.remove path).link other ≠ some file := by
  intro kept
  obtain ⟨different, also⟩ := linked_of_update kept
  exact different (files.single other path file also linked)

end Observations
end Files
end BoostTest.FileSystem

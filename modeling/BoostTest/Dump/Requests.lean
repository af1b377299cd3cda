import Mathlib.Data.List.Nodup
import BoostTest.Dump.Minidump

/-! Sequences of dump requests. The directory `.\dump` is never made, so nothing
is written where it is missing, and two requests in one second of local time
share a file. -/
namespace BoostTest.Dump
open Calendar FileSystem

variable {β : Type}

/-- The local time of a request, in seconds. -/
def Request.localSecond (offset : Int → Int) (request : Request β) : Int :=
  request.time + offset request.time

def grantedRequests (offset : Int → Int) (requests : List (Request β)) : List (Request β) :=
  requests.filter (·.granted offset)

/-- Every request that got a path has a file of its own on the disk, which
still holds its dump. -/
structure EachKept (served : List (Outcome β) × Disk β) : Prop where
  kept : ∀ outcome ∈ served.1, ∃ file, outcome.file = some file ∧
    (∃ path, served.2.files.link path = some file) ∧
    served.2.files.content file = outcome.trace
  distinct : (served.1.map Outcome.file).Nodup

section Serve
variable {offset : Int → Int} {request : Request β} {disk : Disk β}

/-- What one request does: it gets no path, or a path in a directory that is not
there, or its dump is stored. -/
theorem serve_cases (offset : Int → Int) (request : Request β) (disk : Disk β) :
    (request.granted offset = false ∧ request.serve offset disk = (none, disk.makeDmp)) ∨
    (request.granted offset = true ∧ disk.present .dump = false ∧ request.serve offset disk =
      (some ⟨request.path offset, none, request.trace⟩, disk.makeDmp)) ∨
    (request.granted offset = true ∧ disk.present .dump = true ∧ request.serve offset disk =
      (some ⟨request.path offset, some (disk.files.store (request.path offset) request.trace).1,
        request.trace⟩,
        { disk.makeDmp with files := (disk.files.store (request.path offset) request.trace).2 })) := by
  rw [request.serve_eq]
  cases allowed : request.granted offset with
  | false => exact .inl ⟨rfl, if_neg Bool.false_ne_true⟩
  | true =>
    right
    rw [if_pos rfl]
    cases present : disk.present .dump with
    | false =>
      have absent : disk.makeDmp.present (request.path offset).directory = false :=
        disk.makeDmp_dump.trans present
      exact .inl ⟨rfl, rfl, by rw [genDump_absent _ _ absent]⟩
    | true =>
      have present : disk.makeDmp.present (request.path offset).directory = true :=
        disk.makeDmp_dump.trans present
      exact .inr ⟨rfl, rfl, by rw [genDump_present _ _ present, disk.makeDmp_files]⟩

/-- The files of the disk are left alone, or the dump is stored. -/
theorem serve_files (offset : Int → Int) (request : Request β) (disk : Disk β) :
    (request.serve offset disk).2.files = disk.files ∨
    request.granted offset = true ∧ (request.serve offset disk).2.files =
      (disk.files.store (request.path offset) request.trace).2 := by
  obtain ⟨_, served⟩ | ⟨_, _, served⟩ | ⟨allowed, _, served⟩ := serve_cases offset request disk
  · rw [served]
    exact .inl disk.makeDmp_files
  · rw [served]
    exact .inl disk.makeDmp_files
  · rw [served]
    exact .inr ⟨allowed, rfl⟩

theorem serve_dump (offset : Int → Int) (request : Request β) (disk : Disk β) :
    (request.serve offset disk).2.present .dump = disk.present .dump := by
  obtain ⟨_, served⟩ | ⟨_, _, served⟩ | ⟨_, _, served⟩ := serve_cases offset request disk
  all_goals
    rw [served]
    exact disk.makeDmp_dump

theorem outcome_absent (absent : disk.present .dump = false)
    (now : (request.serve offset disk).1 = some outcome) : outcome.file = none := by
  obtain ⟨_, served⟩ | ⟨_, _, served⟩ | ⟨_, present, _⟩ := serve_cases offset request disk
  · rw [served] at now
    cases now
  · rw [served] at now
    cases now
    rfl
  · cases absent.symm.trans present

theorem outcome_present (present : disk.present .dump = true)
    (now : (request.serve offset disk).1 = some outcome) :
    (request.granted offset = true ∧ outcome.path = request.path offset) ∧
    ∃ file, outcome.file = some file ∧
      (request.serve offset disk).2.files.link outcome.path = some file ∧
      (request.serve offset disk).2.files.content file = outcome.trace := by
  obtain ⟨_, served⟩ | ⟨_, absent, _⟩ | ⟨allowed, _, served⟩ := serve_cases offset request disk
  · rw [served] at now
    cases now
  · cases absent.symm.trans present
  · rw [served] at now ⊢
    cases now
    exact ⟨⟨allowed, rfl⟩, _, rfl, disk.files.store_link_self _ _,
      disk.files.store_content_self _ _⟩

theorem mem_serveAll_cons : outcome ∈ (serveAll offset (request :: rest) disk).1 ↔
    (request.serve offset disk).1 = some outcome ∨
      outcome ∈ (serveAll offset rest (request.serve offset disk).2).1 := by
  rw [← Option.mem_toList]
  exact List.mem_append

end Serve

/-- The paths of the outcomes are those of the granted requests, in order. -/
theorem serveAll_paths (offset : Int → Int) (requests : List (Request β)) (disk : Disk β) :
    (serveAll offset requests disk).1.map Outcome.path =
      (grantedRequests offset requests).map (Request.path offset) := by
  induction requests generalizing disk with
  | nil => rfl
  | cons request rest ih =>
    simp only [serveAll, List.map_append, ih, grantedRequests, List.filter_cons, request.serve_eq]
    cases request.granted offset <;> rfl

/-- Nothing takes a path away from its file. -/
theorem serveAll_keeps_link (offset : Int → Int) (requests : List (Request β)) {disk : Disk β}
    (linked : disk.files.link path = some file) :
    (serveAll offset requests disk).2.files.link path = some file := by
  induction requests generalizing disk with
  | nil => exact linked
  | cons request rest ih =>
    have kept : (request.serve offset disk).2.files.link path = some file := by
      obtain files | ⟨_, files⟩ := serve_files offset request disk
      · rw [files, linked]
      · rw [files]
        exact disk.files.store_keeps_link linked _ _
    exact ih kept

/-- Requests for other paths leave the content of a file alone. -/
theorem serveAll_keeps_content (offset : Int → Int) (requests : List (Request β)) {disk : Disk β}
    (linked : disk.files.link path = some file)
    (elsewhere : path ∉ (grantedRequests offset requests).map (Request.path offset)) :
    (serveAll offset requests disk).2.files.content file = disk.files.content file := by
  induction requests generalizing disk with
  | nil => rfl
  | cons request rest ih =>
    have later : path ∉ (grantedRequests offset rest).map (Request.path offset) := by
      intro member
      apply elsewhere
      rw [grantedRequests, List.filter_cons]
      split
      · exact List.mem_cons_of_mem _ member
      · exact member
    have kept : (request.serve offset disk).2.files.link path = some file ∧
        (request.serve offset disk).2.files.content file = disk.files.content file := by
      obtain files | ⟨allowed, files⟩ := serve_files offset request disk
      · rw [files]
        exact ⟨linked, rfl⟩
      · have different : path ≠ request.path offset := by
          rintro rfl
          apply elsewhere
          rw [grantedRequests, List.filter_cons_of_pos allowed]
          exact List.mem_cons_self
        rw [files]
        exact ⟨disk.files.store_keeps_link linked _ _,
          disk.files.store_content_of_ne linked different _⟩
    exact (ih kept.1 later).trans kept.2

/-- Where `.\dump` is missing, nothing is written. -/
theorem serveAll_absent (offset : Int → Int) (requests : List (Request β)) {disk : Disk β}
    (absent : disk.present .dump = false) :
    ∀ outcome ∈ (serveAll offset requests disk).1, outcome.file = none := by
  induction requests generalizing disk with
  | nil => nofun
  | cons request rest ih =>
    intro outcome member
    obtain now | later := mem_serveAll_cons.mp member
    · exact outcome_absent absent now
    · exact ih ((serve_dump offset request disk).trans absent) outcome later

/-- Where it exists, every outcome has the file that its path is linked to. -/
theorem serveAll_linked (offset : Int → Int) (requests : List (Request β)) {disk : Disk β}
    (present : disk.present .dump = true) : ∀ outcome ∈ (serveAll offset requests disk).1,
    ∃ file, outcome.file = some file ∧
      (serveAll offset requests disk).2.files.link outcome.path = some file := by
  induction requests generalizing disk with
  | nil => nofun
  | cons request rest ih =>
    intro outcome member
    obtain now | later := mem_serveAll_cons.mp member
    · obtain ⟨_, file, opened, linked, _⟩ := outcome_present present now
      exact ⟨file, opened, serveAll_keeps_link offset rest linked⟩
    · exact ih ((serve_dump offset request disk).trans present) outcome later

/-- Requests for distinct paths each find their dump in their file at the end. -/
theorem serveAll_content (offset : Int → Int) (requests : List (Request β)) {disk : Disk β}
    (present : disk.present .dump = true)
    (distinct : ((grantedRequests offset requests).map (Request.path offset)).Nodup) :
    ∀ outcome ∈ (serveAll offset requests disk).1, ∀ file, outcome.file = some file →
      (serveAll offset requests disk).2.files.content file = outcome.trace := by
  induction requests generalizing disk with
  | nil => nofun
  | cons request rest ih =>
    intro outcome member file opened
    have later : ((grantedRequests offset rest).map (Request.path offset)).Nodup := by
      rw [grantedRequests, List.filter_cons] at distinct
      split at distinct
      · exact (List.nodup_cons.mp distinct).2
      · exact distinct
    obtain now | after := mem_serveAll_cons.mp member
    · obtain ⟨⟨allowed, path⟩, own, opens, linked, content⟩ := outcome_present present now
      cases opens.symm.trans opened
      rw [grantedRequests, List.filter_cons_of_pos allowed, List.map_cons, ← path] at distinct
      have elsewhere := (List.nodup_cons.mp distinct).1
      exact (serveAll_keeps_content offset rest linked elsewhere).trans content
    · exact ih ((serve_dump offset request disk).trans present) later outcome after file opened

/-- Outcomes have distinct files exactly if they have distinct paths. -/
theorem distinct_files_iff {outcomes : List (Outcome β)} {files : Files Path β}
    (linked : ∀ outcome ∈ outcomes, ∃ file, outcome.file = some file ∧
      files.link outcome.path = some file) :
    (outcomes.map Outcome.file).Nodup ↔ (outcomes.map Outcome.path).Nodup := by
  have same : outcomes.map Outcome.file = (outcomes.map Outcome.path).map files.link := by
    rw [List.map_map]
    apply List.map_congr_left
    intro outcome member
    obtain ⟨file, opened, links⟩ := linked outcome member
    exact opened.trans links.symm
  rw [same]
  refine ⟨List.Nodup.of_map _, fun distinct => ?_⟩
  apply distinct.map_on
  intro path member other _ equal
  obtain ⟨outcome, listed, rfl⟩ := List.mem_map.mp member
  obtain ⟨file, _, links⟩ := linked outcome listed
  exact files.single _ _ file links (equal.symm.trans links)

theorem distinct_paths_iff (offset : Int → Int) (requests : List (Request β)) :
    (requests.map (Request.path offset)).Nodup ↔
      (requests.map (Request.localSecond offset)).Nodup := by
  have paths : requests.map (Request.path offset) =
      (requests.map (Request.localSecond offset)).map fun second => dumpPath (broken second) := by
    rw [List.map_map]
    rfl
  rw [paths]
  exact List.nodup_map_iff fun _ _ same => dumpPath_injective same

/-- Every request keeps its own dump exactly if no two fall into one second of
local time and the directory `.\dump` is there for them. -/
theorem each_dump_kept_iff (offset : Int → Int) (disk : Disk β) (requests : List (Request β)) :
    EachKept (serveAll offset requests disk) ↔
      (grantedRequests offset requests = [] ∨ disk.present .dump = true) ∧
        ((grantedRequests offset requests).map (Request.localSecond offset)).Nodup := by
  have paths := serveAll_paths offset requests disk
  rw [← distinct_paths_iff, ← paths]
  cases present : disk.present .dump with
  | false =>
    have files := serveAll_absent offset requests present
    have none : grantedRequests offset requests = [] ↔ (serveAll offset requests disk).1 = [] := by
      rw [← List.map_eq_nil_iff (f := Request.path offset), ← paths, List.map_eq_nil_iff]
    simp only [Bool.false_eq_true, or_false, none]
    constructor
    · rintro ⟨kept, _⟩
      have empty : (serveAll offset requests disk).1 = [] := by
        apply List.eq_nil_iff_forall_not_mem.mpr
        intro outcome member
        obtain ⟨file, opened, _⟩ := kept outcome member
        cases (files outcome member).symm.trans opened
      exact ⟨empty, by simp [empty]⟩
    · rintro ⟨empty, _⟩
      exact ⟨by simp [empty], by simp [empty]⟩
  | true =>
    have linked := serveAll_linked offset requests present
    rw [← distinct_files_iff linked]
    simp only [or_true, true_and]
    refine ⟨EachKept.distinct, fun distinct => ⟨?_, distinct⟩⟩
    intro outcome member
    obtain ⟨file, opened, links⟩ := linked outcome member
    rw [distinct_files_iff linked, paths] at distinct
    exact ⟨file, opened, ⟨_, links⟩,
      serveAll_content offset requests present distinct outcome member file opened⟩

/-- The first dump of a program without the directory `.\dump` is not written,
and the second of two dumps in one second takes the file of the first. -/
theorem dumps_lost :
    ¬ EachKept (serveAll (fun _ => 0) [⟨.exceptionFilter, 1700000000, [1]⟩]
      (⟨fun _ => false, .empty⟩ : Disk Nat)) ∧
    ¬ EachKept (serveAll (fun _ => 0)
      [⟨.snapshotMem, 1700000000, [1]⟩, ⟨.snapshotMem, 1700000000, [2]⟩]
      (⟨fun _ => true, .empty⟩ : Disk Nat)) := by
  constructor
  · rintro ⟨kept, _⟩
    have paths := serveAll_paths (fun _ => 0) [⟨.exceptionFilter, 1700000000, [1]⟩]
      (⟨fun _ => false, .empty⟩ : Disk Nat)
    have nonempty : ((grantedRequests (fun _ => 0) [(⟨.exceptionFilter, 1700000000, [1]⟩ : Request Nat)]).map
        (Request.path fun _ => 0)) ≠ [] := by decide
    rw [← paths, ne_eq, List.map_eq_nil_iff] at nonempty
    obtain ⟨outcome, member⟩ := List.exists_mem_of_ne_nil _ nonempty
    obtain ⟨file, opened, _⟩ := kept outcome member
    cases (serveAll_absent _ _ rfl outcome member).symm.trans opened
  · rintro ⟨_, distinct⟩
    rw [distinct_files_iff (serveAll_linked _ _ rfl), serveAll_paths] at distinct
    exact absurd distinct (by decide)

end BoostTest.Dump

import Untangle.Lib.Dict

/-!
# `Lib.Files` — files under their paths

A directory tree is a finite map from paths to contents. A file is opened for writing, renamed and removed; renaming a
file to its own path does nothing. `get?_rename` and `get?_unlink` say what is found afterwards.
-/

namespace Lib

/-- The files of a directory tree. -/
abbrev Files (π β : Type) := Dict π β

namespace Files

variable {π β : Type} [DecidableEq π]

/-- Remove a file, if there is one. -/
def unlink (files : Files π β) (path : π) : Files π β where
  items := files.items.filter fun entry => entry.1 ≠ path
  nodup := files.nodup.sublist (List.filter_sublist.map _)

/-- Write a file. -/
def write (files : Files π β) (path : π) (content : β) : Files π β := Dict.insert files path content

/-- Move a file over another. -/
def rename (files : Files π β) (source target : π) : Files π β :=
  if source = target then files
  else
    match Dict.get? files source with
    | some content => (unlink files source).write target content
    | none => files

theorem get?_write (files : Files π β) (path path' : π) (content : β) :
    Dict.get? (files.write path content) path' = if path' = path then some content else Dict.get? files path' :=
  Dict.get?_insert files path path' content

theorem get?_unlink (files : Files π β) (path path' : π) :
    Dict.get? (files.unlink path) path' = if path' = path then none else Dict.get? files path' := by
  by_cases hpath : path' = path
  · rw [if_pos hpath, Dict.get?_eq_none]
    intro hmem
    obtain ⟨⟨key, content⟩, hentry, rfl⟩ := List.mem_map.mp hmem
    exact of_decide_eq_true (List.mem_filter.mp hentry).2 hpath
  · rw [if_neg hpath]
    refine Option.ext fun content => ?_
    rw [Dict.get?_eq_some, Dict.get?_eq_some]
    exact List.mem_filter.trans (and_iff_left (decide_eq_true hpath))

/-- Moving a written file moves what is written. -/
theorem get?_rename_write (files : Files π β) {source target : π} (hne : source ≠ target) (content : β) (path : π) :
    Dict.get? ((files.write source content).rename source target) path =
      if path = target then some content else if path = source then none else Dict.get? files path := by
  have hsource : Dict.get? (files.write source content) source = some content := by
    rw [get?_write, if_pos rfl]
  unfold rename
  rw [if_neg hne, hsource]
  dsimp only
  rw [get?_write, get?_unlink, get?_write]
  by_cases htarget : path = target
  · rw [if_pos htarget, if_pos htarget]
  · rw [if_neg htarget, if_neg htarget]
    by_cases hpath : path = source
    · rw [if_pos hpath, if_pos hpath]
    · rw [if_neg hpath, if_neg hpath, if_neg hpath]

end Files

end Lib

import Redstone.CommandLine.FileTree

/-!
# Writing one file

Writing a file changes what is at its location and nothing else. Directories stay directories, so
every path that led somewhere leads there still, and the file that was written is read back through
the path that it was written through. The last name of a path is that of a file, or a turn that
leads to a directory.
-/

namespace Redstone

namespace PathName

/-- A name that leads to a directory and not to a file in it. -/
def IsTurn (name : String) : Prop :=
  name = "" ∨ name = "." ∨ name = ".."

end PathName

namespace FileTree

variable {tree after : FileTree} {location other : Location} {path : String}
  {contents : List UInt8}

/-! ## What is at a location -/

theorem lookup_map_ite (files : List (Location × List UInt8)) :
    (files.map fun (place, old) => (place, if place = location then contents else old)).lookup
        other =
      if other = location then (files.lookup location).map fun _ => contents
      else files.lookup other := by
  induction files with
  | nil => simp
  | cons file rest ih =>
      obtain ⟨place, old⟩ := file
      simp only [List.map_cons, List.lookup_cons, ih]
      by_cases hother : other = location
      · subst hother
        by_cases hplace : other = place
        · simp [← hplace]
        · simp [beq_false_of_ne hplace]
      · by_cases hplace : other = place
        · subst hplace
          simp [hother]
        · simp [hother, beq_false_of_ne hplace]

/-- The location holds the new contents, and all others hold what they held. -/
theorem file?_put : (tree.put location contents).file? other =
    if other = location then some contents else tree.file? other := by
  unfold put file?
  cases there : tree.files.lookup location with
  | some old =>
      simp only [Option.isSome_some, if_true, lookup_map_ite, there, Option.map_some]
  | none =>
      simp only [Option.isSome_none, Bool.false_eq_true, if_false, List.lookup_append]
      by_cases hother : other = location
      · subst hother
        simp [there]
      · simp [hother, List.lookup_cons, beq_false_of_ne hother]

theorem file?_put_self : (tree.put location contents).file? location = some contents := by
  rw [file?_put, if_pos rfl]

theorem file?_put_of_ne (hne : other ≠ location) :
    (tree.put location contents).file? other = tree.file? other := by
  rw [file?_put, if_neg hne]

/-! ## Where a path leads -/

theorem exists_mem_put (location : Location) (contents : List UInt8)
    {file : Location × List UInt8} (member : file ∈ tree.files) :
    ∃ kept ∈ (tree.put location contents).files, kept.1 = file.1 := by
  unfold put
  split
  · exact ⟨_, List.mem_map_of_mem member, rfl⟩
  · exact ⟨file, List.mem_append_left _ member, rfl⟩

/-- A directory is above some file, or it is the one that all paths start from. -/
theorem isDirectory_iff : tree.isDirectory location = true ↔
    location = [] ∨ ∃ file ∈ tree.files, location <+: file.1 ∧ location ≠ file.1 := by
  simp [isDirectory, ne_comm]

theorem isDirectory_put (directory : tree.isDirectory other = true) :
    (tree.put location contents).isDirectory other = true := by
  rw [isDirectory_iff] at directory ⊢
  rcases directory with root | ⟨file, member, above⟩
  · exact .inl root
  · obtain ⟨kept, member', same⟩ := exists_mem_put location contents member
    exact .inr ⟨kept, member', same ▸ above⟩

theorem isDirectory_dropLast (directory : tree.isDirectory location = true) :
    tree.isDirectory location.dropLast = true := by
  rw [isDirectory_iff] at directory ⊢
  rcases directory with rfl | ⟨file, member, below, distinct⟩
  · exact .inl rfl
  · refine .inr ⟨file, member, (List.dropLast_prefix location).trans below, fun same => ?_⟩
    -- The file would be as long as the directory without its last name.
    have shorter := below.length_le
    rw [← same, List.length_dropLast] at shorter
    obtain rfl : location = [] := List.eq_nil_of_length_eq_zero (by omega)
    exact distinct same

theorem follow_nil : tree.follow location [] = some location := by
  rw [follow]

theorem follow_cons_of_directory (directory : tree.isDirectory location = true)
    (name : String) (rest : List String) :
    tree.follow location (name :: rest) =
      if name = "" ∨ name = "." then tree.follow location rest
      else if name = ".." then
        if location.isEmpty then none else tree.follow location.dropLast rest
      else tree.follow (location ++ [name]) rest := by
  rw [follow, directory]
  rfl

theorem isDirectory_of_follow_cons {name : String} {rest : List String}
    (leads : tree.follow location (name :: rest) = some other) :
    tree.isDirectory location = true := by
  cases directory : tree.isDirectory location with
  | true => rfl
  | false => simp [follow, directory] at leads

theorem follow_append (front back : List String) :
    tree.follow location (front ++ back) =
      (tree.follow location front).bind (tree.follow · back) := by
  induction front generalizing location with
  | nil => rw [List.nil_append, follow_nil, Option.bind_some]
  | cons name rest ih =>
      cases directory : tree.isDirectory location with
      | false => simp [follow, directory]
      | true =>
          rw [List.cons_append, follow_cons_of_directory directory,
            follow_cons_of_directory directory]
          split
          · exact ih
          · split
            · split
              · rfl
              · exact ih
            · exact ih

/-- A turn leads to a directory, and any other name to what has it in the directory. -/
theorem follow_name {name : String} (leads : tree.follow location [name] = some other) :
    (PathName.IsTurn name ∧ tree.isDirectory other = true) ∨
      (¬PathName.IsTurn name ∧ other = location ++ [name]) := by
  have directory := isDirectory_of_follow_cons leads
  rw [follow_cons_of_directory directory] at leads
  split at leads
  · next stays =>
      cases leads
      exact .inl ⟨stays.elim .inl fun one => .inr (.inl one), directory⟩
  · next moves =>
      split at leads
      · next up =>
          split at leads
          · cases leads
          · cases leads
            exact .inl ⟨.inr (.inr up), isDirectory_dropLast directory⟩
      · next down =>
          cases leads
          refine .inr ⟨?_, rfl⟩
          rintro (none | one | two)
          · exact moves (.inl none)
          · exact moves (.inr one)
          · exact down two

theorem exists_follow_of_locate {path name : String} {front : List String}
    (split : PathName.parts path = front ++ [name]) (leads : tree.locate path = some other) :
    ∃ above, tree.follow [] front = some above ∧ tree.follow above [name] = some other := by
  unfold locate at leads
  split at leads
  · cases leads
  · rw [split, follow_append] at leads
    exact Option.bind_eq_some_iff.1 leads

/-- What leads somewhere leads there in every tree with at least the same directories. -/
theorem follow_of_directories {names : List String}
    (kept : ∀ place, tree.isDirectory place = true → after.isDirectory place = true)
    (leads : tree.follow location names = some other) :
    after.follow location names = some other := by
  induction names generalizing location with
  | nil => exact leads
  | cons name rest ih =>
      have directory := isDirectory_of_follow_cons leads
      rw [follow_cons_of_directory directory] at leads
      rw [follow_cons_of_directory (kept location directory)]
      split at leads
      · next stays => rw [if_pos stays]; exact ih leads
      · next moves =>
          rw [if_neg moves]
          split at leads
          · next up =>
              rw [if_pos up]
              split at leads
              · cases leads
              · next below => rw [if_neg below]; exact ih leads
          · next down => rw [if_neg down]; exact ih leads

theorem locate_put (leads : tree.locate path = some other) :
    (tree.put location contents).locate path = some other := by
  unfold locate at leads ⊢
  split at leads
  · cases leads
  · next inside =>
      rw [if_neg inside]
      exact follow_of_directories (fun _ => isDirectory_put) leads

theorem read?_of_locate (leads : tree.locate path = some location) :
    tree.read? path = tree.file? location := by
  rw [read?, leads, Option.bind_some]

/-! ## Writing -/

/-- A path leads to a location where a file can be put. -/
def CanWrite (tree : FileTree) (path : String) (location : Location) : Prop :=
  tree.locate path = some location ∧ tree.isDirectory location = false

instance (tree : FileTree) (path : String) (location : Location) :
    Decidable (tree.CanWrite path location) :=
  inferInstanceAs (Decidable (_ ∧ _))

theorem write?_of_canWrite (can : tree.CanWrite path location) :
    tree.write? path contents = some (tree.put location contents) := by
  rw [write?, can.1]
  simp [can.2]

theorem write?_eq_some_iff : tree.write? path contents = some after ↔
    ∃ location, tree.CanWrite path location ∧ after = tree.put location contents := by
  constructor
  · intro written
    rw [write?] at written
    split at written
    · cases written
    · next location leads =>
        split at written
        · cases written
        · next file =>
            exact ⟨location, ⟨leads, by simpa using file⟩, (Option.some.inj written).symm⟩
  · rintro ⟨location, can, rfl⟩
    exact write?_of_canWrite can

theorem write?_eq_none_iff :
    tree.write? path contents = none ↔ ¬∃ location, tree.CanWrite path location := by
  rw [Option.eq_none_iff_forall_ne_some]
  simp only [ne_eq, write?_eq_some_iff, not_exists, not_and]
  exact ⟨fun h location can => h _ location can rfl, fun h after location can => absurd can (h location)⟩

theorem read?_put_self (leads : tree.locate path = some location) :
    (tree.put location contents).read? path = some contents := by
  rw [read?_of_locate (locate_put leads), file?_put_self]

/-- A path that leads elsewhere, or nowhere but to nothing, reads what it read. -/
theorem read?_put_of_ne (there : (tree.read? path).isSome = true)
    (elsewhere : tree.locate path ≠ some location) :
    (tree.put location contents).read? path = tree.read? path := by
  cases leads : tree.locate path with
  | none => simp [read?, leads] at there
  | some other =>
      rw [leads] at elsewhere
      rw [read?_of_locate (locate_put leads), read?_of_locate leads,
        file?_put_of_ne fun same => elsewhere (congrArg some same)]

end FileTree

end Redstone

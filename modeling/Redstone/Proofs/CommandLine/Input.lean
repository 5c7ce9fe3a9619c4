import Redstone.Proofs.CommandLine.Assembling

/-!
# What becomes of the input

Running and listing change no file. Assembling changes the file that its output path leads to, and
without an output path this is the source itself only if the extension of the source is `bin`
already: two paths that differ in their last name alone lead to the same file only if one of them
leads to a directory or the names are the same.
-/

namespace Redstone

namespace PathName

/-! ## The parts of a path -/

theorem splitName_append (path : String) :
    (splitName path).1 ++ (splitName path).2 = path.toList := by
  simp only [splitName]
  rw [← List.reverse_append, List.takeWhile_append_dropWhile, List.reverse_reverse]

theorem slash_not_mem_name (path : String) : '/' ∉ (splitName path).2 := by
  intro member
  have backwards := List.mem_reverse.1 member
  simpa using List.mem_takeWhile_imp backwards

/-- What stops the search for a character is that character. -/
theorem eq_of_dropWhile_ne_eq_cons {mark c : Char} {cs rest : List Char}
    (stops : cs.dropWhile (· != mark) = c :: rest) : c = mark := by
  have head := List.head?_dropWhile_not (· != mark) cs
  rw [stops] at head
  simpa using head

/-- Directories are named up to a slash, or not at all. -/
theorem directories_cases (path : String) :
    (splitName path).1 = [] ∨ ∃ front, (splitName path).1 = front ++ ['/'] := by
  simp only [splitName]
  cases rest : path.toList.reverse.dropWhile (· != '/') with
  | nil => exact .inl rfl
  | cons c front =>
      obtain rfl := eq_of_dropWhile_ne_eq_cons rest
      exact .inr ⟨front.reverse, List.reverse_cons⟩

/-- The names of the directories come first, whatever the name behind them. -/
theorem exists_parts_eq (path : String) : ∃ front, ∀ name : List Char, '/' ∉ name →
    parts (String.ofList ((splitName path).1 ++ name)) = front ++ [String.ofList name] := by
  rcases directories_cases path with none | ⟨front, some⟩
  · refine ⟨[], fun name plain => ?_⟩
    rw [none, List.nil_append, parts, String.toList_ofList, List.splitOn_eq_singleton plain]
    rfl
  · refine ⟨(front.splitOn '/').map String.ofList, fun name plain => ?_⟩
    rw [some, parts, String.toList_ofList, List.append_assoc, List.singleton_append,
      List.splitOn_append_cons_self, List.splitOn_eq_singleton plain, List.map_append]
    rfl

/-- A name without an extension is its own stem; otherwise a dot stands between the two. -/
theorem splitDot_cases (name : List Char) :
    ((splitDot name).2 = none ∧ (splitDot name).1 = name) ∨
      ∃ extension, (splitDot name).2 = some extension ∧
        name = (splitDot name).1 ++ '.' :: extension := by
  cases rest : name.reverse.dropWhile (· != '.') with
  | nil => exact .inl (by simp [splitDot, rest])
  | cons c stem =>
      obtain rfl := eq_of_dropWhile_ne_eq_cons rest
      have whole : name = stem.reverse ++ '.' :: (name.reverse.takeWhile (· != '.')).reverse := by
        have halves := List.takeWhile_append_dropWhile (p := (· != '.')) (l := name.reverse)
        rw [rest] at halves
        have forwards := congrArg List.reverse halves
        rw [List.reverse_append, List.reverse_cons, List.reverse_reverse, List.append_assoc,
          List.singleton_append] at forwards
        exact forwards.symm
      cases stem with
      | nil => exact .inl (by simp [splitDot, rest])
      | cons last stem =>
          by_cases up : name = ['.', '.']
          · exact .inl (by simp [splitDot, up])
          · have split : splitDot name = ((last :: stem).reverse,
                some (name.reverse.takeWhile (· != '.')).reverse) := by
              simp [splitDot, rest, up]
            exact .inr ⟨_, congrArg Prod.snd split, by rw [split]; exact whole⟩

/-- With another extension only the last name changes, if it does not end up as a turn. -/
theorem exists_withExtension_eq (path extension : String) (plain : '/' ∉ extension.toList) :
    ∃ name : List Char, '/' ∉ name ∧
      withExtension path extension = String.ofList ((splitName path).1 ++ name) ∧
      (IsTurn (String.ofList name) ∨
        name = (splitDot (splitName path).2).1 ++ '.' :: extension.toList) := by
  have stem_plain : '/' ∉ (splitDot (splitName path).2).1 := by
    intro member
    refine slash_not_mem_name path ?_
    rcases splitDot_cases (splitName path).2 with ⟨-, same⟩ | ⟨_, -, same⟩
    · rwa [← same]
    · rw [same]
      exact List.mem_append_left _ member
  obtain ⟨bare, hbare⟩ : ∃ bare, bare = if (splitDot (splitName path).2).2.isSome then
      (splitDot (splitName path).2).1 ++ ['.'] else (splitDot (splitName path).2).1 := ⟨_, rfl⟩
  have unfolded : withExtension path extension =
      if bare = [] ∨ bare = ['.'] ∨ bare = ['.', '.'] then
        String.ofList ((splitName path).1 ++ bare)
      else
        String.ofList ((splitName path).1 ++ (splitDot (splitName path).2).1 ++ ['.']) ++
          extension := by
    rw [hbare]
    rfl
  rw [unfolded]
  split
  · next turn =>
      refine ⟨bare, ?_, rfl, .inl ?_⟩
      · rw [hbare]
        split <;> simp [stem_plain]
      · rcases turn with none | one | two
        · exact .inl (by rw [none])
        · exact .inr (.inl (by rw [one]))
        · exact .inr (.inr (by rw [two]))
  · refine ⟨_, ?_, ?_, .inr rfl⟩
    · simp [stem_plain, plain]
    · apply String.toList_injective
      simp

end PathName

namespace FileTree

variable {tree : FileTree} {location place : Location}

/-- A path whose new extension makes it lead to the same file has that extension already. -/
theorem extension?_of_locate_eq {path extension : String} (plain : '/' ∉ extension.toList)
    (can : tree.CanWrite (PathName.withExtension path extension) location)
    (leads : tree.locate path = some location) :
    PathName.extension? path = some extension := by
  obtain ⟨front, hparts⟩ := PathName.exists_parts_eq path
  obtain ⟨name, hname, hpath, turns⟩ := PathName.exists_withExtension_eq path extension plain
  rw [hpath] at can
  have old := hparts _ (PathName.slash_not_mem_name path)
  rw [PathName.splitName_append, String.ofList_toList] at old
  obtain ⟨above, hfront, hold⟩ := exists_follow_of_locate old leads
  obtain ⟨above', hfront', hnew⟩ := exists_follow_of_locate (hparts name hname) can.1
  obtain rfl := Option.some.inj (hfront'.symm.trans hfront)
  rcases follow_name hnew with ⟨-, directory⟩ | ⟨straight, hplace⟩
  · rw [can.2] at directory
    cases directory
  rcases follow_name hold with ⟨-, directory⟩ | ⟨-, hplace'⟩
  · rw [can.2] at directory
    cases directory
  -- Both names are in the same directory, so they are the same name.
  have same : name = (PathName.splitName path).2 := by
    have names := List.append_cancel_left (hplace.symm.trans hplace')
    exact String.ofList_injective (List.singleton_inj.1 names)
  have hname' := turns.resolve_left straight
  rw [same] at hname'
  rcases PathName.splitDot_cases (PathName.splitName path).2 with ⟨-, stem⟩ | ⟨found, some, stem⟩
  · have longer := congrArg List.length hname'
    rw [stem, List.length_append, List.length_cons] at longer
    omega
  · have tails := List.append_cancel_left (stem.symm.trans hname')
    rw [PathName.extension?, some, Option.map_some, (List.cons.inj tails).2, String.ofList_toList]

end FileTree

namespace Command

variable {files : FileTree} {input : List UInt8} {allowance : Nat} {result : CommandResult}

/-- Assembling changes no file, or the one that the output path leads to after it has been read. -/
theorem execute_assemble_cases {source : String} {output : Option String} {format : ImageFormat}
    (done : execute allowance files input (.assemble source output format) = some result) :
    result.files = files ∨
      result.status = 0 ∧ (files.read? source).isSome = true ∧
        ∃ location contents, files.CanWrite (outputPath source output) location ∧
          result.files = files.put location contents := by
  have unchanged {status : Nat} (fails : Fails files (.assemble source output format) status) :
      result.files = files := by
    obtain ⟨result', done', -, -, same⟩ := fails allowance input
    rw [done] at done'
    cases done'
    exact same
  cases assembling : assembleText source (files.read? source) with
  | error error => exact .inl (unchanged (fails_of_assembleText_eq_error assembling output format))
  | ok image =>
      by_cases empty : image.bytes = []
      · exact .inl (unchanged (fails_of_saving_eq_error (saving_of_empty assembling empty)))
      · obtain ⟨report, saves⟩ := exists_saving_eq_ok output format assembling empty
        by_cases can : ∃ location, files.CanWrite (outputPath source output) location
        · obtain ⟨location, can⟩ := can
          rw [execute_assemble_of_canWrite saves can] at done
          cases done
          obtain ⟨text, read, -⟩ := assembleText_eq_ok_iff.1 assembling
          exact .inr ⟨rfl, by rw [read]; rfl, location, _, can, rfl⟩
        · exact .inl (unchanged (fails_of_not_canWrite saves can))

/--
Running and listing leave every file as it was. Assembling leaves the source as it was if it fails,
and if it does not, then unless the output path that was given leads to the source or, without one,
the extension of the source is `bin`.
-/
theorem input_kept (allowance : Nat) (files : FileTree) (input : List UInt8)
    (result : CommandResult) :
    (∀ path format maxCycles dump,
      execute allowance files input (.run path format maxCycles false dump) = some result →
        result.files = files) ∧
    (∀ path format, execute allowance files input (.list path format) = some result →
      result.files = files) ∧
    ∀ source output format,
      execute allowance files input (.assemble source output format) = some result →
      (result.status ≠ 0 ∨
        (output = none ∧ PathName.extension? source ≠ some "bin") ∨
        ∃ path, output = some path ∧
          ∀ location, files.locate path = some location → files.locate source ≠ some location) →
      result.files.read? source = files.read? source := by
  refine ⟨fun path format maxCycles dump => files_of_execute_run,
    fun path format => files_of_execute_list, fun source output format done apart => ?_⟩
  rcases execute_assemble_cases done with same | ⟨status, read, location, contents, can, changed⟩
  · rw [same]
  · rw [changed]
    refine FileTree.read?_put_of_ne read fun leads => ?_
    rcases apart with fails | ⟨rfl, unlike⟩ | ⟨path, rfl, elsewhere⟩
    · exact fails status
    · exact unlike (FileTree.extension?_of_locate_eq (by decide) can leads)
    · exact elsewhere location can.1 leads

/-- The image of a source is written next to it. -/
theorem input_kept_beside :
    ∃ result, execute 0 (.ofFiles [("d/p.asm", Text.toBytes "HLT")]) []
        (.assemble "d/p.asm" none .binary) = some result ∧ result.status = 0 ∧
      result.files.read? "d/p.asm" = some (Text.toBytes "HLT") ∧
      result.files.read? "d/p.bin" = some [0x00, 0x08] := by
  have done : (execute 0 (.ofFiles [("d/p.asm", Text.toBytes "HLT")]) []
      (.assemble "d/p.asm" none .binary)).map (fun result =>
        (result.status, result.files.read? "d/p.bin")) = some (0, some [0x00, 0x08]) := by
    decide +kernel
  obtain ⟨result, done, both⟩ := Option.map_eq_some_iff.1 done
  have kept := (input_kept 0 (.ofFiles [("d/p.asm", Text.toBytes "HLT")]) [] result).2.2
    "d/p.asm" none .binary done (.inr (.inl ⟨rfl, by decide⟩))
  refine ⟨result, done, congrArg Prod.fst both, ?_, congrArg Prod.snd both⟩
  rw [kept]
  decide +kernel

/-- A source whose extension is `bin`, and one whose path is spelled in another way. -/
theorem input_lost :
    (∃ result, execute 0 (.ofFiles [("p.bin", Text.toBytes "HLT")]) []
        (.assemble "p.bin" none .binary) = some result ∧
      result.files.read? "p.bin" ≠
        (FileTree.ofFiles [("p.bin", Text.toBytes "HLT")]).read? "p.bin") ∧
    ∃ result, execute 0 (.ofFiles [("p.asm", Text.toBytes "HLT")]) []
        (.assemble "p.asm" (some "./p.asm") .binary) = some result ∧
      result.files.read? "p.asm" ≠
        (FileTree.ofFiles [("p.asm", Text.toBytes "HLT")]).read? "p.asm" := by
  have bare : (execute 0 (.ofFiles [("p.bin", Text.toBytes "HLT")]) []
      (.assemble "p.bin" none .binary)).map (fun result => result.files.read? "p.bin") =
        some (some [0x00, 0x08]) := by
    decide +kernel
  have dotted : (execute 0 (.ofFiles [("p.asm", Text.toBytes "HLT")]) []
      (.assemble "p.asm" (some "./p.asm") .binary)).map (fun result =>
        result.files.read? "p.asm") = some (some [0x00, 0x08]) := by
    decide +kernel
  obtain ⟨result, done, written⟩ := Option.map_eq_some_iff.1 bare
  obtain ⟨result', done', written'⟩ := Option.map_eq_some_iff.1 dotted
  refine ⟨⟨result, done, ?_⟩, result', done', ?_⟩
  · rw [written]
    decide +kernel
  · rw [written']
    decide +kernel

end Command

end Redstone

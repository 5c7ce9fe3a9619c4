import Redstone.CommandLine.Commands
import Redstone.Proofs.CommandLine.FileTree
import Redstone.Proofs.Image.Annotated
import Redstone.Proofs.Program.Faults

/-!
# Assembling and running files

Everything that can be wrong with a source is found before the first effect: then the command ends
with a status and nothing else. Otherwise one file is written, which is read back as the image, so
that running the file shows what running the source shows.
-/

namespace Redstone

/-- A source overflows, or has mistakes, or does not fit into memory, or has an image. -/
theorem assemble_cases (source : String) :
    (HoldLeast (Text.lines source) ∧ assemble source = .error (.overflow .negation)) ∨
      (∃ diagnostics, assemble source = .error (.mistakes diagnostics)) ∨
      (∃ size, 2048 < size ∧ assemble source = .error (.tooLarge size)) ∨
      ∃ image, assemble source = .ok image := by
  have hread : assemble source = (Session.reading (Text.lines source)).finish.result := rfl
  obtain ⟨program, follows⟩ := Session.exists_follows (Text.lines source)
  rw [hread]
  by_cases overflows : ∃ k text, program.OverflowsAt (Text.lines source) k text
  · exact .inl ⟨Session.holdLeast_of_overflowsAt follows.scans overflows,
      follows.finish_of_overflowsAt overflows⟩
  · simp only [not_exists] at overflows
    by_cases clean : (Session.reading (Text.lines source)).mistakes = []
    · rcases follows.finish_of_mistakes_eq_nil clean with ⟨-, image, fits, -⟩ | ⟨large, rejected⟩
      · exact .inr (.inr (.inr ⟨image, fits⟩))
      · exact .inr (.inr (.inl ⟨program.size, large, rejected⟩))
    · exact .inr (.inl ⟨_, follows.finish_of_mistakes_ne_nil overflows clean⟩)

/-- The format of a file that was saved in a format: bytes if none was given. -/
def ImageFormat.saved : ImageFormat → ImageFormat
  | bits => bits
  | _ => binary

theorem Image.contents_eq (image : Image) (format : ImageFormat) :
    image.contents format =
      if format = .bits then Text.toBytes image.toBits else image.bytes := by
  cases format <;> rfl

theorem Image.loadsAs_binary (image : Image) : LoadsAs .binary image.bytes image.bytes :=
  ⟨_, ofBytes_of_length_le image.length_bytes, rfl⟩

/-- A saved image has its own bytes when it is loaded in the format that it was saved in. -/
theorem Image.loadsAs_saved (image : Image) (format : ImageFormat) :
    LoadsAs format.saved (image.contents format) image.bytes := by
  cases format with
  | bits =>
      have same : Annotates image.toBits.toList image.toBits.toList := by
        rw [toList_toBits]
        exact annotates_refl image.bytes
      exact loadsAs_bits same
  | auto | binary => exact image.loadsAs_binary

theorem CommandError.status_ne_zero (error : CommandError) : error.status ≠ 0 := by
  rcases error with _ | _ | ⟨_ | _ | _ | _⟩ | _ | ⟨_ | _ | _ | _ | _⟩ | _ | _ <;> exact nofun

/-- What the user gets to see of a command: its exit status and what it has printed. -/
def CommandResult.shown (result : CommandResult) : Nat × String :=
  (result.status, result.printed)

namespace Command

/-- A command fails with a status: it prints nothing, and all files stay as they are. -/
def Fails (files : FileTree) (command : Command) (status : Nat) : Prop :=
  ∀ allowance input, ∃ result, execute allowance files input command = some result ∧
    result.status = status ∧ result.printed = "" ∧ result.files = files

/-- Where an image is written: the path that is given, or that of the source with `bin` at its end. -/
def outputPath (source : String) (output : Option String) : String :=
  output.getD (PathName.withExtension source "bin")

variable {files : FileTree} {source : String} {output : Option String} {format : ImageFormat}
  {contents : Option (List UInt8)} {image : Image} {error : CommandError}

/-! ## From the file to the image -/

theorem assembleText_of_text (path text : String) :
    assembleText path (some (Text.toBytes text)) =
      (Redstone.assemble text).mapError .assembly := by
  simp only [assembleText, sourceText, Option.bind_some, Text.ofBytes?_toBytes]
  rfl

theorem assembleText_of_no_text (unread : ¬∃ text, contents = some (Text.toBytes text))
    (path : String) : assembleText path contents = .error (.unreadable path) := by
  have none : contents.bind Text.ofBytes? = none := by
    rw [Option.eq_none_iff_forall_ne_some]
    intro text found
    obtain ⟨bytes, rfl, read⟩ := Option.bind_eq_some_iff.1 found
    exact unread ⟨text, congrArg some (Text.toBytes_of_ofBytes? read).symm⟩
  simp only [assembleText, sourceText, none]

theorem assembleText_eq_ok_iff {path : String} : assembleText path contents = .ok image ↔
    ∃ text, contents = some (Text.toBytes text) ∧ Redstone.assemble text = .ok image := by
  by_cases read : ∃ text, contents = some (Text.toBytes text)
  · obtain ⟨text, rfl⟩ := read
    have same (other : String) : Text.toBytes text = Text.toBytes other ↔ text = other :=
      ⟨fun h => Option.some.inj (by rw [← Text.ofBytes?_toBytes, h, Text.ofBytes?_toBytes]),
        congrArg Text.toBytes⟩
    rw [assembleText_of_text]
    cases assembled : Redstone.assemble text <;> simp [Except.mapError, same, assembled]
  · rw [assembleText_of_no_text read]
    simp only [reduceCtorEq, false_iff]
    rintro ⟨text, read', -⟩
    exact read ⟨text, read'⟩

theorem exists_loadImage_eq_ok {file bytes : List UInt8} (loads : Image.LoadsAs format file bytes)
    (path : String) :
    ∃ loaded, loadImage path format (some file) = .ok loaded ∧ loaded.bytes = bytes := by
  obtain ⟨loaded, parsed, same⟩ := loads
  exact ⟨loaded, by simp [loadImage, parsed, Except.mapError], same⟩

/-! ## Assembling a file -/

theorem saving_of_error (fails : assembleText source contents = .error error) :
    saving source output format contents = .error error := by
  simp only [saving, fails]

theorem saving_of_empty (assembled : assembleText source contents = .ok image)
    (empty : image.bytes = []) : saving source output format contents = .error .emptyProgram := by
  simp [saving, assembled, empty]

/-- An image with something in it is to be saved, whatever is reported. -/
theorem exists_saving_eq_ok (output : Option String) (format : ImageFormat)
    (assembled : assembleText source contents = .ok image) (nonempty : image.bytes ≠ []) :
    ∃ report, saving source output format contents =
      .ok ⟨outputPath source output, image.contents format, report⟩ := by
  simp [saving, outputPath, assembled, nonempty]

/-- An error before the writing is all that comes out. -/
theorem fails_of_saving_eq_error
    (fails : saving source output format (files.read? source) = .error error) :
    Fails files (.assemble source output format) error.status := by
  intro allowance input
  refine ⟨⟨"", files, some error⟩, ?_, rfl, rfl, rfl⟩
  simp only [execute, fails]

theorem fails_of_assembleText_eq_error
    (fails : assembleText source (files.read? source) = .error error) (output : Option String)
    (format : ImageFormat) : Fails files (.assemble source output format) error.status :=
  fails_of_saving_eq_error (saving_of_error fails)

theorem fails_of_not_canWrite {saving : Saving}
    (saves : Command.saving source output format (files.read? source) = .ok saving)
    (cannot : ¬∃ location, files.CanWrite saving.path location) :
    Fails files (.assemble source output format) 2 := by
  intro allowance input
  refine ⟨⟨"", files, some (.unwritable saving.path)⟩, ?_, rfl, rfl, rfl⟩
  simp only [execute, saves, FileTree.write?_eq_none_iff.2 cannot]

theorem execute_assemble_of_canWrite {saving : Saving} {location : Location}
    (saves : Command.saving source output format (files.read? source) = .ok saving)
    (can : files.CanWrite saving.path location) (allowance : Nat) (input : List UInt8) :
    execute allowance files input (.assemble source output format) =
      some ⟨saving.report, files.put location saving.contents, none⟩ := by
  simp only [execute, saves, FileTree.write?_of_canWrite can]

/--
Assembling a file does everything or nothing. If there is no text at the source path, or a program
that does not fit into memory, the command fails with status 2, and if there are mistakes or the
image is empty with status 1. If a literal overflows, for which there must be a minus in front of the
least number, it fails with status 101. Otherwise the image has to be written, and if it can be, the
status is 0. Then the file where the output path leads holds the bytes of the image or their bits
form, and can be loaded again in its format; no other file has changed.
-/
theorem assemble_all_or_nothing (files : FileTree) (source : String) (output : Option String)
    (format : ImageFormat) :
    ((¬∃ text, files.read? source = some (Text.toBytes text)) →
      Fails files (.assemble source output format) 2) ∧
    ∀ text, files.read? source = some (Text.toBytes text) →
      (∀ size, Redstone.assemble text = .error (.tooLarge size) →
        Fails files (.assemble source output format) 2) ∧
      (∀ diagnostics, Redstone.assemble text = .error (.mistakes diagnostics) →
        Fails files (.assemble source output format) 1) ∧
      (∀ image, Redstone.assemble text = .ok image → image.bytes = [] →
        Fails files (.assemble source output format) 1) ∧
      (∀ cause, Redstone.assemble text = .error (.overflow cause) →
        Fails files (.assemble source output format) 101) ∧
      ((∃ size, 2048 < size ∧ Redstone.assemble text = .error (.tooLarge size)) ∨
        (HoldLeast (Text.lines text) ∧ Redstone.assemble text = .error (.overflow .negation)) ∨
        (∃ diagnostics, Redstone.assemble text = .error (.mistakes diagnostics)) ∨
        ∃ image, Redstone.assemble text = .ok image) ∧
      ∀ image, Redstone.assemble text = .ok image → image.bytes ≠ [] →
        ((¬∃ location, files.CanWrite (outputPath source output) location) →
          Fails files (.assemble source output format) 2) ∧
        ∀ location, files.CanWrite (outputPath source output) location →
          ∃ result,
            (∀ allowance input,
              execute allowance files input (.assemble source output format) = some result) ∧
            result.status = 0 ∧
            result.files.file? location =
              some (if format = .bits then Text.toBytes image.toBits else image.bytes) ∧
            (∀ other, other ≠ location → result.files.file? other = files.file? other) ∧
            ∃ loaded, loadImage (outputPath source output) format.saved
              (result.files.read? (outputPath source output)) = .ok loaded ∧
              loaded.bytes = image.bytes := by
  refine ⟨fun unread =>
    fails_of_assembleText_eq_error (assembleText_of_no_text unread source) output format, fun text read => ?_⟩
  have assembling : assembleText source (files.read? source) =
      (Redstone.assemble text).mapError .assembly := by
    rw [read, assembleText_of_text]
  refine ⟨fun size rejected => ?_, fun diagnostics rejected => ?_, fun image assembled empty => ?_,
    fun cause rejected => ?_, ?_, fun image assembled nonempty => ?_⟩
  · rw [rejected] at assembling
    exact fails_of_assembleText_eq_error assembling output format
  · rw [rejected] at assembling
    exact fails_of_assembleText_eq_error assembling output format
  · rw [assembled] at assembling
    exact fails_of_saving_eq_error (saving_of_empty assembling empty)
  · rw [rejected] at assembling
    exact fails_of_assembleText_eq_error assembling output format
  · rcases assemble_cases text with overflow | mistakes | large | fits
    · exact .inr (.inl overflow)
    · exact .inr (.inr (.inl mistakes))
    · exact .inl large
    · exact .inr (.inr (.inr fits))
  · rw [assembled] at assembling
    obtain ⟨report, saves⟩ := exists_saving_eq_ok output format assembling nonempty
    refine ⟨fails_of_not_canWrite saves, fun location can => ?_⟩
    refine ⟨_, execute_assemble_of_canWrite saves can, rfl, ?_,
      fun other hne => FileTree.file?_put_of_ne hne, ?_⟩
    · rw [FileTree.file?_put_self, Image.contents_eq]
    · rw [FileTree.read?_put_self can.1]
      exact exists_loadImage_eq_ok (image.loadsAs_saved format) _

/-- A source in a directory, beside the file that was written the last time. -/
theorem assemble_all_or_nothing_bits :
    ∃ image result, Redstone.assemble "HLT" = .ok image ∧ image.bytes ≠ [] ∧
      execute 0 (.ofFiles [("d/p.asm", Text.toBytes "HLT"), ("d/p.bin", [1])]) []
        (.assemble "d/p.asm" none .bits) = some result ∧ result.status = 0 ∧
      result.files.file? ["d", "p.bin"] = some (Text.toBytes image.toBits) ∧
      result.files.file? ["d", "p.asm"] = some (Text.toBytes "HLT") := by
  have hassemble : (Redstone.assemble "HLT").toOption.map Image.bytes = some [0, 8] := by
    decide +kernel
  obtain ⟨image, himage, hbytes⟩ := exists_of_map_toOption hassemble
  have nonempty : image.bytes ≠ [] := by
    rw [hbytes]
    decide
  obtain ⟨result, done, status, written, kept, -⟩ :=
    (((assemble_all_or_nothing (.ofFiles [("d/p.asm", Text.toBytes "HLT"), ("d/p.bin", [1])])
      "d/p.asm" none .bits).2 "HLT" (by decide +kernel)).2.2.2.2.2 image himage nonempty).2
      ["d", "p.bin"] (by decide +kernel)
  refine ⟨image, result, himage, nonempty, done 0 [], status, written, ?_⟩
  rw [kept _ (by decide)]
  decide +kernel

/-- A literal that is out of range by one is not reported as a mistake. -/
theorem assemble_all_or_nothing_overflows :
    (execute 0 (.ofFiles [("a.asm", Text.toBytes "#d -0x-8000000000000000\nHLT")]) []
      (.assemble "a.asm" none .auto)).map (fun result => (result.status, result.printed)) =
        some (101, "") := by
  decide +kernel

/-! ## Running a file -/

variable {files' : FileTree} {path path' : String} {format' : ImageFormat}

theorem loadProgram_of_source (named : isSource path = true) :
    loadProgram path format contents = assembleText path contents :=
  if_pos named

theorem loadProgram_of_image (named : isSource path = false) :
    loadProgram path format contents = loadImage path format contents := by
  rw [loadProgram, named]
  rfl

theorem boot_congr {other : Image} (same : image.bytes = other.bytes) : boot image = boot other := by
  simp only [boot, same]

/-- Two runs that start with the same machine, or fail to start alike, show the same. -/
theorem shown_run_congr
    (same : bootProgram path format (files.read? path) =
      bootProgram path' format' (files'.read? path'))
    (allowance : Nat) (input : List UInt8) (maxCycles : Option UInt64) (dump : Bool) :
    (execute allowance files input (.run path format maxCycles false dump)).map
        CommandResult.shown =
      (execute allowance files' input (.run path' format' maxCycles false dump)).map
        CommandResult.shown := by
  simp only [execute, same]
  cases bootProgram path' format' (files'.read? path') with
  | error e => rfl
  | ok machine =>
      simp only [Bool.false_eq_true, if_false, Option.map_map]
      rfl

theorem execute_run_of_error
    (fails : bootProgram path format (files.read? path) = .error error)
    (allowance : Nat) (input : List UInt8) (maxCycles : Option UInt64) (terminal dump : Bool) :
    execute allowance files input (.run path format maxCycles terminal dump) =
      some ⟨"", files, some error⟩ := by
  simp only [execute, fails]

/--
Running a source shows what is shown by running the file that it is assembled into, in bytes or
bits and under a name that is no name of a source, with the same input and options, however the run
ends. A source that cannot be assembled cannot be run either, and the status is the same.
-/
theorem run_eq_run_assembled (files : FileTree) {source : String}
    (named : isSource source = true) :
    (∀ text image, files.read? source = some (Text.toBytes text) →
      Redstone.assemble text = .ok image → image.bytes ≠ [] →
      ∀ form, form = .binary ∨ form = .bits →
      ∀ output location, isSource output = false → files.CanWrite output location →
        ∃ result,
          (∀ allowance input,
            execute allowance files input (.assemble source (some output) form) = some result) ∧
          result.status = 0 ∧
          ∀ format allowance input maxCycles dump,
            (execute allowance files input (.run source format maxCycles false dump)).map
                CommandResult.shown =
              (execute allowance result.files input (.run output form maxCycles false dump)).map
                CommandResult.shown) ∧
    ((∀ text image, files.read? source = some (Text.toBytes text) →
        Redstone.assemble text ≠ .ok image) →
      ∃ status, status ≠ 0 ∧ ∀ output form format allowance input maxCycles dump,
        (execute allowance files input (.run source format maxCycles false dump)).map
            CommandResult.status = some status ∧
          (execute allowance files input (.assemble source output form)).map
            CommandResult.status = some status) := by
  constructor
  · intro text image read assembled nonempty form given output location unnamed can
    have assembling : assembleText source (files.read? source) = .ok image :=
      assembleText_eq_ok_iff.2 ⟨text, read, assembled⟩
    obtain ⟨report, saves⟩ := exists_saving_eq_ok (some output) form assembling nonempty
    refine ⟨_, execute_assemble_of_canWrite saves can, rfl, fun format => shown_run_congr ?_⟩
    have explicit : form.saved = form := by
      rcases given with rfl | rfl <;> rfl
    obtain ⟨loaded, loads, same⟩ := exists_loadImage_eq_ok (image.loadsAs_saved form) output
    rw [explicit] at loads
    rw [FileTree.read?_put_self can.1]
    simp only [bootProgram, loadProgram_of_source named, loadProgram_of_image unnamed, assembling,
      loads]
    exact boot_congr same.symm
  · intro fails
    cases assembling : assembleText source (files.read? source) with
    | ok image =>
        obtain ⟨text, read, assembled⟩ := assembleText_eq_ok_iff.1 assembling
        exact absurd assembled (fails text image read)
    | error error =>
        refine ⟨error.status, error.status_ne_zero, ?_⟩
        intro output form format allowance input maxCycles dump
        have unbooted : bootProgram source format (files.read? source) = .error error := by
          simp only [bootProgram, loadProgram_of_source named, assembling]
        obtain ⟨result, done, status, -⟩ :=
          fails_of_assembleText_eq_error assembling output form allowance input
        rw [execute_run_of_error unbooted, done, Option.map_some, Option.map_some, status]
        exact ⟨rfl, rfl⟩

/-- A program that sends a byte, run as it is and from its bits. -/
theorem run_eq_run_assembled_bits :
    ∃ result,
      execute 0 (.ofFiles [("p.ASM", Text.toBytes "GPO r0 p7\nHLT")]) []
        (.assemble "p.ASM" (some "out") .bits) = some result ∧
      (execute 9 result.files [] (.run "out" .bits none false false)).map CommandResult.shown =
        some (0, String.join ["Port 7: 0\n", "Halted after 2 cycle(s)\n",
          "pc=1 page=0 zero=0 carry=0\n", "r1=0 r2=0 r3=0 r4=0 r5=0 r6=0 r7=0\n"]) := by
  have hassemble : (Redstone.assemble "GPO r0 p7\nHLT").toOption.map Image.bytes =
      some [0x38, 0xb8, 0x00, 0x08] := by
    decide +kernel
  obtain ⟨image, himage, hbytes⟩ := exists_of_map_toOption hassemble
  have nonempty : image.bytes ≠ [] := by
    rw [hbytes]
    decide
  obtain ⟨result, done, -, same⟩ := (run_eq_run_assembled
    (.ofFiles [("p.ASM", Text.toBytes "GPO r0 p7\nHLT")]) (by decide : isSource "p.ASM" = true)).1
      _ image (by decide +kernel) himage nonempty .bits (.inr rfl) "out" ["out"] (by decide)
      (by decide +kernel)
  refine ⟨result, done 0 [], ?_⟩
  rw [← same .auto 9 [] none false]
  set_option maxRecDepth 4000 in decide +kernel

end Command

end Redstone

import Redstone.Proofs.Listing.Lines
import Redstone.Proofs.Program.Written

/-!
# Assembling what a listing shows

The instructions of a listing are source text, and with names for its data a listing is a whole
source. It says a program of its own, without labels and with every operand as a number, a
register or a port; but the words and the data of that program are those that were listed.
-/

namespace Redstone

namespace Listing

open Program (Packs bare declaration)

/-- The source that a listing shows: its instructions, and a variable for each number. -/
def recover (listing : String) (names : List String) : String :=
  let lines := Text.lines listing
  let texts := lines.filterMap instruction? ++
    List.zipWith declaration names (lines.filterMap number?)
  String.join (texts.map (· ++ "\n"))

variable {instructions : List Instruction} {names : List String} {data : List UInt8}

theorem recover_ofBytes {words : List UInt16} (packs : List.Forall₂ Packs words instructions)
    (names : List String) (data : List UInt8) :
    recover (ofBytes (words.flatMap Word.toBytes ++ data) (some words.length)) names =
      String.join ((instructions.map Instruction.text ++
        List.zipWith declaration names (data.map UInt8.toNat)).map (· ++ "\n")) := by
  have decoded : List.Forall₂ (fun word instruction => Instruction.decode word = .ok instruction)
      words instructions :=
    packs.imp fun _ _ packs => packs.decode
  simp only [recover, lines_ofBytes, filterMap_instruction?_entries decoded,
    filterMap_number?_entries decoded]

/-- No line of the recovered source has an end within. -/
theorem not_mem_of_mem_recovered (fresh : FreshNames names) {text : String}
    (member : text ∈ instructions.map Instruction.text ++
      List.zipWith declaration names (data.map UInt8.toNat)) :
    '\n' ∉ text.toList ∧ '\r' ∉ text.toList := by
  rcases List.mem_append.1 member with code | data
  · obtain ⟨instruction, -, rfl⟩ := List.mem_map.1 code
    constructor <;> intro hc <;>
      rcases isAlphanum_of_mem_text hc with h | h <;> exact absurd h (by decide)
  · rw [← List.map_uncurry_zip_eq_zipWith, List.mem_map] at data
    obtain ⟨⟨name, value⟩, inside, rfl⟩ := data
    have plain := fresh.plain name (List.of_mem_zip inside).1
    constructor <;> intro hc <;> rcases Program.mem_declaration hc with h | h | h | h
    all_goals first | exact absurd h (by decide) | exact absurd (plain _ h).1 (by decide)

theorem reads_recovered {words : List UInt16} (packs : List.Forall₂ Packs words instructions)
    (fresh : FreshNames names) (data : List UInt8) :
    Reads (recover (ofBytes (words.flatMap Word.toBytes ++ data) (some words.length)) names)
      (bare instructions names data) := by
  rw [recover_ofBytes packs]
  refine Reads.of_lines (fun text member => (not_mem_of_mem_recovered fresh member).1)
    (fun text member hlast => ?_) (Program.lineSpells_bare fresh)
  exact (not_mem_of_mem_recovered fresh member).2 (List.mem_of_getLast? hlast)

/--
The source that the listing of an assembled image shows is assembled to that image again, with all
names that its variables can have.
-/
theorem assemble_recover {source : String} {image : Image} (assembled : assemble source = .ok image)
    {names : List String} (fresh : FreshNames names)
    (enough : image.variableCount? = some names.length) :
    assemble (recover (ofBytes image.bytes (some image.instructionCount)) names) = .ok image := by
  obtain ⟨program, -, -, small, ⟨words, each, hbytes⟩, layout⟩ :=
    (assemble_eq_ok_iff source image).1 assembled
  have hslots : program.slotCount = words.length := each.length_eq
  obtain ⟨instructions, packs⟩ := (exists_forall₂_iff words).2 fun word member => by
    obtain ⟨line, hasWord⟩ := (exists_forall₂_iff words).1 ⟨_, each.flip⟩ word member
    exact Program.exists_packs_of_hasWord hasWord
  have hcount : image.instructionCount = words.length := by
    rw [Image.instructionCount, layout, hslots]
  have hnames : program.data.length = names.length := by
    rw [Image.variableCount?, layout] at enough
    exact Option.some.inj enough
  have hslots' : (bare instructions names program.data).slotCount = program.slotCount := by
    rw [Program.slotCount_bare, hslots, packs.length_eq]
  have hvars : (bare instructions names program.data).varCount = program.varCount :=
    Program.varCount_bare hnames
  rw [hcount, hbytes]
  refine (assemble_eq_ok_iff _ image).2 ⟨bare instructions names program.data,
    reads_recovered packs fresh program.data, Program.valid_bare packs fresh hnames, ?_, ?_, ?_⟩
  · rw [Program.size, hslots', hvars]
    exact small
  · rw [hbytes]
    exact Program.encodes_bare packs hnames
  · rw [hslots', hvars, layout]

def countImage : Image where
  bytes := [0x21, 0xa0, 0x00, 0x68, 5]
  layout := some ⟨2, 1⟩
  length_bytes := by decide

theorem assemble_recover_count :
    assemble ".count 5\nloop:\nREA r0 count r1\nJMP loop" = .ok countImage ∧
      FreshNames (numberedNames 1) ∧
      countImage.variableCount? = some (numberedNames 1).length ∧
      assemble (recover (ofBytes countImage.bytes (some 2)) (numberedNames 1)) =
        .ok countImage := by
  have assembled : assemble ".count 5\nloop:\nREA r0 count r1\nJMP loop" = .ok countImage := by
    rfl
  have fresh := freshNames_numberedNames 1
  exact ⟨assembled, fresh, rfl, assemble_recover assembled fresh rfl⟩

end Listing

end Redstone

import Mathlib.Data.List.Perm.Basic
import Redstone.Proofs.Program.Image

/-!
# Lines that may change places

Which image a source has depends on the order of its instructions and labels among each other, and
on that of its variables, and on no other order. Definitions, blank lines and comments may stand
anywhere, and variables may move past instructions and labels. Two declarations clash wherever they
stand, so that a rearranged source fails if the source does, though another line may be blamed.
-/

namespace Redstone

open Session (LineSpells)

/-! ## Kinds of lines -/

namespace Line

/-- Lines that count slots or are numbered by them. -/
def isCode : Line → Bool
  | label _ | instruction .. => true
  | blank | var .. | definition .. => false

def isVar : Line → Bool
  | var .. => true
  | blank | label _ | definition .. | instruction .. => false

def saidBy (kind : Line → Bool) (text : String) : Bool :=
  match Statement.ofTokens (Token.ofLine text) with
  | .ok statement => kind (statement.line ((Token.ofLine text).tail.map Token.text))
  | .error _ => false

theorem saidBy_of_spells (kind : Line → Bool) {text : String} {line : Line}
    (spells : LineSpells text line) : saidBy kind text = kind line := by
  obtain ⟨statement, read, rfl⟩ := Statement.ofTokens_of_spells spells
  unfold saidBy
  rw [read]

end Line

/--
The same lines in two orders, in which those of two kinds have kept their order among themselves.
-/
structure Rearranged {α : Type} (code vars : α → Bool) (lines other : List α) : Prop where
  perm : lines.Perm other
  code_eq : lines.filter code = other.filter code
  vars_eq : lines.filter vars = other.filter vars

theorem Rearranged.symm {α : Type} {code vars : α → Bool} {lines other : List α}
    (rearranged : Rearranged code vars lines other) : Rearranged code vars other lines where
  perm := rearranged.perm.symm
  code_eq := rearranged.code_eq.symm
  vars_eq := rearranged.vars_eq.symm

/-- An item of a kind that keeps its order has the same items of this kind in front of it. -/
theorem exists_split_of_filter_eq {α : Type} {kind : α → Bool} {items other before after : List α}
    {item : α} (same : items.filter kind = other.filter kind)
    (split : items = before ++ item :: after) (member : kind item = true) :
    ∃ before' after', other = before' ++ item :: after' ∧
      before'.filter kind = before.filter kind := by
  rw [split, List.filter_append, List.filter_cons_of_pos member] at same
  obtain ⟨first, rest, rfl, hfirst, hrest⟩ := List.filter_eq_append_iff.1 same.symm
  obtain ⟨skipped, after', rfl, hskipped, -, -⟩ := List.filter_eq_cons_iff.1 hrest
  have hnone : skipped.filter kind = [] := List.filter_eq_nil_iff.2 hskipped
  refine ⟨first ++ skipped, after', by simp, ?_⟩
  rw [List.filter_append, hfirst, hnone, List.append_nil]

/-! ## Names that clash -/

namespace Line

def Clashes (line other : Line) : Prop :=
  ∃ name name', line.name? = some name ∧ other.name? = some name' ∧ SameName name name'

theorem Clashes.symm {line other : Line} (clashes : line.Clashes other) : other.Clashes line := by
  obtain ⟨name, name', named, named', same⟩ := clashes
  exact ⟨name', name, named', named, same.symm⟩

theorem fresh_iff (before : Program) (name : String) :
    Fresh before name ↔ Fresh [] name ∧
      ∀ other ∈ before, ∀ name', other.name? = some name' → ¬ SameName name name' := by
  simp [Fresh]

/-- A line is declarable behind others if it is by itself and clashes with none of them. -/
theorem declarable_iff (before : Program) (line : Line) :
    line.Declarable before ↔ line.Declarable [] ∧ ∀ other ∈ before, ¬ line.Clashes other := by
  have clashes_iff {name : String} (named : line.name? = some name) (other : Line) :
      ¬ line.Clashes other ↔ ∀ name', other.name? = some name' → ¬ SameName name name' := by
    unfold Clashes
    simp [named]
  cases line with
  | blank => simp [Declarable, Clashes, name?]
  | instruction opcode operands => simp [Declarable, Clashes, name?]
  | label name =>
      simp only [clashes_iff rfl, Declarable]
      rw [fresh_iff]
  | var name value =>
      simp only [clashes_iff rfl, Declarable]
      rw [fresh_iff, and_right_comm]
  | definition name value =>
      simp only [clashes_iff rfl, Declarable]
      rw [fresh_iff, and_right_comm]

end Line

namespace Program

variable {program other : Program}

/-- The order of declarations does not matter: each is declarable, and no two of them clash. -/
theorem declarableFrom_iff_pairwise (program added : Program) :
    program.DeclarableFrom added ↔
      (∀ line ∈ added, line.Declarable program) ∧
        added.Pairwise fun line other => ¬ line.Clashes other := by
  induction added generalizing program with
  | nil => simp [DeclarableFrom]
  | cons first rest ih =>
      have behind (line : Line) : line.Declarable (program ++ [first]) ↔
          line.Declarable program ∧ ¬ first.Clashes line := by
        rw [Line.declarable_iff, Line.declarable_iff program]
        simp only [List.forall_mem_append, List.forall_mem_singleton, and_assoc]
        exact and_congr_right' (and_congr_right' (not_congr ⟨.symm, .symm⟩))
      rw [DeclarableFrom, ih, List.forall_mem_cons, List.pairwise_cons]
      simp only [behind, forall_and, and_assoc]

theorem declarableFrom_of_perm (perm : program.Perm other)
    (declarable : DeclarableFrom [] program) : DeclarableFrom [] other := by
  rw [declarableFrom_iff_pairwise] at declarable ⊢
  refine ⟨fun line member => declarable.1 line (perm.mem_iff.2 member), ?_⟩
  exact (perm.pairwise_iff fun apart clashes => apart clashes.symm).1 declarable.2

/-! ## What stays the same -/

theorem instructions_filter (program : Program) :
    instructions (program.filter Line.isCode) = program.instructions := by
  unfold instructions
  rw [List.filterMap_filter]
  congr
  funext line
  cases line <;> rfl

theorem data_filter (program : Program) : data (program.filter Line.isVar) = program.data := by
  unfold data
  rw [List.filterMap_filter]
  congr
  funext line
  cases line <;> rfl

end Program

/-- Programs with the same lines, in which nothing changes its number. -/
abbrev Program.Rearranged (program other : Program) : Prop :=
  Redstone.Rearranged Line.isCode Line.isVar program other

namespace Program.Rearranged

variable {program other : Program}

theorem instructions_eq (rearranged : program.Rearranged other) :
    program.instructions = other.instructions := by
  rw [← instructions_filter, rearranged.code_eq, instructions_filter]

theorem data_eq (rearranged : program.Rearranged other) : program.data = other.data := by
  rw [← data_filter, rearranged.vars_eq, data_filter]

theorem slotCount_eq (rearranged : program.Rearranged other) :
    program.slotCount = other.slotCount :=
  congrArg List.length rearranged.instructions_eq

theorem varCount_eq (rearranged : program.Rearranged other) : program.varCount = other.varCount :=
  congrArg List.length rearranged.data_eq

theorem stands (rearranged : program.Rearranged other) {name : String} {value : Int}
    (stands : Stands program name value) : Stands other name value := by
  cases stands with
  | builtin same => exact .builtin same
  | @label before after _ split same =>
      obtain ⟨before', after', split', front⟩ :=
        exists_split_of_filter_eq rearranged.code_eq split rfl
      have slots : slotCount before = slotCount before' := by
        unfold slotCount
        rw [← instructions_filter, ← front, instructions_filter]
      rw [slots]
      exact .label split' same
  | @var before after _ _ split same =>
      obtain ⟨before', after', split', front⟩ :=
        exists_split_of_filter_eq rearranged.vars_eq split rfl
      have ordinal : varCount before = varCount before' := by
        unfold varCount
        rw [← data_filter, ← front, data_filter]
      rw [rearranged.slotCount_eq, ordinal]
      exact .var split' same
  | @definition before after declared _ split same =>
      have member : Line.definition declared value ∈ program := by simp [split]
      obtain ⟨before', after', split'⟩ := List.append_of_mem (rearranged.perm.mem_iff.1 member)
      exact .definition split' same

theorem denotes (rearranged : program.Rearranged other) {text : String} {value : Int}
    (denotes : Denotes program text value) : Denotes other text value := by
  cases denotes with
  | literal read => exact .literal read
  | name read stands => exact .name read (rearranged.stands stands)

theorem resolves (rearranged : program.Rearranged other) {opcode : Opcode}
    {operands : List String} {values : List UInt16}
    (resolves : Resolves program opcode operands values) :
    Resolves other opcode operands values where
  denote := resolves.denote.imp fun _ _ => rearranged.denotes
  fit := resolves.fit

theorem encodes (rearranged : program.Rearranged other) {bytes : List UInt8}
    (encodes : program.Encodes bytes) : other.Encodes bytes := by
  obtain ⟨words, each, rfl⟩ := encodes
  rw [rearranged.instructions_eq] at each
  refine ⟨words, each.imp fun _ _ => ?_, by rw [rearranged.data_eq]⟩
  rintro ⟨values, resolves, packed⟩
  exact ⟨values, rearranged.resolves resolves, packed⟩

theorem valid (rearranged : program.Rearranged other) (valid : program.Valid) : other.Valid := by
  rw [valid_iff] at valid ⊢
  refine ⟨declarableFrom_of_perm rearranged.perm valid.1, ?_⟩
  rw [← rearranged.instructions_eq]
  intro instruction member
  obtain ⟨values, resolves⟩ := (operandsFit_iff _ _ _).1 (valid.2 instruction member)
  exact (operandsFit_iff _ _ _).2 ⟨values, rearranged.resolves resolves⟩

end Program.Rearranged

/-! ## Sources -/

/-- Sources with the same lines, in which instructions and labels have kept their order among
themselves, and variables theirs. -/
abbrev Reorders (source other : String) : Prop :=
  Rearranged (Line.saidBy Line.isCode) (Line.saidBy Line.isVar) (Text.lines source)
    (Text.lines other)

theorem filter_eq_of_spells {kind : Line → Bool} {texts texts' : List String}
    {program program' : Program} (same : texts.filter (Line.saidBy kind) =
      texts'.filter (Line.saidBy kind)) (read : List.Forall₂ LineSpells texts program)
    (read' : List.Forall₂ LineSpells texts' program') :
    program.filter kind = program'.filter kind := by
  have kept {texts : List String} {program : Program}
      (read : List.Forall₂ LineSpells texts program) :
      List.Forall₂ LineSpells (texts.filter (Line.saidBy kind)) (program.filter kind) := by
    exact List.rel_filter (fun text line spells => iff_of_eq
      (congrArg (· = true) (Line.saidBy_of_spells kind spells))) read
  have first := kept read
  rw [same] at first
  exact Spells.forall₂_unique first (kept read')

/-- A source is read as the program of another one that it reorders, with the lines reordered. -/
theorem Reorders.exists_reads {source other : String} (reorders : Reorders source other)
    {program : Program} (reads : Reads source program) :
    ∃ program', Reads other program' ∧ program.Rearranged program' := by
  obtain ⟨program', reads', perm⟩ := List.perm_comp_forall₂ reorders.perm.symm reads
  exact ⟨program', reads', perm.symm, filter_eq_of_spells reorders.code_eq reads reads',
    filter_eq_of_spells reorders.vars_eq reads reads'⟩

theorem Reorders.assemble_eq_ok {source other : String} (reorders : Reorders source other)
    {image : Image} (assembled : assemble source = .ok image) : assemble other = .ok image := by
  obtain ⟨program, reads, valid, fits, encodes, layout⟩ := (assemble_eq_ok_iff _ _).1 assembled
  obtain ⟨program', reads', rearranged⟩ := reorders.exists_reads reads
  have slots := rearranged.slotCount_eq
  have vars := rearranged.varCount_eq
  refine (assemble_eq_ok_iff _ _).2 ⟨program', reads', rearranged.valid valid, ?_,
    rearranged.encodes encodes, ?_⟩
  · unfold Program.size at fits ⊢
    rwa [← slots, ← vars]
  · rw [layout, slots, vars]

theorem Reorders.assemble_eq_ok_iff {source other : String} (reorders : Reorders source other)
    (image : Image) : assemble source = .ok image ↔ assemble other = .ok image :=
  ⟨reorders.assemble_eq_ok, Reorders.assemble_eq_ok reorders.symm⟩

/-! ## Declarations in front of all instructions, or behind them -/

/-- All that is not of the first kind may go in front of all that is, or behind it. -/
theorem Rearranged.gather {α : Type} {code vars : α → Bool}
    (apart : ∀ item, vars item = true → code item = false) (items : List α) :
    Rearranged code vars items (items.filter (fun item => !code item) ++ items.filter code) ∧
      Rearranged code vars items (items.filter code ++ items.filter fun item => !code item) := by
  have perm : items.Perm (items.filter code ++ items.filter fun item => !code item) :=
    (List.filter_append_perm code items).symm
  have hcode : (items.filter fun item => !code item).filter code = [] := by
    simp [List.filter_filter]
  have hvars : (items.filter code).filter vars = [] := by
    rw [List.filter_filter, List.filter_eq_nil_iff]
    intro item _ both
    obtain ⟨isVar, isCode⟩ := Bool.and_eq_true_iff.1 both
    rw [apart item isVar] at isCode
    cases isCode
  have hrest : (items.filter fun item => !code item).filter vars = items.filter vars := by
    rw [List.filter_filter]
    refine List.filter_congr fun item _ => ?_
    cases isVar : vars item with
    | false => rfl
    | true => simp [apart item isVar]
  constructor
  · exact ⟨perm.trans List.perm_append_comm, by simp [hcode], by simp [hvars, hrest]⟩
  · exact ⟨perm, by simp [hcode], by simp [hvars, hrest]⟩

theorem Line.saidBy_isCode_of_isVar (text : String) (said : saidBy isVar text = true) :
    saidBy isCode text = false := by
  have apart (line : Line) (h : line.isVar = true) : line.isCode = false := by
    cases line with
    | var name value => rfl
    | _ => cases h
  unfold saidBy at said ⊢
  cases read : Statement.ofTokens (Token.ofLine text) with
  | error mistake => rfl
  | ok statement =>
      rw [read] at said
      exact apart _ said

/--
Two sources with the same lines, in which instructions and labels are in the same order and
variables are in the same order, have the same image or both have none. So all definitions and
variables may stand in front of the instructions that use them, or all behind them.
-/
theorem assemble_reordered :
    (∀ source other : String, Reorders source other → ∀ image,
      assemble source = .ok image ↔ assemble other = .ok image) ∧
    ∀ source other : String,
      (let code := (Text.lines source).filter (Line.saidBy Line.isCode)
        let declared := (Text.lines source).filter fun text => !Line.saidBy Line.isCode text
        Text.lines other = declared ++ code ∨ Text.lines other = code ++ declared) →
      ∀ image, assemble source = .ok image ↔ assemble other = .ok image := by
  refine ⟨fun source other reorders => reorders.assemble_eq_ok_iff, ?_⟩
  intro source other gathered
  obtain ⟨front, behind⟩ := Rearranged.gather Line.saidBy_isCode_of_isVar (Text.lines source)
  have reorders : Reorders source other := by
    unfold Reorders
    rcases gathered with same | same
    · rw [same]
      exact front
    · rw [same]
      exact behind
  exact reorders.assemble_eq_ok_iff

/-- A definition behind its use, and a variable that moves past a label and a jump. -/
theorem assemble_reordered_forward :
    Reorders "LDI r1 x\n; c\n.v 7\nb:\nJMP b\n#x 5" "#x 5\nLDI r1 x\nb:\nJMP b\n; c\n.v 7" ∧
      ∃ image, image.bytes = [0x29, 0x60, 0x02, 0x68, 0x07] ∧
        assemble "LDI r1 x\n; c\n.v 7\nb:\nJMP b\n#x 5" = .ok image ∧
        assemble "#x 5\nLDI r1 x\nb:\nJMP b\n; c\n.v 7" = .ok image := by
  have reorders : Reorders "LDI r1 x\n; c\n.v 7\nb:\nJMP b\n#x 5"
      "#x 5\nLDI r1 x\nb:\nJMP b\n; c\n.v 7" :=
    { perm := by decide +kernel
      code_eq := by decide +kernel
      vars_eq := by decide +kernel }
  have hbytes : (assemble "LDI r1 x\n; c\n.v 7\nb:\nJMP b\n#x 5").toOption.map Image.bytes =
      some [0x29, 0x60, 0x02, 0x68, 0x07] := by decide +kernel
  obtain ⟨image, assembled, himage⟩ := exists_of_map_toOption hbytes
  exact ⟨reorders, image, himage, assembled, (assemble_reordered.1 _ _ reorders image).1 assembled⟩

end Redstone

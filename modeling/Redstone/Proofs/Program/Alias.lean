import Redstone.Proofs.Program.Image
import Redstone.Proofs.Program.LetterCase

/-!
# Operands that name an alias

A name may be declared unless it is empty, all digits, a character between apostrophes, builtin
or taken. An operand is first read as a number, though, and a number may have a sign and a mark
for its base. So `0x10` and `-5` may be declared, but where they stand as operands they are
numbers. Any other name, in whatever letter case, is encoded as what its line declares.
-/

namespace Redstone

/-! ## Reading an operand that is a name -/

theorem toNat_toLower_le_iff (c : Char) :
    0x20 ≤ c.toLower.toNat ∧ c.toLower.toNat ≤ 0x7e ↔ 0x20 ≤ c.toNat ∧ c.toNat ≤ 0x7e := by
  rcases toLower_cases c with hsame | ⟨hcapital, hlower⟩
  · rw [hsame]
  · omega

theorem LegalName.character?_eq_none {name text : String} (legal : LegalName name)
    (same : SameName text name) : Literal.character? text = none := by
  rw [← Option.not_isSome_iff_eq_none, Symbols.isSome_character?_iff]
  rintro ⟨c, hlow, hhigh, htext⟩
  have hlower : name.toList.map Char.toLower = ['\'', c.toLower, '\''] := by
    rw [← same, htext]
    rfl
  obtain ⟨first, _, hname, hfirst, htail⟩ := List.map_eq_cons_iff.1 hlower
  obtain ⟨d, _, rfl, hd, hrest⟩ := List.map_eq_cons_iff.1 htail
  obtain ⟨last, _, rfl, hlast, hnil⟩ := List.map_eq_cons_iff.1 hrest
  obtain rfl := List.map_eq_nil_iff.1 hnil
  obtain rfl := eq_of_toLower_eq (by decide) hfirst
  obtain rfl := eq_of_toLower_eq (by decide) hlast
  -- What is printable stays so in lower case, and so the name would be such a character too.
  have hprintable := (toNat_toLower_le_iff c).2 ⟨hlow, hhigh⟩
  rw [← hd, toNat_toLower_le_iff] at hprintable
  exact legal.not_character d hprintable.1 hprintable.2 hname

theorem value?_of_sameName {text name : String} (same : SameName text name) :
    Literal.value? text = Literal.value? name := by
  have hlower : text.toList.map Char.toLower = name.toList.map Char.toLower := same
  rw [Literal.value?, Literal.value?, ← Literal.valueOf?_map_toLower, hlower,
    Literal.valueOf?_map_toLower]

/-- An operand that is a legal name is read as an alias, unless the name reads as a number. -/
theorem LegalName.ofText_eq {name text : String} (legal : LegalName name)
    (same : SameName text name) :
    Operand.ofText text = match Literal.value? name with
      | .ok (some value) => .ok (.literal value)
      | .ok none => .ok (.alias text)
      | .error cause => .error cause := by
  rw [← value?_of_sameName same]
  exact Operand.ofText_of_not_character (legal.character?_eq_none same)

/-- A table accepts a declaration of a name, as one thing or another. -/
inductive Symbols.Accepts (symbols : Symbols) (name : String) : Prop where
  | label (index : UInt16) {done : Symbols × SymbolEvent}
      (declared : symbols.declareLabel name index = .ok done)
  | var (value : Int) {done : Symbols × SymbolEvent}
      (declared : symbols.declareVariable name value = .ok done)
  | definition (value : Int) {done : Symbols × SymbolEvent}
      (declared : symbols.declareDefinition name value = .ok done)

theorem Symbols.Accepts.legal {symbols : Symbols} {name : String}
    (accepts : symbols.Accepts name) : LegalName name := by
  obtain ⟨found, hcheck⟩ : ∃ found, symbols.check name = .ok found := by
    cases hcheck : symbols.check name with
    | ok found => exact ⟨found, rfl⟩
    | error e =>
        cases accepts with
        | label _ declared => simp [declareLabel, hcheck] at declared
        | var _ declared => simp [declareVariable, hcheck] at declared
        | definition _ declared => simp [declareDefinition, hcheck] at declared
  exact ((symbols.check_eq_ok_iff name found).1 hcheck).2.1

/-! ## What a line declares -/

/-- The number that a line puts under its name. -/
def Line.number? (program before : Program) : Line → Option Int
  | label _ => some (min before.slotCount 1023 : Nat)
  | var _ _ => some (2 * program.slotCount + before.varCount : Nat)
  | definition _ value => some value
  | blank | instruction .. => none

theorem exists_number?_eq {program before after : Program} {line : Line}
    (hsplit : program = before ++ line :: after) {name other : String}
    (hname : line.name? = some other) (hsame : SameName name other) :
    ∃ number, line.number? program before = some number ∧ Stands program name number := by
  cases line with
  | blank => cases hname
  | instruction opcode operands => cases hname
  | label _ =>
      cases hname
      exact ⟨_, rfl, .label hsplit hsame⟩
  | var _ _ =>
      cases hname
      exact ⟨_, rfl, .var hsplit hsame⟩
  | definition _ _ =>
      cases hname
      exact ⟨_, rfl, .definition hsplit hsame⟩

theorem Program.Valid.legalName {program before after : Program} {line : Line}
    (valid : program.Valid) (hsplit : program = before ++ line :: after) {name : String}
    (hname : line.name? = some name) : LegalName name := by
  have hvalid := valid before line after hsplit
  cases line with
  | blank => cases hname
  | instruction opcode operands => cases hname
  | label _ =>
      cases hname
      exact hvalid.1
  | var _ _ =>
      cases hname
      exact hvalid.1.1
  | definition _ _ =>
      cases hname
      exact hvalid.1.1

theorem LegalName.denotes {name text : String} (legal : LegalName name)
    (hsame : SameName text name) {shadow : Option Int} (hvalue : Literal.value? name = .ok shadow)
    {program : Program} {number : Int} (stands : Stands program text number) :
    Denotes program text (shadow.getD number) := by
  have hread := legal.ofText_eq hsame
  rw [hvalue] at hread
  cases shadow with
  | some value => exact .literal hread
  | none => exact .name hread stands

/-- A name whose reading overflows is no operand of a program that can be put together. -/
theorem LegalName.exists_value?_eq {name text : String} (legal : LegalName name)
    (hsame : SameName text name) {program : Program} {number : Int}
    (denotes : Denotes program text number) :
    ∃ shadow, Literal.value? name = .ok shadow := by
  have hread := legal.ofText_eq hsame
  cases hvalue : Literal.value? name with
  | ok shadow => exact ⟨shadow, rfl⟩
  | error cause =>
      rw [hvalue] at hread
      cases denotes with
      | literal read => exact nomatch hread.symm.trans read
      | name read _ => exact nomatch hread.symm.trans read

theorem Symbols.Accepts.ofText_eq_alias_iff {symbols : Symbols} {name : String}
    (accepts : symbols.Accepts name) :
    Operand.ofText name = .ok (.alias name) ↔ Literal.value? name = .ok none := by
  rw [accepts.legal.ofText_eq rfl]
  rcases Literal.value? name with cause | value | _
  · simp
  · simp
  · simp

/--
In an assembled image an operand that is a declared name, in whatever letter case, is encoded as
the number that its line declares, or else as the number that the name reads as; and the names
that read as no number are those that are read as an alias, of all the names that any table
accepts.
-/
theorem operand_naming_alias {source : String} {image : Image}
    (hassemble : assemble source = .ok image) :
    (∃ program, Reads source program ∧
      ∀ (before : Program) (line : Line) (after : Program) (name : String) (i j : Nat)
        (opcode : Opcode) (operands : List String) (text : String),
        program = before ++ line :: after → line.name? = some name →
        program.instructions[i]? = some (opcode, operands) →
        (opcode.expand operands)[j]? = some text → SameName text name →
        ∃ (number : Int) (shadow : Option Int) (values : List UInt16) (value : UInt16),
          line.number? program before = some number ∧ Literal.value? name = .ok shadow ∧
          Word.decode (Word.ofBytes (image.bytes.getD (2 * i) 0)
            (image.bytes.getD (2 * i + 1) 0)) = .ok (opcode, values) ∧
          values[j]? = some value ∧ (value.toNat : Int) = shadow.getD number) ∧
    ∀ (symbols : Symbols) (name : String), symbols.Accepts name →
      (Operand.ofText name = .ok (.alias name) ↔ Literal.value? name = .ok none) := by
  refine ⟨?_, fun _ _ accepts => accepts.ofText_eq_alias_iff⟩
  obtain ⟨program, hreads, hvalid, _, encodes, _⟩ := (assemble_eq_ok_iff source image).1 hassemble
  refine ⟨program, hreads, ?_⟩
  intro before line after name i j opcode operands text hsplit hname hline htext hsame
  obtain ⟨number, hnumber, stands⟩ := exists_number?_eq hsplit hname hsame
  obtain ⟨values, resolves, hword⟩ := encodes.exists_word_eq hline
  obtain ⟨value, hvalue, denotes⟩ := exists_getElem?_eq_of_forall₂ resolves.denote htext
  have legal := hvalid.legalName hsplit hname
  obtain ⟨shadow, hshadow⟩ := legal.exists_value?_eq hsame denotes
  refine ⟨number, shadow, values, value, hnumber, hshadow, ?_, hvalue, ?_⟩
  · rw [hword]
    exact Word.decode_pack resolves.fit
  · exact denotes_unique_of_assemble hassemble hreads denotes (legal.denotes hsame hshadow stands)

/-- The label of a loop is not read as a number. -/
theorem operand_naming_alias_loop :
    Symbols.empty.Accepts "loop" ∧ Operand.ofText "loop" = .ok (.alias "loop") ∧
      ∃ image values, assemble "loop:\nJMP loop" = .ok image ∧
        Word.decode (Word.ofBytes (image.bytes.getD 0 0) (image.bytes.getD 1 0)) =
          .ok (.jmp, values) ∧ values[0]? = some 0 := by
  have hvalue : Literal.value? "loop" = .ok none := by rfl
  have accepts : Symbols.empty.Accepts "loop" := .label 0 rfl
  obtain ⟨image, hassemble⟩ := exists_loop_image
  obtain ⟨⟨program, hreads, hall⟩, hread⟩ := operand_naming_alias hassemble
  cases hreads.unique reads_loopProgram
  obtain ⟨number, shadow, values, value, hnumber, hshadow, hdecode, hfirst, hsame⟩ :=
    hall [] (.label "loop") [.instruction .jmp ["loop"]] "loop" 0 0 .jmp ["loop"] "loop" rfl rfl
      rfl rfl rfl
  refine ⟨accepts, (hread _ _ accepts).2 hvalue, image, values, hassemble, hdecode, ?_⟩
  have hzero : number = 0 := (Option.some.inj hnumber).symm
  have hnone : shadow = none := (Except.ok.inj (hvalue.symm.trans hshadow)).symm
  rw [hnone, Option.getD_none, hzero] at hsame
  have hnumber : value = 0 := UInt16.toNat_inj.1 (Int.ofNat.inj hsame)
  rw [hfirst, hnumber]

/-- A definition of five that is encoded as sixteen. -/
theorem operand_naming_alias_shadowed :
    Symbols.empty.Accepts "0x10" ∧ Operand.ofText "0x10" = .ok (.literal 16) ∧
      ∃ image, assemble "#0x10 5\nLDI r1 0x10" = .ok image ∧ image.bytes = [0x81, 0x60] ∧
        Word.decode (Word.ofBytes 0x81 0x60) = .ok (.ldi, [1, 16]) := by
  have hbytes : (assemble "#0x10 5\nLDI r1 0x10").toOption.map Image.bytes =
      some [0x81, 0x60] := by decide +kernel
  obtain ⟨image, hassemble, himage⟩ := exists_of_map_toOption hbytes
  refine ⟨.definition 5 rfl, rfl, image, hassemble, himage, rfl⟩

end Redstone

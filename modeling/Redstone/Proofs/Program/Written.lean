import Redstone.Proofs.Instruction.Text
import Redstone.Proofs.Program.Image
import Redstone.Proofs.Program.Quoting

/-!
# Instructions and data as a source

Written out, an instruction is a line of source, and so is a byte of data under a name. Such lines
are a program without labels, whose operands are all registers, ports or numbers. It is valid as it
is, and its words are those of the instructions.
-/

namespace Redstone

/-! ## Operands as they are written -/

namespace Instruction

variable {program : Program}

theorem denotes_builtin {kind : Char} (hkind : kind ∈ ['r', 'p']) {n : Nat} (hle : n ≤ 7)
    {name : String} (hname : name.toList = kind :: (toString n).toList) :
    Denotes program name n := by
  have hdigit : (toString n).toList = [Nat.digitChar n] := by
    rw [Numeral.toList_toString, Nat.toDigits_of_lt_base (by omega)]
  have hspelt : name = String.ofList [kind, Nat.digitChar n] := by
    rw [← String.toList_inj, hname, hdigit, String.toList_ofList]
  have registers : ∀ n < 8, Operand.ofText (String.ofList ['r', Nat.digitChar n]) =
      .ok (.alias (String.ofList ['r', Nat.digitChar n])) := by decide
  have ports : ∀ n < 8, Operand.ofText (String.ofList ['p', Nat.digitChar n]) =
      .ok (.alias (String.ofList ['p', Nat.digitChar n])) := by decide
  rw [hspelt]
  refine .name ?_ (.builtin ⟨hle, kind, hkind, rfl⟩)
  rcases List.mem_pair.1 hkind with rfl | rfl
  · exact registers n (Nat.lt_succ_of_le hle)
  · exact ports n (Nat.lt_succ_of_le hle)

theorem denotes_register {index : UInt8} (hle : index.toNat ≤ 7) :
    Denotes program (register index) index.toNat :=
  denotes_builtin (by decide) hle (toList_register index)

theorem denotes_portName {index : UInt8} (hle : index.toNat ≤ 7) :
    Denotes program (portName index) index.toNat :=
  denotes_builtin (by decide) hle (toList_portName index)

theorem denotes_byte (n : UInt8) : Denotes program (toString n) n.toNat :=
  .literal (Operand.ofText_toString (Nat.lt_of_lt_of_le n.toNat_lt (by decide)))

theorem denotes_slot (n : UInt16) : Denotes program (toString n) n.toNat :=
  .literal (Operand.ofText_toString (Nat.lt_of_lt_of_le n.toNat_lt (by decide)))

/-- Written operands stand for the operands of the instruction, if these fit. -/
theorem denotes_operandTexts {instruction : Instruction}
    (fit : FitFields instruction.opcode.fields instruction.operands) :
    List.Forall₂ (fun text (value : UInt16) => Denotes program text value.toNat)
      instruction.operandTexts instruction.operands := by
  unfold FitFields at fit
  cases instruction with
  | nop | halt | ret | bell => exact .nil
  | alu op a b c =>
      have hfields : op.opcode.fields = Format.alu.fields := by cases op <;> rfl
      simp only [opcode, operands, hfields] at fit
      obtain _ | ⟨fa, _ | ⟨fb, _ | ⟨fc, _ | _⟩⟩⟩ := fit
      exact .cons (denotes_register fa)
        (.cons (denotes_register fb) (.cons (denotes_register fc) .nil))
  | addNumber c imm | putNumber c imm =>
      obtain _ | ⟨fc, _⟩ := fit
      exact .cons (denotes_register fc) (.cons (denotes_byte imm) .nil)
  | jump target | branch _ target | call target => exact .cons (denotes_slot target) .nil
  | read a imm c | store a imm c =>
      obtain _ | ⟨fa, _ | ⟨_, _ | ⟨fc, _ | _⟩⟩⟩ := fit
      exact .cons (denotes_register fa)
        (.cons (denotes_byte imm) (.cons (denotes_register fc) .nil))
  | input port c =>
      obtain _ | ⟨fp, _ | ⟨fc, _ | _⟩⟩ := fit
      exact .cons (denotes_portName fp) (.cons (denotes_register fc) .nil)
  | output c port =>
      obtain _ | ⟨fc, _ | ⟨fp, _ | _⟩⟩ := fit
      exact .cons (denotes_register fc) (.cons (denotes_portName fp) .nil)
  | setPage imm b =>
      obtain _ | ⟨_, _ | ⟨fb, _ | _⟩⟩ := fit
      exact .cons (denotes_byte imm) (.cons (denotes_register fb) .nil)
  | getPage c =>
      obtain _ | ⟨fc, _⟩ := fit
      exact .cons (denotes_register fc) .nil

end Instruction

/-! ## Names for data -/

/-- Names that variables can have: legal, not cut into pieces as they are written, all different. -/
structure FreshNames (names : List String) : Prop where
  legal : ∀ name ∈ names, LegalName name
  plain : ∀ name ∈ names, ∀ c ∈ name.toList, Token.isSeparator c = false ∧ c ≠ ';'
  distinct : names.Pairwise fun a b => ¬ SameName a b

def numberedNames (count : Nat) : List String :=
  (List.range count).map fun i => String.join ["v", toString i]

theorem toList_numberedName (i : Nat) :
    (String.join ["v", toString i]).toList = 'v' :: (toString i).toList := by
  simp

theorem eq_of_sameName_numberedName {i j : Nat}
    (same : SameName (String.join ["v", toString i]) (String.join ["v", toString j])) : i = j := by
  rw [SameName, toList_numberedName, toList_numberedName, List.map_cons, List.map_cons,
    List.cons.injEq] at same
  have hvalue := congrArg (Numeral.value? 10) same.2
  rw [Numeral.value?_map_toLower, Numeral.value?_map_toLower, Numeral.toList_toString,
    Numeral.toList_toString, Numeral.value?_toDigits, Numeral.value?_toDigits] at hvalue
  exact Option.some.inj hvalue

theorem legalName_numberedName (i : Nat) : LegalName (String.join ["v", toString i]) where
  nonempty := by
    rw [toList_numberedName]
    exact List.cons_ne_nil _ _
  not_digits := by
    rw [toList_numberedName]
    exact ⟨'v', List.mem_cons_self, by decide⟩
  not_character := by
    intro c _ _ hspelt
    rw [toList_numberedName, List.cons.injEq] at hspelt
    exact absurd hspelt.1 (by decide)
  not_builtin := by
    intro number ⟨_, kind, hkind, same⟩
    rw [SameName, toList_numberedName, String.toList_ofList, List.map_cons, List.map_cons,
      List.cons.injEq] at same
    rcases List.mem_pair.1 hkind with rfl | rfl <;> exact absurd same.1 (by decide)

theorem freshNames_numberedNames (count : Nat) : FreshNames (numberedNames count) where
  legal := by
    rw [numberedNames, List.forall_mem_map]
    exact fun i _ => legalName_numberedName i
  plain := by
    rw [numberedNames, List.forall_mem_map]
    intro i _
    refine (Token.IsWord.of_written ⟨?_, ?_⟩).plain
    · exact (legalName_numberedName i).nonempty
    · rw [toList_numberedName]
      exact List.forall_mem_cons.2 ⟨by decide, (Numeral.written_toString i).2⟩
  distinct := by
    rw [numberedNames, List.pairwise_map]
    refine List.pairwise_lt_range.imp fun {i j} hlt same => ?_
    exact absurd (eq_of_sameName_numberedName same) (Nat.ne_of_lt hlt)

/-! ## The program -/

namespace Program

def declaration (name : String) (value : Nat) : String :=
  String.join [".", name, " ", toString value]

/-- The lines of instructions that are written with all their operands. -/
def instructionLines (instructions : List Instruction) : Program :=
  instructions.map fun instruction => .instruction instruction.opcode instruction.operandTexts

def variableLines (names : List String) (data : List UInt8) : Program :=
  List.zipWith (fun name byte => .var name byte.toNat) names data

def bare (instructions : List Instruction) (names : List String) (data : List UInt8) :
    Program :=
  instructionLines instructions ++ variableLines names data

variable {instructions : List Instruction} {names : List String} {data : List UInt8}

/-! ## What its lines say -/

theorem mem_declaration {name : String} {value : Nat} {c : Char}
    (member : c ∈ (declaration name value).toList) :
    c = '.' ∨ c = ' ' ∨ c ∈ name.toList ∨ c.isAlphanum = true := by
  have hline : (declaration name value).toList =
      '.' :: (name.toList ++ ' ' :: (toString value).toList) := by
    simp [declaration]
  rw [hline, List.mem_cons, List.mem_append, List.mem_cons] at member
  rcases member with dot | inside | blank | digit
  · exact .inl dot
  · exact .inr (.inr (.inl inside))
  · exact .inr (.inl blank)
  · exact .inr (.inr (.inr ((Numeral.written_toString value).2 c digit)))

open Session (LineSpells)

theorem lineSpells_text (instruction : Instruction) :
    LineSpells instruction.text (.instruction instruction.opcode instruction.operandTexts) := by
  have hwords : ∀ word ∈ instruction.words, Token.IsWord word.toList := fun word member =>
    .of_written (instruction.written_of_mem_words word member)
  have hupper : instruction.opcode.mnemonic.toList.map Char.toUpper =
      instruction.opcode.mnemonic.toList := by
    cases instruction.opcode <;> decide
  have hlast : instruction.operandTexts.getLastD instruction.opcode.mnemonic ∈
      instruction.words :=
    List.getLastD_mem_cons
  rw [LineSpells, Instruction.text_eq, Token.map_text_ofLine_intercalate hwords]
  refine .instruction hupper (fun hcolon => ?_) (.inl instruction.length_operandTexts)
  exact absurd ((instruction.written_of_mem_words _ hlast).2 _ (List.mem_of_getLast? hcolon))
    (by decide)

theorem lineSpells_declaration {name : String}
    (plain : ∀ c ∈ name.toList, Token.isSeparator c = false ∧ c ≠ ';') (byte : UInt8) :
    LineSpells (declaration name byte.toNat) (.var name byte.toNat) := by
  have hline : declaration name byte.toNat =
      " ".intercalate [String.ofList ('.' :: name.toList), toString byte.toNat] := by
    rw [← String.toList_inj]
    simp [declaration]
  have hname : Token.IsWord ('.' :: name.toList) :=
    { nonempty := List.cons_ne_nil _ _
      unquoted := by simp
      plain := List.forall_mem_cons.2 ⟨by decide, plain⟩ }
  have hwords : ∀ word ∈ [String.ofList ('.' :: name.toList), toString byte.toNat],
      Token.IsWord word.toList := by
    rw [List.forall_mem_cons, List.forall_mem_singleton, String.toList_ofList]
    exact ⟨hname, .of_written (Numeral.written_toString _)⟩
  rw [LineSpells, hline, Token.map_text_ofLine_intercalate hwords]
  refine .var (String.toList_ofList) (Operand.ofText_toString ?_)
  exact Nat.lt_of_lt_of_le byte.toNat_lt (by decide)

theorem lineSpells_variableLines
    (plain : ∀ name ∈ names, ∀ c ∈ name.toList, Token.isSeparator c = false ∧ c ≠ ';') :
    List.Forall₂ LineSpells (List.zipWith declaration names (data.map UInt8.toNat))
      (variableLines names data) := by
  induction names generalizing data with
  | nil => exact .nil
  | cons name names ih =>
      cases data with
      | nil => exact .nil
      | cons byte data =>
          exact .cons (lineSpells_declaration (plain name List.mem_cons_self) byte)
            (ih fun other member => plain other (List.mem_cons_of_mem name member))

theorem lineSpells_bare (fresh : FreshNames names) :
    List.Forall₂ LineSpells
      (instructions.map Instruction.text ++
        List.zipWith declaration names (data.map UInt8.toNat))
      (bare instructions names data) := by
  refine List.rel_append ?_ (lineSpells_variableLines fresh.plain)
  rw [instructionLines, List.forall₂_map_left_iff, List.forall₂_map_right_iff, List.forall₂_same]
  exact fun instruction _ => lineSpells_text instruction

/-! ## Its instructions and data -/

theorem instructions_variableLines : (variableLines names data).instructions = [] := by
  induction names generalizing data with
  | nil => rfl
  | cons name names ih =>
      cases data with
      | nil => rfl
      | cons byte data => exact ih

theorem data_variableLines (enough : data.length = names.length) :
    (variableLines names data).data = data := by
  induction names generalizing data with
  | nil => exact (List.length_eq_zero_iff.1 enough).symm
  | cons name names ih =>
      obtain ⟨byte, data, rfl⟩ := List.exists_cons_of_length_eq_add_one enough
      have htail := ih (Nat.add_right_cancel enough)
      have hbyte : UInt8.ofNat (byte.toNat : Int).toNat = byte := by
        rw [Int.toNat_natCast, UInt8.ofNat_toNat]
      show UInt8.ofNat (byte.toNat : Int).toNat :: (variableLines names data).data = _
      rw [hbyte, htail]

theorem instructions_instructionLines :
    (instructionLines instructions).instructions =
      instructions.map fun instruction => (instruction.opcode, instruction.operandTexts) := by
  induction instructions with
  | nil => rfl
  | cons instruction instructions ih => exact congrArg (List.cons _) ih

theorem data_instructionLines : (instructionLines instructions).data = [] := by
  induction instructions with
  | nil => rfl
  | cons instruction instructions ih => exact ih

theorem instructions_bare :
    (bare instructions names data).instructions =
      instructions.map fun instruction => (instruction.opcode, instruction.operandTexts) := by
  rw [bare, Program.instructions_append, instructions_instructionLines,
    instructions_variableLines, List.append_nil]

theorem data_bare (enough : data.length = names.length) :
    (bare instructions names data).data = data := by
  have happend : (bare instructions names data).data =
      (instructionLines instructions).data ++ (variableLines names data).data :=
    List.filterMap_append
  rw [happend, data_instructionLines, List.nil_append, data_variableLines enough]

/-! ## It is valid -/

/-- Different legal names can be declared behind lines that declare none of them. -/
theorem declarableFrom_variableLines {before : Program} (legal : ∀ name ∈ names, LegalName name)
    (distinct : names.Pairwise fun a b => ¬ SameName a b)
    (unused : ∀ name ∈ names, ∀ line ∈ before, ∀ other, line.name? = some other →
      ¬ SameName name other) :
    before.DeclarableFrom (variableLines names data) := by
  induction names generalizing before data with
  | nil => trivial
  | cons name names ih =>
      obtain ⟨others, distinct⟩ := List.pairwise_cons.1 distinct
      cases data with
      | nil => trivial
      | cons byte data =>
          have hbyte := byte.toNat_lt
          refine ⟨⟨⟨legal name List.mem_cons_self, unused name List.mem_cons_self⟩, by omega,
            by omega⟩, ih (fun other member => legal other (List.mem_cons_of_mem name member))
              distinct ?_⟩
          intro next member line inside other declares same
          rcases List.mem_append.1 inside with front | last
          · exact unused next (List.mem_cons_of_mem name member) line front other declares same
          · cases List.mem_singleton.1 last
            cases declares
            exact others next member same.symm

theorem declarableFrom_bare (fresh : FreshNames names) :
    Program.DeclarableFrom [] (bare instructions names data) := by
  rw [bare, Program.declarableFrom_append]
  constructor
  · rw [Program.declarableFrom_iff]
    intro before line after split
    obtain ⟨instruction, -, rfl⟩ := List.mem_map.1 (show line ∈ instructionLines instructions by
      simp [split])
    trivial
  · refine declarableFrom_variableLines fresh.legal fresh.distinct ?_
    intro name _ line inside other declares
    obtain ⟨instruction, -, rfl⟩ := List.mem_map.1 inside
    cases declares

/-! ## Its words -/

/-- A word that holds an instruction as the assembler packs it. -/
structure Packs (word : UInt16) (instruction : Instruction) : Prop where
  decode : Instruction.decode word = .ok instruction
  fit : FitFields instruction.opcode.fields instruction.operands
  word : word = Word.pack instruction.opcode (instruction.operands.map UInt16.toNat)

theorem exists_packs_of_hasWord {program : Program} {line : Opcode × List String} {word : UInt16}
    (hasWord : program.HasWord line word) : ∃ instruction, Packs word instruction := by
  obtain ⟨values, resolves, rfl⟩ := hasWord
  obtain ⟨instruction, hdecode, hopcode, hoperands⟩ := Instruction.decode_pack resolves.fit
  refine ⟨instruction, hdecode, ?_, ?_⟩
  · rw [hopcode, hoperands]
    exact resolves.fit
  · rw [hopcode, hoperands]

theorem Packs.hasWord {word : UInt16} {instruction : Instruction} (packs : Packs word instruction)
    (program : Program) :
    program.HasWord (instruction.opcode, instruction.operandTexts) word := by
  refine ⟨instruction.operands, ⟨?_, packs.fit⟩, packs.word⟩
  rw [Opcode.expand_of_length instruction.length_operandTexts]
  exact Instruction.denotes_operandTexts packs.fit

theorem encodes_bare {words : List UInt16} (packs : List.Forall₂ Packs words instructions)
    (enough : data.length = names.length) :
    (bare instructions names data).Encodes (words.flatMap Word.toBytes ++ data) := by
  refine ⟨words, ?_, by rw [data_bare enough]⟩
  rw [instructions_bare, List.forall₂_map_left_iff]
  exact packs.flip.imp fun _ _ packs => packs.hasWord _

theorem slotCount_bare : (bare instructions names data).slotCount = instructions.length := by
  rw [slotCount, instructions_bare, List.length_map]

theorem varCount_bare (enough : data.length = names.length) :
    (bare instructions names data).varCount = data.length := by
  rw [varCount, data_bare enough]

theorem valid_bare {words : List UInt16} (packs : List.Forall₂ Packs words instructions)
    (fresh : FreshNames names) (enough : data.length = names.length) :
    (bare instructions names data).Valid :=
  (valid_iff _).2 ⟨declarableFrom_bare fresh,
    (exists_encodes_iff _).1 ⟨_, encodes_bare packs enough⟩⟩

end Program

end Redstone

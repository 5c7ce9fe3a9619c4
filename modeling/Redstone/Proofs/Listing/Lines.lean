import Redstone.Listing
import Redstone.Proofs.Instruction.Text
import Redstone.Proofs.Program.Image
import Redstone.Proofs.Program.Token
import Redstone.Proofs.Text.Blank

/-!
# Reading a listing

The definitions say what a reader takes from a listing: the text behind the colon of a line of
code and the number in a line of data, both up to the semicolon and without the blanks around
them. Padding, addresses and binary digits do not get into what is read.
-/

namespace Redstone

namespace Listing

/-! ## What is read from a line -/

/-- What follows the first colon that has a space behind it. -/
def afterColon? : List Char → Option (List Char)
  | [] => none
  | ':' :: ' ' :: rest => some rest
  | _ :: rest => afterColon? rest

/-- What stands in front of the first semicolon, without blanks around it. -/
def shown (cs : List Char) : List Char :=
  Text.trimChars (cs.takeWhile (· != ';'))

def instruction? (line : String) : Option String :=
  (afterColon? line.toList).map fun rest => String.ofList (shown rest)

def number? (line : String) : Option Nat :=
  match afterColon? line.toList with
  | some _ => none
  | none => Numeral.value? 10 (shown line.toList)

/-! ## Blanks -/

/-- Characters that start and end with something else than a blank. -/
structure Trimmed (cs : List Char) : Prop where
  nonempty : cs ≠ []
  head : ∀ c, cs.head? = some c → Text.isBlank c = false
  last : ∀ c, cs.getLast? = some c → Text.isBlank c = false

theorem Trimmed.trimChars_pad {cs : List Char} (trimmed : Trimmed cs) (m n : Nat) :
    Text.trimChars (List.replicate m ' ' ++ (cs ++ List.replicate n ' ')) = cs := by
  have hspaces (k : Nat) : ∀ c ∈ List.replicate k ' ', Text.isBlank c = true := by
    intro c member
    rw [List.eq_of_mem_replicate member]
    decide
  rw [Text.trimChars_blank_append (hspaces m), Text.trimChars_append_blank cs (hspaces n),
    Text.trimChars_eq_self trimmed.head trimmed.last]

/-! ## The parts of a line -/

def entry (front text tail : String) : String :=
  String.join [front, Numeral.column 16 text, " ; ", tail]

def codeEntry (slot : Nat) (word : UInt16) : String :=
  entry (Numeral.decimal 4 slot ++ ": ") (wordText word)
    (Numeral.hex 3 (2 * slot) ++ "  " ++ Numeral.binary16 word)

def dataEntry (address : Nat) (byte : UInt8) : String :=
  entry "      " (toString byte) (Numeral.hex 3 address ++ "  " ++ Numeral.binary8 byte)

theorem codeLine_eq (slot : Nat) (word : UInt16) :
    codeLine slot word = codeEntry slot word ++ "\n" := by
  rw [← String.toList_inj]
  simp [codeLine, codeEntry, entry]

theorem dataLine_eq (address : Nat) (byte : UInt8) :
    dataLine address byte = dataEntry address byte ++ "\n" := by
  rw [← String.toList_inj]
  simp [dataLine, dataEntry, entry]

theorem toList_entry (front text tail : String) :
    ∃ n, (entry front text tail).toList = front.toList ++
      (text.toList ++ (List.replicate n ' ' ++ ';' :: ' ' :: tail.toList)) := by
  refine ⟨16 - text.toList.length + 1, ?_⟩
  simp [entry, Numeral.column, List.rightpad, List.replicate_succ']

theorem shown_entry {text : List Char} (trimmed : Trimmed text) (hcomment : ';' ∉ text) (m n : Nat)
    (rest : List Char) :
    shown (List.replicate m ' ' ++ (text ++ (List.replicate n ' ' ++ ';' :: rest))) = text := by
  have hfront : ∀ c ∈ List.replicate m ' ' ++ (text ++ List.replicate n ' '),
      (c != ';') = true := by
    intro c member
    rw [bne_iff_ne]
    rintro rfl
    simp [hcomment] at member
  have hsplit : List.replicate m ' ' ++ (text ++ (List.replicate n ' ' ++ ';' :: rest)) =
      (List.replicate m ' ' ++ (text ++ List.replicate n ' ')) ++ ';' :: rest := by
    simp
  rw [shown, hsplit, List.takeWhile_append_of_pos hfront, List.takeWhile_cons_of_neg (by decide),
    List.append_nil]
  exact trimmed.trimChars_pad m n

theorem afterColon?_append {front : List Char} (hfront : ':' ∉ front) (rest : List Char) :
    afterColon? (front ++ ':' :: ' ' :: rest) = some rest := by
  induction front with
  | nil => rfl
  | cons c front ih =>
      rw [List.mem_cons, not_or] at hfront
      rw [List.cons_append, afterColon?, ih hfront.2]
      rintro _ rfl
      exact absurd rfl hfront.1

theorem afterColon?_eq_none {cs : List Char} (hcs : ':' ∉ cs) : afterColon? cs = none := by
  induction cs with
  | nil => rfl
  | cons c cs ih =>
      rw [List.mem_cons, not_or] at hcs
      rw [afterColon?, ih hcs.2]
      rintro _ rfl
      exact absurd rfl hcs.1

/-! ## Texts that are shown -/

theorem trimmed_of_written {cs : List Char} (nonempty : cs ≠ [])
    (written : ∀ c ∈ cs, c.isAlphanum = true) : Trimmed cs where
  nonempty := nonempty
  head c hc := Text.isBlank_eq_false_of_isAlphanum (written c (List.mem_of_head? hc))
  last c hc := Text.isBlank_eq_false_of_isAlphanum (written c (List.mem_of_getLast? hc))

theorem Trimmed.append {cs ds : List Char} (front : Trimmed cs) (back : Trimmed ds)
    (between : List Char) : Trimmed (cs ++ (between ++ ds)) where
  nonempty h := front.nonempty (List.append_eq_nil_iff.1 h).1
  head c hc := by
    rw [List.head?_append_of_ne_nil _ front.nonempty] at hc
    exact front.head c hc
  last c hc := by
    rw [← List.append_assoc, List.getLast?_append_of_ne_nil _ back.nonempty] at hc
    exact back.last c hc

theorem trimmed_intercalate {words : List String} (some : words ≠ [])
    (written : ∀ word ∈ words, Text.Written word) :
    Trimmed ([' '].intercalate (words.map String.toList)) := by
  induction words with
  | nil => exact absurd rfl some
  | cons word words ih =>
      obtain ⟨nonempty, alphanum⟩ := written word List.mem_cons_self
      have front := trimmed_of_written nonempty alphanum
      cases words with
      | nil =>
          rw [List.map_singleton, List.intercalate_singleton]
          exact front
      | cons next words =>
          have back := ih (List.cons_ne_nil _ _) fun other member =>
            written other (List.mem_cons_of_mem word member)
          rw [List.map_cons, List.map_cons, List.intercalate_cons_cons, List.append_assoc]
          exact front.append back [' ']

theorem toList_text (instruction : Instruction) :
    instruction.text.toList = [' '].intercalate (instruction.words.map String.toList) :=
  String.toList_intercalate

theorem isAlphanum_of_mem_text {instruction : Instruction} {c : Char}
    (member : c ∈ instruction.text.toList) : c = ' ' ∨ c.isAlphanum = true := by
  rw [toList_text] at member
  refine (Token.mem_intercalate member).imp_right fun ⟨_, inside, hc⟩ => ?_
  obtain ⟨word, hword, rfl⟩ := List.mem_map.1 inside
  exact (instruction.written_of_mem_words word hword).2 c hc

theorem wordText_of_decode {word : UInt16} {instruction : Instruction}
    (hdecode : Instruction.decode word = .ok instruction) : wordText word = instruction.text := by
  simp only [wordText, hdecode]

theorem instruction?_codeEntry {word : UInt16} {instruction : Instruction}
    (hdecode : Instruction.decode word = .ok instruction) (slot : Nat) :
    instruction? (codeEntry slot word) = some instruction.text := by
  have htrimmed : Trimmed instruction.text.toList := by
    rw [toList_text]
    exact trimmed_intercalate (List.cons_ne_nil _ _) instruction.written_of_mem_words
  have hcomment : ';' ∉ instruction.text.toList := fun member =>
    (isAlphanum_of_mem_text member).elim (by decide) (by decide)
  have hnumber : ':' ∉ (Numeral.decimal 4 slot).toList := by
    intro member
    rw [Numeral.decimal, String.toList_ofList] at member
    exact absurd (Numeral.isAlphanum_of_mem_digits (by decide) (by decide) member) (by decide)
  obtain ⟨n, hentry⟩ := toList_entry (Numeral.decimal 4 slot ++ ": ") (wordText word)
    (Numeral.hex 3 (2 * slot) ++ "  " ++ Numeral.binary16 word)
  have hcolon : ": ".toList = [':', ' '] := rfl
  have hshown := shown_entry htrimmed hcomment 0 n
    (' ' :: (Numeral.hex 3 (2 * slot) ++ "  " ++ Numeral.binary16 word).toList)
  rw [List.replicate_zero, List.nil_append] at hshown
  rw [instruction?, codeEntry, hentry, wordText_of_decode hdecode, String.toList_append,
    List.append_assoc, hcolon, List.cons_append, List.singleton_append,
    afterColon?_append hnumber, Option.map_some, hshown, String.ofList_toList]

theorem isAlphanum_of_mem_hex {width n : Nat} {c : Char}
    (member : c ∈ (Numeral.hex width n).toList) : c.isAlphanum = true := by
  rw [Numeral.hex, String.toList_ofList, List.mem_cons, List.mem_cons] at member
  rcases member with rfl | rfl | digit
  · decide
  · decide
  · exact Numeral.isAlphanum_of_mem_digits (by decide) (by decide) digit

theorem isAlphanum_of_mem_binary8 {byte : UInt8} {c : Char}
    (member : c ∈ (Numeral.binary8 byte).toList) : c.isAlphanum = true := by
  rw [Numeral.binary8, String.toList_ofList] at member
  exact Numeral.isAlphanum_of_mem_digits (by decide) (by decide) member

/-- Only the front of a line can hold more than blanks, letters, digits and the semicolon. -/
theorem mem_entry {front text tail : String} {c : Char}
    (member : c ∈ (entry front text tail).toList) :
    c ∈ front.toList ∨ c ∈ text.toList ∨ c = ' ' ∨ c = ';' ∨ c ∈ tail.toList := by
  obtain ⟨n, hentry⟩ := toList_entry front text tail
  rw [hentry] at member
  simp only [List.mem_append, List.mem_cons] at member
  rcases member with h | h | h | h | h | h
  · exact .inl h
  · exact .inr (.inl h)
  · exact .inr (.inr (.inl (List.eq_of_mem_replicate h)))
  · exact .inr (.inr (.inr (.inl h)))
  · exact .inr (.inr (.inl h))
  · exact .inr (.inr (.inr (.inr h)))

theorem mem_dataEntry {address : Nat} {byte : UInt8} {c : Char}
    (member : c ∈ (dataEntry address byte).toList) :
    c = ' ' ∨ c = ';' ∨ c.isAlphanum = true := by
  rcases mem_entry member with h | h | h | h | h
  · exact .inl (List.eq_of_mem_replicate (show c ∈ List.replicate 6 ' ' from h))
  · exact .inr (.inr ((Numeral.written_toString byte.toNat).2 c h))
  · exact .inl h
  · exact .inr (.inl h)
  · simp only [String.toList_append, List.mem_append] at h
    rcases h with (h | h) | h
    · exact .inr (.inr (isAlphanum_of_mem_hex h))
    · exact .inl (List.eq_of_mem_replicate (show c ∈ List.replicate 2 ' ' from h))
    · exact .inr (.inr (isAlphanum_of_mem_binary8 h))

theorem afterColon?_dataEntry (address : Nat) (byte : UInt8) :
    afterColon? (dataEntry address byte).toList = none := by
  refine afterColon?_eq_none fun member => ?_
  rcases mem_dataEntry member with h | h | h <;> exact absurd h (by decide)

theorem number?_dataEntry (address : Nat) (byte : UInt8) :
    number? (dataEntry address byte) = some byte.toNat := by
  obtain ⟨nonempty, written⟩ := Numeral.written_toString byte.toNat
  have hcomment : ';' ∉ (toString byte.toNat).toList := fun member =>
    absurd (written _ member) (by decide)
  obtain ⟨n, hentry⟩ := toList_entry "      " (toString byte)
    (Numeral.hex 3 address ++ "  " ++ Numeral.binary8 byte)
  have hshown := shown_entry (trimmed_of_written nonempty written) hcomment 6 n
    (' ' :: (Numeral.hex 3 address ++ "  " ++ Numeral.binary8 byte).toList)
  have hfront : "      ".toList = List.replicate 6 ' ' := rfl
  have htext : toString byte = toString byte.toNat := rfl
  simp only [number?, afterColon?_dataEntry]
  rw [dataEntry, hentry, hfront, htext, hshown, Numeral.toList_toString, Numeral.value?_toDigits]

theorem instruction?_dataEntry (address : Nat) (byte : UInt8) :
    instruction? (dataEntry address byte) = none := by
  rw [instruction?, afterColon?_dataEntry, Option.map_none]

theorem number?_of_instruction? {line text : String} (h : instruction? line = some text) :
    number? line = none := by
  obtain ⟨rest, hrest, _⟩ := Option.map_eq_some_iff.1 h
  simp only [number?, hrest]

/-! ## The whole listing -/

def entries (words : List UInt16) (data : List UInt8) : List String :=
  ["; TRC3 Disassembly", "; ----------------", ""] ++
    (words.mapIdx codeEntry ++ data.mapIdx fun i byte => dataEntry (2 * words.length + i) byte)

theorem toList_linesFrom (words : List UInt16) (data : List UInt8) (slot : Nat)
    (found : Array String) :
    (linesFrom slot words.length found (words.flatMap Word.toBytes ++ data)).toList =
      found.toList ++ ((words.mapIdx fun i word => codeLine (slot + i) word) ++
        data.mapIdx fun i byte => dataLine (2 * (slot + words.length) + i) byte) := by
  induction words generalizing slot found with
  | nil =>
      have hdata : linesFrom slot 0 found data = found ++ linesFrom.dataLines (2 * slot) data := by
        unfold linesFrom
        split <;> rfl
      rw [List.flatMap_nil, List.nil_append, List.length_nil, hdata, Array.toList_appendList]
      rfl
  | cons word words ih =>
      obtain ⟨low, high, hbytes, hword⟩ := Word.toBytes_eq word
      rw [List.flatMap_cons, hbytes]
      show (linesFrom (slot + 1) words.length (found.push (codeLine slot (Word.ofBytes low high)))
        (words.flatMap Word.toBytes ++ data)).toList = _
      rw [ih, hword, List.mapIdx_cons, List.length_cons, Array.toList_push]
      simp [Nat.add_assoc, Nat.add_comm 1]

theorem ofBytes_eq_join (words : List UInt16) (data : List UInt8) :
    ofBytes (words.flatMap Word.toBytes ++ data) (some words.length) =
      String.join ((entries words data).map (· ++ "\n")) := by
  have hcode : (words.mapIdx fun i word => codeLine (0 + i) word) =
      (words.mapIdx codeEntry).map (· ++ "\n") := by
    simp [List.mapIdx_eq_zipIdx_map, codeLine_eq]
  have hdata : (data.mapIdx fun i byte => dataLine (2 * (0 + words.length) + i) byte) =
      (data.mapIdx fun i byte => dataEntry (2 * words.length + i) byte).map (· ++ "\n") := by
    simp [List.mapIdx_eq_zipIdx_map, dataLine_eq]
  have htitle : title = String.join
      (["; TRC3 Disassembly", "; ----------------", ""].map (· ++ "\n")) := by decide
  rw [ofBytes, Option.getD_some, toList_linesFrom, hcode, hdata, entries, List.map_append,
    List.map_append, htitle]
  rw [← String.toList_inj]
  simp

/-- The text of a word that is no instruction consists of a mark, a semicolon and the word. -/
theorem mem_wordText {word : UInt16} {c : Char} (member : c ∈ (wordText word).toList) :
    c = ' ' ∨ c = ';' ∨ c = '?' ∨ c.isAlphanum = true := by
  cases hdecode : Instruction.decode word with
  | ok instruction =>
      rw [wordText_of_decode hdecode] at member
      exact (isAlphanum_of_mem_text member).imp_right fun h => .inr (.inr h)
  | error e =>
      have htext : (wordText word).toList =
          ['?', '?', '?', ' ', ';', ' '] ++ (Numeral.hex 4 word.toNat).toList := by
        simp [wordText, hdecode]
      rw [htext, List.mem_append] at member
      rcases member with mark | digit
      · simp only [List.mem_cons, List.not_mem_nil, or_false] at mark
        rcases mark with rfl | rfl | rfl | rfl | rfl | rfl <;> simp
      · exact .inr (.inr (.inr (isAlphanum_of_mem_hex digit)))

theorem mem_codeEntry {slot : Nat} {word : UInt16} {c : Char}
    (member : c ∈ (codeEntry slot word).toList) :
    c = ' ' ∨ c = ';' ∨ c = '?' ∨ c = ':' ∨ c.isAlphanum = true := by
  rcases mem_entry member with h | h | h | h | h
  · rw [String.toList_append, List.mem_append] at h
    rcases h with h | h
    · rw [Numeral.decimal, String.toList_ofList] at h
      exact .inr (.inr (.inr (.inr (Numeral.isAlphanum_of_mem_digits (by decide) (by decide) h))))
    · rcases List.mem_pair.1 (show c ∈ [':', ' '] from h) with h | h
      · exact .inr (.inr (.inr (.inl h)))
      · exact .inl h
  · rcases mem_wordText h with h | h | h | h
    · exact .inl h
    · exact .inr (.inl h)
    · exact .inr (.inr (.inl h))
    · exact .inr (.inr (.inr (.inr h)))
  · exact .inl h
  · exact .inr (.inl h)
  · simp only [String.toList_append, List.mem_append, Numeral.binary16] at h
    rcases h with (h | h) | (h | h) | h
    · exact .inr (.inr (.inr (.inr (isAlphanum_of_mem_hex h))))
    · exact .inl (List.eq_of_mem_replicate (show c ∈ List.replicate 2 ' ' from h))
    · exact .inr (.inr (.inr (.inr (isAlphanum_of_mem_binary8 h))))
    · exact .inl (List.eq_of_mem_replicate (show c ∈ List.replicate 1 ' ' from h))
    · exact .inr (.inr (.inr (.inr (isAlphanum_of_mem_binary8 h))))

variable {words : List UInt16} {instructions : List Instruction}

theorem not_mem_of_mem_entries {data : List UInt8} {line : String}
    (member : line ∈ entries words data) : '\n' ∉ line.toList ∧ '\r' ∉ line.toList := by
  rw [entries, List.mem_append, List.mem_append] at member
  rcases member with title | code | data
  · simp only [List.mem_cons, List.not_mem_nil, or_false] at title
    rcases title with rfl | rfl | rfl <;> decide
  · obtain ⟨i, hi, rfl⟩ := List.mem_mapIdx.1 code
    constructor <;> intro hc <;>
      rcases mem_codeEntry hc with h | h | h | h | h <;> exact absurd h (by decide)
  · obtain ⟨i, hi, rfl⟩ := List.mem_mapIdx.1 data
    constructor <;> intro hc <;>
      rcases mem_dataEntry hc with h | h | h <;> exact absurd h (by decide)

theorem lines_ofBytes (words : List UInt16) (data : List UInt8) :
    Text.lines (ofBytes (words.flatMap Word.toBytes ++ data) (some words.length)) =
      entries words data := by
  rw [ofBytes_eq_join]
  refine Text.lines_join (fun line member => (not_mem_of_mem_entries member).1) ?_
  intro line member hlast
  exact (not_mem_of_mem_entries member).2 (List.mem_of_getLast? hlast)

theorem map_mapIdx {α β γ : Type} {f : Nat → α → β} {g : β → γ} {h : α → γ} {items : List α}
    (each : ∀ i, ∀ item ∈ items, g (f i item) = h item) :
    (items.mapIdx f).map g = items.map h := by
  induction items generalizing f with
  | nil => rfl
  | cons item items ih =>
      have behind : ∀ i, ∀ other ∈ items, g (f (i + 1) other) = h other :=
        fun i other member => each (i + 1) other (List.mem_cons_of_mem item member)
      rw [List.mapIdx_cons, List.map_cons, List.map_cons, each 0 item List.mem_cons_self, ih behind]

theorem filterMap_mapIdx {α β γ : Type} {f : Nat → α → β} {g : β → Option γ} {h : α → Option γ}
    {items : List α} (each : ∀ i, ∀ item ∈ items, g (f i item) = h item) :
    (items.mapIdx f).filterMap g = items.filterMap h := by
  rw [← Function.id_comp g, ← List.filterMap_map, map_mapIdx each, List.filterMap_map,
    Function.id_comp]

theorem exists_decode_of_mem
    (decoded : List.Forall₂ (fun word instruction => Instruction.decode word = .ok instruction)
      words instructions) {word : UInt16} (member : word ∈ words) :
    ∃ instruction, Instruction.decode word = .ok instruction :=
  (exists_forall₂_iff words).1 ⟨_, decoded⟩ word member

/-- The instructions that are read from a listing are those of its words. -/
theorem filterMap_instruction?_entries
    (decoded : List.Forall₂ (fun word instruction => Instruction.decode word = .ok instruction)
      words instructions) (data : List UInt8) :
    (entries words data).filterMap instruction? = instructions.map Instruction.text := by
  have htitle : ["; TRC3 Disassembly", "; ----------------", ""].filterMap instruction? = [] := by
    decide
  have hdata : (data.mapIdx fun i byte => dataEntry (2 * words.length + i) byte).filterMap
      instruction? = [] := by
    rw [List.filterMap_eq_nil_iff]
    intro line member
    obtain ⟨i, hi, rfl⟩ := List.mem_mapIdx.1 member
    exact instruction?_dataEntry _ _
  have hcode : (words.mapIdx codeEntry).filterMap instruction? =
      words.filterMap fun word => (Instruction.decode word).toOption.map Instruction.text := by
    refine filterMap_mapIdx fun slot word member => ?_
    obtain ⟨instruction, hdecode⟩ := exists_decode_of_mem decoded member
    rw [instruction?_codeEntry hdecode, hdecode]
    rfl
  rw [entries, List.filterMap_append, List.filterMap_append, htitle, hcode, hdata, List.nil_append,
    List.append_nil]
  clear hcode hdata
  induction decoded with
  | nil => rfl
  | @cons word instruction words instructions hdecode _ ih =>
      have htext : (Instruction.decode word).toOption.map Instruction.text =
          some instruction.text := by
        rw [hdecode]
        rfl
      simp only [List.filterMap_cons, htext, ih, List.map_cons]

/-- The numbers that are read from a listing are its data. -/
theorem filterMap_number?_entries
    (decoded : List.Forall₂ (fun word instruction => Instruction.decode word = .ok instruction)
      words instructions) (data : List UInt8) :
    (entries words data).filterMap number? = data.map UInt8.toNat := by
  have htitle : ["; TRC3 Disassembly", "; ----------------", ""].filterMap number? = [] := by
    decide
  have hcode : (words.mapIdx codeEntry).filterMap number? = [] := by
    rw [List.filterMap_eq_nil_iff]
    intro line member
    obtain ⟨slot, hslot, rfl⟩ := List.mem_mapIdx.1 member
    obtain ⟨instruction, hdecode⟩ := exists_decode_of_mem decoded (List.getElem_mem hslot)
    exact number?_of_instruction? (instruction?_codeEntry hdecode slot)
  have hdata : (data.mapIdx fun i byte => dataEntry (2 * words.length + i) byte).filterMap number? =
      data.filterMap fun byte => some byte.toNat :=
    filterMap_mapIdx fun _ _ _ => number?_dataEntry _ _
  rw [entries, List.filterMap_append, List.filterMap_append, htitle, hcode, hdata, List.nil_append,
    List.nil_append]
  exact congrFun List.filterMap_eq_map data

end Listing

end Redstone

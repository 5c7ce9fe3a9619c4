import Redstone.Proofs.Image.Annotated
import Redstone.Proofs.Listing.Lines

/-!
# The binary columns of a listing

The text of an instruction does not show all bits of its word, and a word may be no instruction at
all. The binary digits at the end of a line show every bit, so that the bytes of an image can be
read off its listing, whatever part of it was taken for code.
-/

namespace Redstone

namespace Listing

/-! ## Reading a line from its end -/

def byte? (digits : List Char) : Option UInt8 :=
  if Image.isBitsCode digits then some (Image.bitsValue digits) else none

/-- The bytes in the binary columns of a line, from its end back to a gap of two spaces. -/
def binaryBytes (line : String) : List UInt8 :=
  ((line.toList.splitOn ' ').reverse.takeWhile (· ≠ [])).filterMap byte?

theorem byte?_binary8 (byte : UInt8) : byte? (Numeral.binary8 byte).toList = some byte := by
  rw [byte?, if_pos (Image.isBitsCode_iff.2 (Image.eightDigits_binary8 byte)),
    Image.bitsValue_binary8]

/-- Columns behind a gap are read from the last to the first. -/
theorem binaryBytes_of_gap {line : String} {front : List Char} {columns : List (List Char)}
    (nonempty : columns ≠ []) (each : ∀ column ∈ columns, column ≠ [] ∧ ' ' ∉ column)
    (gap : line.toList = front ++ ' ' :: ' ' :: [' '].intercalate columns) :
    binaryBytes line = columns.reverse.filterMap byte? := by
  have behind : (' ' :: [' '].intercalate columns).splitOn ' ' = [] :: columns := by
    have parts : ([' '].intercalate columns).splitOn ' ' = columns :=
      List.splitOn_intercalate ' ' (fun column member => (each column member).2) nonempty
    have space : ' ' ∉ ([] : List Char) := List.not_mem_nil
    have first := List.splitOn_append_cons_self_of_not_mem space ([' '].intercalate columns)
    rwa [parts] at first
  have taken : ∀ column ∈ columns.reverse, decide (column ≠ []) = true := fun column member =>
    decide_eq_true (each column (List.mem_reverse.1 member)).1
  rw [binaryBytes, gap, List.splitOn_append_cons_self, behind, List.reverse_append,
    List.reverse_cons, List.append_assoc, List.takeWhile_append_of_pos taken,
    List.singleton_append, List.takeWhile_cons_of_neg (by simp), List.append_nil]

theorem binary8_column (byte : UInt8) :
    (Numeral.binary8 byte).toList ≠ [] ∧ ' ' ∉ (Numeral.binary8 byte).toList := by
  refine ⟨(Image.eightDigits_binary8 byte).ne_nil, fun member => ?_⟩
  exact absurd (isAlphanum_of_mem_binary8 member) (by decide)

/-- Binary columns behind an address are the bytes of their line. -/
theorem binaryBytes_entry (label text : String) (address : Nat) {bytes : List UInt8}
    (nonempty : bytes ≠ []) {columns : String}
    (shown : columns.toList = [' '].intercalate (bytes.map fun byte =>
      (Numeral.binary8 byte).toList)) :
    binaryBytes (entry label text (Numeral.hex 3 address ++ "  " ++ columns)) = bytes.reverse := by
  obtain ⟨n, split⟩ := toList_entry label text (Numeral.hex 3 address ++ "  " ++ columns)
  have gap : (entry label text (Numeral.hex 3 address ++ "  " ++ columns)).toList =
      (label.toList ++ (text.toList ++
        (List.replicate n ' ' ++ ';' :: ' ' :: (Numeral.hex 3 address).toList))) ++
      ' ' :: ' ' :: [' '].intercalate (bytes.map fun byte => (Numeral.binary8 byte).toList) := by
    rw [split, ← shown]
    simp
  have each : ∀ column ∈ bytes.map fun byte => (Numeral.binary8 byte).toList,
      column ≠ [] ∧ ' ' ∉ column :=
    List.forall_mem_map.2 fun byte _ => binary8_column byte
  have read : byte? ∘ (fun byte => (Numeral.binary8 byte).toList) = some := by
    funext byte
    rw [Function.comp_apply, byte?_binary8]
  rw [binaryBytes_of_gap (by simpa using nonempty) each gap, ← List.map_reverse,
    List.filterMap_map, read, List.filterMap_some]

theorem binaryBytes_codeEntry (slot : Nat) (word : UInt16) :
    binaryBytes (codeEntry slot word) = Word.toBytes word := by
  have shown : (Numeral.binary16 word).toList =
      [' '].intercalate ([(word >>> 8).toUInt8, word.toUInt8].map fun byte =>
        (Numeral.binary8 byte).toList) := by
    simp [Numeral.binary16, List.intercalate_cons_cons]
  exact binaryBytes_entry _ _ _ (List.cons_ne_nil _ _) shown

theorem binaryBytes_dataEntry (address : Nat) (byte : UInt8) :
    binaryBytes (dataEntry address byte) = [byte] := by
  have shown : (Numeral.binary8 byte).toList =
      [' '].intercalate ([byte].map fun byte => (Numeral.binary8 byte).toList) := by
    rw [List.map_singleton, List.intercalate_singleton]
  exact binaryBytes_entry _ _ _ (List.cons_ne_nil _ _) shown

/-- The lines of a listing show its bytes one after the other. -/
theorem flatMap_binaryBytes_entries (words : List UInt16) (data : List UInt8) :
    (entries words data).flatMap binaryBytes = words.flatMap Word.toBytes ++ data := by
  have title : ["; TRC3 Disassembly", "; ----------------", ""].flatMap binaryBytes = [] := by
    decide
  have code : (words.mapIdx codeEntry).flatMap binaryBytes = words.flatMap Word.toBytes := by
    rw [List.flatMap_def, map_mapIdx fun slot word _ => binaryBytes_codeEntry slot word,
      ← List.flatMap_def]
  have bytes : (data.mapIdx fun i byte => dataEntry (2 * words.length + i) byte).flatMap
      binaryBytes = data := by
    rw [List.flatMap_def, map_mapIdx fun i byte _ => binaryBytes_dataEntry _ byte,
      ← List.flatMap_def, List.flatMap_singleton']
  rw [entries, List.flatMap_append, List.flatMap_append, title, code, bytes, List.nil_append]

/-! ## Words and bytes behind them -/

theorem toBytes_ofBytes (low high : UInt8) :
    Word.toBytes (Word.ofBytes low high) = [low, high] := by
  have hlow := low.toNat_lt
  have hhigh := high.toNat_lt
  have number : (Word.ofBytes low high).toNat = high.toNat * 256 + low.toNat := by
    rw [Word.ofBytes, UInt16.toNat_ofNat', Nat.mod_eq_of_lt (by omega)]
  have first : (Word.ofBytes low high).toUInt8 = low := by
    rw [← UInt8.toNat_inj, UInt16.toNat_toUInt8, number]
    omega
  have second : (Word.ofBytes low high >>> 8).toUInt8 = high := by
    rw [← UInt8.toNat_inj, UInt16.toNat_toUInt8, UInt16.toNat_shiftRight, number]
    simp [Nat.shiftRight_eq_div_pow]
    omega
  rw [Word.toBytes, first, second]

/-- From an image as many words can be taken as it has whole ones. -/
theorem exists_words_eq {bytes : List UInt8} {count : Nat} (enough : count ≤ bytes.length / 2) :
    ∃ (words : List UInt16) (data : List UInt8),
      bytes = words.flatMap Word.toBytes ++ data ∧ words.length = count := by
  induction count generalizing bytes with
  | zero => exact ⟨[], bytes, rfl, rfl⟩
  | succ count ih =>
      obtain _ | ⟨low, _ | ⟨high, bytes⟩⟩ := bytes
      · simp at enough
      · simp at enough
      · have fewer : count ≤ bytes.length / 2 := by
          simp only [List.length_cons] at enough
          omega
        obtain ⟨words, data, split, length⟩ := ih fewer
        refine ⟨Word.ofBytes low high :: words, data, ?_, by rw [List.length_cons, length]⟩
        rw [List.flatMap_cons, toBytes_ofBytes, List.append_assoc, ← split]
        rfl

/-- Words beyond the end of an image make no difference. -/
theorem linesFrom_eq_min (slot words : Nat) (found : Array String) (bytes : List UInt8) :
    linesFrom slot words found bytes =
      linesFrom slot (min words (bytes.length / 2)) found bytes := by
  fun_induction linesFrom slot words found bytes with
  | case1 slot found low high rest words ih =>
      have fewer : min (words + 1) ((low :: high :: rest).length / 2) =
          min words (rest.length / 2) + 1 := by
        simp only [List.length_cons]
        omega
      rw [fewer, linesFrom, ← ih]
  | case2 slot found low high rest => rw [Nat.zero_min, linesFrom]
  | case3 words slot found rest short =>
      rw [linesFrom]
      exact short

/-- The number of words that are listed as code: as many as wanted, if there are so many. -/
def codeCount (bytes : List UInt8) (count : Option Nat) : Nat :=
  min (count.getD (bytes.length / 2)) (bytes.length / 2)

theorem ofBytes_eq_codeCount (bytes : List UInt8) (count : Option Nat) :
    ofBytes bytes count = ofBytes bytes (some (codeCount bytes count)) := by
  rw [ofBytes, ofBytes, Option.getD_some, linesFrom_eq_min, codeCount]

/-- A listing has a line for every word of code and one for every byte behind them. -/
theorem exists_entries_eq (bytes : List UInt8) (count : Option Nat) :
    ∃ (words : List UInt16) (data : List UInt8), bytes = words.flatMap Word.toBytes ++ data ∧
      words.length = codeCount bytes count ∧
      Text.lines (ofBytes bytes count) = entries words data := by
  have enough : codeCount bytes count ≤ bytes.length / 2 := Nat.min_le_right _ _
  obtain ⟨words, data, split, length⟩ := exists_words_eq enough
  refine ⟨words, data, split, length, ?_⟩
  rw [ofBytes_eq_codeCount, ← length, split]
  exact lines_ofBytes words data

/-- The bytes that the lines of a listing show are those that were listed. -/
theorem flatMap_binaryBytes_lines (bytes : List UInt8) (count : Option Nat) :
    (Text.lines (ofBytes bytes count)).flatMap binaryBytes = bytes := by
  obtain ⟨words, data, split, -, lines⟩ := exists_entries_eq bytes count
  rw [lines, flatMap_binaryBytes_entries, ← split]

theorem length_lines (bytes : List UInt8) (count : Option Nat) :
    (Text.lines (ofBytes bytes count)).length + codeCount bytes count = bytes.length + 3 := by
  obtain ⟨words, data, split, length, lines⟩ := exists_entries_eq bytes count
  have total := congrArg List.length split
  rw [List.length_append, length_flatMap_toBytes] at total
  rw [lines, entries]
  simp only [List.length_append, List.length_cons, List.length_nil, List.length_mapIdx]
  omega

/--
A listing has a heading, a line for every word of code and a line for every byte behind these. The
binary columns of a line show the bytes of its word, whether it is an instruction or not, or its
byte. So all bytes can be read off a listing: two listings are the same if and only if the same
bytes are listed with the same number of words as code.
-/
theorem listing_lossless :
    (∀ (bytes : List UInt8) (count : Option Nat),
      ∃ (words : List UInt16) (data : List UInt8), bytes = words.flatMap Word.toBytes ++ data ∧
        words.length = min (count.getD (bytes.length / 2)) (bytes.length / 2) ∧
        Text.lines (ofBytes bytes count) = entries words data) ∧
    (∀ slot word, binaryBytes (codeEntry slot word) = Word.toBytes word) ∧
    (∀ address byte, binaryBytes (dataEntry address byte) = [byte]) ∧
    (∀ bytes count, (Text.lines (ofBytes bytes count)).flatMap binaryBytes = bytes) ∧
    ∀ (bytes bytes' : List UInt8) (count count' : Option Nat),
      ofBytes bytes count = ofBytes bytes' count' ↔
        bytes = bytes' ∧ codeCount bytes count = codeCount bytes' count' := by
  refine ⟨exists_entries_eq, binaryBytes_codeEntry, binaryBytes_dataEntry,
    flatMap_binaryBytes_lines, fun bytes bytes' count count' => ⟨fun same => ?_, ?_⟩⟩
  · obtain rfl : bytes = bytes' := by
      rw [← flatMap_binaryBytes_lines bytes count, same, flatMap_binaryBytes_lines]
    have lines := length_lines bytes count
    have lines' := length_lines bytes count'
    rw [same] at lines
    exact ⟨rfl, by omega⟩
  · rintro ⟨rfl, same⟩
    rw [ofBytes_eq_codeCount bytes count, same, ← ofBytes_eq_codeCount]

/-- A word that is no instruction and a byte behind it, with more words wanted than there are. -/
example : (Text.lines (ofBytes [0xff, 0xf8, 7] (some 9))).flatMap binaryBytes =
    [0xff, 0xf8, 7] := by
  decide +kernel

end Listing

end Redstone

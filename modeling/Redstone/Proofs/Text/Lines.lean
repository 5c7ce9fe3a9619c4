import Redstone.Proofs.Text.Blank
import Redstone.Text.Bytes
import Redstone.Text.Lines

/-!
# Lines of a text and of its bytes

A text falls into lines at its line feeds, and so do its bytes, since no other character has the
byte of a line feed in its UTF-8 form. The lines of the bytes keep their line ends; apart from
these and other white space they are the lines of the text.
-/

namespace Redstone

namespace Text

/-- A text is one open line, or a closed line in front of another text. -/
theorem line_induction {motive : List Char → Prop}
    (last : ∀ line, '\n' ∉ line → motive line)
    (closed : ∀ line rest, '\n' ∉ line → motive rest → motive (line ++ '\n' :: rest))
    (cs : List Char) : motive cs := by
  have behind (line : List Char) (hline : '\n' ∉ line) : motive (line ++ cs) := by
    induction cs generalizing line with
    | nil =>
        rw [List.append_nil]
        exact last line hline
    | cons c rest ih =>
        by_cases hfeed : c = '\n'
        · subst hfeed
          exact closed line rest hline (ih [] (by simp))
        · rw [List.append_cons]
          exact ih (line ++ [c]) (by simp [hline, Ne.symm hfeed])
  exact behind [] (by simp)

/-! ## Characters -/

theorem segments_cons {c : Char} {rest piece : List Char} {pieces : List (List Char)}
    (hfeed : c ≠ '\n') (hrest : segments rest = piece :: pieces) :
    segments (c :: rest) = (c :: piece) :: pieces := by
  unfold segments at hrest ⊢
  rw [List.foldr_cons, hrest, if_neg hfeed]

theorem segments_append_lineFeed {line : List Char} (hline : '\n' ∉ line) (rest : List Char) :
    segments (line ++ '\n' :: rest) = line :: segments rest := by
  induction line with
  | nil => exact segments_lineFeed rest
  | cons c line ih =>
      rw [List.mem_cons, not_or] at hline
      exact segments_cons (Ne.symm hline.1) (ih hline.2)

theorem segments_of_no_lineFeed {line : List Char} (hline : '\n' ∉ line) :
    segments line = [line] := by
  induction line with
  | nil => rfl
  | cons c line ih =>
      rw [List.mem_cons, not_or] at hline
      exact segments_cons (Ne.symm hline.1) (ih hline.2)

theorem append_lineFeed_inj {line other rest rest' : List Char} (hline : '\n' ∉ line)
    (hother : '\n' ∉ other) (same : line ++ '\n' :: rest = other ++ '\n' :: rest') :
    line = other ∧ rest = rest' := by
  have pieces := congrArg segments same
  rw [segments_append_lineFeed hline, segments_append_lineFeed hother] at pieces
  obtain rfl := (List.cons.inj pieces).1
  exact ⟨rfl, (List.cons.inj (List.append_cancel_left same)).2⟩

theorem lineChars_append_lineFeed {line : List Char} (hline : '\n' ∉ line) (rest : List Char) :
    lineChars (line ++ '\n' :: rest) = dropReturn line :: lineChars rest := by
  have hrest := segments_ne_nil rest
  unfold lineChars
  rw [segments_append_lineFeed hline]
  simp only [List.dropLast_cons_of_ne_nil hrest, List.map_cons, List.getLast?_cons_of_ne_nil hrest]
  split <;> rfl

/-- A text without a line feed is one line, or none if it is empty. -/
theorem lineChars_of_no_lineFeed {line : List Char} (hline : '\n' ∉ line) :
    lineChars line = if line = [] then [] else [line] := by
  unfold lineChars
  rw [segments_of_no_lineFeed hline]
  cases line <;> rfl

/-- A text whose last line is closed keeps its lines when another text is put behind it. -/
theorem lineChars_append {first : List Char} (hended : first = [] ∨ first.getLast? = some '\n')
    (second : List Char) : lineChars (first ++ second) = lineChars first ++ lineChars second := by
  induction first using line_induction with
  | last line hline =>
      obtain rfl | hlast := hended
      · rfl
      · exact absurd (List.mem_of_getLast? hlast) hline
  | closed line rest hline ih =>
      have hrest : rest = [] ∨ rest.getLast? = some '\n' := by
        cases rest with
        | nil => exact .inl rfl
        | cons c rest => simpa using hended
      rw [List.append_assoc, List.cons_append, lineChars_append_lineFeed hline,
        lineChars_append_lineFeed hline, ih hrest, List.cons_append]

theorem lines_append {first : String} (hended : first = "" ∨ first.toList.getLast? = some '\n')
    (second : String) : lines (first ++ second) = lines first ++ lines second := by
  have hchars : first.toList = [] ∨ first.toList.getLast? = some '\n' := by
    simpa using hended
  unfold lines
  rw [String.toList_append, lineChars_append hchars, List.map_append]

/-- A carriage return at the end of a line is white space. -/
theorem trimChars_dropReturn (line : List Char) :
    trimChars (dropReturn line) = trimChars line := by
  unfold dropReturn
  split
  · next hreturn =>
      obtain ⟨front, rfl⟩ := List.getLast?_eq_some_iff.1 hreturn
      rw [List.dropLast_concat, trimChars_concat_blank front (by decide)]
  · rfl

/-- Text that is put together from closed lines has these lines. -/
theorem lines_join {texts : List String} (hplain : ∀ text ∈ texts, '\n' ∉ text.toList)
    (hended : ∀ text ∈ texts, text.toList.getLast? ≠ some '\r') :
    lines (String.join (texts.map (· ++ "\n"))) = texts := by
  have hchars : lineChars (String.join (texts.map (· ++ "\n"))).toList =
      texts.map String.toList := by
    induction texts with
    | nil => rfl
    | cons text texts ih =>
        have hjoin : (String.join ((text :: texts).map (· ++ "\n"))).toList =
            text.toList ++ '\n' :: (String.join (texts.map (· ++ "\n"))).toList := by
          simp
        have hreturn : dropReturn text.toList = text.toList := if_neg (hended text (by simp))
        rw [hjoin, lineChars_append_lineFeed (hplain text (by simp)), hreturn, ih, List.map_cons]
        · exact fun other member => hplain other (by simp [member])
        · exact fun other member => hended other (by simp [member])
  unfold lines
  rw [hchars, List.map_map]
  simp

/-! ## Bytes -/

theorem byteLines_lineFeed (bytes : List UInt8) :
    byteLines (10 :: bytes) = [10] :: byteLines bytes := rfl

theorem byteLines_cons {byte : UInt8} {rest line : List UInt8} {lines : List (List UInt8)}
    (hfeed : byte ≠ 10) (hrest : byteLines rest = line :: lines) :
    byteLines (byte :: rest) = (byte :: line) :: lines := by
  unfold byteLines at hrest ⊢
  rw [List.foldr_cons, hrest, if_neg hfeed]

theorem byteLines_append_lineFeed {line : List UInt8} (hline : 10 ∉ line) (rest : List UInt8) :
    byteLines (line ++ 10 :: rest) = (line ++ [10]) :: byteLines rest := by
  induction line with
  | nil => exact byteLines_lineFeed rest
  | cons byte line ih =>
      rw [List.mem_cons, not_or] at hline
      exact byteLines_cons (Ne.symm hline.1) (ih hline.2)

/-- Bytes without a line feed are one line, or none if there are no bytes. -/
theorem byteLines_of_no_lineFeed {line : List UInt8} (hline : 10 ∉ line) :
    byteLines line = if line = [] then [] else [line] := by
  induction line with
  | nil => rfl
  | cons byte line ih =>
      rw [List.mem_cons, not_or] at hline
      have hrest := ih hline.2
      cases line with
      | nil => exact if_neg (Ne.symm hline.1)
      | cons next line => exact byteLines_cons (Ne.symm hline.1) hrest

/-- Lines that bytes fall into: each is closed by its only line feed, but the last may be open. -/
def FallInto (bytes : List UInt8) (lines : List (List UInt8)) : Prop :=
  ∃ (closed : List (List UInt8)) (last : List UInt8),
    bytes = (closed.map (· ++ [10])).flatten ++ last ∧
    (∀ line ∈ closed, 10 ∉ line) ∧ 10 ∉ last ∧
    lines = closed.map (· ++ [10]) ++ if last = [] then [] else [last]

theorem fallInto_byteLines (bytes : List UInt8) : FallInto bytes (byteLines bytes) := by
  induction bytes with
  | nil => exact ⟨[], [], rfl, nofun, List.not_mem_nil, rfl⟩
  | cons byte bytes ih =>
      obtain ⟨closed, last, hbytes, hclosed, hlast, hlines⟩ := ih
      by_cases hfeed : byte = 10
      · subst hfeed
        refine ⟨[] :: closed, last, by rw [hbytes]; rfl, ?_, hlast, ?_⟩
        · exact List.forall_mem_cons.2 ⟨List.not_mem_nil, hclosed⟩
        · rw [byteLines_lineFeed, hlines]
          rfl
      · -- The byte goes to the first line, which is the open one if no other is there.
        cases closed with
        | nil =>
            have hopen : 10 ∉ byte :: last := List.not_mem_cons_of_ne_of_not_mem (Ne.symm hfeed) hlast
            refine ⟨[], byte :: last, by rw [hbytes]; rfl, nofun, hopen, ?_⟩
            rw [hbytes]
            exact byteLines_of_no_lineFeed hopen
        | cons line closed =>
            rw [List.forall_mem_cons] at hclosed
            refine ⟨(byte :: line) :: closed, last, by rw [hbytes]; rfl, ?_, hlast, ?_⟩
            · exact List.forall_mem_cons.2
                ⟨List.not_mem_cons_of_ne_of_not_mem (Ne.symm hfeed) hclosed.1, hclosed.2⟩
            · exact byteLines_cons hfeed hlines

theorem byteLines_eq_nil_iff {bytes : List UInt8} : byteLines bytes = [] ↔ bytes = [] := by
  constructor
  · intro h
    have hbytes := flatten_byteLines bytes
    rwa [h, List.flatten_nil, eq_comm] at hbytes
  · rintro rfl
    rfl

/-- Behind the first line of bytes there are bytes again, which fall into the other lines. -/
theorem exists_of_byteLines_eq_cons {bytes line : List UInt8} {lines : List (List UInt8)}
    (h : byteLines bytes = line :: lines) :
    ∃ rest, bytes = line ++ rest ∧ byteLines rest = lines := by
  induction bytes generalizing line with
  | nil => cases h
  | cons byte bytes ih =>
      by_cases hfeed : byte = 10
      · subst hfeed
        rw [byteLines_lineFeed] at h
        cases h
        exact ⟨bytes, rfl, rfl⟩
      · cases hbytes : byteLines bytes with
        | nil =>
            obtain rfl := byteLines_eq_nil_iff.1 hbytes
            rw [byteLines_of_no_lineFeed (by simpa using Ne.symm hfeed)] at h
            cases h
            exact ⟨[], rfl, rfl⟩
        | cons first more =>
            rw [byteLines_cons hfeed hbytes] at h
            cases h
            obtain ⟨rest, rfl, hrest⟩ := ih hbytes
            exact ⟨rest, rfl, hrest⟩

theorem exists_of_byteLines_eq_append {bytes : List UInt8} {taken lines : List (List UInt8)}
    (h : byteLines bytes = taken ++ lines) :
    ∃ rest, bytes = taken.flatten ++ rest ∧ byteLines rest = lines := by
  induction taken generalizing bytes with
  | nil => exact ⟨bytes, rfl, h⟩
  | cons line taken ih =>
      obtain ⟨behind, rfl, hbehind⟩ := exists_of_byteLines_eq_cons h
      obtain ⟨rest, rfl, hrest⟩ := ih hbehind
      exact ⟨rest, by rw [List.flatten_cons, List.append_assoc], hrest⟩

theorem toBytes_eq_flatMap (text : String) :
    toBytes text = text.toList.flatMap String.utf8EncodeChar := by
  rw [toBytes, String.toUTF8_eq_toByteArray, ← String.utf8Encode_toList, List.utf8Encode]
  simp

/-- Only a line feed has the byte of a line feed in its UTF-8 form. -/
theorem lineFeed_not_mem_utf8EncodeChar {c : Char} (hfeed : c ≠ '\n') :
    10 ∉ String.utf8EncodeChar c := by
  have hcode : c.val.toNat ≠ 10 := fun same => hfeed (Char.toNat_inj.1 same)
  have hbyte (n : Nat) : (10 : UInt8) = UInt8.ofNat n ↔ n % 256 = 10 := by
    rw [← UInt8.toNat_inj, UInt8.toNat_ofNat', eq_comm]
    rfl
  simp only [String.utf8EncodeChar]
  -- All bytes of a longer form are at least 128.
  split_ifs <;> simp only [List.mem_cons, List.not_mem_nil, or_false, hbyte] <;> omega

theorem lineFeed_not_mem_flatMap {line : List Char} (hline : '\n' ∉ line) :
    10 ∉ line.flatMap String.utf8EncodeChar := by
  intro member
  obtain ⟨c, hc, hbyte⟩ := List.mem_flatMap.1 member
  exact lineFeed_not_mem_utf8EncodeChar (ne_of_mem_of_not_mem hc hline) hbyte

theorem flatMap_utf8EncodeChar_eq_nil_iff {line : List Char} :
    line.flatMap String.utf8EncodeChar = [] ↔ line = [] := by
  have hchar (c : Char) : String.utf8EncodeChar c ≠ [] := by
    rw [← List.length_pos_iff, String.length_utf8EncodeChar]
    exact c.utf8Size_pos
  rw [List.flatMap_eq_nil_iff]
  simp only [hchar, imp_false, ← List.eq_nil_iff_forall_not_mem]

theorem byteLines_flatMap_append_lineFeed {line : List Char} (hline : '\n' ∉ line)
    (rest : List Char) :
    byteLines ((line ++ '\n' :: rest).flatMap String.utf8EncodeChar) =
      (line ++ ['\n']).flatMap String.utf8EncodeChar ::
        byteLines (rest.flatMap String.utf8EncodeChar) := by
  have hbytes : (line ++ '\n' :: rest).flatMap String.utf8EncodeChar =
      line.flatMap String.utf8EncodeChar ++ 10 :: rest.flatMap String.utf8EncodeChar :=
    List.flatMap_append
  rw [hbytes, byteLines_append_lineFeed (lineFeed_not_mem_flatMap hline), List.flatMap_append]
  rfl

theorem exists_byteLines_flatMap_eq (cs : List Char) :
    ∃ pieces : List (List Char),
      byteLines (cs.flatMap String.utf8EncodeChar) =
        pieces.map (·.flatMap String.utf8EncodeChar) ∧
      pieces.map trimChars = (lineChars cs).map trimChars := by
  induction cs using line_induction with
  | last line hline =>
      refine ⟨lineChars line, ?_, rfl⟩
      rw [byteLines_of_no_lineFeed (lineFeed_not_mem_flatMap hline),
        lineChars_of_no_lineFeed hline]
      simp only [flatMap_utf8EncodeChar_eq_nil_iff]
      split <;> rfl
  | closed line rest hline ih =>
      obtain ⟨pieces, hbytes, htrim⟩ := ih
      refine ⟨(line ++ ['\n']) :: pieces, ?_, ?_⟩
      · rw [byteLines_flatMap_append_lineFeed hline, hbytes]
        rfl
      · rw [lineChars_append_lineFeed hline, List.map_cons, List.map_cons, htrim,
          trimChars_concat_blank line (by decide), trimChars_dropReturn]

/-- The lines of the bytes of a text, read as text and trimmed, are the trimmed lines of it. -/
theorem exists_byteLines_toBytes_eq (text : String) :
    ∃ texts : List String, byteLines (toBytes text) = texts.map toBytes ∧
      texts.map (trimChars ·.toList) = (lines text).map (trimChars ·.toList) := by
  obtain ⟨pieces, hbytes, htrim⟩ := exists_byteLines_flatMap_eq text.toList
  refine ⟨pieces.map String.ofList, ?_, ?_⟩
  · simp [toBytes_eq_flatMap, hbytes]
  · simpa [lines, Function.comp_def] using htrim

end Text

end Redstone

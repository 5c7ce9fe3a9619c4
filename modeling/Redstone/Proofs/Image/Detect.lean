import Mathlib.Algebra.Order.BigOperators.Group.List
import Mathlib.Algebra.Order.Ring.Nat
import Redstone.Image.Format
import Redstone.Proofs.Program.Session

/-!
# Finding out the format of an image

The bytes of an image are saved as they are, and read back as they are unless they happen to be
a bits text themselves. Then its lines are read as bytes, and there are fewer of these than
before, since a line of eight digits takes at least eight bytes.
-/

namespace Redstone

namespace Text

/-! ## Lengths -/

theorem sum_length_segments_le (cs : List Char) :
    ((segments cs).map List.length).sum ≤ cs.length := by
  induction cs with
  | nil => exact Nat.le_refl 0
  | cons c rest ih =>
      by_cases hfeed : c = '\n'
      · subst hfeed
        rw [segments_lineFeed, List.map_cons, List.sum_cons, List.length_nil, List.length_cons]
        omega
      · cases hrest : segments rest with
        | nil => exact absurd hrest (segments_ne_nil rest)
        | cons piece pieces =>
            rw [hrest, List.map_cons, List.sum_cons] at ih
            rw [segments_cons hfeed hrest, List.map_cons, List.sum_cons, List.length_cons,
              List.length_cons]
            omega

theorem length_dropReturn_le (line : List Char) : (dropReturn line).length ≤ line.length := by
  unfold dropReturn
  split
  · exact (List.dropLast_sublist line).length_le
  · exact Nat.le_refl _

theorem sum_length_lineChars_le (cs : List Char) :
    ((lineChars cs).map List.length).sum ≤ cs.length := by
  have hpieces := sum_length_segments_le cs
  obtain hnil | ⟨ended, last, hsplit⟩ := List.eq_nil_or_concat (segments cs)
  · exact absurd hnil (segments_ne_nil cs)
  · have hended : ((ended.map dropReturn).map List.length).sum ≤ (ended.map List.length).sum := by
      rw [List.map_map]
      exact List.sum_le_sum fun line _ => length_dropReturn_le line
    rw [List.concat_eq_append] at hsplit
    rw [hsplit, List.map_append, List.sum_append, List.map_singleton, List.sum_singleton]
      at hpieces
    unfold lineChars
    simp only [hsplit, List.dropLast_concat, List.getLast?_concat]
    cases last with
    | nil => exact Nat.le_trans hended (Nat.le_trans (Nat.le_add_right _ _) hpieces)
    | cons c last =>
        simp only [List.map_append, List.sum_append, List.map_singleton, List.sum_singleton]
        omega

theorem length_trimChars_le (cs : List Char) : (trimChars cs).length ≤ cs.length := by
  unfold trimChars
  rw [List.length_reverse]
  have houter := (List.dropWhile_sublist isBlank (l := (cs.dropWhile isBlank).reverse)).length_le
  have hinner := (List.dropWhile_sublist isBlank (l := cs)).length_le
  rw [List.length_reverse] at houter
  exact Nat.le_trans houter hinner

theorem length_le_length_toBytes (text : String) : text.toList.length ≤ (toBytes text).length := by
  have hone : ∀ n ∈ text.toList.map fun c => (String.utf8EncodeChar c).length, 1 ≤ n := by
    intro n hn
    obtain ⟨c, _, rfl⟩ := List.mem_map.1 hn
    rw [String.length_utf8EncodeChar]
    exact c.utf8Size_pos
  have hsum := List.length_le_sum_of_one_le _ hone
  rwa [toBytes_eq_flatMap, List.length_flatMap, ← List.length_map fun c => (String.utf8EncodeChar c).length]

end Text

namespace Image

theorem length_bitsCode_le (line : List Char) : (bitsCode line).length ≤ line.length :=
  Nat.le_trans (Text.length_trimChars_le _) (List.takeWhile_sublist _).length_le

theorem sum_length_bitsCodes_le (text : String) :
    ((bitsCodes text).map List.length).sum ≤ text.toList.length := by
  have hlines := Text.sum_length_lineChars_le text.toList
  unfold bitsCodes
  rw [List.map_map]
  exact Nat.le_trans (List.sum_le_sum fun line _ => length_bitsCode_le line) hlines

/-! ## Contents that are a bits text -/

def EightDigits (code : List Char) : Prop :=
  code.length = 8 ∧ ∀ c ∈ code, c = '0' ∨ c = '1'

theorem EightDigits.ne_nil {code : List Char} (h : EightDigits code) : code ≠ [] := by
  intro hnil
  rw [hnil] at h
  exact absurd h.1 (by decide)

/-- Each line is blank or eight digits, and some line is not blank. -/
structure BitsText (text : String) : Prop where
  nonblank : ∃ code ∈ bitsCodes text, code ≠ []
  digits : ∀ code ∈ bitsCodes text, code = [] ∨ EightDigits code

theorem isBitsCode_iff {code : List Char} : isBitsCode code = true ↔ EightDigits code := by
  simp [isBitsCode, EightDigits]

theorem looksLikeBits_iff {contents : List UInt8} :
    ImageFormat.looksLikeBits contents = true ↔
      ∃ text, Text.toBytes text = contents ∧ BitsText text := by
  unfold ImageFormat.looksLikeBits
  cases htext : Text.ofBytes? contents with
  | none =>
      refine ⟨nofun, ?_⟩
      rintro ⟨text, rfl, _⟩
      rw [Text.ofBytes?_toBytes] at htext
      cases htext
  | some text =>
      have hbits : BitsText text ↔ (∃ code ∈ bitsCodes text, code ≠ []) ∧
          ∀ code ∈ bitsCodes text, code = [] ∨ EightDigits code :=
        ⟨fun h => ⟨h.nonblank, h.digits⟩, fun h => ⟨h.1, h.2⟩⟩
      have hlooks : ∀ other, Text.toBytes other = contents ↔ other = text := by
        intro other
        constructor
        · rintro rfl
          rw [Text.ofBytes?_toBytes] at htext
          exact Option.some.inj htext
        · rintro rfl
          exact Text.toBytes_of_ofBytes? htext
      simp [hlooks, hbits, isBitsCode_iff]

theorem readBits_of_digits {codes : List (List Char)}
    (hdigits : ∀ code ∈ codes, code = [] ∨ EightDigits code) (number : Nat)
    (found : Array UInt8) :
    readBits number found codes =
      .ok (found.toList ++ (codes.filter (· ≠ [])).map bitsValue) := by
  induction codes generalizing number found with
  | nil => rw [readBits, List.filter_nil, List.map_nil, List.append_nil]
  | cons code rest ih =>
      have hrest := fun other hmem => hdigits other (List.mem_cons_of_mem code hmem)
      rcases hdigits code List.mem_cons_self with rfl | hcode
      · exact ih hrest (number + 1) found
      · simp [readBits, hcode.ne_nil, isBitsCode_iff.2 hcode, ih hrest]

theorem eight_mul_length_le {codes : List (List Char)}
    (hdigits : ∀ code ∈ codes, code = [] ∨ EightDigits code) :
    8 * (codes.filter (· ≠ [])).length ≤ (codes.map List.length).sum := by
  induction codes with
  | nil => exact Nat.le_refl 0
  | cons code rest ih =>
      have hrest := ih fun other hmem => hdigits other (List.mem_cons_of_mem code hmem)
      rw [List.map_cons, List.sum_cons]
      rcases hdigits code List.mem_cons_self with rfl | hcode
      · exact Nat.le_trans hrest (Nat.le_add_left _ _)
      · have hlength := hcode.1
        rw [List.filter_cons_of_pos (by simpa using hcode.ne_nil), List.length_cons]
        omega

theorem ofBytes_of_length_le {bytes : List UInt8} (hsize : bytes.length ≤ 2048) :
    ofBytes bytes = .ok ⟨bytes, none, hsize⟩ := by
  simp only [ofBytes, ofBytes?, hsize, dif_pos]

/-- A bits text is read as bits; these are some bytes, at most one for every eight. -/
theorem exists_parse_bitsText_eq {text : String} (hbits : BitsText text)
    (hsize : (Text.toBytes text).length ≤ 2048) :
    ∃ loaded, parse .auto (Text.toBytes text) = .ok loaded ∧ loaded.bytes ≠ [] ∧
      8 * loaded.bytes.length ≤ (Text.toBytes text).length := by
  have hdetect : ImageFormat.detect .auto (Text.toBytes text) = .bits :=
    if_pos (looksLikeBits_iff.2 ⟨text, rfl, hbits⟩)
  obtain ⟨code, hmem, hne⟩ := hbits.nonblank
  have hread := readBits_of_digits hbits.digits 1 #[]
  have hlength := eight_mul_length_le hbits.digits
  have hcodes := sum_length_bitsCodes_le text
  have htext := Text.length_le_length_toBytes text
  set codes := (bitsCodes text).filter (· ≠ []) with hfilter
  have hcount : (codes.map bitsValue).length = codes.length := List.length_map _
  have hsmall : (codes.map bitsValue).length ≤ 2048 := by omega
  refine ⟨⟨codes.map bitsValue, none, hsmall⟩, ?_, ?_, ?_⟩
  · simp only [parse, hdetect, Text.ofBytes?_toBytes, ofBits, hread]
    exact ofBytes_of_length_le hsmall
  · have hcode : code ∈ codes := List.mem_filter.2 ⟨hmem, decide_eq_true hne⟩
    exact List.ne_nil_of_mem (List.mem_map_of_mem hcode)
  · show 8 * (codes.map bitsValue).length ≤ _
    omega

/--
An image that is saved as bytes can always be read back without naming the format, and has the
same bytes then unless they are a bits text.
-/
theorem parse_saved (image : Image) :
    ∃ loaded, parse .auto (image.contents .binary) = .ok loaded ∧
      (loaded.bytes = image.bytes ↔
        ¬∃ text, Text.toBytes text = image.bytes ∧ BitsText text) := by
  show ∃ loaded, parse .auto image.bytes = .ok loaded ∧ _
  by_cases hlooks : ∃ text, Text.toBytes text = image.bytes ∧ BitsText text
  · obtain ⟨text, htext, hbits⟩ := hlooks
    have hsize := image.length_bytes
    rw [← htext] at hsize
    obtain ⟨loaded, hparse, hne, hshort⟩ := exists_parse_bitsText_eq hbits hsize
    rw [htext] at hparse hshort
    refine ⟨loaded, hparse, ?_⟩
    -- Eight digits make one byte, so fewer bytes are read than there were.
    have hdiffers : loaded.bytes ≠ image.bytes := by
      intro hsame
      have hpos := List.length_pos_of_ne_nil hne
      rw [hsame] at hpos hshort
      omega
    exact iff_of_false hdiffers (not_not_intro ⟨text, htext, hbits⟩)
  · have hdetect : ImageFormat.detect .auto image.bytes = .binary :=
      if_neg (mt looksLikeBits_iff.1 hlooks)
    refine ⟨⟨image.bytes, none, image.length_bytes⟩, ?_, iff_of_true rfl hlooks⟩
    simp only [parse, hdetect]
    exact ofBytes_of_length_le image.length_bytes

/-- Four instructions whose bytes are eight times the digit zero. -/
theorem parse_saved_digits :
    ∃ image loaded,
      assemble "XNO r0 r6 r0\nXNO r0 r6 r0\nXNO r0 r6 r0\nXNO r0 r6 r0\n" = .ok image ∧
      image.bytes ≠ [] ∧ parse .auto (image.contents .binary) = .ok loaded ∧
      loaded.bytes ≠ image.bytes := by
  have hassemble : (assemble
      "XNO r0 r6 r0\nXNO r0 r6 r0\nXNO r0 r6 r0\nXNO r0 r6 r0\n").toOption.map Image.bytes =
        some (List.replicate 8 0x30) := by decide +kernel
  have hparse : (parse .auto (List.replicate 8 0x30)).toOption.map Image.bytes = some [0] := by
    decide +kernel
  obtain ⟨image, himage, hbytes⟩ := exists_of_map_toOption hassemble
  obtain ⟨loaded, hloaded, hzero⟩ := exists_of_map_toOption hparse
  refine ⟨image, loaded, himage, ?_, ?_, ?_⟩
  · rw [hbytes]
    decide
  · show parse .auto image.bytes = .ok loaded
    rw [hbytes]
    exact hloaded
  · rw [hbytes, hzero]
    decide

end Image

end Redstone

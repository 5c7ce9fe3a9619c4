import Redstone.Proofs.Image.Detect
import Redstone.Proofs.Text.Lines
import Redstone.Proofs.Text.Numeral

/-!
# Bits texts with annotations

The bits form of an image is read back as the image, and so is every text that comes from it by
inserting lines that say nothing, white space around the digits and comments behind them. Such a
text is also found out to be a bits text, unless it has no digits at all.
-/

namespace Redstone

namespace Image

/-! ## What may be inserted -/

/-- White space that stays within its line. -/
def Space (cs : List Char) : Prop :=
  ∀ c ∈ cs, Text.isBlank c = true ∧ c ≠ '\n'

instance (cs : List Char) : Decidable (Space cs) :=
  List.decidableBAll _ cs

/-- Nothing, or a semicolon and any text up to the end of the line. -/
inductive Comment : List Char → Prop where
  | none : Comment []
  | text {cs : List Char} (closed : '\n' ∉ cs) : Comment (';' :: cs)

/--
One text comes from another by inserting blank and comment lines, also at its end, white space
around what its lines say, and comments behind that.
-/
inductive Annotates : List Char → List Char → Prop where
  | done {space comment : List Char} (blank : Space space) (ends : Comment comment) :
      Annotates [] (space ++ comment)
  | insert {plain space comment rest : List Char} (blank : Space space) (ends : Comment comment)
      (next : Annotates plain rest) : Annotates plain (space ++ comment ++ '\n' :: rest)
  | line {code plain before after comment rest : List Char} (closed : '\n' ∉ code)
      (front : Space before) (back : Space after) (ends : Comment comment)
      (next : Annotates plain rest) :
      Annotates (code ++ '\n' :: plain) (before ++ code ++ after ++ comment ++ '\n' :: rest)

variable {space comment code before after : List Char}

theorem space_nil : Space [] := by
  decide

theorem Space.no_lineFeed (blank : Space space) : '\n' ∉ space :=
  fun member => (blank '\n' member).2 rfl

theorem Space.isBlank (blank : Space space) : ∀ c ∈ space, Text.isBlank c = true :=
  fun c member => (blank c member).1

theorem Space.no_semicolon (blank : Space space) : ';' ∉ space := by
  intro member
  exact absurd (blank ';' member).1 (by decide)

theorem Comment.no_lineFeed (ends : Comment comment) : '\n' ∉ comment := by
  cases ends with
  | none => simp
  | text closed => simp [closed]

theorem Space.inserted_no_lineFeed (blank : Space space) (ends : Comment comment) :
    '\n' ∉ space ++ comment := by
  simp [blank.no_lineFeed, ends.no_lineFeed]

/-! ## What the lines say -/

theorem bitsCode_append_comment (hcode : ';' ∉ code) (ends : Comment comment) :
    bitsCode (code ++ comment) = Text.trimChars code := by
  have front : ∀ c ∈ code, (c != ';') = true := by
    intro c member
    rw [bne_iff_ne]
    rintro rfl
    exact hcode member
  rw [bitsCode, List.takeWhile_append_of_pos front]
  cases ends with
  | none => rw [List.takeWhile_nil, List.append_nil]
  | text closed => rw [List.takeWhile_cons_of_neg (by decide), List.append_nil]

/-- A carriage return at the end of a line does not count. -/
theorem bitsCode_dropReturn (line : List Char) : bitsCode (Text.dropReturn line) = bitsCode line := by
  unfold Text.dropReturn
  split
  · next hreturn =>
      obtain ⟨front, rfl⟩ := List.getLast?_eq_some_iff.1 hreturn
      rw [List.dropLast_concat, bitsCode, bitsCode, List.takeWhile_append]
      split
      · next hwhole =>
          have hsame := (List.takeWhile_prefix (l := front) (· != ';')).eq_of_length hwhole
          rw [hsame, List.takeWhile_cons_of_pos (by decide), List.takeWhile_nil,
            Text.trimChars_concat_blank front (by decide)]
      · rfl
  · rfl

theorem bitsCode_inserted (blank : Space space) (ends : Comment comment) :
    bitsCode (space ++ comment) = [] := by
  rw [bitsCode_append_comment blank.no_semicolon ends, Text.trimChars_of_blank blank.isBlank]

theorem EightDigits.no_lineFeed (digits : EightDigits code) : '\n' ∉ code := by
  intro member
  rcases digits.2 _ member with feed | feed <;> cases feed

theorem bitsCode_annotated (digits : EightDigits code) (front : Space before)
    (back : Space after) (ends : Comment comment) :
    bitsCode (before ++ code ++ after ++ comment) = code := by
  have plain : ∀ c ∈ code, Text.isBlank c = false ∧ c ≠ ';' := by
    intro c member
    rcases digits.2 c member with rfl | rfl <;> decide
  have hcode : ';' ∉ before ++ code ++ after := by
    simp only [List.mem_append, not_or]
    exact ⟨⟨front.no_semicolon, fun member => (plain ';' member).2 rfl⟩, back.no_semicolon⟩
  rw [bitsCode_append_comment hcode ends, Text.trimChars_append_blank _ back.isBlank,
    Text.trimChars_blank_append front.isBlank, Text.trimChars_eq_self]
  · exact fun c hhead => (plain c (List.mem_of_head? hhead)).1
  · exact fun c hlast => (plain c (List.mem_of_getLast? hlast)).1

/-! ## Bytes as digits -/

theorem eightDigits_binary8 (byte : UInt8) : EightDigits (Numeral.binary8 byte).toList := by
  have hsmall : (Nat.toDigits 2 byte.toNat).length ≤ 8 := by
    rw [Nat.length_toDigits_le_iff (by decide) (by decide)]
    exact byte.toNat_lt
  rw [Numeral.binary8, String.toList_ofList]
  constructor
  · rw [Numeral.digits, List.length_leftpad]
    omega
  · intro c member
    rw [Numeral.digits, List.leftpad, List.mem_append] at member
    rcases member with zero | digit
    · exact .inl (List.eq_of_mem_replicate zero)
    · obtain ⟨d, hlt, rfl⟩ := Numeral.exists_digit_of_mem_toDigits (by decide) digit
      obtain rfl | rfl : d = 0 ∨ d = 1 := by omega
      · exact .inl rfl
      · exact .inr rfl

theorem bitsValue_binary8 (byte : UInt8) : bitsValue (Numeral.binary8 byte).toList = byte := by
  rw [bitsValue, Numeral.binary8, String.toList_ofList,
    Numeral.value?_digits (by decide) (by decide), Option.getD_some, UInt8.ofNat_toNat]

/-! ## Reading an annotated text -/

def bitsChars (bytes : List UInt8) : List Char :=
  bytes.flatMap fun byte => (Numeral.binary8 byte).toList ++ ['\n']

theorem bitsChars_cons (byte : UInt8) (bytes : List UInt8) :
    bitsChars (byte :: bytes) = (Numeral.binary8 byte).toList ++ '\n' :: bitsChars bytes := by
  simp [bitsChars]

/-- Each line says nothing or eight digits, and those that say something say the bytes. -/
theorem Annotates.codes {bytes : List UInt8} {cs : List Char}
    (annotates : Annotates (bitsChars bytes) cs) :
    (∀ code ∈ (Text.lineChars cs).map bitsCode, code = [] ∨ EightDigits code) ∧
      (((Text.lineChars cs).map bitsCode).filter (· ≠ [])).map bitsValue = bytes := by
  generalize hplain : bitsChars bytes = plain at annotates
  induction annotates generalizing bytes with
  | @done space comment blank ends =>
      obtain rfl : bytes = [] := by
        cases bytes with
        | nil => rfl
        | cons byte bytes => simp [bitsChars_cons] at hplain
      have closed := blank.inserted_no_lineFeed ends
      have silent : ∀ code ∈ (Text.lineChars (space ++ comment)).map bitsCode, code = [] := by
        rw [Text.lineChars_of_no_lineFeed closed]
        split
        · exact nofun
        · simp [bitsCode_inserted blank ends]
      refine ⟨fun code member => .inl (silent code member), ?_⟩
      rw [List.filter_eq_nil_iff.2 (by simpa using silent), List.map_nil]
  | @insert plain space comment rest blank ends _ ih =>
      have closed := blank.inserted_no_lineFeed ends
      rw [Text.lineChars_append_lineFeed closed, List.map_cons, bitsCode_dropReturn,
        bitsCode_inserted blank ends]
      simpa using ih hplain
  | @line code plain before after comment rest closed front back ends _ ih =>
      cases bytes with
      | nil => simp [bitsChars] at hplain
      | cons byte bytes =>
          have digits := eightDigits_binary8 byte
          rw [bitsChars_cons] at hplain
          obtain ⟨rfl, hrest⟩ := Text.append_lineFeed_inj digits.no_lineFeed closed hplain
          obtain ⟨each, read⟩ := ih hrest
          have closed' : '\n' ∉ before ++ (Numeral.binary8 byte).toList ++ after ++ comment := by
            simp [front.no_lineFeed, back.no_lineFeed, ends.no_lineFeed, closed]
          rw [Text.lineChars_append_lineFeed closed', List.map_cons, bitsCode_dropReturn,
            bitsCode_annotated digits front back ends]
          refine ⟨List.forall_mem_cons.2 ⟨.inr digits, each⟩, ?_⟩
          rw [List.filter_cons_of_pos (by simpa using digits.ne_nil), List.map_cons, read,
            bitsValue_binary8]

theorem toList_toBits (image : Image) : image.toBits.toList = bitsChars image.bytes :=
  String.toList_ofList

theorem annotates_refl (bytes : List UInt8) : Annotates (bitsChars bytes) (bitsChars bytes) := by
  induction bytes with
  | nil => exact .done space_nil .none
  | cons byte bytes ih =>
      rw [bitsChars_cons]
      simpa using Annotates.line (eightDigits_binary8 byte).no_lineFeed space_nil space_nil .none ih

def LoadsAs (format : ImageFormat) (contents bytes : List UInt8) : Prop :=
  ∃ loaded, parse format contents = .ok loaded ∧ loaded.bytes = bytes

theorem ofBits_of_annotates {image : Image} {text : String}
    (annotates : Annotates image.toBits.toList text.toList) :
    ofBits text = .ok ⟨image.bytes, none, image.length_bytes⟩ := by
  rw [toList_toBits] at annotates
  obtain ⟨digits, read⟩ := annotates.codes
  simp only [ofBits, bitsCodes, readBits_of_digits digits, read]
  exact ofBytes_of_length_le image.length_bytes

theorem loadsAs_bits {image : Image} {text : String}
    (annotates : Annotates image.toBits.toList text.toList) :
    LoadsAs .bits (Text.toBytes text) image.bytes := by
  refine ⟨⟨image.bytes, none, image.length_bytes⟩, ?_, rfl⟩
  simp only [parse, ImageFormat.detect, Text.ofBytes?_toBytes]
  exact ofBits_of_annotates annotates

/-- A text that holds some byte is found out to be a bits text. -/
theorem loadsAs_auto {image : Image} {text : String}
    (annotates : Annotates image.toBits.toList text.toList) (nonempty : image.bytes ≠ []) :
    LoadsAs .auto (Text.toBytes text) image.bytes := by
  have annotates' := annotates
  rw [toList_toBits] at annotates'
  obtain ⟨digits, read⟩ := annotates'.codes
  have bits : BitsText text := by
    refine ⟨?_, digits⟩
    by_contra silent
    have none : (bitsCodes text).filter (· ≠ []) = [] := by
      rw [List.filter_eq_nil_iff]
      intro code member nonblank
      exact silent ⟨code, member, of_decide_eq_true nonblank⟩
    have empty : image.bytes = [] := by
      rw [← read]
      exact congrArg (List.map bitsValue) none
    exact nonempty empty
  have hdetect : ImageFormat.detect .auto (Text.toBytes text) = .bits :=
    if_pos (looksLikeBits_iff.2 ⟨text, rfl, bits⟩)
  refine ⟨⟨image.bytes, none, image.length_bytes⟩, ?_, rfl⟩
  simp only [parse, hdetect, Text.ofBytes?_toBytes]
  exact ofBits_of_annotates annotates

/--
The bits form of an image is read back as its bytes, also from a file whose format is given as
bits or not at all. So is every text that comes from it by inserting blank lines, comments and
white space; only if there is no byte in it the format has to be named.
-/
theorem bits_lossless (image : Image) :
    (∃ loaded, ofBits image.toBits = .ok loaded ∧ loaded.bytes = image.bytes) ∧
    LoadsAs .bits (image.contents .bits) image.bytes ∧
    LoadsAs .auto (image.contents .bits) image.bytes ∧
    ∀ text : String, Annotates image.toBits.toList text.toList →
      LoadsAs .bits (Text.toBytes text) image.bytes ∧
        (image.bytes ≠ [] → LoadsAs .auto (Text.toBytes text) image.bytes) := by
  have same : Annotates image.toBits.toList image.toBits.toList := by
    rw [toList_toBits]
    exact annotates_refl image.bytes
  refine ⟨⟨_, ofBits_of_annotates same, rfl⟩, loadsAs_bits same, ?_, fun text annotates =>
    ⟨loadsAs_bits annotates, loadsAs_auto annotates⟩⟩
  by_cases nonempty : image.bytes = []
  · have empty : image.contents .bits = [] := by
      simp [contents, toBits, nonempty, Text.toBytes]
    rw [empty, nonempty]
    exact ⟨⟨[], none, by decide⟩, rfl, rfl⟩
  · exact loadsAs_auto same nonempty

/-- Two bytes with a heading, an empty line, indentation and remarks. -/
theorem bits_lossless_commented :
    ∃ image : Image, image.bytes = [1, 255] ∧
      Annotates image.toBits.toList
        "; two\n\n\t00000001 ; é\r\n\u300011111111\n ; end".toList ∧
      LoadsAs .auto (Text.toBytes "; two\n\n\t00000001 ; é\r\n\u300011111111\n ; end")
        [1, 255] := by
  have last : Annotates [] ([' '] ++ ';' :: " end".toList) :=
    .done (by decide) (.text (by decide))
  have second : Annotates ("11111111".toList ++ ['\n'])
      (['\u3000'] ++ "11111111".toList ++ [] ++ [] ++ '\n' :: ([' '] ++ ';' :: " end".toList)) :=
    .line (by decide) (by decide) space_nil .none last
  have first : Annotates ("00000001".toList ++ '\n' :: ("11111111".toList ++ ['\n'])) (['\t'] ++
      "00000001".toList ++ [' '] ++ ';' :: " é\r".toList ++ '\n' :: (['\u3000'] ++
        "11111111".toList ++ [] ++ [] ++ '\n' :: ([' '] ++ ';' :: " end".toList))) :=
    .line (by decide) (by decide) (by decide) (.text (by decide)) second
  have text := Annotates.insert space_nil (.text (by decide : '\n' ∉ " two".toList))
    (.insert space_nil .none first)
  have hplain : toBits ⟨[1, 255], none, by decide⟩ = "00000001\n11111111\n" := by decide +kernel
  have annotates : Annotates (toBits ⟨[1, 255], none, by decide⟩).toList
      "; two\n\n\t00000001 ; é\r\n\u300011111111\n ; end".toList := by
    rw [hplain]
    exact text
  exact ⟨_, rfl, annotates, ((bits_lossless _).2.2.2 _ annotates).2 (by decide)⟩

end Image

end Redstone

import Redstone.Proofs.Image.Annotated

/-!
# Which texts are bits texts

What a line of a text says can be told without trimming it, and what eight digits stand for without
reading them as a number. In these terms a text has a bits image if and only if its lines say
nothing or eight digits each and not too many of them say something; otherwise the first line that
says anything else is at fault, or the number of bytes. Contents that are taken for a bits text have
no line at fault.
-/

namespace Redstone

namespace Image

/-! ## What a line says -/

/--
A line says what stands in front of its first semicolon, without the white space in front of it and
behind it.
-/
structure Content (line code : List Char) : Prop where
  exists_split : ∃ before after comment, line = before ++ code ++ after ++ comment ∧
    (∀ c ∈ before, Text.isBlank c = true) ∧ (∀ c ∈ after, Text.isBlank c = true) ∧
    ∀ c ∈ comment.head?, c = ';'
  no_semicolon : ';' ∉ code
  head : ∀ c, code.head? = some c → Text.isBlank c = false
  last : ∀ c, code.getLast? = some c → Text.isBlank c = false

theorem content_bitsCode (line : List Char) : Content line (bitsCode line) := by
  obtain ⟨before, after, split, front, back⟩ :=
    Text.exists_append_trimChars (line.takeWhile (· != ';'))
  refine ⟨⟨before, after, line.dropWhile (· != ';'), ?_, front, back, ?_⟩, fun member => ?_,
    fun _ => Text.isBlank_of_head?_trimChars, fun _ => Text.isBlank_of_getLast?_trimChars⟩
  · rw [bitsCode, ← split, List.takeWhile_append_dropWhile]
  · intro c first
    have stops := List.head?_dropWhile_not (· != ';') line
    rw [Option.mem_def.1 first] at stops
    simpa using stops
  · have inside : ';' ∈ line.takeWhile (· != ';') := by
      rw [split]
      exact List.mem_append_left _ (List.mem_append_right _ member)
    exact absurd (List.mem_takeWhile_imp inside) (by decide)

theorem Content.bitsCode_eq {line code : List Char} (content : Content line code) :
    bitsCode line = code := by
  obtain ⟨⟨before, after, comment, rfl, front, back, ends⟩, plain, head, last⟩ := content
  have silent {space : List Char} (blank : ∀ c ∈ space, Text.isBlank c = true) : ';' ∉ space :=
    fun member => absurd (blank ';' member) (by decide)
  have kept : ∀ c ∈ before ++ code ++ after, (c != ';') = true := by
    intro c member
    rw [bne_iff_ne]
    rintro rfl
    simp [silent front, silent back, plain] at member
  have cut : comment.takeWhile (· != ';') = [] := by
    cases comment with
    | nil => rfl
    | cons c comment => exact List.takeWhile_cons_of_neg (by simp [ends c rfl])
  rw [bitsCode, List.takeWhile_append_of_pos kept, cut, List.append_nil,
    Text.trimChars_append_blank _ back, Text.trimChars_blank_append front,
    Text.trimChars_eq_self head last]

theorem forall₂_content_iff {lines codes : List (List Char)} :
    List.Forall₂ Content lines codes ↔ codes = lines.map bitsCode := by
  constructor
  · intro contents
    induction contents with
    | nil => rfl
    | cons first _ ih => rw [List.map_cons, first.bitsCode_eq, ih]
  · rintro rfl
    rw [List.forall₂_map_right_iff, List.forall₂_same]
    exact fun line _ => content_bitsCode line

/-! ## What digits stand for -/

def Shows (code : List Char) (byte : UInt8) : Prop :=
  code.length = 8 ∧
    ∀ i < 8, code[i]? = some (if byte.toNat.testBit (7 - i) then '1' else '0')

theorem exists_valueAfter?_eq {cs : List Char} (digits : ∀ c ∈ cs, c = '0' ∨ c = '1')
    (high : Nat) :
    ∃ value, Numeral.valueAfter? 2 high cs = some value ∧ value / 2 ^ cs.length = high ∧
      ∀ i < cs.length,
        cs[i]? = some (if value.testBit (cs.length - 1 - i) then '1' else '0') := by
  induction cs generalizing high with
  | nil => exact ⟨high, rfl, Nat.div_one high, nofun⟩
  | cons c cs ih =>
      obtain ⟨bit, small, read, written⟩ : ∃ bit < 2, Numeral.digitValue? 2 c = some bit ∧
          c = if bit = 1 then '1' else '0' := by
        rcases digits c List.mem_cons_self with rfl | rfl
        · exact ⟨0, by decide, by decide, rfl⟩
        · exact ⟨1, by decide, by decide, rfl⟩
      obtain ⟨value, reads, above, each⟩ :=
        ih (fun d member => digits d (List.mem_cons_of_mem c member)) (high * 2 + bit)
      refine ⟨value, ?_, ?_, ?_⟩
      · simp only [Numeral.valueAfter?, read, reads]
      · rw [List.length_cons, Nat.pow_succ, ← Nat.div_div_eq_div_mul, above]
        omega
      · intro i inside
        cases i with
        | zero =>
            have lowest : value.testBit cs.length = decide (bit = 1) := by
              rw [Nat.testBit_eq_decide_div_mod_eq, above]
              congr 1
              rw [eq_iff_iff]
              omega
            simp [lowest, written]
        | succ i =>
            have shorter : cs.length - (i + 1) = cs.length - 1 - i := by omega
            simpa [shorter] using each i (by simpa using inside)

theorem EightDigits.shows {code : List Char} (digits : EightDigits code) :
    Shows code (bitsValue code) := by
  obtain ⟨value, reads, above, each⟩ := exists_valueAfter?_eq digits.2 0
  rw [digits.1] at above each
  have small : value < 256 := by omega
  have nonempty : code.isEmpty = false := by simpa using digits.ne_nil
  have byte : (bitsValue code).toNat = value := by
    rw [bitsValue, Numeral.value?, nonempty, if_neg Bool.false_ne_true, reads, Option.getD_some,
      UInt8.toNat_ofNat', Nat.mod_eq_of_lt small]
  refine ⟨digits.1, ?_⟩
  rw [byte]
  exact each

/-! ## Lines at fault -/

def Sound (code : List Char) : Prop :=
  code = [] ∨ EightDigits code

def said (codes : List (List Char)) : List (List Char) :=
  codes.filter (· ≠ [])

/-- The first line that is not sound, counted from 1, and what it says. -/
def FirstFault (codes : List (List Char)) (number : Nat) (code : List Char) : Prop :=
  ∃ front back, codes = front ++ code :: back ∧ number = front.length + 1 ∧
    (∀ other ∈ front, Sound other) ∧ ¬ Sound code

theorem sound_or_firstFault (codes : List (List Char)) :
    (∀ code ∈ codes, Sound code) ∨ ∃ number code, FirstFault codes number code := by
  induction codes with
  | nil => exact .inl nofun
  | cons code codes ih =>
      by_cases sound : Sound code
      · refine ih.imp (fun rest => List.forall_mem_cons.2 ⟨sound, rest⟩) ?_
        rintro ⟨number, fault, front, back, rfl, -, before, bad⟩
        exact ⟨_, fault, code :: front, back, rfl, rfl,
          List.forall_mem_cons.2 ⟨sound, before⟩, bad⟩
      · exact .inr ⟨1, code, [], codes, rfl, rfl, nofun, sound⟩

theorem FirstFault.not_sound {codes : List (List Char)} {number : Nat} {code : List Char}
    (fault : FirstFault codes number code) : ¬ ∀ code ∈ codes, Sound code := by
  obtain ⟨front, back, rfl, -, -, bad⟩ := fault
  exact fun sound => bad (sound code (by simp))

theorem readBits_of_not_sound {front back : List (List Char)} {code : List Char}
    (before : ∀ other ∈ front, Sound other) (bad : ¬ Sound code) (number : Nat)
    (found : Array UInt8) :
    readBits number found (front ++ code :: back) =
      .error (.badBitsLine (number + front.length) (String.ofList code)) := by
  induction front generalizing number found with
  | nil =>
      obtain ⟨some, other⟩ := not_or.1 bad
      have nonempty : code.isEmpty = false := by simpa using some
      have digits : isBitsCode code = false := by
        rw [← Bool.not_eq_true, isBitsCode_iff]
        exact other
      simp [readBits, nonempty, digits]
  | cons first front ih =>
      obtain ⟨sound, behind⟩ := List.forall_mem_cons.1 before
      have next : number + 1 + front.length = number + (first :: front).length := by
        rw [List.length_cons]
        omega
      rw [← next, List.cons_append, readBits]
      rcases sound with rfl | digits
      · exact ih behind (number + 1) found
      · simp only [List.isEmpty_iff, digits.ne_nil, if_false, isBitsCode_iff.2 digits, if_true]
        exact ih behind (number + 1) _

theorem FirstFault.readBits_eq {codes : List (List Char)} {number : Nat} {code : List Char}
    (fault : FirstFault codes number code) :
    readBits 1 #[] codes = .error (.badBitsLine number (String.ofList code)) := by
  obtain ⟨front, back, rfl, rfl, before, bad⟩ := fault
  rw [readBits_of_not_sound before bad, Nat.add_comm]

/-- There is one line at most that is the first at fault, and reading finds it. -/
theorem FirstFault.unique {codes : List (List Char)} {number number' : Nat}
    {code code' : List Char} (fault : FirstFault codes number code)
    (fault' : FirstFault codes number' code') : number = number' ∧ code = code' := by
  have same := fault.readBits_eq.symm.trans fault'.readBits_eq
  injection same with same
  injection same with numbers texts
  exact ⟨numbers, String.ofList_injective texts⟩

theorem ofBits_of_firstFault {text : String} {number : Nat} {code : List Char}
    (fault : FirstFault (bitsCodes text) number code) :
    ofBits text = .error (.badBitsLine number (String.ofList code)) := by
  rw [ofBits, fault.readBits_eq]

theorem ofBits_of_sound {text : String} (sound : ∀ code ∈ bitsCodes text, Sound code) :
    ofBits text = ofBytes ((said (bitsCodes text)).map bitsValue) := by
  have read := readBits_of_digits sound 1 #[]
  rw [ofBits, read]
  rfl

theorem ofBytes_cases (bytes : List UInt8) :
    (∃ small : bytes.length ≤ 2048, ofBytes bytes = .ok ⟨bytes, none, small⟩) ∨
      2048 < bytes.length ∧ ofBytes bytes = .error (.tooLarge bytes.length) := by
  by_cases small : bytes.length ≤ 2048
  · exact .inl ⟨small, ofBytes_of_length_le small⟩
  · refine .inr ⟨Nat.lt_of_not_le small, ?_⟩
    rw [ofBytes, ofBytes?, dif_neg small]

/-! ## What comes out -/

inductive Gives (codes : List (List Char)) : Except ImageError Image → Prop where
  | image {image : Image} (sound : ∀ code ∈ codes, Sound code) (layout : image.layout = none)
      (bytes : List.Forall₂ Shows (said codes) image.bytes) : Gives codes (.ok image)
  | tooLarge (sound : ∀ code ∈ codes, Sound code) (large : 2048 < (said codes).length) :
      Gives codes (.error (.tooLarge (said codes).length))
  | fault {number : Nat} {code : List Char} (first : FirstFault codes number code) :
      Gives codes (.error (.badBitsLine number (String.ofList code)))

theorem gives_ofBits (text : String) : Gives (bitsCodes text) (ofBits text) := by
  rcases sound_or_firstFault (bitsCodes text) with sound | ⟨number, code, first⟩
  · rw [ofBits_of_sound sound]
    rcases ofBytes_cases ((said (bitsCodes text)).map bitsValue) with ⟨small, fits⟩ | ⟨large, fails⟩
    · rw [fits]
      refine .image sound rfl (List.forall₂_map_right_iff.2 (List.forall₂_same.2 ?_))
      intro code member
      obtain ⟨inside, nonempty⟩ := List.mem_filter.1 member
      have digits := (sound code inside).resolve_left (of_decide_eq_true nonempty)
      exact digits.shows
    · rw [List.length_map] at large fails
      rw [fails]
      exact .tooLarge sound large
  · rw [ofBits_of_firstFault first]
    exact .fault first

namespace Gives

variable {codes : List (List Char)} {result : Except ImageError Image}

theorem exists_image_iff (gives : Gives codes result) :
    (∃ image, result = .ok image) ↔
      (∀ code ∈ codes, Sound code) ∧ (said codes).length ≤ 2048 := by
  cases gives with
  | @image image sound _ bytes =>
      have small : (said codes).length ≤ 2048 := bytes.length_eq ▸ image.length_bytes
      exact iff_of_true ⟨image, rfl⟩ ⟨sound, small⟩
  | tooLarge _ large => exact iff_of_false nofun fun ⟨_, small⟩ => by omega
  | fault first => exact iff_of_false nofun fun ⟨sound, _⟩ => first.not_sound sound

theorem eq_badBitsLine_iff (gives : Gives codes result) {number : Nat} {text : String} :
    result = .error (.badBitsLine number text) ↔ FirstFault codes number text.toList := by
  cases gives with
  | image sound _ _ => exact iff_of_false nofun fun first => first.not_sound sound
  | tooLarge sound _ => exact iff_of_false nofun fun first => first.not_sound sound
  | fault first =>
      constructor
      · rintro ⟨⟩
        rwa [String.toList_ofList]
      · intro other
        obtain ⟨rfl, same⟩ := first.unique other
        rw [same, String.ofList_toList]

theorem eq_tooLarge_iff (gives : Gives codes result) {size : Nat} :
    result = .error (.tooLarge size) ↔
      (∀ code ∈ codes, Sound code) ∧ size = (said codes).length ∧ 2048 < size := by
  cases gives with
  | @image image _ _ bytes =>
      have small : (said codes).length ≤ 2048 := bytes.length_eq ▸ image.length_bytes
      exact iff_of_false nofun fun ⟨_, same, large⟩ => by omega
  | tooLarge sound large =>
      constructor
      · rintro ⟨⟩
        exact ⟨sound, rfl, large⟩
      · rintro ⟨-, rfl, -⟩
        rfl
  | fault first => exact iff_of_false nofun fun ⟨sound, _⟩ => first.not_sound sound

end Gives

/-- Contents that look like bits are a text with nothing at fault in it, and read as one. -/
theorem exists_text_of_looksLikeBits {contents : List UInt8}
    (looks : ImageFormat.looksLikeBits contents = true) :
    ∃ text, Text.toBytes text = contents ∧ (∀ code ∈ bitsCodes text, Sound code) ∧
      parse .auto contents = ofBits text := by
  obtain ⟨text, rfl, bits⟩ := looksLikeBits_iff.1 looks
  have detected : ImageFormat.detect .auto (Text.toBytes text) = .bits := if_pos looks
  refine ⟨text, rfl, bits.digits, ?_⟩
  simp only [parse, detected, Text.ofBytes?_toBytes]

/--
A text has a bits image if and only if each line says nothing or eight binary digits and at most
2048 lines say something; the image consists of the bytes that these show. If some line says
anything else the first of them is at fault, also if there are too many lines, and if none does the
number of bytes is. Contents of an unknown format are taken for bits or for bytes, and neither way
anything but their size can be at fault then.
-/
theorem bits_language :
    (∀ text : String, ∃ codes, List.Forall₂ Content (Text.lineChars text.toList) codes ∧
      ((∃ image, ofBits text = .ok image) ↔
        (∀ code ∈ codes, Sound code) ∧ (said codes).length ≤ 2048) ∧
      (∀ image, ofBits text = .ok image →
        image.layout = none ∧ List.Forall₂ Shows (said codes) image.bytes) ∧
      (∀ number found, ofBits text = .error (.badBitsLine number found) ↔
        FirstFault codes number found.toList) ∧
      ∀ size, ofBits text = .error (.tooLarge size) ↔
        (∀ code ∈ codes, Sound code) ∧ size = (said codes).length ∧ 2048 < size) ∧
    ∀ contents : List UInt8,
      (ImageFormat.detect .auto contents = .bits ∧
        (∃ text, Text.toBytes text = contents ∧ parse .auto contents = ofBits text) ∧
        ((∃ image, parse .auto contents = .ok image) ∨
          ∃ size, parse .auto contents = .error (.tooLarge size))) ∨
      ImageFormat.detect .auto contents = .binary ∧
        ((∃ image, parse .auto contents = .ok image ∧ image.layout = none ∧
            image.bytes = contents) ∨
          parse .auto contents = .error (.tooLarge contents.length)) := by
  constructor
  · intro text
    have gives := gives_ofBits text
    refine ⟨bitsCodes text, forall₂_content_iff.2 rfl, gives.exists_image_iff, ?_,
      fun _ _ => gives.eq_badBitsLine_iff, fun _ => gives.eq_tooLarge_iff⟩
    intro image read
    rw [read] at gives
    cases gives with
    | image _ layout bytes => exact ⟨layout, bytes⟩
  · intro contents
    cases looks : ImageFormat.looksLikeBits contents with
    | true =>
        have detected : ImageFormat.detect .auto contents = .bits := if_pos looks
        obtain ⟨text, same, sound, read⟩ := exists_text_of_looksLikeBits looks
        refine .inl ⟨detected, ⟨text, same, read⟩, ?_⟩
        rw [read, ofBits_of_sound sound]
        rcases ofBytes_cases ((said (bitsCodes text)).map bitsValue) with
          ⟨small, fits⟩ | ⟨large, fails⟩
        · exact .inl ⟨_, fits⟩
        · exact .inr ⟨_, fails⟩
    | false =>
        have detected : ImageFormat.detect .auto contents = .binary := if_neg (by simp [looks])
        have read : parse .auto contents = ofBytes contents := by simp only [parse, detected]
        refine .inr ⟨detected, ?_⟩
        rw [read]
        rcases ofBytes_cases contents with ⟨small, fits⟩ | ⟨large, fails⟩
        · exact .inl ⟨_, fits, rfl, rfl⟩
        · exact .inr fails

end Image

end Redstone

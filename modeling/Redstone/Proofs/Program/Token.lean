import Redstone.Assembly.Token
import Redstone.Proofs.Program.Literal

/-!
# Words of a line

A word holds nothing that ends a token or starts a comment: read up to a separator or the end of
the line, it is one token, and the scan goes on behind it. The code of a line goes on up to its
first semicolon that is no quoted character. A number in decimal digits is a word and is read as
an operand again.
-/

namespace Redstone

namespace Token

/-! ## Words -/

structure IsWord (cs : List Char) : Prop where
  nonempty : cs ≠ []
  unquoted : cs.head? ≠ some '\''
  plain : ∀ c ∈ cs, isSeparator c = false ∧ c ≠ ';'

theorem isWord_iff {cs : List Char} : IsWord cs ↔
    cs ≠ [] ∧ cs.head? ≠ some '\'' ∧ cs.all fun c => !isSeparator c && c != ';' := by
  simp only [List.all_eq_true, Bool.and_eq_true, Bool.not_eq_true', bne_iff_ne]
  exact ⟨fun ⟨nonempty, unquoted, plain⟩ => ⟨nonempty, unquoted, plain⟩,
    fun ⟨nonempty, unquoted, plain⟩ => ⟨nonempty, unquoted, plain⟩⟩

instance (cs : List Char) : Decidable (IsWord cs) :=
  decidable_of_iff' _ isWord_iff

theorem IsWord.of_written {text : String} (written : Text.Written text) : IsWord text.toList where
  nonempty := written.1
  unquoted := fun h => absurd (written.2 _ (List.mem_of_head? h)) (by decide)
  plain := by
    intro c member
    have halnum := written.2 c member
    have hcomma : c ≠ ',' := Text.ne_of_isAlphanum halnum (by decide)
    refine ⟨?_, Text.ne_of_isAlphanum halnum (by decide)⟩
    simp [isSeparator, Text.isAsciiBlank_eq_false_of_isAlphanum halnum, hcomma]

/-- In an open word an apostrophe is a character like all others. -/
theorem scan_cons_of_open {c : Char} (hplain : isSeparator c = false) (start column : Nat)
    {word : List Char} (hopen : word ≠ []) (found : List Token) (rest : List Char) :
    scan start column word found (c :: rest) =
      scan start (column + c.utf8Size) (c :: word) found rest := by
  have hword : word.isEmpty = false := by simpa using hopen
  rw [scan.eq_def]
  split
  · contradiction
  · next d tail heq =>
      cases heq
      simp only [hword, Bool.false_and, Bool.false_eq_true, if_false]
      rfl
  · next heq =>
      cases heq
      simp only [hplain, Bool.false_eq_true, if_false]

theorem scan_append_of_open {cs : List Char} (hplain : ∀ c ∈ cs, isSeparator c = false)
    (start column : Nat) {word : List Char} (hopen : word ≠ []) (found : List Token)
    (rest : List Char) :
    ∃ column', scan start column word found (cs ++ rest) =
      scan start column' (cs.reverse ++ word) found rest := by
  induction cs generalizing column word with
  | nil => exact ⟨column, rfl⟩
  | cons c cs ih =>
      obtain ⟨column', hrest⟩ := ih (fun d hd => hplain d (List.mem_cons_of_mem c hd))
        (column + c.utf8Size) (List.cons_ne_nil c word)
      refine ⟨column', ?_⟩
      rw [List.cons_append, scan_cons_of_open (hplain c List.mem_cons_self) _ _ hopen, hrest]
      simp

theorem scan_cons_of_unquoted {c : Char} (hplain : isSeparator c = false) (hquote : c ≠ '\'')
    (start column : Nat) (word : List Char) (found : List Token) (rest : List Char) :
    scan start column word found (c :: rest) =
      scan start (column + c.utf8Size) (c :: word) found rest := by
  rw [scan.eq_def]
  split
  · contradiction
  · next d tail heq =>
      cases heq
      exact absurd rfl hquote
  · next heq =>
      cases heq
      simp only [hplain, Bool.false_eq_true, if_false]

theorem scan_cons_of_blank (start column : Nat) (word : List Char) (found : List Token)
    (rest : List Char) :
    scan start column word found (' ' :: rest) =
      scan (column + 1) (column + 1) [] (close start word found) rest := by
  rw [scan.eq_def]
  split
  · contradiction
  · next heq => cases heq
  · next heq =>
      cases heq
      rfl

/-- A word at the start of a token is read to its end. -/
theorem IsWord.scan_append {word : List Char} (isWord : IsWord word) (start column : Nat)
    (found : List Token) (rest : List Char) :
    ∃ column', scan start column [] found (word ++ rest) =
      scan start column' word.reverse found rest := by
  obtain ⟨nonempty, unquoted, plain⟩ := isWord
  cases word with
  | nil => exact absurd rfl nonempty
  | cons c cs =>
      have hquote : c ≠ '\'' := fun h => unquoted (congrArg some h)
      obtain ⟨column', hrest⟩ := scan_append_of_open
        (fun d hd => (plain d (List.mem_cons_of_mem c hd)).1) start (column + c.utf8Size)
        (List.cons_ne_nil c []) found rest
      refine ⟨column', ?_⟩
      rw [List.cons_append, scan_cons_of_unquoted (plain c List.mem_cons_self).1 hquote, hrest]
      simp

theorem IsWord.close_reverse {word : List Char} (isWord : IsWord word) (start : Nat)
    (found : List Token) :
    close start word.reverse found = ⟨String.ofList word, start⟩ :: found := by
  have hopen : word.reverse.isEmpty = false := by simpa using isWord.nonempty
  rw [close, hopen, List.reverse_reverse]
  rfl

theorem mem_intercalate {words : List (List Char)} {c : Char}
    (member : c ∈ [' '].intercalate words) : c = ' ' ∨ ∃ word ∈ words, c ∈ word := by
  induction words with
  | nil => cases member
  | cons word words ih =>
      cases words with
      | nil =>
          rw [List.intercalate_singleton] at member
          exact .inr ⟨word, List.mem_cons_self, member⟩
      | cons next words =>
          rw [List.intercalate_cons_cons, List.mem_append, List.mem_append,
            List.mem_singleton] at member
          rcases member with (inside | rfl) | behind
          · exact .inr ⟨word, List.mem_cons_self, inside⟩
          · exact .inl rfl
          · refine (ih behind).imp_right fun ⟨other, member, inside⟩ => ?_
            exact ⟨other, List.mem_cons_of_mem word member, inside⟩

/-! ## Where the comment starts -/

theorem codeLength_add (kept more : Nat) (cs : List Char) :
    codeLength (more + kept) cs = more + codeLength kept cs := by
  fun_induction codeLength kept cs with
  | case1 kept => rfl
  | case2 kept c rest ascii ih => rw [codeLength, if_pos ascii, Nat.add_assoc, ih]
  | case3 kept c rest ascii ih => rw [codeLength, if_neg ascii, Nat.add_assoc, ih]
  | case4 kept rest other => rw [codeLength, if_pos rfl]; exact other
  | case5 kept c rest other plain ih =>
      rw [codeLength, if_neg plain, Nat.add_assoc, ih]
      exact other

theorem codeChars_eq_of_codeLength {front rest cs : List Char}
    (h : codeLength 0 cs = codeLength front.length rest) (split : cs = front ++ rest) :
    codeChars cs = front ++ codeChars rest := by
  have behind : codeLength front.length rest = front.length + codeLength 0 rest :=
    codeLength_add 0 front.length rest
  rw [codeChars, h, behind, split, List.take_length_add_append]
  rfl

theorem codeChars_quoted_append {c : Char} (ascii : isAscii c = true) (rest : List Char) :
    codeChars (quoted c ++ rest) = quoted c ++ codeChars rest := by
  refine codeChars_eq_of_codeLength ?_ rfl
  show codeLength 0 ('\'' :: c :: '\'' :: rest) = codeLength 3 rest
  rw [codeLength, if_pos ascii]

/-- A character that begins neither a comment nor a quote belongs to the code. -/
theorem codeChars_cons {c : Char} {rest : List Char} (plain : c ≠ ';')
    (unquoted : ∀ d tail, c = '\'' → rest = d :: '\'' :: tail → isAscii d = false) :
    codeChars (c :: rest) = c :: codeChars rest := by
  have step : codeLength 0 (c :: rest) = codeLength [c].length rest := by
    rw [codeLength.eq_def]
    split
    · contradiction
    · next d tail split =>
        obtain ⟨rfl, rfl⟩ := List.cons.inj split
        rw [unquoted d tail rfl rfl]
        rfl
    · next split =>
        obtain ⟨rfl, rfl⟩ := List.cons.inj split
        rw [if_neg plain]
        rfl
  exact codeChars_eq_of_codeLength step rfl

end Token

/-! ## Numbers -/

theorem Literal.value?_toString {n : Nat} (hrange : n < 0x8000000000000000) :
    value? (toString n) = .ok (some (n : Int)) := by
  have amount : Numeral.AmountsTo 10 (toString n).toList n := by
    rw [Numeral.toList_toString]
    exact (Numeral.value?_eq_some_iff (by decide)).1 (Numeral.value?_toDigits n)
  have fits : Fits n := by
    unfold Fits
    omega
  exact valueOf?_eq_ok_some_iff.2 ⟨.plain (.decimal amount) fits, fits⟩

theorem Operand.ofText_toString {n : Nat} (hrange : n < 0x8000000000000000) :
    ofText (toString n) = .ok (.literal n) := by
  have hquote : Literal.character? (toString n) = none := by
    unfold Literal.character? Literal.charCode?
    split
    · next c hcs =>
        have hmember : '\'' ∈ (toString n).toList := by
          rw [hcs]
          exact List.mem_cons_self
        exact absurd (Numeral.isDigit_of_mem_toString hmember) (by decide)
    · rfl
  simp only [ofText, hquote, Literal.value?_toString hrange]

end Redstone

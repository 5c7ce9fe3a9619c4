import Redstone.Proofs.Program.Tiling
import Redstone.Proofs.Text.Lines

/-!
# A line in pieces

A line is its code and a comment. The code ends in front of the first semicolon that no quoted
character holds, and it consists of tokens and the gaps between them: each character is in exactly
one of these, and a gap holds separators only. The column of a token is the number of bytes that all
pieces before it take, so a token can be cut out of the bytes of its line again.
-/

namespace Redstone

namespace Text

theorem toBytes_append (first second : String) :
    toBytes (first ++ second) = toBytes first ++ toBytes second := by
  rw [toBytes_eq_flatMap, String.toList_append, List.flatMap_append, ← toBytes_eq_flatMap,
    ← toBytes_eq_flatMap]

theorem length_toBytes (text : String) : (toBytes text).length = text.utf8ByteSize := rfl

end Text

namespace Token

/-! ## Code and comment -/

/-- Every semicolon has an apostrophe on each side. -/
def SemicolonsQuoted (cs : List Char) : Prop :=
  ∀ before after, cs = before ++ ';' :: after →
    before.getLast? = some '\'' ∧ after.head? = some '\''

namespace SemicolonsQuoted

variable {rest : List Char}

theorem nil : SemicolonsQuoted [] := by
  intro before after split
  exact absurd split.symm (List.append_ne_nil_of_right_ne_nil before (List.cons_ne_nil _ _))

theorem cons {c : Char} (plain : c ≠ ';') (behind : SemicolonsQuoted rest) :
    SemicolonsQuoted (c :: rest) := by
  intro before after split
  cases before with
  | nil => exact absurd (List.cons.inj split).1 plain
  | cons d before =>
      obtain ⟨hlast, hnext⟩ := behind before after (List.cons.inj split).2
      rw [List.getLast?_cons, hlast]
      exact ⟨rfl, hnext⟩

theorem quoted_append (c : Char) (behind : SemicolonsQuoted rest) :
    SemicolonsQuoted (quoted c ++ rest) := by
  intro before after split
  match before with
  | [] => exact absurd (List.cons.inj split).1 (by decide)
  | [d] =>
      obtain ⟨rfl, hrest⟩ := List.cons.inj split
      obtain ⟨-, rfl⟩ := List.cons.inj hrest
      exact ⟨rfl, rfl⟩
  | d :: e :: before =>
      have hrest := (List.cons.inj (List.cons.inj split).2).2
      obtain ⟨hlast, hnext⟩ := behind.cons (c := '\'') (by decide) before after hrest
      rw [List.getLast?_cons, List.getLast?_cons, hlast]
      exact ⟨rfl, hnext⟩

end SemicolonsQuoted

/-- Behind the code there is nothing, or a semicolon that no quoted character holds. -/
theorem codeChars_cases (cs : List Char) :
    SemicolonsQuoted (codeChars cs) ∧
      ∃ comment, cs = codeChars cs ++ comment ∧ ∀ c ∈ comment.head?, c = ';' := by
  suffices all : ∀ kept : Nat, SemicolonsQuoted (codeChars cs) ∧
      ∃ comment, cs = codeChars cs ++ comment ∧ ∀ c ∈ comment.head?, c = ';' from all 0
  intro kept
  fun_induction codeLength kept cs with
  | case1 kept => exact ⟨.nil, [], rfl, by simp⟩
  | case2 kept c rest ascii ih =>
      obtain ⟨enclosed, comment, split, starts⟩ := ih
      have front : codeChars ('\'' :: c :: '\'' :: rest) = quoted c ++ codeChars rest :=
        codeChars_quoted_append ascii rest
      rw [front]
      exact ⟨enclosed.quoted_append c, comment, congrArg (quoted c ++ ·) split, starts⟩
  | case3 kept c rest wide ih =>
      obtain ⟨enclosed, comment, split, starts⟩ := ih
      have front : codeChars ('\'' :: c :: '\'' :: rest) =
          '\'' :: codeChars (c :: '\'' :: rest) :=
        codeChars_cons (by decide) fun d tail _ same => by
          rw [← (List.cons.inj same).1]
          exact Bool.eq_false_iff.2 wide
      rw [front]
      exact ⟨enclosed.cons (by decide), comment, congrArg ('\'' :: ·) split, starts⟩
  | case4 kept rest other =>
      have stop : codeChars (';' :: rest) = [] := by
        rw [codeChars, codeLength, if_pos rfl, List.take_zero]
        exact other
      rw [stop]
      refine ⟨.nil, ';' :: rest, rfl, ?_⟩
      rintro c ⟨⟩
      rfl
  | case5 kept c rest other plain ih =>
      obtain ⟨enclosed, comment, split, starts⟩ := ih
      have front : codeChars (c :: rest) = c :: codeChars rest :=
        codeChars_cons plain fun d tail hc hrest => (other d tail hc hrest).elim
      rw [front]
      exact ⟨enclosed.cons plain, comment, congrArg (c :: ·) split, starts⟩

/-! ## Tokens and gaps -/

def IsQuoted (token : Token) : Prop :=
  ∃ c, isAscii c = true ∧ token.text.toList = quoted c

/-- The characters of a first gap and of tokens, each with the gap behind it. -/
def weave (first : List Char) (pieces : List (Token × List Char)) : List Char :=
  first ++ pieces.flatMap fun piece => piece.1.text.toList ++ piece.2

theorem weave_cons (first : List Char) (token : Token) (gap : List Char)
    (pieces : List (Token × List Char)) :
    weave first ((token, gap) :: pieces) = first ++ token.text.toList ++ weave gap pieces := by
  rw [weave, weave, List.flatMap_cons, List.append_assoc, List.append_assoc]

/-- Code from a column on consists of tokens and of gaps, which hold separators. -/
structure Cuts (column : Nat) (cs first : List Char) (pieces : List (Token × List Char)) :
    Prop where
  chars_eq : cs = weave first pieces
  first_separates : ∀ c ∈ first, isSeparator c = true
  separates : ∀ piece ∈ pieces, ∀ c ∈ piece.2, isSeparator c = true
  column_eq : ∀ before token gap after, pieces = before ++ (token, gap) :: after →
    token.column = column + byteSize (weave first before)
  /-- Only behind a quoted character there may be no gap. -/
  touches : ∀ before token next after, pieces = before ++ (token, []) :: next :: after →
    token.IsQuoted

namespace Cuts

variable {column : Nat} {rest first : List Char} {pieces : List (Token × List Char)}

theorem nil : Cuts column [] [] [] where
  chars_eq := rfl
  first_separates := nofun
  separates := nofun
  column_eq before _ _ _ split :=
    absurd split.symm (List.append_ne_nil_of_right_ne_nil before (List.cons_ne_nil _ _))
  touches before _ _ _ split :=
    absurd split.symm (List.append_ne_nil_of_right_ne_nil before (List.cons_ne_nil _ _))

theorem separator {c : Char} (separates : isSeparator c = true)
    (tail : Cuts (column + c.utf8Size) rest first pieces) :
    Cuts column (c :: rest) (c :: first) pieces where
  chars_eq := congrArg (c :: ·) tail.chars_eq
  first_separates := List.forall_mem_cons.2 ⟨separates, tail.first_separates⟩
  separates := tail.separates
  column_eq before token gap after split := by
    have place := tail.column_eq before token gap after split
    have size : byteSize (weave (c :: first) before) =
        c.utf8Size + byteSize (weave first before) := by
      rw [← byteSize_singleton, ← byteSize_append]
      rfl
    rw [place, size, Nat.add_assoc]
  touches := tail.touches

/-- A token goes in front, and what was the first gap is behind it. -/
theorem cons {chars : List Char} (tail : Cuts (column + byteSize chars) rest first pieces)
    (touch : first = [] → pieces ≠ [] → IsQuoted ⟨String.ofList chars, column⟩) :
    Cuts column (chars ++ rest) [] ((⟨String.ofList chars, column⟩, first) :: pieces) where
  chars_eq := by rw [weave_cons, List.nil_append, String.toList_ofList, tail.chars_eq]
  first_separates := nofun
  separates := List.forall_mem_cons.2 ⟨tail.first_separates, tail.separates⟩
  column_eq before other gap after split := by
    cases before with
    | nil =>
        cases (List.cons.inj split).1
        rfl
    | cons piece before =>
        obtain ⟨hpiece, hpieces⟩ := List.cons.inj split
        cases hpiece
        rw [tail.column_eq before other gap after hpieces, weave_cons, List.nil_append,
          String.toList_ofList, byteSize_append, Nat.add_assoc]
  touches before other next after split := by
    cases before with
    | nil =>
        obtain ⟨hpiece, hpieces⟩ := List.cons.inj split
        cases hpiece
        exact touch rfl (by rw [hpieces]; exact List.cons_ne_nil next after)
    | cons piece before =>
        exact tail.touches before other next after (List.cons.inj split).2

end Cuts

namespace Tiles

variable {column : Nat} {cs : List Char} {tokens : List Token}

/-- If some token is left but no gap is in front of it, the code goes on without a separator. -/
theorem exists_head_of_cuts (tiles : Tiles column cs tokens)
    {pieces : List (Token × List Char)} (fst_eq : pieces.map Prod.fst = tokens)
    (cuts : Cuts column cs [] pieces) (nonempty : pieces ≠ []) :
    ∃ c ∈ cs.head?, isSeparator c = false := by
  obtain ⟨⟨token, gap⟩, pieces, rfl⟩ := List.exists_cons_of_ne_nil nonempty
  have member : token ∈ tokens := fst_eq ▸ List.mem_cons_self
  have bare := (tiles.standsIn member).bare
  obtain ⟨c, word, hword⟩ := List.exists_cons_of_ne_nil bare.nonempty
  refine ⟨c, ?_, bare.head c (by rw [hword]; rfl)⟩
  rw [cuts.chars_eq, weave_cons, hword]
  rfl

theorem exists_cuts (tiles : Tiles column cs tokens) :
    ∃ first pieces, pieces.map Prod.fst = tokens ∧ Cuts column cs first pieces := by
  induction tiles with
  | nil => exact ⟨[], [], rfl, .nil⟩
  | separator separates _ ih =>
      obtain ⟨first, pieces, rfl, cuts⟩ := ih
      exact ⟨_, pieces, rfl, cuts.separator separates⟩
  | word _ _ stops tail ih =>
      obtain ⟨first, pieces, rfl, cuts⟩ := ih
      refine ⟨[], _, rfl, cuts.cons fun hfirst hpieces => ?_⟩
      -- A word goes on up to a separator, and the next token does not begin with one.
      subst hfirst
      obtain ⟨c, head, plain⟩ := tail.exists_head_of_cuts rfl cuts hpieces
      rw [stops c head] at plain
      cases plain
  | @quoted _ c _ _ ascii _ ih =>
      obtain ⟨first, pieces, rfl, cuts⟩ := ih
      exact ⟨[], _, rfl, cuts.cons fun _ _ => ⟨c, ascii, String.toList_ofList⟩⟩

/-- A token is a quoted character or has no separator in it. -/
theorem isQuoted_or_plain (tiles : Tiles column cs tokens) {token : Token}
    (member : token ∈ tokens) :
    token.IsQuoted ∨ ∀ c ∈ token.text.toList, isSeparator c = false := by
  induction tiles with
  | nil => cases member
  | separator _ _ ih => exact ih member
  | word _ plain _ _ ih =>
      rcases List.mem_cons.1 member with rfl | behind
      · exact .inr (by rwa [String.toList_ofList])
      · exact ih behind
  | quoted ascii _ ih =>
      rcases List.mem_cons.1 member with rfl | behind
      · exact .inl ⟨_, ascii, String.toList_ofList⟩
      · exact ih behind

end Tiles

/-! ## Tokens in the bytes of a line -/

/-- A token is part of its line, and its column counts the bytes in front of it. -/
theorem exists_append_of_mem_ofLine {line : String} {token : Token}
    (member : token ∈ ofLine line) :
    token.text ≠ "" ∧ ∃ before after, line = before ++ token.text ++ after ∧
      token.column = before.utf8ByteSize := by
  obtain ⟨bare, before, after, split, place⟩ := (tiles_ofLine line).standsIn member
  obtain ⟨comment, whole⟩ := exists_code_append line
  refine ⟨fun empty => bare.nonempty (by rw [empty]; rfl), String.ofList before,
    String.ofList after ++ comment, ?_, by rw [place, Nat.zero_add]; rfl⟩
  rw [← String.append_assoc, whole]
  congr 1
  rw [code, split, String.ofList_append, String.ofList_append, String.ofList_toList]

/-- The bytes of a token are cut out of those of its line between whole characters. -/
theorem slice_of_mem_ofLine {line : String} {token : Token} (member : token ∈ ofLine line) :
    (⟨token.column⟩ : String.Pos.Raw).IsValid line ∧
      (⟨token.column + token.text.utf8ByteSize⟩ : String.Pos.Raw).IsValid line ∧
      ((Text.toBytes line).drop token.column).take token.text.utf8ByteSize =
        Text.toBytes token.text := by
  obtain ⟨-, before, after, split, place⟩ := exists_append_of_mem_ofLine member
  obtain ⟨starts, ends⟩ := isValid_of_split split
  rw [place]
  refine ⟨starts, ends, ?_⟩
  rw [split, Text.toBytes_append, Text.toBytes_append, ← Text.length_toBytes,
    ← Text.length_toBytes, List.append_assoc, List.drop_left, List.take_left]

theorem exists_code_append_comment (line : String) :
    ∃ comment, line = code line ++ comment ∧ ∀ c ∈ comment.toList.head?, c = ';' := by
  obtain ⟨-, comment, split, starts⟩ := codeChars_cases line.toList
  refine ⟨String.ofList comment, ?_, by rwa [String.toList_ofList]⟩
  rw [code, ← String.ofList_append, ← split, String.ofList_toList]

/-- Tokens come in the order of their columns and do not overlap. -/
theorem pairwise_column_ofLine (line : String) :
    (ofLine line).Pairwise fun a b =>
      a.column < b.column ∧ a.column + a.text.utf8ByteSize ≤ b.column := by
  refine (tiles_ofLine line).pairwise.imp_of_mem fun {a} b ha _ hle => ⟨?_, hle⟩
  have nonempty : a.text.utf8ByteSize ≠ 0 := fun empty =>
    (exists_append_of_mem_ofLine ha).1 (String.utf8ByteSize_eq_zero_iff.1 empty)
  omega

/--
A line is cut into pieces of which none is lost and none is read twice. Its code is all of it, or
all in front of a semicolon, and has no semicolons but between apostrophes. The code is made of
tokens and of gaps that hold separators only, and without a gap between them there are two tokens
only if the first is a quoted character. Each token is a quoted character or has no separator in
it, is not empty, and is cut out of the bytes of the line at its column, between whole characters;
the columns increase and no two tokens overlap.
-/
theorem ofLine_partitions (line : String) :
    (∃ comment, line = code line ++ comment ∧ ∀ c ∈ comment.toList.head?, c = ';') ∧
      SemicolonsQuoted (code line).toList ∧
      (∃ first pieces, pieces.map Prod.fst = ofLine line ∧
        Cuts 0 (code line).toList first pieces) ∧
      ((ofLine line).Pairwise fun a b =>
        a.column < b.column ∧ a.column + a.text.utf8ByteSize ≤ b.column) ∧
      ∀ token ∈ ofLine line, token.text ≠ "" ∧
        (token.IsQuoted ∨ ∀ c ∈ token.text.toList, isSeparator c = false) ∧
        (⟨token.column⟩ : String.Pos.Raw).IsValid line ∧
        (⟨token.column + token.text.utf8ByteSize⟩ : String.Pos.Raw).IsValid line ∧
        ((Text.toBytes line).drop token.column).take token.text.utf8ByteSize =
          Text.toBytes token.text := by
  have chars : (code line).toList = codeChars line.toList := String.toList_ofList
  rw [chars]
  exact ⟨exists_code_append_comment line, (codeChars_cases line.toList).1,
    (tiles_ofLine line).exists_cuts, pairwise_column_ofLine line, fun token member =>
      ⟨(exists_append_of_mem_ofLine member).1, (tiles_ofLine line).isQuoted_or_plain member,
        slice_of_mem_ofLine member⟩⟩

/-- A quoted semicolon that another token follows at once, and a comment. -/
example : ofLine "é ';'r1,\t';" = [⟨"é", 0⟩, ⟨"';'", 3⟩, ⟨"r1", 6⟩, ⟨"'", 10⟩] ∧
    code "é ';'r1,\t';" = "é ';'r1,\t'" := by
  decide

end Token

end Redstone

import Mathlib.Data.List.Basic
import Redstone.Proofs.Program.Token

/-!
# Code and its tokens

The tokens of a line and the separators between them are its code: nothing is lost, nothing is
read twice, and the column of a token is the number of bytes in front of it. So every token can be
found again in its line, between whole characters and with no separator at its ends.
-/

namespace Redstone

namespace Token

/-! ## Bytes of characters -/

def byteSize (cs : List Char) : Nat :=
  (String.ofList cs).utf8ByteSize

@[simp] theorem byteSize_nil : byteSize [] = 0 := rfl

@[simp] theorem byteSize_append (cs ds : List Char) :
    byteSize (cs ++ ds) = byteSize cs + byteSize ds := by
  unfold byteSize
  rw [String.ofList_append, String.utf8ByteSize_append]

@[simp] theorem byteSize_singleton (c : Char) : byteSize [c] = c.utf8Size :=
  String.utf8ByteSize_singleton

theorem byteSize_toList (text : String) : byteSize text.toList = text.utf8ByteSize := by
  rw [byteSize, String.ofList_toList]

theorem byteSize_eq_zero_iff (cs : List Char) : byteSize cs = 0 ↔ cs = [] := by
  rw [byteSize, String.utf8ByteSize_eq_zero_iff, String.ofList_eq_empty_iff]

/-- Of two fronts of a text the one that takes more bytes goes on where the other ends. -/
theorem exists_append_of_byteSize_le {before rest before' rest' : List Char}
    (same : before ++ rest = before' ++ rest') (hle : byteSize before ≤ byteSize before') :
    ∃ middle, before' = before ++ middle ∧ rest = middle ++ rest' := by
  rcases List.append_eq_append_iff.1 same with longer | ⟨middle, rfl, rfl⟩
  · exact longer
  · rw [byteSize_append] at hle
    obtain rfl : middle = [] := (byteSize_eq_zero_iff middle).1 (by omega)
    exact ⟨[], by simp, rfl⟩

theorem utf8Size_of_isAscii {c : Char} (ascii : isAscii c = true) : c.utf8Size = 1 := by
  have hlt : c.toNat < 128 := by simpa [isAscii] using ascii
  exact Char.utf8Size_eq_one_iff.2 (UInt32.le_iff_toNat_le.2 (Nat.le_of_lt_succ hlt))

theorem isAscii_of_isSeparator {c : Char} (separates : isSeparator c = true) :
    isAscii c = true := by
  simp only [isSeparator, Text.isAsciiBlank, Bool.or_eq_true, beq_iff_eq] at separates
  rcases separates with ((((rfl | rfl) | rfl) | rfl) | rfl) | rfl <;> decide

theorem byteSize_quoted {c : Char} (ascii : isAscii c = true) : byteSize (quoted c) = 3 := by
  have split : quoted c = ['\''] ++ [c] ++ ['\''] := rfl
  rw [split, byteSize_append, byteSize_append, byteSize_singleton, byteSize_singleton,
    utf8Size_of_isAscii ascii]
  rfl

/-! ## Tiles -/

/-- Code from a column on, cut into separators and tokens. -/
inductive Tiles : Nat → List Char → List Token → Prop where
  | nil {column : Nat} : Tiles column [] []
  | separator {column : Nat} {c : Char} {rest : List Char} {tokens : List Token}
      (separates : isSeparator c = true) (tail : Tiles (column + c.utf8Size) rest tokens) :
      Tiles column (c :: rest) tokens
  /-- A word goes on to the next separator. -/
  | word {column : Nat} {word rest : List Char} {tokens : List Token} (nonempty : word ≠ [])
      (plain : ∀ c ∈ word, isSeparator c = false)
      (stops : ∀ c ∈ rest.head?, isSeparator c = true)
      (tail : Tiles (column + byteSize word) rest tokens) :
      Tiles column (word ++ rest) (⟨String.ofList word, column⟩ :: tokens)
  /-- Behind a quoted character another token may follow at once. -/
  | quoted {column : Nat} {c : Char} {rest : List Char} {tokens : List Token}
      (ascii : isAscii c = true) (tail : Tiles (column + byteSize (quoted c)) rest tokens) :
      Tiles column (quoted c ++ rest) (⟨String.ofList (quoted c), column⟩ :: tokens)

/-- An open word, backwards, becomes a token where it ends, unless it is empty. -/
theorem Tiles.exists_of_close {start : Nat} {word rest : List Char} {tokens : List Token}
    (plain : ∀ c ∈ word, isSeparator c = false) (stops : ∀ c ∈ rest.head?, isSeparator c = true)
    (tail : Tiles (start + byteSize word.reverse) rest tokens) (found : List Token) :
    ∃ tokens', (close start word found).reverse ++ tokens = found.reverse ++ tokens' ∧
      Tiles start (word.reverse ++ rest) tokens' := by
  cases word with
  | nil => exact ⟨tokens, rfl, tail⟩
  | cons c word =>
      refine ⟨⟨String.ofList (c :: word).reverse, start⟩ :: tokens, by simp [close], ?_⟩
      exact .word (by simp) (fun d member => plain d (List.mem_reverse.1 member)) stops tail

/--
From the start of the open word, which is held backwards, on, everything is cut into tiles; the
tokens found before stay in front.
-/
theorem exists_tiles_scan {start column : Nat} {word : List Char} (found : List Token)
    (cs : List Char) (plain : ∀ c ∈ word, isSeparator c = false)
    (reached : column = start + byteSize word.reverse) :
    ∃ tokens, scan start column word found cs = found.reverse ++ tokens ∧
      Tiles start (word.reverse ++ cs) tokens := by
  fun_induction scan start column word found cs with
  | case1 start column word found =>
      have stops : ∀ c ∈ ([] : List Char).head?, isSeparator c = true := nofun
      obtain ⟨tokens, same, tiles⟩ := Tiles.exists_of_close plain stops .nil found
      rw [List.append_nil] at same
      exact ⟨tokens, same, tiles⟩
  | case2 start column word found c rest starts ih =>
      obtain ⟨empty, ascii⟩ := Bool.and_eq_true_iff.1 starts
      obtain rfl := List.isEmpty_iff.1 empty
      obtain rfl : column = start := reached
      obtain ⟨tokens, same, tiles⟩ := ih nofun rfl
      rw [same, List.reverse_cons, List.append_assoc, List.singleton_append]
      refine ⟨_, rfl, ?_⟩
      rw [← byteSize_quoted ascii] at tiles
      exact .quoted ascii tiles
  | case3 start column word found c rest inside ih =>
      -- Within a word an apostrophe is a character like all others.
      have step := ih (List.forall_mem_cons.2 ⟨by decide, plain⟩) (by
        rw [List.reverse_cons, byteSize_append, reached, byteSize_singleton, Nat.add_assoc]
        rfl)
      rwa [List.reverse_cons, List.append_assoc, List.singleton_append] at step
  | case4 start column word found c rest other separates ih =>
      obtain ⟨tokens, same, tiles⟩ := ih nofun rfl
      have stops : ∀ d ∈ (c :: rest).head?, isSeparator d = true := by
        rintro d ⟨⟩
        exact separates
      -- The scan counts one byte here, which is what a separator takes.
      have size := utf8Size_of_isAscii (isAscii_of_isSeparator separates)
      rw [reached, ← size] at tiles
      rw [same]
      exact Tiles.exists_of_close plain stops (.separator separates tiles) found
  | case5 start column word found c rest other plain' ih =>
      have step := ih (List.forall_mem_cons.2 ⟨by simpa using plain', plain⟩) (by
        rw [List.reverse_cons, byteSize_append, reached, byteSize_singleton, Nat.add_assoc])
      rwa [List.reverse_cons, List.append_assoc, List.singleton_append] at step

theorem tiles_ofLine (line : String) : Tiles 0 (codeChars line.toList) (ofLine line) := by
  have whole : ∃ tokens, ofLine line = [] ++ tokens ∧ Tiles 0 (codeChars line.toList) tokens :=
    exists_tiles_scan [] (codeChars line.toList) nofun rfl
  obtain ⟨tokens, rfl, tiles⟩ := whole
  exact tiles

/-! ## Tokens in their line -/

/-- A part of a text begins and ends between whole characters. -/
theorem isValid_of_split {line before part after : String}
    (split : line = before ++ part ++ after) :
    String.Pos.Raw.IsValid line ⟨before.utf8ByteSize⟩ ∧
      String.Pos.Raw.IsValid line ⟨before.utf8ByteSize + part.utf8ByteSize⟩ := by
  constructor
  · rw [String.Pos.Raw.isValid_iff_exists_append]
    exact ⟨before, part ++ after, by rw [split, String.append_assoc], rfl⟩
  · rw [String.Pos.Raw.isValid_iff_exists_append, ← String.utf8ByteSize_append]
    exact ⟨before ++ part, after, split, rfl⟩

theorem exists_code_append (line : String) : ∃ comment, line = code line ++ comment := by
  refine ⟨String.ofList (line.toList.drop (codeLength 0 line.toList)), ?_⟩
  rw [code, codeChars, ← String.ofList_append, List.take_append_drop, String.ofList_toList]

/-- Characters that begin and end with something else than a separator. -/
structure Bare (cs : List Char) : Prop where
  nonempty : cs ≠ []
  head : ∀ c ∈ cs.head?, isSeparator c = false
  last : ∀ c ∈ cs.getLast?, isSeparator c = false

theorem Bare.of_plain {cs : List Char} (nonempty : cs ≠ [])
    (plain : ∀ c ∈ cs, isSeparator c = false) : Bare cs where
  nonempty := nonempty
  head c first := plain c (List.mem_of_head? first)
  last c last := plain c (List.mem_of_getLast? last)

/-- Whatever stands between apostrophes, these are no separators. -/
theorem bare_quoted (c : Char) : Bare (quoted c) where
  nonempty := List.cons_ne_nil _ _
  head := by
    rintro d ⟨⟩
    decide
  last := by
    rintro d last
    obtain rfl : '\'' = d := Option.some.inj last
    decide

/-- A token stands at its column in code that begins at another column. -/
structure StandsIn (token : Token) (column : Nat) (cs : List Char) : Prop where
  bare : Bare token.text.toList
  exists_split : ∃ before after, cs = before ++ token.text.toList ++ after ∧
    token.column = column + byteSize before

theorem StandsIn.of_bare {piece : List Char} (bare : Bare piece) (column : Nat)
    (rest : List Char) : StandsIn ⟨String.ofList piece, column⟩ column (piece ++ rest) where
  bare := by rwa [String.toList_ofList]
  exists_split := ⟨[], rest, by rw [String.toList_ofList, List.nil_append], rfl⟩

theorem StandsIn.append_left {token : Token} {column : Nat} {rest : List Char}
    (piece : List Char) (stands : token.StandsIn (column + byteSize piece) rest) :
    token.StandsIn column (piece ++ rest) where
  bare := stands.bare
  exists_split := by
    obtain ⟨before, after, split, place⟩ := stands.exists_split
    refine ⟨piece ++ before, after, by rw [split]; simp, ?_⟩
    rw [place, byteSize_append, Nat.add_assoc]

namespace Tiles

variable {column : Nat} {cs : List Char} {tokens : List Token}

theorem standsIn (tiles : Tiles column cs tokens) {token : Token} (member : token ∈ tokens) :
    token.StandsIn column cs := by
  induction tiles with
  | nil => cases member
  | @separator column c rest tokens _ _ ih =>
      rw [← byteSize_singleton] at ih
      exact (ih member).append_left [c]
  | @word column word rest tokens nonempty plain _ _ ih =>
      rcases List.mem_cons.1 member with rfl | behind
      · exact .of_bare (.of_plain nonempty plain) column rest
      · exact (ih behind).append_left word
  | @quoted column c rest tokens _ _ ih =>
      rcases List.mem_cons.1 member with rfl | behind
      · exact .of_bare (bare_quoted c) column rest
      · exact (ih behind).append_left (Token.quoted c)

theorem column_le (tiles : Tiles column cs tokens) {token : Token} (member : token ∈ tokens) :
    column ≤ token.column := by
  obtain ⟨before, after, -, place⟩ := (tiles.standsIn member).exists_split
  omega

/-- From the start of a token to the end of the same or a later one there is a bare stretch. -/
theorem exists_stretch (tiles : Tiles column cs tokens) {first last : Token}
    (hfirst : first ∈ tokens) (hlast : last ∈ tokens) (ordered : first.column ≤ last.column) :
    ∃ before part after, cs = before ++ part ++ after ∧ first.column = column + byteSize before ∧
      last.column + last.text.utf8ByteSize = first.column + byteSize part ∧ Bare part := by
  obtain ⟨bare, before, after, split, place⟩ := tiles.standsIn hfirst
  obtain ⟨bare', before', after', split', place'⟩ := tiles.standsIn hlast
  have same : before ++ (first.text.toList ++ after) =
      before' ++ (last.text.toList ++ after') := by
    rw [← List.append_assoc, ← split, split', List.append_assoc]
  -- Between the starts of both tokens there is a middle, which begins with the first of them.
  obtain ⟨middle, rfl, rest⟩ := exists_append_of_byteSize_le same (by omega)
  have nonempty : middle ++ last.text.toList ≠ [] := by simp [bare'.nonempty]
  refine ⟨before, middle ++ last.text.toList, after', by rw [split']; simp, place, ?_,
    nonempty, ?_, ?_⟩
  · rw [place', place, byteSize_append, byteSize_append, byteSize_toList]
    omega
  · have head : (first.text.toList ++ after).head? =
        ((middle ++ last.text.toList) ++ after').head? := by rw [rest, List.append_assoc]
    rw [List.head?_append_of_ne_nil _ bare.nonempty,
      List.head?_append_of_ne_nil _ nonempty] at head
    rw [← head]
    exact bare.head
  · rw [List.getLast?_append_of_ne_nil _ bare'.nonempty]
    exact bare'.last

theorem pairwise (tiles : Tiles column cs tokens) :
    tokens.Pairwise fun a b => a.column + a.text.utf8ByteSize ≤ b.column := by
  induction tiles with
  | nil => exact .nil
  | separator _ _ ih => exact ih
  | word _ _ _ tail ih => exact .cons (fun token behind => tail.column_le behind) ih
  | quoted _ tail ih => exact .cons (fun token behind => tail.column_le behind) ih

end Tiles

end Token

end Redstone

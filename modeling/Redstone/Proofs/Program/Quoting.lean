import Mathlib.Data.List.Basic
import Redstone.Proofs.Program.Token

/-!
# Quoted characters in a written line

Words and quoted characters with single spaces between them are the tokens of their line, also if
a comment follows. There is one exception: comments are looked for without regard to where tokens
begin, so that an apostrophe at the end of a word can make a pair with the one in front of a quoted
semicolon. That semicolon starts a comment then.
-/

namespace Redstone

namespace Token

/-! ## Tokens and open quotes -/

def isQuoted : List Char → Bool
  | ['\'', c, '\''] => isAscii c
  | _ => false

/-- A token as it is written: a word, or any character between apostrophes. -/
inductive Readable : List Char → Prop where
  | quoted {c : Char} (ascii : isAscii c = true) : Readable (quoted c)
  | word {cs : List Char} (isWord : IsWord cs) : Readable cs

/--
Whether a word ends in an apostrophe that closes nothing, if quotes within the word are taken from
its left to its right.
-/
def endsOpen : List Char → Bool
  | [] => false
  | '\'' :: c :: '\'' :: rest =>
      if isAscii c then endsOpen rest else endsOpen (c :: '\'' :: rest)
  | c :: rest => (c == '\'' && rest.isEmpty) || endsOpen rest

/-- Whether a quote is open behind a token. Behind a quoted character it is so if it was before. -/
def leavesOpen (isOpen : Bool) (token : List Char) : Bool :=
  if isQuoted token then isOpen else endsOpen token

/-- A quoted semicolon that is met while a quote is open. -/
def Exposed (isOpen : Bool) (tokens : List (List Char)) : Prop :=
  ∃ front after, tokens = front ++ quoted ';' :: after ∧ front.foldl leavesOpen isOpen = true

theorem isQuoted_quoted {c : Char} (ascii : isAscii c = true) : isQuoted (quoted c) = true :=
  ascii

theorem IsWord.isQuoted_eq_false {word : List Char} (isWord : IsWord word) :
    isQuoted word = false := by
  unfold isQuoted
  split
  · exact absurd rfl isWord.unquoted
  · rfl

theorem IsWord.no_semicolon {word : List Char} (isWord : IsWord word) : ';' ∉ word :=
  fun member => (isWord.plain ';' member).2 rfl

theorem not_exposed_nil (isOpen : Bool) : ¬ Exposed isOpen [] := by
  rintro ⟨front, after, split, -⟩
  simp at split

theorem exposed_cons_iff {isOpen : Bool} {token : List Char} {tokens : List (List Char)} :
    Exposed isOpen (token :: tokens) ↔
      (isOpen = true ∧ token = quoted ';') ∨ Exposed (leavesOpen isOpen token) tokens := by
  constructor
  · rintro ⟨front, after, split, opened⟩
    cases front with
    | nil => exact .inl ⟨opened, (List.cons.inj split).1⟩
    | cons first front =>
        obtain ⟨rfl, rest⟩ := List.cons.inj split
        exact .inr ⟨front, after, rest, opened⟩
  · rintro (⟨opened, rfl⟩ | ⟨front, after, rfl, opened⟩)
    · exact ⟨[], tokens, rfl, opened⟩
    · exact ⟨token :: front, after, rfl, opened⟩

instance decidableExposed : (isOpen : Bool) → (tokens : List (List Char)) →
    Decidable (Exposed isOpen tokens)
  | isOpen, [] => isFalse (not_exposed_nil isOpen)
  | isOpen, token :: tokens =>
      have := decidableExposed (leavesOpen isOpen token) tokens
      decidable_of_iff' _ exposed_cons_iff

/-! ## Code of written tokens -/

/-- An apostrophe that is held back until it is known what follows it. -/
def held (isOpen : Bool) : List Char :=
  if isOpen then ['\''] else []

/-- A word is code, and only an open quote at its end can reach beyond it. -/
theorem exists_codeChars_word_append {word rest : List Char} (plain : ';' ∉ word)
    (stops : rest.head? ≠ some '\'') :
    ∃ front, word = front ++ held (endsOpen word) ∧
      codeChars (word ++ rest) = front ++ codeChars (held (endsOpen word) ++ rest) := by
  fun_induction endsOpen word with
  | case1 => exact ⟨[], rfl, rfl⟩
  | case2 c tail ascii ih =>
      obtain ⟨front, split, code⟩ := ih fun member => plain (by simp [member])
      refine ⟨quoted c ++ front, ?_, ?_⟩
      · rw [List.append_assoc, ← split]
        rfl
      · rw [List.append_assoc, ← code]
        exact codeChars_quoted_append ascii (tail ++ rest)
  | case3 c tail wide ih =>
      obtain ⟨front, split, code⟩ := ih fun member => plain (List.mem_cons_of_mem _ member)
      refine ⟨'\'' :: front, by rw [List.cons_append, ← split], ?_⟩
      have step : codeChars ('\'' :: (c :: '\'' :: tail ++ rest)) =
          '\'' :: codeChars (c :: '\'' :: tail ++ rest) := by
        refine codeChars_cons (by decide) ?_
        rintro d behind - same
        obtain ⟨rfl, -⟩ := List.cons.inj same
        simpa using wide
      exact step.trans (congrArg ('\'' :: ·) code)
  | case4 c tail other ih =>
      rw [List.mem_cons, not_or] at plain
      by_cases last : c = '\'' ∧ tail = []
      · obtain ⟨rfl, rfl⟩ := last
        exact ⟨[], rfl, rfl⟩
      · have goesOn : (c == '\'' && tail.isEmpty) = false := by simpa using last
        obtain ⟨front, split, code⟩ := ih plain.2
        rw [goesOn, Bool.false_or]
        refine ⟨c :: front, by rw [List.cons_append, ← split], ?_⟩
        have step : codeChars (c :: (tail ++ rest)) = c :: codeChars (tail ++ rest) := by
          refine codeChars_cons (Ne.symm plain.1) ?_
          rintro d behind rfl same
          -- The other apostrophe would stand within the word, or behind it.
          rcases tail with _ | ⟨e, _ | ⟨e', tail⟩⟩
          · exact absurd ⟨rfl, rfl⟩ last
          · obtain ⟨-, rfl⟩ := List.cons.inj same
            exact absurd rfl stops
          · obtain ⟨-, same⟩ := List.cons.inj same
            obtain ⟨rfl, -⟩ := List.cons.inj same
            exact (other e tail rfl rfl).elim
        exact step.trans (congrArg (c :: ·) code)

def spaced (tokens : List (List Char)) : List Char :=
  tokens.flatMap fun token => ' ' :: token

theorem spaced_cons (token : List Char) (tokens : List (List Char)) :
    spaced (token :: tokens) = ' ' :: (token ++ spaced tokens) :=
  List.flatMap_cons

theorem spaced_append (tokens others : List (List Char)) :
    spaced (tokens ++ others) = spaced tokens ++ spaced others :=
  List.flatMap_append

theorem cons_intercalate (token : List Char) (tokens : List (List Char)) :
    [' '].intercalate (token :: tokens) = token ++ spaced tokens := by
  induction tokens generalizing token with
  | nil => rw [List.intercalate_singleton]; exact (List.append_nil token).symm
  | cons next tokens ih =>
      rw [List.intercalate_cons_cons, ih, spaced_cons, List.append_assoc, List.singleton_append]

theorem codeChars_space (rest : List Char) : codeChars (' ' :: rest) = ' ' :: codeChars rest :=
  codeChars_cons (by decide) nofun

/-- In front of a space that no apostrophe follows an open quote stays what it is. -/
theorem codeChars_held_space (isOpen : Bool) {rest : List Char}
    (stops : isOpen = true → rest.head? ≠ some '\'') :
    codeChars (held isOpen ++ ' ' :: rest) = held isOpen ++ ' ' :: codeChars rest := by
  cases isOpen with
  | false => exact codeChars_space rest
  | true =>
      rw [← codeChars_space rest]
      refine codeChars_cons (by decide) ?_
      rintro d tail - same
      obtain ⟨-, rfl⟩ := List.cons.inj same
      exact absurd rfl (stops rfl)

/-- Behind an open quote the apostrophe of the next token is taken for the end of the quote. -/
theorem codeChars_open_quoted (c : Char) (rest : List Char) :
    codeChars ('\'' :: ' ' :: (quoted c ++ rest)) =
      '\'' :: ' ' :: '\'' :: codeChars (c :: '\'' :: rest) :=
  codeChars_quoted_append (by decide : isAscii ' ' = true) _

/-- A token behind a space is code, unless it is a semicolon that is exposed there. -/
theorem exists_codeChars_token {token : List Char} (readable : Readable token) (isOpen : Bool)
    {rest : List Char} (stops : rest.head? ≠ some '\'')
    (covered : isOpen = true → token ≠ quoted ';') :
    ∃ front, held isOpen ++ ' ' :: token = front ++ held (leavesOpen isOpen token) ∧
      codeChars (held isOpen ++ ' ' :: (token ++ rest)) =
        front ++ codeChars (held (leavesOpen isOpen token) ++ rest) := by
  cases readable with
  | @quoted c ascii =>
      rw [leavesOpen, isQuoted_quoted ascii, if_pos rfl]
      cases isOpen with
      | false =>
          refine ⟨' ' :: quoted c, by simp [held], ?_⟩
          show codeChars (' ' :: (quoted c ++ rest)) = _
          rw [codeChars_space, codeChars_quoted_append ascii]
          rfl
      | true =>
          refine ⟨['\'', ' ', '\'', c], rfl, ?_⟩
          have inside : codeChars (c :: '\'' :: rest) = c :: codeChars ('\'' :: rest) := by
            refine codeChars_cons ?_ ?_
            · rintro rfl
              exact covered rfl rfl
            · rintro d tail - same
              obtain ⟨-, rfl⟩ := List.cons.inj same
              exact absurd rfl stops
          show codeChars ('\'' :: ' ' :: (quoted c ++ rest)) = _
          rw [codeChars_open_quoted, inside]
          rfl
  | word isWord =>
      rw [leavesOpen, isWord.isQuoted_eq_false, if_neg Bool.false_ne_true]
      obtain ⟨front, split, code⟩ := exists_codeChars_word_append isWord.no_semicolon stops
      refine ⟨held isOpen ++ ' ' :: front, ?_, ?_⟩
      · rw [List.append_assoc, List.cons_append, ← split]
      · rw [codeChars_held_space, code, List.append_assoc, List.cons_append]
        intro _
        rw [List.head?_append_of_ne_nil _ isWord.nonempty]
        exact isWord.unquoted

/-- Tokens are code as far as no semicolon among them is exposed. -/
theorem codeChars_spaced {tokens : List (List Char)} (readable : ∀ token ∈ tokens, Readable token)
    (isOpen : Bool) {tail ending : List Char} (stops : tail.head? ≠ some '\'')
    (ends : ∀ isOpen, codeChars (held isOpen ++ tail) = held isOpen ++ ending) :
    (¬ Exposed isOpen tokens →
      codeChars (held isOpen ++ (spaced tokens ++ tail)) =
        held isOpen ++ (spaced tokens ++ ending)) ∧
    (Exposed isOpen tokens → ∃ front after, tokens = front ++ quoted ';' :: after ∧
      codeChars (held isOpen ++ (spaced tokens ++ tail)) =
        held isOpen ++ spaced (front ++ [['\'']])) := by
  induction tokens generalizing isOpen with
  | nil => exact ⟨fun _ => ends isOpen, fun exposed => absurd exposed (not_exposed_nil isOpen)⟩
  | cons token tokens ih =>
      rw [exposed_cons_iff]
      have stops' : (spaced tokens ++ tail).head? ≠ some '\'' := by
        cases tokens with
        | nil => exact stops
        | cons next tokens => exact nofun
      obtain ⟨whole, cut⟩ := ih (fun other member => readable other (List.mem_cons_of_mem _ member))
        (leavesOpen isOpen token)
      by_cases here : isOpen = true ∧ token = quoted ';'
      · obtain ⟨rfl, rfl⟩ := here
        refine ⟨fun covered => absurd (.inl ⟨rfl, rfl⟩) covered, fun _ => ⟨[], tokens, rfl, ?_⟩⟩
        rw [spaced_cons, List.cons_append, List.append_assoc]
        exact codeChars_open_quoted ';' _
      · obtain ⟨front, split, code⟩ := exists_codeChars_token
          (readable token List.mem_cons_self) isOpen stops' fun opened same => here ⟨opened, same⟩
        rw [spaced_cons, List.cons_append, List.append_assoc, code]
        refine ⟨fun covered => ?_, fun exposed => ?_⟩
        · rw [whole fun later => covered (.inr later), ← List.append_assoc, ← split]
          simp
        · obtain ⟨before, after, rfl, code'⟩ := cut (exposed.resolve_left here)
          refine ⟨token :: before, after, rfl, ?_⟩
          rw [code', ← List.append_assoc, ← split, List.cons_append, spaced_cons]
          simp

/-! ## What is read -/

/-- The texts of tokens do not depend on the columns. -/
theorem map_text_scan_congr {start column start' column' : Nat} {word : List Char}
    {found found' : List Token} (cs : List Char) (same : found.map text = found'.map text) :
    (scan start column word found cs).map text = (scan start' column' word found' cs).map text := by
  have closed {start start' : Nat} {word : List Char} {found found' : List Token}
      (same : found.map text = found'.map text) :
      (close start word found).map text = (close start' word found').map text := by
    unfold close
    split <;> simp [same]
  fun_induction scan start column word found cs generalizing start' column' found' with
  | case1 start column word found =>
      rw [scan, List.map_reverse, List.map_reverse, closed same]
  | case2 start column word found c rest starts ih =>
      rw [scan, if_pos starts]
      exact ih (by simp [same])
  | case3 start column word found c rest inside ih =>
      rw [scan, if_neg inside]
      exact ih same
  | case4 start column word found c rest other separates ih =>
      rw [scan, if_pos separates]
      · exact ih (closed same)
      · exact other
  | case5 start column word found c rest other plain ih =>
      rw [scan, if_neg plain]
      · exact ih same
      · exact other

theorem scan_quoted_append {c : Char} (ascii : isAscii c = true) (start column : Nat)
    (found : List Token) (rest : List Char) :
    scan start column [] found (quoted c ++ rest) =
      scan (column + 3) (column + 3) [] (⟨String.ofList (quoted c), column⟩ :: found) rest := by
  show scan start column [] found ('\'' :: c :: '\'' :: rest) = _
  rw [scan, if_pos]
  simpa using ascii

theorem exists_scan_token {token : List Char} (readable : Readable token) (start column : Nat)
    (found : List Token) (rest : List Char) :
    ∃ start' column' word found', scan start column [] found (token ++ rest) =
        scan start' column' word found' rest ∧
      (close start' word found').map text = String.ofList token :: found.map text := by
  cases readable with
  | quoted ascii => exact ⟨_, _, _, _, scan_quoted_append ascii start column found rest, rfl⟩
  | word isWord =>
      obtain ⟨column', step⟩ := isWord.scan_append start column found rest
      refine ⟨start, column', token.reverse, found, step, ?_⟩
      rw [isWord.close_reverse]
      rfl

theorem exists_scan_spaced {tokens : List (List Char)}
    (readable : ∀ token ∈ tokens, Readable token) (start column : Nat) (word : List Char)
    (found : List Token) (rest : List Char) :
    ∃ start' column' word' found', scan start column word found (spaced tokens ++ rest) =
        scan start' column' word' found' rest ∧
      (close start' word' found').map text =
        (tokens.map String.ofList).reverse ++ (close start word found).map text := by
  induction tokens generalizing start column word found with
  | nil => exact ⟨start, column, word, found, rfl, rfl⟩
  | cons token tokens ih =>
      obtain ⟨start₁, column₁, word₁, found₁, step, texts⟩ := exists_scan_token
        (readable token List.mem_cons_self) (column + 1) (column + 1) (close start word found)
        (spaced tokens ++ rest)
      obtain ⟨start₂, column₂, word₂, found₂, steps, texts'⟩ := ih
        (fun other member => readable other (List.mem_cons_of_mem _ member))
        start₁ column₁ word₁ found₁
      refine ⟨start₂, column₂, word₂, found₂, ?_, ?_⟩
      · rw [spaced_cons, List.cons_append, List.append_assoc, scan_cons_of_blank, step, steps]
      · rw [texts', texts]
        simp

/-- A blank in front of code is no part of its tokens, and what stands behind them is read last. -/
theorem map_text_scan_spaced {tokens : List (List Char)}
    (readable : ∀ token ∈ tokens, Readable token) {cs rest : List Char} {behind : List String}
    (split : ' ' :: cs = spaced tokens ++ rest)
    (last : ∀ start column word found, (scan start column word found rest).map text =
      ((close start word found).map text).reverse ++ behind) :
    (scan 0 0 [] [] cs).map text = tokens.map String.ofList ++ behind := by
  obtain ⟨start, column, word, found, steps, texts⟩ :=
    exists_scan_spaced readable 0 0 [] [] rest
  have blank : (scan 0 0 [] [] cs).map text = (scan 0 0 [] [] (' ' :: cs)).map text := by
    rw [scan_cons_of_blank]
    exact map_text_scan_congr cs rfl
  rw [blank, split, steps, last, texts]
  simp [close]

theorem map_text_scan_apostrophe (start column : Nat) (word : List Char) (found : List Token) :
    (scan start column word found (spaced [['\'']])).map text =
      ((close start word found).map text).reverse ++ ["'"] := by
  show (scan start column word found [' ', '\'']).map text = _
  have alone (column : Nat) (found : List Token) :
      scan column column [] found ['\''] = (⟨"'", column⟩ :: found).reverse := rfl
  rw [scan_cons_of_blank, alone]
  simp

/-- A line of written tokens ends with the last of them, or a comment follows behind a space. -/
theorem exists_tail {tokens : List String} {line : String}
    (written : line = " ".intercalate tokens ∨
      ∃ comment, line = " ".intercalate tokens ++ " ;" ++ comment) :
    ∃ tail ending, line.toList = [' '].intercalate (tokens.map String.toList) ++ tail ∧
      tail.head? ≠ some '\'' ∧
      (∀ isOpen, codeChars (held isOpen ++ tail) = held isOpen ++ ending) ∧
      ∀ start column word found, (scan start column word found ending).map text =
        ((close start word found).map text).reverse ++ [] := by
  rcases written with rfl | ⟨comment, rfl⟩
  · refine ⟨[], [], ?_, nofun, ?_, ?_⟩
    · rw [String.toList_intercalate, List.append_nil]
      rfl
    · intro isOpen
      cases isOpen <;> rfl
    · intro start column word found
      rw [scan, List.map_reverse, List.append_nil]
  · refine ⟨' ' :: ';' :: comment.toList, [' '], ?_, nofun, ?_, ?_⟩
    · simp [String.toList_intercalate]
    · intro isOpen
      exact codeChars_held_space isOpen nofun
    · intro start column word found
      rw [scan_cons_of_blank, scan, List.map_reverse, List.append_nil]
      rfl

theorem map_text_ofChars {tokens : List (List Char)}
    (readable : ∀ token ∈ tokens, Readable token) {tail ending : List Char}
    (stops : tail.head? ≠ some '\'')
    (ends : ∀ isOpen, codeChars (held isOpen ++ tail) = held isOpen ++ ending)
    (last : ∀ start column word found, (scan start column word found ending).map text =
      ((close start word found).map text).reverse ++ []) :
    (¬ Exposed false tokens →
      (ofChars ([' '].intercalate tokens ++ tail)).map text = tokens.map String.ofList) ∧
    (Exposed false tokens → ∃ front after, tokens = front ++ quoted ';' :: after ∧
      (ofChars ([' '].intercalate tokens ++ tail)).map text =
        front.map String.ofList ++ ["'"]) := by
  cases tokens with
  | nil =>
      have code : codeChars tail = ending := ends false
      refine ⟨fun _ => ?_, fun exposed => absurd exposed (not_exposed_nil false)⟩
      exact (congrArg (fun cs => (scan 0 0 [] [] cs).map text) code).trans (last 0 0 [] [])
  | cons token tokens =>
      obtain ⟨whole, cut⟩ := codeChars_spaced readable false stops ends
      have front : ' ' :: codeChars ([' '].intercalate (token :: tokens) ++ tail) =
          codeChars (spaced (token :: tokens) ++ tail) := by
        rw [cons_intercalate, spaced_cons, List.cons_append, codeChars_space]
      refine ⟨fun covered => ?_, fun exposed => ?_⟩
      · have read := map_text_scan_spaced readable (front.trans (whole covered)) last
        rwa [List.append_nil] at read
      · obtain ⟨before, after, split, code⟩ := cut exposed
        have readable' : ∀ other ∈ before, Readable other := fun other member =>
          readable other (split ▸ List.mem_append_left _ member)
        have code' := front.trans code
        rw [held, spaced_append] at code'
        exact ⟨before, after, split, map_text_scan_spaced readable' code' map_text_scan_apostrophe⟩

section

variable {tokens : List String} {line : String}

theorem map_text_ofLine_of_not_exposed (readable : ∀ token ∈ tokens, Readable token.toList)
    (written : line = " ".intercalate tokens ∨
      ∃ comment, line = " ".intercalate tokens ++ " ;" ++ comment)
    (covered : ¬ Exposed false (tokens.map String.toList)) :
    (ofLine line).map text = tokens := by
  obtain ⟨tail, ending, split, stops, ends, last⟩ := exists_tail written
  have read := (map_text_ofChars (List.forall_mem_map.2 readable) stops ends last).1 covered
  rw [ofLine, split, read, List.map_map]
  simp

theorem exists_map_text_ofLine_of_exposed (readable : ∀ token ∈ tokens, Readable token.toList)
    (written : line = " ".intercalate tokens ∨
      ∃ comment, line = " ".intercalate tokens ++ " ;" ++ comment)
    (exposed : Exposed false (tokens.map String.toList)) :
    ∃ front after, tokens = front ++ "';'" :: after ∧ (ofLine line).map text = front ++ ["'"] := by
  obtain ⟨tail, ending, split, stops, ends, last⟩ := exists_tail written
  obtain ⟨front, after, same, read⟩ :=
    (map_text_ofChars (List.forall_mem_map.2 readable) stops ends last).2 exposed
  have texts : tokens = (front ++ quoted ';' :: after).map String.ofList := by
    rw [← same]
    simp
  refine ⟨front.map String.ofList, after.map String.ofList, ?_, ?_⟩
  · rw [texts, List.map_append, List.map_cons]
    rfl
  · rw [ofLine, split, read]

/-- Words with spaces between them are the tokens of their line. -/
theorem map_text_ofLine_intercalate (areWords : ∀ token ∈ tokens, IsWord token.toList) :
    (ofLine (" ".intercalate tokens)).map text = tokens := by
  refine map_text_ofLine_of_not_exposed (fun token member => .word (areWords token member))
    (.inl rfl) ?_
  rintro ⟨front, after, split, -⟩
  have member : quoted ';' ∈ tokens.map String.toList := by simp [split]
  obtain ⟨token, inside, same⟩ := List.mem_map.1 member
  exact (areWords token inside).unquoted (congrArg List.head? same)

/--
Written tokens with single spaces between them are read back from their line, also if a space and a
comment follow, unless one of them is a quoted semicolon that is met while a quote is open. Such a
semicolon starts a comment: what is read then are the tokens in front of it and an apostrophe.
-/
theorem tokens_read_back (readable : ∀ token ∈ tokens, Readable token.toList)
    (written : line = " ".intercalate tokens ∨
      ∃ comment, line = " ".intercalate tokens ++ " ;" ++ comment) :
    (¬ Exposed false (tokens.map String.toList) → (ofLine line).map text = tokens) ∧
    (Exposed false (tokens.map String.toList) → ∃ front after, tokens = front ++ "';'" :: after ∧
      (ofLine line).map text = front ++ ["'"]) :=
  ⟨map_text_ofLine_of_not_exposed readable written,
    exists_map_text_ofLine_of_exposed readable written⟩

end

/-- Apostrophes in a word do no harm if they are closed, or if no quoted semicolon comes next. -/
theorem tokens_read_back_apostrophes :
    let tokens := ["it's", "a'b'c'd'", "';'", "x'", "' '", "y", "';'", "'''"]
    (∀ token ∈ tokens, Readable token.toList) ∧ ¬ Exposed false (tokens.map String.toList) ∧
      (ofLine "it's a'b'c'd' ';' x' ' ' y ';' ''' ;' '").map text = tokens := by
  intro tokens
  have readable : ∀ token ∈ tokens, Readable token.toList := by
    simp only [tokens, List.forall_mem_cons]
    exact ⟨.word (by decide), .word (by decide), .quoted (by decide), .word (by decide),
      .quoted (by decide), .word (by decide), .quoted (by decide), .quoted (by decide), nofun⟩
  have covered : ¬ Exposed false (tokens.map String.toList) := by decide
  exact ⟨readable, covered, (tokens_read_back readable (.inr ⟨"' '", rfl⟩)).1 covered⟩

/-- A quoted semicolon is read as a comment behind a word that ends in an apostrophe. -/
theorem tokens_not_read_back :
    let tokens := ["a'", "';'"]
    (∀ token ∈ tokens, Readable token.toList) ∧
      (ofLine (" ".intercalate tokens)).map text ≠ tokens := by
  intro tokens
  refine ⟨?_, by decide⟩
  simp only [tokens, List.forall_mem_cons]
  exact ⟨.word (by decide), .quoted (by decide), nofun⟩

end Token

end Redstone

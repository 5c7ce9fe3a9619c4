import Redstone.Proofs.Program.Faults

/-!
# Sources in pieces

A session reads lines, so that it does not matter in which pieces they come, as long as no piece
ends within a line. Each line goes behind those that are there, under the number that comes next,
and this is so from any session on.
-/

namespace Redstone

namespace Session

variable (session : Session)

theorem feed_append {first : String}
    (hended : first = "" ∨ first.toList.getLast? = some '\n') (second : String) :
    session.feed (first ++ second) = (session.feed first).feed second := by
  unfold feed
  rw [Text.lines_append hended, List.foldl_append]

/-- Pieces that end with their lines are read as the text that they make. -/
theorem foldl_feed {texts : List String}
    (hended : ∀ text ∈ texts.dropLast, text = "" ∨ text.toList.getLast? = some '\n') :
    texts.foldl feed session = session.feed (String.join texts) := by
  induction texts generalizing session with
  | nil => rfl
  | cons text rest ih =>
      cases rest with
      | nil => simp
      | cons next rest =>
          rw [List.dropLast_cons_cons, List.forall_mem_cons] at hended
          rw [List.foldl_cons, ih _ hended.2, ← session.feed_append hended.1, ← String.join_cons]

/-- Lines are put behind the others with the numbers that follow. -/
theorem exists_lines_foldl_readLine (texts : List String) :
    ∃ added, (texts.foldl readLine session).lines.toList = session.lines.toList ++ added ∧
      added.length = texts.length ∧ ∀ (k : Nat) (line : SourceLine), added[k]? = some line →
        line.number = session.lines.size + k + 1 ∧ texts[k]? = some line.text := by
  induction texts generalizing session with
  | nil => exact ⟨[], by simp, rfl, nofun⟩
  | cons text texts ih =>
      obtain ⟨content, hlines⟩ := session.exists_lines_readLine text
      obtain ⟨added, hadded, hlength, hnumber⟩ := ih (session.readLine text)
      refine ⟨⟨session.lines.size + 1, text, Token.ofLine text, content⟩ :: added, ?_,
        by rw [List.length_cons, List.length_cons, hlength], fun k line hline => ?_⟩
      · rw [List.foldl_cons, hadded, hlines, Array.toList_push, List.append_assoc]
        rfl
      · cases k with
        | zero =>
            cases hline
            exact ⟨rfl, rfl⟩
        | succ k =>
            obtain ⟨hnext, htext⟩ := hnumber k line hline
            rw [hlines, Array.size_push] at hnext
            exact ⟨by omega, htext⟩

/--
A source may come in pieces. Fed one after the other, pieces of which all but the last are empty or
end in a line feed give the same lines and the same diagnostics as the whole text, and lead to the
same end. Whatever the pieces, each line of each of them is put behind the others under the next
number.
-/
theorem fed_in_pieces (texts : List String) :
    ((∀ text ∈ texts.dropLast, text = "" ∨ text.toList.getLast? = some '\n') →
      (texts.foldl feed session).lines = (session.feed (String.join texts)).lines ∧
        (texts.foldl feed session).diagnostics =
          (session.feed (String.join texts)).diagnostics ∧
        (texts.foldl feed session).finish = (session.feed (String.join texts)).finish) ∧
      ∃ added, (texts.foldl feed session).lines.toList = session.lines.toList ++ added ∧
        added.length = (texts.flatMap Text.lines).length ∧
        ∀ (k : Nat) (line : SourceLine), added[k]? = some line →
          line.number = session.lines.size + k + 1 ∧
            (texts.flatMap Text.lines)[k]? = some line.text := by
  constructor
  · intro hended
    rw [session.foldl_feed hended]
    exact ⟨rfl, rfl, rfl⟩
  · have hlines : texts.foldl feed session =
        (texts.flatMap Text.lines).foldl readLine session := List.foldl_flatMap.symm
    rw [hlines]
    exact session.exists_lines_foldl_readLine _

/-- Four pieces, one of them empty and the last without a line feed, have four lines. -/
theorem fed_in_pieces_loop :
    let texts := ["loop:\r\n", "", "JMP loop\n\n", "x y"]
    (∀ text ∈ texts.dropLast, text = "" ∨ text.toList.getLast? = some '\n') ∧
      (fed texts).lines = (empty.feed "loop:\r\nJMP loop\n\nx y").lines ∧
      (fed texts).diagnostics = (empty.feed "loop:\r\nJMP loop\n\nx y").diagnostics ∧
      (fed texts).finish = (empty.feed "loop:\r\nJMP loop\n\nx y").finish ∧
      ∃ line, (fed texts).lines.toList[3]? = some line ∧ line.number = 4 ∧ line.text = "x y" := by
  intro texts
  have hended : ∀ text ∈ texts.dropLast, text = "" ∨ text.toList.getLast? = some '\n' := by
    decide
  obtain ⟨hsame, added, hadded, hlength, hnumber⟩ := fed_in_pieces empty texts
  obtain ⟨hlines, hdiagnostics, hfinish⟩ := hsame hended
  have hfour : texts.flatMap Text.lines = ["loop:", "JMP loop", "", "x y"] := by decide
  rw [hfour] at hlength hnumber
  have hlast := List.getElem?_eq_getElem (show 3 < added.length by rw [hlength]; decide)
  obtain ⟨hplace, htext⟩ := hnumber 3 _ hlast
  refine ⟨hended, hlines, hdiagnostics, hfinish, _, ?_, hplace, (Option.some.inj htext).symm⟩
  have hall : (fed texts).lines.toList = added := hadded
  rw [hall, hlast]

end Session

end Redstone

import Externs.Compile
import Externs.Proofs.Comment.Blanked
import Externs.Proofs.Schema.Compiled

/-!
# Places of problems

A source is read with its comments blanked, and what is wrong with it is shown in the
source itself. Comments are white space to the compiler: the source and its blanked text
have the same outcome. Where a problem is shown agrees with the line and column that its
message gives.
-/

set_option autoImplicit false

namespace Externs

open Text (IsBoundary Position)
open Schema (Rejection NamespaceNode Understood)

/-- A reader reports its problem at a byte of the text that it was given, or at its end. -/
theorem Json.Reader.marks_of_whole {α : Type} {value : Json.Reader α} {text : List Char}
    {complaint : Json.Complaint} (failed : whole value text = .error complaint) :
    ∃ offset, complaint.position.Marks text offset := by
  rw [whole] at failed
  split at failed
  · cases failed
  · next fault _ _ =>
      obtain rfl := Except.error.inj failed
      exact ⟨_, Text.marks_ofOffset (Nat.sub_le _ (fault.left.getD 0))⟩

theorem ne_unreadable_of_lower {fileName : String} {document : List NamespaceNode}
    {rejection : Rejection}
    (failed : Compiled.mk fileName <$> document.mapM (NamespaceNode.lower fileName) =
      .error rejection) (complaint : Json.Complaint) (offset : Nat) :
    rejection ≠ .unreadable complaint offset := by
  rintro rfl
  exact (Understood.mapM (NamespaceNode.understood_lower fileName) document).map _ _ failed

/-- The outcome for a source and the one for its blanked text: they differ at most in the
offset where a problem is shown, which is moved down to a boundary of the source. -/
inductive SameOutcome (source : List Char) :
    Except Rejection Compiled → Except Rejection Compiled → Prop
  | compiled (compiled : Compiled) : SameOutcome source (.ok compiled) (.ok compiled)
  | unreadable (complaint : Json.Complaint) {offset blankedOffset : Nat}
      (greatest : IsGreatest
        {boundary | IsBoundary source boundary ∧ boundary ≤ blankedOffset} offset) :
      SameOutcome source (.error (.unreadable complaint offset))
        (.error (.unreadable complaint blankedOffset))
  | rejected (rejection : Rejection)
      (readable : ∀ complaint offset, rejection ≠ .unreadable complaint offset) :
      SameOutcome source (.error rejection) (.error rejection)

theorem compile_blank (source fileName : String) :
    (∀ text, Comment.blank source = .ok text →
      Comment.blank text = .ok text ∧
        SameOutcome source.toList (compile source fileName) (compile text fileName)) ∧
      ∀ opener, Comment.blank source = .error opener →
        compile source fileName = .error (.unclosedComment opener) := by
  refine ⟨fun text blanked => ?_, fun opener unclosed => compile_of_unclosed unclosed fileName⟩
  have again := Comment.blank_blank blanked
  have covers := Comment.covers_scan (Comment.scan_of_blank blanked)
  refine ⟨again, ?_⟩
  rw [compile_of_blank blanked, compile_of_blank again]
  split
  · exact .rejected _ nofun
  · cases read : Schema.readDocument text.toList with
    | error complaint =>
        obtain ⟨offset, marks⟩ := Json.Reader.marks_of_whole read
        exact .unreadable complaint (covers.isGreatest_toOffset marks)
    | ok document =>
        dsimp only
        split
        · exact .rejected _ nofun
        · cases lowered : Compiled.mk fileName <$> document.mapM (NamespaceNode.lower fileName) with
          | ok compiled => exact .compiled compiled
          | error rejection => exact .rejected rejection (ne_unreadable_of_lower lowered)

/-- The last byte of the comment is inside of a character of the source, and a space of
its own in the blanked text. -/
theorem compile_blank_wideComment :
    Comment.blank "[//é" = .ok "[    " ∧
      compile "[//é" "a.json" = .error (.unreadable ⟨.endInList, ⟨1, 5⟩⟩ 3) ∧
      compile "[    " "a.json" = .error (.unreadable ⟨.endInList, ⟨1, 5⟩⟩ 4) ∧
      IsGreatest {boundary | IsBoundary "[//é".toList boundary ∧ boundary ≤ 4} 3 := by
  have blanked : Comment.blank "[//é" = .ok "[    " := by rfl
  have source : compile "[//é" "a.json" = .error (.unreadable ⟨.endInList, ⟨1, 5⟩⟩ 3) := by rfl
  have text : compile "[    " "a.json" = .error (.unreadable ⟨.endInList, ⟨1, 5⟩⟩ 4) := by rfl
  refine ⟨blanked, source, text, ?_⟩
  have same := ((compile_blank "[//é" "a.json").1 _ blanked).2
  rw [source, text] at same
  cases same with
  | unreadable _ greatest => exact greatest

/-- An unreadable source has a position that marks a byte of its blanked text, and is
shown where the source shows that position. -/
theorem shows_of_unreadable {source fileName : String} {complaint : Json.Complaint} {offset : Nat}
    (rejected : compile source fileName = .error (.unreadable complaint offset)) :
    ∃ text place, Comment.blank source = .ok text ∧
      complaint.position.Marks text.toList place ∧
      complaint.position.Shows source.toList offset := by
  have compiles := compiles source fileName
  generalize compile source fileName = outcome at compiles rejected
  cases compiles with
  | unclosed _ | notAList _ _ | noNamespaces _ _ => cases rejected
  | @unreadable text complaint blanked read =>
      obtain ⟨rfl, rfl⟩ := Rejection.unreadable.inj (Except.error.inj rejected)
      obtain ⟨place, marks⟩ := Json.Reader.marks_of_whole read
      have covers := Comment.covers_scan (Comment.scan_of_blank blanked)
      exact ⟨text, place, blanked, marks, (covers.marks marks).shows⟩
  | lowered _ _ _ => exact (ne_unreadable_of_lower rejected complaint offset rfl).elim

theorem shows_of_unreadable_wideComment :
    compile "[\n//é" "a.json" = .error (.unreadable ⟨.endInList, ⟨2, 4⟩⟩ 4) ∧
      Position.Shows ⟨2, 4⟩ "[\n//é".toList 4 := by
  have rejected : compile "[\n//é" "a.json" = .error (.unreadable ⟨.endInList, ⟨2, 4⟩⟩ 4) := by rfl
  obtain ⟨text, place, -, -, shown⟩ := shows_of_unreadable rejected
  exact ⟨rejected, shown⟩

end Externs

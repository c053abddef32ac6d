import PlainTables.Proofs.Script.Sentences
import PlainTables.Proofs.Statement.Written

/-! Scripts that are written are read back. Main statement: whatever stands in its quoted texts, a
script of written statements is cut into as many pieces, and each piece is read as its statement. -/
namespace PlainTables.Script

open Token (spaced)

/-- The tokens of a written script: each statement with its semicolon. -/
def written (script : List Statement) : List Token :=
  closedBySemicolons (script.map Statement.written)

/-- Statements that can be written: each is as a statement that was read is, and a column it compares
can be written as a name. -/
def Writable (script : List Statement) : Prop :=
  ∀ statement ∈ script, statement.Proper ∧ statement.filter.PlainColumns

theorem writable_written {script : List Statement} (writable : Writable script) :
    ∀ t ∈ written script, t.Writable := by
  intro t member
  obtain ⟨words,inside,here⟩ := List.mem_flatMap.mp member
  obtain ⟨statement,stands,rfl⟩ := List.mem_map.mp inside
  rcases List.mem_append.mp here with word | last
  · exact Statement.writable_written (writable statement stands).2 t word
  · rw [List.mem_singleton.mp last]
    trivial

theorem spells_written {script : List Statement} (writable : Writable script) :
    List.Forall₂ Statement.Spells (script.map Statement.written) script :=
  List.forall₂_map_left_iff.mpr (List.forall₂_same.mpr fun statement member =>
    (writable statement member).1.spells_written)

/-- A script in which every word but a compared column is quoted is read back, however it is laid
out. -/
theorem statements_of_layout (script : List Statement) (writable : Writable script)
    (text : String) (layout : Token.Layout (written script) text.toList) :
    (statements text).map Statement.parse = script.map .ok := by
  apply map_parse_of_leads (spells_written writable) layout.reads .none
  rw [List.append_nil,written]

/-- Statements whose texts look like quotes, comments, semicolons and further statements. -/
def guarded : List Statement := [
  .insert "t" ["a","b"] [["it's; DROP TABLE t;","--"],["","/*"]],
  .readOrdered "t" ["*"] ⟨[⟨"a",.gtEq,"'"⟩,⟨"_1",.notEq,"1;\n"⟩],[.or]⟩ ⟨"ORDER",false⟩,
  .delete "t" ⟨[⟨"b",.eq,"' OR a = '"⟩],[]⟩]

def guardedText : String :=
  "INSERT INTO 't' ( 'a' , 'b' ) VALUES ( 'it''s; DROP TABLE t;' , '--' ) , ( '' , '/*' ) ; " ++
  "SELECT '*' FROM 't' WHERE a >= '''' OR _1 != '1;\n' ORDER BY 'ORDER' DESC ; " ++
  "DELETE FROM 't' WHERE b = ''' OR a = ''' ; "

theorem guarded_read_back :
    Writable guarded ∧ Token.Layout (written guarded) guardedText.toList ∧
      (statements guardedText).map Statement.parse = guarded.map .ok := by
  have writable : Writable guarded := by
    unfold Writable
    decide +kernel
  have same : spaced (written guarded) = guardedText.toList := by decide +kernel
  have layout := Token.layout_spaced (writable_written writable)
  rw [same] at layout
  exact ⟨writable,layout,statements_of_layout guarded writable guardedText layout⟩

end PlainTables.Script

/-! Lines. A line ends at a line feed, and a carriage return right before that line feed
belongs to the line end too. A last line without a line feed counts unless it is empty, and
keeps its carriage return. The symbols may be characters or bytes. -/
namespace PlainTables.Text

variable {α : Type} [DecidableEq α]

def dropReturn (ret : α) (line : List α) : List α :=
  if line.getLast? = some ret then line.dropLast else line

def linesOf (feed ret : α) (text : List α) : List (List α) :=
  let pieces := text.splitOn feed
  let closed := pieces.dropLast.map (dropReturn ret)
  match pieces.getLast? with
  | some (a :: rest) => closed ++ [a :: rest]
  | _ => closed

@[simp] theorem linesOf_nil (feed ret : α) : linesOf feed ret [] = [] := by
  simp [linesOf]

/-- Lines of a text. -/
def lines (text : String) : List String :=
  (linesOf '\n' '\r' text.toList).map String.ofList

/-- Lines of a file; nothing stands for one that is not UTF-8. -/
def byteLines (bytes : ByteArray) : List (Option String) :=
  (linesOf 10 13 bytes.toList).map (fun line => String.fromUTF8? ⟨line.toArray⟩)

end PlainTables.Text

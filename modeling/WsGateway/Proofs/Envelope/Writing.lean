import WsGateway.Envelope.Stream
import WsGateway.Proofs.Json.Composition

/-!
# What a writer has written

The text of a writer is a head, which the header makes, and behind it the pieces of the entries with
commas between them (`StreamWriter.Written`). One entry that can be encoded adds its piece
(`Written.push`, `Written.entry`), and so a list of entries adds theirs in order
(`Written.writeAll`).
-/

namespace WsGateway

open Json (Value commaSeparated memberText)

namespace StreamWriter

/-! ## Pieces of text -/

/-- The writer has the shape and has written the pieces behind the head, one for each entry. -/
structure Written (w : StreamWriter) (shape : StreamShape) (head : List Char)
    (pieces : List (List Char)) : Prop where
  hasShape : w.shape = shape
  countsEntries : w.entries = pieces.length
  text_eq : w.text.toList = head ++ commaSeparated pieces

/-- A writer that has just been opened has written its header. -/
theorem written_openWith (instanceId : UInt64) (rerid : Int64) (kind : ResponseKind) (op : String)
    (shape : StreamShape) :
    (openWith instanceId rerid kind op shape).Written shape
      (header instanceId rerid kind op shape).toList [] := by
  refine ⟨rfl, rfl, ?_⟩
  rw [text, openWith, String.toList_join, commaSeparated]
  simp

theorem toList_text_put (w : StreamWriter) (piece : String) :
    (w.put piece).text.toList = w.text.toList ++ piece.toList := by
  simp [text, put, String.toList_join]

/-- A piece behind the others has a comma in front of it, unless it is the first. -/
theorem commaSeparated_concat (pieces : List (List Char)) (piece : List Char) :
    commaSeparated (pieces ++ [piece]) =
      commaSeparated pieces ++ (if pieces.length > 0 then [','] else []) ++ piece := by
  cases pieces with
  | nil => simp [commaSeparated]
  | cons x xs => simp [commaSeparated]

section Step

variable {w : StreamWriter} {shape : StreamShape} {head : List Char} {pieces : List (List Char)}

/-- A comma is due behind the first piece. -/
theorem Written.toList_text_separate (h : w.Written shape head pieces) :
    w.separate.text.toList = head ++ commaSeparated pieces ++
      (if pieces.length > 0 then [','] else []) := by
  have hcomma : ",".toList = [','] := rfl
  rw [separate, h.countsEntries]
  split
  · rw [toList_text_put, h.text_eq, hcomma]
  · rw [h.text_eq, List.append_nil]

/-- An entry is complete when its encoding stands behind what has been begun of it. -/
theorem Written.complete (h : w.Written shape head pieces) {started : StreamWriter}
    {piece : List Char} {e : Encoding} (hshape : started.shape = w.shape)
    (htext : started.text.toList ++ e.written.toList = w.separate.text.toList ++ piece)
    (he : e.failure = none) :
    ∃ w', StreamWriter.complete w.buffer.size w.entries started e = (.ok (), w') ∧
      w'.Written shape head (pieces ++ [piece]) := by
  refine ⟨{ started.put e.written with entries := w.entries + 1 }, ?_, ?_, ?_, ?_⟩
  · rw [StreamWriter.complete, he]
  · exact hshape.trans h.hasShape
  · rw [List.length_append, h.countsEntries]
    rfl
  · have hput : (started.put e.written).text.toList =
        head ++ commaSeparated (pieces ++ [piece]) := by
      rw [toList_text_put, htext, h.toList_text_separate, commaSeparated_concat]
      simp only [List.append_assoc]
    exact hput

theorem shape_separate (w : StreamWriter) : w.separate.shape = w.shape := by
  rw [separate]
  split <;> rfl

/-- **One element** adds its encoding to the pieces. -/
theorem Written.push (h : w.Written .array head pieces) {e : Encoding} (he : e.failure = none) :
    ∃ w', w.push e = (.ok (), w') ∧ w'.Written .array head (pieces ++ [e.written.toList]) := by
  rw [StreamWriter.push, if_neg (not_not_intro h.hasShape)]
  exact h.complete w.shape_separate rfl he

/-- **One member** adds its key and its encoding to the pieces. -/
theorem Written.entry (h : w.Written .object head pieces) (key : String) {e : Encoding}
    (he : e.failure = none) :
    ∃ w', w.entry key e = (.ok (), w') ∧
      w'.Written .object head (pieces ++ [memberText key e.written.toList]) := by
  have hcolon : ":".toList = [':'] := rfl
  rw [StreamWriter.entry, if_neg (not_not_intro h.hasShape)]
  refine h.complete w.shape_separate ?_ he
  rw [toList_text_put, toList_text_put, hcolon, memberText]
  simp only [List.append_assoc, List.singleton_append]

/-- One element that is a value adds the text of the value. -/
theorem Written.push_value (h : w.Written .array head pieces) (v : Value) :
    ∃ w', w.push (Content.value v).encoding = (.ok (), w') ∧
      w'.Written .array head (pieces ++ [v.print.toList]) :=
  h.push (e := ⟨v.print, none⟩) rfl

/-- One member that is a value adds its key and the text of the value. -/
theorem Written.entry_value (h : w.Written .object head pieces) (m : String × Value) :
    ∃ w', w.entry m.1 (Content.value m.2).encoding = (.ok (), w') ∧
      w'.Written .object head (pieces ++ [memberText m.1 m.2.print.toList]) :=
  h.entry m.1 (e := ⟨m.2.print, none⟩) rfl

end Step

/-! ## Lists of entries -/

/-- The writer after a list of entries, up to the first that fails. -/
def writeAll {α : Type} (add : StreamWriter → α → Except Error Unit × StreamWriter)
    (w : StreamWriter) : List α → Except Error StreamWriter
  | [] => .ok w
  | a :: as =>
    match add w a with
    | (.ok (), w) => writeAll add w as
    | (.error e, _) => .error e

/-- **A list of entries** adds their pieces in order, if each entry adds its own. -/
theorem Written.writeAll {α : Type} (add : StreamWriter → α → Except Error Unit × StreamWriter)
    (piece : α → List Char) {shape : StreamShape} {head : List Char}
    (hadd : ∀ {w : StreamWriter} {pieces}, w.Written shape head pieces →
      ∀ a, ∃ w', add w a = (.ok (), w') ∧ w'.Written shape head (pieces ++ [piece a]))
    (as : List α) {w : StreamWriter} {pieces : List (List Char)}
    (h : w.Written shape head pieces) :
    ∃ w', writeAll add w as = .ok w' ∧ w'.Written shape head (pieces ++ as.map piece) := by
  induction as generalizing w pieces with
  | nil => exact ⟨w, rfl, by simpa using h⟩
  | cons a as ih =>
    -- the invariant passes from one writer to the next
    obtain ⟨w₁, hone, hw₁⟩ := hadd h a
    obtain ⟨w', hrest, hw'⟩ := ih hw₁
    refine ⟨w', ?_, ?_⟩
    · rw [StreamWriter.writeAll, hone]
      exact hrest
    · rw [List.map_cons]
      rw [List.append_assoc, List.singleton_append] at hw'
      exact hw'

/-- The whole text of a list. -/
theorem Written.finish_array {w : StreamWriter} {head : List Char} {pieces : List (List Char)}
    (h : w.Written .array head pieces) :
    w.finish.toList = head ++ (commaSeparated pieces ++ [']', '\x7d']) := by
  have hclose : "]\x7d".toList = [']', '\x7d'] := rfl
  rw [finish, h.hasShape, String.toList_append, h.text_eq, hclose, List.append_assoc]

/-- The whole text of an object. -/
theorem Written.finish_object {w : StreamWriter} {head : List Char} {pieces : List (List Char)}
    (h : w.Written .object head pieces) :
    w.finish.toList = head ++ (commaSeparated pieces ++ ['\x7d', '\x7d']) := by
  have hclose : "\x7d\x7d".toList = ['\x7d', '\x7d'] := rfl
  rw [finish, h.hasShape, String.toList_append, h.text_eq, hclose, List.append_assoc]

end StreamWriter

end WsGateway

import Mathlib.Data.List.DropRight
import WsGateway.Proofs.Envelope.Streaming
import WsGateway.Proofs.Json.Recognition
import WsGateway.Reply

/-!
# Writers under arbitrary use

A writer can be used in any way: entries and elements of any text, on a writer of either shape, with
encodings that stop early, and everything taken back in between. Its buffer is always the header and
behind it the pieces of what has been accepted since the last reset (`StreamWriter.Holds`). One use
either adds its piece (`Holds.apply_taken`), or is refused and changes nothing (`apply_refused`), or
opens the writer anew (`Holds.reset`); a run of uses follows by induction (`holds_after`). If all
that was accepted is well-formed JSON then the frame is an object of the five members of a response
(`hasMembers_frame`).
-/

namespace WsGateway

open Json (commaSeparated memberText WellFormed)

namespace StreamWriter

/-! ## Uses -/

/-- One use of a writer. -/
inductive Use where
  | entry (key : String) (e : Encoding)
  | push (e : Encoding)
  | reset
  deriving DecidableEq

/-- What was put into a writer: the text of a content, and the name if it is a member. -/
structure Item where
  key? : Option String
  text : List Char

/-- The text that stands for an item between the commas. -/
def Item.piece (i : Item) : List Char :=
  match i.key? with
  | some key => memberText key i.text
  | none => i.text

namespace Use

/-- A use of a writer, with its result. -/
def apply (w : StreamWriter) : Use → Except Error Unit × StreamWriter
  | .entry key e => w.entry key e
  | .push e => w.push e
  | .reset => (.ok (), w.reset)

def encodeFailure (message : String) : Error := .internal ("stream encode failed: " ++ message)

/-- Why a writer of the shape refuses a use, if it does. -/
def refusal? (shape : StreamShape) : Use → Option Error
  | .entry _ e =>
    if shape = .array then some (.unsupported "entry() on an array stream")
    else e.failure.map encodeFailure
  | .push e =>
    if shape = .object then some (.unsupported "push() on an object stream")
    else e.failure.map encodeFailure
  | .reset => none

/-- What a use would put into a writer. -/
def item? : Use → Option Item
  | .entry key e => some ⟨some key, e.written.toList⟩
  | .push e => some ⟨none, e.written.toList⟩
  | .reset => none

/-- What a writer of the shape takes from a use, if it takes something. -/
def taken? (shape : StreamShape) (u : Use) : Option Item :=
  if (u.refusal? shape).isSome then none else u.item?

/-- Every use but a reset brings an item. -/
theorem exists_item {u : Use} (hu : u ≠ .reset) : ∃ item, u.item? = some item := by
  cases u with
  | entry key e => exact ⟨_, rfl⟩
  | push e => exact ⟨_, rfl⟩
  | reset => exact absurd rfl hu

theorem taken?_of_refused {shape : StreamShape} {u : Use} {error : Error}
    (h : u.refusal? shape = some error) : u.taken? shape = none := by
  rw [taken?, h]
  rfl

theorem taken?_of_not_refused {shape : StreamShape} {u : Use} (h : u.refusal? shape = none) :
    u.taken? shape = u.item? := by
  rw [taken?, h]
  rfl

end Use

def after (w : StreamWriter) (uses : List Use) : StreamWriter :=
  uses.foldl (fun w u => (u.apply w).2) w

/-- What a writer of the shape has taken since the last reset. -/
def accepted (shape : StreamShape) (uses : List Use) : List Item :=
  (uses.rtakeWhile (· ≠ .reset)).filterMap (Use.taken? shape)

/-- The last use works on what the others left. -/
theorem after_concat (w : StreamWriter) (uses : List Use) (u : Use) :
    w.after (uses ++ [u]) = (u.apply (w.after uses)).2 := by
  rw [after, List.foldl_append]
  rfl

/-- A reset takes back everything that was accepted. -/
theorem accepted_concat_reset (shape : StreamShape) (uses : List Use) :
    accepted shape (uses ++ [.reset]) = [] := by
  rw [accepted, List.rtakeWhile_concat_neg _ _ _ (by simp)]
  rfl

/-- The last use adds its item to those that were accepted, if it is taken. -/
theorem accepted_concat {u : Use} (hu : u ≠ .reset) (shape : StreamShape) (uses : List Use) :
    accepted shape (uses ++ [u]) = accepted shape uses ++ (u.taken? shape).toList := by
  rw [accepted, List.rtakeWhile_concat_pos _ _ _ (by simpa using hu), List.filterMap_append]
  cases h : u.taken? shape <;> simp [accepted, h]

/-! ## One use -/

/-- The writer is that of the header with the items written, each behind its comma. -/
structure Holds (w : StreamWriter) (shape : StreamShape) (head : String) (items : List Item) :
    Prop extends Written w shape head.toList (items.map Item.piece) where
  first : w.buffer.toList.head? = some head
  headerSize : w.headerSize = 1

/-- A writer that has just been opened holds its header and no item. -/
theorem holds_openWith (instanceId : UInt64) (rerid : Int64) (kind : ResponseKind) (op : String)
    (shape : StreamShape) :
    (openWith instanceId rerid kind op shape).Holds shape (header instanceId rerid kind op shape)
      [] :=
  ⟨written_openWith instanceId rerid kind op shape, rfl, rfl⟩

/-- A writer with more pieces behind those of another one. -/
def Continues (w started : StreamWriter) : Prop :=
  ∃ more, started = { w with buffer := w.buffer ++ more }

theorem Continues.put {w started : StreamWriter} (h : w.Continues started) (piece : String) :
    w.Continues (started.put piece) := by
  obtain ⟨more, rfl⟩ := h
  exact ⟨more.push piece, by simp [StreamWriter.put]⟩

/-- A comma, if one is due, goes behind what is there. -/
theorem continues_separate (w : StreamWriter) : w.Continues w.separate := by
  have hself : w.Continues w := ⟨#[], by simp⟩
  rw [separate]
  split
  · exact hself.put ","
  · exact hself

/-- Cutting back a continuation gives the writer that it began with. -/
theorem Continues.truncate {w started : StreamWriter} (h : w.Continues started) :
    started.truncate w.buffer.size = w := by
  obtain ⟨more, rfl⟩ := h
  simp [StreamWriter.truncate]

theorem Continues.head? {w started : StreamWriter} (h : w.Continues started) {head : String}
    (hw : w.buffer.toList.head? = some head) : started.buffer.toList.head? = some head := by
  obtain ⟨more, rfl⟩ := h
  rw [Array.toList_append, List.head?_append, hw]
  rfl

theorem Continues.headerSize_eq {w started : StreamWriter} (h : w.Continues started) :
    started.headerSize = w.headerSize := by
  obtain ⟨more, rfl⟩ := h
  rfl

/-- An entry whose encoding stops early is taken back, with its comma. -/
theorem complete_failed {w started : StreamWriter} (h : w.Continues started) {e : Encoding}
    {message : String} (he : e.failure = some message) :
    StreamWriter.complete w.buffer.size w.entries started e =
      (.error (Use.encodeFailure message), w) := by
  rw [StreamWriter.complete, he]
  dsimp only
  rw [(h.put e.written).truncate]
  rfl

/-- **A use that is refused changes nothing.** -/
theorem apply_refused {w : StreamWriter} {shape : StreamShape} (hshape : w.shape = shape) {u : Use}
    {error : Error} (hu : u.refusal? shape = some error) : u.apply w = (.error error, w) := by
  subst hshape
  cases u with
  | entry key e =>
    rw [Use.apply, entry]
    cases hw : w.shape with
    | array =>
      rw [hw] at hu
      cases hu
      rfl
    | object =>
      rw [hw] at hu
      obtain ⟨message, he, rfl⟩ := Option.map_eq_some_iff.mp hu
      -- The separator and the key were put already; the failed content takes them back.
      exact complete_failed ((w.continues_separate.put _).put _) he
  | push e =>
    rw [Use.apply, push]
    cases hw : w.shape with
    | object =>
      rw [hw] at hu
      cases hu
      rfl
    | array =>
      rw [hw] at hu
      obtain ⟨message, he, rfl⟩ := Option.map_eq_some_iff.mp hu
      exact complete_failed w.continues_separate he
  | reset => cases hu

section Step

variable {w : StreamWriter} {shape : StreamShape} {head : String} {items : List Item}

/-- A piece that is complete makes its item one of those that are held. -/
theorem Holds.complete (h : w.Holds shape head items) {started : StreamWriter}
    (hstarted : w.Continues started) {e : Encoding} (he : e.failure = none) {w' : StreamWriter}
    (hw' : StreamWriter.complete w.buffer.size w.entries started e = (.ok (), w')) {item : Item}
    (hwritten : w'.Written shape head.toList (items.map Item.piece ++ [item.piece])) :
    w'.Holds shape head (items ++ [item]) := by
  rw [StreamWriter.complete, he] at hw'
  cases hw'
  have hput := hstarted.put e.written
  refine ⟨?_, hput.head? h.first, hput.headerSize_eq.trans h.headerSize⟩
  rw [List.map_append]
  exact hwritten

/-- **A use that is not refused adds its piece.** -/
theorem Holds.apply_taken (h : w.Holds shape head items) {u : Use}
    (hu : u.refusal? shape = none) {item : Item} (hitem : u.item? = some item) :
    ∃ w', u.apply w = (.ok (), w') ∧ w'.Holds shape head (items ++ [item]) := by
  cases u with
  | entry key e =>
    cases hitem
    cases shape with
    | array => cases hu
    | object =>
      have he : e.failure = none := Option.map_eq_none_iff.mp hu
      obtain ⟨w', hw', hwritten⟩ := h.toWritten.entry key he
      refine ⟨w', hw', ?_⟩
      -- The separator and the key are part of the item, so they count as written with its content.
      rw [entry, if_neg (not_not_intro h.hasShape)] at hw'
      exact h.complete ((w.continues_separate.put _).put _) he hw' hwritten
  | push e =>
    cases hitem
    cases shape with
    | object => cases hu
    | array =>
      have he : e.failure = none := Option.map_eq_none_iff.mp hu
      obtain ⟨w', hw', hwritten⟩ := h.toWritten.push he
      refine ⟨w', hw', ?_⟩
      rw [push, if_neg (not_not_intro h.hasShape)] at hw'
      exact h.complete w.continues_separate he hw' hwritten
  | reset => cases hitem

/-- **A reset opens the writer anew.** -/
theorem Holds.reset (h : w.Holds shape head items) : w.reset = ⟨shape, #[head], 1, 0⟩ := by
  have hbuffer : w.buffer.take 1 = #[head] := by
    apply Array.toList_inj.mp
    obtain ⟨rest, hrest⟩ := List.head?_eq_some_iff.mp h.first
    simp [hrest]
  rw [StreamWriter.reset, truncate, h.headerSize, hbuffer, h.hasShape]

/-- A use that is not refused succeeds. -/
theorem Holds.apply_ok (h : w.Holds shape head items) {u : Use} (hu : u.refusal? shape = none) :
    (u.apply w).1 = .ok () := by
  cases hitem : u.item? with
  | some item =>
    obtain ⟨w', hw', -⟩ := h.apply_taken hu hitem
    rw [hw']
  | none =>
    -- only a reset puts nothing in
    cases u with
    | entry => cases hitem
    | push => cases hitem
    | reset => rfl

end Step

/-! ## Runs -/

/-- **After any uses** the writer holds what has been accepted since the last reset. -/
theorem holds_after (instanceId : UInt64) (rerid : Int64) (kind : ResponseKind) (op : String)
    (shape : StreamShape) (uses : List Use) :
    ((openWith instanceId rerid kind op shape).after uses).Holds shape
      (header instanceId rerid kind op shape) (accepted shape uses) := by
  -- from behind, since the last use is made on what the earlier ones have left
  induction uses using List.reverseRecOn with
  | nil => exact holds_openWith instanceId rerid kind op shape
  | append_singleton uses u ih =>
    rw [after_concat]
    by_cases hreset : u = .reset
    · subst hreset
      rw [accepted_concat_reset, Use.apply, ih.reset]
      exact holds_openWith instanceId rerid kind op shape
    · rw [accepted_concat hreset]
      cases hu : u.refusal? shape with
      | some error =>
        rw [apply_refused ih.hasShape hu, Use.taken?_of_refused hu, Option.toList_none,
          List.append_nil]
        exact ih
      | none =>
        obtain ⟨item, hitem⟩ := Use.exists_item hreset
        obtain ⟨w', hw', hholds⟩ := ih.apply_taken hu hitem
        rw [hw', Use.taken?_of_not_refused hu, hitem]
        exact hholds

/-! ## Octets -/

/-- The octets that a writer has written: those of its pieces, one after another. -/
def octets (w : StreamWriter) : ByteArray :=
  w.buffer.toList.foldr (fun piece rest => piece.toUTF8 ++ rest) .empty

/-- The octets are those of the text. -/
theorem octets_eq (w : StreamWriter) : w.octets = w.text.toUTF8 := by
  rw [octets, text]
  induction w.buffer.toList with
  | nil => rfl
  | cons piece rest ih =>
    rw [List.foldr_cons, ih, String.join_cons]
    exact String.toByteArray_append.symm

/-- The writer counts its octets. -/
theorem size_octets (w : StreamWriter) : w.octets.size = w.buffered := by
  rw [octets, buffered]
  induction w.buffer.toList with
  | nil => rfl
  | cons piece rest ih => rw [List.foldr_cons, List.foldr_cons, ByteArray.size_append, ih]; rfl

def closing : StreamShape → String
  | .object => "\x7d\x7d"
  | .array => "]\x7d"

theorem finish_eq (w : StreamWriter) : w.finish = w.text ++ closing w.shape := rfl

/-- The octets of a finished writer are those of a text. -/
theorem fromUTF8?_finish (w : StreamWriter) :
    String.fromUTF8? (w.octets ++ (closing w.shape).toUTF8) = some w.finish := by
  have hfinish : w.octets ++ (closing w.shape).toUTF8 = w.finish.toByteArray := by
    rw [octets_eq, finish_eq]
    exact String.toByteArray_append.symm
  rw [hfinish, String.fromUTF8?, dif_pos w.finish.isValidUTF8]
  rfl

/-! ## Frames -/

/-- The brackets of the shape around a text. -/
def bracketed (shape : StreamShape) (inner : List Char) : List Char :=
  match shape with
  | .object => '\x7b' :: (inner ++ ['\x7d'])
  | .array => '[' :: (inner ++ [']'])

/-- A writer of an object takes members, and one of a list takes elements. -/
theorem key?_of_mem_accepted {shape : StreamShape} {uses : List Use} {item : Item}
    (h : item ∈ accepted shape uses) : item.key?.isSome ↔ shape = .object := by
  obtain ⟨u, -, hu⟩ := List.mem_filterMap.mp h
  cases hrefusal : u.refusal? shape with
  | some error =>
    rw [Use.taken?_of_refused hrefusal] at hu
    cases hu
  | none =>
    rw [Use.taken?_of_not_refused hrefusal] at hu
    -- What is used in the wrong shape is refused, so the item shows which shape it was.
    cases u with
    | entry key e =>
      cases hu
      cases shape with
      | object => exact iff_of_true rfl rfl
      | array => cases hrefusal
    | push e =>
      cases hu
      cases shape with
      | object => cases hrefusal
      | array => exact iff_of_false Bool.false_ne_true (by decide)
    | reset => cases hu

/-- The items make up well-formed JSON if each of their texts is. -/
theorem wellFormed_bracketed {shape : StreamShape} {items : List Item}
    (hkey : ∀ item ∈ items, item.key?.isSome ↔ shape = .object)
    (htext : ∀ item ∈ items, WellFormed item.text) :
    WellFormed (bracketed shape (commaSeparated (items.map Item.piece))) := by
  cases shape with
  | object =>
    -- In an object every item has a key, so its piece is a member.
    have hpieces : items.map Item.piece =
        (items.map fun i => (i.key?.getD "", i.text)).map fun m => memberText m.1 m.2 := by
      rw [List.map_map]
      refine List.map_congr_left fun item hitem => ?_
      obtain ⟨key, hsome⟩ := Option.isSome_iff_exists.mp ((hkey item hitem).mpr rfl)
      simp [Item.piece, hsome]
    rw [hpieces]
    refine Json.wellFormed_members _ ?_
    intro m hm
    obtain ⟨item, hitem, rfl⟩ := List.mem_map.mp hm
    exact htext item hitem
  | array =>
    -- In an array no item has one, and its piece is its text.
    have hpieces : items.map Item.piece = items.map Item.text := by
      refine List.map_congr_left fun item hitem => ?_
      have hnone : item.key? = none := Option.not_isSome_iff_eq_none.mp fun h =>
        absurd ((hkey item hitem).mp h) (by decide)
      rw [Item.piece, hnone]
    rw [hpieces]
    refine .array [] _ Json.blanks_nil ?_
    intro text hmem
    obtain ⟨item, hitem, rfl⟩ := List.mem_map.mp hmem
    exact htext item hitem

/-- The finished text is the frame of a response around the items. -/
theorem Holds.finish_eq_frame {w : StreamWriter} {shape : StreamShape} {items : List Item}
    {instanceId : UInt64} {rerid : Int64} {kind : ResponseKind} {op : String}
    (h : w.Holds shape (header instanceId rerid kind op shape) items) :
    w.finish.toList = Response.frame ⟨instanceId, rerid, kind, some op, .empty⟩
      (bracketed shape (commaSeparated (items.map Item.piece))) := by
  cases shape with
  | object =>
    rw [h.toWritten.finish_object]
    exact Response.toList_header_object ⟨instanceId, rerid, kind, some op, .empty⟩ _
  | array =>
    rw [h.toWritten.finish_array]
    exact Response.toList_header_array ⟨instanceId, rerid, kind, some op, .empty⟩ _

/-- **A frame around well-formed JSON** is an object of the five members in their order. -/
theorem hasMembers_frame (r : Response) {body : List Char} (h : WellFormed body) :
    Json.HasMembers ["id", "rerid", "t", "op", "msg"] (r.frame body) := by
  refine ⟨r.frameMembers (fun v => v.print.toList) body, rfl, ?_, rfl⟩
  simp only [Response.frameMembers, List.forall_mem_cons, List.not_mem_nil, false_imp_iff,
    implies_true, and_true]
  exact ⟨Json.wellFormed_print _, Json.wellFormed_print _, Json.wellFormed_print _,
    Json.wellFormed_print _, h⟩

/-- **A writer has written just what it accepted.** Whatever the header is, and however the writer
is used: its text is the header and behind it, with commas between them, the texts of the entries
that were accepted since the last reset, and it counts these. A use that does not fit the shape or
whose encoding stops early is refused, and the writer is just as it was; every other one succeeds,
and a reset leaves the writer as it was opened. If the accepted contents are well-formed JSON then
the finished text is an object of the five members of a response in their order. Its octets are
always those of a text, which is what is sent. -/
theorem writes_just_accepted (instanceId : UInt64) (rerid : Int64) (kind : ResponseKind)
    (op : String) (shape : StreamShape) (uses : List Use) :
    let opened := openWith instanceId rerid kind op shape
    let w := opened.after uses
    let items := accepted shape uses
    (w.text.toList = (header instanceId rerid kind op shape).toList ++
        commaSeparated (items.map Item.piece) ∧
      w.octets = w.text.toUTF8 ∧ w.buffered = w.octets.size ∧ w.entries = items.length) ∧
    (∀ u : Use, (∀ error, u.refusal? shape = some error → u.apply w = (.error error, w)) ∧
      (u.refusal? shape = none → (u.apply w).1 = .ok ())) ∧
    w.reset = opened ∧
    ((∀ item ∈ items, WellFormed item.text) → ∃ body, WellFormed body ∧
      body = bracketed shape (commaSeparated (items.map Item.piece)) ∧
      w.finish.toList = Response.frame ⟨instanceId, rerid, kind, some op, .empty⟩ body ∧
      Json.HasMembers ["id", "rerid", "t", "op", "msg"] w.finish.toList ∧
      WellFormed w.finish.toList) ∧
    String.fromUTF8? (w.octets ++ (closing shape).toUTF8) = some w.finish ∧
    ∀ (target : Link) (l : Links),
      (StreamingReply.mk w target).finish l = l.write target (.text w.finish) := by
  intro opened w items
  -- All parts but the last are read from the invariant of the uses made so far.
  have hholds := holds_after instanceId rerid kind op shape uses
  refine ⟨⟨hholds.text_eq, w.octets_eq, w.size_octets.symm, ?_⟩, ?_, hholds.reset, ?_, ?_,
    fun _ _ => rfl⟩
  · rw [hholds.countsEntries, List.length_map]
  · exact fun u => ⟨fun error hu => apply_refused hholds.hasShape hu, hholds.apply_ok⟩
  · intro htext
    have hbody := wellFormed_bracketed (fun _ h => key?_of_mem_accepted h) htext
    have hframe := hholds.finish_eq_frame
    have hmembers := hframe ▸ hasMembers_frame _ hbody
    exact ⟨_, hbody, rfl, hframe, hmembers, hmembers.wellFormed⟩
  · rw [← hholds.hasShape]
    exact w.fromUTF8?_finish

/-- Failures in the middle of a content, uses of the wrong kind, and entries that were taken back
leave no trace in the frame. -/
theorem writes_past_failures :
    let uses : List Use := [.entry "a" ⟨"1", none⟩, .reset, .entry "k\"" ⟨"[1, 2]", none⟩,
      .push ⟨"3", none⟩, .entry "x" ⟨"\x7b\"y\":[", some "key must be a string"⟩,
      .entry "b" ⟨"null", none⟩]
    let w := (openWith 1 7 .response "list" .object).after uses
    w.finish = "\x7b\"id\":1,\"rerid\":7,\"t\":\"resp\",\"op\":\"list\"," ++
        "\"msg\":\x7b\"k\\\"\":[1, 2],\"b\":null\x7d\x7d" ∧
      Json.HasMembers ["id", "rerid", "t", "op", "msg"] w.finish.toList := by
  intro uses w
  have htexts : ∀ item ∈ accepted .object uses, WellFormed item.text := by
    have hitems : (accepted .object uses).map Item.text = ["[1, 2]".toList, "null".toList] := by
      decide +kernel
    intro item hitem
    have hmem := List.mem_map_of_mem (f := Item.text) hitem
    rw [hitems] at hmem
    rcases List.mem_pair.mp hmem with h | h <;> rw [h]
    · exact (Json.isSome_verbatim?_iff "[1, 2]").mp (by decide +kernel)
    · exact .null
  obtain ⟨-, -, -, hfinish, -⟩ := writes_just_accepted 1 7 .response "list" .object uses
  obtain ⟨body, -, -, -, hmembers, -⟩ := hfinish htexts
  exact ⟨by decide +kernel, hmembers⟩

end StreamWriter

end WsGateway

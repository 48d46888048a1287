import WsGateway.Links

/-!
# Room in a queue

What a write does is decided by the number of frames that a connection still accepts
(`Connection.free`): none, and the frame is dropped; else it joins the queue and uses up one place.
So of several frames the first ones arrive, as many as there is room for
(`Connection.frames_writeAll`). Among all connections, a write is the same write to one of them
(`Links.get?_write`), and whatever is known of one connection carries over.
-/

namespace WsGateway

namespace Connection

variable {c : Connection}

/-- The number of frames that the connection still accepts. -/
def free (c : Connection) : Nat := if c.isWritable then c.capacity - c.queue.length else 0

/-- The connection after frames were written to it one after another. -/
def writeAll (c : Connection) : List Frame → Connection
  | [] => c
  | f :: rest => (c.write f).2.writeAll rest

/-- There is a place just if a write would use it. -/
theorem free_pos_iff : 0 < c.free ↔ (c.isWritable && c.hasRoom) = true := by
  unfold free hasRoom
  cases c.isWritable with
  | false => simp
  | true =>
    rw [if_pos rfl, Bool.true_and, decide_eq_true_eq]
    omega

/-- A connection that accepts no more frames drops the one that is written. -/
theorem write_of_free_eq_zero (h : c.free = 0) (f : Frame) : c.write f = (none, c) := by
  have hfull : ¬ (c.isWritable && c.hasRoom) = true := by
    rw [← free_pos_iff]
    omega
  rw [write, if_neg hfull]

/-- A connection that accepts frames puts the one that is written at the end of its queue. -/
theorem write_of_free_pos (h : 0 < c.free) (f : Frame) :
    c.write f = (some c.accepted,
      { c with queue := c.queue ++ [⟨f, c.accepted⟩], accepted := c.accepted + 1 }) := by
  rw [write, if_pos (free_pos_iff.mp h)]

/-- A frame that is accepted uses up one place. -/
theorem free_write (c : Connection) (f : Frame) : (c.write f).2.free = c.free - 1 := by
  rcases Nat.eq_zero_or_pos c.free with hzero | hpos
  · rw [write_of_free_eq_zero hzero, hzero]
  · rw [write_of_free_pos hpos]
    show (if c.isWritable then c.capacity - (c.queue ++ [Outbound.mk f c.accepted]).length else 0) =
      (if c.isWritable then c.capacity - c.queue.length else 0) - 1
    rw [List.length_append, List.length_singleton]
    split
    · omega
    · rfl

/-- A frame joins the queue if the connection still accepts one. -/
theorem frames_write (c : Connection) (f : Frame) :
    (c.write f).2.frames = c.frames ++ [f].take c.free := by
  rcases Nat.eq_zero_or_pos c.free with hzero | hpos
  · rw [write_of_free_eq_zero hzero, hzero, List.take_zero, List.append_nil]
  · rw [write_of_free_pos hpos, List.take_of_length_le (by rwa [List.length_singleton])]
    simp [frames]

/-- **What several writes queue**: the first frames, as many as the connection still accepts. By
induction on the frames; each one that is accepted uses up one place. -/
theorem frames_writeAll (c : Connection) (fs : List Frame) :
    (c.writeAll fs).frames = c.frames ++ fs.take c.free := by
  induction fs generalizing c with
  | nil => simp [writeAll]
  | cons f rest ih =>
    rw [writeAll, ih, free_write, frames_write, List.append_assoc]
    cases c.free with
    | zero => simp
    | succ n => simp

end Connection

namespace Links

variable {l : Links} {k k' : Link} {c : Connection}

/-- The number of frames that the connection of a handle still accepts. -/
def free (l : Links) (k : Link) : Nat := ((l.get? k).map Connection.free).getD 0

/-- The queue of the connection has room for a frame behind `n` more. -/
def hasRoomBehind (l : Links) (k : Link) (n : Nat) : Bool :=
  (l.get? k).any fun c => c.queue.length + n < c.capacity

/-- More than `n` places are free just if the connection is writable with room behind `n` frames. -/
theorem lt_free_iff {n : Nat} :
    n < l.free k ↔ l.isWritable k = true ∧ l.hasRoomBehind k n = true := by
  simp only [free, isWritable, hasRoomBehind]
  cases l.get? k with
  | none => simp
  | some c =>
    simp only [Option.any_some, decide_eq_true_eq, Option.map_some, Option.getD_some,
      Connection.free]
    split
    · next hw =>
      simp only [hw, true_and]
      omega
    · next hw => simp [hw]

/-! ## One connection among all -/

/-- Handles of the same place lead to the same connection. -/
theorem get?_congr (h : k'.slot = k.slot) (l : Links) : l.get? k' = l.get? k := by
  rw [get?, get?, h]

theorem free_congr (h : k'.slot = k.slot) (l : Links) : l.free k' = l.free k := by
  rw [free, free, get?_congr h]

/-- Only the connection at the link's place is modified. -/
theorem get?_modify (l : Links) (k k' : Link) (f : Connection → Connection) :
    (l.modify k f).get? k' = if k'.slot = k.slot then (l.get? k').map f else l.get? k' := by
  simp only [modify, get?, List.getElem?_modify]
  by_cases h : k'.slot = k.slot
  · simp [h]
  · rw [if_neg h]
    simp [Ne.symm h]

/-! ## One write among all connections -/

theorem write_of_none (h : l.get? k = none) (f : Frame) : l.write k f = (none, l) := by
  rw [write, h]

/-- A frame for a connection without a free place is dropped, and every connection is as it was. -/
theorem write_of_free_eq_zero (h : l.get? k = some c) (hzero : c.free = 0) (f : Frame) :
    l.write k f = (none, l) := by
  rw [write, h]
  dsimp only
  rw [Connection.write_of_free_eq_zero hzero]

/-- A frame for a connection with a free place is the last of its queue, and its delivery is
numbered by the frames accepted before. -/
theorem write_of_free_pos (h : l.get? k = some c) (hpos : 0 < c.free) (f : Frame) :
    l.write k f = (some ⟨k, c.accepted⟩, l.modify k fun _ =>
      { c with queue := c.queue ++ [⟨f, c.accepted⟩], accepted := c.accepted + 1 }) := by
  rw [write, h]
  dsimp only
  rw [Connection.write_of_free_pos hpos]

/-- **A write among all connections** is one to the connection of the handle, and the others do not
notice. -/
theorem get?_write (l : Links) (k k' : Link) (f : Frame) :
    (l.write k f).2.get? k' =
      if k'.slot = k.slot then (l.get? k').map fun c => (c.write f).2 else l.get? k' := by
  cases hc : l.get? k with
  | none =>
    rw [write_of_none hc]
    split
    · next hslot => rw [get?_congr hslot, hc, Option.map_none]
    · rfl
  | some c =>
    rcases Nat.eq_zero_or_pos c.free with hzero | hpos
    · rw [write_of_free_eq_zero hc hzero]
      split
      · next hslot =>
        rw [get?_congr hslot, hc, Option.map_some, Connection.write_of_free_eq_zero hzero]
      · rfl
    · rw [write_of_free_pos hc hpos, get?_modify]
      split
      · next hslot =>
        rw [get?_congr hslot, hc, Option.map_some, Option.map_some,
          Connection.write_of_free_pos hpos]
      · rfl

/-- What is known of the connection is known of its queue: the first of several frames joined it. -/
theorem frames_of_writeAll {l' : Links} {fs : List Frame}
    (h : l'.get? k = (l.get? k).map fun c => c.writeAll fs) :
    l'.frames k = l.frames k ++ fs.take (l.free k) := by
  rw [frames, h, frames, free]
  cases l.get? k with
  | none => simp
  | some c => exact c.frames_writeAll fs

/-- A frame that is accepted uses up one place. -/
theorem free_write (l : Links) (k k' : Link) (f : Frame) :
    (l.write k f).2.free k' = if k'.slot = k.slot then l.free k' - 1 else l.free k' := by
  rw [free, get?_write, free]
  split
  · cases l.get? k' with
    | none => rfl
    | some c => exact c.free_write f
  · rfl

/-- Writing takes no instance id. -/
theorem nextInstance_write (l : Links) (k : Link) (f : Frame) :
    (l.write k f).2.nextInstance = l.nextInstance := by
  simp only [write]
  split
  · rfl
  · split <;> rfl

end Links

end WsGateway

import WsGateway.Proofs.Subscriptions.Publishing

/-!
# Sending responses to a connection

Whatever answers a request comes down to one activity: responses are sent to one connection, each
under an instance id of its own (`Links.respond`). To the connection this is several writes one
after another, and no other connection notices (`Links.get?_respond`); so its queue after the whole
activity is known from the room before it (`Links.frames_respond`).
-/

namespace WsGateway

namespace Response

/-- The frame that carries the response under an instance id. -/
def toFrame (r : Response) (instanceId : UInt64) : Frame :=
  .text (Response.print { r with instanceId := instanceId })

/-- The frames of responses that take instance ids from the given one on. -/
def numbered : UInt64 → List Response → List Frame
  | _, [] => []
  | i, r :: rest => r.toFrame i :: numbered (i + 1) rest

end Response

namespace Links

/-! ## Responses to one connection -/

/-- Responses are sent to a connection one after another, each under an instance id of its own. -/
def respond (k : Link) : List Response → Links → Links
  | [], l => l
  | r :: rest, l => respond k rest (l.freshInstance.2.write k (r.toFrame l.nextInstance)).2

/-- Only the connection that is answered changes, and it gets the answers numbered from the next
instance id. -/
theorem get?_respond (l : Links) (k k' : Link) (rs : List Response) :
    (l.respond k rs).get? k' =
      if k'.slot = k.slot then
        (l.get? k').map fun c => c.writeAll (Response.numbered l.nextInstance rs)
      else l.get? k' := by
  induction rs generalizing l with
  | nil =>
    have hid : (fun c : Connection => c.writeAll (Response.numbered l.nextInstance [])) = id := rfl
    rw [hid, Option.map_id]
    exact (ite_self _).symm
  | cons r rest ih =>
    have hnext : (l.freshInstance.2.write k (r.toFrame l.nextInstance)).2.nextInstance =
        l.nextInstance + 1 := nextInstance_write _ _ _
    have hget : l.freshInstance.2.get? k' = l.get? k' := rfl
    rw [respond, ih, get?_write, hnext, hget]
    split
    · rw [Option.map_map]
      rfl
    · rfl

/-- **What sending responses queues**: the frames of the first ones on their connection, as many
as it still accepts, and nothing on any other. -/
theorem frames_respond (l : Links) (k k' : Link) (rs : List Response) :
    (l.respond k rs).frames k' =
      if k'.slot = k.slot then
        l.frames k' ++ (Response.numbered l.nextInstance rs).take (l.free k')
      else l.frames k' := by
  have hget := get?_respond l k k' rs
  split
  · next hslot => exact frames_of_writeAll (hget.trans (if_pos hslot))
  · next hslot => rw [frames, hget, if_neg hslot, frames]

/-- A failure is one response. -/
theorem sendFailure_eq (l : Links) (k : Link) (rerid : Int64) (op : Option String)
    (message : String) :
    sendFailure k rerid op message l = l.respond k [.failure 0 rerid op message] := rfl

end Links

end WsGateway

import WsGateway.Envelope.Response
import WsGateway.Proofs.Links.Instances

/-!
# Content or stream

Responses are made, made again from one another under another kind, and worked on in any order. The
work is done in place (`Response.Task.inPlace`), and is refused before anything is written
(`Response.inPlace_eq`). All responses with the counter of their instance ids are the `Responses`,
and an `Act` is one call on them; the history lists the acts with their answers. How far the body of
a response is decided can be read off the history (`Responses.Sound`): it is streamed just if a
stream was opened, and has a content just if one was set. Hence neither is possible after the other
(`Responses.content_or_stream`), whatever was refused in between.
-/

namespace WsGateway

namespace Response

/-! ## Work on one response -/

/-- A call that works on one response. -/
inductive Task where
  | setOp (op : String)
  | setContent (c : Content)
  | beginStream (shape : StreamShape)
  /-- The whole text is asked for. -/
  | encode

/-- What a call gives back. -/
inductive Yield where
  | nothing
  | writer (w : StreamWriter)
  | text (s : String)

/-- A call is carried out; a refused one gives no new response. -/
def perform (r : Response) : Task → Except Error (Yield × Response)
  | .setOp op => .ok (.nothing, r.setOp op)
  | .setContent c => do
    let r ← r.setContent c
    pure (.nothing, r)
  | .beginStream shape => do
    let (r, w) ← r.beginStream shape
    pure (.writer w, r)
  | .encode => do
    let text ← r.encode
    pure (.text text, r)

/-- The same call as steps on a response in place: what is written stays, also if the call is
refused behind it. -/
def Task.inPlace : Task → ExceptT Error (StateM Response) Yield
  | .setOp op => do
    modify fun r => { r with op? := some op }
    return .nothing
  | .setContent c => do
    if (← get).isStreaming then
      throw (.unsupported "cannot set content: streaming already started")
    match c.toValue with
    | .error message => throw (.internal ("content encode failed: " ++ message))
    | .ok v =>
      modify fun r => { r with body := .content v }
      return .nothing
  | .beginStream shape => do
    let r ← get
    match r.body with
    | .content _ => throw (.unsupported "cannot start streaming: content already set")
    | .streaming => throw (.unsupported "stream already opened")
    | .empty =>
      let w := StreamWriter.openWith r.instanceId r.rerid r.kind r.op shape
      modify fun r => { r with body := .streaming }
      return .writer w
  | .encode => do
    let r ← get
    if r.isStreaming then
      throw (.unsupported "streaming response is written by its StreamWriter")
    return .text r.print

/-- **Nothing is written before a refusal**: each call checks all that it has to check, and only
then writes. -/
theorem inPlace_eq (r : Response) (task : Task) : task.inPlace r =
    match r.perform task with
    | .error e => (.error e, r)
    | .ok (y, r') => (.ok y, r') := by
  obtain ⟨instanceId, rerid, kind, op?, body⟩ := r
  cases task with
  | setOp op => rfl
  | setContent c =>
    cases hc : c.toValue with
    | error message =>
      simp only [Task.inPlace, perform, setContent, hc]
      cases body <;> rfl
    | ok v =>
      simp only [Task.inPlace, perform, setContent, hc]
      cases body <;> rfl
  | beginStream shape => cases body <;> rfl
  | encode => cases body <;> rfl

/-- What a call that is carried out gives back, and the body after it. -/
inductive Effect (r : Response) : Task → Yield → Body → Prop where
  | op (op : String) : Effect r (.setOp op) .nothing r.body
  | fill {c : Content} {v : Json.Value} (hc : c.toValue = .ok v) (hbody : r.body ≠ .streaming) :
      Effect r (.setContent c) .nothing (.content v)
  | start (shape : StreamShape) (w : StreamWriter) (hbody : r.body = .empty) :
      Effect r (.beginStream shape) (.writer w) .streaming
  | text (s : String) (hbody : r.body ≠ .streaming) : Effect r .encode (.text s) r.body

theorem isStreaming_iff {r : Response} : r.isStreaming = true ↔ r.body = .streaming := by
  rw [isStreaming]
  cases r.body <;> simp

/-- A call that is carried out keeps the ids and the kind, and has its effect on the body. -/
theorem effect_of_perform {r r' : Response} {task : Task} {y : Yield}
    (h : r.perform task = .ok (y, r')) :
    r'.instanceId = r.instanceId ∧ r'.rerid = r.rerid ∧ r'.kind = r.kind ∧
      r.Effect task y r'.body := by
  cases task with
  | setOp op =>
    cases h
    exact ⟨rfl, rfl, rfl, .op op⟩
  | setContent c =>
    -- Content for a streaming response is refused before it is looked at.
    by_cases hstreaming : r.isStreaming = true
    · simp [perform, setContent, hstreaming, bind, Except.bind] at h
    · have hbody : r.body ≠ .streaming := fun hb => hstreaming (isStreaming_iff.mpr hb)
      cases hc : c.toValue with
      | error message => simp [perform, setContent, hstreaming, hc, bind, Except.bind] at h
      | ok v =>
        simp only [perform, setContent, hstreaming, hc, bind, Except.bind, Bool.false_eq_true,
          if_false] at h
        cases h
        exact ⟨rfl, rfl, rfl, .fill hc hbody⟩
  | beginStream shape =>
    cases hbody : r.body with
    | content v => simp [perform, beginStream, hbody, bind, Except.bind] at h
    | streaming => simp [perform, beginStream, hbody, bind, Except.bind] at h
    | empty =>
      simp only [perform, beginStream, hbody, bind, Except.bind] at h
      cases h
      exact ⟨rfl, rfl, rfl, .start shape _ hbody⟩
  | encode =>
    by_cases hstreaming : r.isStreaming = true
    · simp [perform, encode, hstreaming, bind, Except.bind] at h
    · have hbody : r.body ≠ .streaming := fun hb => hstreaming (isStreaming_iff.mpr hb)
      simp only [perform, encode, hstreaming, bind, Except.bind, Bool.false_eq_true,
        if_false] at h
      cases h
      exact ⟨rfl, rfl, rfl, .text _ hbody⟩

/-- Only a content that is set and can be encoded is another content. -/
theorem Effect.content? {r r' : Response} {task : Task} {y : Yield} (h : r.Effect task y r'.body) :
    r'.content? = r.content? ∨ ∃ c v, task = .setContent c ∧ y = .nothing ∧
      c.toValue = .ok v ∧ r'.content? = some v := by
  obtain ⟨instanceId, rerid, kind, op?, body⟩ := r'
  cases h with
  | op op => exact .inl rfl
  | fill hc hbody => exact .inr ⟨_, _, rfl, rfl, hc, rfl⟩
  | start shape w hbody =>
    refine .inl ?_
    rw [Response.content?, Response.content?, hbody]
  | text s hbody => exact .inl rfl

/-- A response that is streamed takes no content, opens no stream and has no whole text. -/
theorem perform_of_streaming {r : Response} (hbody : r.body = .streaming) {task : Task}
    (htask : ∀ op, task ≠ .setOp op) :
    ∃ message, r.perform task = .error (.unsupported message) := by
  have hstreaming : r.isStreaming = true := isStreaming_iff.mpr hbody
  cases task with
  | setOp op => exact absurd rfl (htask op)
  | setContent c => exact ⟨_, by rw [perform, setContent, if_pos hstreaming]; rfl⟩
  | beginStream shape => exact ⟨_, by rw [perform, beginStream, hbody]; rfl⟩
  | encode => exact ⟨_, by rw [perform, encode, if_pos hstreaming]; rfl⟩

/-- A stream is opened only while the body is not decided. -/
theorem perform_beginStream_of_content {r : Response} {v : Json.Value} (hbody : r.body = .content v)
    (shape : StreamShape) :
    ∃ message, r.perform (.beginStream shape) = .error (.unsupported message) :=
  ⟨_, by rw [perform, beginStream, hbody]; rfl⟩

/-- A stream can be opened while the body is not decided. -/
theorem perform_beginStream_of_empty {r : Response} (hbody : r.body = .empty)
    (shape : StreamShape) : ∃ w r', r.perform (.beginStream shape) = .ok (.writer w, r') :=
  ⟨_, _, by rw [perform, beginStream, hbody]; rfl⟩

/-- A response that is not streamed takes every content that can be encoded, and no other. -/
theorem perform_setContent {r : Response} (hbody : r.body ≠ .streaming) (c : Content) :
    (∃ r', r.perform (.setContent c) = .ok (.nothing, r')) ↔ ∃ v, c.toValue = .ok v := by
  have hstreaming : ¬ r.isStreaming = true := fun hs => hbody (isStreaming_iff.mp hs)
  simp only [perform, setContent, if_neg hstreaming]
  cases c.toValue <;> simp [bind, Except.bind, pure, Except.pure]

end Response

/-! ## All responses -/

/-- The responses that were made so far, oldest first, and the counter of their ids. -/
structure Responses where
  responses : List Response
  links : Links

namespace Responses

/-- A call that makes a response or works on the one at a place. -/
inductive Act where
  | create (rerid : Int64) (kind : ResponseKind)
  | forRequest (r : Request) (kind : ResponseKind)
  | failure (rerid : Int64) (op : Option String) (message : String)
  | cloneAs (i : Nat) (kind : ResponseKind)
  | task (i : Nat) (t : Response.Task)

/-- What an act is answered. -/
inductive Answer where
  /-- A response was made; it stands at this place. -/
  | made (i : Nat)
  | done (y : Response.Yield)
  | refused (e : Error)
  /-- There is no response at the place. -/
  | absent

def Answer.ofResult : Except Error Response.Yield → Answer
  | .error e => .refused e
  | .ok y => .done y

/-- One more response, under an id of its own. -/
def add (t : Responses) (make : UInt64 → Response) : Answer × Responses :=
  let (instanceId, l) := t.links.freshInstance
  (.made t.responses.length, ⟨t.responses ++ [make instanceId], l⟩)

def act (t : Responses) : Act → Answer × Responses
  | .create rerid kind => t.add fun id => .create id rerid kind
  | .forRequest r kind => t.add fun id => .forRequest id r kind
  | .failure rerid op message => t.add fun id => .failure id rerid op message
  | .cloneAs i kind =>
    match t.responses[i]? with
    | none => (.absent, t)
    | some r => t.add fun id => r.cloneAs id kind
  | .task i task =>
    match t.responses[i]? with
    | none => (.absent, t)
    | some r =>
      let (result, r) := task.inPlace r
      (.ofResult result, { t with responses := t.responses.set i r })

/-- A call on a response that is there: if it is refused, nothing was changed. -/
theorem act_task {t : Responses} {i : Nat} {r : Response} (hr : t.responses[i]? = some r)
    (task : Response.Task) : t.act (.task i task) =
      match r.perform task with
      | .error e => (.refused e, t)
      | .ok (y, r') => (.done y, { t with responses := t.responses.set i r' }) := by
  simp only [act, hr, Response.inPlace_eq]
  cases r.perform task with
  | error e =>
    obtain ⟨hi, rfl⟩ := List.getElem?_eq_some_iff.mp hr
    simp only [List.set_getElem_self]
    rfl
  | ok result => rfl

abbrev Record := Act × Answer

/-- Acts one after another, with what they were answered. -/
def run : List Act → Responses → List Record × Responses
  | [], t => ([], t)
  | a :: rest, t =>
    let (answer, t) := t.act a
    let (h, t) := run rest t
    ((a, answer) :: h, t)

/-- A stream was opened for the response at the place. -/
def Record.Opens (i : Nat) (x : Record) : Prop :=
  ∃ shape w, x = (.task i (.beginStream shape), .done (.writer w))

/-- The response at the place got a content: it was set, or the response was made with one. -/
def Record.Fills (i : Nat) (x : Record) : Prop :=
  (∃ c y, x = (.task i (.setContent c), .done y)) ∨
    ∃ rerid op message, x = (.failure rerid op message, .made i)

/-! ## What the history tells -/

/-- The body is as far decided as the history tells of the place. -/
structure Told (h : List Record) (i : Nat) (body : Body) : Prop where
  streaming : body = .streaming ↔ ∃ x ∈ h, x.Opens i
  content : (∃ v, body = .content v) ↔ ∃ x ∈ h, x.Fills i

section History

variable {h : List Record} {i : Nat} {body : Body}

theorem exists_mem_concat {p : Record → Prop} {x : Record} :
    (∃ y ∈ h ++ [x], p y) ↔ (∃ y ∈ h, p y) ∨ p x := by
  simp only [List.mem_append, List.mem_singleton, or_and_right, exists_or, exists_eq_left]

/-- What neither opens nor fills is no news of a body. -/
theorem Told.idle (ht : Told h i body) {x : Record} (hopens : ¬ x.Opens i) (hfills : ¬ x.Fills i) :
    Told (h ++ [x]) i body where
  streaming := by rw [exists_mem_concat, or_iff_left hopens]; exact ht.streaming
  content := by rw [exists_mem_concat, or_iff_left hfills]; exact ht.content

/-- Only a call that begins a stream opens one. -/
theorem not_opens_task {task : Response.Task} (htask : ∀ shape, task ≠ .beginStream shape)
    (y : Response.Yield) : ¬ Record.Opens i (.task i task, .done y) := by
  rintro ⟨shape, w, heq⟩
  cases heq
  exact htask shape rfl

/-- Only a call that sets a content fills a body. -/
theorem not_fills_task {task : Response.Task} (htask : ∀ c, task ≠ .setContent c)
    (y : Response.Yield) : ¬ Record.Fills i (.task i task, .done y) := by
  rintro (⟨c, y', heq⟩ | ⟨rerid, op, message, heq⟩)
  · cases heq
    exact htask c rfl
  · cases heq

/-- The history tells of a body also after it was worked on. -/
theorem Told.effect {r : Response} (ht : Told h i r.body) {task : Response.Task}
    {y : Response.Yield} (heffect : r.Effect task y body) :
    Told (h ++ [(.task i task, .done y)]) i body := by
  cases heffect with
  | op op => exact ht.idle (not_opens_task (by simp) _) (not_fills_task (by simp) _)
  | text s => exact ht.idle (not_opens_task (by simp) _) (not_fills_task (by simp) _)
  | @fill c v hc hbody =>
    have hopens : ¬ ∃ x ∈ h, x.Opens i := fun hx => hbody (ht.streaming.mpr hx)
    refine ⟨?_, iff_of_true ⟨v, rfl⟩ (exists_mem_concat.mpr (.inr (.inl ⟨c, .nothing, rfl⟩)))⟩
    rw [exists_mem_concat, or_iff_left (not_opens_task (by simp) _)]
    exact iff_of_false (by simp) hopens
  | start shape w hbody =>
    have hfills : ¬ ∃ x ∈ h, x.Fills i := fun hx => by
      obtain ⟨v, hv⟩ := ht.content.mpr hx
      rw [hbody] at hv
      cases hv
    refine ⟨iff_of_true rfl (exists_mem_concat.mpr (.inr ⟨shape, w, rfl⟩)), ?_⟩
    rw [exists_mem_concat, or_iff_left (not_fills_task (by simp) _)]
    exact iff_of_false (by simp) hfills

end History

/-! ## The invariant -/

/-- The ids are those that the counter has handed out, and the history tells of each body. -/
structure Sound (first : UInt64) (h : List Record) (t : Responses) : Prop where
  ids : t.responses.map Response.instanceId = Links.instanceIds first t.responses.length
  next : t.links.nextInstance = first + UInt64.ofNat t.responses.length
  told : ∀ {i r}, t.responses[i]? = some r → Told h i r.body
  made : ∀ {i x}, x ∈ h → x.Opens i ∨ x.Fills i → i < t.responses.length

/-- Before the first act no response was made. -/
theorem sound_start (l : Links) : Sound l.nextInstance [] ⟨[], l⟩ where
  ids := rfl
  next := by simp
  told h := by simp at h
  made h := absurd h List.not_mem_nil

section Step

variable {first : UInt64} {h : List Record} {t : Responses}

/-- An act without effect on any body keeps the responses sound. -/
theorem Sound.idle (hs : Sound first h t) {x : Record} (hx : ∀ i, ¬ x.Opens i ∧ ¬ x.Fills i) :
    Sound first (h ++ [x]) t where
  ids := hs.ids
  next := hs.next
  told hr := (hs.told hr).idle (hx _).1 (hx _).2
  made hy hmade := by
    rcases List.mem_append.mp hy with hold | hnew
    · exact hs.made hold hmade
    · rw [List.mem_singleton.mp hnew] at hmade
      exact absurd hmade (not_or.mpr (hx _))

/-- One more response, which is streamed by nobody yet, and has a content just if its record says
so. -/
theorem Sound.add (hs : Sound first h t) (make : UInt64 → Response) (body : Body)
    (hid : ∀ id, (make id).instanceId = id) (hbody : ∀ id, (make id).body = body)
    (hstreaming : body ≠ .streaming) {x : Record} (hopens : ∀ i, ¬ x.Opens i)
    (hfills : ∀ i, x.Fills i ↔ i = t.responses.length ∧ ∃ v, body = .content v) :
    Sound first (h ++ [x]) (t.add make).2 := by
  have hnew : (t.add make).2.responses = t.responses ++ [make t.links.nextInstance] := rfl
  have hlength : (t.add make).2.responses.length = t.responses.length + 1 := by simp [hnew]
  -- nothing was noted for the new place before
  have hnone : ∀ y ∈ h, ¬ y.Opens t.responses.length ∧ ¬ y.Fills t.responses.length :=
    fun y hy => not_or.mp fun hmade => Nat.lt_irrefl _ (hs.made hy hmade)
  constructor
  · rw [hlength, Links.instanceIds_succ, hnew, List.map_append, hs.ids, ← hs.next]
    simp [hid]
  · rw [hlength, UInt64.ofNat_add, ← UInt64.add_assoc, ← hs.next]
    rfl
  · intro i r hr
    rw [hnew, List.getElem?_append] at hr
    split at hr
    · next hi =>
      exact (hs.told hr).idle (hopens i) fun hx => absurd ((hfills i).mp hx).1 (Nat.ne_of_lt hi)
    · obtain ⟨hi, rfl⟩ := List.getElem?_eq_some_iff.mp hr
      rw [List.length_singleton] at hi
      obtain rfl : i = t.responses.length := by omega
      rw [List.getElem_singleton, hbody]
      constructor
      · rw [exists_mem_concat, or_iff_left (hopens _)]
        exact iff_of_false hstreaming fun ⟨y, hy, hopen⟩ => (hnone y hy).1 hopen
      · rw [exists_mem_concat, hfills,
          or_iff_right fun ⟨y, hy, hfill⟩ => (hnone y hy).2 hfill]
        exact (and_iff_right rfl).symm
  · intro i y hy hmade
    rw [hlength]
    rcases List.mem_append.mp hy with hold | hlast
    · exact Nat.lt_succ_of_lt (hs.made hold hmade)
    · rw [List.mem_singleton.mp hlast] at hmade
      rcases hmade with hopen | hfill
      · exact absurd hopen (hopens i)
      · rw [((hfills i).mp hfill).1]
        exact Nat.lt_succ_self _

/-- A response that is worked on has the body that the record of the work tells. -/
theorem Sound.task (hs : Sound first h t) {i : Nat} {r r' : Response} {task : Response.Task}
    {y : Response.Yield} (hr : t.responses[i]? = some r) (hperform : r.perform task = .ok (y, r')) :
    Sound first (h ++ [(.task i task, .done y)]) { t with responses := t.responses.set i r' } := by
  obtain ⟨hinstance, -, -, heffect⟩ := Response.effect_of_perform hperform
  obtain ⟨hi, hget⟩ := List.getElem?_eq_some_iff.mp hr
  -- the record speaks of this response only
  have hplace : ∀ {j}, Record.Opens j (.task i task, .done y) ∨
      Record.Fills j (.task i task, .done y) → j = i := by
    rintro j (⟨shape, w, heq⟩ | ⟨c, y', heq⟩ | ⟨rerid, op, message, heq⟩) <;> cases heq <;> rfl
  constructor
  · have hmap : (t.responses.set i r').map Response.instanceId =
        t.responses.map Response.instanceId := by
      rw [List.map_set, hinstance, ← hget, ← List.getElem_map Response.instanceId]
      exact List.set_getElem_self (by simpa using hi)
    rw [hmap, hs.ids, List.length_set]
  · rw [hs.next, List.length_set]
  · intro j r₁ h₁
    by_cases hj : j = i
    · subst hj
      rw [List.getElem?_set_self hi] at h₁
      obtain rfl := Option.some.inj h₁
      exact (hs.told hr).effect heffect
    · rw [List.getElem?_set_ne (Ne.symm hj)] at h₁
      obtain ⟨hopens, hfills⟩ := not_or.mp fun hmade => hj (hplace hmade)
      exact (hs.told h₁).idle hopens hfills
  · intro j x hx hmade
    rw [List.length_set]
    rcases List.mem_append.mp hx with hold | hlast
    · exact hs.made hold hmade
    · rw [List.mem_singleton.mp hlast] at hmade
      rw [hplace hmade]
      exact hi

/-- Every act keeps the responses sound. -/
theorem Sound.act (hs : Sound first h t) (a : Act) :
    Sound first (h ++ [(a, (t.act a).1)]) (t.act a).2 := by
  -- Making a response opens no stream, whatever it is made from.
  have hmade : ∀ {a : Act} {n : Nat} (i : Nat), ¬ Record.Opens i (a, .made n) := by
    rintro a n i ⟨shape, w, heq⟩
    cases heq
  cases a with
  | create rerid kind =>
    refine hs.add (fun id => .create id rerid kind) .empty (fun _ => rfl) (fun _ => rfl) (by simp)
      hmade fun i => ?_
    simp [Record.Fills]
  | forRequest r kind =>
    refine hs.add (fun id => .forRequest id r kind) .empty (fun _ => rfl) (fun _ => rfl) (by simp)
      hmade fun i => ?_
    simp [Record.Fills]
  | failure rerid op message =>
    refine hs.add (fun id => .failure id rerid op message) (.content (.string message))
      (fun _ => rfl) (fun _ => rfl) (by simp) hmade fun i => ?_
    -- An error response is the only one that is made with content.
    simp [Record.Fills, Responses.act, Responses.add, eq_comm]
  | cloneAs i kind =>
    cases hr : t.responses[i]? with
    | none =>
      simp only [Responses.act, hr]
      exact hs.idle fun j => ⟨by simp [Record.Opens], by simp [Record.Fills]⟩
    | some r =>
      simp only [Responses.act, hr]
      refine hs.add (fun id => r.cloneAs id kind) .empty (fun _ => rfl) (fun _ => rfl) (by simp)
        hmade fun i => ?_
      simp [Record.Fills]
  | task i task =>
    cases hr : t.responses[i]? with
    | none =>
      simp only [Responses.act, hr]
      exact hs.idle fun j => ⟨by simp [Record.Opens], by simp [Record.Fills]⟩
    | some r =>
      rw [act_task hr]
      cases hperform : r.perform task with
      | error e => exact hs.idle fun j => ⟨by simp [Record.Opens], by simp [Record.Fills]⟩
      | ok result => exact hs.task hr hperform

/-- The invariant survives a run. -/
theorem Sound.run (acts : List Act) (hs : Sound first h t) :
    Sound first (h ++ (Responses.run acts t).1) (Responses.run acts t).2 := by
  induction acts generalizing h t with
  | nil => simpa [Responses.run] using hs
  | cons a rest ih =>
    have hrest := ih (hs.act a)
    rw [List.append_assoc] at hrest
    exact hrest

end Step

/-! ## One way or the other -/

/-- What the next act does after a history: its answer, and the responses behind it. -/
structure Exclusive (h : List Record) (t : Responses) (a : Act) (answer : Answer) (t' : Responses) :
    Prop where
  /-- A stream is opened if none was and no content was set, … -/
  opens : ∀ i shape, a = .task i (.beginStream shape) → i < t.responses.length →
    (∀ x ∈ h, ¬ x.Opens i ∧ ¬ x.Fills i) → ∃ w, answer = .done (.writer w)
  /-- … and else refused. -/
  opens_once : ∀ i shape, a = .task i (.beginStream shape) → (∃ x ∈ h, x.Opens i ∨ x.Fills i) →
    ∃ message, answer = .refused (.unsupported message)
  /-- Behind a stream no content, no other stream and no whole text can be had. -/
  streamed : ∀ i task, a = .task i task → (∀ op, task ≠ .setOp op) → (∃ x ∈ h, x.Opens i) →
    ∃ message, answer = .refused (.unsupported message)
  /-- Without a stream a content is set just if it can be encoded. -/
  fills : ∀ i c, a = .task i (.setContent c) → i < t.responses.length → (∀ x ∈ h, ¬ x.Opens i) →
    (answer = .done .nothing ↔ ∃ v, c.toValue = .ok v)
  /-- Nothing but that changes a content. -/
  content : ∀ (i : Nat) (r r' : Response), t.responses[i]? = some r → t'.responses[i]? = some r' →
    r'.content? ≠ r.content? → ∃ c v, a = .task i (.setContent c) ∧ answer = .done .nothing ∧
      c.toValue = .ok v ∧ r'.content? = some v
  /-- A refused act changes nothing. -/
  refused : ∀ e, answer = .refused e → t' = t
  /-- A response keeps its ids and its kind. -/
  kept : ∀ (i : Nat) (r : Response), t.responses[i]? = some r → ∃ r' : Response,
    t'.responses[i]? = some r' ∧ r'.instanceId = r.instanceId ∧ r'.rerid = r.rerid ∧
      r'.kind = r.kind
  /-- A response that is made from another one has its id and operation, and no body yet. -/
  cloned : ∀ (i : Nat) kind (r : Response), a = .cloneAs i kind → t.responses[i]? = some r →
    answer = .made t.responses.length ∧ ∃ r' : Response, t'.responses = t.responses ++ [r'] ∧
      r'.rerid = r.rerid ∧ r'.op? = r.op? ∧ r'.kind = kind ∧ r'.body = .empty ∧
      (t.responses.length < 2 ^ 64 → ∀ e ∈ t.responses, e.instanceId ≠ r'.instanceId)

section Last

variable {first : UInt64} {h : List Record} {t : Responses}

/-- A call that the response refuses is refused as an act. -/
theorem act_refused {i : Nat} {r : Response} (hr : t.responses[i]? = some r)
    {task : Response.Task} {e : Error} (h : r.perform task = .error e) :
    (t.act (.task i task)).1 = .refused e := by
  rw [act_task hr, h]

/-- What the history tells of is there. -/
theorem Sound.exists_response (hs : Sound first h t) {i : Nat}
    (hx : ∃ x ∈ h, x.Opens i ∨ x.Fills i) : ∃ r, t.responses[i]? = some r := by
  obtain ⟨x, hmem, hmade⟩ := hx
  exact ⟨_, List.getElem?_eq_getElem (hs.made hmem hmade)⟩

/-- A stream is opened for a response of which neither a stream nor a content is told. -/
theorem Sound.opens (hs : Sound first h t) {i : Nat} (hi : i < t.responses.length)
    (hnone : ∀ x ∈ h, ¬ x.Opens i ∧ ¬ x.Fills i) (shape : StreamShape) :
    ∃ w, (t.act (.task i (.beginStream shape))).1 = .done (.writer w) := by
  have hr := List.getElem?_eq_getElem hi
  have htold := hs.told hr
  have hempty : t.responses[i].body = .empty := by
    cases hbody : t.responses[i].body with
    | empty => rfl
    | content v =>
      obtain ⟨x, hx, hfill⟩ := htold.content.mp ⟨v, hbody⟩
      exact absurd hfill (hnone x hx).2
    | streaming =>
      obtain ⟨x, hx, hopen⟩ := htold.streaming.mp hbody
      exact absurd hopen (hnone x hx).1
  obtain ⟨w, r', hperform⟩ := Response.perform_beginStream_of_empty hempty shape
  exact ⟨w, by rw [act_task hr, hperform]⟩

/-- Behind a stream everything but another operation is refused. -/
theorem Sound.streamed (hs : Sound first h t) {i : Nat} (hopen : ∃ x ∈ h, x.Opens i)
    {task : Response.Task} (htask : ∀ op, task ≠ .setOp op) :
    ∃ message, (t.act (.task i task)).1 = .refused (.unsupported message) := by
  obtain ⟨x, hx, hopens⟩ := hopen
  obtain ⟨r, hr⟩ := hs.exists_response ⟨x, hx, .inl hopens⟩
  obtain ⟨message, hperform⟩ :=
    Response.perform_of_streaming ((hs.told hr).streaming.mpr ⟨x, hx, hopens⟩) htask
  exact ⟨message, act_refused hr hperform⟩

/-- No stream is opened behind a stream or a content. -/
theorem Sound.opens_once (hs : Sound first h t) {i : Nat}
    (hx : ∃ x ∈ h, x.Opens i ∨ x.Fills i) (shape : StreamShape) :
    ∃ message, (t.act (.task i (.beginStream shape))).1 = .refused (.unsupported message) := by
  obtain ⟨x, hx, hopen | hfill⟩ := hx
  · exact hs.streamed ⟨x, hx, hopen⟩ (by simp)
  · obtain ⟨r, hr⟩ := hs.exists_response ⟨x, hx, .inr hfill⟩
    obtain ⟨v, hbody⟩ := (hs.told hr).content.mpr ⟨x, hx, hfill⟩
    obtain ⟨message, hperform⟩ := Response.perform_beginStream_of_content hbody shape
    exact ⟨message, act_refused hr hperform⟩

/-- Unless a stream was opened, a content is set just if it can be encoded. -/
theorem Sound.fills (hs : Sound first h t) {i : Nat} (hi : i < t.responses.length)
    (hnone : ∀ x ∈ h, ¬ x.Opens i) (c : Content) :
    (t.act (.task i (.setContent c))).1 = .done .nothing ↔ ∃ v, c.toValue = .ok v := by
  have hr := List.getElem?_eq_getElem hi
  have hbody : t.responses[i].body ≠ .streaming := fun hb => by
    obtain ⟨x, hx, hopen⟩ := (hs.told hr).streaming.mp hb
    exact hnone x hx hopen
  rw [← Response.perform_setContent hbody, act_task hr]
  cases hperform : t.responses[i].perform (.setContent c) with
  | error e => simp
  | ok result => simp [Prod.ext_iff, eq_comm]

/-- The counter has an id for a clone that no response has, while it has not gone through all. -/
theorem Sound.fresh (hs : Sound first h t) (hlength : t.responses.length < 2 ^ 64) :
    ∀ e ∈ t.responses, e.instanceId ≠ t.links.nextInstance := by
  have hnodup := Links.nodup_instanceIds first (Nat.succ_le_of_lt hlength)
  rw [Links.instanceIds_succ, ← hs.ids, ← hs.next, List.nodup_append] at hnodup
  obtain ⟨-, -, hne⟩ := hnodup
  exact fun e he => hne _ (List.mem_map_of_mem he) _ (List.mem_singleton_self _)

/-- A clone is appended, with the id and the operation, without a body, under a new id. -/
theorem Sound.cloned (hs : Sound first h t) {i : Nat} {r : Response}
    (hr : t.responses[i]? = some r) (kind : ResponseKind) :
    (t.act (.cloneAs i kind)).1 = .made t.responses.length ∧
      ∃ r', (t.act (.cloneAs i kind)).2.responses = t.responses ++ [r'] ∧ r'.rerid = r.rerid ∧
        r'.op? = r.op? ∧ r'.kind = kind ∧ r'.body = .empty ∧
        (t.responses.length < 2 ^ 64 → ∀ e ∈ t.responses, e.instanceId ≠ r'.instanceId) := by
  have hact : t.act (.cloneAs i kind) = t.add fun id => r.cloneAs id kind := by
    simp only [Responses.act, hr]
  rw [hact]
  exact ⟨rfl, _, rfl, rfl, rfl, rfl, rfl, hs.fresh⟩

end Last

/-- A refused act leaves everything as it was. -/
theorem act_refused_snd (t : Responses) {a : Act} {e : Error} (h : (t.act a).1 = .refused e) :
    (t.act a).2 = t := by
  cases a with
  | create rerid kind => cases h
  | forRequest q kind => cases h
  | failure rerid op message => cases h
  | cloneAs i kind =>
    cases hr : t.responses[i]? with
    | none => simp only [act, hr]
    | some r =>
      simp only [act, hr] at h
      cases h
  | task i task =>
    cases hr : t.responses[i]? with
    | none => simp only [act, hr]
    | some r =>
      rw [act_task hr] at h ⊢
      cases hperform : r.perform task with
      | error e' => rfl
      | ok result =>
        rw [hperform] at h
        cases h

/-- What becomes of one response in an act. -/
theorem get?_act (t : Responses) (a : Act) {i : Nat} {r : Response}
    (hr : t.responses[i]? = some r) :
    (t.act a).2.responses[i]? = some r ∨ ∃ task y r', a = .task i task ∧
      (t.act a).1 = .done y ∧ (t.act a).2.responses[i]? = some r' ∧
      r.perform task = .ok (y, r') := by
  obtain ⟨hi, -⟩ := List.getElem?_eq_some_iff.mp hr
  -- New responses stand behind the others and move none of them.
  have hadd : ∀ make, (t.add make).2.responses[i]? = some r := fun make => by
    show (t.responses ++ [make _])[i]? = some r
    rw [List.getElem?_append_left hi, hr]
  cases a with
  | create rerid kind => exact .inl (hadd _)
  | forRequest q kind => exact .inl (hadd _)
  | failure rerid op message => exact .inl (hadd _)
  | cloneAs j kind =>
    rw [act]
    split
    · exact .inl hr
    · exact .inl (hadd _)
  | task j task =>
    cases hrj : t.responses[j]? with
    | none => exact .inl (by simpa [act, hrj] using hr)
    | some rj =>
      rw [act_task hrj]
      cases hperform : rj.perform task with
      | error e => exact .inl hr
      | ok result =>
        -- A task changes the response that it is performed on and no other.
        by_cases hj : j = i
        · subst hj
          obtain rfl := Option.some.inj (hrj.symm.trans hr)
          exact .inr ⟨task, result.1, result.2, rfl, rfl, List.getElem?_set_self hi, hperform⟩
        · exact .inl (by simpa [List.getElem?_set_ne hj] using hr)

end Responses

end WsGateway

import WsGateway.Proofs.Http.Reading

/-!
# How an HTTP request leaves

A request is answered by the policy on origins, refused before any handler is asked, or handed to
the one handler of its first segment, which answers or fails (`Gateway.Exit`). The order of the
checks is part of what a refusal is (`Gateway.Refuses`). Every request leaves in just one of these
ways, which are said of the request itself and not of how it is read (`Gateway.onHttp_iff`).

That a handler runs is told by what it would write down: `Gateway.observed` has every handler of a
path make a note before it runs.
-/

namespace WsGateway

namespace Board

def countHttp (b : Board) : Board := { b with counters := b.counters.httpRequest }

def countHttpFailure (b : Board) : Board :=
  b.countError.measure fun m => { m with handlerErrors := m.handlerErrors.inc [("side", "http")] }

end Board

namespace Gateway

/-- The gateway with every handler of a path making a note before it runs. The note knows the
segment that the handler is registered by. -/
def observed (note : String → Exchange → Board → Board) (g : Gateway) : Gateway :=
  { g with
    routes :=
      { entries := g.routes.entries.map fun e => (e.1, fun ex b => e.2 ex (note e.1 ex b))
        nodup := by
          rw [List.map_map]
          exact g.routes.nodup } }

variable {g : Gateway} {r : Http.Request}

/-- An observed gateway has the same routes, and each handler notes that it is entered before it
runs. -/
theorem lookup_observed_routes (note : String → Exchange → Board → Board) (g : Gateway)
    (key : String) :
    (g.observed note).routes.lookup key =
      (g.routes.lookup key).map fun h ex b => h ex (note key ex b) := by
  show findEntry key (g.routes.entries.map _) = (findEntry key g.routes.entries).map _
  exact findEntry_map (fun segment h ex b => h ex (note segment ex b)) key g.routes.entries

/-- To note nothing is the gateway itself. -/
theorem observed_nothing (g : Gateway) : g.observed (fun _ _ b => b) = g := by
  have hroutes : (g.observed fun _ _ b => b).routes = g.routes :=
    FinMap.eq_of_entries (List.map_id g.routes.entries)
  exact congrArg (fun routes => { g with routes := routes }) hroutes

/-! ## Where a request goes -/

/-- The request is chunked although that is switched off. -/
def RefusesCoding (g : Gateway) (r : Http.Request) : Prop :=
  r.CodesChunked ∧ g.config.http.chunkingEnabled = false

/-- Neither its transfer codings nor the length that it declares speak against the request. -/
def Admits (g : Gateway) (r : Http.Request) : Prop :=
  ¬ g.RefusesCoding r ∧ ∀ n, r.Declares n → n ≤ g.config.http.maxChunkBytes

/-- The request is refused, for the first reason that applies. -/
inductive Refuses (g : Gateway) (r : Http.Request) : Http.Status → String → Prop where
  | coding (h : g.RefusesCoding r) : Refuses g r .badRequest "HTTP Chunking Not Enabled"
  | length {n : UInt64} (h : ¬ g.RefusesCoding r) (hn : r.Declares n)
    (hlong : g.config.http.maxChunkBytes < n) :
    Refuses g r .payloadTooLarge
      ("Request body exceeds " ++ toString g.config.http.maxChunkBytes.toNat ++ " bytes")
  | noSegment (h : g.Admits r) (hs : ∀ s, ¬ Http.FirstSegment r.path.toList s) :
    Refuses g r .notFound "No handler found for [/]"
  | noHandler {s : String} (h : g.Admits r) (hs : Http.FirstSegment r.path.toList s.toList)
    (hnone : g.routes.lookup s = none) :
    Refuses g r .notFound ("No handler found for [" ++ s ++ "]")

/-- The check of the transfer coding is the stated condition on the headers. -/
theorem refusesCoding_iff :
    (r.isChunked && !g.config.http.chunkingEnabled) = true ↔ g.RefusesCoding r := by
  unfold RefusesCoding
  rw [Bool.and_eq_true, Http.Request.isChunked_iff, Bool.not_eq_true']

/-- The check of the length is the stated condition on the first length that reads as a number. -/
theorem long_iff : (declaredLength? r).any (· > g.config.http.maxChunkBytes) = true ↔
    ∃ n, r.Declares n ∧ g.config.http.maxChunkBytes < n := by
  simp only [Option.any_eq_true, declaredLength?_eq_some_iff, decide_eq_true_eq]

/-- **Where a request goes**: to the handler of its first segment, or nowhere for one reason. -/
theorem destination_cases (g : Gateway) (r : Http.Request) :
    (∃ status message, g.destination r = .refused status message ∧ g.Refuses r status message) ∨
    ∃ s handler, g.destination r = .handler s handler ∧ g.Admits r ∧
      Http.FirstSegment r.path.toList s.toList ∧ g.routes.lookup s = some handler := by
  unfold destination
  dsimp only
  -- The checks are made in this order, and each refusal carries that the earlier ones passed.
  split
  · next hc => exact .inl ⟨_, _, rfl, .coding (refusesCoding_iff.mp hc)⟩
  · next hc =>
    have hcoding : ¬ g.RefusesCoding r := fun h => hc (refusesCoding_iff.mpr h)
    split
    · next hl =>
      obtain ⟨n, hn, hlong⟩ := long_iff.mp hl
      exact .inl ⟨_, _, rfl, .length hcoding hn hlong⟩
    · next hl =>
      have hadmits : g.Admits r := ⟨hcoding, fun n hn =>
        UInt64.not_lt.mp fun hlong => hl (long_iff.mpr ⟨n, hn, hlong⟩)⟩
      split
      · next hkey => exact .inl ⟨_, _, rfl, .noSegment hadmits (Http.routeKey?_eq_none_iff.mp hkey)⟩
      · next s hkey =>
        have hs := Http.routeKey?_eq_some_iff.mp hkey
        split
        · next hnone => exact .inl ⟨_, _, rfl, .noHandler hadmits hs hnone⟩
        · next handler hsome => exact .inr ⟨s, handler, rfl, hadmits, hs, hsome⟩

/-- An admitted request goes where its first segment is registered, or is not found. -/
theorem destination_of_admits (h : g.Admits r) :
    g.destination r = match Http.routeKey? r.path with
      | none => .refused .notFound "No handler found for [/]"
      | some key => match g.routes.lookup key with
        | none => .refused .notFound ("No handler found for [" ++ key ++ "]")
        | some handler => .handler key handler := by
  have hlong : ¬ (declaredLength? r).any (· > g.config.http.maxChunkBytes) = true := by
    intro hl
    obtain ⟨n, hn, hlt⟩ := long_iff.mp hl
    exact UInt64.not_lt.mpr (h.2 n hn) hlt
  unfold destination
  dsimp only
  rw [if_neg (mt refusesCoding_iff.mp h.1)]
  exact if_neg hlong

/-- A refused request has the status and the message of its refusal as its destination. -/
theorem destination_of_refuses {status : Http.Status} {message : String}
    (h : g.Refuses r status message) : g.destination r = .refused status message := by
  cases h with
  | coding h =>
    unfold destination
    dsimp only
    rw [if_pos (refusesCoding_iff.mpr h)]
  | length h hn hlong =>
    unfold destination
    dsimp only
    rw [if_neg (mt refusesCoding_iff.mp h), if_pos (long_iff.mpr ⟨_, hn, hlong⟩)]
  | noSegment h hs => rw [destination_of_admits h, Http.routeKey?_eq_none_iff.mpr hs]
  | noHandler h hs hnone =>
    rw [destination_of_admits h, Http.routeKey?_of_firstSegment hs]
    simp only [hnone]

/-- An admitted request goes to the handler that its first segment is registered for. -/
theorem destination_of_lookup {s : String} {handler : HttpHandler} (h : g.Admits r)
    (hs : Http.FirstSegment r.path.toList s.toList) (hsome : g.routes.lookup s = some handler) :
    g.destination r = .handler s handler := by
  rw [destination_of_admits h, Http.routeKey?_of_firstSegment hs]
  simp only [hsome]

/-! ## How it leaves -/

/-- The bodies of chunked requests, and just those, are read up to the greatest length. -/
def BodyLimit (g : Gateway) (r : Http.Request) (limit : Option UInt64) : Prop :=
  (r.CodesChunked ∧ limit = some g.config.http.maxChunkBytes) ∨ (¬ r.CodesChunked ∧ limit = none)

def decorated (g : Gateway) (r : Http.Request) (response : Http.Response) : Http.Response :=
  g.cors.decorate (r.headers.first? "origin") response

/-- All that a request can come to: a response, and the board that is left. Handlers make their
notes when they are run. -/
inductive Exit (g : Gateway) (note : String → Exchange → Board → Board) (r : Http.Request)
    (peer : Net.Address) (b : Board) : Http.Response → Board → Prop where
  | preflight {response : Http.Response} (h : g.cors.preflight r = some response) :
    Exit g note r peer b response b.countHttp
  | refused {status : Http.Status} {message : String} (h : g.cors.preflight r = none)
    (hr : g.Refuses r status message) :
    Exit g note r peer b (g.decorated r (Http.failure status message true))
      (countRoute "-" b.countHttp)
  | answered {s : String} {handler : HttpHandler} {limit : Option UInt64}
    {response : Http.Response} {after : Board} (h : g.cors.preflight r = none) (hr : g.Admits r)
    (hs : Http.FirstSegment r.path.toList s.toList) (hhandler : g.routes.lookup s = some handler)
    (hlimit : g.BodyLimit r limit)
    (hrun : handler ⟨r, peer, s, limit⟩
      (note s ⟨r, peer, s, limit⟩ (countRoute s b.countHttp)) = (.ok response, after)) :
    Exit g note r peer b (g.decorated r response) after
  | failed {s : String} {handler : HttpHandler} {limit : Option UInt64} {f : Failure}
    {after : Board} (h : g.cors.preflight r = none) (hr : g.Admits r)
    (hs : Http.FirstSegment r.path.toList s.toList) (hhandler : g.routes.lookup s = some handler)
    (hlimit : g.BodyLimit r limit)
    (hrun : handler ⟨r, peer, s, limit⟩
      (note s ⟨r, peer, s, limit⟩ (countRoute s b.countHttp)) = (.error f, after)) :
    Exit g note r peer b (g.decorated r (Http.failure .internalServerError f.message false))
      after.countHttpFailure

/-- Only a chunked body is limited, by the configured length. -/
theorem bodyLimit_iff {limit : Option UInt64} :
    g.BodyLimit r limit ↔
      limit = if r.isChunked then some g.config.http.maxChunkBytes else none := by
  unfold BodyLimit
  rw [← Http.Request.isChunked_iff]
  cases r.isChunked <;> simp

/-- An observed handler is run behind its note. -/
theorem onHttp_observed_of_handler {s : String} {handler : HttpHandler}
    {note : String → Exchange → Board → Board} (h : g.cors.preflight r = none) (hr : g.Admits r)
    (hs : Http.FirstSegment r.path.toList s.toList) (hhandler : g.routes.lookup s = some handler)
    {limit : Option UInt64} (hlimit : g.BodyLimit r limit) (peer : Net.Address) (b : Board) :
    (g.observed note).onHttp r peer b =
      let (response, after) := runHandler (fun ex b => handler ex (note s ex b))
        ⟨r, peer, s, limit⟩ (countRoute s b.countHttp)
      (g.decorated r response, after) := by
  have hobserved : (g.observed note).routes.lookup s =
      some fun ex b => handler ex (note s ex b) := by
    rw [lookup_observed_routes, hhandler, Option.map_some]
  -- notes are no part of what is admitted, and the segment is that of the path
  have hdestination := destination_of_lookup (g := g.observed note) hr hs hobserved
  unfold onHttp
  rw [show (g.observed note).cors.preflight r = none from h]
  unfold route
  simp only [hdestination]
  rw [bodyLimit_iff.mp hlimit]
  rfl

/-- A refusal is counted under no route, and its answer closes the connection. -/
theorem onHttp_refused {status : Http.Status} {message : String} (h : g.cors.preflight r = none)
    (hr : g.Refuses r status message) (peer : Net.Address) (b : Board) :
    g.onHttp r peer b =
      (g.decorated r (Http.failure status message true), countRoute "-" b.countHttp) := by
  unfold onHttp route
  simp only [h, destination_of_refuses hr]
  rfl

/-- A preflight is answered before any route is chosen, and only counted as an exchange. -/
theorem onHttp_preflight {response : Http.Response} (h : g.cors.preflight r = some response)
    (peer : Net.Address) (b : Board) : g.onHttp r peer b = (response, b.countHttp) := by
  unfold onHttp
  simp only [h]
  rfl

/-- Observing the handlers does not change what is refused. -/
theorem refuses_observed (note : String → Exchange → Board → Board) {status : Http.Status}
    {message : String} (hr : g.Refuses r status message) :
    (g.observed note).Refuses r status message := by
  cases hr with
  | coding h => exact .coding h
  | length h hn hlong => exact .length h hn hlong
  | noSegment h hs => exact .noSegment h hs
  | noHandler h hs hnone =>
    refine .noHandler h hs ?_
    rw [lookup_observed_routes, hnone, Option.map_none]

/-- What an exit says is what the gateway does: one response, and the effects of that exit. -/
theorem onHttp_of_exit {note : String → Exchange → Board → Board} {peer : Net.Address} {b : Board}
    {response : Http.Response} {after : Board} (h : g.Exit note r peer b response after) :
    (g.observed note).onHttp r peer b = (response, after) := by
  cases h with
  | preflight h => exact onHttp_preflight (g := g.observed note) h peer b
  | refused h hr => exact onHttp_refused (g := g.observed note) h (refuses_observed note hr) peer b
  | answered h hr hs hhandler hlimit hrun =>
    rw [onHttp_observed_of_handler h hr hs hhandler hlimit]
    simp only [runHandler, hrun]
  | failed h hr hs hhandler hlimit hrun =>
    rw [onHttp_observed_of_handler h hr hs hhandler hlimit]
    simp only [runHandler, hrun]
    rfl

/-- Every request has an exit. -/
theorem exists_exit (g : Gateway) (note : String → Exchange → Board → Board) (r : Http.Request)
    (peer : Net.Address) (b : Board) : ∃ response after, g.Exit note r peer b response after := by
  cases hpre : g.cors.preflight r with
  | some response => exact ⟨_, _, .preflight hpre⟩
  | none =>
    rcases g.destination_cases r with
      ⟨status, message, -, hr⟩ | ⟨s, handler, -, hr, hs, hhandler⟩
    · exact ⟨_, _, .refused hpre hr⟩
    · have hlimit := bodyLimit_iff (g := g) (r := r).mpr rfl
      cases hrun : handler ⟨r, peer, s, _⟩ (note s ⟨r, peer, s, _⟩ (countRoute s b.countHttp)) with
      | mk result after =>
        cases result with
        | ok response => exact ⟨_, _, .answered hpre hr hs hhandler hlimit hrun⟩
        | error f => exact ⟨_, _, .failed hpre hr hs hhandler hlimit hrun⟩

/-- **Every request leaves in one way.** For every gateway, whatever its handlers do and whatever
its policy on origins is, and for every request: what comes of it is the one thing that `Exit`
allows. A preflight that the policy answers is answered so. Else a chunked request is refused if
that is switched off, then one that declares too long a body, then one without a first segment or
with one that nothing is registered for; no handler runs for these. Else just the handler of the
first segment runs, once and for that segment, and its response is the answer, or its failure, which
is counted. The pages of refusals end the connection, those of failures do not. -/
theorem onHttp_iff (g : Gateway) (r : Http.Request) (peer : Net.Address) (b : Board) :
    (∀ note response after, (g.observed note).onHttp r peer b = (response, after) ↔
      g.Exit note r peer b response after) ∧
    g.observed (fun _ _ b => b) = g ∧
    (∀ status message, (Http.failure status message true).status = status ∧
      (Http.failure status message true).headers.all "connection" = [Http.headerValue "close"]) ∧
    (∀ status message, (Http.failure status message false).status = status ∧
      (Http.failure status message false).headers.contains "connection" = false) ∧
    ∀ b : Board, b.countHttpFailure.counters.errors = b.counters.errors + 1 := by
  refine ⟨?_, g.observed_nothing, fun _ _ => ⟨rfl, rfl⟩, fun _ _ => ⟨rfl, rfl⟩, fun _ => rfl⟩
  intro note response after
  constructor
  · intro h
    -- there is a way, and each way leaves just what comes of the request
    obtain ⟨response', after', hexit⟩ := g.exists_exit note r peer b
    have hsame := (onHttp_of_exit hexit).symm.trans h
    cases hsame
    exact hexit
  · exact onHttp_of_exit

/-- Of several values just what the text of the first or of each says is read: a transfer coding
beside an octet that is not visible does not count, nor does a second length. -/
theorem onHttp_hidden_values :
    let hidden : Text.Octets := Http.headerValue "chunked," ++ [0xE9]
    let page := Http.textResponse .ok Http.plainText "ok"
    let g : Gateway :=
      { Gateway.ofConfig { http := { chunkingEnabled := false, maxChunkBytes := 3 } } with
        routes := ⟨[("body", fun _ => pure page)], by decide⟩ }
    let coded : Http.Request := ⟨"POST", "/body", [("transfer-encoding", hidden)], [], false⟩
    let long : Http.Request :=
      ⟨"POST", "/body", [("content-length", Http.headerValue "1"),
        ("content-length", Http.headerValue "4")], [], false⟩
    let peer := Net.Address.v4 [127, 0, 0, 1] 80
    (g.cors.preflight coded = none ∧ g.config.http.chunkingEnabled = false ∧
      Text.IsPiece ',' (hidden.map fun o => Char.ofNat o.toNat) "chunked".toList ∧
      (g.onHttp coded peer .start).1 = page) ∧
    (g.cors.preflight long = none ∧
      ("content-length", Http.headerValue "4") ∈ long.headers ∧ Text.uint64? "4" = some 4 ∧
      g.config.http.maxChunkBytes < 4 ∧ (g.onHttp long peer .start).1 = page) := by
  refine ⟨⟨rfl, rfl, ?_, by decide +kernel⟩, rfl, by decide +kernel, by decide +kernel,
    by decide +kernel, by decide +kernel⟩
  exact ⟨by decide, [], [',', Char.ofNat 0xE9], by decide +kernel, .inl rfl, .inr ⟨_, rfl⟩⟩

end Gateway

end WsGateway

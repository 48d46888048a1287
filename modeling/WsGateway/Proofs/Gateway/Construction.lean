import WsGateway.Gateway.Endpoints
import WsGateway.Proofs.Json.Locality.Scalars

/-!
# What a gateway is built with

Registering handlers of paths changes the routes of a gateway and nothing else
(`Gateway.withAllHttp_eq`), and registering operations puts these in one after another
(`Gateway.withAllOps_eq`). So a gateway with all that is built in has the policy on origins of its
configuration and the operations that are built in (`Gateway.builtin_eq`), and what holds of each
handler that is built in holds of every handler of a path that it has
(`Gateway.everyHandler_of_builtin`).
-/

namespace WsGateway

/-! ## Tables of handlers -/

/-- A prefix that registers is an entry of the table under its segment. -/
theorem Http.Routes.register_eq_ok {η : Type} {routes routes' : Http.Routes η} {segment : String}
    {handler : η} (h : routes.register segment handler = .ok routes') :
    ∃ key, routes' = FinMap.insert routes key handler := by
  unfold register at h
  dsimp only at h
  split at h
  · cases h
  · split at h
    · cases h
    · cases h
      exact ⟨_, rfl⟩

/-- An operation that registers is an entry of the table under its own name. -/
theorem Operations.register_eq_ok {ops ops' : Operations} {name : String} {handler : OpHandler}
    (h : ops.register name handler = .ok ops') : ops' = FinMap.insert ops name handler := by
  unfold register at h
  split at h
  · cases h
  · split at h
    · cases h
    · cases h
      rfl

/-! ## Operational endpoints -/

/-- An operational endpoint answers with a text that it knows from the board alone. -/
theorem Endpoint.operational_eq {e : String × HttpHandler} (he : e ∈ operational) (b : Board) :
    ∃ status contentType text, ∀ ex, e.2 ex b =
      (.ok (Http.textResponse status contentType text), b) := by
  simp only [operational, List.mem_cons, List.not_mem_nil, or_false] at he
  rcases he with rfl | rfl | rfl
  · exact ⟨_, _, _, fun _ => rfl⟩
  · by_cases hdrain : b.isDraining = true
    · refine ⟨.serviceUnavailable, Http.plainText, "draining", fun ex => ?_⟩
      show (if b.isDraining then _ else _ : HttpAction Http.Response) b = _
      rw [if_pos hdrain]
      rfl
    · refine ⟨.ok, Http.plainText, "ready", fun ex => ?_⟩
      show (if b.isDraining then _ else _ : HttpAction Http.Response) b = _
      rw [if_neg hdrain]
      rfl
  · exact ⟨_, _, _, fun _ => rfl⟩

/-! ## What registrations change -/

namespace Gateway

variable {g g' : Gateway} {config : Config}

/-- A registration puts one handler in, at some key. -/
theorem withHttp_eq {segment : String} {handler : HttpHandler}
    (h : g.withHttp segment handler = .ok g') :
    ∃ key, g' = { g with routes := FinMap.insert g.routes key handler } := by
  obtain ⟨routes, hroutes, hg'⟩ := Json.bind_eq_ok.mp h
  obtain ⟨key, rfl⟩ := Http.Routes.register_eq_ok hroutes
  cases hg'
  exact ⟨key, rfl⟩

/-- A list of handlers that registers changes the routes and nothing else of the gateway. -/
theorem withAllHttp_eq {handlers : List (String × HttpHandler)}
    (h : g.withAllHttp handlers = .ok g') : ∃ routes, g' = { g with routes := routes } := by
  induction handlers generalizing g with
  | nil =>
    cases h
    exact ⟨_, rfl⟩
  | cons e rest ih =>
    obtain ⟨g₁, hone, hrest⟩ := Json.bind_eq_ok.mp h
    obtain ⟨routes, rfl⟩ := ih hrest
    obtain ⟨key, rfl⟩ := withHttp_eq hone
    exact ⟨routes, rfl⟩

/-- A list of operations that registers changes the operations and nothing else of the gateway. -/
theorem withAllOps_eq {handlers : List (String × OpHandler)} (h : g.withAllOps handlers = .ok g') :
    g' = { g with
      operations := handlers.foldl (fun ops e => FinMap.insert ops e.1 e.2) g.operations } := by
  induction handlers generalizing g with
  | nil =>
    cases h
    rfl
  | cons e rest ih =>
    obtain ⟨g₁, hone, hrest⟩ := Json.bind_eq_ok.mp h
    obtain ⟨ops, hops, hg₁⟩ := Json.bind_eq_ok.mp hone
    obtain rfl := Operations.register_eq_ok hops
    have hg' := ih hrest
    cases hg₁
    exact hg'

/-! ## All that is built in -/

/-- But for its routes, what is built in is known from the configuration. -/
theorem builtin_eq (h : builtin config = .ok g) :
    ∃ routes, g = { ofConfig config with
      routes := routes
      operations := builtinOperations.foldl (fun ops e => FinMap.insert ops e.1 e.2) .empty } := by
  obtain ⟨g₁, hone, h⟩ := Json.bind_eq_ok.mp h
  obtain ⟨g₂, hendpoints, hops⟩ := Json.bind_eq_ok.mp h
  obtain ⟨key, rfl⟩ := withHttp_eq hone
  obtain ⟨routes, rfl⟩ := withAllHttp_eq hendpoints
  exact ⟨routes, withAllOps_eq hops⟩

def EveryHandler (P : HttpHandler → Prop) (g : Gateway) : Prop :=
  ∀ key handler, g.routes.lookup key = some handler → P handler

/-- What every handler has, and the new one too, every handler has once it is registered. -/
theorem EveryHandler.withHttp {P : HttpHandler → Prop} (hg : g.EveryHandler P) {segment : String}
    {handler : HttpHandler} (hp : P handler) (h : g.withHttp segment handler = .ok g') :
    g'.EveryHandler P := by
  obtain ⟨new, rfl⟩ := withHttp_eq h
  intro key found hlookup
  have hget : (if key = new then some handler else g.routes.lookup key) = some found :=
    (FinMap.get?_insert g.routes new key handler).symm.trans hlookup
  split at hget
  · cases hget
    exact hp
  · exact hg key found hget

/-- What every handler has, and all new ones too, every handler has once they are registered. -/
theorem EveryHandler.withAllHttp {P : HttpHandler → Prop} {handlers : List (String × HttpHandler)}
    (hg : g.EveryHandler P) (hp : ∀ e ∈ handlers, P e.2) (h : g.withAllHttp handlers = .ok g') :
    g'.EveryHandler P := by
  induction handlers generalizing g with
  | nil =>
    cases h
    exact hg
  | cons e rest ih =>
    obtain ⟨g₁, hone, hrest⟩ := Json.bind_eq_ok.mp h
    have hg₁ := hg.withHttp (hp e List.mem_cons_self) hone
    exact ih hg₁ (fun e' he' => hp e' (List.mem_cons_of_mem _ he')) hrest

/-- A gateway that is built with what is built in has no other handlers of paths. -/
theorem everyHandler_of_builtin {P : HttpHandler → Prop} (hupgrade : P Endpoint.upgrade)
    (hoperational : ∀ e ∈ Endpoint.operational, P e.2) (h : builtin config = .ok g) :
    g.EveryHandler P := by
  obtain ⟨g₁, hone, h⟩ := Json.bind_eq_ok.mp h
  obtain ⟨g₂, hendpoints, hops⟩ := Json.bind_eq_ok.mp h
  have hnone : (ofConfig config).EveryHandler P := by
    intro key handler hlookup
    cases hlookup
  have hg₂ := (hnone.withHttp hupgrade hone).withAllHttp hoperational hendpoints
  rw [withAllOps_eq hops]
  exact hg₂

end Gateway

end WsGateway

import WsGateway.Proofs.Gateway.Construction
import WsGateway.Proofs.Http.Reading

/-!
# The path that asks for an upgrade

A configuration names the segment that asks for an upgrade. The limits of a configuration see to it
that the segment is there and has no slash in it, so that the endpoint is registered under just that
name, unless an operational endpoint has it (`Gateway.builtin_eq_ok_iff`). But the segment of a
request ends in front of a query or a fragment, too, and nothing keeps a question mark or a number
sign out of the name. So the endpoint is reached by the paths that begin with its name just if there
is none in it (`Gateway.upgrade_reached`); under a name with one of them no path reaches it
(`Gateway.upgrade_unreached`).
-/

namespace WsGateway

/-! ## Names that are one segment -/

/-- The name is not empty and has no slash in it. -/
def Http.IsSegment (name : String) : Prop := name.toList ≠ [] ∧ '/' ∉ name.toList

instance (name : String) : Decidable (Http.IsSegment name) := inferInstanceAs (Decidable (_ ∧ _))

/-- The text may stand behind the first segment of a path. -/
def Http.EndsSegment (rest : String) : Prop :=
  ∀ c, rest.toList.head? = some c → c = '/' ∨ c = '?' ∨ c = '#'

/-- A requirement that passes holds. -/
theorem require_eq_ok {condition : Bool} {message : String}
    (h : require condition message = .ok ()) : condition = true := by
  unfold require at h
  split at h
  · next hc => exact hc
  · cases h

/-- An accepted configuration has one segment for upgrades. -/
theorem Config.isSegment_of_validate {config : Config} (h : config.validate = .ok ()) :
    Http.IsSegment config.ws.path := by
  unfold validate at h
  split at h
  · cases h
  · obtain ⟨-, -, h⟩ := Json.bind_eq_ok.mp h
    obtain ⟨-, -, h⟩ := Json.bind_eq_ok.mp h
    obtain ⟨⟨⟩, hws, -⟩ := Json.bind_eq_ok.mp h
    obtain ⟨⟨⟩, hpath, -⟩ := Json.bind_eq_ok.mp hws
    have hboth := require_eq_ok hpath
    rw [Bool.and_eq_true, Bool.not_eq_true', Bool.not_eq_true'] at hboth
    refine ⟨fun hnil => ?_, fun hmem => ?_⟩
    · rw [String.toList_eq_nil_iff.mp hnil] at hboth
      exact Bool.noConfusion hboth.1
    · rw [List.contains_iff_mem.mpr hmem] at hboth
      exact Bool.noConfusion hboth.2

namespace Http

theorem dropWhile_slash {cs : List Char} (h : '/' ∉ cs) :
    cs.dropWhile (fun c => decide (c = '/')) = cs := by
  cases cs with
  | nil => rfl
  | cons c rest =>
    have hc : c ≠ '/' := fun hc => h (hc ▸ List.mem_cons_self)
    exact List.dropWhile_cons_of_neg (by simpa using hc)

/-- A text without a slash is stripped of nothing. -/
theorem stripSlashes_eq {cs : List Char} (h : '/' ∉ cs) : stripSlashes cs = cs := by
  unfold stripSlashes
  rw [dropWhile_slash h, dropWhile_slash (by simpa using h), List.reverse_reverse]

/-- One segment is registered under its own name, unless that is taken. -/
theorem Routes.register_of_isSegment {η : Type} (routes : Routes η) {name : String} (handler : η)
    (h : IsSegment name) :
    routes.register name handler =
      if (routes.lookup name).isSome then
        .error (.duplicate ("path prefix already registered: " ++ name))
      else .ok (FinMap.insert routes name handler) := by
  obtain ⟨hne, hslash⟩ := h
  unfold register
  dsimp only
  rw [stripSlashes_eq hslash, String.ofList_toList, if_neg]
  · rfl
  · rw [Bool.or_eq_true, not_or, List.contains_iff_mem, List.isEmpty_iff]
    exact ⟨hne, hslash⟩

/-- A registered prefix is found under its own name, and the others as before. -/
theorem Routes.lookup_insert {η : Type} (routes : Routes η) (name key : String) (handler : η) :
    Routes.lookup (FinMap.insert routes name handler) key =
      if key = name then some handler else routes.lookup key :=
  FinMap.get?_insert routes name key handler

/-- A segment without a question mark and a number sign is the first one of the paths that begin
with it. -/
theorem routeKey?_of_isSegment {name rest : String} (h : IsSegment name)
    (hquery : '?' ∉ name.toList) (hfragment : '#' ∉ name.toList) (hrest : EndsSegment rest) :
    routeKey? ("/" ++ name ++ rest) = some name := by
  rw [routeKey?_eq_some_iff]
  refine ⟨h.1, ?_, ['/'], rest.toList, ?_, ?_, hrest⟩
  · intro c hc
    refine ⟨?_, ?_, ?_⟩
    · rintro rfl
      exact h.2 hc
    · rintro rfl
      exact hquery hc
    · rintro rfl
      exact hfragment hc
  · rw [String.toList_append, String.toList_append]
    rfl
  · exact List.forall_mem_singleton.mpr rfl

end Http

/-! ## Endpoints that are told apart -/

/-- No operational endpoint is the one for upgrades: that one counts what it was asked. -/
theorem Endpoint.operational_ne_upgrade {e : String × HttpHandler} (he : e ∈ operational) :
    e.2 ≠ upgrade := by
  intro heq
  obtain ⟨status, contentType, text, hanswer⟩ := operational_eq he Board.start
  let ex : Exchange := ⟨⟨"GET", "/", [], [], false⟩, .v4 [127, 0, 0, 1] 80, "ws", none⟩
  have hboard : (upgrade ex Board.start).2 = Board.start := by
    rw [← heq, hanswer ex]
  have hcount : (upgrade ex Board.start).2.metrics.handshakes.size = 1 := by decide +kernel
  rw [hboard] at hcount
  exact absurd hcount (by decide)

def Endpoint.reserved : List String := operational.map Prod.fst

namespace Gateway

variable {g g' : Gateway} {config : Config}

/-- A prefix that is a single segment registers just if it is free. -/
theorem withHttp_of_isSegment {name : String} (h : Http.IsSegment name) (handler : HttpHandler) :
    g.withHttp name handler =
      if (g.routes.lookup name).isSome then
        .error (.duplicate ("path prefix already registered: " ++ name))
      else .ok { g with routes := FinMap.insert g.routes name handler } := by
  unfold withHttp
  rw [Http.Routes.register_of_isSegment g.routes handler h]
  split <;> rfl

/-- Handlers under different segments are registered just if none of these is taken. -/
theorem withAllHttp_eq_ok_iff {handlers : List (String × HttpHandler)}
    (hsegments : ∀ e ∈ handlers, Http.IsSegment e.1) (hnodup : (handlers.map Prod.fst).Nodup) :
    g.withAllHttp handlers = .ok g' ↔
      (∀ e ∈ handlers, g.routes.lookup e.1 = none) ∧ g' = { g with
        routes := handlers.foldl (fun routes e => FinMap.insert routes e.1 e.2) g.routes } := by
  induction handlers generalizing g with
  | nil => exact ⟨fun h => ⟨fun _ he => absurd he List.not_mem_nil, (Except.ok.inj h).symm⟩,
      fun h => congrArg Except.ok h.2.symm⟩
  | cons e rest ih =>
    obtain ⟨hnew, hrest⟩ := List.nodup_cons.mp hnodup
    have hfirst := withHttp_of_isSegment (g := g) (hsegments e List.mem_cons_self) e.2
    have hlater := fun e' he' => hsegments e' (List.mem_cons_of_mem _ he')
    show (g.withHttp e.1 e.2 >>= fun g₁ => g₁.withAllHttp rest) = .ok g' ↔ _
    rw [hfirst, List.forall_mem_cons]
    cases hlookup : g.routes.lookup e.1 with
    | some handler =>
      constructor
      · intro h
        cases h
      · rintro ⟨⟨h, -⟩, -⟩
        cases h
    | none =>
      -- what was just registered is none of the segments that are left
      have hkept : ∀ e' ∈ rest, Http.Routes.lookup (FinMap.insert g.routes e.1 e.2) e'.1 =
          g.routes.lookup e'.1 := by
        intro e' he'
        rw [Http.Routes.lookup_insert, if_neg]
        exact fun heq => hnew (heq ▸ List.mem_map_of_mem he')
      show withAllHttp { g with routes := FinMap.insert g.routes e.1 e.2 } rest = .ok g' ↔ _
      rw [ih hlater hrest]
      apply and_congr_left'
      constructor
      · exact fun h => ⟨rfl, fun e' he' => (hkept e' he').symm.trans (h e' he')⟩
      · exact fun h e' he' => (hkept e' he').trans (h.2 e' he')

/-- What is found after handlers were put in is one of them, or was there before. -/
theorem lookup_foldl_insert (handlers : List (String × HttpHandler))
    (routes : Http.Routes HttpHandler) (key : String) :
    let all := handlers.foldl (fun routes e => FinMap.insert routes e.1 e.2) routes
    (∃ e ∈ handlers, e.1 = key ∧ Http.Routes.lookup all key = some e.2) ∨
      (key ∉ handlers.map Prod.fst ∧ Http.Routes.lookup all key = routes.lookup key) := by
  induction handlers generalizing routes with
  | nil => exact .inr ⟨List.not_mem_nil, rfl⟩
  | cons e rest ih =>
    rcases ih (FinMap.insert routes e.1 e.2) with ⟨e', he', hkey, hfound⟩ | ⟨hnot, hfound⟩
    · exact .inl ⟨e', List.mem_cons_of_mem _ he', hkey, hfound⟩
    · rw [Http.Routes.lookup_insert] at hfound
      split at hfound
      · next heq => exact .inl ⟨e, List.mem_cons_self, heq.symm, hfound⟩
      · next hne =>
        refine .inr ⟨?_, hfound⟩
        rw [List.map_cons, List.mem_cons, not_or]
        exact ⟨hne, hnot⟩

/-! ## What is built in -/

def builtinRoutes (config : Config) : Http.Routes HttpHandler :=
  Endpoint.operational.foldl (fun routes e => FinMap.insert routes e.1 e.2)
    (FinMap.insert .empty config.ws.path Endpoint.upgrade)

/-- The built-in operations register on a gateway without operations. -/
theorem withAllOps_builtin (h : g.operations = .empty) :
    ∃ g', g.withAllOps builtinOperations = .ok g' := by
  obtain ⟨config, cors, routes, operations⟩ := g
  cases h
  exact ⟨_, rfl⟩

/-- **What is built in** comes together just if the path for upgrades is not reserved. -/
theorem builtin_eq_ok_iff (h : Http.IsSegment config.ws.path) :
    ((∃ g, builtin config = .ok g) ↔ config.ws.path ∉ Endpoint.reserved) ∧
      ∀ g, builtin config = .ok g → g.routes = builtinRoutes config := by
  have hsegments : ∀ e ∈ Endpoint.operational, Http.IsSegment e.1 := by
    simp only [Endpoint.operational, List.forall_mem_cons]
    exact ⟨by decide, by decide, by decide, fun _ he => absurd he List.not_mem_nil⟩
  have hnodup : (Endpoint.operational.map Prod.fst).Nodup := by decide
  -- the endpoint for upgrades comes first, to a gateway without routes
  let g₁ : Gateway :=
    { ofConfig config with routes := FinMap.insert .empty config.ws.path Endpoint.upgrade }
  have hbuiltin : builtin config = (g₁.withAllHttp Endpoint.operational >>= fun g₂ =>
      g₂.withAllOps builtinOperations) := by
    unfold builtin withBuiltins
    rw [show (ofConfig config).config.ws.path = config.ws.path from rfl, withHttp_of_isSegment h]
    rfl
  have hfree : (∀ e ∈ Endpoint.operational, g₁.routes.lookup e.1 = none) ↔
      config.ws.path ∉ Endpoint.reserved := by
    unfold Endpoint.reserved
    rw [List.mem_map, not_exists]
    apply forall_congr'
    intro e
    rw [not_and]
    apply imp_congr_right
    intro he
    rw [Http.Routes.lookup_insert]
    split
    · next heq => exact ⟨fun hnone => (by cases hnone), fun hne => absurd heq hne⟩
    · next hne => exact ⟨fun _ => hne, fun _ => rfl⟩
  have hall := fun g₂ => @withAllHttp_eq_ok_iff g₁ g₂ _ hsegments hnodup
  rw [hbuiltin]
  refine ⟨⟨?_, ?_⟩, ?_⟩
  · rintro ⟨g, hg⟩
    obtain ⟨g₂, hg₂, -⟩ := Json.bind_eq_ok.mp hg
    exact hfree.mp ((hall g₂).mp hg₂).1
  · intro hnot
    rw [(hall _).mpr ⟨hfree.mpr hnot, rfl⟩]
    exact withAllOps_builtin (g := { g₁ with routes := _ }) rfl
  · intro g hg
    obtain ⟨g₂, hg₂, hops⟩ := Json.bind_eq_ok.mp hg
    rw [withAllOps_eq hops, ((hall g₂).mp hg₂).2]
    rfl

/-- The endpoint for upgrades stands under its own name only. -/
theorem lookup_builtinRoutes (hfree : config.ws.path ∉ Endpoint.reserved) (key : String) :
    (builtinRoutes config).lookup key = some Endpoint.upgrade ↔ key = config.ws.path := by
  rcases lookup_foldl_insert Endpoint.operational
    (FinMap.insert .empty config.ws.path Endpoint.upgrade) key with
    ⟨e, he, rfl, hfound⟩ | ⟨-, hfound⟩
  -- an operational endpoint is found under its own name, and that is another one
  · have hne : e.1 ≠ config.ws.path := fun heq => hfree (heq ▸ List.mem_map_of_mem he)
    constructor
    · intro h
      exact absurd (Option.some.inj (hfound.symm.trans h)) (Endpoint.operational_ne_upgrade he)
    · intro h
      exact absurd h hne
  · rw [Http.Routes.lookup_insert] at hfound
    unfold builtinRoutes
    rw [hfound]
    split
    · next heq => exact ⟨fun _ => heq, fun _ => rfl⟩
    · next hne => exact ⟨fun h => (by cases h), fun h => absurd h hne⟩

/-- Under a name with a question mark or a number sign, no path whatsoever leads to the endpoint for
upgrades. -/
theorem upgrade_unreached (h : Http.IsSegment config.ws.path) (hg : builtin config = .ok g)
    (hcut : '?' ∈ config.ws.path.toList ∨ '#' ∈ config.ws.path.toList) {path key : String}
    (hkey : Http.routeKey? path = some key) : g.routes.lookup key ≠ some Endpoint.upgrade := by
  obtain ⟨hexists, hroutes⟩ := builtin_eq_ok_iff h
  rw [hroutes g hg, Ne, lookup_builtinRoutes (hexists.mp ⟨g, hg⟩)]
  rintro rfl
  -- the segment of a path ends in front of either sign
  obtain ⟨-, hclean, -⟩ := Http.routeKey?_eq_some_iff.mp hkey
  rcases hcut with hmem | hmem
  · exact (hclean _ hmem).2.1 rfl
  · exact (hclean _ hmem).2.2 rfl

/-- **The path for upgrades of an accepted configuration.** A gateway with all that is built in
comes together just if the path is not the one of an operational endpoint. A path that begins with
its name, behind which there is a slash, a query, a fragment or nothing, then leads to the endpoint
for upgrades just if there is no question mark and no number sign in the name. -/
theorem upgrade_reached (hvalid : config.validate = .ok ()) :
    ((∃ g, builtin config = .ok g) ↔ config.ws.path ∉ Endpoint.reserved) ∧
    ∀ g, builtin config = .ok g → ∀ rest, Http.EndsSegment rest →
      ((∃ key, Http.routeKey? ("/" ++ config.ws.path ++ rest) = some key ∧
          g.routes.lookup key = some Endpoint.upgrade) ↔
        '?' ∉ config.ws.path.toList ∧ '#' ∉ config.ws.path.toList) := by
  have hsegment := Config.isSegment_of_validate hvalid
  obtain ⟨hexists, hroutes⟩ := builtin_eq_ok_iff hsegment
  refine ⟨hexists, fun g hg rest hrest => ⟨?_, ?_⟩⟩
  · rintro ⟨key, hkey, hfound⟩
    constructor
    · exact fun hmem => upgrade_unreached hsegment hg (.inl hmem) hkey hfound
    · exact fun hmem => upgrade_unreached hsegment hg (.inr hmem) hkey hfound
  · rintro ⟨hquery, hfragment⟩
    refine ⟨_, Http.routeKey?_of_isSegment hsegment hquery hfragment hrest, ?_⟩
    rw [hroutes g hg, lookup_builtinRoutes (hexists.mp ⟨g, hg⟩)]

/-- The path that a configuration has if it says nothing of it, in front of a query. -/
theorem upgrade_reached_default :
    (({} : Config).validate = .ok ()) ∧ ∃ g, builtin {} = .ok g ∧
      ∃ key, Http.routeKey? "/ws?x=1" = some key ∧ g.routes.lookup key = some Endpoint.upgrade := by
  have hvalid : ({} : Config).validate = .ok () := by decide +kernel
  obtain ⟨hexists, hreached⟩ := upgrade_reached hvalid
  obtain ⟨g, hg⟩ := hexists.mpr (by decide)
  have hrest : Http.EndsSegment "?x=1" := by
    intro c hc
    exact .inr (.inl (Option.some.inj hc).symm)
  have hclean : '?' ∉ "ws".toList ∧ '#' ∉ "ws".toList := by decide
  exact ⟨hvalid, g, hg, (hreached g hg "?x=1" hrest).mpr hclean⟩

/-- A question mark in the path for upgrades is accepted, but ends the segment that is looked up. -/
theorem upgrade_reached_cut :
    let config : Config := { ws := { path := "a?b" } }
    config.validate = .ok () ∧ config.ws.path ∉ Endpoint.reserved ∧
      ∃ g, builtin config = .ok g ∧
        Http.routeKey? ("/" ++ config.ws.path) = some "a" ∧ g.routes.lookup "a" = none := by
  refine ⟨by decide +kernel, by decide, _, rfl, by decide +kernel, by decide +kernel⟩

end Gateway

end WsGateway

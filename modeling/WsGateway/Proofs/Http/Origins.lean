import WsGateway.Http.Cors
import WsGateway.Proofs.Http.Reading
import WsGateway.Proofs.Http.Values

/-!
# What a list of origins decides

One question is behind all that a list of origins does: whether the first origin that a request
names is allowed (`Http.Allowed`). A preflight is answered by it (`OriginList.answers_preflight`),
and another response is extended by it. Either way what the response says of origins is what the
list decides (`Response.Follows`, `OriginList.Answers.follows`, `OriginList.follows_decorate`).
-/

namespace WsGateway

open Text (Octets)

namespace Http

/-! ## Origins of requests -/

/-- The value is a text, and one of the origins; a star among them stands for every text. -/
def Allowed (origins : List String) (value : Octets) : Prop :=
  (∀ o ∈ value, Visible o) ∧ ("*" ∈ origins ∨ ∃ origin ∈ origins, Text.octets origin = value)

namespace Request

/-- The first origin that the request names is allowed. -/
def FromAllowed (r : Request) (origins : List String) : Prop :=
  ∃ value, r.headers.first? "origin" = some value ∧ Allowed origins value

/-- Only the first `Origin` header decides. -/
theorem fromAllowed_iff {r : Request} {origins : List String} {value : Octets}
    (hfirst : r.headers.first? "origin" = some value) :
    r.FromAllowed origins ↔ Allowed origins value := by
  constructor
  · rintro ⟨value', hfirst', hallowed⟩
    rw [hfirst] at hfirst'
    cases hfirst'
    exact hallowed
  · exact fun hallowed => ⟨value, hfirst, hallowed⟩

/-- The request asks for the options of another method, and names its origin. -/
structure IsPreflight (r : Request) : Prop where
  method : r.method = "OPTIONS"
  asked : ∃ value, ("access-control-request-method", value) ∈ r.headers
  origin : ∃ value, ("origin", value) ∈ r.headers

/-- Two requests have all in common, but for the origins that they name. -/
structure SameButOrigin (r r' : Request) : Prop where
  method : r.method = r'.method
  target : r.target = r'.target
  headers : ∀ name, name ≠ "origin" → r.headers.all name = r'.headers.all name
  body : r.body = r'.body
  upgradable : r.upgradable = r'.upgradable

namespace SameButOrigin

variable {r r' : Request}

theorem first? (h : SameButOrigin r r') {name : String} (hne : name ≠ "origin") :
    r.headers.first? name = r'.headers.first? name := by
  unfold Headers.first?
  rw [h.headers name hne]

theorem text? (h : SameButOrigin r r') {name : String} (hne : name ≠ "origin") :
    r.headers.text? name = r'.headers.text? name := by
  unfold Headers.text?
  rw [h.first? hne]

theorem hasToken (h : SameButOrigin r r') {name : String} (hne : name ≠ "origin") (word : String) :
    r.headers.hasToken name word = r'.headers.hasToken name word := by
  unfold Headers.hasToken Headers.tokens
  rw [h.headers name hne]

theorem isChunked (h : SameButOrigin r r') : r.isChunked = r'.isChunked :=
  h.hasToken (by decide) "chunked"

theorem path (h : SameButOrigin r r') : r.path = r'.path := by
  unfold Request.path
  rw [h.target]

end SameButOrigin

end Request

/-! ## What responses say of origins -/

/-- What the response says of origins is what a list of them decides about the request: it names an
origin just if the first one of the request is allowed, and then it names this and nothing else, and
says that it depends on it. -/
structure Response.Follows (response : Response) (origins : List String) (r : Request) : Prop where
  named : response.headers.contains "access-control-allow-origin" = true ↔ r.FromAllowed origins
  exact : ∀ value, r.headers.first? "origin" = some value → Allowed origins value →
    response.headers.all "access-control-allow-origin" = [value]
  varies : r.FromAllowed origins → headerValue "Origin" ∈ response.headers.all "vary"

namespace Response

variable {response : Response} {origins : List String} {r : Request} {value : Octets}

/-- A response that names the origin that is allowed. -/
theorem follows_of_allowed (hfirst : r.headers.first? "origin" = some value)
    (hallowed : Allowed origins value)
    (hall : response.headers.all "access-control-allow-origin" = [value])
    (hvary : headerValue "Origin" ∈ response.headers.all "vary") : response.Follows origins r where
  named := by
    have hmem : value ∈ response.headers.all "access-control-allow-origin" :=
      hall ▸ List.mem_singleton_self value
    exact iff_of_true (Headers.contains_iff.mpr ⟨value, Headers.mem_all.mp hmem⟩)
      ⟨value, hfirst, hallowed⟩
  exact := by
    intro value' hfirst' _
    rw [hfirst] at hfirst'
    cases hfirst'
    exact hall
  varies := fun _ => hvary

/-- A response that names no origin, as none is allowed. -/
theorem follows_of_not_allowed (hnot : ¬ r.FromAllowed origins)
    (hall : response.headers.all "access-control-allow-origin" = []) :
    response.Follows origins r where
  named := by
    rw [← Headers.contains_eq_false_iff] at hall
    rw [hall]
    exact iff_of_false Bool.false_ne_true hnot
  exact := fun value hfirst hallowed => absurd ⟨value, hfirst, hallowed⟩ hnot
  varies := fun hfrom => absurd hfrom hnot

end Response

/-! ## What the list does -/

namespace OriginList

variable {l : OriginList} {r : Request} {response : Response} {value : Octets}

/-- A list allows an origin that it names, and every one if it has the star. -/
theorem allows_iff {text : String} :
    l.allows text = true ↔ "*" ∈ l.origins ∨ text ∈ l.origins := by
  unfold allows
  rw [Bool.or_eq_true, List.contains_iff_mem, List.contains_iff_mem]

/-- A header value is allowed by its text; one that is not readable is allowed by the star alone. -/
theorem allowsValue_iff : l.allowsValue value = true ↔ Allowed l.origins value := by
  unfold allowsValue Allowed
  simp only [Option.any_eq_true, headerText?_eq_some_iff, allows_iff]
  constructor
  · rintro ⟨text, ⟨hvisible, hoctets⟩, hany | hmem⟩
    · exact ⟨hvisible, .inl hany⟩
    · exact ⟨hvisible, .inr ⟨text, hmem, hoctets⟩⟩
  · rintro ⟨hvisible, hany | ⟨origin, hmem, hoctets⟩⟩
    · have hoctets := Text.octets_ofLatin fun o ho => (hvisible o ho).lt
      exact ⟨_, ⟨hvisible, hoctets⟩, .inl hany⟩
    · exact ⟨origin, ⟨hvisible, hoctets⟩, .inr hmem⟩

/-- All that the list can answer to a request: nothing to one that is no preflight, and to one that
is what it decides about its origin. -/
inductive Answers (l : OriginList) (r : Request) : Option Response → Prop where
  | nothing (h : ¬ r.IsPreflight) : Answers l r none
  | refused (h : r.IsPreflight) (hnot : ¬ r.FromAllowed l.origins) :
    Answers l r (some (failure .forbidden "Origin not allowed" false))
  | granted {value : Octets} {response : Response} (h : r.IsPreflight)
    (hfirst : r.headers.first? "origin" = some value) (hallowed : Allowed l.origins value)
    (hstatus : response.status = .noContent)
    (hall : response.headers.all "access-control-allow-origin" = [value])
    (hvary : response.headers.all "vary" = [headerValue "Origin"]) : Answers l r (some response)

namespace Answers

variable {answer : Option Response}

/-- Only a preflight is answered here. -/
theorem eq_none_iff (h : l.Answers r answer) : answer = none ↔ ¬ r.IsPreflight := by
  cases h with
  | nothing hnot => exact iff_of_true rfl hnot
  | refused his _ => exact iff_of_false nofun (not_not_intro his)
  | granted his _ _ _ _ _ => exact iff_of_false nofun (not_not_intro his)

/-- The answer to a preflight discloses what is allowed and nothing else. -/
theorem follows (h : l.Answers r (some response)) : response.Follows l.origins r := by
  cases h with
  | refused _ hnot => exact Response.follows_of_not_allowed hnot rfl
  | granted _ hfirst hallowed _ hall hvary =>
    exact Response.follows_of_allowed hfirst hallowed hall (hvary ▸ List.mem_singleton_self _)

/-- A preflight is answered by 204 if its origin is allowed and by 403 if it is not. -/
theorem status (h : l.Answers r (some response)) :
    response.status = .noContent ∧ r.FromAllowed l.origins ∨
      response.status = .forbidden ∧ ¬ r.FromAllowed l.origins := by
  cases h with
  | refused _ hnot => exact .inr ⟨rfl, hnot⟩
  | granted _ hfirst hallowed hstatus _ _ => exact .inl ⟨hstatus, _, hfirst, hallowed⟩

end Answers

/-- **How a preflight is answered.** -/
theorem answers_preflight (l : OriginList) (r : Request) : l.Answers r (l.preflight r) := by
  have hasks :
      (r.method ≠ "OPTIONS" || !r.headers.contains "access-control-request-method") = true ↔
      ¬ (r.method = "OPTIONS" ∧ ∃ value, ("access-control-request-method", value) ∈ r.headers) := by
    rw [Bool.or_eq_true, decide_eq_true_eq, Bool.not_eq_true', ← Bool.not_eq_true,
      Headers.contains_iff, not_and_or]
  unfold preflight
  split
  · next hother => exact .nothing fun h => hasks.mp hother ⟨h.method, h.asked⟩
  · next hsame =>
    obtain ⟨hmethod, hasked⟩ := not_not.mp (mt hasks.mpr hsame)
    split
    · next hnone =>
      refine .nothing fun h => ?_
      obtain ⟨value, hvalue⟩ := Headers.exists_first?_iff.mpr h.origin
      rw [hnone] at hvalue
      cases hvalue
    · next value hfirst =>
      have his : r.IsPreflight :=
        ⟨hmethod, hasked, Headers.exists_first?_iff.mp ⟨value, hfirst⟩⟩
      have hdecides : l.allowsValue value = true ↔ r.FromAllowed l.origins :=
        allowsValue_iff.trans (Request.fromAllowed_iff hfirst).symm
      split
      · next hno =>
        rw [Bool.not_eq_true', ← Bool.not_eq_true, hdecides] at hno
        exact .refused his hno
      · next hyes =>
        rw [Bool.not_eq_true', Bool.not_eq_false, allowsValue_iff] at hyes
        refine .granted his hfirst hyes rfl ?_ ?_
        -- the names that were asked for stand behind all that is looked at here
        · cases r.headers.first? "access-control-request-headers" <;> rfl
        · cases r.headers.first? "access-control-request-headers" <;> rfl

/-- The list answers a preflight as the specification says. -/
theorem answers_of_preflight {answer : Option Response} (h : l.preflight r = answer) :
    l.Answers r answer :=
  h ▸ l.answers_preflight r

theorem preflight_eq_none_iff : l.preflight r = none ↔ ¬ r.IsPreflight :=
  (l.answers_preflight r).eq_none_iff

/-- A response is left alone if the origin is not allowed. -/
theorem decorate_of_not_allowed (h : ¬ r.FromAllowed l.origins) (response : Response) :
    l.decorate (r.headers.first? "origin") response = response := by
  unfold decorate
  split
  · rfl
  · next value hfirst =>
    have hnot : ¬ Allowed l.origins value := mt (Request.fromAllowed_iff hfirst).mpr h
    exact if_neg (mt allowsValue_iff.mp hnot)

/-- What is added to a response that says nothing of origins is what the list decides. -/
theorem follows_decorate (l : OriginList) (r : Request)
    (h : response.headers.all "access-control-allow-origin" = []) :
    (l.decorate (r.headers.first? "origin") response).Follows l.origins r := by
  by_cases hfrom : r.FromAllowed l.origins
  · obtain ⟨value, hfirst, hallowed⟩ := hfrom
    have hdecorate : l.decorate (r.headers.first? "origin") response =
        { response with
          headers := (response.headers.set "access-control-allow-origin" value).append "vary"
            (headerValue "Origin") } := by
      rw [hfirst]
      exact if_pos (allowsValue_iff.mpr hallowed)
    rw [hdecorate]
    refine Response.follows_of_allowed hfirst hallowed ?_ ?_
    · rw [Headers.all_append_of_ne (by decide), Headers.all_set_self]
    · rw [Headers.all_append_self]
      exact List.mem_append_right _ (List.mem_singleton_self _)
  · rw [decorate_of_not_allowed hfrom]
    exact Response.follows_of_not_allowed hfrom h

/-- Nothing else of a response is touched. -/
theorem decorate_keeps (l : OriginList) (origin : Option Octets) (response : Response) :
    (l.decorate origin response).status = response.status ∧
      ∀ name, name ≠ "access-control-allow-origin" → name ≠ "vary" →
        (l.decorate origin response).headers.all name = response.headers.all name := by
  unfold decorate
  split
  · exact ⟨rfl, fun _ _ _ => rfl⟩
  · split
    · refine ⟨rfl, fun name hname hvary => ?_⟩
      rw [Headers.all_append_of_ne hvary.symm, Headers.all_set_of_ne hname]
    · exact ⟨rfl, fun _ _ _ => rfl⟩

end OriginList

/-- The policy of a configuration touches nothing else of a response. -/
theorem corsPolicy_keeps (s : CorsSection) (origin : Option Octets) (response : Response) :
    ((corsPolicy s).decorate origin response).status = response.status ∧
      ∀ name, name ≠ "access-control-allow-origin" → name ≠ "vary" →
        ((corsPolicy s).decorate origin response).headers.all name = response.headers.all name := by
  unfold corsPolicy
  split
  · exact ⟨rfl, fun _ _ _ => rfl⟩
  · exact (OriginList.mk s.allowOrigins).decorate_keeps origin response

end Http

end WsGateway

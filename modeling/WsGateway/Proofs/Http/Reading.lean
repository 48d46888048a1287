import WsGateway.Demux
import WsGateway.Proofs.Text.Pieces

/-!
# What routing reads of a request

Three things of a request decide where it goes: the first segment of its path
(`Http.FirstSegment`), whether one of its transfer codings is the chunked one
(`Http.Request.CodesChunked`), and the length that it declares (`Http.Request.Declares`). Each is
said here of the path and of the header values themselves, and found by the function that reads it.
-/

namespace WsGateway

open Text (Octets)

namespace Http

/-! ## The first segment -/

/-- Behind slashes at the beginning of the path stands the segment, up to the next slash, a query,
a fragment or the end. -/
def FirstSegment (path s : List Char) : Prop :=
  s ≠ [] ∧ (∀ c ∈ s, c ≠ '/' ∧ c ≠ '?' ∧ c ≠ '#') ∧ ∃ slashes rest, path = slashes ++ s ++ rest ∧
    (∀ c ∈ slashes, c = '/') ∧ ∀ c, rest.head? = some c → c = '/' ∨ c = '?' ∨ c = '#'

theorem head?_dropWhile {α : Type} {p : α → Bool} {l : List α} {a : α}
    (h : (l.dropWhile p).head? = some a) : p a = false := by
  have hnot := List.head?_dropWhile_not p l
  rw [h] at hnot
  exact hnot

/-- A segment that is found is the first one. -/
theorem firstSegment_of_routeKey? {path key : String} (h : routeKey? path = some key) :
    FirstSegment path.toList key.toList := by
  unfold routeKey? at h
  dsimp only at h
  -- the path without its query and its fragment
  set cut := path.toList.takeWhile fun c => decide (c ≠ '?' ∧ c ≠ '#')
  have hpath : cut ++ path.toList.dropWhile (fun c => decide (c ≠ '?' ∧ c ≠ '#')) = path.toList :=
    List.takeWhile_append_dropWhile
  have hclean : ∀ c ∈ cut, c ≠ '?' ∧ c ≠ '#' := fun c hc => by
    simpa using List.mem_takeWhile_imp hc
  have hslashes : cut.takeWhile (· = '/') ++ cut.dropWhile (· = '/') = cut :=
    List.takeWhile_append_dropWhile
  rw [Text.find?_splitChars] at h
  cases hmore : cut.dropWhile (· = '/') with
  | nil =>
    rw [hmore] at h
    cases h
  | cons c more =>
    rw [hmore] at h hslashes
    have hc : c ≠ '/' := by
      simpa using head?_dropWhile (p := (· = '/')) (l := cut) (a := c) (by rw [hmore]; rfl)
    have hkey : key.toList = (c :: more).takeWhile (· ≠ '/') := by
      rw [← Option.some.inj h, String.toList_ofList]
    have hrest : key.toList ++ (c :: more).dropWhile (· ≠ '/') = c :: more := by
      rw [hkey, List.takeWhile_append_dropWhile]
    refine ⟨?_, ?_, cut.takeWhile (· = '/'), (c :: more).dropWhile (· ≠ '/') ++
      path.toList.dropWhile (fun c => decide (c ≠ '?' ∧ c ≠ '#')), ?_, ?_, ?_⟩
    · rw [hkey, List.takeWhile_cons_of_pos (by simpa using hc)]
      exact List.cons_ne_nil _ _
    · intro x hx
      have hmem : x ∈ cut := by
        rw [← hslashes, ← hrest]
        exact List.mem_append_right _ (List.mem_append_left _ hx)
      rw [hkey] at hx
      exact ⟨by simpa using List.mem_takeWhile_imp hx, hclean x hmem⟩
    · rw [List.append_assoc, ← List.append_assoc key.toList, hrest, ← List.append_assoc, hslashes,
        hpath]
    · intro x hx
      simpa using List.mem_takeWhile_imp hx
    · -- behind the segment there is a slash, or what the path was cut off at
      intro x hx
      rw [List.head?_append] at hx
      cases hd : ((c :: more).dropWhile (· ≠ '/')).head? with
      | some y =>
        rw [hd] at hx
        cases hx
        exact .inl (by simpa using head?_dropWhile hd)
      | none =>
        rw [hd] at hx
        have hstop := head?_dropWhile (show _ = some x from hx)
        rw [decide_eq_false_iff_not, not_and_or, not_not, not_not] at hstop
        exact .inr hstop

/-- The first segment is found. -/
theorem routeKey?_of_firstSegment {path key : String}
    (h : FirstSegment path.toList key.toList) : routeKey? path = some key := by
  obtain ⟨hne, hclean, slashes, rest, hpath, hslashes, hrest⟩ := h
  unfold routeKey?
  dsimp only
  -- Neither the slashes nor the key contain a character that the path is cut at.
  have hcut : path.toList.takeWhile (fun c => decide (c ≠ '?' ∧ c ≠ '#')) =
      slashes ++ (key.toList ++ rest.takeWhile fun c => decide (c ≠ '?' ∧ c ≠ '#')) := by
    rw [hpath, List.append_assoc, List.takeWhile_append_of_pos, List.takeWhile_append_of_pos]
    · intro c hc
      simpa using (hclean c hc).2
    · intro c hc
      rw [hslashes c hc]
      decide
  rw [hcut, Text.find?_splitChars, List.dropWhile_append_of_pos (by simpa using hslashes)]
  cases hkey : key.toList with
  | nil => exact absurd hkey hne
  | cons c more =>
    have hc : c ≠ '/' := (hclean c (hkey ▸ List.mem_cons_self)).1
    rw [List.cons_append, List.dropWhile_cons_of_neg (by simpa using hc)]
    show some (String.ofList ((c :: more ++ _).takeWhile _)) = some key
    -- The key ends at the end of the path or at a character that is no part of a segment.
    have hends : (rest.takeWhile fun c => decide (c ≠ '?' ∧ c ≠ '#')).takeWhile (· ≠ '/') = [] := by
      cases rest with
      | nil => rfl
      | cons x more =>
        rcases hrest x rfl with rfl | rfl | rfl
        · rfl
        · rfl
        · rfl
    rw [← hkey, List.takeWhile_append_of_pos, hends, List.append_nil, String.ofList_toList]
    intro x hx
    simpa using (hclean x hx).1

/-- **Which segment is found**: the first one of the path. -/
theorem routeKey?_eq_some_iff {path key : String} :
    routeKey? path = some key ↔ FirstSegment path.toList key.toList :=
  ⟨firstSegment_of_routeKey?, routeKey?_of_firstSegment⟩

/-- A path has no route key just if it has no first segment. -/
theorem routeKey?_eq_none_iff {path : String} :
    routeKey? path = none ↔ ∀ s, ¬ FirstSegment path.toList s := by
  constructor
  · intro h s hs
    have hfound : routeKey? path = some (String.ofList s) :=
      routeKey?_of_firstSegment (by rwa [String.toList_ofList])
    rw [h] at hfound
    cases hfound
  · intro h
    cases hkey : routeKey? path with
    | none => rfl
    | some key => exact absurd (firstSegment_of_routeKey? hkey) (h _)

/-! ## Header values -/

namespace Request

/-- Among the transfer codings, which stand between commas in all values that are texts, is the
chunked one, in any case and between any blanks. -/
def CodesChunked (r : Request) : Prop :=
  ∃ value text coding, ("transfer-encoding", value) ∈ r.headers ∧ headerText? value = some text ∧
    Text.IsPiece ',' text.toList coding ∧ Text.Spells "chunked".toList coding

/-- The first value for the length of the body is a text that spells the number between blanks. -/
def Declares (r : Request) (n : UInt64) : Prop :=
  ∃ value text, r.headers.first? "content-length" = some value ∧ headerText? value = some text ∧
    Text.uint64? (Text.trim text) = some n

end Request

/-- The values of a name are those of its entries. -/
theorem Headers.mem_all {h : Headers} {name : String} {value : Octets} :
    value ∈ h.all name ↔ (name, value) ∈ h := by
  unfold all
  rw [List.mem_map]
  constructor
  · rintro ⟨⟨name', value'⟩, hmem, rfl⟩
    obtain ⟨hin, hname⟩ := List.mem_filter.mp hmem
    rwa [← beq_iff_eq.mp hname]
  · intro hin
    exact ⟨(name, value), List.mem_filter.mpr ⟨hin, beq_self_eq_true name⟩, rfl⟩

/-- A name has a first value just if it has an entry. -/
theorem Headers.exists_first?_iff {h : Headers} {name : String} :
    (∃ value, h.first? name = some value) ↔ ∃ value, (name, value) ∈ h := by
  unfold first?
  constructor
  · rintro ⟨value, hvalue⟩
    exact ⟨value, mem_all.mp (List.mem_of_head? hvalue)⟩
  · rintro ⟨value, hvalue⟩
    cases hall : h.all name with
    | nil =>
      have hmem := mem_all.mpr hvalue
      rw [hall] at hmem
      cases hmem
    | cons first more => exact ⟨first, rfl⟩

/-- A name is contained just if it has an entry. -/
theorem Headers.contains_iff {h : Headers} {name : String} :
    h.contains name = true ↔ ∃ value, (name, value) ∈ h := by
  rw [← exists_first?_iff]
  exact Option.isSome_iff_exists

/-- The word is among the items of a header if it stands between commas in a value that is a
text. -/
theorem Headers.hasToken_iff {h : Headers} {name word : String} (hne : word.toList ≠ [])
    (hlower : word.toList.map Char.toLower = word.toList)
    (hblank : ∀ c ∈ word.toList, Text.isBlank c = false) :
    h.hasToken name word = true ↔ ∃ value text item, (name, value) ∈ h ∧
      headerText? value = some text ∧ Text.IsPiece ',' text.toList item ∧
      Text.Spells word.toList item := by
  have hspells : ∀ item : List Char, Text.sameLetters (Text.trim (String.ofList item)) word = true ↔
      Text.Spells word.toList item := by
    intro item
    rw [Text.sameLetters_trim hne hlower hblank, String.toList_ofList]
  unfold hasToken tokens Text.split
  simp only [List.any_eq_true, List.mem_flatMap, List.mem_filterMap, List.mem_map, mem_all]
  constructor
  · rintro ⟨_, ⟨text, ⟨value, hvalue, htext⟩, ⟨_, ⟨item, hitem, rfl⟩, rfl⟩⟩, hsame⟩
    exact ⟨value, text, item, hvalue, htext, Text.mem_splitChars.mp hitem, (hspells item).mp hsame⟩
  · rintro ⟨value, text, item, hvalue, htext, hitem, hsame⟩
    exact ⟨_, ⟨text, ⟨value, hvalue, htext⟩, _, ⟨item, Text.mem_splitChars.mpr hitem, rfl⟩, rfl⟩,
      (hspells item).mpr hsame⟩

namespace Request

/-- **Whether a request is chunked**: one of its transfer codings says so. -/
theorem isChunked_iff {r : Request} : r.isChunked = true ↔ r.CodesChunked := by
  have hblank : "chunked".toList.all (fun c => !Text.isBlank c) = true := by decide
  exact Headers.hasToken_iff (by decide) (by decide) (by simpa using List.all_eq_true.mp hblank)

end Request

end Http

/-- The length that is read is the one that is declared. -/
theorem Gateway.declaredLength?_eq_some_iff {r : Http.Request} {n : UInt64} :
    declaredLength? r = some n ↔ r.Declares n := by
  unfold declaredLength? Http.Headers.text?
  simp only [Option.bind_eq_some_iff]
  constructor
  · rintro ⟨text, ⟨value, hfirst, htext⟩, hn⟩
    exact ⟨value, text, hfirst, htext, hn⟩
  · rintro ⟨value, text, hfirst, htext, hn⟩
    exact ⟨text, ⟨value, hfirst, htext⟩, hn⟩

end WsGateway

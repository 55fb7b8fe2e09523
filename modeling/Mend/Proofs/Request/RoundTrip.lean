import Mend.Proofs.Request.Stages
import Mend.Proofs.Turn.Delimiters
import Mend.Turn.TagText

/-!
# Reading requests that were written

The section that a turn writes for its requests is resolved to those requests
(`Request.resolve_requestsText`), when their paths are plain (`Request.IsPlainPath`): the first stage
recovers the JSON array, and each of its items is the request that it was written for.
-/

namespace Mend

namespace Request

/-- A path that is read as it is written. -/
structure IsPlainPath (path : Text) : Prop where
  ne_nil : path ≠ []
  trim_eq : path.trim = path
  plain : path.plainQuotes = path
  no_delimiter : TagLine.find? path = none

instance (path : Text) : Decidable (IsPlainPath path) :=
  decidable_of_iff
    (path ≠ [] ∧ path.trim = path ∧ path.plainQuotes = path ∧ TagLine.find? path = none)
    ⟨fun ⟨hne, htrim, hplain, hfind⟩ => ⟨hne, htrim, hplain, hfind⟩,
      fun h => ⟨h.ne_nil, h.trim_eq, h.plain, h.no_delimiter⟩⟩

/-- The requests as a JSON value. -/
def listJson (rs : List Request) : Json := .array (rs.map toJson)

theorem isReadable_listJson (rs : List Request) : (listJson rs).IsReadable Json.maxDepth := by
  have hitems : ∀ (vs : List Request) (depth : Nat), 0 < depth →
      Json.AreReadable (vs.map toJson) depth := by
    intro vs depth hdepth
    induction vs with
    | nil => trivial
    | cons r vs ih =>
      refine ⟨?_, ih⟩
      simpa [toJson, members, Json.IsReadable, Json.HaveReadable] using hdepth
  exact ⟨by decide, hitems rs _ (by decide)⟩

/-- The texts in the JSON form of a request that do not depend on its path. -/
def wireWords : List Text :=
  ["type".toList, "path".toList, RequestKind.file.wireName, RequestKind.listing.wireName]

theorem wireName_mem_wireWords (k : RequestKind) : k.wireName ∈ wireWords := by
  cases k with
  | file => simp [wireWords]
  | listing => simp [wireWords]

/-- What holds of the words and the paths of requests holds of their texts. -/
theorem forall_mem_texts_listJson {P : Text → Prop} {rs : List Request}
    (hwords : ∀ w ∈ wireWords, P w) (hrs : ∀ r ∈ rs, P r.path) :
    ∀ t ∈ (listJson rs).texts, P t := by
  rw [listJson, Json.texts]
  induction rs with
  | nil => exact fun t ht => absurd ht List.not_mem_nil
  | cons r rs ih =>
    rw [List.forall_mem_cons] at hrs
    have hrest := ih hrs.2
    simp only [List.map_cons, Json.textsOfItems, toJson, members, Json.texts, Json.textsOfMembers,
      List.append_nil, List.cons_append, List.nil_append, List.forall_mem_cons]
    have htype := hwords _ (.head _)
    have hpath := hwords _ (.tail _ (.head _))
    exact ⟨htype, hwords _ (wireName_mem_wireWords r.kind), hpath, hrs.1, hrest⟩

theorem ofWire?_wireName (k : RequestKind) : RequestKind.ofWire? k.wireName = some k := by
  cases k with
  | file => decide
  | listing => decide

/-- A trimmed path that is not empty is left as it is. -/
theorem nonBlank?_eq_some {path : Text} (hne : path ≠ []) (htrim : path.trim = path) :
    path.nonBlank? = some path := by
  simp [Text.nonBlank?, htrim, hne]

/-- A request is read from its JSON form, in which the path comes before the kind. -/
theorem ofJson?_asRead {r : Request} (hpath : r.path.nonBlank? = some r.path) :
    ofJson? r.toJson.asRead = some r := by
  -- the reader keeps members in the order of their names
  have hle : Text.le ['p', 'a', 't', 'h'] ['t', 'y', 'p', 'e'] = true := by decide
  have hread : r.toJson.asRead
      = .object [(['p', 'a', 't', 'h'], .text r.path), (['t', 'y', 'p', 'e'], .text r.kind.wireName)] := by
    simp [toJson, members, Json.asRead, Json.membersAsRead, Json.ofMembers, Json.insertMember, hle]
  rw [hread]
  simp [ofJson?, List.lookup_cons, Json.text?, hpath, ofWire?_wireName]

theorem listOfJson_asRead {rs : List Request} (h : ∀ r ∈ rs, r.path.nonBlank? = some r.path) :
    listOfJson (listJson rs).asRead = rs := by
  have hitems : (Json.itemsAsRead (rs.map toJson)).filterMap ofJson? = rs := by
    induction rs with
    | nil => rfl
    | cons r rs ih =>
      rw [List.forall_mem_cons] at h
      rw [List.map_cons, Json.itemsAsRead, List.filterMap_cons_some (ofJson?_asRead h.1), ih h.2]
  rw [listJson, Json.asRead, listOfJson, hitems]

/-- Requests with different paths are all kept. -/
theorem distinctFrom_eq_self {seen : List Text} {rs : List Request}
    (hnodup : (rs.map path).Nodup) (hseen : ∀ r ∈ rs, r.path ∉ seen) :
    distinctFrom seen rs = rs := by
  induction rs generalizing seen with
  | nil => rfl
  | cons r rs ih =>
    rw [List.map_cons, List.nodup_cons] at hnodup
    rw [List.forall_mem_cons] at hseen
    -- a path that is kept counts as seen for the requests after it
    have hrest : ∀ s ∈ rs, s.path ∉ r.path :: seen := by
      intro s hs
      rw [List.mem_cons, not_or]
      refine ⟨fun heq => hnodup.1 ?_, hseen.2 s hs⟩
      exact List.mem_map.2 ⟨s, hs, heq⟩
    rw [distinctFrom, if_neg hseen.1, ih hnodup.2 hrest]

theorem distinct_eq_self {rs : List Request} (h : (rs.map path).Nodup) : distinct rs = rs :=
  distinctFrom_eq_self h fun _ _ => List.not_mem_nil

/-! ## The section of the requests -/

theorem requestsText_eq {rs : List Request} (h : rs ≠ []) :
    Turn.requestsText rs = (listJson rs).compact := by
  rw [Turn.requestsText, List.isEmpty_eq_false_iff.2 h]
  rfl

/-- The section is written between square brackets. -/
theorem exists_requestsText {rs : List Request} (h : rs ≠ []) :
    ∃ body, Turn.requestsText rs = '[' :: body ++ [']'] := by
  obtain ⟨r, rest, rfl⟩ := List.exists_cons_of_ne_nil h
  refine ⟨r.toJson.compact ++ Json.compactItems (rest.map toJson), ?_⟩
  rw [requestsText_eq h, listJson, List.map_cons, Json.compact]
  rfl

theorem trim_requestsText (rs : List Request) :
    (Turn.requestsText rs).trim = Turn.requestsText rs := by
  by_cases h : rs = []
  · rw [h]
    rfl
  · obtain ⟨body, hbody⟩ := exists_requestsText h
    rw [hbody]
    exact Text.trim_eq_self (by decide) (by decide) body

/-- The section is one line. -/
theorem lf_notMem_requestsText (rs : List Request) : Text.lf ∉ Turn.requestsText rs := by
  intro hmem
  by_cases h : rs = []
  · rw [h] at hmem
    cases hmem
  · rw [requestsText_eq h] at hmem
    have hlow := Json.le_toNat_compact (isReadable_listJson rs) Text.lf hmem
    revert hlow
    decide

/-- The section holds no delimiter. -/
theorem find?_requestsText {rs : List Request} (hrs : ∀ r ∈ rs, IsPlainPath r.path) :
    TagLine.find? (Turn.requestsText rs) = none := by
  by_cases h : rs = []
  · rw [h]
    rfl
  · rw [requestsText_eq h]
    refine TagLine.find?_compact (isReadable_listJson rs) ?_
    exact forall_mem_texts_listJson (by decide) fun r hr => (hrs r hr).no_delimiter

/-- The requests are recovered from their JSON form. -/
theorem recover?_listJson {rs : List Request} (h : ∀ r ∈ rs, r.path.plainQuotes = r.path) :
    Json.recover? (listJson rs).compact = some (listJson rs).asRead :=
  Json.recover?_compact (isReadable_listJson rs) rfl (forall_mem_texts_listJson (by decide) h)

/-- The JSON form of requests starts with a bracket. -/
theorem hasBracket_listJson (rs : List Request) : hasBracket (listJson rs).compact = true := by
  cases rs with
  | nil => rfl
  | cons r rs => rfl

/-- The JSON form of requests is resolved to them. -/
theorem resolve_listJson {rs : List Request} (hne : rs ≠ [])
    (hpath : ∀ r ∈ rs, r.path.nonBlank? = some r.path)
    (hplain : ∀ r ∈ rs, r.path.plainQuotes = r.path) : resolve (listJson rs).compact = rs := by
  have hread := listOfJson_asRead hpath
  have hresolve := resolve_of_recover? (hasBracket_listJson rs) (recover?_listJson hplain)
    (by rwa [hread])
  rw [hresolve, hread]

/-- The section that is written for requests is resolved to them. -/
theorem resolve_requestsText {rs : List Request} (hrs : ∀ r ∈ rs, IsPlainPath r.path) :
    resolve (Turn.requestsText rs) = rs := by
  by_cases h : rs = []
  · rw [h]
    rfl
  · rw [requestsText_eq h]
    exact resolve_listJson h (fun r hr => nonBlank?_eq_some (hrs r hr).ne_nil (hrs r hr).trim_eq)
      fun r hr => (hrs r hr).plain

end Request

end Mend

import Mend.Proofs.Request.Truncation
import Mend.Proofs.Turn.Standalone

/-!
# Requested paths

Whichever way a request is read, its path has no blanks at its ends, and it is not empty but for one
way: of the four stages that read a section, the one that pairs up members of broken JSON trims a path
after it has found it not empty, and keeps what is left. So a reply asks for the empty path exactly
when its section of requests is read by its members and one of these holds blanks only
(`Turn.parse_paths`).

Where a request comes from decides: `Request.IsTidy` is shown for what each of the ways makes, and the
stages are told apart by whether the members are read (`Request.ReadByMembers`).
-/

namespace Mend

namespace Request

open Text (matchAll)

/-- A path that is not empty and has no blanks at its ends. -/
structure IsTidy (path : Text) : Prop where
  ne_nil : path ≠ []
  trim_eq : path.trim = path

theorem isTidy_of_nonBlank? {t path : Text} (h : t.nonBlank? = some path) : IsTidy path := by
  rw [Text.nonBlank?] at h
  split at h
  · cases h
  · rename_i hne
    cases h
    exact ⟨fun hnil => hne (by rw [hnil]; rfl), Text.trim_trim t⟩

/-! ## The ways to read a request -/

theorem isTidy_of_ofJson? {v : Json} {r : Request} (h : ofJson? v = some r) : IsTidy r.path := by
  cases v with
  | text t =>
    obtain ⟨path, hpath, rfl⟩ := Option.map_eq_some_iff.1 h
    exact isTidy_of_nonBlank? hpath
  | object members =>
    rw [ofJson?] at h
    dsimp only at h
    split at h
    · cases h
    · rename_i path hpath
      cases h
      obtain ⟨t, -, ht⟩ := Option.bind_eq_some_iff.1 hpath
      exact isTidy_of_nonBlank? ht
  | _ => cases h

theorem isTidy_of_mem_listOfJson {v : Json} {r : Request} (h : r ∈ listOfJson v) :
    IsTidy r.path := by
  unfold listOfJson at h
  split at h
  · obtain ⟨item, -, hitem⟩ := List.mem_filterMap.1 h
    exact isTidy_of_ofJson? hitem
  · exact isTidy_of_ofJson? (Option.mem_toList.1 h)

theorem isTidy_of_ofLine? {line : Text} {r : Request} (h : ofLine? line = some r) :
    IsTidy r.path := by
  unfold ofLine? at h
  dsimp only at h
  generalize Text.dropEndWhile (· == ',') ((itemBody? line).getD line).trim = body at h
  split at h
  · cases h
  split at h
  · cases h
  rename_i hkept _
  split at h
  · -- the text between the quotes may have blanks at its ends
    obtain ⟨path, hpath, rfl⟩ := Option.map_eq_some_iff.1 h
    exact isTidy_of_nonBlank? hpath
  · split at h
    · cases h
      refine ⟨fun hnil => hkept ?_, Text.trim_trim body⟩
      rw [show body.trim = [] from hnil]
      rfl
    · cases h

/-- No path is lost with the requests that ask for it again. -/
theorem mem_path_distinctFrom {seen : List Text} {rs : List Request} {path : Text}
    (hseen : path ∉ seen) :
    path ∈ (distinctFrom seen rs).map Request.path ↔ path ∈ rs.map Request.path := by
  induction rs generalizing seen with
  | nil => rfl
  | cons r rs ih =>
    rw [distinctFrom, List.map_cons, List.mem_cons]
    split
    · rename_i hr
      have hne : path ≠ r.path := fun heq => hseen (heq ▸ hr)
      rw [ih hseen, or_iff_right hne]
    · rw [List.map_cons, List.mem_cons]
      by_cases heq : path = r.path
      · simp [heq]
      · rw [ih fun hmem => (List.mem_cons.1 hmem).elim heq hseen]

theorem mem_path_distinct {rs : List Request} {path : Text} :
    path ∈ (distinct rs).map Request.path ↔ path ∈ rs.map Request.path :=
  mem_path_distinctFrom List.not_mem_nil

theorem distinctFrom_sublist (seen : List Text) (rs : List Request) :
    (distinctFrom seen rs).Sublist rs := by
  induction rs generalizing seen with
  | nil => exact List.Sublist.refl _
  | cons r rs ih =>
    rw [distinctFrom]
    split
    · exact (ih seen).cons r
    · exact (ih _).cons_cons r

/-- The requests of a plan are its paths, as files. -/
theorem exists_of_mem_ofPlan {plan : Text} {r : Request} (h : r ∈ ofPlan plan) :
    ∃ path ∈ pathsOfPlan plan, r = file path := by
  obtain ⟨path, hpath, rfl⟩ := List.mem_map.1 ((distinctFrom_sublist _ _).subset h)
  exact ⟨path, hpath, rfl⟩

theorem isTidy_of_mem_ofPlan {plan : Text} {r : Request} (h : r ∈ ofPlan plan) :
    IsTidy r.path := by
  obtain ⟨path, hpath, rfl⟩ := exists_of_mem_ofPlan h
  obtain ⟨t, -, ht⟩ := List.mem_filterMap.1 hpath
  exact isTidy_of_nonBlank? ht

/-- The paths of paired members are trimmed, whatever is left of them. -/
theorem map_path_pairUp (paths : List Text) (kinds : List (Option RequestKind)) :
    (pairUp paths kinds).map Request.path = paths.map Text.trim := by
  induction paths generalizing kinds with
  | nil => rfl
  | cons path paths ih => rw [pairUp, List.map_cons, List.map_cons, ih]

/-! ## The stages -/

/-- The section has path members, and the stages before the one of members have no result. -/
structure ReadByMembers (t : Text) : Prop where
  json : hasBracket t = true → ofRecovered? t = none
  prose : isList t = true → ofProse? t = none
  members : matchAll (member pathNames) t ≠ []

section Stages

variable {t : Text}

theorem isTidy_of_ofRecovered? {rs : List Request} (h : ofRecovered? t = some rs) {r : Request}
    (hr : r ∈ rs) : IsTidy r.path := by
  rw [ofRecovered?] at h
  split at h
  · cases h
  split at h
  · cases h
  · cases h
    exact isTidy_of_mem_listOfJson hr

theorem isTidy_of_ofLines? {rs : List Request} (h : ofLines? t = some rs) {r : Request}
    (hr : r ∈ rs) : IsTidy r.path := by
  have hrs : rs = t.lines.filterMap ofLine? := by
    rw [ofLines?] at h
    split at h
    · cases h
    · rename_i heq
      rw [heq]
      exact (Option.some.inj h).symm
  rw [hrs] at hr
  obtain ⟨line, -, hline⟩ := List.mem_filterMap.1 hr
  exact isTidy_of_ofLine? hline

/-- The stage of prose asks for nothing. -/
theorem eq_nil_of_ofProse? {rs : List Request} (h : ofProse? t = some rs) : rs = [] := by
  rw [ofProse?] at h
  split at h
  · exact (Option.some.inj h).symm
  · cases h

theorem ofMembers?_eq_none_iff :
    ofMembers? t = none ↔ matchAll (member pathNames) t = [] := by
  rw [← List.map_eq_nil_iff (f := Text.trim),
    ← map_path_pairUp _ ((matchAll (member kindNames) t).map RequestKind.ofWire?),
    List.map_eq_nil_iff]
  unfold ofMembers?
  dsimp only
  split
  · rename_i heq
    simp [heq]
  · rename_i heq
    simp [heq]

theorem map_path_of_ofMembers? {rs : List Request} (h : ofMembers? t = some rs) :
    rs.map Request.path = (matchAll (member pathNames) t).map Text.trim := by
  rw [← map_path_pairUp _ ((matchAll (member kindNames) t).map RequestKind.ofWire?)]
  unfold ofMembers? at h
  dsimp only at h
  split at h
  · cases h
  · rename_i heq
    rw [heq, ← Option.some.inj h]

/-- The paths of a section that is read by its members. -/
theorem ReadByMembers.map_path_resolve (h : ReadByMembers t) :
    (resolve t).map Request.path = (matchAll (member pathNames) t).map Text.trim := by
  have hname := hasPathName_of_matchAll h.members
  have hempty : t.trim.isEmpty = false := by
    -- the quote of a name is no blank
    obtain ⟨name, -, hinfix⟩ := List.any_eq_true.1 hname
    have hquote : '"' ∈ t := (Text.hasInfix_iff.1 hinfix).subset (by simp)
    exact List.isEmpty_eq_false_iff.2 (List.ne_nil_of_mem (Text.mem_trim (by decide) hquote))
  have hjson : Stage.run? ⟨"json".toList, hasBracket, ofRecovered?⟩ t = none :=
    ite_eq_right_iff.2 h.json
  have hprose : Stage.run? ⟨"prose_list".toList, isList, ofProse?⟩ t = none :=
    ite_eq_right_iff.2 h.prose
  have hmembers : Stage.run? ⟨"key_pairs".toList, hasPathName, ofMembers?⟩ t = ofMembers? t :=
    Stage.run?_of_applies hname
  obtain ⟨rs, hrs⟩ := Option.ne_none_iff_exists'.1 (mt ofMembers?_eq_none_iff.1 h.members)
  rw [resolve, hempty, stages, List.findSome?_cons, hjson, List.findSome?_cons, hprose,
    List.findSome?_cons, hmembers, hrs]
  exact map_path_of_ofMembers? hrs

/-- The other stages make tidy paths. -/
theorem isTidy_of_mem_resolve (h : ¬ ReadByMembers t) {r : Request} (hr : r ∈ resolve t) :
    IsTidy r.path := by
  rw [resolve] at hr
  split at hr
  · cases hr
  cases hfound : stages.findSome? (·.run? t) with
  | none =>
    rw [hfound] at hr
    cases hr
  | some rs =>
    rw [hfound, Option.getD_some] at hr
    simp only [stages, List.findSome?_cons] at hfound
    -- the first stage with a result is the one that is read
    split at hfound
    · rename_i hjson
      cases hfound
      exact isTidy_of_ofRecovered? (Stage.extract_of_run? hjson) hr
    rename_i hjson
    split at hfound
    · rename_i hprose
      cases hfound
      rw [eq_nil_of_ofProse? (Stage.extract_of_run? hprose)] at hr
      cases hr
    rename_i hprose
    split at hfound
    · rename_i hmembers
      refine absurd ⟨ite_eq_right_iff.1 hjson, ite_eq_right_iff.1 hprose, fun hnil => ?_⟩ h
      cases (ofMembers?_eq_none_iff.2 hnil).symm.trans (Stage.extract_of_run? hmembers)
    split at hfound
    · rename_i hlines
      cases hfound
      exact isTidy_of_ofLines? (Stage.extract_of_run? hlines) hr
    · cases hfound

/-- Every path of a section is trimmed. -/
theorem trim_of_mem_resolve {r : Request} (hr : r ∈ resolve t) : r.path.trim = r.path := by
  by_cases h : ReadByMembers t
  · have hpath : r.path ∈ (resolve t).map Request.path := List.mem_map_of_mem hr
    rw [h.map_path_resolve] at hpath
    obtain ⟨content, -, hcontent⟩ := List.mem_map.1 hpath
    rw [← hcontent, Text.trim_trim]
  · exact (isTidy_of_mem_resolve h hr).trim_eq

/-- A section asks for the empty path when a member of it is blank. -/
theorem nil_mem_resolve_iff : [] ∈ (resolve t).map Request.path ↔
    ReadByMembers t ∧ ∃ content ∈ matchAll (member pathNames) t, content.trim = [] := by
  constructor
  · intro hnil
    by_cases h : ReadByMembers t
    · rw [h.map_path_resolve] at hnil
      exact ⟨h, List.mem_map.1 hnil⟩
    · obtain ⟨r, hr, hpath⟩ := List.mem_map.1 hnil
      exact absurd hpath (isTidy_of_mem_resolve h hr).ne_nil
  · rintro ⟨h, hblank⟩
    rw [h.map_path_resolve]
    exact List.mem_map.2 hblank

end Stages

end Request

namespace Turn

/-- The text of the section of requests of a reply that is divided by its delimiters and carries no
signal. -/
def RequestSection (raw t : Text) : Prop :=
  Text.hasInfix Tag.finMarker raw = false ∧ Text.hasInfix Tag.noChangesMarker raw = false ∧
    ofJson? raw = none ∧
    ∃ entries, scanLines none (raw.lines.map Text.dropCr) = (entries, .none) ∧
      t = sectionText entries .requests

/-- A turn asks for the paths that are requested, or for those that its plan names. -/
theorem mem_path_finish {t : Turn} {path : Text}
    (h : path ∈ (finish t).requests.map Request.path) :
    path ∈ t.requests.map Request.path ∨ Request.IsTidy path := by
  rw [finish] at h
  dsimp only at h
  rw [Request.mem_path_distinct] at h
  split at h
  · obtain ⟨r, hr, rfl⟩ := List.mem_map.1 h
    exact .inr (Request.isTidy_of_mem_ofPlan hr)
  · exact .inl h

theorem mem_path_finish_of_mem {t : Turn} {path : Text} (h : path ∈ t.requests.map Request.path) :
    path ∈ (finish t).requests.map Request.path := by
  have hne : t.requests ≠ [] := by
    rintro heq
    rw [heq] at h
    cases h
  rw [requests_finish (.inl hne)]
  exact Request.mem_path_distinct.2 h

/-- A path that a reply asks for comes from its section of requests, or is tidy. -/
theorem mem_path_parse {raw path : Text} (h : path ∈ (parse raw).requests.map Request.path) :
    Request.IsTidy path ∨
      ∃ t, RequestSection raw t ∧ path ∈ (Request.resolve t).map Request.path := by
  rw [parse] at h
  split at h
  · cases h
  split at h
  · cases h
  rename_i hfin hnoChanges
  split at h
  · rename_i turn hjson
    obtain ⟨v, -, -, rfl⟩ := exists_of_ofJson? hjson
    rcases mem_path_finish h with h | h
    · obtain ⟨r, hr, rfl⟩ := List.mem_map.1 h
      exact .inl (Request.isTidy_of_mem_listOfJson hr)
    · exact .inl h
  · rename_i hjson
    rw [ofDelimited] at h
    split at h
    · rename_i entries hscan
      rcases mem_path_finish h with h | h
      · exact .inr ⟨_, ⟨eq_false_of_ne_true hfin, eq_false_of_ne_true hnoChanges, hjson, entries,
          hscan, rfl⟩, h⟩
      · exact .inl h
    · -- a review asks for nothing
      cases h

theorem mem_path_parse_of_requestSection {raw t path : Text} (hsection : RequestSection raw t)
    (h : path ∈ (Request.resolve t).map Request.path) :
    path ∈ (parse raw).requests.map Request.path := by
  obtain ⟨hfin, hnoChanges, hjson, entries, hscan, rfl⟩ := hsection
  have hparse : parse raw = finish (ofSections entries) := by
    rw [parse, hfin, hnoChanges, hjson, ofDelimited, hscan]
    rfl
  rw [hparse]
  exact mem_path_finish_of_mem h

/-- Every path that a reply asks for is trimmed. The empty path is asked for exactly when the section
of requests is read by the members of JSON that cannot be read, and the text of a path member there is
blank. -/
theorem parse_paths (raw : Text) :
    (∀ r ∈ (parse raw).requests, r.path.trim = r.path) ∧
      ((∃ r ∈ (parse raw).requests, r.path = []) ↔
        ∃ t, RequestSection raw t ∧ Request.ReadByMembers t ∧
          ∃ content ∈ Text.matchAll (Request.member Request.pathNames) t, content.trim = []) := by
  constructor
  · intro r hr
    rcases mem_path_parse (List.mem_map_of_mem hr) with htidy | ⟨t, -, hpath⟩
    · exact htidy.trim_eq
    · obtain ⟨s, hs, hpath⟩ := List.mem_map.1 hpath
      rw [← hpath]
      exact Request.trim_of_mem_resolve hs
  · constructor
    · rintro ⟨r, hr, hnil⟩
      have hpath : [] ∈ (parse raw).requests.map Request.path := hnil ▸ List.mem_map_of_mem hr
      rcases mem_path_parse hpath with htidy | ⟨t, hsection, hpath⟩
      · exact absurd rfl htidy.ne_nil
      · exact ⟨t, hsection, Request.nil_mem_resolve_iff.1 hpath⟩
    · rintro ⟨t, hsection, hblank⟩
      have hpath := mem_path_parse_of_requestSection hsection (Request.nil_mem_resolve_iff.2 hblank)
      exact List.mem_map.1 hpath

/-- JSON that is cut off behind a path of one blank asks for the empty path. -/
theorem parse_paths_blank :
    ¬ ∀ r ∈ (parse "%_Reply Required_%\n[\x7b\"path\": \" \"\x7d".toList).requests,
      r.path ≠ [] ∧ r.path.trim = r.path := by
  decide +kernel

end Turn

end Mend

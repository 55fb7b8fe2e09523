import Mathlib.Data.List.Basic
import Mathlib.Data.List.Flatten
import Mend.Proofs.Patch.Sources
import Mend.Proofs.Session.Changes
import Mend.Proofs.Session.Coherence
import Mend.Proofs.Session.Invariant

/-!
# What a session shows of its changes

With files in memory, a session shows for each file that a patch produced the difference between
what the file was and what the patch made of it (`Session.applyPatch_shows`). That is what changed
in the files but for those that could not be written: they keep their content, and their difference
is shown all the same (`Session.applyPatch_shows_denied`).

A difference is taken against the cache, so each file of the patch must be kept under its own path
(`Cache.Own`), apart from the other paths that are written. Under such a path the cache holds what
the files are (`MemoryFiles.Vouches`), also after a reply that shows other files.
-/

namespace Mend

variable {υ : Type}

/-- Some pieces are left out of a text and it stays the same: they were empty. -/
theorem flatMap_eq_iff {α β : Type} {l : List α} {f g : α → List β}
    (h : ∀ x ∈ l, g x = f x ∨ g x = []) : l.flatMap f = l.flatMap g ↔ ∀ x ∈ l, f x = g x := by
  refine ⟨fun heq => ?_, List.flatMap_congr⟩
  induction l with
  | nil => exact nofun
  | cons x l ih =>
    have hshorter : (l.flatMap g).Sublist (l.flatMap f) := by
      refine .flatMap_right l fun y hy => ?_
      rcases h y (List.mem_cons_of_mem _ hy) with hy | hy
      · rw [hy]
      · rw [hy]
        exact List.nil_sublist _
    rw [List.flatMap_cons, List.flatMap_cons] at heq
    -- a piece that is left out leaves no room in the rest
    have hx : f x = g x := by
      rcases h x (List.mem_cons_self ..) with hx | hx
      · exact hx.symm
      · have hlength := congrArg List.length heq
        have hle := hshorter.length_le
        rw [hx, List.nil_append, List.length_append] at hlength
        rw [hx, List.eq_nil_iff_length_eq_zero]
        omega
    rw [hx] at heq
    exact List.forall_mem_cons.2
      ⟨hx, ih (fun y hy => h y (List.mem_cons_of_mem _ hy)) (List.append_cancel_left heq)⟩

/-- A text does not differ from itself. -/
theorem Text.unifiedDiff_self (path t : Text) : unifiedDiff path t t = [] := if_pos rfl

/-- A path under which it alone of some paths is kept. -/
def Cache.Own (paths : List Text) (path : Text) : Prop :=
  ∀ other ∈ paths, other = path ↔ Cache.key other = path

instance (paths : List Text) (path : Text) : Decidable (Cache.Own paths path) :=
  inferInstanceAs (Decidable (∀ other ∈ paths, other = path ↔ Cache.key other = path))

theorem Cache.Own.mono {paths more : List Text} {path : Text} (h : Cache.Own more path)
    (hsub : ∀ other ∈ paths, other ∈ more) : Cache.Own paths path :=
  fun other hother => h other (hsub other hother)

namespace MemoryFiles

/-- A cache holds what the files are, where no write to another path is kept. -/
def Vouches (m : MemoryFiles) (c : Cache) (written : List Text) : Prop :=
  ∀ path content, c.get? path = some content → Cache.Own written path →
    m.content? path = some content

namespace Vouches

variable {m m' : MemoryFiles} {c : Cache} {ws : List Text}

theorem congr (h : m.Vouches c ws) (hfiles : m'.files = m.files) : m'.Vouches c ws := by
  intro path content hcached hown
  rw [content?, hfiles]
  exact h path content hcached hown

theorem found (h : m.Vouches c ws) {path content : Text}
    (hcontent : m.content? path = some content) : m.Vouches (c.insert path content) ws := by
  intro other t hcached hown
  by_cases heq : other = path
  · subst heq
    rw [Cache.get?_insert_self] at hcached
    exact hcontent.trans hcached
  · rw [Cache.get?_insert_ne content heq] at hcached
    exact h other t hcached hown

/-- What is written is kept under the path itself or concerns no path of its own. -/
theorem wrote {c : Conversation} (h : m.Vouches c.cache c.written) (path content : Text) :
    (m.put path content).Vouches (c.wrote path content).cache (c.wrote path content).written := by
  intro other t hcached hown
  have hsame : path = other ↔ Cache.key path = other :=
    hown path (Conversation.mem_written_wrote.2 (.inl rfl))
  rw [Conversation.wrote] at hcached
  dsimp only at hcached
  by_cases heq : path = other
  · rw [hsame.1 heq, Cache.get?_insert_self] at hcached
    rw [← heq, content?_put_self]
    exact hcached
  · have hkey : Cache.key path ≠ other := fun hkey => heq (hsame.2 hkey)
    rw [Cache.get?_insert_ne content hkey.symm] at hcached
    rw [content?_put_ne content (Ne.symm heq)]
    exact h other t hcached (hown.mono fun q hq => Conversation.mem_written_wrote.2 (.inr hq))

end Vouches

end MemoryFiles

section Store

variable {send : List Message → υ → Except Failure Text × υ}
  {onDisk : (Disk → Except Failure Unit × Disk) → υ → Except Failure Unit × υ}
  {path content : Text} {w w' : MemoryFiles × υ}

theorem Surroundings.write_inMemory_cases {x : Except Failure Unit}
    (h : (inMemory send onDisk).store.write path content w = (x, w')) :
    (path ∈ w.1.denied ∧ x = .error (MemoryFiles.deniedFailure path) ∧ w' = w) ∨
      (path ∉ w.1.denied ∧ x = .ok () ∧ w' = (w.1.put path content, w.2)) := by
  obtain ⟨rfl, rfl⟩ := Prod.mk.inj h
  rcases hwrite : MemoryFiles.store.write path content w.1 with ⟨y, m⟩
  rcases MemoryFiles.write_cases hwrite with ⟨hdenied, rfl, rfl⟩ | ⟨hdenied, rfl, rfl⟩
  · exact .inl ⟨hdenied, congrArg Prod.fst hwrite, Prod.ext (congrArg Prod.snd hwrite) rfl⟩
  · exact .inr ⟨hdenied, congrArg Prod.fst hwrite, Prod.ext (congrArg Prod.snd hwrite) rfl⟩

/-- What the engine is told of a path changes the cache under its key only. -/
theorem Reaction.load_inMemory (c : Cache) (w : MemoryFiles × υ) (path : Text) :
    let state := (load (Surroundings.inMemory send onDisk).store (c, w) path).2
    state.2.1.files = w.1.files ∧ state.2.1.denied = w.1.denied ∧
      ∀ k, state.1.get? k =
        if k = Cache.key path then (c.get? k).or (w.1.content? k) else c.get? k := by
  have hanswer : (Surroundings.inMemory send onDisk).store.read (Cache.key path) w
      = (.ok (w.1.content? (Cache.key path)),
        { w.1 with reads := Cache.key path :: w.1.reads }, w.2) := rfl
  rw [load, Cache.readThrough]
  cases hcached : c.get? (Cache.key path) with
  | some t =>
    refine ⟨rfl, rfl, fun k => ?_⟩
    by_cases heq : k = Cache.key path
    · rw [if_pos heq, heq, hcached, Option.some_or]
    · rw [if_neg heq]
  | none =>
    dsimp only
    rw [hanswer]
    cases hcontent : w.1.content? (Cache.key path) with
    | none =>
      refine ⟨rfl, rfl, fun k => ?_⟩
      by_cases heq : k = Cache.key path
      · rw [if_pos heq, heq, hcached, hcontent, Option.none_or]
      · rw [if_neg heq]
    | some t =>
      refine ⟨rfl, rfl, fun k => ?_⟩
      by_cases heq : k = Cache.key path
      · rw [if_pos heq, heq, hcached, hcontent]
        exact Cache.get?_insert_self ..
      · rw [if_neg heq]
        exact Cache.get?_insert_ne t heq

end Store

/-- A session keeps its cache right under the paths of their own. -/
theorem Session.keeps_vouches (s : Session) (send : List Message → υ → Except Failure Text × υ)
    (onDisk : (Disk → Except Failure Unit × Disk) → υ → Except Failure Unit × υ) :
    s.Keeps (.inMemory send onDisk) fun c ws w => w.1.Vouches c ws where
  store.read _ h _ hvouches := by
    obtain ⟨-, rfl⟩ := Prod.mk.inj h
    exact hvouches.congr rfl
  store.found _ h hvouches := by
    obtain ⟨hcontent, rfl⟩ := Prod.mk.inj h
    exact (hvouches.found (Except.ok.inj hcontent)).congr rfl
  store.list h hvouches := by
    obtain ⟨-, rfl⟩ := Prod.mk.inj h
    exact hvouches
  store.suggest h hvouches := by
    obtain ⟨-, rfl⟩ := Prod.mk.inj h
    exact hvouches
  store.denied h hvouches := by
    rcases Surroundings.write_inMemory_cases h with ⟨-, -, rfl⟩ | ⟨-, hx, -⟩
    · exact hvouches
    · cases hx
  store.wrote h hvouches := by
    rcases Surroundings.write_inMemory_cases h with ⟨-, hx, -⟩ | ⟨-, -, rfl⟩
    · cases hx
    · exact hvouches.wrote _ _
  send h hvouches := by
    obtain ⟨-, rfl⟩ := Prod.mk.inj h
    exact hvouches
  writeTurn _ h hvouches := by
    obtain ⟨-, rfl⟩ := Prod.mk.inj h
    exact hvouches

section Applying

variable {send : List Message → υ → Except Failure Text × υ}
  {onDisk : (Disk → Except Failure Unit × Disk) → υ → Except Failure Unit × υ}
  {w w' : MemoryFiles × υ}

namespace MemoryFiles

/-- What is shown for a file that a patch produced: how it differs from what the file was. -/
def shown (m : MemoryFiles) (file : PatchedFile) : Text :=
  Text.unifiedDiff file.path ((m.content? file.path).getD []) file.content

/-- What a file is after an attempt to write it. -/
def attempted (m : MemoryFiles) (file : PatchedFile) : Option Text :=
  if file.path ∈ m.denied then m.content? file.path else some file.content

/-- What is reported for a file that could not be written. -/
def denialText (file : PatchedFile) : Text :=
  file.path ++ ": ".toList ++ (deniedFailure file.path).chain

/-- How a file differs from what it was. -/
def changed (m m' : MemoryFiles) (path : Text) : Text :=
  Text.unifiedDiff path ((m.content? path).getD []) ((m'.content? path).getD [])

/-- A file that could be written changed as shown, and the others did not change. -/
theorem changed_eq {m m' : MemoryFiles} {file : PatchedFile}
    (h : m'.content? file.path = m.attempted file) :
    m.changed m' file.path = if file.path ∈ m.denied then [] else m.shown file := by
  rw [changed, h, attempted]
  split
  · exact Text.unifiedDiff_self ..
  · rfl

end MemoryFiles

namespace Reaction

/-- A path that was asked for and is not cached is not there. -/
theorem knows_inMemory (m : MemoryFiles) :
    Patch.Engine.Knows (load (Surroundings.inMemory send onDisk).store)
      (fun state => state.2.1.files = m.files ∧ state.2.1.denied = m.denied)
      (fun state path => state.1.get? (Cache.key path) = none →
        m.content? (Cache.key path) = none) := by
  refine ⟨fun path ⟨c, w⟩ ⟨hfiles, hdenied⟩ => ?_, fun path ⟨c, w⟩ other _ hother hnone => ?_,
    fun path ⟨c, w⟩ ⟨hfiles, _⟩ _ hnone => ?_⟩
  · obtain ⟨hfiles', hdenied', -⟩ := load_inMemory c w path
    exact ⟨hfiles'.trans hfiles, hdenied'.trans hdenied⟩
  · -- what is cached stays cached
    obtain ⟨-, -, hget⟩ := load_inMemory c w path
    rw [hget] at hnone
    refine hother ?_
    split at hnone
    · exact (Option.or_eq_none_iff.1 hnone).1
    · exact hnone
  · obtain ⟨-, -, hget⟩ := load_inMemory c w path
    rw [hget, if_pos rfl] at hnone
    rw [MemoryFiles.content?, ← hfiles]
    exact (Option.or_eq_none_iff.1 hnone).2

/-- After the engine the cache holds what the produced files are, under paths of their own. -/
theorem apply_inMemory {strict : Bool} {patch : Text} {c c' : Cache} {ws : List Text}
    {result : ApplyResult} (s : Session) (hvouches : w.1.Vouches c ws)
    (happly : Patch.apply strict (load (Surroundings.inMemory send onDisk).store) patch (c, w)
      = (.ok result, c', w')) :
    w'.1.files = w.1.files ∧ w'.1.denied = w.1.denied ∧
      ∀ file ∈ result.files, Cache.Own ws file.path → Cache.key file.path = file.path →
        c'.get? file.path = w.1.content? file.path := by
  obtain ⟨⟨hfiles, hdenied⟩, hknown⟩ :=
    Patch.apply_sources (knows_inMemory w.1) ⟨rfl, rfl⟩ happly
  have hkept : w'.1.Vouches c' ws :=
    apply_keeps (I := fun c ws w => w.1.Vouches c ws) (s.keeps_vouches send onDisk).store happly
      hvouches
  refine ⟨hfiles, hdenied, fun file hfile hown hkey => ?_⟩
  cases hcached : c'.get? file.path with
  | none => exact (hkey ▸ hknown file hfile (hkey.symm ▸ hcached)).symm
  | some t =>
    rw [MemoryFiles.content?, ← hfiles]
    exact (hkept file.path t hcached hown).symm

/-- What the write of one file does. -/
theorem deliverOne_inMemory {file : PatchedFile} {d d' : Delivery} {c c' : Conversation}
    (hkey : Cache.key file.path = file.path)
    (hcached : c.cache.get? file.path = w.1.content? file.path)
    (hdeliver : deliverOne (Surroundings.inMemory send onDisk).store file d c w = (d', c', w')) :
    d'.diff = d.diff ++ w.1.shown file ∧
      d'.failures = d.failures ++ (if file.path ∈ w.1.denied then [MemoryFiles.denialText file]
        else []) ∧
      w'.1.denied = w.1.denied ∧ w'.1.content? file.path = w.1.attempted file ∧
      ∀ path, path ≠ file.path → w'.1.content? path = w.1.content? path ∧
        c'.cache.get? path = c.cache.get? path := by
  rw [deliverOne, hkey, hcached] at hdeliver
  dsimp only at hdeliver
  rcases hwrite : (Surroundings.inMemory send onDisk).store.write file.path file.content w
    with ⟨x, w₁⟩
  rcases Surroundings.write_inMemory_cases hwrite with ⟨hdenied, rfl, rfl⟩ | ⟨hdenied, rfl, rfl⟩
  · rw [hwrite] at hdeliver
    cases hdeliver
    rw [if_pos hdenied, MemoryFiles.attempted, if_pos hdenied]
    exact ⟨rfl, rfl, rfl, rfl, fun path _ => ⟨rfl, rfl⟩⟩
  · rw [hwrite] at hdeliver
    cases hdeliver
    rw [if_neg hdenied, MemoryFiles.attempted, if_neg hdenied, List.append_nil]
    refine ⟨rfl, rfl, rfl, MemoryFiles.content?_put_self .., fun path hne => ⟨?_, ?_⟩⟩
    · exact MemoryFiles.content?_put_ne _ hne
    · exact Cache.get?_insert_ne _ (hkey.symm ▸ hne)

/-- What the writes of files do. -/
structure Delivers (files : List PatchedFile) (d d' : Delivery) (m m' : MemoryFiles) : Prop where
  diff : d'.diff = d.diff ++ files.flatMap m.shown
  failures : d'.failures =
    d.failures ++ (files.filter fun file => file.path ∈ m.denied).map MemoryFiles.denialText
  produced : ∀ file ∈ files, m'.content? file.path = m.attempted file
  others : ∀ path, path ∉ files.map PatchedFile.path → m'.content? path = m.content? path

/-- Reading does not count. -/
theorem Delivers.congr {files : List PatchedFile} {d d' : Delivery} {m m₁ m' : MemoryFiles}
    (h : Delivers files d d' m₁ m') (hfiles : m₁.files = m.files) (hdenied : m₁.denied = m.denied) :
    Delivers files d d' m m' := by
  obtain ⟨fs, denied, reads⟩ := m
  obtain ⟨fs₁, denied₁, reads₁⟩ := m₁
  cases hfiles
  cases hdenied
  exact ⟨h.diff, h.failures, h.produced, h.others⟩

/-- A file that could not be written is shown as if it were, and has not changed. -/
theorem Delivers.diff_eq_iff {files : List PatchedFile} {d d' : Delivery} {m m' : MemoryFiles}
    (h : Delivers files d d' m m') :
    files.flatMap m.shown = files.flatMap (fun file => m.changed m' file.path) ↔
      ∀ file ∈ files, file.path ∈ m.denied → m.shown file = [] := by
  rw [flatMap_eq_iff fun file hfile => ?_]
  · refine forall₂_congr fun file hfile => ?_
    rw [MemoryFiles.changed_eq (h.produced file hfile)]
    by_cases hdenied : file.path ∈ m.denied <;> simp [hdenied]
  · rw [MemoryFiles.changed_eq (h.produced file hfile)]
    by_cases hdenied : file.path ∈ m.denied
    · exact .inr (if_pos hdenied)
    · exact .inl (if_neg hdenied)

theorem deliver_inMemory {files : List PatchedFile} {d d' : Delivery} {c c' : Conversation}
    (hdistinct : ApplyResult.Distinct files)
    (hkey : ∀ file ∈ files, Cache.key file.path = file.path)
    (hcached : ∀ file ∈ files, c.cache.get? file.path = w.1.content? file.path)
    (hdeliver : deliver (Surroundings.inMemory send onDisk).store files d c w = (d', c', w')) :
    Delivers files d d' w.1 w'.1 := by
  induction files generalizing d c w with
  | nil =>
    cases hdeliver
    exact ⟨(List.append_nil _).symm, (List.append_nil _).symm, nofun, fun _ _ => rfl⟩
  | cons file rest ih =>
    rw [deliver] at hdeliver
    rcases hone : deliverOne (Surroundings.inMemory send onDisk).store file d c w
      with ⟨d₁, c₁, w₁⟩
    rw [hone] at hdeliver
    obtain ⟨hdiff, hfailures, hdenied, hself, hothers⟩ := deliverOne_inMemory
      (hkey file (List.mem_cons_self ..)) (hcached file (List.mem_cons_self ..)) hone
    have hfresh : ApplyResult.Fresh rest file.path := hdistinct.fresh_head
    -- the other files are what they were, in the cache and in the store
    have hsame : ∀ g ∈ rest, w₁.1.content? g.path = w.1.content? g.path := fun g hg =>
      (hothers g.path (hfresh g hg)).1
    have hcached₁ : ∀ g ∈ rest, c₁.cache.get? g.path = w₁.1.content? g.path := fun g hg => by
      rw [hsame g hg, (hothers g.path (hfresh g hg)).2]
      exact hcached g (List.mem_cons_of_mem _ hg)
    have hrest := ih hdistinct.tail (fun g hg => hkey g (List.mem_cons_of_mem _ hg)) hcached₁
      hdeliver
    refine ⟨?_, ?_, ?_, fun path hpath => ?_⟩
    · rw [hrest.diff, hdiff, List.append_assoc, List.flatMap_cons]
      congr 2
      exact List.flatMap_congr fun g hg => by rw [MemoryFiles.shown, MemoryFiles.shown, hsame g hg]
    · rw [hrest.failures, hfailures, hdenied, List.append_assoc, List.filter_cons]
      by_cases hfile : file.path ∈ w.1.denied <;> simp [hfile]
    · intro g hg
      rcases List.mem_cons.1 hg with rfl | hg
      · rw [hrest.others _ fun hmem => ?_, hself]
        obtain ⟨f, hf, heq⟩ := List.mem_map.1 hmem
        exact hfresh f hf heq
      · rw [hrest.produced g hg, MemoryFiles.attempted, MemoryFiles.attempted, hdenied, hsame g hg]
    · rw [List.map_cons, List.mem_cons, not_or] at hpath
      rw [hrest.others path hpath.2, (hothers path hpath.1).1]

/-- What a reaction shows of a patch, with the files before and after it. -/
structure Shows (r : Reaction) (patch : Text) (result : ApplyResult) (goals : Option Text)
    (m m' : MemoryFiles) : Prop where
  outbound : r.outbound = Prompt.patchResult
    { rendered := result.rendered
      diff := result.files.flatMap m.shown
      added := (lineCounts patch).1
      removed := (lineCounts patch).2
      warnings := result.warnings.map PatchWarning.message
      writeFailures :=
        (result.files.filter fun file => file.path ∈ m.denied).map MemoryFiles.denialText } goals
  produced : ∀ file ∈ result.files, m'.content? file.path = m.attempted file
  others : ∀ path, path ∉ result.files.map PatchedFile.path → m'.content? path = m.content? path
  /-- The diff is that of the files if nothing is shown for those that could not be written. -/
  diff_eq_iff : result.files.flatMap m.shown
    = result.files.flatMap (fun file => m.changed m' file.path) ↔
      ∀ file ∈ result.files, file.path ∈ m.denied → m.shown file = []

end Reaction

namespace Session

/-- What a session shows of a patch that it accepts. -/
theorem applyPatch_shows {s : Session} {prompt : Text} {p : Round (MemoryFiles × υ)}
    {es : List Exchange} (hes : s.Exchanges (.inMemory send onDisk) (s.start prompt w) es p)
    {patch : Text} {c : Conversation} {w₁ : MemoryFiles × υ}
    (hreply : s.Receives (.inMemory send onDisk) p (.applyPatch patch) c w₁)
    {result : ApplyResult} {state : Cache × MemoryFiles × υ}
    (happly : Patch.apply s.config.strictContext
      (Reaction.load (Surroundings.inMemory send onDisk).store) patch (c.cache, w₁)
      = (.ok result, state))
    (hown : ∀ file ∈ result.files,
      Cache.Own (c.written ++ result.files.map PatchedFile.path) file.path)
    {r : Reaction} {c' : Conversation}
    (hpatch : Reaction.applyPatch (Surroundings.inMemory send onDisk).store s.config patch c w₁
      = (r, c', w')) :
    r.Shows patch result c.goals w₁.1 w'.1 := by
  obtain ⟨cache, w₂⟩ := state
  -- the cache is right when the patch arrives, and still after the engine has read
  have hkeeps := s.keeps_vouches send onDisk
  have hvouches : w₁.1.Vouches c.cache c.written :=
    hreply.keeps hkeeps (hes.keeps hkeeps fun path content hcached => by cases hcached)
  have hkey : ∀ file ∈ result.files, Cache.key file.path = file.path := fun file hfile =>
    (hown file hfile file.path
      (List.mem_append_right _ (List.mem_map_of_mem hfile))).1 rfl
  obtain ⟨hfiles, hdenied, hcached⟩ := Reaction.apply_inMemory s hvouches happly
  rw [Reaction.applyPatch, happly] at hpatch
  dsimp only at hpatch
  rcases hdeliver : Reaction.deliver (Surroundings.inMemory send onDisk).store result.files {}
    { c with cache } w₂ with ⟨d, c₁, w₃⟩
  rw [hdeliver, Prod.mk.injEq, Prod.mk.injEq] at hpatch
  obtain ⟨rfl, -, rfl⟩ := hpatch
  have hcached₂ : ∀ file ∈ result.files, cache.get? file.path = w₂.1.content? file.path := by
    intro file hfile
    have hown' : Cache.Own c.written file.path :=
      (hown file hfile).mono fun other hother => List.mem_append_left _ hother
    rw [hcached file hfile hown' (hkey file hfile), MemoryFiles.content?, MemoryFiles.content?,
      hfiles]
  have hdelivers : Reaction.Delivers result.files {} d w₁.1 w₃.1 :=
    (Reaction.deliver_inMemory (Patch.apply_distinct happly) hkey hcached₂ hdeliver).congr hfiles
      hdenied
  refine ⟨?_, hdelivers.produced, hdelivers.others, hdelivers.diff_eq_iff⟩
  -- the writes change neither the goals nor what the engine reported
  obtain ⟨cache', written, rfl⟩ := deliver_conversation hdeliver
  have hdiff : d.diff = result.files.flatMap w₁.1.shown := hdelivers.diff
  have hfailures : d.failures = (result.files.filter fun file => file.path ∈ w₁.1.denied).map
      MemoryFiles.denialText := hdelivers.failures
  rw [hdiff, hfailures]

end Session

end Applying

namespace Session

/-- Files in memory, and a generator that always gives the same reply. -/
def inMemoryRepeating (reply : Text) : Surroundings (MemoryFiles × Unit) :=
  .inMemory (fun _ u => (.ok reply, u)) fun _ u => (.ok (), u)

/-- The patch in the reply `twoFiles`. -/
def twoFilesPatch : Text := twoFiles.drop (Tag.patch.marker.length + 1)

/-- Two files are shown as patched, and one is. -/
theorem applyPatch_shows_sample :
    let env := inMemoryRepeating twoFiles
    let s : Session := ⟨{ maxTurns := 1 }, []⟩
    let m : MemoryFiles := ⟨[(['f'], ['x', '\n']), (['g'], ['x', '\n'])], [['g']], []⟩
    let c := (s.opening []).receive twoFiles
    let result : ApplyResult := ⟨[⟨['f'], ['y', '\n']⟩, ⟨['g'], ['y', '\n']⟩], []⟩
    let reaction := Reaction.applyPatch env.store s.config twoFilesPatch c (m, ())
    (Patch.apply s.config.strictContext (Reaction.load env.store) twoFilesPatch
        (c.cache, m, ())).1 = .ok result ∧
      reaction.1.Shows twoFilesPatch result c.goals m reaction.2.2.1 ∧
      m.shown ⟨['g'], ['y', '\n']⟩ ≠ [] := by
  intro env s m c result reaction
  have happly : (Patch.apply s.config.strictContext (Reaction.load env.store) twoFilesPatch
      (c.cache, m, ())).1 = .ok result := by
    decide +kernel
  have hreply : s.Receives env (s.start [] (m, ())) (.applyPatch twoFilesPatch) c (m, ()) :=
    .intro rfl (by decide +kernel)
  exact ⟨happly, applyPatch_shows (.nil _) hreply (Prod.ext happly rfl) (by decide +kernel) rfl,
    by decide +kernel⟩

/-- A file that cannot be written keeps its content, and a change of it is shown. -/
theorem applyPatch_shows_denied :
    let env := inMemoryRepeating ("%_Modified_%\n".toList ++ samplePatch)
    let s : Session := ⟨{ maxTurns := 1 }, []⟩
    let m : MemoryFiles := ⟨[(['f'], ['x', '\n'])], [['f']], []⟩
    let c := (s.opening []).receive ("%_Modified_%\n".toList ++ samplePatch)
    let result : ApplyResult := ⟨[⟨['f'], ['y', '\n']⟩], []⟩
    let reaction := Reaction.applyPatch env.store s.config samplePatch c (m, ())
    let report : Prompt.PatchReport :=
      { rendered := result.rendered
        diff := "--- a/f\n+++ b/f\n@@ -1 +1 @@\n-x\n+y\n".toList
        added := 1
        removed := 1
        warnings := []
        writeFailures := ["f: permission denied: f".toList] }
    let actual := result.files.flatMap fun file => m.changed reaction.2.2.1 file.path
    s.Receives env (s.start [] (m, ())) (.applyPatch samplePatch) c (m, ()) ∧
      (Patch.apply s.config.strictContext (Reaction.load env.store) samplePatch
        (c.cache, m, ())).1 = .ok result ∧
      reaction.2.2.1.content? ['f'] = m.content? ['f'] ∧ actual = [] ∧
      reaction.1.outbound = Prompt.patchResult report c.goals ∧
      reaction.1.outbound ≠ Prompt.patchResult { report with diff := actual } c.goals := by
  intro env s m c result reaction report actual
  refine ⟨.intro rfl (by decide +kernel), ?_⟩
  decide +kernel

end Session

end Mend

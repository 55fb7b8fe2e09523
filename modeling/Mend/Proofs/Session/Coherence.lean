import Mathlib.Control.Monad.Basic
import Mend.Proofs.Session.Moments
import Mend.Store.Memory

/-!
# Coherence of the cache

A session whose store is changed by nothing but its writes never sees an old content
(`Session.cache_coherent`): at each moment the cache holds what a read of the store would give, so
what is shown for a file and what a patch is applied to are what the store holds then.

Of the store it is assumed that it keeps files by key (`Store.Keyed`): a write gives the key of its
path the content and leaves the other keys alone. Reads do not change what the store holds, so a
whole answer to requests and a whole run of the engine see one state of it (`Store.Reading`).
-/

namespace Mend

variable {ω : Type} {store : Store ω}

namespace Store

/-- What a store holds under a key: the answer to a read. -/
def holds (store : Store ω) (key : Text) (w : ω) : Except Failure (Option Text) :=
  (store.read key w).1

/-- The store holds the same under every key of a path. -/
def SameFiles (store : Store ω) (w w' : ω) : Prop :=
  ∀ path, store.holds (Cache.key path) w' = store.holds (Cache.key path) w

/-- A store that keeps files by key and is changed by writes only. -/
structure Keyed (store : Store ω) : Prop where
  read : ∀ path w, store.SameFiles w (store.read path w).2
  list : ∀ path depth w, store.SameFiles w (store.list path depth w).2
  suggest : ∀ path w, store.SameFiles w (store.suggest path w).2
  /-- A write that fails changes nothing. -/
  write_error : ∀ {path content w f w'}, store.write path content w = (.error f, w') →
    store.SameFiles w w'
  write_self : ∀ {path content w w'}, store.write path content w = (.ok (), w') →
    store.holds (Cache.key path) w' = .ok (some content)
  write_other : ∀ {path content w w' other}, store.write path content w = (.ok (), w') →
    Cache.key other ≠ Cache.key path →
    store.holds (Cache.key other) w' = store.holds (Cache.key other) w

theorem SameFiles.refl (w : ω) : store.SameFiles w w := fun _ => rfl

theorem SameFiles.trans {w w₁ w₂ : ω} (h : store.SameFiles w w₁) (h' : store.SameFiles w₁ w₂) :
    store.SameFiles w w₂ := fun path => (h' path).trans (h path)

/-! ## Coherent caches -/

/-- A cache that holds what the store holds. -/
def Coherent (store : Store ω) (c : Cache) (w : ω) : Prop :=
  ∀ k t, c.get? k = some t → (∃ path, Cache.key path = k) ∧ store.holds k w = .ok (some t)

/-- Nothing is cached at first. -/
theorem coherent_empty (w : ω) : store.Coherent {} w := by
  intro k t hk
  cases hk

namespace Coherent

variable {c : Cache} {w w' : ω} {path content : Text}

theorem of_sameFiles (h : store.Coherent c w) (hsame : store.SameFiles w w') :
    store.Coherent c w' := by
  intro k t hk
  obtain ⟨⟨path, rfl⟩, hheld⟩ := h k t hk
  exact ⟨⟨path, rfl⟩, (hsame path).trans hheld⟩

/-- A content may be cached while the store holds it, and the rest of the cache is right. -/
theorem insert (hself : store.holds (Cache.key path) w' = .ok (some content))
    (hother : ∀ k t, k ≠ Cache.key path → c.get? k = some t →
      (∃ path, Cache.key path = k) ∧ store.holds k w' = .ok (some t)) :
    store.Coherent (c.insert (Cache.key path) content) w' := by
  intro k t hk
  by_cases heq : k = Cache.key path
  · subst heq
    rw [Cache.get?_insert_self] at hk
    obtain rfl := Option.some.inj hk
    exact ⟨⟨path, rfl⟩, hself⟩
  · rw [Cache.get?_insert_ne content heq] at hk
    exact hother k t heq hk

/-- A write that succeeds is cached. -/
theorem of_write (h : store.Coherent c w) (hkeyed : store.Keyed)
    (hwrite : store.write path content w = (.ok (), w')) :
    store.Coherent (c.insert (Cache.key path) content) w' := by
  refine insert (hkeyed.write_self hwrite) fun k t hne hk => ?_
  obtain ⟨⟨other, rfl⟩, hheld⟩ := h k t hk
  exact ⟨⟨other, rfl⟩, (hkeyed.write_other hwrite hne).trans hheld⟩

end Coherent

/-! ## Reading -/

/-- A coherent cache in a world that holds the files of an earlier one. -/
structure Reading (store : Store ω) (w₀ : ω) (state : Cache × ω) : Prop where
  coherent : store.Coherent state.1 state.2
  same : store.SameFiles w₀ state.2

/-- Reading goes on in a world with the same files. -/
theorem Reading.of_sameFiles {w₀ : ω} {c : Cache} {w w' : ω} (h : store.Reading w₀ (c, w))
    (hsame : store.SameFiles w w') : store.Reading w₀ (c, w') :=
  ⟨h.coherent.of_sameFiles hsame, h.same.trans hsame⟩

end Store

open Store

section Reading

variable (hkeyed : store.Keyed) {w₀ : ω} {c : Cache} {w : ω}

include hkeyed

/-- A cached read is a read. -/
theorem Cache.readThrough_reading (h : store.Reading w₀ (c, w)) {path : Text}
    {x : Except Failure (Option Text)} {c' : Cache} {w' : ω}
    (hread : c.readThrough store path w = (x, c', w')) :
    x = store.holds (Cache.key path) w₀ ∧ store.Reading w₀ (c', w') := by
  have hsame : store.SameFiles w (store.read (key path) w).2 := hkeyed.read _ w
  have hheld : store.holds (key path) w = store.holds (key path) w₀ := h.same path
  rw [readThrough] at hread
  cases hcached : c.get? (key path) with
  | some content =>
    -- the store is not asked, and would have said the same
    rw [hcached] at hread
    cases hread
    rw [← hheld]
    exact ⟨(h.coherent _ _ hcached).2.symm, h⟩
  | none =>
    rw [hcached] at hread
    rw [holds] at hheld
    rcases hanswer : store.read (key path) w with ⟨f | found, w₁⟩
    · rw [hanswer] at hread hsame hheld
      cases hread
      exact ⟨hheld, h.of_sameFiles hsame⟩
    · rw [hanswer] at hread hsame hheld
      have hkept : store.Reading w₀ (c, w₁) := h.of_sameFiles hsame
      cases found with
      | none =>
        cases hread
        exact ⟨hheld, hkept⟩
      | some content =>
        -- what is kept is what was read just now
        cases hread
        refine ⟨hheld, .insert ?_ fun k t _ hk => hkept.coherent k t hk, hkept.same⟩
        exact (hkept.same path).trans hheld.symm

namespace Reaction

/-- What is shown for a file that the store holds is its content. -/
theorem fileBody_reading (h : store.Reading w₀ (c, w)) {path body : Text} {c' : Cache} {w' : ω}
    (hbody : fileBody store path c w = (body, c', w')) :
    (∀ t, store.holds (Cache.key path) w₀ = .ok (some t) → body = t) ∧
      store.Reading w₀ (c', w') := by
  rcases hread : c.readThrough store path w with ⟨x, c₁, w₁⟩
  obtain ⟨rfl, hkept⟩ := Cache.readThrough_reading hkeyed h hread
  rw [fileBody, hread] at hbody
  cases hheld : store.holds (Cache.key path) w₀ with
  | error f =>
    rw [hheld] at hbody
    cases hbody
    exact ⟨fun t ht => (by cases ht), hkept⟩
  | ok found =>
    rw [hheld] at hbody
    cases found with
    | some content =>
      cases hbody
      exact ⟨fun t ht => Option.some.inj (Except.ok.inj ht), hkept⟩
    | none =>
      -- a file that is not there is the only one for which others are suggested
      have hsame : store.SameFiles w₁ (store.suggest path w₁).2 := hkeyed.suggest path w₁
      cases hbody
      exact ⟨fun t ht => (by cases ht), hkept.of_sameFiles hsame⟩

/-- A listing leaves the files alone. -/
theorem listingBody_sameFiles {depth : Nat} {path body : Text} {w' : ω}
    (hbody : listingBody store depth path w = (body, w')) : store.SameFiles w w' := by
  have hsame : store.SameFiles w (store.list path depth w).2 := hkeyed.list path depth w
  rw [listingBody] at hbody
  rcases hlist : store.list path depth w with ⟨_ | _ | _, w₁⟩
  all_goals
    rw [hlist] at hbody hsame
    cases hbody
    exact hsame

/-- What is shown for files is what the store holds. -/
theorem serveEach_reading {depth : Nat} {requests : List Request} {served served' : Served}
    {c' : Cache} {w' : ω} (h : store.Reading w₀ (c, w))
    (hserved : ∀ e ∈ served.files, ∀ t,
      store.holds (Cache.key e.path) w₀ = .ok (some t) → e.body = t)
    (hserve : serveEach store depth requests served c w = (served', c', w')) :
    (∀ e ∈ served'.files, ∀ t, store.holds (Cache.key e.path) w₀ = .ok (some t) → e.body = t) ∧
      store.Reading w₀ (c', w') := by
  induction requests generalizing served c w with
  | nil =>
    cases hserve
    exact ⟨hserved, h⟩
  | cons request rest ih =>
    obtain ⟨kind, path⟩ := request
    cases kind with
    | file =>
      rw [serveEach] at hserve
      rcases hbody : fileBody store path c w with ⟨body, c₁, w₁⟩
      obtain ⟨hshown, hkept⟩ := fileBody_reading hkeyed h hbody
      rw [hbody] at hserve
      refine ih hkept (fun e he => ?_) hserve
      rcases List.mem_append.1 he with he | he
      · exact hserved e he
      · obtain rfl := List.mem_singleton.1 he
        exact hshown
    | listing =>
      rw [serveEach] at hserve
      rcases hbody : listingBody store depth path w with ⟨body, w₁⟩
      have hsame : store.SameFiles w w₁ := listingBody_sameFiles hkeyed hbody
      rw [hbody] at hserve
      refine ih (h.of_sameFiles hsame) ?_ hserve
      exact hserved

/-- A patch is applied to what the store holds. -/
theorem load_reading (h : store.Reading w₀ (c, w)) {path : Text} {known : Loaded} {c' : Cache}
    {w' : ω} (hload : load store (c, w) path = (known, c', w')) :
    (∀ t, known = .content t ↔ store.holds (Cache.key path) w₀ = .ok (some t)) ∧
      store.Reading w₀ (c', w') := by
  rcases hread : c.readThrough store path w with ⟨x, c₁, w₁⟩
  obtain ⟨rfl, hkept⟩ := Cache.readThrough_reading hkeyed h hread
  rw [load] at hload
  dsimp only at hload
  rw [hread] at hload
  rcases hheld : store.holds (Cache.key path) w₀ with _ | _ | _
  all_goals
    rw [hheld] at hload
    cases hload
    exact ⟨by simp, hkept⟩

theorem reading_load (path : Text) (state : Cache × ω) (h : store.Reading w₀ state) :
    store.Reading w₀ (load store state path).2 :=
  (load_reading hkeyed h rfl).2

/-- The engine only reads. -/
theorem run_reading {rule : CursorRule} {strict : Bool} {tokens : List Token} {e : Patch.Engine}
    {x : Except PatchError Patch.Engine} {state state' : Cache × ω} (h : store.Reading w₀ state)
    (hrun : Patch.Engine.run rule strict (load store) tokens e state = (x, state')) :
    store.Reading w₀ state' := by
  have hkept : store.Reading w₀ (Patch.Engine.run rule strict (load store) tokens e state).2 :=
    Patch.Engine.run_invariant (reading_load hkeyed) tokens e h
  rw [hrun] at hkept
  exact hkept

theorem apply_reading {strict : Bool} {patch : Text} {x : Except PatchError ApplyResult}
    {state state' : Cache × ω} (h : store.Reading w₀ state)
    (happly : Patch.apply strict (load store) patch state = (x, state')) :
    store.Reading w₀ state' := by
  have hkept : store.Reading w₀ (Patch.apply strict (load store) patch state).2 :=
    Patch.apply_invariant (reading_load hkeyed) h
  rw [happly] at hkept
  exact hkept

/-! ## Writing -/

/-- A file that is written is cached, one that cannot be written is not. -/
theorem deliverOne_coherent {file : PatchedFile} {delivery delivery' : Delivery}
    {c c' : Conversation} {w' : ω} (h : store.Coherent c.cache w)
    (hdeliver : deliverOne store file delivery c w = (delivery', c', w')) :
    store.Coherent c'.cache w' := by
  rw [deliverOne] at hdeliver
  rcases hwrite : store.write file.path file.content w with ⟨f | ⟨⟨⟩⟩, w₁⟩
  · rw [hwrite] at hdeliver
    cases hdeliver
    exact h.of_sameFiles (hkeyed.write_error hwrite)
  · rw [hwrite] at hdeliver
    cases hdeliver
    exact h.of_write hkeyed hwrite

theorem deliver_coherent {files : List PatchedFile} {delivery delivery' : Delivery}
    {c c' : Conversation} {w' : ω} (h : store.Coherent c.cache w)
    (hdeliver : deliver store files delivery c w = (delivery', c', w')) :
    store.Coherent c'.cache w' := by
  induction files generalizing delivery c w with
  | nil =>
    cases hdeliver
    exact h
  | cons file rest ih =>
    rw [deliver] at hdeliver
    rcases hone : deliverOne store file delivery c w with ⟨delivery₁, c₁, w₁⟩
    rw [hone] at hdeliver
    exact ih (deliverOne_coherent hkeyed h hone) hdeliver

end Reaction

end Reading

/-! ## Sessions -/

namespace Session

/-- Surroundings in which the files change by the writes of the session only. -/
structure Owns (s : Session) (env : Surroundings ω) : Prop where
  keyed : env.store.Keyed
  send : ∀ messages w, env.store.SameFiles w (env.send messages w).2
  writeTurn : ∀ {log}, s.log? = some log → ∀ r w,
    env.store.SameFiles w (env.onDisk (log.writeTurn r) w).2
  writeTranscript : ∀ {log}, s.log? = some log → ∀ messages w,
    env.store.SameFiles w (env.onDisk (log.writeTranscript messages) w).2

variable {s : Session} {env : Surroundings ω}

theorem Receives.coherent (howns : s.Owns env) {p : Round ω} {action : Action} {c : Conversation}
    {w : ω} (hreply : s.Receives env p action c w)
    (h : env.store.Coherent p.conversation.cache p.world) : env.store.Coherent c.cache w := by
  cases hreply with
  | @intro left c w w₁ reply action hsend haction =>
    have hsame := howns.send c.messages w
    rw [hsend] at hsame
    exact h.of_sameFiles hsame

/-- A reaction keeps the cache coherent at each moment. -/
theorem During.coherent (howns : s.Owns env) {action : Action} {c : Conversation} {w w' : ω}
    {cache : Cache} (hduring : s.During env action c w cache w')
    (h : env.store.Coherent c.cache w) : env.store.Coherent cache w' := by
  have hreading : env.store.Reading w (c.cache, w) := ⟨h, .refl w⟩
  cases hduring with
  | begin => exact h
  | serve hserve =>
    exact (Reaction.serveEach_reading howns.keyed hreading (by simp) hserve).2.coherent
  | patch htokens hrun => exact (Reaction.run_reading howns.keyed hreading hrun).coherent
  | deliver happly hfiles hdeliver =>
    -- the engine has only read before the first file is written
    have hread : env.store.Coherent _ _ :=
      (Reaction.apply_reading howns.keyed hreading happly).coherent
    exact Reaction.deliver_coherent howns.keyed hread hdeliver

theorem logged_sameFiles (howns : s.Owns env) {r : TurnRecord} {w w' : ω} {x : Except Failure Unit}
    (hlogged : s.logged env (fun log => log.writeTurn r) w = (x, w')) :
    env.store.SameFiles w w' := by
  rcases logged_cases hlogged with rfl | ⟨log, hlog, hdisk⟩
  · exact .refl w'
  · have hsame := howns.writeTurn hlog r w
    rw [hdisk] at hsame
    exact hsame

theorem Step.coherent (howns : s.Owns env) {p q : Round ω} {e : Exchange} (hstep : s.Step env p e q)
    (h : env.store.Coherent p.conversation.cache p.world) :
    env.store.Coherent q.conversation.cache q.world := by
  cases hstep with
  | intro hsend hreact hlog =>
    have hreply := Receives.coherent howns (.intro (s := s) hsend rfl) h
    have hreacted := During.coherent howns (during_react hreact) hreply
    exact hreacted.of_sameFiles (logged_sameFiles howns hlog)

theorem Exchanges.coherent (howns : s.Owns env) {p q : Round ω} {es : List Exchange}
    (hes : s.Exchanges env p es q) (h : env.store.Coherent p.conversation.cache p.world) :
    env.store.Coherent q.conversation.cache q.world := by
  induction hes with
  | nil p => exact h
  | cons step rest ih => exact ih (step.coherent howns h)

theorem Reaches.coherent (howns : s.Owns env) {p₀ : Round ω} {cache : Cache} {w : ω}
    (hreach : s.Reaches env p₀ cache w)
    (h : env.store.Coherent p₀.conversation.cache p₀.world) : env.store.Coherent cache w := by
  induction hreach with
  | sending hes => exact hes.coherent howns h
  | reacting hes hreply hduring =>
    exact hduring.coherent howns (hreply.coherent howns (hes.coherent howns h))
  | loggedTurn _ hlog r ih => exact ih.of_sameFiles (howns.writeTurn hlog r _)
  | loggedTranscript _ hlog messages ih =>
    exact ih.of_sameFiles (howns.writeTranscript hlog messages _)

/-- At each moment of a session the cache holds what the store holds; so what is shown for a file
and what the engine is given are the content that the store holds then. -/
theorem cache_coherent {s : Session} {env : Surroundings ω} (howns : s.Owns env) (prompt : Text)
    (w₀ : ω) :
    (∀ cache w, s.Reaches env (s.start prompt w₀) cache w →
      ∀ k t, cache.get? k = some t → (env.store.read k w).1 = .ok (some t)) ∧
    (∀ e w, s.Shows env (s.start prompt w₀) e w →
      ∀ t, (env.store.read (Cache.key e.path) w).1 = .ok (some t) → e.body = t) ∧
    (∀ path known w, s.Supplies env (s.start prompt w₀) path known w →
      ∀ t, known = .content t ↔ (env.store.read (Cache.key path) w).1 = .ok (some t)) := by
  have hstart : env.store.Coherent (s.start prompt w₀).conversation.cache w₀ := coherent_empty w₀
  refine ⟨fun cache w hreach k t hk => ((hreach.coherent howns hstart) k t hk).2, ?_, ?_⟩
  · intro e w hshows
    cases hshows with
    | intro hes hreply hserve he hmoment =>
      have hreading : env.store.Reading _ (_, _) :=
        ⟨hreply.coherent howns (hes.coherent howns hstart), .refl _⟩
      -- the answer is made in one state of the files, so any of its moments will do
      have hshown := (Reaction.serveEach_reading howns.keyed hreading (by simp) hserve).1 e he
      have hkept := (Reaction.serveEach_reading howns.keyed hreading (by simp) hmoment).2.same
      intro t ht
      exact hshown t ((hkept e.path).symm.trans ht)
  · intro path known w hsupplies
    cases hsupplies with
    | intro hes hreply htokens hrun hnew =>
      have hreading : env.store.Reading _ (_, _) :=
        ⟨hreply.coherent howns (hes.coherent howns hstart), .refl _⟩
      have hkept := Reaction.run_reading howns.keyed hreading hrun
      exact (Reaction.load_reading howns.keyed ⟨hkept.coherent, .refl _⟩ rfl).1

/-! ## Files in memory -/

/-- A store in memory that writes a file under the key of its path. -/
def keyedMemory : Store MemoryFiles where
  read := MemoryFiles.store.read
  write path content := MemoryFiles.store.write (Cache.key path) content
  list := MemoryFiles.store.list
  suggest := MemoryFiles.store.suggest

theorem holds_keyedMemory (key : Text) (m : MemoryFiles) :
    keyedMemory.holds key m = .ok (m.content? key) := rfl

theorem keyed_keyedMemory : keyedMemory.Keyed where
  read path m other := rfl
  list path depth m other := rfl
  suggest path m other := rfl
  write_error {path content m f m'} hwrite := by
    rcases MemoryFiles.write_cases hwrite with ⟨-, -, rfl⟩ | ⟨-, hok, -⟩
    · exact .refl m'
    · cases hok
  write_self {path content m m'} hwrite := by
    rcases MemoryFiles.write_cases hwrite with ⟨-, herror, -⟩ | ⟨-, -, rfl⟩
    · cases herror
    · rw [holds_keyedMemory, MemoryFiles.content?_put_self]
  write_other {path content m m' other} hwrite hne := by
    rcases MemoryFiles.write_cases hwrite with ⟨-, herror, -⟩ | ⟨-, -, rfl⟩
    · cases herror
    · rw [holds_keyedMemory, holds_keyedMemory, MemoryFiles.content?_put_ne content hne]

/-- A generator with one reply, and files in memory. -/
def repeating (reply : Text) : Surroundings MemoryFiles where
  send _ m := (.ok reply, m)
  store := keyedMemory
  onDisk _ m := (.ok (), m)

theorem owns_repeating (s : Session) (reply : Text) : s.Owns (repeating reply) where
  keyed := keyed_keyedMemory
  send _ m := .refl m
  writeTurn _ _ m := .refl m
  writeTranscript _ _ m := .refl m

/-- A patch for one file. -/
def samplePatch : Text := "--- a/f\n+++ b/f\n@@ -1 +1 @@\n-x\n+y".toList

/-- After a patch is applied, its file is cached as it was written. -/
theorem cache_coherent_sample :
    let s : Session := ⟨{ maxTurns := 1 }, []⟩
    let env := repeating ("%_Modified_%\n".toList ++ samplePatch)
    let m : MemoryFiles := ⟨[(['f'], ['x', '\n'])], [], []⟩
    s.Owns env ∧ ∃ cache m', s.Reaches env (s.start [] m) cache m' ∧
      cache.get? ['f'] = some ['y', '\n'] ∧ (env.store.read ['f'] m').1 = .ok (some ['y', '\n']) := by
  intro s env m
  have howns : s.Owns env := owns_repeating s _
  let c := (s.opening []).receive ("%_Modified_%\n".toList ++ samplePatch)
  have hreply : s.Receives env (s.start [] m) (.applyPatch samplePatch) c m :=
    .intro rfl (by decide +kernel)
  have happly : Patch.apply s.config.strictContext (Reaction.load env.store) samplePatch
      (c.cache, m) = (.ok ⟨[⟨['f'], ['y', '\n']⟩], []⟩, ⟨[(['f'], ['x', '\n'])]⟩,
        { m with reads := [['f']] }) := by
    decide +kernel
  let d := Reaction.deliver env.store [⟨['f'], ['y', '\n']⟩] {}
    { c with cache := ⟨[(['f'], ['x', '\n'])]⟩ } { m with reads := [['f']] }
  have hreach : s.Reaches env (s.start [] m) d.2.1.cache d.2.2 :=
    .reacting (.nil _) hreply (.deliver happly (List.append_nil _).symm rfl)
  have hget : d.2.1.cache.get? ['f'] = some ['y', '\n'] := by decide +kernel
  exact ⟨howns, _, _, hreach, hget, (cache_coherent howns [] m).1 _ _ hreach ['f'] _ hget⟩

end Session

end Mend

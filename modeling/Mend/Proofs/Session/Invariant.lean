import Mend.Proofs.Session.Moments

/-!
# Invariants of sessions

What holds of the cache, of the paths written so far and of the world is kept by a whole session
when it is kept by each operation that a session makes on them (`Session.Keeps`): a read, also when
its content is cached, a listing, a suggestion, a write, and what the generator and the log do to
the world. From these, an answer to requests, a run of the engine and the writes of a patch keep it,
and so do an exchange (`Session.Step.keeps`) and all exchanges of a session
(`Session.Exchanges.keeps`). What is kept of the world alone is kept by the whole session, however
it ends (`Session.Keeps.run`).
-/

namespace Mend

variable {ω : Type}

/-- A path is written after a write to it, and before when it was. -/
theorem Conversation.mem_written_wrote {c : Conversation} {path content other : Text} :
    other ∈ (c.wrote path content).written ↔ other = path ∨ other ∈ c.written := by
  by_cases h : path ∈ c.written
  · have hsame : (c.wrote path content).written = c.written := by
      simp [wrote, recordWritten, h]
    rw [hsame]
    exact ⟨.inr, fun hmem => hmem.elim (fun heq => heq ▸ h) id⟩
  · have hmore : (c.wrote path content).written = c.written ++ [path] := by
      simp [wrote, recordWritten, h]
    rw [hmore, List.mem_append, List.mem_singleton]
    exact or_comm

/-- A property of the cache, of the paths written so far and of the world. -/
abbrev Invariant (ω : Type) : Type := Cache → List Text → ω → Prop

/-- A property that the operations of a store keep, with what a session caches and records of
them. -/
structure Store.Keeps (store : Store ω) (I : Invariant ω) : Prop where
  /-- A key that is not cached is read, and there is no content to cache. -/
  read : ∀ {path c ws w x w'}, c.get? (Cache.key path) = none →
    store.read (Cache.key path) w = (x, w') → (∀ content, x ≠ .ok (some content)) →
    I c ws w → I c ws w'
  /-- A content that was not cached is cached. -/
  found : ∀ {path content c ws w w'}, c.get? (Cache.key path) = none →
    store.read (Cache.key path) w = (.ok (some content), w') → I c ws w →
    I (c.insert (Cache.key path) content) ws w'
  list : ∀ {path depth c ws w x w'}, store.list path depth w = (x, w') → I c ws w → I c ws w'
  suggest : ∀ {path c ws w x w'}, store.suggest path w = (x, w') → I c ws w → I c ws w'
  denied : ∀ {path content c ws w f w'}, store.write path content w = (.error f, w') →
    I c ws w → I c ws w'
  wrote : ∀ {path content w w'} {c : Conversation}, store.write path content w = (.ok (), w') →
    I c.cache c.written w → I (c.wrote path content).cache (c.wrote path content).written w'

section Keeps

variable {store : Store ω} {I : Invariant ω} (hkeeps : store.Keeps I) {c c' : Cache}
  {ws : List Text} {w w' : ω}

include hkeeps

/-- A content that is found is cached then. -/
theorem Cache.readThrough_keeps {path : Text} {x : Except Failure (Option Text)}
    (hread : c.readThrough store path w = (x, c', w')) (h : I c ws w) :
    I c' ws w' ∧ ∀ content, x = .ok (some content) → c'.get? (key path) = some content := by
  rw [readThrough] at hread
  cases hcached : c.get? (key path) with
  | some content =>
    rw [hcached] at hread
    cases hread
    exact ⟨h, fun t ht => hcached.trans (Except.ok.inj ht)⟩
  | none =>
    rw [hcached] at hread
    rcases hanswer : store.read (key path) w with ⟨f | _ | content, w₁⟩
    · rw [hanswer] at hread
      cases hread
      exact ⟨hkeeps.read hcached hanswer (by simp) h, by simp⟩
    · rw [hanswer] at hread
      cases hread
      exact ⟨hkeeps.read hcached hanswer (by simp) h, by simp⟩
    · rw [hanswer] at hread
      cases hread
      refine ⟨hkeeps.found hcached hanswer h, fun t ht => ?_⟩
      rw [get?_insert_self]
      exact Except.ok.inj ht

namespace Reaction

theorem fileBody_keeps {path body : Text} (hbody : fileBody store path c w = (body, c', w'))
    (h : I c ws w) : I c' ws w' := by
  rw [fileBody] at hbody
  rcases hread : c.readThrough store path w with ⟨x, c₁, w₁⟩
  have hkept := (Cache.readThrough_keeps hkeeps hread h).1
  rw [hread] at hbody
  rcases x with f | _ | content
  · cases hbody
    exact hkept
  · -- similar paths are asked for
    cases hbody
    exact hkeeps.suggest rfl hkept
  · cases hbody
    exact hkept

theorem listingBody_keeps {depth : Nat} {path body : Text}
    (hbody : listingBody store depth path w = (body, w')) (h : I c ws w) : I c ws w' := by
  rw [listingBody] at hbody
  rcases hlist : store.list path depth w with ⟨_ | _ | _, w₁⟩
  all_goals
    rw [hlist] at hbody
    cases hbody
    exact hkeeps.list hlist h

theorem serveEach_keeps {depth : Nat} {requests : List Request} {served served' : Served}
    (hserve : serveEach store depth requests served c w = (served', c', w')) (h : I c ws w) :
    I c' ws w' := by
  induction requests generalizing served c w with
  | nil =>
    cases hserve
    exact h
  | cons request rest ih =>
    obtain ⟨kind, path⟩ := request
    cases kind with
    | file =>
      rw [serveEach] at hserve
      rcases hbody : fileBody store path c w with ⟨body, c₁, w₁⟩
      rw [hbody] at hserve
      exact ih hserve (fileBody_keeps hkeeps hbody h)
    | listing =>
      rw [serveEach] at hserve
      rcases hbody : listingBody store depth path w with ⟨body, w₁⟩
      rw [hbody] at hserve
      exact ih hserve (listingBody_keeps hkeeps hbody h)

theorem load_keeps (path : Text) (state : Cache × ω) (h : I state.1 ws state.2) :
    I (load store state path).2.1 ws (load store state path).2.2 := by
  rw [load]
  rcases hread : state.1.readThrough store path state.2 with ⟨_ | _ | _, c₁, w₁⟩
  all_goals exact (Cache.readThrough_keeps hkeeps hread h).1

/-- The engine only reads. -/
theorem apply_keeps {strict : Bool} {patch : Text} {x : Except PatchError ApplyResult}
    (happly : Patch.apply strict (load store) patch (c, w) = (x, c', w')) (h : I c ws w) :
    I c' ws w' := by
  let kept (state : Cache × ω) : Prop := I state.1 ws state.2
  have hkept : kept (Patch.apply strict (load store) patch (c, w)).2 :=
    Patch.apply_invariant (load_keeps hkeeps) h
  rw [happly] at hkept
  exact hkept

end Reaction

end Keeps

section Delivery

variable {store : Store ω} {I : Invariant ω} (hkeeps : store.Keeps I) {c c' : Conversation}
  {w w' : ω} {d d' : Reaction.Delivery}

include hkeeps

namespace Reaction

theorem deliverOne_keeps {file : PatchedFile}
    (hdeliver : deliverOne store file d c w = (d', c', w')) (h : I c.cache c.written w) :
    I c'.cache c'.written w' := by
  rw [deliverOne] at hdeliver
  rcases hwrite : store.write file.path file.content w with ⟨f | ⟨⟨⟩⟩, w₁⟩
  · rw [hwrite] at hdeliver
    cases hdeliver
    exact hkeeps.denied hwrite h
  · rw [hwrite] at hdeliver
    cases hdeliver
    exact hkeeps.wrote hwrite h

theorem deliver_keeps {files : List PatchedFile}
    (hdeliver : deliver store files d c w = (d', c', w')) (h : I c.cache c.written w) :
    I c'.cache c'.written w' := by
  induction files generalizing d c w with
  | nil =>
    cases hdeliver
    exact h
  | cons file rest ih =>
    rw [deliver] at hdeliver
    rcases hone : deliverOne store file d c w with ⟨d₁, c₁, w₁⟩
    rw [hone] at hdeliver
    exact ih hdeliver (deliverOne_keeps hkeeps hone h)

theorem serve_keeps {cfg : Config} {requests : List Request} {r : Reaction}
    (hserve : serve store cfg requests c w = (r, c', w')) (h : I c.cache c.written w) :
    I c'.cache c'.written w' := by
  rcases heach : serveEach store cfg.listingDepth requests {} c.cache w with ⟨served, cache, w₁⟩
  rw [serve, heach] at hserve
  cases hserve
  exact serveEach_keeps hkeeps heach h

theorem applyPatch_keeps {cfg : Config} {patch : Text} {r : Reaction}
    (hpatch : applyPatch store cfg patch c w = (r, c', w')) (h : I c.cache c.written w) :
    I c'.cache c'.written w' := by
  rw [applyPatch] at hpatch
  rcases happly : Patch.apply cfg.strictContext (load store) patch (c.cache, w)
    with ⟨err | result, cache, w₁⟩
  · rw [happly, Prod.mk.injEq, Prod.mk.injEq] at hpatch
    obtain ⟨-, rfl, rfl⟩ := hpatch
    exact apply_keeps hkeeps happly h
  · rw [happly] at hpatch
    dsimp only at hpatch
    rcases hdeliver : deliver store result.files {} { c with cache } w₁ with ⟨d, c₁, w₂⟩
    rw [hdeliver, Prod.mk.injEq, Prod.mk.injEq] at hpatch
    obtain ⟨-, rfl, rfl⟩ := hpatch
    exact deliver_keeps hkeeps hdeliver (apply_keeps hkeeps happly h)

end Reaction

end Delivery

namespace Session

/-- A property that a session keeps. -/
structure Keeps (s : Session) (env : Surroundings ω) (I : Invariant ω) : Prop where
  store : env.store.Keeps I
  send : ∀ {messages c ws w x w'}, env.send messages w = (x, w') → I c ws w → I c ws w'
  writeTurn : ∀ {log r c ws w x w'}, s.log? = some log →
    env.onDisk (log.writeTurn r) w = (x, w') → I c ws w → I c ws w'

variable {s : Session} {env : Surroundings ω} {I : Invariant ω}

theorem react_keeps (hkeeps : env.store.Keeps I) {action : Action} {c c' : Conversation} {w w' : ω}
    {x : Except DoneReason (Text × Reaction)} (hreact : s.react env action c w = (x, c', w'))
    (h : I c.cache c.written w) : I c'.cache c'.written w' := by
  cases action with
  | done reason =>
    cases hreact
    exact h
  | requestFiles requests =>
    rcases hserve : Reaction.serve env.store s.config requests c w with ⟨r, c₁, w₁⟩
    rw [react, hserve] at hreact
    cases hreact
    exact Reaction.serve_keeps hkeeps hserve h
  | applyPatch patch =>
    rcases hpatch : Reaction.applyPatch env.store s.config patch c w with ⟨r, c₁, w₁⟩
    rw [react, hpatch] at hreact
    cases hreact
    exact Reaction.applyPatch_keeps hkeeps hpatch h
  | followUp kind =>
    cases hreact
    cases kind <;> exact h

variable (hkeeps : s.Keeps env I)

include hkeeps

/-- A reply is neither cached nor written. -/
theorem Receives.keeps {p : Round ω} {action : Action} {c : Conversation} {w : ω}
    (hreply : s.Receives env p action c w)
    (h : I p.conversation.cache p.conversation.written p.world) : I c.cache c.written w := by
  cases hreply with
  | intro hsend haction => exact hkeeps.send hsend h

theorem Step.keeps {p q : Round ω} {e : Exchange} (hstep : s.Step env p e q)
    (h : I p.conversation.cache p.conversation.written p.world) :
    I q.conversation.cache q.conversation.written q.world := by
  cases hstep with
  | intro hsend hreact hlog =>
    have hreply := Receives.keeps hkeeps (.intro (s := s) hsend rfl) h
    have hreacted := react_keeps hkeeps.store hreact hreply
    rcases logged_cases hlog with rfl | ⟨log, hlog?, hdisk⟩
    · exact hreacted
    · exact hkeeps.writeTurn hlog? hdisk hreacted

/-- What holds in the first round holds in each round. -/
theorem Exchanges.keeps {p q : Round ω} {es : List Exchange} (hes : s.Exchanges env p es q)
    (h : I p.conversation.cache p.conversation.written p.world) :
    I q.conversation.cache q.conversation.written q.world := by
  induction hes with
  | nil p => exact h
  | cons step rest ih => exact ih (step.keeps hkeeps h)

omit hkeeps

variable {J : ω → Prop}

/-- What a session keeps says of the world when it ends, also with its transcript. -/
theorem Keeps.converse (hkeeps : s.Keeps env I) (hworld : ∀ {c ws w}, I c ws w → J w)
    (htranscript : ∀ {log ms w x w'}, s.log? = some log →
      env.onDisk (log.writeTranscript ms) w = (x, w') → J w → J w') {left : Nat} {c : Conversation}
    {w : ω} (h : I c.cache c.written w) : J (s.converse env left c w).2 := by
  have hlogged : ∀ {r c ws w x w'}, s.logged env (fun log => log.writeTurn r) w = (x, w') →
      I c ws w → I c ws w' := by
    intro r c ws w x w' hlog hI
    rcases logged_cases hlog with rfl | ⟨log, hlog?, hdisk⟩
    · exact hI
    · exact hkeeps.writeTurn hlog? hdisk hI
  have hfinish : ∀ {c reason w}, J w → J (s.finish env c reason w).2 := by
    intro c reason w hJ
    rw [finish]
    rcases hlog : s.logged env (fun log => log.writeTranscript c.messages) w with ⟨_ | _, w'⟩
    all_goals
      rcases logged_cases hlog with rfl | ⟨log, hlog?, hdisk⟩
      · exact hJ
      · exact htranscript hlog? hdisk hJ
  obtain ⟨es, q, calls, hes, hstops⟩ := s.exists_exchanges env left c w
  have hq := hes.keeps hkeeps h
  generalize s.converse env left c w = result at hstops
  cases hstops with
  | limit => exact hfinish (hworld hq)
  | sendFails hcall => exact hworld (hkeeps.send hcall hq)
  | done hcall haction hlog => exact hfinish (hworld (hlogged hlog (hkeeps.send hcall hq)))
  | @logFails left c c' w w₁ w₂ w₃ reply r x f hcall hreact hlog =>
    have hreply := Receives.keeps hkeeps (.intro (s := s) hcall rfl) hq
    exact hworld (hlogged hlog (react_keeps hkeeps.store hreact hreply))

/-- A session that keeps a property of the world, also with its transcript, ends with it. -/
theorem Keeps.run (hkeeps : s.Keeps env fun _ _ w => J w)
    (htranscript : ∀ {log ms w x w'}, s.log? = some log →
      env.onDisk (log.writeTranscript ms) w = (x, w') → J w → J w') {prompt : Text} {w : ω}
    (h : J w) : J (s.run env prompt w).2 :=
  hkeeps.converse (fun h => h) htranscript h

/-- A session that goes on after a reaction ends with what it keeps. -/
theorem Receives.converse_keeps (hkeeps : s.Keeps env fun _ _ w => J w)
    (htranscript : ∀ {log ms w x w'}, s.log? = some log →
      env.onDisk (log.writeTranscript ms) w = (x, w') → J w → J w') {p : Round ω} {action : Action}
    {c c' : Conversation} {w w' : ω} {name : Text} {r : Reaction}
    (hreply : s.Receives env p action c w) (hreact : s.react env action c w = (.ok (name, r), c', w'))
    (h : J w') : J (s.converse env p.left p.conversation p.world).2 := by
  have hlogged : ∀ {r x w₁}, s.logged env (fun log => log.writeTurn r) w' = (x, w₁) → J w₁ := by
    intro r x w₁ hlog
    rcases logged_cases hlog with rfl | ⟨log, hlog?, hdisk⟩
    · exact h
    · exact @Keeps.writeTurn _ _ _ _ hkeeps _ _ {} [] _ _ _ hlog? hdisk h
  cases hreply with
  | intro hsend haction =>
    subst haction
    rw [Session.converse, hsend]
    dsimp only
    rw [hreact]
    dsimp only
    split
    · rename_i hlog
      exact hlogged hlog
    · rename_i hlog
      exact hkeeps.converse (fun h => h) htranscript (hlogged hlog)

end Session

end Mend

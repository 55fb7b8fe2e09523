import Mend.Proofs.Patch.Sources
import Mend.Proofs.Session.Calls

/-!
# What is written was read

A session writes to a path only after a read of its key that said what is there, a content or
nothing, or after a write to the same key that succeeded (`Session.run_readsFirst`). So a file that
cannot be read, however often it is tried and under whatever spelling of its path, is never
overwritten.

What carries this through a run is that the key of each cached content was read or written
(`Cache.Backed`). The engine asks for each path before it makes anything of its file, and makes
nothing of a file that cannot be read (`Patch.apply_sources`).
-/

namespace Mend

namespace StoreCall

/-- The key was read, with a content or as nothing, or it was written. -/
def Known (calls : List StoreCall) (key : Text) : Prop :=
  (∃ found, .read key (some found) ∈ calls) ∨
    ∃ path, .write path true ∈ calls ∧ Cache.key path = key

/-- Before each write the key of its path is known. -/
def Guarded (calls : List StoreCall) : Prop :=
  ∀ before path ok after, calls = before ++ .write path ok :: after →
    Known before (Cache.key path)

/-- Whether a call is a write. -/
def isWrite : StoreCall → Bool
  | .write .. => true
  | _ => false

variable {calls : List StoreCall} {key : Text}

theorem Known.append (h : Known calls key) (more : List StoreCall) : Known (calls ++ more) key := by
  rcases h with ⟨found, hread⟩ | ⟨path, hwrite, hkey⟩
  · exact .inl ⟨found, List.mem_append_left _ hread⟩
  · exact .inr ⟨path, List.mem_append_left _ hwrite, hkey⟩

theorem guarded_nil : Guarded [] := by
  intro before path ok after h
  cases before <;> cases h

/-- One more call, if it is a write whose key is known, or no write. -/
theorem Guarded.concat (h : Guarded calls) {call : StoreCall}
    (hcall : ∀ path ok, call = .write path ok → Known calls (Cache.key path)) :
    Guarded (calls ++ [call]) := by
  intro before path ok after hsplit
  -- the write is the new call or one of those before it
  rcases List.eq_nil_or_concat after with rfl | ⟨after, last, rfl⟩
  · obtain ⟨rfl, hlast⟩ := List.append_inj' hsplit rfl
    exact hcall path ok (List.cons.inj hlast).1
  · rw [List.concat_eq_append, ← List.cons_append, ← List.append_assoc] at hsplit
    exact h before path ok after (List.append_inj' hsplit rfl).1

theorem Guarded.append (h : Guarded calls) {more : List StoreCall}
    (hmore : ∀ call ∈ more, isWrite call = false) : Guarded (calls ++ more) := by
  induction more generalizing calls with
  | nil =>
    rw [List.append_nil]
    exact h
  | cons call more ih =>
    rw [List.forall_mem_cons] at hmore
    rw [← List.singleton_append, ← List.append_assoc]
    refine ih (h.concat fun path ok hwrite => ?_) hmore.2
    rw [hwrite] at hmore
    cases hmore.1

/-- A key that could not be read is not written, because the first write to it would need one before
it. -/
theorem Guarded.key_ne (h : Guarded calls)
    (hunread : ∀ found, .read key found ∈ calls → found = none) {path : Text} {ok : Bool}
    (hwrite : .write path ok ∈ calls) : Cache.key path ≠ key := by
  obtain ⟨before, after, hsplit⟩ := List.append_of_mem hwrite
  clear hwrite
  -- induction on the number of calls before the write
  induction hlength : before.length using Nat.strongRecOn generalizing before after path ok with
  | ind n ih =>
    rintro rfl
    rcases h before path ok after hsplit with ⟨found, hread⟩ | ⟨path', hearlier, hkey⟩
    · have hnone := hunread (some found) (hsplit ▸ List.mem_append_left _ hread)
      cases hnone
    · obtain ⟨front, back, rfl⟩ := List.append_of_mem hearlier
      have hless : front.length < n := by
        rw [← hlength, List.length_append, List.length_cons]
        omega
      rw [List.append_assoc] at hsplit
      exact ih front.length hless front _ hsplit rfl hkey

end StoreCall

open StoreCall

/-- The key of each cached content is known, and writes are guarded. -/
structure Cache.Backed (c : Cache) (calls : List StoreCall) : Prop where
  guarded : Guarded calls
  known : ∀ key content, c.get? key = some content → Known calls key

namespace Cache.Backed

variable {c : Cache} {calls : List StoreCall}

theorem append (h : c.Backed calls) {more : List StoreCall}
    (hmore : ∀ call ∈ more, isWrite call = false) : c.Backed (calls ++ more) :=
  ⟨h.guarded.append hmore, fun key content hkey => (h.known key content hkey).append more⟩

/-- A write that fails leaves the cache alone. -/
theorem failed (h : c.Backed calls) {path : Text} (hpath : Known calls (key path)) :
    c.Backed (calls ++ [.write path false]) := by
  refine ⟨h.guarded.concat ?_, fun key content hkey => (h.known key content hkey).append _⟩
  rintro _ _ ⟨⟩
  exact hpath

theorem wrote (h : c.Backed calls) {path : Text} (hpath : Known calls (key path)) (content : Text) :
    (c.insert (key path) content).Backed (calls ++ [.write path true]) := by
  refine ⟨h.guarded.concat ?_, fun other t hother => ?_⟩
  · rintro _ _ ⟨⟩
    exact hpath
  · by_cases hkey : other = key path
    · exact .inr ⟨path, List.mem_append_right _ (List.mem_singleton_self _), hkey.symm⟩
    · rw [get?_insert_ne content hkey] at hother
      exact (h.known other t hother).append _

variable {ω : Type} {store : Store ω} {c' : Cache} {v v' : ω × List StoreCall} {rs : List Read}

theorem mem_of_lookup {entries : List (Text × Text)} {key content : Text}
    (h : entries.lookup key = some content) : (key, content) ∈ entries := by
  obtain ⟨front, back, rfl, -⟩ := List.lookup_eq_some_iff.1 h
  exact List.mem_append_right _ (List.mem_cons_self ..)

/-- Reads keep a cache backed. -/
theorem reads (h : c.Backed v.2) (hreads : Reads store.logged c v rs c' v') : c'.Backed v'.2 := by
  obtain ⟨-, hcalls⟩ := hreads.of_logged
  obtain ⟨added, hentries, hadded⟩ := hreads.exists_entries
  rw [hcalls]
  refine ⟨h.guarded.append fun call hcall => ?_, fun key content hkey => ?_⟩
  · obtain ⟨r, -, rfl⟩ := List.mem_map.1 hcall
    rfl
  · rw [get?, hentries, List.lookup_append, Option.or_eq_some_iff] at hkey
    -- the content was just read or it was cached before
    rcases hkey with hnew | ⟨-, hold⟩
    · have hread := hadded (key, content) (mem_of_lookup hnew)
      exact .inl ⟨true, List.mem_append_right _ (List.mem_map.2 ⟨_, hread, rfl⟩)⟩
    · exact (h.known key content hold).append _

/-- A path whose content is found, or not, is known. -/
theorem known_readThrough (h : c.Backed v.2) {path : Text} {found : Option Text}
    (hread : c.readThrough store.logged path v = (.ok found, c', v')) : Known v'.2 (key path) := by
  rw [readThrough] at hread
  cases hcached : c.get? (key path) with
  | some content =>
    rw [hcached] at hread
    cases hread
    exact h.known _ _ hcached
  | none =>
    rw [hcached] at hread
    rcases hanswer : store.logged.read (key path) v with ⟨answer, v₁⟩
    obtain ⟨-, hcalls⟩ := Store.logged_read hanswer
    rw [hanswer] at hread
    have hlast : ∀ found : Option Text, answer = .ok found → Known v₁.2 (key path) := by
      rintro found rfl
      rw [hcalls]
      exact .inl ⟨found.isSome, List.mem_append_right _ (List.mem_singleton_self _)⟩
    rcases answer with f | _ | content
    · cases hread
    · cases hread
      exact hlast _ rfl
    · cases hread
      exact hlast _ rfl

end Cache.Backed

namespace Reaction

variable {ω : Type} {store : Store ω} {v v' : ω × List StoreCall}

/-- What the loader is asked for is known, unless it cannot be read. -/
theorem knows_load (store : Store ω) :
    Patch.Engine.Knows (load store.logged) (fun state => state.1.Backed state.2.2)
      fun state path => Known state.2.2 (Cache.key path) := by
  have hread : ∀ path (state : Cache × ω × List StoreCall), ∃ rs,
      Reads store.logged state.1 state.2 rs (load store.logged state path).2.1
        (load store.logged state path).2.2 := by
    intro path state
    rcases hload : load store.logged state path with ⟨known, c, v⟩
    obtain ⟨x, hx⟩ := exists_readThrough hload
    exact Cache.exists_reads hx
  refine ⟨fun path state hbacked => ?_, fun path state other hbacked hknown => ?_,
    fun path state hbacked hreadable => ?_⟩
  · obtain ⟨rs, hrs⟩ := hread path state
    exact hbacked.reads hrs
  · obtain ⟨rs, hrs⟩ := hread path state
    rw [hrs.of_logged.2]
    exact hknown.append _
  · rw [load] at hreadable ⊢
    rcases hx : state.1.readThrough store.logged path state.2 with ⟨f | found, c, v⟩
    · rw [hx] at hreadable
      exact absurd rfl (hreadable f.chain)
    · have hknown := hbacked.known_readThrough hx
      cases found with
      | some content => exact hknown
      | none => exact hknown

/-- A run of the engine keeps a cache backed, also one that fails. -/
theorem run_backed {rule : CursorRule} {strict : Bool} {tokens : List Token} {e : Patch.Engine}
    {x : Except PatchError Patch.Engine} {c c' : Cache} (hbacked : c.Backed v.2)
    (h : Patch.Engine.run rule strict (load store.logged) tokens e (c, v) = (x, c', v')) :
    c'.Backed v'.2 := by
  have hkept : (Patch.Engine.run rule strict (load store.logged) tokens e (c, v)).2.1.Backed
      (Patch.Engine.run rule strict (load store.logged) tokens e (c, v)).2.2.2 :=
    Patch.Engine.run_invariant (P := fun (state : Cache × ω × List StoreCall) =>
      state.1.Backed state.2.2) (knows_load store).kept tokens e hbacked
  rw [h] at hkept
  exact hkept

/-- The files that a patch produces are known. -/
theorem apply_backed {strict : Bool} {patch : Text} {c c' : Cache} {result : ApplyResult}
    (hbacked : c.Backed v.2)
    (h : Patch.apply strict (load store.logged) patch (c, v) = (.ok result, c', v')) :
    c'.Backed v'.2 ∧ ∀ f ∈ result.files, Known v'.2 (Cache.key f.path) :=
  Patch.apply_sources (knows_load store) hbacked h

/-- Known files are written with guards. -/
theorem deliver_backed {files : List PatchedFile} {d d' : Delivery} {c c' : Conversation}
    (hbacked : c.cache.Backed v.2) (hfiles : ∀ f ∈ files, Known v.2 (Cache.key f.path))
    (h : deliver store.logged files d c v = (d', c', v')) : c'.cache.Backed v'.2 := by
  induction files generalizing d c v with
  | nil =>
    cases h
    exact hbacked
  | cons file rest ih =>
    rw [List.forall_mem_cons] at hfiles
    rw [deliver, deliverOne] at h
    -- a file that cannot be written is not cached either
    rcases hwrite : store.write file.path file.content v.1 with ⟨f | done, w⟩
    · have hlogged : store.logged.write file.path file.content v
          = (.error f, w, v.2 ++ [.write file.path false]) := by
        simp only [Store.logged, hwrite]
        rfl
      rw [hlogged] at h
      exact ih (hbacked.failed hfiles.1) (fun f hf => (hfiles.2 f hf).append _) h
    · have hlogged : store.logged.write file.path file.content v
          = (.ok done, w, v.2 ++ [.write file.path true]) := by
        simp only [Store.logged, hwrite]
        rfl
      rw [hlogged] at h
      refine ih ?_ (fun f hf => (hfiles.2 f hf).append _) h
      exact hbacked.wrote hfiles.1 file.content

theorem fileBody_backed {path body : Text} {c c' : Cache} (hbacked : c.Backed v.2)
    (h : fileBody store.logged path c v = (body, c', v')) : c'.Backed v'.2 := by
  rw [fileBody] at h
  rcases hread : c.readThrough store.logged path v with ⟨x, c₁, v₁⟩
  obtain ⟨rs, hrs⟩ := Cache.exists_reads hread
  have hbacked₁ : c₁.Backed v₁.2 := hbacked.reads hrs
  rw [hread] at h
  rcases x with f | _ | content
  · cases h
    exact hbacked₁
  · -- similar paths are asked for
    cases h
    refine hbacked₁.append fun call hcall => ?_
    rw [List.mem_singleton.1 hcall]
    rfl
  · cases h
    exact hbacked₁

theorem listingBody_calls {depth : Nat} {path body : Text}
    (h : listingBody store.logged depth path v = (body, v')) :
    v'.2 = v.2 ++ [.list path depth] := by
  rw [listingBody] at h
  rcases hlist : store.list path depth v.1 with ⟨x, w⟩
  have hlogged : store.logged.list path depth v = (x, w, v.2 ++ [.list path depth]) := by
    simp only [Store.logged, hlist]
  rw [hlogged] at h
  rcases x with f | _ | entries
  all_goals
    cases h
    rfl

/-- Answers to requests keep a cache backed. -/
theorem serveEach_backed {depth : Nat} {requests : List Request} {served served' : Served}
    {c c' : Cache} (hbacked : c.Backed v.2)
    (h : serveEach store.logged depth requests served c v = (served', c', v')) :
    c'.Backed v'.2 := by
  induction requests generalizing served c v with
  | nil =>
    cases h
    exact hbacked
  | cons request rest ih =>
    obtain ⟨kind, path⟩ := request
    cases kind with
    | file =>
      rw [serveEach] at h
      rcases hbody : fileBody store.logged path c v with ⟨body, c₁, v₁⟩
      rw [hbody] at h
      exact ih (fileBody_backed hbacked hbody) h
    | listing =>
      rw [serveEach] at h
      rcases hbody : listingBody store.logged depth path v with ⟨body, v₁⟩
      rw [hbody] at h
      refine ih ?_ h
      rw [listingBody_calls hbody]
      refine hbacked.append fun call hcall => ?_
      rw [List.mem_singleton.1 hcall]
      rfl

end Reaction

/-! ## Runs -/

namespace Session

variable {ω : Type} {s : Session} {env : Surroundings ω} {v v' : ω × List StoreCall}

/-- A reaction keeps a cache backed at each moment. -/
theorem During.backed {action : Action} {c : Conversation} {cache : Cache}
    (h : s.During env.watched action c v cache v') (hbacked : c.cache.Backed v.2) :
    cache.Backed v'.2 := by
  cases h with
  | begin => exact hbacked
  | serve hserve => exact Reaction.serveEach_backed hbacked hserve
  | patch htokens hrun => exact Reaction.run_backed hbacked hrun
  | deliver happly hfiles hdeliver =>
    -- the engine has read all files before the first one is written
    obtain ⟨hread, hknown⟩ := Reaction.apply_backed hbacked happly
    rw [hfiles] at hknown
    exact Reaction.deliver_backed (c := { c with cache := _ }) hread
      (fun f hf => hknown f (List.mem_append_left _ hf)) hdeliver

/-! The generator and the log make no calls on the store. -/

theorem send_calls {messages : List Message} {x : Except Failure Text}
    (h : env.watched.send messages v = (x, v')) : v'.2 = v.2 := by
  cases h
  rfl

theorem logged_calls {record : TurnLog → Disk → Except Failure Unit × Disk}
    {x : Except Failure Unit} (h : s.logged env.watched record v = (x, v')) : v'.2 = v.2 :=
  logged_keeps Prod.snd (fun _ _ => rfl) h

theorem finish_calls (s : Session) (env : Surroundings ω) (c : Conversation) (reason : DoneReason)
    (v : ω × List StoreCall) : (s.finish env.watched c reason v).2.2 = v.2 :=
  s.finish_keeps Prod.snd (fun _ _ => rfl) c reason v

/-- An exchange keeps the cache backed. -/
theorem Step.backed {p q : Round (ω × List StoreCall)} {e : Exchange}
    (h : s.Step env.watched p e q) (hp : p.conversation.cache.Backed p.world.2) :
    q.conversation.cache.Backed q.world.2 := by
  cases h with
  | @intro left c c' v v₁ v₂ v₃ reply name r hsend hreact hlog =>
    have hreceived : (c.receive reply).cache.Backed v₁.2 := (send_calls hsend).symm ▸ hp
    have hreacted : c'.cache.Backed v₂.2 := (during_react hreact).backed hreceived
    exact (logged_calls hlog).symm ▸ hreacted

theorem Exchanges.backed {p q : Round (ω × List StoreCall)} {es : List Exchange}
    (h : s.Exchanges env.watched p es q) (hp : p.conversation.cache.Backed p.world.2) :
    q.conversation.cache.Backed q.world.2 := by
  induction h with
  | nil p => exact hp
  | cons step rest ih => exact ih (step.backed hp)

/-- However a session stops, its writes are guarded. -/
theorem Stops.guarded {q : Round (ω × List StoreCall)} {calls : List Call}
    {result : Except Failure Outcome × ω × List StoreCall} (h : s.Stops env.watched q calls result)
    (hq : q.conversation.cache.Backed q.world.2) : Guarded result.2.2 := by
  cases h with
  | limit =>
    rw [finish_calls]
    exact hq.guarded
  | sendFails hsend =>
    rw [send_calls hsend]
    exact hq.guarded
  | done hsend haction hlog =>
    rw [finish_calls, logged_calls hlog, send_calls hsend]
    exact hq.guarded
  | @logFails left c c' v v₁ v₂ v₃ reply r x f hsend hreact hlog =>
    have hreceived : (c.receive reply).cache.Backed v₁.2 := (send_calls hsend).symm ▸ hq
    rw [logged_calls hlog]
    exact ((during_react hreact).backed hreceived).guarded

/-- Calls of which the writes are made to what was read. -/
structure ReadsFirst (calls : List StoreCall) : Prop where
  /-- Each write has a read of its key before it that did not fail, or a write that succeeded. -/
  guarded : Guarded calls
  /-- A key of which each read fails is not written. -/
  key_ne : ∀ key, (∀ found, .read key found ∈ calls → found = none) →
    ∀ path ok, .write path ok ∈ calls → Cache.key path ≠ key

/-- A session writes to what it has read, whatever the generator sends and the store answers. -/
theorem run_readsFirst (s : Session) (env : Surroundings ω) (prompt : Text) (w : ω) :
    ∃ result w' calls, s.run env prompt w = (result, w') ∧
      s.run env.watched prompt (w, []) = (result, w', calls) ∧ ReadsFirst calls := by
  obtain ⟨es, q, sent, hes, hstops⟩ :=
    s.exists_exchanges env.watched s.config.maxTurns (s.opening prompt) (w, [])
  change s.Stops _ q sent (s.run env.watched prompt (w, [])) at hstops
  obtain ⟨hresult, hworld⟩ := s.run_watched env prompt w []
  rcases hrun : s.run env.watched prompt (w, []) with ⟨result, w', calls⟩
  rw [hrun] at hstops hresult hworld
  have hguarded : Guarded calls := by
    -- nothing is cached and nothing written before the first exchange
    refine hstops.guarded (hes.backed ⟨guarded_nil, fun key content hkey => ?_⟩)
    cases hkey
  refine ⟨result, w', calls, Prod.ext hresult hworld, rfl, hguarded, ?_⟩
  exact fun key hunread path ok hwrite => hguarded.key_ne hunread hwrite

end Session

end Mend

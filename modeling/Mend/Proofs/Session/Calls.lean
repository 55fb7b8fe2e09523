import Mathlib.Control.Monad.Basic
import Mend.Proofs.Session.Moments
import Mend.Store.Memory

/-!
# The calls of a session on its store

Surroundings may write down the calls on their store (`Surroundings.watched`), which changes nothing
else (`Session.run_watched`).

What the cache does not hold is read from the store, and a content that is read is kept (`Reads`).
Such reads are all that a patch that the engine rejects leaves behind (`Session.react_rejected`):
nothing is written, of the conversation only the cache is changed, by contents that were just read,
and what the engine had made of the files before it stopped is gone.
-/

namespace Mend

variable {ω : Type}

/-! ## Watching a store -/

/-- Surroundings that also write down the calls on the store. -/
def Surroundings.watched (env : Surroundings ω) : Surroundings (ω × List StoreCall) where
  send messages v :=
    let (x, w) := env.send messages v.1
    (x, w, v.2)
  store := env.store.logged
  onDisk op v :=
    let (x, w) := env.onDisk op v.1
    (x, w, v.2)

theorem Store.simulates_logged (store : Store ω) :
    store.logged.Simulates (fun v w => w = v.1) store := by
  refine ⟨⟨?_, ?_, ?_⟩, ?_⟩
  all_goals
    intros
    rename_i hvw
    obtain rfl := hvw
    exact ⟨rfl, rfl⟩

/-- Earlier calls stay in front. -/
theorem Store.logged_simulates_logged (store : Store ω) (calls : List StoreCall) :
    store.logged.Simulates (fun u v => v = (u.1, calls ++ u.2)) store.logged := by
  refine ⟨⟨?_, ?_, ?_⟩, ?_⟩
  all_goals
    intros
    rename_i huv
    obtain rfl := huv
    exact ⟨rfl, by simp [Store.logged]⟩

theorem Surroundings.simulates_watched (env : Surroundings ω) :
    env.watched.Simulates (fun v w => w = v.1) env := by
  refine ⟨?_, env.store.simulates_logged, ?_⟩
  all_goals
    rintro x v w rfl
    exact ⟨rfl, rfl⟩

/-- Writing down the calls changes neither the result of a session nor its world. -/
theorem Session.run_watched (s : Session) (env : Surroundings ω) (prompt : Text) (w : ω)
    (calls : List StoreCall) :
    (s.run env prompt w).1 = (s.run env.watched prompt (w, calls)).1 ∧
      (s.run env prompt w).2 = (s.run env.watched prompt (w, calls)).2.1 := by
  have h := Session.run_agrees env.simulates_watched s prompt (w := (w, calls)) rfl
  exact ⟨h.eq.symm, h.rel⟩

/-! ## Reads -/

/-- A read of a store: the key that was asked for, and the answer. -/
structure Read where
  key : Text
  answer : Except Failure (Option Text)

/-- What is written down of an answer: an error, or whether there was a content. -/
def Read.found (r : Read) : Option Bool :=
  match r.answer with
  | .ok content => some content.isSome
  | .error _ => none

/-- The call of a read. -/
def Read.call (r : Read) : StoreCall := .read r.key r.found

/-- A read is written down. -/
theorem Store.logged_read {store : Store ω} {key : Text} {v v' : ω × List StoreCall}
    {answer : Except Failure (Option Text)} (h : store.logged.read key v = (answer, v')) :
    store.read key v.1 = (answer, v'.1) ∧ v'.2 = v.2 ++ [Read.call ⟨key, answer⟩] := by
  obtain ⟨rfl, rfl⟩ := Prod.mk.inj h
  exact ⟨rfl, rfl⟩

/-- The cache after a read: a content is kept. -/
def Cache.keep (c : Cache) (r : Read) : Cache :=
  match r.answer with
  | .ok (some content) => c.insert r.key content
  | _ => c

/-- A cache and a world, before and after reads of keys that are not cached. -/
inductive Reads (store : Store ω) : Cache → ω → List Read → Cache → ω → Prop
  | nil (c : Cache) (w : ω) : Reads store c w [] c w
  | cons {c c' : Cache} {w w₁ w' : ω} {r : Read} {rs : List Read}
      (hread : store.read r.key w = (r.answer, w₁)) (hmissing : c.get? r.key = none)
      (rest : Reads store (c.keep r) w₁ rs c' w') : Reads store c w (r :: rs) c' w'

namespace Reads

variable {store : Store ω} {c c₁ c' : Cache} {w w₁ w' : ω} {rs rs' : List Read}

theorem append (h : Reads store c w rs c₁ w₁) (h' : Reads store c₁ w₁ rs' c' w') :
    Reads store c w (rs ++ rs') c' w' := by
  induction h with
  | nil => exact h'
  | cons hread hmissing rest ih => exact .cons hread hmissing (ih h')

/-- The cache gets an entry for each content that is read, and no other. -/
theorem exists_entries (h : Reads store c w rs c' w') :
    ∃ added, c'.entries = added ++ c.entries ∧ ∀ e ∈ added, ⟨e.1, .ok (some e.2)⟩ ∈ rs := by
  induction h with
  | nil c w => exact ⟨[], rfl, fun e he => by cases he⟩
  | @cons c c' w w₁ w' r rs hread hmissing rest ih =>
    obtain ⟨added, hentries, hadded⟩ := ih
    have hlater : ∀ e ∈ added, ⟨e.1, .ok (some e.2)⟩ ∈ r :: rs :=
      fun e he => List.mem_cons_of_mem _ (hadded e he)
    obtain ⟨key, answer⟩ := r
    -- what is read later comes in front
    rcases answer with f | _ | content
    · exact ⟨added, hentries, hlater⟩
    · exact ⟨added, hentries, hlater⟩
    · refine ⟨added ++ [(key, content)], ?_, fun e he => ?_⟩
      · rw [hentries, List.append_assoc]
        rfl
      · rcases List.mem_append.1 he with he | he
        · exact hlater e he
        · rw [List.mem_singleton.1 he]
          exact List.mem_cons_self ..

/-- What is cached stays cached, as only keys that are not cached are read. -/
theorem get?_eq (h : Reads store c w rs c' w') {key content : Text}
    (hkey : c.get? key = some content) : c'.get? key = some content := by
  induction h with
  | nil => exact hkey
  | @cons c c' w w₁ w' r rs hread hmissing rest ih =>
    refine ih ?_
    obtain ⟨other, answer⟩ := r
    have hne : key ≠ other := by
      rintro rfl
      rw [hmissing] at hkey
      cases hkey
    rcases answer with f | _ | t
    · exact hkey
    · exact hkey
    · exact (Cache.get?_insert_ne t hne).trans hkey

/-- Reads of a store that writes its calls down are reads of the store, and they are all of its
calls. -/
theorem of_logged {v v' : ω × List StoreCall} (h : Reads store.logged c v rs c' v') :
    Reads store c v.1 rs c' v'.1 ∧ v'.2 = v.2 ++ rs.map Read.call := by
  induction h with
  | nil c v => exact ⟨.nil c v.1, (List.append_nil _).symm⟩
  | @cons c c' v v₁ v' r rs hread hmissing rest ih =>
    obtain ⟨hrest, hcalls⟩ := ih
    obtain ⟨hanswer, hcall⟩ := Store.logged_read hread
    refine ⟨.cons hanswer hmissing hrest, ?_⟩
    rw [hcalls, hcall, List.append_assoc, List.map_cons, List.singleton_append]

end Reads

/-- A content that is asked for is cached, or it is read. -/
theorem Cache.exists_reads {store : Store ω} {path : Text} {c c' : Cache} {w w' : ω}
    {x : Except Failure (Option Text)} (h : c.readThrough store path w = (x, c', w')) :
    ∃ rs, Reads store c w rs c' w' := by
  rw [readThrough] at h
  cases hcached : c.get? (key path) with
  | some content =>
    -- the store is not asked
    rw [hcached] at h
    cases h
    exact ⟨[], .nil c w⟩
  | none =>
    rw [hcached] at h
    rcases hread : store.read (key path) w with ⟨answer, w₁⟩
    refine ⟨[⟨key path, answer⟩], .cons hread hcached ?_⟩
    rw [hread] at h
    rcases answer with f | _ | content
    all_goals
      cases h
      exact .nil ..

namespace Reaction

variable {store : Store ω}

/-- The loader asks for contents and keeps what is known of a file. -/
theorem exists_readThrough {state state' : Cache × ω} {path : Text} {known : Loaded}
    (h : load store state path = (known, state')) :
    ∃ x, state.1.readThrough store path state.2 = (x, state') := by
  rw [load] at h
  rcases hread : state.1.readThrough store path state.2 with ⟨x, c, w⟩
  rw [hread] at h
  refine ⟨x, ?_⟩
  rcases x with f | _ | content
  all_goals rw [(Prod.mk.inj h).2]

/-- A patch reads files, also one that is rejected. -/
theorem exists_reads_apply {strict : Bool} {patch : Text} {c c' : Cache} {w w' : ω}
    {x : Except PatchError ApplyResult}
    (h : Patch.apply strict (load store) patch (c, w) = (x, c', w')) :
    ∃ rs, Reads store c w rs c' w' := by
  have hload : ∀ path (state : Cache × ω), (∃ rs, Reads store c w rs state.1 state.2) →
      ∃ rs, Reads store c w rs (load store state path).2.1 (load store state path).2.2 := by
    rintro path state ⟨rs, hrs⟩
    rcases hpath : load store state path with ⟨known, c₁, w₁⟩
    obtain ⟨x, hread⟩ := exists_readThrough hpath
    obtain ⟨rs', hrs'⟩ := Cache.exists_reads hread
    exact ⟨rs ++ rs', hrs.append hrs'⟩
  have hend : ∃ rs, Reads store c w rs (Patch.apply strict (load store) patch (c, w)).2.1
      (Patch.apply strict (load store) patch (c, w)).2.2 :=
    Patch.apply_invariant
      (P := fun (state : Cache × ω) => ∃ rs, Reads store c w rs state.1 state.2) hload
      ⟨[], .nil c w⟩
  rw [h] at hend
  exact hend

end Reaction

/-! ## Rejected patches -/

namespace Session

/-- The feedback on a patch that is rejected. -/
def rejection (err : PatchError) (patch : Text) (c : Conversation) : Reaction :=
  ⟨Prompt.patchError err patch c.goals, { error := some err.message }⟩

/-- A rejected patch leaves nothing but reads behind: the conversation `c` and the world `w` before
it, and the cache and the world after. -/
structure Inert (s : Session) (env : Surroundings ω) (patch : Text) (err : PatchError)
    (c : Conversation) (w : ω) (cache : Cache) (w' : ω) : Prop where
  /-- Of the conversation only the cache is changed. -/
  react_eq : s.react env (.applyPatch patch) c w
    = (.ok ("apply_patch".toList, rejection err patch c), { c with cache }, w')
  /-- The cache and the world are those after some reads, and the calls on the store are these
  reads. -/
  exists_reads : ∃ rs, Reads env.store c.cache w rs cache w' ∧
    (∀ calls, (s.react env.watched (.applyPatch patch) c (w, calls)).2.2
      = (w', calls ++ rs.map Read.call)) ∧
    ∃ added, cache.entries = added ++ c.cache.entries ∧
      ∀ e ∈ added, ⟨e.1, .ok (some e.2)⟩ ∈ rs
  get?_eq : ∀ key content, c.cache.get? key = some content → cache.get? key = some content
  /-- When the session goes on, the feedback is the one message that is added. -/
  conversation_eq : ∀ {p q : Round ω} {e : Exchange}, s.Receives env p (.applyPatch patch) c w →
    s.Step env p e q → q.conversation = { c with
      cache, messages := c.messages ++ [.user (Prompt.patchError err patch c.goals)] }

/-- Applying a patch reads files, and makes no other calls, whatever calls were made before. -/
theorem exists_reads_watched {env : Surroundings ω} {strict : Bool} {patch : Text} {c cache : Cache}
    {w w' : ω} {x : Except PatchError ApplyResult}
    (h : Patch.apply strict (Reaction.load env.store) patch (c, w) = (x, cache, w')) :
    ∃ rs, Reads env.store c w rs cache w' ∧
      ∀ calls, Patch.apply strict (Reaction.load env.watched.store) patch (c, w, calls)
        = (x, cache, w', calls ++ rs.map Read.call) := by
  -- the calls when none were made before are written behind those that were
  have hstart : Agrees (fun v w => w = v.1) (c, (w, ([] : List StoreCall))) (c, w) :=
    ⟨rfl, rfl⟩
  obtain ⟨x', cache', ⟨w₁, made⟩, _, hlogged, hplain, rfl⟩ :=
    (Patch.apply_agrees (Reaction.load_agrees env.store.simulates_logged.toReadsAlike) strict patch
      hstart).exists_eq_pair
  rw [h] at hplain
  cases hplain
  obtain ⟨rs, hreads⟩ := Reaction.exists_reads_apply hlogged
  obtain ⟨hrs, hmade⟩ := hreads.of_logged
  refine ⟨rs, hrs, fun calls => ?_⟩
  -- and the run with earlier calls is this one
  have hbehind : Agrees (fun u v => v = (u.1, calls ++ u.2)) (c, (w, ([] : List StoreCall)))
      (c, w, calls) := ⟨rfl, by simp⟩
  obtain ⟨x', cache', _, _, hlogged', hcalls, rfl⟩ :=
    (Patch.apply_agrees (Reaction.load_agrees
      (env.store.logged_simulates_logged calls).toReadsAlike) strict patch hbehind).exists_eq_pair
  rw [hlogged] at hlogged'
  cases hlogged'
  rw [hmade, List.nil_append] at hcalls
  exact hcalls

/-- A patch that is rejected leaves nothing but reads behind, wherever the engine stops and whatever
the conversation and the world are. -/
theorem react_rejected {s : Session} {env : Surroundings ω} {patch : Text} {err : PatchError}
    {c : Conversation} {w w' : ω} {cache : Cache}
    (h : Patch.apply s.config.strictContext (Reaction.load env.store) patch (c.cache, w)
      = (.error err, cache, w')) : s.Inert env patch err c w cache w' := by
  have hreact : s.react env (.applyPatch patch) c w
      = (.ok ("apply_patch".toList, rejection err patch c), { c with cache }, w') := by
    rw [react, Reaction.applyPatch, h]
    rfl
  refine ⟨hreact, ?_, ?_, ?_⟩
  -- nothing comes after the reads of the engine
  · obtain ⟨rs, hrs, hcalls⟩ := exists_reads_watched h
    refine ⟨rs, hrs, fun calls => ?_, hrs.exists_entries⟩
    rw [react, Reaction.applyPatch, hcalls calls]
  · intro key content hkey
    obtain ⟨rs, hrs⟩ := Reaction.exists_reads_apply h
    exact hrs.get?_eq hkey
  · intro p q e hreceives hstep
    cases hreceives with
    | @intro left c₀ w₀ w₁ reply action hsend haction =>
      cases hstep with
      | @intro left' c₁ c' w₂ w₃ w₄ w₅ reply' name r hsend' hreact' hlog =>
        rw [hsend] at hsend'
        cases hsend'
        rw [haction, hreact] at hreact'
        cases hreact'
        rfl

/-- Files in memory, without a generator. -/
def unattended : Surroundings MemoryFiles where
  send _ m := (.error (.ofText []), m)
  store := MemoryFiles.store
  onDisk _ m := (.ok (), m)

/-- A patch for two files, of which the second one differs. -/
def halfMatching : Text :=
  "--- a/f\n+++ b/f\n@@ -1 +1 @@\n-x\n+y\n--- a/g\n+++ b/g\n@@ -1 +1 @@\n-x\n+y".toList

/-- The first file is patched before the second one stops the engine; both are cached as they
are. -/
theorem react_rejected_sample :
    let m : MemoryFiles := ⟨[(['f'], ['x', '\n']), (['g'], ['z', '\n'])], [], []⟩
    Inert ⟨{ strictContext := true }, []⟩ unattended halfMatching
      (.removalMismatch 9 ['g'] ['x'] (some ['z'])) {} m
      ⟨[(['g'], ['z', '\n']), (['f'], ['x', '\n'])]⟩ { m with reads := [['g'], ['f']] } :=
  react_rejected (by decide +kernel)

end Session

end Mend

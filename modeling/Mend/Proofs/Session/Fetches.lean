import Mend.Proofs.Session.Calls
import Mend.Proofs.Session.Invariant

/-!
# Contents are fetched once

The content of a key is supplied to a session by a read that finds it, or by a write to a path with
the key that succeeds (`StoreCall.Supplied`). A session reads no key after its content was supplied,
whatever comes between, and it reads a key again at every request for a file until then
(`Session.run_fetchesOnce`).

What carries this is that the cache holds contents for the supplied keys and for no others
(`Cache.Tracks`): nothing is cached that was not supplied, and nothing is lost, when a patch is
rejected and when a write fails as well.
-/

namespace Mend

namespace StoreCall

/-- The key of which a call supplies the content: a read that finds it, or a write that succeeds. -/
def supplied? : StoreCall → Option Text
  | .read key (some true) => some key
  | .write path true => some (Cache.key path)
  | _ => none

/-- Some call has supplied the content of a key. -/
def Supplied (calls : List StoreCall) (key : Text) : Prop :=
  ∃ call ∈ calls, call.supplied? = some key

/-- Calls that read no key of which the content was supplied before, so that one read of a key finds
a content at most. -/
structure FetchesOnce (calls : List StoreCall) : Prop where
  not_supplied : ∀ before key found after, calls = before ++ .read key found :: after →
    ¬ Supplied before key
  count_le : ∀ key, calls.count (.read key (some true)) ≤ 1

variable {calls : List StoreCall} {call : StoreCall} {key : Text}

theorem supplied_concat :
    Supplied (calls ++ [call]) key ↔ Supplied calls key ∨ call.supplied? = some key := by
  simp [Supplied, or_and_right, exists_or]

theorem fetchesOnce_nil : FetchesOnce [] where
  not_supplied before key found after h := by cases before <;> cases h
  count_le _ := Nat.zero_le 1

/-- One more call, which does not read what was supplied. -/
theorem FetchesOnce.concat (h : FetchesOnce calls)
    (hcall : ∀ key found, call = .read key found → ¬ Supplied calls key) :
    FetchesOnce (calls ++ [call]) where
  not_supplied before key found after hsplit := by
    -- the read is the new call or one of those before it
    rcases List.eq_nil_or_concat after with rfl | ⟨after, last, rfl⟩
    · obtain ⟨rfl, hlast⟩ := List.append_inj' hsplit rfl
      exact hcall key found (List.cons.inj hlast).1
    · rw [List.concat_eq_append, ← List.cons_append, ← List.append_assoc] at hsplit
      exact h.not_supplied before key found after (List.append_inj' hsplit rfl).1
  count_le key := by
    rw [List.count_append]
    by_cases heq : call = .read key (some true)
    · have hnone : calls.count (.read key (some true)) = 0 :=
        List.count_eq_zero.2 fun hmem => hcall key _ heq ⟨_, hmem, rfl⟩
      have hone : [call].count (.read key (some true)) = 1 := by
        rw [heq, List.count_singleton_self]
      omega
    · rw [List.count_singleton, if_neg (by simpa using heq)]
      exact h.count_le key

end StoreCall

open StoreCall

/-! ## Caches -/

/-- A cache that holds contents for the supplied keys and no others. -/
structure Cache.Tracks (c : Cache) (calls : List StoreCall) : Prop where
  once : FetchesOnce calls
  isSome_iff : ∀ key, (c.get? key).isSome ↔ Supplied calls key

namespace Cache.Tracks

variable {c c' : Cache} {calls : List StoreCall} {call : StoreCall}

/-- Nothing is cached and nothing supplied at first. -/
theorem empty : Tracks {} [] := ⟨fetchesOnce_nil, by simp [Supplied, get?]⟩

/-- One more call, which does not read what is cached, and what it supplies is cached. -/
theorem concat (h : c.Tracks calls)
    (hread : ∀ key found, call = .read key found → c.get? key = none)
    (hget : ∀ key, (c'.get? key).isSome ↔ (c.get? key).isSome ∨ call.supplied? = some key) :
    c'.Tracks (calls ++ [call]) where
  once := h.once.concat fun key found hcall => by
    rw [← h.isSome_iff, hread key found hcall]
    exact Bool.false_ne_true
  isSome_iff key := by rw [hget, supplied_concat, h.isSome_iff]

/-- A call that supplies nothing. -/
theorem concat_of_eq_none (h : c.Tracks calls) (hcall : call.supplied? = none)
    (hread : ∀ key found, call = .read key found → c.get? key = none) :
    c.Tracks (calls ++ [call]) :=
  h.concat hread fun key => by simp [hcall]

theorem isSome_get?_insert (c : Cache) (key content other : Text) :
    ((c.insert key content).get? other).isSome ↔ (c.get? other).isSome ∨ some key = some other := by
  by_cases heq : other = key
  · simp [heq]
  · simp [get?_insert_ne content heq, Ne.symm heq]

end Cache.Tracks

/-! ## Sessions -/

/-- The operations of a store keep a cache that tracks the calls on it. -/
theorem Store.keeps_tracks {ω : Type} (store : Store ω) :
    store.logged.Keeps fun c _ v => c.Tracks v.2 where
  read {path c ws v x v'} hmissing hread hempty h := by
    obtain ⟨-, hcalls⟩ := Store.logged_read hread
    rw [hcalls]
    refine h.concat_of_eq_none ?_ fun key found hcall => ?_
    · rcases x with f | _ | content
      · rfl
      · rfl
      · exact absurd rfl (hempty content)
    · cases hcall
      exact hmissing
  found {path content c ws v v'} hmissing hread h := by
    obtain ⟨-, hcalls⟩ := Store.logged_read hread
    rw [hcalls]
    refine h.concat (fun key found hcall => ?_) fun key => Cache.Tracks.isSome_get?_insert ..
    cases hcall
    exact hmissing
  list hlist h := by
    obtain ⟨-, rfl⟩ := Prod.mk.inj hlist
    exact h.concat_of_eq_none rfl nofun
  suggest hsuggest h := by
    obtain ⟨-, rfl⟩ := Prod.mk.inj hsuggest
    exact h.concat_of_eq_none rfl nofun
  denied hwrite h := by
    obtain ⟨hfailed, rfl⟩ := Prod.mk.inj hwrite
    dsimp only
    rw [hfailed]
    exact h.concat_of_eq_none rfl nofun
  wrote hwrite h := by
    obtain ⟨hdone, rfl⟩ := Prod.mk.inj hwrite
    dsimp only
    rw [hdone]
    exact h.concat nofun fun key => Cache.Tracks.isSome_get?_insert ..

namespace Session

variable {ω : Type} {s : Session} {env : Surroundings ω}

/-- A session keeps a cache that tracks the calls on its store. -/
theorem keeps_tracks (s : Session) (env : Surroundings ω) :
    s.Keeps env.watched fun c _ v => c.Tracks v.2 where
  store := env.store.keeps_tracks
  send hsend h := by
    obtain ⟨-, rfl⟩ := Prod.mk.inj hsend
    exact h
  writeTurn _ hdisk h := by
    obtain ⟨-, rfl⟩ := Prod.mk.inj hdisk
    exact h

/-- Calls that were made stay in front. -/
theorem keeps_prefix (s : Session) (env : Surroundings ω) (calls : List StoreCall) :
    s.Keeps env.watched fun _ _ v => calls <+: v.2 where
  store.read _ hread _ h := (Prod.mk.inj hread).2 ▸ h.trans (List.prefix_append ..)
  store.found _ hread h := (Prod.mk.inj hread).2 ▸ h.trans (List.prefix_append ..)
  store.list hlist h := (Prod.mk.inj hlist).2 ▸ h.trans (List.prefix_append ..)
  store.suggest hsuggest h := (Prod.mk.inj hsuggest).2 ▸ h.trans (List.prefix_append ..)
  store.denied hwrite h := (Prod.mk.inj hwrite).2 ▸ h.trans (List.prefix_append ..)
  store.wrote hwrite h := (Prod.mk.inj hwrite).2 ▸ h.trans (List.prefix_append ..)
  send hsend h := (Prod.mk.inj hsend).2 ▸ h
  writeTurn _ hdisk h := (Prod.mk.inj hdisk).2 ▸ h

end Session

/-! ## Requests -/

namespace Reaction

variable {ω : Type} {store : Store ω} {v v' : ω × List StoreCall}

/-- Requests are answered one after the other. -/
theorem serveEach_append (store : Store ω) (depth : Nat) (front back : List Request)
    (served : Served) (c : Cache) (w : ω) : serveEach store depth (front ++ back) served c w
      = serveEach store depth back (serveEach store depth front served c w).1
          (serveEach store depth front served c w).2.1
          (serveEach store depth front served c w).2.2 := by
  induction front generalizing served c w with
  | nil => rfl
  | cons request rest ih =>
    obtain ⟨kind, path⟩ := request
    cases kind with
    | file =>
      rw [List.cons_append, serveEach, serveEach]
      exact ih ..
    | listing =>
      rw [List.cons_append, serveEach, serveEach]
      exact ih ..

/-- A request makes no call for what is cached, and else it begins with a read. -/
theorem fileBody_calls {path body : Text} {c c' : Cache}
    (h : fileBody store.logged path c v = (body, c', v')) :
    ((c.get? (Cache.key path)).isSome → v'.2 = v.2) ∧
      (c.get? (Cache.key path) = none →
        ∃ found more, v'.2 = v.2 ++ .read (Cache.key path) found :: more) := by
  rw [fileBody, Cache.readThrough] at h
  cases hcached : c.get? (Cache.key path) with
  | some content =>
    rw [hcached] at h
    cases h
    exact ⟨fun _ => rfl, by simp⟩
  | none =>
    rw [hcached] at h
    rcases hread : store.logged.read (Cache.key path) v with ⟨x, v₁⟩
    obtain ⟨-, hcalls⟩ := Store.logged_read hread
    rw [hread] at h
    refine ⟨by simp, fun _ => ?_⟩
    rcases x with f | _ | content
    · cases h
      exact ⟨_, [], hcalls⟩
    · -- similar paths are asked for behind the read
      cases h
      refine ⟨some false, [.suggest path], ?_⟩
      change v₁.2 ++ [.suggest path] = _
      rw [hcalls, List.append_assoc]
      rfl
    · cases h
      exact ⟨_, [], hcalls⟩

end Reaction

namespace Session

variable {ω : Type} {s : Session} {env : Surroundings ω}

/-- A session answers a request for a file: the calls before the answer, and after it. -/
inductive Asks (s : Session) (env : Surroundings ω) (p₀ : Round (ω × List StoreCall)) :
    Text → List StoreCall → List StoreCall → Prop
  | intro {es : List Exchange} {p : Round (ω × List StoreCall)} {front back : List Request}
      {path body : Text} {c : Conversation} {v v₁ v₂ : ω × List StoreCall}
      {served : Reaction.Served} {cache cache' : Cache}
      (hes : s.Exchanges env.watched p₀ es p)
      (hreply : s.Receives env.watched p (.requestFiles (front ++ ⟨.file, path⟩ :: back)) c v)
      (hfront : Reaction.serveEach env.watched.store s.config.listingDepth front {} c.cache v
        = (served, cache, v₁))
      (hbody : Reaction.fileBody env.watched.store path cache v₁ = (body, cache', v₂)) :
      Asks s env p₀ path v₁.2 v₂.2

/-- The calls after a request are the first ones of the session. -/
theorem Asks.isPrefix {prompt path : Text} {w : ω} {before after : List StoreCall}
    (h : s.Asks env (s.start prompt (w, [])) path before after) :
    after <+: (s.run env.watched prompt (w, [])).2.2 := by
  cases h with
  | @intro es p front back path body c v v₁ v₂ served cache cache' hes hreply hfront hbody =>
    have hkeeps := s.keeps_prefix env v₂.2
    have heach : Reaction.serveEach env.watched.store s.config.listingDepth
        (front ++ ⟨.file, path⟩ :: back) {} c.cache v
        = Reaction.serveEach env.watched.store s.config.listingDepth back
          { served with files := served.files ++ [⟨path, body⟩] } cache' v₂ := by
      rw [Reaction.serveEach_append, hfront]
      dsimp only
      rw [Reaction.serveEach, hbody]
    rcases hback : Reaction.serveEach env.watched.store s.config.listingDepth back
      { served with files := served.files ++ [⟨path, body⟩] } cache' v₂ with ⟨served', cache₁, v'⟩
    rw [hback] at heach
    have hafter : v₂.2 <+: v'.2 :=
      @Reaction.serveEach_keeps _ _ _ hkeeps.store _ _ [] _ _ _ _ _ _ hback (List.prefix_refl _)
    have hrun : s.run env.watched prompt (w, [])
        = s.converse env.watched p.left p.conversation p.world := hes.converse_eq
    rw [hrun]
    obtain ⟨text, c', hreact⟩ : ∃ text c',
        s.react env.watched (.requestFiles (front ++ ⟨.file, path⟩ :: back)) c v
          = (.ok ("request_files".toList, text), c', v') :=
      ⟨_, _, by rw [react, Reaction.serve, heach]⟩
    exact hreply.converse_keeps hkeeps (fun _ hdisk h => (Prod.mk.inj hdisk).2 ▸ h) hreact hafter

/-- What a session asks its store for. -/
structure Fetches (s : Session) (env : Surroundings ω) (prompt : Text) (w : ω)
    (calls : List StoreCall) : Prop where
  once : FetchesOnce calls
  /-- A request for a file makes no call when the content of its key was supplied. Until then it
  begins with a read of the key. -/
  request : ∀ path before after, s.Asks env (s.start prompt (w, [])) path before after →
    after <+: calls ∧ (Supplied before (Cache.key path) → after = before) ∧
      (¬ Supplied before (Cache.key path) →
        ∃ found more, after = before ++ .read (Cache.key path) found :: more)

/-- A session fetches each content once, whatever the generator sends and the store answers. -/
theorem run_fetchesOnce (s : Session) (env : Surroundings ω) (prompt : Text) (w : ω) :
    ∃ result w' calls, s.run env prompt w = (result, w') ∧
      s.run env.watched prompt (w, []) = (result, w', calls) ∧ s.Fetches env prompt w calls := by
  have hkeeps := s.keeps_tracks env
  have htracks : (Cache.Tracks {} (w, ([] : List StoreCall)).2) := .empty
  obtain ⟨hresult, hworld⟩ := s.run_watched env prompt w []
  have honce : FetchesOnce (s.run env.watched prompt (w, [])).2.2 :=
    Keeps.converse (J := fun v => FetchesOnce v.2) (c := s.opening prompt) hkeeps
      Cache.Tracks.once (fun _ hdisk h => (Prod.mk.inj hdisk).2 ▸ h) htracks
  have hrequest : ∀ path before after, s.Asks env (s.start prompt (w, [])) path before after →
      (Supplied before (Cache.key path) → after = before) ∧
        (¬ Supplied before (Cache.key path) →
          ∃ found more, after = before ++ .read (Cache.key path) found :: more) := by
    rintro path before after ⟨hes, hreply, hfront, hbody⟩
    -- the requests before this one leave a cache that tracks the calls up to it
    have hserved := @Reaction.serveEach_keeps _ _ _ hkeeps.store _ _ [] _ _ _ _ _ _ hfront
      (hreply.keeps hkeeps (hes.keeps hkeeps htracks))
    obtain ⟨hcached, hmissing⟩ := Reaction.fileBody_calls hbody
    rw [← hserved.isSome_iff, Option.not_isSome_iff_eq_none]
    exact ⟨hcached, hmissing⟩
  refine ⟨_, _, _, Prod.ext hresult hworld, rfl, honce, fun path before after hasks => ?_⟩
  exact ⟨hasks.isPrefix, hrequest path before after hasks⟩

end Session

end Mend

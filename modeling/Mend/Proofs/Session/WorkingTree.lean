import Mathlib.Control.Monad.Basic
import Mend.Proofs.Session.Accounting
import Mend.Proofs.Session.Invariant
import Mend.Proofs.Store.Directory

/-!
# Sessions over a working directory

What a session answers to a request for a file of a working directory is what the file holds at that
moment (`Session.answers_current`), if the request and the writes of the session keep the file under
one key (`DirectoryStore.Sole`). Keys are texts and the directory reads the names of a path, so two
paths may lead to one file and have different keys: then the content that was read under one key
stays cached while the file is patched under the other (`Session.answers_stale`).
-/

namespace Mend

variable {υ : Type}

/-- A working directory, and a generator and a disk for the logs that leave it alone. -/
def Surroundings.inDirectory (σ : DirectoryStore)
    (send : List Message → υ → Except Failure Text × υ)
    (onDisk : (Disk → Except Failure Unit × Disk) → υ → Except Failure Unit × υ) :
    Surroundings (Disk × υ) where
  send messages w :=
    let (x, u) := send messages w.2
    (x, w.1, u)
  store := σ.store.onPart Prod.fst fun w d => (d, w.2)
  onDisk op w :=
    let (x, u) := onDisk op w.2
    (x, w.1, u)

namespace DirectoryStore

variable {σ : DirectoryStore} {d d' : Disk} {c : Cache} {ws : List Text}

/-- Paths with one key lead to the same file. -/
theorem resolve_congr {path other : Text} (h : Cache.key path = Cache.key other)
    {names : List Text} (hresolve : resolve other = .ok names) : resolve path = .ok names := by
  have hplain : Text.dropPrefix ['.', '/'] path.trim = Text.dropPrefix ['.', '/'] other.trim := h
  rw [resolve, hplain]
  exact hresolve

/-- A path that leads to an ordinary file, also when it is read by its key, and has the key of every
written path that leads there. -/
structure Sole (written : List Text) (path : Text) (names : List Text) : Prop where
  resolve_eq : resolve path = .ok names
  resolve_key : resolve (Cache.key path) = .ok names
  ordinary : IsOrdinary names
  key_eq : ∀ other ∈ written, resolve other = .ok names → Cache.key other = Cache.key path

theorem Sole.mono {written more : List Text} {path : Text} {names : List Text}
    (h : Sole more path names) (hsub : ∀ other ∈ written, other ∈ more) :
    Sole written path names :=
  { h with key_eq := fun other hother => h.key_eq other (hsub other hother) }

/-- A cache holds what the files hold that are kept under one key. -/
def Vouches (σ : DirectoryStore) (d : Disk) (c : Cache) (written : List Text) : Prop :=
  ∀ path names content, c.get? (Cache.key path) = some content → Sole written path names →
    d.readText (σ.fullPath names) = .ok content

namespace Vouches

/-- The store reads by the key, and a path that is kept under one key leads where its key does. -/
theorem found (h : σ.Vouches d c ws) {path content : Text}
    (hread : σ.read (Cache.key path) d = .ok (some content)) :
    σ.Vouches d (c.insert (Cache.key path) content) ws := by
  intro other names t hcached hsole
  by_cases heq : Cache.key other = Cache.key path
  · rw [heq, Cache.get?_insert_self] at hcached
    cases hcached
    obtain ⟨found, hresolve, htext⟩ := exists_readText_of_read hread
    have hsame : found = names :=
      Except.ok.inj (hresolve.symm.trans (heq ▸ hsole.resolve_key))
    exact hsame ▸ htext
  · rw [Cache.get?_insert_ne content heq] at hcached
    exact h other names t hcached hsole

/-- A write that fails may leave a hidden file, and no other is changed. -/
theorem denied (h : σ.Vouches d c ws) {path content : Text} {f : Failure}
    (hwrite : σ.write path content d = (.error f, d')) : σ.Vouches d' c ws := by
  intro other names t hcached hsole
  exact readText_of_write (isName_of_resolve hsole.resolve_eq) hsole.ordinary hwrite nofun
    (h other names t hcached hsole)

theorem wrote {c : Conversation} (h : σ.Vouches d c.cache c.written) {path content : Text}
    (hwrite : σ.write path content d = (.ok (), d')) :
    σ.Vouches d' (c.wrote path content).cache (c.wrote path content).written := by
  intro other names t hcached hsole
  rw [Conversation.wrote] at hcached
  dsimp only at hcached
  by_cases heq : Cache.key other = Cache.key path
  · rw [heq, Cache.get?_insert_self] at hcached
    cases hcached
    exact (write_spec (resolve_congr heq.symm hsole.resolve_eq) hwrite).2 rfl
  · -- another key is cached as before, and the write goes to another file
    rw [Cache.get?_insert_ne content heq] at hcached
    have hwritten : path ∈ (c.wrote path content).written :=
      Conversation.mem_written_wrote.2 (.inl rfl)
    have hother : resolve path ≠ .ok names := fun hresolve =>
      heq (hsole.key_eq path hwritten hresolve).symm
    have hbefore : Sole c.written other names :=
      hsole.mono fun q hq => Conversation.mem_written_wrote.2 (.inr hq)
    exact readText_of_write (isName_of_resolve hsole.resolve_eq) hsole.ordinary hwrite
      (fun _ => hother) (h other names t hcached hbefore)

end Vouches

end DirectoryStore

namespace Session

/-- A session keeps its cache right for the files that are kept under one key. -/
theorem keeps_vouches_directory (s : Session) (σ : DirectoryStore)
    (send : List Message → υ → Except Failure Text × υ)
    (onDisk : (Disk → Except Failure Unit × Disk) → υ → Except Failure Unit × υ) :
    s.Keeps (.inDirectory σ send onDisk) fun c ws w => σ.Vouches w.1 c ws where
  store.read _ h _ hvouches := by
    obtain ⟨-, rfl⟩ := Prod.mk.inj h
    exact hvouches
  store.found _ h hvouches := by
    obtain ⟨hread, rfl⟩ := Prod.mk.inj h
    exact hvouches.found hread
  store.list h hvouches := by
    obtain ⟨-, rfl⟩ := Prod.mk.inj h
    exact hvouches
  store.suggest h hvouches := by
    obtain ⟨-, rfl⟩ := Prod.mk.inj h
    exact hvouches
  store.denied h hvouches := by
    obtain ⟨hfailed, rfl⟩ := Prod.mk.inj h
    exact hvouches.denied (Prod.ext hfailed rfl)
  store.wrote h hvouches := by
    obtain ⟨hdone, rfl⟩ := Prod.mk.inj h
    exact hvouches.wrote (Prod.ext hdone rfl)
  send h hvouches := by
    obtain ⟨-, rfl⟩ := Prod.mk.inj h
    exact hvouches
  writeTurn _ h hvouches := by
    obtain ⟨-, rfl⟩ := Prod.mk.inj h
    exact hvouches

/-- A request for a file is answered with a content, which `Reaction.fileBody` shows as it is; the
paths that are written then, and the world. -/
inductive Answers {ω : Type} (s : Session) (env : Surroundings ω) (p₀ : Round ω) :
    List Text → Text → Text → ω → Prop
  | intro {es : List Exchange} {p : Round ω} {front back : List Request} {path content : Text}
      {c : Conversation} {w w₁ w₂ : ω} {served : Reaction.Served} {cache cache' : Cache}
      (hes : s.Exchanges env p₀ es p)
      (hreply : s.Receives env p (.requestFiles (front ++ ⟨.file, path⟩ :: back)) c w)
      (hfront : Reaction.serveEach env.store s.config.listingDepth front {} c.cache w
        = (served, cache, w₁))
      (hread : cache.readThrough env.store path w₁ = (.ok (some content), cache', w₂)) :
      Answers s env p₀ c.written path content w₂

/-- The first request of a reply is answered. -/
theorem Answers.of_first {ω : Type} {s : Session} {env : Surroundings ω} {p₀ p : Round ω}
    {es : List Exchange} {back : List Request} {path content : Text} {c : Conversation} {w : ω}
    (hes : s.Exchanges env p₀ es p)
    (hreply : s.Receives env p (.requestFiles (⟨.file, path⟩ :: back)) c w)
    (hread : (c.cache.readThrough env.store path w).1 = .ok (some content)) :
    s.Answers env p₀ c.written path content (c.cache.readThrough env.store path w).2.2 := by
  have hfront : Reaction.serveEach env.store s.config.listingDepth [] {} c.cache w
      = ({}, c.cache, w) := rfl
  exact .intro hes hreply hfront (Prod.ext hread rfl)

/-- A request for a file that is kept under one key is answered with what the file holds. -/
theorem answers_current {s : Session} {σ : DirectoryStore}
    {send : List Message → υ → Except Failure Text × υ}
    {onDisk : (Disk → Except Failure Unit × Disk) → υ → Except Failure Unit × υ}
    {prompt path content : Text} {w₀ w : Disk × υ} {written names : List Text}
    (hanswer : s.Answers (.inDirectory σ send onDisk) (s.start prompt w₀) written path content w)
    (hsole : DirectoryStore.Sole written path names) :
    w.1.readText (σ.fullPath names) = .ok content := by
  have hkeeps := s.keeps_vouches_directory σ send onDisk
  cases hanswer with
  | intro hes hreply hfront hread =>
    have hstart : σ.Vouches w₀.1 {} [] := fun path names t hcached => by cases hcached
    have hserved := Reaction.serveEach_keeps hkeeps.store hfront
      (hreply.keeps hkeeps (hes.keeps hkeeps hstart))
    obtain ⟨hvouches, hcached⟩ := Cache.readThrough_keeps hkeeps.store hread hserved
    exact hvouches path names content (hcached content rfl) hsole

/-- Without a log, a reply and the reaction to it make one more exchange. -/
theorem Exchanges.exists_concat {ω : Type} {s : Session} {env : Surroundings ω} {p q : Round ω}
    {es : List Exchange} {action : Action} {c c' : Conversation} {w w' : ω} {name : Text}
    {r : Reaction} (hes : s.Exchanges env p es q) (hlog : s.config.logDir = none)
    (hreply : s.Receives env q action c w)
    (hreact : s.react env action c w = (.ok (name, r), c', w')) :
    ∃ es', s.Exchanges env p es' ⟨q.left - 1, c'.say r.outbound, w'⟩ := by
  induction hes with
  | nil p =>
    cases hreply with
    | intro hsend haction =>
      subst haction
      exact ⟨_, .cons (.intro hsend hreact (logged_of_logDir_eq_none hlog ..)) (.nil _)⟩
  | cons step _ ih =>
    obtain ⟨es', hes'⟩ := ih hreply
    exact ⟨_, .cons step hes'⟩

/-- Without a log, a patch makes one more exchange. -/
theorem Exchanges.exists_patch {ω : Type} {s : Session} {env : Surroundings ω} {p q : Round ω}
    {es : List Exchange} {patch : Text} {c : Conversation} {w : ω}
    {x : Reaction × Conversation × ω} (hes : s.Exchanges env p es q)
    (hlog : s.config.logDir = none) (hreply : s.Receives env q (.applyPatch patch) c w)
    (hx : Reaction.applyPatch env.store s.config patch c w = x) :
    ∃ es', s.Exchanges env p es' ⟨q.left - 1, x.2.1.say x.1.outbound, x.2.2⟩ :=
  hes.exists_concat hlog hreply (by rw [react, hx])

/-- Without a log, an answer to requests makes one more exchange. -/
theorem Exchanges.exists_serve {ω : Type} {s : Session} {env : Surroundings ω} {p q : Round ω}
    {es : List Exchange} {requests : List Request} {c : Conversation} {w : ω}
    {x : Reaction × Conversation × ω} (hes : s.Exchanges env p es q)
    (hlog : s.config.logDir = none) (hreply : s.Receives env q (.requestFiles requests) c w)
    (hx : Reaction.serve env.store s.config requests c w = x) :
    ∃ es', s.Exchanges env p es' ⟨q.left - 1, x.2.1.say x.1.outbound, x.2.2⟩ :=
  hes.exists_concat hlog hreply (by rw [react, hx])

/-- A directory with one file below another directory. -/
def sampleTree : Disk where
  entries := [([], .dir), (["r".toList], .dir), (["r".toList, "src".toList], .dir),
    (["r".toList, "src".toList, "a".toList], .file "x\n".toUTF8)]
  home := []

/-- A patch for that file. -/
def sampleTreePatch : Text := "--- a/src/a\n+++ b/src/a\n@@ -1 +1 @@\n-x\n+y".toList

/-- A reply with that patch. -/
def patchingTree : Text := "%_Modified_%\n".toList ++ sampleTreePatch

/-- A reply that requests a path. -/
def requesting (path : String) : Text :=
  "%_Reply Required_%\n[\x7b\"type\":\"FILE_CONTENT\",\"path\":\"".toList ++ path.toList ++
    "\"\x7d]".toList

/-- The directory of the tree. -/
def sampleRoot : DirectoryStore := ⟨"/r".toList, 100⟩

/-- The directory of the tree, and a generator that gives replies one after the other. -/
def sampleDirectory (replies : List Text) : Surroundings (Disk × Unit) :=
  .inDirectory sampleRoot
    (fun messages u => (.ok (replies.getD (messages.length / 2 - 1) []), u)) fun _ u => (.ok (), u)

/-- The next reply arrives and leaves the directory alone. -/
theorem receives_sampleDirectory {replies : List Text} {s : Session} {left : Nat}
    {c : Conversation} {w : Disk × Unit} {reply : Text} {action : Action}
    (hreply : replies.getD (c.messages.length / 2 - 1) [] = reply)
    (haction : s.nextAction (c.receive reply) (Turn.parse reply) = action) :
    s.Receives (sampleDirectory replies) ⟨left + 1, c, w⟩ action (c.receive reply) w :=
  .intro (by rw [← hreply]; rfl) haction

/-- A file is patched and requested under the same path. -/
theorem answers_current_sample :
    let env := sampleDirectory [patchingTree, requesting "src/a"]
    let s : Session := ⟨{ maxTurns := 2 }, []⟩
    let path := "src/a".toList
    let names := ["src".toList, "a".toList]
    ∃ written w, s.Answers env (s.start [] (sampleTree, ())) written path "y\n".toList w ∧
      DirectoryStore.Sole written path names ∧
      w.1.readText (sampleRoot.fullPath names) = .ok "y\n".toList := by
  intro env s path names
  let c := (s.opening []).receive patchingTree
  let x := Reaction.applyPatch env.store s.config sampleTreePatch c (sampleTree, ())
  have hpatch : s.Receives env (s.start [] (sampleTree, ())) (.applyPatch sampleTreePatch) c
      (sampleTree, ()) := receives_sampleDirectory (by decide +kernel) (by decide +kernel)
  obtain ⟨es, hes⟩ := (Exchanges.nil _).exists_patch (x := x) rfl hpatch rfl
  let c₂ := (x.2.1.say x.1.outbound).receive (requesting "src/a")
  have hrequest : s.Receives env ⟨1, x.2.1.say x.1.outbound, x.2.2⟩
      (.requestFiles [⟨.file, path⟩]) c₂ x.2.2 :=
    receives_sampleDirectory (by decide +kernel) (by decide +kernel)
  have hread : (c₂.cache.readThrough env.store path x.2.2).1 = .ok (some "y\n".toList) := by
    decide +kernel
  have hanswer := Answers.of_first hes hrequest hread
  have hsole : DirectoryStore.Sole c₂.written path names := by
    refine ⟨by decide +kernel, by decide +kernel, ⟨by decide, ?_⟩, by decide +kernel⟩
    rintro ⟨name, hname⟩
    have hlength := congrArg (Option.map List.length) hname
    simp [names, DirectoryStore.temporaryName] at hlength
  exact ⟨_, _, hanswer, hsole, answers_current hanswer hsole⟩

/-- A path with a slash more leads to the same file, and shows what the file was before it was
patched. -/
theorem answers_stale :
    let env := sampleDirectory [requesting "src//a", patchingTree, requesting "src//a"]
    let s : Session := ⟨{ maxTurns := 3 }, []⟩
    let path := "src//a".toList
    let names := ["src".toList, "a".toList]
    ∃ written w, s.Answers env (s.start [] (sampleTree, ())) written path "x\n".toList w ∧
      DirectoryStore.resolve path = .ok names ∧
      w.1.readText (sampleRoot.fullPath names) = .ok "y\n".toList := by
  intro env s path names
  let c₁ := (s.opening []).receive (requesting "src//a")
  let x₁ := Reaction.serve env.store s.config [⟨.file, path⟩] c₁ (sampleTree, ())
  have hfirst : s.Receives env (s.start [] (sampleTree, ())) (.requestFiles [⟨.file, path⟩]) c₁
      (sampleTree, ()) := receives_sampleDirectory (by decide +kernel) (by decide +kernel)
  obtain ⟨es₁, hes₁⟩ := (Exchanges.nil _).exists_serve (x := x₁) rfl hfirst rfl
  -- the file is cached under the request's spelling, and patched under the other
  let c₂ := (x₁.2.1.say x₁.1.outbound).receive patchingTree
  let x₂ := Reaction.applyPatch env.store s.config sampleTreePatch c₂ x₁.2.2
  have hpatch : s.Receives env ⟨2, x₁.2.1.say x₁.1.outbound, x₁.2.2⟩
      (.applyPatch sampleTreePatch) c₂ x₁.2.2 :=
    receives_sampleDirectory (by decide +kernel) (by decide +kernel)
  obtain ⟨es₂, hes₂⟩ := hes₁.exists_patch (x := x₂) rfl hpatch rfl
  let c₃ := (x₂.2.1.say x₂.1.outbound).receive (requesting "src//a")
  have hrequest : s.Receives env ⟨1, x₂.2.1.say x₂.1.outbound, x₂.2.2⟩
      (.requestFiles [⟨.file, path⟩]) c₃ x₂.2.2 :=
    receives_sampleDirectory (by decide +kernel) (by decide +kernel)
  have hread : (c₃.cache.readThrough env.store path x₂.2.2).1 = .ok (some "x\n".toList) := by
    decide +kernel
  have hfile : (c₃.cache.readThrough env.store path x₂.2.2).2.2.1.readText
      (sampleRoot.fullPath names) = .ok "y\n".toList := by
    decide +kernel
  exact ⟨_, _, .of_first hes₂ hrequest hread, by decide +kernel, hfile⟩

end Session

end Mend

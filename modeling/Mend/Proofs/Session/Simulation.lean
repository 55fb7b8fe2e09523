import Mend.Proofs.Patch.Simulation
import Mend.Session.Run

/-!
# Sessions in related surroundings

A session has one result in two surroundings that answer alike and keep their worlds related
(`Session.run_agrees`). So it cannot tell whether its surroundings remember more than they show
(`Session.run_recorded`: a record of the calls of the generator changes nothing), and what the
operations of a store preserve is preserved by every reaction (`Session.react_agrees`).
-/

namespace Mend

variable {ω υ : Type} {R : ω → υ → Prop}

/-- Two stores that answer reads alike and keep their worlds related. -/
structure Store.ReadsAlike (R : ω → υ → Prop) (s : Store ω) (t : Store υ) : Prop where
  read : ∀ path {w u}, R w u → Agrees R (s.read path w) (t.read path u)
  list : ∀ path depth {w u}, R w u → Agrees R (s.list path depth w) (t.list path depth u)
  suggest : ∀ path {w u}, R w u → Agrees R (s.suggest path w) (t.suggest path u)

/-- Two stores that answer alike and keep their worlds related. -/
structure Store.Simulates (R : ω → υ → Prop) (s : Store ω) (t : Store υ) : Prop
    extends s.ReadsAlike R t where
  write : ∀ path content {w u}, R w u → Agrees R (s.write path content w) (t.write path content u)

/-- Two surroundings that answer alike and keep their worlds related. -/
structure Surroundings.Simulates (R : ω → υ → Prop) (env : Surroundings ω)
    (other : Surroundings υ) : Prop where
  send : ∀ messages {w u}, R w u → Agrees R (env.send messages w) (other.send messages u)
  store : env.store.Simulates R other.store
  onDisk : ∀ op {w u}, R w u → Agrees R (env.onDisk op w) (other.onDisk op u)

/-- A store on a part of a world answers as it does alone, and leaves the rest of the world. -/
theorem Store.simulates_onPart {α : Type} (s : Store υ) (part : ω → υ) (put : ω → υ → ω)
    (rest : ω → α) (hpart : ∀ w u, part (put w u) = u) (hrest : ∀ w u, rest (put w u) = rest w)
    (a : α) : (s.onPart part put).Simulates (fun w u => u = part w ∧ rest w = a) s := by
  refine ⟨⟨?_, ?_, ?_⟩, ?_⟩
  all_goals
    intros
    rename_i hwu
    obtain ⟨rfl, rfl⟩ := hwu
    exact ⟨rfl, (hpart ..).symm, hrest ..⟩

/-! ## Reactions -/

section Stores

variable {s : Store ω} {t : Store υ}

section Reads

variable (h : s.ReadsAlike R t)

include h

theorem Cache.readThrough_agrees (path : Text) (c : Cache) {w : ω} {u : υ} (hwu : R w u) :
    Agrees (Agrees R) (c.readThrough s path w) (c.readThrough t path u) := by
  rw [readThrough, readThrough]
  cases c.get? (key path) with
  | some content => exact .of_rel (.of_rel hwu _) _
  | none =>
    obtain ⟨answer, w', u', hs, ht, hrel⟩ := (h.read (key path) hwu).exists_eq
    simp only [hs, ht]
    cases answer with
    | error f => exact .of_rel (.of_rel hrel _) _
    | ok found =>
      cases found with
      | none => exact .of_rel (.of_rel hrel _) _
      | some content => exact .of_rel (.of_rel hrel _) _

namespace Reaction

theorem fileBody_agrees (path : Text) (c : Cache) {w : ω} {u : υ} (hwu : R w u) :
    Agrees (Agrees R) (fileBody s path c w) (fileBody t path c u) := by
  obtain ⟨answer, c', w', u', hs, ht, hrel⟩ := (Cache.readThrough_agrees h path c hwu).exists_eq_pair
  rw [fileBody, fileBody, hs, ht]
  cases answer with
  | error f => exact .of_rel (.of_rel hrel _) _
  | ok found =>
    cases found with
    | some content => exact .of_rel (.of_rel hrel _) _
    | none =>
      obtain ⟨similar, w'', u'', hs', ht', hrel'⟩ := (h.suggest path hrel).exists_eq
      simp only [hs', ht']
      exact .of_rel (.of_rel hrel' _) _

theorem listingBody_agrees (depth : Nat) (path : Text) {w : ω} {u : υ} (hwu : R w u) :
    Agrees R (listingBody s depth path w) (listingBody t depth path u) := by
  obtain ⟨answer, w', u', hs, ht, hrel⟩ := (h.list path depth hwu).exists_eq
  rw [listingBody, listingBody, hs, ht]
  cases answer with
  | error f => exact .of_rel hrel _
  | ok found =>
    cases found with
    | none => exact .of_rel hrel _
    | some entries => exact .of_rel hrel _

theorem serveEach_agrees (depth : Nat) (requests : List Request) (served : Served) (c : Cache)
    {w : ω} {u : υ} (hwu : R w u) :
    Agrees (Agrees R) (serveEach s depth requests served c w)
      (serveEach t depth requests served c u) := by
  induction requests generalizing served c w u with
  | nil => exact .of_rel (.of_rel hwu _) _
  | cons request rest ih =>
    obtain ⟨kind, path⟩ := request
    cases kind with
    | file =>
      obtain ⟨body, c', w', u', hs, ht, hrel⟩ := (fileBody_agrees h path c hwu).exists_eq_pair
      rw [serveEach, serveEach, hs, ht]
      exact ih _ c' hrel
    | listing =>
      obtain ⟨body, w', u', hs, ht, hrel⟩ := (listingBody_agrees h depth path hwu).exists_eq
      rw [serveEach, serveEach, hs, ht]
      exact ih _ c hrel

theorem serve_agrees (cfg : Config) (requests : List Request) (c : Conversation) {w : ω} {u : υ}
    (hwu : R w u) : Agrees (Agrees R) (serve s cfg requests c w) (serve t cfg requests c u) := by
  obtain ⟨served, cache, w', u', hs, ht, hrel⟩ :=
    (serveEach_agrees h cfg.listingDepth requests {} c.cache hwu).exists_eq_pair
  simp only [serve, hs, ht]
  exact .of_rel (.of_rel hrel _) _

theorem load_agrees (path : Text) {p : Cache × ω} {q : Cache × υ} (hpq : Agrees R p q) :
    Agrees (Agrees R) (load s p path) (load t q path) := by
  obtain ⟨c, w, u, rfl, rfl, hwu⟩ := hpq.exists_eq
  obtain ⟨answer, c', w', u', hs, ht, hrel⟩ := (Cache.readThrough_agrees h path c hwu).exists_eq_pair
  simp only [load, hs, ht]
  cases answer with
  | error f => exact .of_rel (.of_rel hrel _) _
  | ok found =>
    cases found with
    | none => exact .of_rel (.of_rel hrel _) _
    | some content => exact .of_rel (.of_rel hrel _) _

end Reaction

end Reads

namespace Reaction

variable (h : s.Simulates R t)

include h

theorem deliverOne_agrees (file : PatchedFile) (delivery : Delivery) (c : Conversation) {w : ω}
    {u : υ} (hwu : R w u) :
    Agrees (Agrees R) (deliverOne s file delivery c w) (deliverOne t file delivery c u) := by
  obtain ⟨answer, w', u', hs, ht, hrel⟩ := (h.write file.path file.content hwu).exists_eq
  simp only [deliverOne, hs, ht]
  cases answer with
  | error f => exact .of_rel (.of_rel hrel _) _
  | ok done => exact .of_rel (.of_rel hrel _) _

theorem deliver_agrees (files : List PatchedFile) (delivery : Delivery) (c : Conversation) {w : ω}
    {u : υ} (hwu : R w u) :
    Agrees (Agrees R) (deliver s files delivery c w) (deliver t files delivery c u) := by
  induction files generalizing delivery c w u with
  | nil => exact .of_rel (.of_rel hwu _) _
  | cons file rest ih =>
    obtain ⟨delivery', c', w', u', hs, ht, hrel⟩ :=
      (deliverOne_agrees h file delivery c hwu).exists_eq_pair
    rw [deliver, deliver, hs, ht]
    exact ih delivery' c' hrel

theorem applyPatch_agrees (cfg : Config) (patch : Text) (c : Conversation) {w : ω} {u : υ}
    (hwu : R w u) :
    Agrees (Agrees R) (applyPatch s cfg patch c w) (applyPatch t cfg patch c u) := by
  -- the loader's state is the cache with the world
  have hstart : Agrees R (c.cache, w) (c.cache, u) := .of_rel hwu _
  obtain ⟨answer, cache, w', u', hs, ht, hrel⟩ :=
    (Patch.apply_agrees (load_agrees h.toReadsAlike) cfg.strictContext patch hstart).exists_eq_pair
  simp only [applyPatch, hs, ht]
  cases answer with
  | error e => exact .of_rel (.of_rel hrel _) _
  | ok result =>
    obtain ⟨delivery, c', w'', u'', hs', ht', hrel'⟩ :=
      (deliver_agrees h result.files {} { c with cache } hrel).exists_eq_pair
    simp only [hs', ht']
    exact .of_rel (.of_rel hrel' _) _

end Reaction

end Stores

/-! ## Runs -/

namespace Session

variable {env : Surroundings ω} {other : Surroundings υ}

theorem react_agrees (h : env.store.Simulates R other.store) (s : Session) (action : Action)
    (c : Conversation) {w : ω} {u : υ} (hwu : R w u) :
    Agrees (Agrees R) (s.react env action c w) (s.react other action c u) := by
  cases action with
  | done reason => exact .of_rel (.of_rel hwu _) _
  | requestFiles requests =>
    obtain ⟨r, c', w', u', hs, ht, hrel⟩ :=
      (Reaction.serve_agrees h.toReadsAlike s.config requests c hwu).exists_eq_pair
    simp only [react, hs, ht]
    exact .of_rel (.of_rel hrel _) _
  | applyPatch patch =>
    obtain ⟨r, c', w', u', hs, ht, hrel⟩ :=
      (Reaction.applyPatch_agrees h s.config patch c hwu).exists_eq_pair
    simp only [react, hs, ht]
    exact .of_rel (.of_rel hrel _) _
  | followUp kind => exact .of_rel (.of_rel hwu _) _

/-- A reaction leaves what the operations of the store leave. -/
theorem react_rest {α : Type} {part : ω → υ} {rest : ω → α}
    (h : ∀ a, env.store.Simulates (fun w u => u = part w ∧ rest w = a) other.store) {s : Session}
    {action : Action} {c c' : Conversation} {w w' : ω} {x : Except DoneReason (Text × Reaction)}
    (hreact : s.react env action c w = (x, c', w')) : rest w' = rest w := by
  have hagrees := react_agrees (h (rest w)) s action c ⟨rfl, rfl⟩
  rw [hreact] at hagrees
  exact hagrees.rel.rel.2

variable (h : env.Simulates R other)

include h

theorem logged_agrees (s : Session) (record : TurnLog → Disk → Except Failure Unit × Disk) {w : ω}
    {u : υ} (hwu : R w u) : Agrees R (s.logged env record w) (s.logged other record u) := by
  rw [logged, logged]
  cases s.log? with
  | none => exact .of_rel hwu _
  | some log => exact h.onDisk (record log) hwu

theorem finish_agrees (s : Session) (c : Conversation) (reason : DoneReason) {w : ω} {u : υ}
    (hwu : R w u) : Agrees R (s.finish env c reason w) (s.finish other c reason u) := by
  obtain ⟨answer, w', u', hs, ht, hrel⟩ :=
    (logged_agrees h s (fun log => log.writeTranscript c.messages) hwu).exists_eq
  rw [finish, finish, hs, ht]
  cases answer with
  | error f => exact .of_rel hrel _
  | ok done => exact .of_rel hrel _

theorem converse_agrees (s : Session) (left : Nat) (c : Conversation) {w : ω} {u : υ}
    (hwu : R w u) : Agrees R (s.converse env left c w) (s.converse other left c u) := by
  induction left generalizing c w u with
  | zero => exact finish_agrees h s c .turnLimitExceeded hwu
  | succ left ih =>
    -- a turn is sent, reacted to and logged; each of the three keeps the worlds related
    obtain ⟨answer, w₁, u₁, hs₁, ht₁, hrel₁⟩ := (h.send c.messages hwu).exists_eq
    rw [converse, converse, hs₁, ht₁]
    cases answer with
    | error f => exact .of_rel hrel₁ _
    | ok reply =>
      obtain ⟨reaction, c₂, w₂, u₂, hs₂, ht₂, hrel₂⟩ := (react_agrees h.store s
        (s.nextAction (c.receive reply) (Turn.parse reply)) (c.receive reply) hrel₁).exists_eq_pair
      simp only [hs₂, ht₂]
      cases reaction with
      | error reason =>
        obtain ⟨written, w₃, u₃, hs₃, ht₃, hrel₃⟩ := (logged_agrees h s (fun log => log.writeTurn
          (record c₂ reply ("done:".toList ++ reason.name) none {})) hrel₂).exists_eq
        simp only [hs₃, ht₃]
        cases written with
        | error f => exact .of_rel hrel₃ _
        | ok done => exact finish_agrees h s c₂ reason hrel₃
      | ok sent =>
        obtain ⟨action, r⟩ := sent
        obtain ⟨written, w₃, u₃, hs₃, ht₃, hrel₃⟩ := (logged_agrees h s (fun log => log.writeTurn
          (record c₂ reply action (some r.outbound) r.trace)) hrel₂).exists_eq
        simp only [hs₃, ht₃]
        cases written with
        | error f => exact .of_rel hrel₃ _
        | ok done => exact ih _ hrel₃

/-- A session has one result in surroundings that answer alike. -/
theorem run_agrees (s : Session) (prompt : Text) {w : ω} {u : υ} (hwu : R w u) :
    Agrees R (s.run env prompt w) (s.run other prompt u) :=
  converse_agrees h s s.config.maxTurns (s.opening prompt) hwu

end Session

/-! ## Recorded calls -/

/-- A call of a generator: the transcript that it was sent and what it answered. -/
structure Call where
  /-- The transcript. -/
  sent : List Message
  /-- The answer. -/
  answer : Except Failure Text

/-- Surroundings that also keep the calls of the generator, in their order. -/
def Surroundings.recorded (env : Surroundings ω) : Surroundings (ω × List Call) where
  send messages w :=
    let (answer, ω) := env.send messages w.1
    (answer, ω, w.2 ++ [⟨messages, answer⟩])
  store := env.store.onPart Prod.fst fun w ω => (ω, w.2)
  onDisk op w :=
    let (answer, ω) := env.onDisk op w.1
    (answer, ω, w.2)

/-- The operations of the store leave the record alone. -/
theorem Surroundings.store_simulates_recorded (env : Surroundings ω) (calls : List Call) :
    env.recorded.store.Simulates (fun w u => u = w.1 ∧ w.2 = calls) env.store :=
  env.store.simulates_onPart Prod.fst (fun w ω => (ω, w.2)) Prod.snd (fun _ _ => rfl)
    (fun _ _ => rfl) calls

theorem Surroundings.simulates_recorded (env : Surroundings ω) :
    env.recorded.Simulates (fun w u => u = w.1) env := by
  refine ⟨?_, ?_, ?_⟩
  · rintro messages w u rfl
    exact ⟨rfl, rfl⟩
  · refine ⟨⟨?_, ?_, ?_⟩, ?_⟩
    all_goals
      intros
      rename_i hwu
      obtain rfl := hwu
      exact ⟨rfl, rfl⟩
  · rintro op w u rfl
    exact ⟨rfl, rfl⟩

/-- Recording the calls changes neither the result of a session nor its world. -/
theorem Session.run_recorded (s : Session) (env : Surroundings ω) (prompt : Text) (w : ω)
    (calls : List Call) :
    (s.run env prompt w).1 = (s.run env.recorded prompt (w, calls)).1 ∧
      (s.run env prompt w).2 = (s.run env.recorded prompt (w, calls)).2.1 := by
  have h := Session.run_agrees env.simulates_recorded s prompt (w := (w, calls)) rfl
  exact ⟨h.eq.symm, h.rel⟩

end Mend

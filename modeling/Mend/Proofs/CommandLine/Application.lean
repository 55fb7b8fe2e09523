import Mathlib.Control.Monad.Basic
import Mend.CommandLine.Repair
import Mend.Proofs.Disk.Subtrees
import Mend.Proofs.Patch.Structure
import Mend.Proofs.Store.Directory
import Mend.Session.Reaction

/-!
# Patches from the command line

A patch does the same to a working directory, whether a reply in a fresh session or the command
line applies it (`RepairCommand.execute_apply_agrees`): both get one result, or are refused for one
reason, and when every write succeeds they leave one disk.

The session reads through its cache and the command line does not, so the loaders are related by
what is cached (`Cache.Mirrors`): each entry is what the store would answer. The session goes on
after a write that fails and the command line stops there; so both see a failure if there is one
(`Reaction.deliver_of_writeTo_error`), and else they write the same files
(`Reaction.deliver_of_writeTo_ok`).
-/

namespace Mend

/-! ## Loaders -/

section Stores

variable {ω : Type} {s t : Store ω} {w w' : ω}

/-- Two stores that answer a read alike, and are left as they were. -/
structure Store.ReadsSame (s t : Store ω) (w : ω) (path : Text) : Prop where
  eq : s.read path w = t.read path w
  unchanged : (t.read path w).2 = w

/-- A cache in a world where each of its entries is what the store answers. -/
structure Cache.Mirrors (s : Store ω) (w : ω) (state : Cache × ω) (w' : ω) : Prop where
  cached : state.2 = w
  direct : w' = w
  entries : ∀ path content, state.1.get? path = some content →
    s.read path w = (.ok (some content), w)

namespace Cache.Mirrors

theorem empty (s : Store ω) (w : ω) : Mirrors s w ({}, w) w := ⟨rfl, rfl, nofun⟩

theorem insert {c : Cache} (h : Mirrors s w (c, w) w) {path content : Text}
    (hread : s.read path w = (.ok (some content), w)) :
    Mirrors s w (c.insert path content, w) w where
  cached := rfl
  direct := rfl
  entries other found hfound := by
    by_cases heq : other = path
    · subst heq
      rw [get?_insert_self] at hfound
      obtain rfl := Option.some.inj hfound
      exact hread
    · rw [get?_insert_ne content heq] at hfound
      exact h.entries other found hfound

end Cache.Mirrors

namespace Reaction

/-- What is loaded through the cache is what is loaded without it. -/
theorem load_agrees_loadFrom {path : Text} (hkey : Cache.key path = path)
    (hreads : s.ReadsSame t w path) {state : Cache × ω} (h : Cache.Mirrors s w state w') :
    Agrees (Cache.Mirrors s w) (load s state path) (RepairCommand.loadFrom t w' path) := by
  obtain ⟨c, v⟩ := state
  obtain rfl : v = w := h.cached
  obtain rfl := h.direct
  rw [load, RepairCommand.loadFrom, Cache.readThrough, hkey]
  cases hcached : c.get? path with
  | some content =>
    have hread := h.entries path content hcached
    rw [← hreads.eq, hread]
    exact .of_rel h _
  | none =>
    have hsame := hreads.unchanged
    have heq := hreads.eq
    rcases hread : t.read path w' with ⟨_ | found, v⟩
    · rw [hread] at hsame heq
      obtain rfl : v = w' := hsame
      dsimp only
      rw [heq]
      exact .of_rel h _
    · rw [hread] at hsame heq
      obtain rfl : v = w' := hsame
      dsimp only
      rw [heq]
      cases found with
      | none => exact .of_rel h _
      | some content => exact .of_rel (h.insert heq) _

/-! ## Writes -/

/-- The delivery after a file that could not be written. -/
def Delivery.failed (delivery : Delivery) (c : Conversation) (file : PatchedFile) (f : Failure) :
    Delivery :=
  ⟨delivery.diff ++ Text.unifiedDiff file.path
      ((c.cache.get? (Cache.key file.path)).getD []) file.content,
    delivery.failures ++ [file.path ++ ": ".toList ++ f.chain]⟩

theorem deliver_cons_error {file : PatchedFile} {f : Failure}
    (h : s.write file.path file.content w = (.error f, w')) (rest : List PatchedFile)
    (delivery : Delivery) (c : Conversation) :
    deliver s (file :: rest) delivery c w = deliver s rest (delivery.failed c file f) c w' := by
  rw [deliver, deliverOne, h]
  rfl

theorem deliver_cons_ok {file : PatchedFile}
    (h : s.write file.path file.content w = (.ok (), w')) (rest : List PatchedFile)
    (delivery : Delivery) (c : Conversation) :
    ∃ diff, deliver s (file :: rest) delivery c w
      = deliver s rest ⟨diff, delivery.failures⟩ (c.wrote file.path file.content) w' := by
  rw [deliver, deliverOne, h]
  exact ⟨_, rfl⟩

/-- Failures are only added to. -/
theorem failures_prefix (s : Store ω) (files : List PatchedFile) (delivery : Delivery)
    (c : Conversation) (w : ω) :
    delivery.failures <+: (deliver s files delivery c w).1.failures := by
  induction files generalizing delivery c w with
  | nil => exact List.prefix_refl _
  | cons file rest ih =>
    rcases hfile : s.write file.path file.content w with ⟨f | ⟨⟨⟩⟩, w'⟩
    · rw [deliver_cons_error hfile]
      exact (List.prefix_append _ _).trans (ih (delivery.failed c file f) c w')
    · obtain ⟨diff, heq⟩ := deliver_cons_ok hfile rest delivery c
      rw [heq]
      exact ih ⟨diff, delivery.failures⟩ (c.wrote file.path file.content) w'

/-- If every write succeeds, going on after failures is no different. -/
theorem deliver_of_writeTo_ok (hwrite : s.write = t.write) {files : List PatchedFile}
    (h : RepairCommand.writeTo t files w = (.ok (), w')) (delivery : Delivery) (c : Conversation) :
    (deliver s files delivery c w).1.failures = delivery.failures ∧
      (deliver s files delivery c w).2.2 = w' := by
  induction files generalizing delivery c w with
  | nil =>
    cases h
    exact ⟨rfl, rfl⟩
  | cons file rest ih =>
    rw [RepairCommand.writeTo, ← hwrite] at h
    rcases hfile : s.write file.path file.content w with ⟨f | ⟨⟨⟩⟩, v⟩
    · rw [hfile] at h
      cases h
    · rw [hfile] at h
      obtain ⟨diff, heq⟩ := deliver_cons_ok hfile rest delivery c
      rw [heq]
      exact ih h ⟨diff, delivery.failures⟩ _

/-- A failure that stops writing is reported by going on. -/
theorem deliver_of_writeTo_error (hwrite : s.write = t.write) {files : List PatchedFile}
    {f : Failure} (h : RepairCommand.writeTo t files w = (.error f, w')) (delivery : Delivery)
    (c : Conversation) : (deliver s files delivery c w).1.failures ≠ [] := by
  induction files generalizing delivery c w with
  | nil => cases h
  | cons file rest ih =>
    rw [RepairCommand.writeTo, ← hwrite] at h
    rcases hfile : s.write file.path file.content w with ⟨first | ⟨⟨⟩⟩, v⟩
    · rw [deliver_cons_error hfile]
      intro hnone
      have hprefix := failures_prefix s rest (delivery.failed c file first) c v
      rw [hnone, List.prefix_nil, Delivery.failed] at hprefix
      exact absurd hprefix (by simp)
    · rw [hfile] at h
      obtain ⟨diff, heq⟩ := deliver_cons_ok hfile rest delivery c
      rw [heq]
      exact ih h ⟨diff, delivery.failures⟩ _

end Reaction

end Stores

/-! ## Directories -/

theorem Disk.find_of_readBytes {d : Disk} {path : Text} {data : ByteArray}
    (h : d.readBytes path = .ok data) : ∃ loc, d.find path = .ok (loc, .file data) := by
  rw [readBytes] at h
  split at h
  · cases h
  · cases h
  · rename_i loc data' hfind
    cases h
    exact ⟨loc, hfind⟩

/-- The limit on files does not matter where no file is over it. -/
theorem DirectoryStore.read_eq_of_small {root : Text} {limit other : Nat} {d : Disk}
    (hsmall : ∀ names data, d.node? (Disk.destination d.home root ++ names) = some (.file data) →
      data.size ≤ limit ∧ data.size ≤ other) (path : Text) :
    read ⟨root, limit⟩ path d = read ⟨root, other⟩ path d := by
  rw [read, read]
  cases hresolve : resolve path with
  | error f => rfl
  | ok names =>
    have hfull : fullPath ⟨root, other⟩ names = fullPath ⟨root, limit⟩ names := rfl
    dsimp only
    rw [hfull]
    split
    · rfl
    cases hdata : d.readBytes (fullPath ⟨root, limit⟩ names) with
    | error e => rfl
    | ok data =>
      obtain ⟨loc, hfind⟩ := Disk.find_of_readBytes hdata
      obtain ⟨hwalk, hnode⟩ := Disk.find_eq_ok.1 hfind
      rw [Disk.destination_of_walk hwalk,
        destination_fullPath d.home (isName_of_resolve hresolve)] at hnode
      obtain ⟨hown, hother⟩ := hsmall names data hnode
      dsimp only
      rw [if_neg (Nat.not_lt.2 hown), if_neg (Nat.not_lt.2 hother)]

/-! ## Two ways to apply a patch -/

namespace RepairCommand

/-- The store of a session in a working directory. -/
def sessionStore (workdir : Text) (cfg : Config) : Store Disk :=
  DirectoryStore.store ⟨workdir, cfg.maxFileBytes⟩

/-- What a patch comes to in a session, with the cache and the disk then. -/
def inSession (workdir : Text) (cfg : Config) (patch : Text) (c : Conversation) (d : Disk) :
    Except PatchError ApplyResult × Cache × Disk :=
  Patch.apply cfg.strictContext (Reaction.load (sessionStore workdir cfg)) patch (c.cache, d)

/-- What a session and a command do about one patch. -/
structure AppliesAlike (workdir : Text) (cfg : Config) (patch : Text) (c : Conversation) (d : Disk)
    (session : Reaction × Conversation × Disk) (command : Printed × Disk) : Prop where
  /-- The patch has one result, or is rejected for one reason. -/
  result : (inSession workdir cfg patch c d).1
    = (Patch.apply cfg.strictContext (loadFrom (patchStore workdir)) patch d).1
  /-- Both tell why the patch is rejected, and leave the disk as it was. -/
  rejected : ∀ e, (inSession workdir cfg patch c d).1 = .error e →
    session.1.trace = { error := some e.message } ∧
      command.1 = { code := 1, errors := e.kind ++ [':', ' '] ++ e.message ++ ['\n'] } ∧
      session.2.2 = d ∧ command.2 = d
  /-- Both tell the warnings. A write fails in the session if one fails in the command. -/
  accepted : ∀ r cache w, inSession workdir cfg patch c d = (.ok r, cache, w) →
    session.1.trace = { patchedFiles := r.files.map PatchedFile.path
                        warnings := r.warnings.map PatchWarning.message } ∧
      warningLines r.warnings <+: command.1.errors ∧
      (command.1.code = 0 ↔ (Reaction.deliver (sessionStore workdir cfg) r.files {}
        { c with cache } w).1.failures = [])
  /-- They leave one disk, if no write fails. -/
  disk : command.1.code = 0 → session.2.2 = command.2

section Directory

variable {workdir patch : Text} {cfg : Config} {d : Disk} {c : Conversation}

/-- The patch has one result, and while it is applied the cache is a mirror of the disk. -/
theorem inSession_agrees (hlimit : cfg.maxFileBytes < word64)
    (hsmall : ∀ names data, d.node? (Disk.destination d.home workdir ++ names)
      = some (.file data) → data.size ≤ cfg.maxFileBytes)
    (hkeys : ∀ edits e, Patch.edits patch = .ok edits → e ∈ edits → e.deletes = false →
      Cache.key e.path = e.path)
    (hfresh : c.cache = {}) :
    Agrees (Cache.Mirrors (sessionStore workdir cfg) d) (inSession workdir cfg patch c d)
      (Patch.apply cfg.strictContext (loadFrom (patchStore workdir)) patch d) := by
  have hreads : ∀ path, (sessionStore workdir cfg).ReadsSame (patchStore workdir) d path := by
    intro path
    refine ⟨?_, rfl⟩
    have hsame : DirectoryStore.read ⟨workdir, cfg.maxFileBytes⟩ path d
        = DirectoryStore.read ⟨workdir, word64 - 1⟩ path d := by
      refine DirectoryStore.read_eq_of_small (fun names data hdata => ?_) path
      have hsize := hsmall names data hdata
      exact ⟨hsize, Nat.le_trans hsize (Nat.le_sub_one_of_lt hlimit)⟩
    exact congrArg (·, d) hsame
  rw [inSession, hfresh]
  refine Patch.apply_agrees_on (fun path hopens => ?_) _ (.empty _ d)
  obtain ⟨edits, e, hedits, he, hkept, rfl⟩ := hopens.exists_edit
  exact Reaction.load_agrees_loadFrom (hkeys edits e hedits he hkept) (hreads e.path)

/-- A patch for paths that are their own keys does the same in a fresh session and from the command
line, if no file of the directory is over the limit of the session. -/
theorem execute_apply_agrees (hlimit : cfg.maxFileBytes < word64)
    (hsmall : ∀ names data, d.node? (Disk.destination d.home workdir ++ names)
      = some (.file data) → data.size ≤ cfg.maxFileBytes)
    (hkeys : ∀ edits e, Patch.edits patch = .ok edits → e ∈ edits → e.deletes = false →
      Cache.key e.path = e.path)
    {file : Text} (hfile : d.readText file = .ok patch) (hfresh : c.cache = {}) (session : Text) :
    AppliesAlike workdir cfg patch c d
      (Reaction.applyPatch (sessionStore workdir cfg) cfg patch c d)
      (execute session (.apply workdir file true cfg.strictContext) d) := by
  have hwrite : (sessionStore workdir cfg).write = (patchStore workdir).write := rfl
  have hagrees := inSession_agrees hlimit hsmall hkeys hfresh
  obtain ⟨result, ⟨cache, w⟩, w', hsession, hcommand, hmirrors⟩ := hagrees.exists_eq
  obtain rfl : w = d := hmirrors.cached
  obtain rfl : w' = w := hmirrors.direct
  rw [execute, hfile]
  dsimp only
  rw [applyPatch, hcommand]
  dsimp only
  rw [Reaction.applyPatch, ← inSession, hsession]
  cases result with
  | error e =>
    refine ⟨hagrees.eq, ?_, ?_, nofun⟩
    · intro e' he
      rw [hsession] at he
      cases he
      exact ⟨rfl, rfl, rfl, rfl⟩
    · intro r cache' v heq
      rw [hsession] at heq
      cases heq
  | ok r =>
    dsimp only
    rw [if_pos rfl]
    refine ⟨hagrees.eq, ?_, ?_, ?_⟩
    · intro e he
      rw [hsession] at he
      cases he
    · intro r' cache' v heq
      rw [hsession] at heq
      cases heq
      rcases hwrites : writeTo (patchStore workdir) r.files w' with ⟨f | ⟨⟨⟩⟩, v⟩
      · have hfailed := Reaction.deliver_of_writeTo_error hwrite hwrites {} { c with cache }
        exact ⟨rfl, List.prefix_append _ _, iff_of_false (by simp [failed]) hfailed⟩
      · have hnone := (Reaction.deliver_of_writeTo_ok hwrite hwrites {} { c with cache }).1
        exact ⟨rfl, List.prefix_append _ _, iff_of_true rfl hnone⟩
    · rcases hwrites : writeTo (patchStore workdir) r.files w' with ⟨f | ⟨⟨⟩⟩, v⟩
      · exact fun hcode => absurd hcode (by simp [failed])
      · exact fun _ => (Reaction.deliver_of_writeTo_ok hwrite hwrites {} { c with cache }).2

end Directory

/-- A patch that changes a file and makes one. -/
def benchPatch : Text :=
  "--- a/a\n+++ b/a\n@@ -1 +1 @@\n-x\n+y\n--- /dev/null\n+++ b/n/z\n@@ -0,0 +1 @@\n+z\n".toList

/-- A disk with a working directory and the patch beside it. -/
def sampleBench : Disk where
  entries := [([], .dir), (["w".toList], .dir), (["w".toList, "a".toList], .file "x\n".toUTF8),
    (["p".toList], .file benchPatch.toBytes)]
  home := []

theorem execute_apply_agrees_sample :
    ({} : Config).maxFileBytes < word64 ∧
      (∀ names data, sampleBench.node? (Disk.destination [] "/w".toList ++ names)
        = some (.file data) → data.size ≤ ({} : Config).maxFileBytes) ∧
      (∀ edits e, Patch.edits benchPatch = .ok edits → e ∈ edits → e.deletes = false →
        Cache.key e.path = e.path) ∧
      sampleBench.readText "/p".toList = .ok benchPatch ∧
      AppliesAlike "/w".toList {} benchPatch {} sampleBench
        (Reaction.applyPatch (sessionStore "/w".toList {}) {} benchPatch {} sampleBench)
        (execute [] (.apply "/w".toList "/p".toList true ({} : Config).strictContext)
          sampleBench) ∧
      (execute [] (.apply "/w".toList "/p".toList true ({} : Config).strictContext)
        sampleBench).1 = { code := 0, errors := "wrote 2 file(s)\n".toList } := by
  have hlimit : ({} : Config).maxFileBytes < word64 := by decide +kernel
  have hsmall : ∀ names data, sampleBench.node? (Disk.destination [] "/w".toList ++ names)
      = some (.file data) → data.size ≤ ({} : Config).maxFileBytes := by
    intro names data hdata
    have hall : ∀ f ∈ sampleBench.filesBelow [], f.2.size ≤ ({} : Config).maxFileBytes := by
      decide +kernel
    obtain ⟨front, back, hentries, -⟩ := List.lookup_eq_some_iff.1 hdata
    exact hall (_, data) (List.mem_filterMap.2 ⟨(_, .file data),
      hentries ▸ List.mem_append_right _ (List.mem_cons_self ..), rfl⟩)
  have hkeys : ∀ edits e, Patch.edits benchPatch = .ok edits → e ∈ edits → e.deletes = false →
      Cache.key e.path = e.path := by
    intro edits e hedits he _
    have hall : ∀ e ∈ (Patch.edits benchPatch).toOption.getD [], Cache.key e.path = e.path := by
      decide +kernel
    rw [hedits] at hall
    exact hall e he
  have hfile : sampleBench.readText "/p".toList = .ok benchPatch := by decide +kernel
  exact ⟨hlimit, hsmall, hkeys, hfile, execute_apply_agrees hlimit hsmall hkeys hfile rfl [],
    by decide +kernel⟩

end RepairCommand

end Mend

import Mathlib.Control.Monad.Basic
import Mend.Proofs.Disk.Subtrees

/-!
# Separate stores

Whatever path a store on a disk is asked for, it reads and changes its own directory only: on disks
that agree on the directory it gives the same answers and makes the same changes
(`DirectoryStore.serve_agree`). So stores of directories that are apart do not notice each other.
Each answers the requests of any interleaving as it answers its own requests alone, and leaves its
directory the same (`DirectoryStore.separate`).
-/

namespace Mend

/-- A request to a store. -/
inductive StoreRequest where
  | read (path : Text)
  | write (path content : Text)
  | list (path : Text) (depth : Nat)
  | suggest (path : Text)
  deriving DecidableEq

/-- What a store answers to a request. -/
inductive StoreAnswer where
  | read (x : Except Failure (Option Text))
  | write (x : Except Failure Unit)
  | list (x : Except Failure (Option (List Text)))
  | suggest (paths : List Text)

namespace Store

variable {ω : Type}

/-- Answers a request. -/
def serve (store : Store ω) : StoreRequest → ω → StoreAnswer × ω
  | .read path, w => ((store.read path w).map .read id)
  | .write path content, w => ((store.write path content w).map .write id)
  | .list path depth, w => ((store.list path depth w).map .list id)
  | .suggest path, w => ((store.suggest path w).map .suggest id)

/-- Answers requests one after the other. -/
def serveAll (store : Store ω) : List StoreRequest → ω → List StoreAnswer × ω
  | [], w => ([], w)
  | request :: rest, w =>
    let (answer, w) := store.serve request w
    let (answers, w) := store.serveAll rest w
    (answer :: answers, w)

/-- Answers requests to one or the other of two stores. -/
def serveBoth (left right : Store ω) :
    List (StoreRequest ⊕ StoreRequest) → ω → List (StoreAnswer ⊕ StoreAnswer) × ω
  | [], w => ([], w)
  | .inl request :: rest, w =>
    let (answer, w) := left.serve request w
    let (answers, w) := serveBoth left right rest w
    (.inl answer :: answers, w)
  | .inr request :: rest, w =>
    let (answer, w) := right.serve request w
    let (answers, w) := serveBoth left right rest w
    (.inr answer :: answers, w)

end Store

namespace DirectoryStore

variable {σ : DirectoryStore} {loc : Location} {names : List Text} {d d' : Disk}

/-! ## One store -/

/-- The way of a file leads along that of the directory and then stays in it. -/
theorem within_fullPath {home : Location} (hroot : Disk.destination home σ.root = loc)
    (h : ∀ name ∈ names, Path.IsName name) : Disk.Within home σ.root loc (σ.fullPath names) := by
  have hfold : ∀ base, Disk.Within home σ.root loc base → loc <+: Disk.destination home base →
      Disk.Within home σ.root loc (names.foldl Path.join base) := by
    induction names with
    | nil => exact fun base hbase _ => hbase
    | cons name rest ih =>
      intro base hbase hloc
      rw [List.forall_mem_cons] at h
      refine ih h.2 _ (hbase.join hloc h.1) ?_
      rw [h.1.destination_join]
      exact hloc.trans (List.prefix_append ..)
  exact hfold σ.root ⟨rfl, fun _ => .inl⟩ (hroot ▸ List.prefix_refl _)

/-- The directory of a store is where its path leads. -/
theorem destination_root (h : Disk.Agree σ.root loc d d') :
    Disk.destination d.home σ.root = loc :=
  (Disk.destination_of_walk (Disk.find_eq_ok.1 h.found).1).symm

theorem find_fullPath (h : Disk.Agree σ.root loc d d') (hnames : ∀ name ∈ names, Path.IsName name) :
    d'.find (σ.fullPath names) = d.find (σ.fullPath names) :=
  h.find_eq (within_fullPath (destination_root h) hnames)

theorem read_eq (h : Disk.Agree σ.root loc d d') (path : Text) : σ.read path d' = σ.read path d := by
  rw [read, read]
  split
  · rfl
  rename_i names hresolve
  have hfind := find_fullPath h (isName_of_resolve hresolve)
  dsimp only
  rw [Disk.isFile, Disk.isFile, Disk.readBytes, Disk.readBytes, hfind]

/-- What stands below a place in the directory is listed alike. -/
theorem entriesBelow_eq (h : d'.subtree loc = d.subtree loc) {place : Location}
    (hplace : loc <+: place) (names : List Text) (depth : Nat) :
    entriesBelow d' place names depth = entriesBelow d place names depth := by
  induction depth generalizing names with
  | zero => rfl
  | succ depth ih =>
    rw [entriesBelow, entriesBelow,
      Disk.children_of_subtree h (hplace.trans (List.prefix_append ..))]
    simp only [ih]

theorem list_eq (h : Disk.Agree σ.root loc d d') (path : Text) (depth : Nat) :
    σ.list path depth d' = σ.list path depth d := by
  rw [list, list]
  split
  · rfl
  rename_i names hresolve
  have hnames := isName_of_resolve hresolve
  rw [find_fullPath h hnames]
  split
  · rename_i place hfind
    have hplace : loc <+: place := by
      rw [Disk.destination_of_walk (Disk.find_eq_ok.1 hfind).1, destination_fullPath _ hnames,
        destination_root h]
      exact List.prefix_append ..
    rw [entriesBelow_eq h.subtree hplace]
  · rfl

theorem suggest_eq (h : Disk.Agree σ.root loc d d') (path : Text) :
    σ.suggest path d' = σ.suggest path d := by
  rw [suggest, suggest, h.found, h.found']
  dsimp only
  rw [entriesBelow_eq h.subtree (List.prefix_refl _)]

theorem fullPath_concat (σ : DirectoryStore) (front : List Text) (name : Text) :
    σ.fullPath (front ++ [name]) = Path.join (σ.fullPath front) name := by
  rw [fullPath, List.foldl_append]
  rfl

/-- The path above a file is that of the directory that the other names lead to, but for points at
its end. -/
theorem exists_parent?_fullPath (σ : DirectoryStore) (front : List Text) {name : Text}
    (hname : Path.IsName name) : ∃ above,
      Path.parent? (σ.fullPath (front ++ [name])) = some above ∧
        Path.Shortens above (σ.fullPath front) := by
  rw [fullPath_concat]
  exact hname.exists_parent?_join _

/-- A file is written alike. -/
theorem write_agree (h : Disk.Agree σ.root loc d d') (path content : Text) :
    ∃ x m m', σ.write path content d = (x, m) ∧ σ.write path content d' = (x, m') ∧
      Disk.Moved σ.root loc d m m' := by
  rw [write, write]
  cases hresolve : resolve path with
  | error f => exact ⟨_, _, _, rfl, rfl, h.moved⟩
  | ok names =>
    have hnames := isName_of_resolve hresolve
    dsimp only
    cases hlast : names.getLast? with
    | none => exact ⟨_, _, _, rfl, rfl, h.moved⟩
    | some name =>
      obtain ⟨front, rfl⟩ := List.getLast?_eq_some_iff.1 hlast
      rw [List.forall_mem_append, List.forall_mem_singleton] at hnames
      have hroot := destination_root h
      have hfull := within_fullPath hroot (List.forall_mem_append.2 ⟨hnames.1,
        List.forall_mem_singleton.2 hnames.2⟩)
      obtain ⟨above, habove, hshort⟩ := σ.exists_parent?_fullPath front hnames.2
      have hwithin := (within_fullPath hroot hnames.1).along hshort.along
      have hloc : loc <+: Disk.destination d.home above := by
        rw [hshort.destination, destination_fullPath _ hnames.1, hroot]
        exact List.prefix_append ..
      have htemporary := hwithin.join hloc (isName_temporaryName hnames.2)
      dsimp only
      rw [habove, Option.getD_some]
      obtain ⟨x, m, m', hmake, hmake', hmoved⟩ := h.makeDirs hwithin
      rw [hmake, hmake']
      cases x with
      | error e => exact ⟨_, _, _, rfl, rfl, hmoved⟩
      | ok u =>
        dsimp only
        have htemporary' := hmoved.confined.home ▸ htemporary
        have hwrite := hmoved.agree.writeBytes htemporary' content.toBytes
        change Disk.Alike σ.root loc m (m.writeText _ content) (m'.writeText _ content) at hwrite
        generalize hwritten : m.writeText (Path.join above (temporaryName name)) content = y,
          m'.writeText (Path.join above (temporaryName name)) content = y' at hwrite ⊢
        cases hwrite with
        | error e => exact ⟨_, _, _, rfl, rfl, hmoved⟩
        | @ok n n' hmoved' =>
          -- the hidden file is a file, so it can be moved
          obtain ⟨place, -, hkeeps, hwalk, hnode⟩ := writeText_temporary hnames.2 hwritten
          have hfile := Disk.find_eq_ok.2 ⟨hwalk, hnode⟩
          have hwhole := hmoved.trans hmoved'
          have hrename := hmoved'.agree.rename (hwhole.confined.home ▸ htemporary)
            (hwhole.confined.home ▸ hfull) hfile
          dsimp only
          generalize n.rename (Path.join above (temporaryName name)) _ = z,
            n'.rename (Path.join above (temporaryName name)) _ = z' at hrename ⊢
          cases hrename with
          | error e => exact ⟨_, _, _, rfl, rfl, hwhole⟩
          | ok hmoved'' => exact ⟨_, _, _, rfl, rfl, hwhole.trans hmoved''⟩

/-- On disks that agree on its directory, a store gives the same answer and makes the same
changes. -/
theorem serve_agree (h : Disk.Agree σ.root loc d d') (request : StoreRequest) :
    ∃ answer m m', σ.store.serve request d = (answer, m) ∧
      σ.store.serve request d' = (answer, m') ∧ Disk.Moved σ.root loc d m m' := by
  cases request with
  | read path =>
    refine ⟨.read (σ.read path d), d, d', rfl, ?_, h.moved⟩
    rw [← read_eq h]
    rfl
  | write path content =>
    obtain ⟨x, m, m', hwrite, hwrite', hmoved⟩ := write_agree h path content
    refine ⟨.write x, m, m', ?_, ?_, hmoved⟩
    · exact congrArg (Prod.map StoreAnswer.write id) hwrite
    · exact congrArg (Prod.map StoreAnswer.write id) hwrite'
  | list path depth =>
    refine ⟨.list (σ.list path depth d), d, d', rfl, ?_, h.moved⟩
    rw [← list_eq h]
    rfl
  | suggest path =>
    refine ⟨.suggest (σ.suggest path d), d, d', rfl, ?_, h.moved⟩
    rw [← suggest_eq h]
    rfl

/-! ## Two stores -/

/-- Two stores do not notice each other's requests, whatever was asked before. -/
structure Separate (σ τ : DirectoryStore) (loc other : Location) (d : Disk) : Prop where
  /-- A request to one store leaves the directory of the other one as it is. -/
  keeps : ∀ before request,
    ((σ.store.serve request (Store.serveBoth σ.store τ.store before d).2).2.subtree other
      = (Store.serveBoth σ.store τ.store before d).2.subtree other) ∧
    ((τ.store.serve request (Store.serveBoth σ.store τ.store before d).2).2.subtree loc
      = (Store.serveBoth σ.store τ.store before d).2.subtree loc)
  /-- The other store answers every request as without it. -/
  answers : ∀ before request next,
    ((τ.store.serve next (σ.store.serve request
        (Store.serveBoth σ.store τ.store before d).2).2).1
      = (τ.store.serve next (Store.serveBoth σ.store τ.store before d).2).1) ∧
    ((σ.store.serve next (τ.store.serve request
        (Store.serveBoth σ.store τ.store before d).2).2).1
      = (σ.store.serve next (Store.serveBoth σ.store τ.store before d).2).1)
  /-- Each store gives the answers that it gives to its own requests alone. -/
  interleaved : ∀ requests,
    ((Store.serveBoth σ.store τ.store requests d).1.filterMap Sum.getLeft?
      = (σ.store.serveAll (requests.filterMap Sum.getLeft?) d).1) ∧
    ((Store.serveBoth σ.store τ.store requests d).1.filterMap Sum.getRight?
      = (τ.store.serveAll (requests.filterMap Sum.getRight?) d).1)
  /-- Each directory is in the end what its own requests alone make of it. -/
  trees : ∀ requests,
    ((Store.serveBoth σ.store τ.store requests d).2.subtree loc
      = (σ.store.serveAll (requests.filterMap Sum.getLeft?) d).2.subtree loc) ∧
    ((Store.serveBoth σ.store τ.store requests d).2.subtree other
      = (τ.store.serveAll (requests.filterMap Sum.getRight?) d).2.subtree other)

section Both

variable {τ : DirectoryStore} {other : Location}

/-- An interleaving on a disk and the requests to each store on disks of its own, which agree with
the first one on the directory of the store. -/
theorem serveBoth_agree (hapart : Disk.Apart loc other) {dσ dτ : Disk}
    (hσ : Disk.Agree σ.root loc d dσ) (hτ : Disk.Agree τ.root other d dτ)
    (requests : List (StoreRequest ⊕ StoreRequest)) :
    ((Store.serveBoth σ.store τ.store requests d).1.filterMap Sum.getLeft?
        = (σ.store.serveAll (requests.filterMap Sum.getLeft?) dσ).1 ∧
      (Store.serveBoth σ.store τ.store requests d).1.filterMap Sum.getRight?
        = (τ.store.serveAll (requests.filterMap Sum.getRight?) dτ).1) ∧
    Disk.Agree σ.root loc (Store.serveBoth σ.store τ.store requests d).2
      (σ.store.serveAll (requests.filterMap Sum.getLeft?) dσ).2 ∧
    Disk.Agree τ.root other (Store.serveBoth σ.store τ.store requests d).2
      (τ.store.serveAll (requests.filterMap Sum.getRight?) dτ).2 := by
  induction requests generalizing d dσ dτ with
  | nil => exact ⟨⟨rfl, rfl⟩, hσ, hτ⟩
  | cons request rest ih =>
    cases request with
    | inl request =>
      obtain ⟨answer, m, m', hserve, hserve', hmoved⟩ := serve_agree hσ request
      obtain ⟨⟨hleft, hright⟩, hagree⟩ :=
        ih hmoved.agree (hτ.of_confined hmoved.confined hapart)
      rw [Store.serveBoth, hserve]
      simp only [List.filterMap_cons, Sum.getLeft?_inl, Sum.getRight?_inl]
      rw [Store.serveAll, hserve']
      exact ⟨⟨congrArg (answer :: ·) hleft, hright⟩, hagree⟩
    | inr request =>
      obtain ⟨answer, m, m', hserve, hserve', hmoved⟩ := serve_agree hτ request
      obtain ⟨⟨hleft, hright⟩, hagree⟩ :=
        ih (hσ.of_confined hmoved.confined hapart.symm) hmoved.agree
      rw [Store.serveBoth, hserve]
      simp only [List.filterMap_cons, Sum.getLeft?_inr, Sum.getRight?_inr]
      rw [Store.serveAll.eq_def τ.store (_ :: _)]
      dsimp only
      rw [hserve']
      exact ⟨⟨hleft, congrArg (answer :: ·) hright⟩, hagree⟩

/-- A request to a store changes no directory apart, and no answer of its store. -/
theorem serve_apart (hapart : Disk.Apart loc other) (hσ : d.find σ.root = .ok (loc, .dir))
    (hτ : d.find τ.root = .ok (other, .dir)) (request : StoreRequest) :
    (σ.store.serve request d).2.subtree other = d.subtree other ∧
      ∀ next, (τ.store.serve next (σ.store.serve request d).2).1 = (τ.store.serve next d).1 := by
  obtain ⟨answer, m, m', hserve, -, hmoved⟩ := serve_agree (.refl hσ) request
  rw [hserve]
  refine ⟨hmoved.confined.subtree hapart, fun next => ?_⟩
  obtain ⟨answer', n, n', hnext, hnext', -⟩ :=
    serve_agree ((Disk.Agree.refl hτ).of_confined hmoved.confined hapart) next
  rw [hnext, hnext']

end Both

/-- Stores of directories that are apart do not notice each other. -/
theorem separate (σ τ : DirectoryStore) {loc other : Location} {d : Disk}
    (hσ : d.find σ.root = .ok (loc, .dir)) (hτ : d.find τ.root = .ok (other, .dir))
    (hapart : Disk.Apart loc other) : Separate σ τ loc other d := by
  have hagree := serveBoth_agree hapart (.refl hσ) (.refl hτ)
  have hserve := fun before => serve_apart hapart (hagree before).2.1.found (hagree before).2.2.found
  have hserve' := fun before =>
    serve_apart hapart.symm (hagree before).2.2.found (hagree before).2.1.found
  exact {
    keeps := fun before request => ⟨(hserve before request).1, (hserve' before request).1⟩
    answers := fun before request next =>
      ⟨(hserve before request).2 next, (hserve' before request).2 next⟩
    interleaved := fun requests => (hagree requests).1
    trees := fun requests =>
      ⟨(hagree requests).2.1.subtree.symm, (hagree requests).2.2.subtree.symm⟩ }

/-- A disk with two directories. -/
def sampleDirectories : Disk where
  entries := [([], .dir), ([['s']], .dir), ([['t']], .dir), ([['s'], ['f']], .file "x".toUTF8)]
  home := []

theorem separate_sample :
    let σ : DirectoryStore := ⟨"/s".toList, 100⟩
    let τ : DirectoryStore := ⟨"s/../t/.".toList, 100⟩
    sampleDirectories.find σ.root = .ok ([['s']], .dir) ∧
      sampleDirectories.find τ.root = .ok ([['t']], .dir) ∧ Disk.Apart [['s']] [['t']] ∧
      Separate σ τ [['s']] [['t']] sampleDirectories := by
  intro σ τ
  have hσ : sampleDirectories.find σ.root = .ok ([['s']], .dir) := by decide +kernel
  have hτ : sampleDirectories.find τ.root = .ok ([['t']], .dir) := by decide +kernel
  have hapart : Disk.Apart [['s']] [['t']] := ⟨by decide, by decide⟩
  exact ⟨hσ, hτ, hapart, separate σ τ hσ hτ hapart⟩

end DirectoryStore

end Mend

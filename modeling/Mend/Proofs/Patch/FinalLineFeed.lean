import Mend.Proofs.Patch.LineCounts
import Mend.Proofs.Revision.Basic

/-!
# The final line feed of a file

Whether a file ends with a line feed is a flag beside its lines, and without marks of a missing line
feed no token touches the flag. But behind each block the file is its content again, and a content
does not always say what the flag was: a file without lines has the empty content, which counts as
ended, and before an empty last line without a line feed stands the line feed of another line.

So a file that ends with a line feed keeps it, and one that does not gets one exactly when one of its
blocks leaves it without lines or with an empty last line (`Patch.endsLine_iff_of_apply`). Where no
block does that, the final line feed is what it was (`Patch.apply_finalLineFeed`), and without the
condition it need not be (`Patch.apply_finalLineFeed_ne`).

The flag of a path is followed from the header at which the file is loaded (`Patch.Engine.Ends`). What
sets it is read off the engine where a block ends (`Patch.Engine.closesBlank`), so the flag is true
when it was at first or when one of the places so far has set it (`Patch.Engine.Tracks`).
-/

namespace Mend

open Text (lf)

/-! ## Buffers and their contents -/

namespace LineBuffer

variable {b : LineBuffer} {t : Text}

/-- The buffer of a content is ended when the content is of whole lines. -/
theorem ended_ofContent : (ofContent t).ended = true ↔ t.EndsLine := by
  constructor
  · intro hended
    by_cases ht : t = []
    · exact .inl ht
    by_cases hlast : t.getLast? = some lf
    · exact .inr hlast
    · rw [ofContent_of_getLast? ht hlast] at hended
      cases hended
  · exact fun ht => (whole_ofContent ht).ended

theorem lf_notMem_ofContent (t : Text) : ∀ l ∈ (ofContent t).lines, lf ∉ l := by
  by_cases ht : t.EndsLine
  · exact (whole_ofContent ht).lf_notMem
  · rw [Text.EndsLine, not_or] at ht
    rw [ofContent_of_getLast? ht.1 ht.2]
    exact fun l hl => Text.sep_notMem_of_mem_splitOn hl

/-- The content of a buffer is of whole lines when the buffer is ended, and also when its end cannot
be seen. -/
theorem endsLine_content (h : ∀ l ∈ b.lines, lf ∉ l) :
    b.content.EndsLine ↔ b.ended = true ∨ b.endsBlank = true := by
  cases hended : b.ended with
  | true =>
    rw [content_of_ended hended]
    exact iff_of_true (Text.endsLine_unlines b.lines) (.inl rfl)
  | false =>
    have hcontent : b.content = Text.joinWith [lf] b.lines := by simp [content, hended]
    rw [hcontent, endsBlank]
    rcases List.eq_nil_or_concat' b.lines with hlines | ⟨ls, l, hlines⟩
    · rw [hlines]
      exact iff_of_true (.inl rfl) (.inr rfl)
    · rw [hlines, Text.joinWith_append_singleton, List.getLast?_concat]
      cases hl : l with
      | nil =>
        rw [List.append_nil]
        exact iff_of_true (Text.endsLine_unlines ls) (.inr rfl)
      | cons c rest =>
        -- the last character is one of the last line, and so no line feed
        have hnot : lf ∉ c :: rest := by
          rw [← hl]
          exact h l (by rw [hlines]; simp)
        refine iff_of_false ?_ (by simp)
        rintro (hnil | hlast)
        · simp at hnil
        · rw [List.getLast?_append_of_ne_nil _ (List.cons_ne_nil c rest)] at hlast
          exact hnot (List.mem_of_getLast? hlast)

/-- What is read back from the content of a buffer is ended, or not, as the buffer was, unless its end
cannot be seen. -/
theorem ended_ofContent_content (h : ∀ l ∈ b.lines, lf ∉ l) :
    (ofContent b.content).ended = (b.ended || b.endsBlank) := by
  rw [Bool.eq_iff_iff, ended_ofContent, endsLine_content h, Bool.or_eq_true]

end LineBuffer

namespace Patch

namespace Engine

variable {σ : Type} {load : σ → Text → Loaded × σ} {e e' : Engine} {s s' : σ} {path : Text}
  {ended : Bool}

/-! ## The flag of a path -/

/-- Whether the open file has the path, and no lines or an empty last line. -/
def closesBlank (e : Engine) (path : Text) : Bool :=
  e.opened.any fun f => f.path = path && f.buffer.endsBlank

/-- The file with the path is finished or open, and `ended` says whether it ends with a line feed. -/
structure Ends (e : Engine) (path : Text) (ended : Bool) : Prop where
  kept : e.Keeps path
  finished : ∀ t, ApplyResult.content? e.files path = some t →
    (LineBuffer.ofContent t).ended = ended
  opened : ∀ f, e.opened = some f → f.path = path →
    f.present = true ∧ f.buffer.ended = ended ∧ ∀ l ∈ f.buffer.lines, lf ∉ l

/-- When the open file is finished, its flag is set where its end cannot be seen. -/
theorem Ends.exists_flush (h : e.Ends path ended) :
    ∃ t, ApplyResult.content? e.flush.files path = some t ∧
      (LineBuffer.ofContent t).ended = (ended || e.closesBlank path) := by
  obtain ⟨t, ht⟩ := exists_content?_of_mem h.kept.flush
  refine ⟨t, ht, ?_⟩
  rcases e.content?_flush_cases path with ⟨f, hopened, hpath, hflush⟩ | ⟨hdropped, hflush⟩
  · obtain ⟨-, hended, hlf⟩ := h.opened f hopened hpath
    cases hflush.symm.trans ht
    rw [LineBuffer.ended_ofContent_content hlf, hended]
    simp [closesBlank, hopened, hpath]
  · -- the open file, if there is one, is another one, as a file that is there is not dropped
    have hother : e.closesBlank path = false := by
      rw [closesBlank, Option.any_eq_false]
      intro f hopened
      by_cases hpath : f.path = path
      · cases (h.opened f hopened hpath).1.symm.trans (hdropped f hopened hpath).1
      · simp [hpath]
    rw [h.finished t (hflush.symm.trans ht), hother, Bool.or_false]

/-- A file with the path that is finished, or opened from what is finished. -/
theorem Ends.of_flush (h : e.Ends path ended) (hfiles : e'.files = e.flush.files)
    (hopened : ∀ f, e'.opened = some f → f.path = path → ∃ t,
      ApplyResult.content? e.flush.files path = some t ∧ f = ⟨path, .ofContent t, true⟩) :
    e'.Ends path (ended || e.closesBlank path) := by
  obtain ⟨t, ht, hended⟩ := h.exists_flush
  refine ⟨.inl (hfiles ▸ h.kept.flush), fun u hu => ?_, fun f hf hpath => ?_⟩
  · rw [hfiles] at hu
    cases ht.symm.trans hu
    exact hended
  · obtain ⟨u, hu, rfl⟩ := hopened f hf hpath
    cases ht.symm.trans hu
    exact ⟨rfl, hended, LineBuffer.lf_notMem_ofContent t⟩

/-- A file that is finished is opened from its content. -/
theorem openFile_of_content? {t : Text} (h : ApplyResult.content? e.flush.files path = some t) :
    (e.openFile load path s).1.opened = some ⟨path, .ofContent t, true⟩ := by
  rw [openFile]
  dsimp only
  rw [h]
  rfl

/-- A file that is not finished is opened from the content that the loader has for it. -/
theorem openFile_of_load {c : Text} (h : ApplyResult.content? e.flush.files path = none)
    (hload : (load s path).1 = .content c) :
    (e.openFile load path s).1.opened = some ⟨path, .ofContent c, true⟩ := by
  rw [openFile]
  dsimp only
  rw [h]
  dsimp only
  rw [hload]
  rfl

theorem Ends.openFile (h : e.Ends path ended) (load : σ → Text → Loaded × σ) (other : Text) (s : σ) :
    (e.openFile load other s).1.Ends path (ended || e.closesBlank path) := by
  refine h.of_flush (openFile_files load e other s) fun f hf hpath => ?_
  obtain rfl : other = path := (path_of_openFile load hf).symm.trans hpath
  obtain ⟨t, ht, -⟩ := h.exists_flush
  rw [openFile_of_content? ht] at hf
  cases hf
  exact ⟨t, ht, rfl⟩

/-- The flag of a file that is loaded is read off its content. -/
theorem ends_openFile {c : Text} (h : ApplyResult.content? e.flush.files path = none)
    (hload : (load s path).1 = .content c) :
    (e.openFile load path s).1.Ends path (LineBuffer.ofContent c).ended := by
  have hopened := openFile_of_load h hload
  refine ⟨.inr ⟨_, hopened, rfl, rfl⟩, fun t ht => ?_, fun f hf _ => ?_⟩
  · rw [openFile_files, h] at ht
    cases ht
  · cases hopened.symm.trans hf
    exact ⟨rfl, rfl, LineBuffer.lf_notMem_ofContent c⟩

/-- A line of a hunk that is no mark leaves the flag alone. -/
theorem Ends.passes (h : e.Ends path ended) {n : Nat} {kind : TokenKind}
    (hpasses : Passes e n kind e') (hmark : kind ≠ .noNewline) (hadded : ∀ t, kind = .add t → lf ∉ t) :
    e'.Ends path ended := by
  refine ⟨h.kept.passes hpasses, hpasses.files ▸ h.finished, fun f' hf' hpath => ?_⟩
  obtain ⟨f, hopened, ⟨buffer, rfl⟩, hmem⟩ := hpasses.exists_opened hf'
  have hsame := hpasses.ended hmark
  rw [ended?, ended?, hopened, hf', Option.map_some, Option.map_some, Option.some.injEq] at hsame
  obtain ⟨hpresent, hended, hlf⟩ := h.opened f hopened hpath
  refine ⟨hpresent, hsame.trans hended, fun l hl => ?_⟩
  rcases hmem l hl with hold | hnew
  · exact hlf l hold
  · exact hadded l hnew

/-- Only a header can set the flag, and only where the end of the open file cannot be seen. -/
theorem Ends.reads (h : e.Ends path ended) {token : Token} (hreads : Reads load e s token e' s')
    (hmark : token.kind ≠ .noNewline) (hadded : ∀ t, token.kind = .add t → lf ∉ t) :
    e'.Ends path (ended || (isFileHeader token.kind && e.closesBlank path)) := by
  cases hreads with
  | oldHeader n old =>
    refine h.of_flush rfl fun f hf _ => ?_
    cases e.flush_opened.symm.trans hf
  | deletion n =>
    refine h.of_flush e.skipDeletion_files fun f hf _ => ?_
    cases e.skipDeletion_opened.symm.trans hf
  | target n other opens =>
    have hopen := h.openFile load other s
    rwa [opens] at hopen
  | line not_header passes =>
    rw [not_header, Bool.false_and, Bool.or_false]
    exact h.passes passes hmark hadded

end Engine

/-! ## Patches -/

section Runs

variable {σ : Type} (strict : Bool) (load : σ → Text → Loaded × σ) (s : σ) (tokens : List Token)

/-- At the token with number `i` the loader is asked for a path and has the content `c` for it. -/
def LoadsAt (path c : Text) (i : Nat) : Prop :=
  ∃ n e s', tokens[i]? = some ⟨n, .newHeader (some path)⟩ ∧
    Engine.run .word strict load (tokens.take i) {} s = (.ok e, s') ∧
    ApplyResult.content? e.flush.files path = none ∧ (load s' path).1 = .content c

/-- Behind the first `k` tokens a block of a path ends, and leaves the file without lines or with an
empty last line. -/
structure LeavesBlank (path : Text) (k : Nat) : Prop where
  le_length : k ≤ tokens.length
  isFileHeader : ∀ t ∈ tokens[k]?, isFileHeader t.kind = true
  exists_closesBlank : ∃ e s', Engine.run .word strict load (tokens.take k) {} s = (.ok e, s') ∧
    e.closesBlank path = true

end Runs

variable {σ : Type} {strict : Bool} {load : σ → Text → Loaded × σ} {s s' : σ} {patch : Text}
  {tokens front : List Token} {e : Engine} {path c : Text} {i : Nat}

/-- Whether a block ends is seen at the token behind it, and how it leaves the file at the engine. -/
theorem leavesBlank_iff (hrun : Engine.run .word strict load front {} s = (.ok e, s'))
    (back : List Token) (path : Text) :
    LeavesBlank strict load s (front ++ back) path front.length ↔
      (∀ t ∈ back.head?, isFileHeader t.kind = true) ∧ e.closesBlank path = true := by
  have hnext : (front ++ back)[front.length]? = back.head? := by
    rw [List.getElem?_append_right (Nat.le_refl _), Nat.sub_self, List.head?_eq_getElem?]
  constructor
  · rintro ⟨-, hheader, e₁, s₁, hrun₁, hblank⟩
    rw [List.take_left, hrun] at hrun₁
    cases hrun₁
    exact ⟨hnext ▸ hheader, hblank⟩
  · rintro ⟨hheader, hblank⟩
    refine ⟨by simp, hnext ▸ hheader, e, s', ?_, hblank⟩
    rw [List.take_left, hrun]

/-- A place up to a bound is the bound or before it. -/
theorem exists_lt_succ_iff {P : Nat → Prop} {i k : Nat} (hik : i < k) :
    (∃ j, i < j ∧ j < k + 1 ∧ P j) ↔ (∃ j, i < j ∧ j < k ∧ P j) ∨ P k := by
  constructor
  · rintro ⟨j, hij, hjk, hj⟩
    rcases Nat.lt_succ_iff_lt_or_eq.1 hjk with hlt | rfl
    · exact .inl ⟨j, hij, hlt, hj⟩
    · exact .inr hj
  · rintro (⟨j, hij, hjk, hj⟩ | hk)
    · exact ⟨j, hij, Nat.lt_succ_of_lt hjk, hj⟩
    · exact ⟨k, hik, Nat.lt_succ_self k, hk⟩

/-- Behind the first `k` tokens the flag of a path that was loaded at the token `i` is set when the
loaded content ends with a line feed, or when an earlier block leaves the file so that its end cannot
be seen. -/
def Engine.Tracks (strict : Bool) (load : σ → Text → Loaded × σ) (s : σ) (tokens : List Token)
    (path c : Text) (i k : Nat) (e : Engine) : Prop :=
  ∃ ended, e.Ends path ended ∧ (ended = true ↔ c.getLast? = some lf ∨
    ∃ j, i < j ∧ j < k ∧ LeavesBlank strict load s tokens path j)

theorem Engine.tracks_of_run (htokens : tokenize patch = .ok tokens)
    (hmarks : ∀ l ∈ patchLines patch, l.head? ≠ some '\\')
    (hloads : LoadsAt strict load s tokens path c i) (hc : c ≠ [])
    (hrun : Engine.run .word strict load tokens {} s = (.ok e, s')) (hi : i < tokens.length) :
    e.Tracks strict load s tokens path c i tokens.length := by
  refine Engine.run_induction (P := fun front e _ => i < front.length →
    e.Tracks strict load s tokens path c i front.length) (fun hlt => absurd hlt (Nat.not_lt_zero i))
    ?_ hrun hi
  intro front token back e₁ s₁ e₂ s₂ heq hfront ih hreads hlt
  have hmem : token ∈ tokens := heq ▸ List.mem_append_right front (List.mem_cons_self ..)
  rw [List.length_append, List.length_singleton] at hlt ⊢
  rcases Nat.lt_succ_iff_lt_or_eq.1 hlt with hbefore | rfl
  · -- the file is loaded already, and the block may end here
    obtain ⟨ended, hends, hiff⟩ := ih hbefore
    have hadded : ∀ t, token.kind = .add t → lf ∉ t := by
      obtain ⟨n, kind⟩ := token
      rintro t rfl
      exact lf_notMem_of_add htokens hmem
    refine ⟨_, hends.reads hreads (ne_noNewline htokens hmarks hmem) hadded, ?_⟩
    have hhere := leavesBlank_iff hfront (token :: back) path
    rw [← heq] at hhere
    rw [exists_lt_succ_iff hbefore, hhere, Bool.or_eq_true, hiff, Bool.and_eq_true, or_assoc]
    simp
  · -- the file is loaded here
    obtain ⟨n, e₀, s₀, htoken, hrun₀, hnone, hcontent⟩ := hloads
    rw [heq, List.take_left, hfront] at hrun₀
    cases hrun₀
    rw [heq, List.getElem?_append_right (Nat.le_refl _), Nat.sub_self] at htoken
    cases htoken
    have hends := ends_openFile hnone hcontent
    cases hreads with
    | line not_header _ => cases not_header
    | target _ _ opens =>
      rw [opens] at hends
      refine ⟨_, hends, ?_⟩
      rw [LineBuffer.ended_ofContent, Text.EndsLine, or_iff_right hc]
      refine ⟨.inl, fun h => h.resolve_right ?_⟩
      rintro ⟨j, hij, hjk, -⟩
      omega

/-- A file that a patch without marks loads and produces is of whole lines when it was before, or when
one of its blocks leaves it without lines or with an empty last line, and else it is not. -/
theorem endsLine_iff_of_apply {r : ApplyResult} {file : PatchedFile}
    (htokens : tokenize patch = .ok tokens) (hmarks : ∀ l ∈ patchLines patch, l.head? ≠ some '\\')
    (h : apply strict load patch s = (.ok r, s')) (hfile : file ∈ r.files)
    (hloads : LoadsAt strict load s tokens file.path c i) (hc : c ≠ []) :
    file.content.EndsLine ↔ c.getLast? = some lf ∨
      ∃ k, i < k ∧ LeavesBlank strict load s tokens file.path k := by
  obtain ⟨e, hrun, rfl⟩ := exists_run_of_apply htokens h
  have hi : i < tokens.length := by
    obtain ⟨n, e₀, s₀, htoken, -⟩ := hloads
    exact (List.getElem?_eq_some_iff.1 htoken).1
  obtain ⟨ended, hends, hiff⟩ := Engine.tracks_of_run htokens hmarks hloads hc hrun hi
  obtain ⟨t, ht, hended⟩ := hends.exists_flush
  -- the file is the one with its path
  obtain rfl : file.content = t :=
    Option.some.inj (((apply_distinct h).content?_of_mem hfile).symm.trans ht)
  -- the last block ends with the patch
  have hend := leavesBlank_iff hrun [] file.path
  rw [List.append_nil] at hend
  have hplaces : (∃ k, i < k ∧ LeavesBlank strict load s tokens file.path k) ↔
      ∃ k, i < k ∧ k < tokens.length + 1 ∧ LeavesBlank strict load s tokens file.path k :=
    exists_congr fun k => and_congr_right fun _ =>
      ⟨fun hk => ⟨Nat.lt_succ_of_le hk.le_length, hk⟩, And.right⟩
  rw [← LineBuffer.ended_ofContent, hended, Bool.or_eq_true, hiff, hplaces, exists_lt_succ_iff hi,
    hend, or_assoc]
  simp

/-- A file that a patch without marks loads and produces ends with a line feed exactly when it did
before, if it did or if none of its blocks leaves it without lines or with an empty last line. -/
theorem apply_finalLineFeed {r : ApplyResult} {file : PatchedFile}
    (htokens : tokenize patch = .ok tokens) (hmarks : ∀ l ∈ patchLines patch, l.head? ≠ some '\\')
    (h : apply strict load patch s = (.ok r, s')) (hfile : file ∈ r.files)
    (hloads : LoadsAt strict load s tokens file.path c i) (hc : c ≠ []) (hne : file.content ≠ [])
    (hlines : c.getLast? = some lf ∨ ∀ k, i < k → ¬ LeavesBlank strict load s tokens file.path k) :
    file.content.getLast? = some lf ↔ c.getLast? = some lf := by
  have hiff := endsLine_iff_of_apply htokens hmarks h hfile hloads hc
  rw [Text.EndsLine, or_iff_right hne] at hiff
  rw [hiff]
  refine ⟨?_, .inl⟩
  rintro (hlast | ⟨k, hk, hblank⟩)
  · exact hlast
  · exact hlines.resolve_right fun hnone => hnone k hk hblank

/-! ## Files without a line feed at the end -/

/-- A loader that knows one file, without a line feed at its end. -/
def unendedFile (path : Text) : Loaded :=
  if path = ['f'] then .content ['a'] else .notFound

/-- A block that replaces the only line of a file, and one that adds a blank line and another one. -/
def sampleExtended : Text :=
  "--- a/f\n+++ b/f\n@@ -1 +1 @@\n-a\n+b\n--- a/f\n+++ b/f\n@@ -1 +1,3 @@\n b\n+\n+c\n".toList

def sampleExtendedTokens : List Token :=
  [⟨1, .oldHeader (some ['f'])⟩, ⟨2, .newHeader (some ['f'])⟩, ⟨3, .hunk ⟨1, 1, 1, 1⟩⟩,
   ⟨4, .remove ['a']⟩, ⟨5, .add ['b']⟩, ⟨6, .oldHeader (some ['f'])⟩,
   ⟨7, .newHeader (some ['f'])⟩, ⟨8, .hunk ⟨1, 1, 1, 3⟩⟩, ⟨9, .context ['b']⟩, ⟨10, .add []⟩,
   ⟨11, .add ['c']⟩]

/-- Whether the open file ends blank behind the first tokens. -/
def blankBehind (tokens : List Token) (path : Text) (k : Nat) : Bool :=
  match Engine.run .word true (recording unendedFile) (tokens.take k) {} [] with
  | (.ok e, _) => e.closesBlank path
  | (.error _, _) => false

/-- Blocks of a file without a line feed at its end leave it without one. -/
theorem apply_finalLineFeed_sample :
    "b\n\nc".toList.getLast? = some lf ↔ ['a'].getLast? = some lf := by
  have hrun : apply true (recording unendedFile) sampleExtended []
      = (.ok ⟨[⟨['f'], "b\n\nc".toList⟩], []⟩, [['f']]) := by decide +kernel
  have htokens : tokenize sampleExtended = .ok sampleExtendedTokens := by decide +kernel
  have hloads : LoadsAt true (recording unendedFile) [] sampleExtendedTokens ['f'] ['a'] 1 :=
    ⟨2, ({} : Engine).oldHeader (some ['f']), [], rfl, by decide +kernel, rfl, rfl⟩
  -- in the second block the blank line is the last one for a while, but not where the block ends
  have hplaces : ∀ k ≤ sampleExtendedTokens.length,
      (∀ t ∈ sampleExtendedTokens[k]?, isFileHeader t.kind = true) →
        blankBehind sampleExtendedTokens ['f'] k = false := by decide +kernel
  have hnone : ∀ k, 1 < k →
      ¬ LeavesBlank true (recording unendedFile) [] sampleExtendedTokens ['f'] k := by
    rintro k - ⟨hle, hheader, e, s', hfront, hblank⟩
    have hfalse := hplaces k hle hheader
    rw [blankBehind, hfront] at hfalse
    exact Bool.noConfusion (hblank.symm.trans hfalse)
  have hfile : (⟨['f'], "b\n\nc".toList⟩ : PatchedFile) ∈ [⟨['f'], "b\n\nc".toList⟩] :=
    List.mem_singleton_self _
  exact apply_finalLineFeed htokens (by decide +kernel) hrun hfile hloads (by decide) (by decide)
    (.inr hnone)

/-- Whatever a patch produces for a file that is there, neither of the two contents being empty, ends
with a line feed exactly when the file did before. -/
def KeepsFinalLineFeed (known : Text → Loaded) (r : ApplyResult) : Prop :=
  ∀ file ∈ r.files, ∀ c, known file.path = .content c → c ≠ [] → file.content ≠ [] →
    (file.content.getLast? = some lf ↔ c.getLast? = some lf)

/-- A block that takes away the only line of a file, and one that adds a line. -/
def sampleRefilled : Text :=
  "--- a/f\n+++ b/f\n@@ -1 +0,0 @@\n-a\n--- a/f\n+++ b/f\n@@ -0,0 +1 @@\n+b\n".toList

/-- A block that adds a blank line at the end of a file. -/
def sampleBlank : Text := "--- a/f\n+++ b/f\n@@ -1 +1,2 @@\n a\n+\n".toList

theorem keepsFinalLineFeed_unendedFile {t : Text} (ht : t ≠ []) :
    KeepsFinalLineFeed unendedFile ⟨[⟨['f'], t⟩], []⟩ ↔
      (t.getLast? = some lf ↔ ['a'].getLast? = some lf) := by
  constructor
  · exact fun h => h _ (List.mem_singleton_self _) ['a'] rfl (by decide) ht
  · rintro h file hfile c hc - -
    obtain rfl := List.mem_singleton.1 hfile
    cases hc
    exact h

/-- A file without a line feed at its end gets one when a block takes its only line away and another
one adds a line, and when a block adds a blank line at its end. -/
theorem apply_finalLineFeed_ne :
    (∀ l ∈ patchLines sampleRefilled, l.head? ≠ some '\\') ∧
      apply true (recording unendedFile) sampleRefilled []
        = (.ok ⟨[⟨['f'], "b\n".toList⟩], []⟩, [['f']]) ∧
      ¬ KeepsFinalLineFeed unendedFile ⟨[⟨['f'], "b\n".toList⟩], []⟩ ∧
      (∀ l ∈ patchLines sampleBlank, l.head? ≠ some '\\') ∧
      apply true (recording unendedFile) sampleBlank []
        = (.ok ⟨[⟨['f'], "a\n".toList⟩], []⟩, [['f']]) ∧
      ¬ KeepsFinalLineFeed unendedFile ⟨[⟨['f'], "a\n".toList⟩], []⟩ := by
  refine ⟨by decide +kernel, by decide +kernel, ?_, by decide +kernel, by decide +kernel, ?_⟩
  · rw [keepsFinalLineFeed_unendedFile (by decide)]
    decide
  · rw [keepsFinalLineFeed_unendedFile (by decide)]
    decide

end Patch

end Mend

import Mend.Text.Basic

/-!
# Line buffers

A file's content as lines, and whether its last line ends with a line feed. The empty content has no
lines and counts as ended, so that lines added to it end the file properly.

Main statement: reading a content and writing it back changes nothing
(`LineBuffer.content_ofContent`).
-/

namespace Mend

/-- The lines of a file. -/
structure LineBuffer where
  /-- The lines, without line feeds. -/
  lines : List Text
  /-- Whether a line feed ends the last line. -/
  ended : Bool
  deriving DecidableEq, Repr

namespace LineBuffer

/-- The buffer of an empty file. -/
def empty : LineBuffer := ⟨[], true⟩

/-- The buffer of a content. -/
def ofContent (content : Text) : LineBuffer :=
  if content.isEmpty then empty
  else
    match Text.dropSuffix? [Text.lf] content with
    | some body => ⟨body.splitOn Text.lf, true⟩
    | none => ⟨content.splitOn Text.lf, false⟩

/-- The content of a buffer. -/
def content (b : LineBuffer) : Text :=
  let joined := Text.joinWith [Text.lf] b.lines
  if b.ended && !b.lines.isEmpty then joined ++ [Text.lf] else joined

/-- Reading a content and writing it back changes nothing. -/
theorem content_ofContent (c : Text) : (ofContent c).content = c := by
  unfold ofContent
  split
  · rename_i h
    have : c = [] := by simpa using h
    subst this
    rfl
  · split
    · rename_i body h
      have hs : body ++ [Text.lf] = c := by
        unfold Text.dropSuffix? at h
        split at h
        · rename_i hsuf
          obtain ⟨front, rfl⟩ := List.isSuffixOf_iff_suffix.1 hsuf
          simp only [Option.some.injEq] at h
          subst h
          simp
        · simp at h
      have hne : body.splitOn Text.lf ≠ [] := by simp
      simp [content, hne, hs]
    · simp [content]

end LineBuffer

end Mend

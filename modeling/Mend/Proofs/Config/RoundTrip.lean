import Mathlib.Control.Monad.Basic
import Mend.Config.File
import Mend.Proofs.Disk.Folders
import Mend.Proofs.Toml.Document

/-!
# Configurations read back

A configuration reads as itself from the document that is written for it (`Config.read?_write`),
whatever texts stand in it and whichever optional fields it has. So a configuration that is saved is
loaded again; at a path in a directory where nothing stands, it is saved exactly when the temporary
file beside it can be written (`Config.load_save`).
-/

namespace Mend

open Toml

namespace GeneratorConfig

/-- The entries of the settings. -/
def entries (g : GeneratorConfig) : List Entry :=
  [⟨"command", writeTexts g.command, .array (g.command.map .text)⟩,
   ⟨"timeout_secs", Text.ofNat g.timeoutSecs, .int (.ofNat g.timeoutSecs)⟩,
   ⟨"output_limit_bytes", Text.ofNat g.outputLimitBytes, .int (.ofNat g.outputLimitBytes)⟩]

theorem write_eq (g : GeneratorConfig) : g.write = Entry.write g.entries := by
  simp [write, Entry.write, entries]

theorem texts?_map_text (ts : List Text) : texts? (.array (ts.map .text)) = some ts := by
  induction ts with
  | nil => rfl
  | cons t ts ih =>
    have hts : (ts.map Toml.text).mapM text? = some ts := ih
    simp [texts?, items?, List.mapM_cons, text?, hts]

/-- The settings are what their entries hold. -/
theorem ofToml?_fields {g : GeneratorConfig} (htimeout : g.timeoutSecs < word64)
    (houtput : g.outputLimitBytes < word64) :
    ofToml? (.table (Entry.fields g.entries)) = some g := by
  have hcommand := texts?_map_text g.command
  simp [ofToml?, record?, entries, Entry.fields, fieldOr, List.lookup_cons, hcommand, nat?, htimeout,
    houtput]

end GeneratorConfig

namespace Config

/-- The entry of a text that may be absent. -/
def optionalEntry (name : String) (t : Option Text) : List Entry :=
  t.toList.map fun t => ⟨name, quote t, .text t⟩

theorem writeOptional_eq (name : String) (t : Option Text) :
    writeOptional name t = Entry.write (optionalEntry name t) := by
  cases t with
  | none => rfl
  | some t => simp [writeOptional, Entry.write, optionalEntry]

/-- The entries of a configuration but those of its generator. -/
def entries (c : Config) : List Entry :=
  [⟨"max_turns", Text.ofNat c.maxTurns, .int (.ofNat c.maxTurns)⟩,
   ⟨"corrective_retries", Text.ofNat c.correctiveRetries, .int (.ofNat c.correctiveRetries)⟩,
   ⟨"strict_context", writeBool c.strictContext, .bool c.strictContext⟩,
   ⟨"max_file_bytes", Text.ofNat c.maxFileBytes, .int (.ofNat c.maxFileBytes)⟩,
   ⟨"listing_depth", Text.ofNat c.listingDepth, .int (.ofNat c.listingDepth)⟩] ++
  optionalEntry "system_prompt" c.systemPrompt ++ optionalEntry "log_dir" c.logDir

theorem write_eq (c : Config) :
    c.write = Entry.write c.entries ++ writeHeader "generator" ++ Entry.write c.generator.entries := by
  simp [write, entries, Entry.write, writeOptional_eq, GeneratorConfig.write_eq]

/-- A configuration whose numbers are small enough for a document. -/
structure Fits (c : Config) : Prop where
  maxTurns : c.maxTurns < word32
  correctiveRetries : c.correctiveRetries < word32
  maxFileBytes : c.maxFileBytes < 2 ^ 63
  listingDepth : c.listingDepth < 2 ^ 63
  timeoutSecs : c.generator.timeoutSecs < 2 ^ 63
  outputLimitBytes : c.generator.outputLimitBytes < 2 ^ 63

variable {c : Config}

theorem Fits.isSound (h : c.Fits) :
    (∀ e ∈ c.entries, e.IsSound) ∧ ∀ e ∈ c.generator.entries, e.IsSound := by
  have hentry : ∀ {name : String} {text : Text} {v : Toml}, IsBare name → Reads text v →
      (⟨name, text, v⟩ : Entry).IsSound := fun hname hreads => ⟨hname, hreads⟩
  have hnumber : ∀ {name : String} {n bound : Nat}, IsBare name → n < bound → bound ≤ 2 ^ 128 →
      (⟨name, Text.ofNat n, .int (.ofNat n)⟩ : Entry).IsSound :=
    fun hname hn hbound => ⟨hname, reads_ofNat (Nat.lt_of_lt_of_le hn hbound)⟩
  have hword : word32 ≤ 2 ^ 128 := by decide
  have hoptional : ∀ {name : String} (t : Option Text), IsBare name →
      ∀ e ∈ optionalEntry name t, e.IsSound := by
    intro name t hname e he
    obtain ⟨t, -, rfl⟩ := List.mem_map.1 he
    exact ⟨hname, reads_quote t⟩
  constructor
  · simp only [entries, List.forall_mem_append, List.forall_mem_cons]
    refine ⟨⟨⟨?_, ?_, ?_, ?_, ?_, by simp⟩, hoptional _ (by decide)⟩, hoptional _ (by decide)⟩
    · exact hnumber (by decide) h.maxTurns hword
    · exact hnumber (by decide) h.correctiveRetries hword
    · exact hentry (by decide) (reads_writeBool c.strictContext)
    · exact hnumber (by decide) h.maxFileBytes (by decide)
    · exact hnumber (by decide) h.listingDepth (by decide)
  · simp only [GeneratorConfig.entries, List.forall_mem_cons]
    refine ⟨?_, ?_, ?_, by simp⟩
    · exact hentry (by decide) (reads_writeTexts c.generator.command)
    · exact hnumber (by decide) h.timeoutSecs (by decide)
    · exact hnumber (by decide) h.outputLimitBytes (by decide)

/-- No two entries have one name. -/
theorem nodup_names (c : Config) :
    ((c.entries.map fun e => e.name.toList) ++ ["generator".toList]).Nodup := by
  rw [entries]
  cases c.systemPrompt <;> cases c.logDir <;>
    simp only [optionalEntry, Option.toList, List.map_append, List.map_cons, List.map_nil] <;> decide

/-- A configuration is what its entries hold. -/
theorem ofToml?_fields (h : c.Fits) :
    ofToml? (.table (Entry.fields c.entries ++
      [("generator".toList, .table (Entry.fields c.generator.entries))])) = some c := by
  have hword : 2 ^ 63 ≤ word64 := by decide
  have hgenerator := GeneratorConfig.ofToml?_fields (Nat.lt_of_lt_of_le h.timeoutSecs hword)
    (Nat.lt_of_lt_of_le h.outputLimitBytes hword)
  generalize Entry.fields c.generator.entries = settings at hgenerator
  have hturns := h.maxTurns
  have hretries := h.correctiveRetries
  have hbytes := Nat.lt_of_lt_of_le h.maxFileBytes hword
  have hdepth := Nat.lt_of_lt_of_le h.listingDepth hword
  obtain ⟨maxTurns, correctiveRetries, strictContext, maxFileBytes, listingDepth, systemPrompt,
    logDir, generator⟩ := c
  cases systemPrompt <;> cases logDir <;>
    simp [ofToml?, record?, entries, Entry.fields, fieldOr, field?, List.lookup_cons, nat?, text?, bool?,
      optionalEntry, hgenerator, hturns, hretries, hbytes, hdepth]

/-- A configuration reads as itself. -/
theorem read?_write (h : c.Fits) : read? (c.write ++ [Text.lf]) = some c := by
  obtain ⟨hsound, hgenerator⟩ := h.isSound
  have hnames : (c.generator.entries.map fun e => e.name.toList).Nodup := by
    simp only [GeneratorConfig.entries, List.map_cons, List.map_nil]
    decide
  have hheader : IsBare "generator" := by decide
  have hdocument := read?_document (by simp [entries]) hsound hgenerator hheader (nodup_names c)
    hnames
  have hlf : [Text.lf] = ['\n'] := rfl
  rw [write_eq, read?, hlf, hdocument]
  exact ofToml?_fields h

/-! ## Saving and loading -/

variable {path parent : Text} {d d' : Disk}

/-- The file that a configuration is written to before it replaces the one at its path. -/
def temporary (path : Text) : Text := Path.withExtension path "toml.tmp".toList

/-- What was saved is valid, and its document is in the file. -/
theorem save_spec (h : c.save path d = (.ok (), d')) :
    c.fault? = none ∧ ∃ loc, d'.find path = .ok (loc, .file (c.write ++ [Text.lf]).toBytes) := by
  rw [save] at h
  split at h
  · cases h
  rename_i hvalid
  split at h
  · cases h
  split at h
  · cases h
  dsimp only at h
  split at h
  · cases h
  rename_i d₁ hwrite
  split at h
  · cases h
  rename_i d₂ hrename
  cases h
  exact ⟨hvalid, Disk.find_of_rename hwrite hrename⟩

/-- What was saved is loaded. -/
theorem load_of_save (hfits : c.Fits) (h : c.save path d = (.ok (), d')) :
    load path d' = .ok c := by
  obtain ⟨hvalid, loc, hfind⟩ := save_spec h
  obtain ⟨hwalk, hnode⟩ := Disk.find_eq_ok.1 hfind
  have hthere : d'.isThere path = true := by simp [Disk.isThere, hfind, Except.toOption]
  have hread : d'.readText path = .ok (c.write ++ [Text.lf]) :=
    Disk.readText_eq_ok.2 ⟨loc, _, hwalk, hnode, Text.ofBytes?_toBytes _⟩
  rw [load, hthere, hread]
  dsimp only
  rw [read?_write hfits]
  dsimp only
  rw [hvalid]
  rfl

/-- A path in a directory, with nothing there. -/
structure IsFresh (d : Disk) (path : Text) : Prop where
  parent : ∃ parent, Path.parent? path = some parent ∧ (parent = [] ∨ d.isDir parent = true)
  place : ∃ loc, d.walk path = .ok loc ∧ d.node? loc = none

/-- At a fresh path, a valid configuration is saved exactly when its temporary file can be
written. -/
theorem exists_save_iff (hvalid : c.fault? = none) (hfresh : IsFresh d path) :
    (∃ d', c.save path d = (.ok (), d')) ↔ ∃ d', d.writeText (temporary path) [] = .ok d' := by
  obtain ⟨⟨parent, hparent, hdir⟩, loc, hwalk, hnode⟩ := hfresh
  have hmade : d.makeDirs parent = (.ok (), d) := by
    rcases hdir with rfl | hdir
    · rfl
    · exact Disk.makeDirs_of_isDir hdir
  have hfree : d.node? loc ≠ some .dir := by
    rw [hnode]
    nofun
  rw [save, hvalid]
  dsimp only
  rw [hparent]
  dsimp only
  rw [hmade]
  dsimp only
  constructor
  · rintro ⟨d', hsave⟩
    split at hsave
    · cases hsave
    -- whether a file can be written does not depend on its bytes
    rename_i d₁ hwrite
    obtain ⟨place, hplace, hnodir, -⟩ := Disk.writeBytes_eq_ok.1 hwrite
    exact ⟨_, Disk.writeBytes_eq_ok.2 ⟨place, hplace, hnodir, rfl⟩⟩
  · rintro ⟨d', hempty⟩
    obtain ⟨place, hplace, hnodir, -⟩ := Disk.writeBytes_eq_ok.1 hempty
    have hwrite : d.writeText (temporary path) (c.write ++ [Text.lf])
        = .ok (d.put place (.file (c.write ++ [Text.lf]).toBytes)) :=
      Disk.writeBytes_eq_ok.2 ⟨place, hplace, hnodir, rfl⟩
    obtain ⟨d'', hrename⟩ := Disk.exists_rename hwrite hwalk hfree
    rw [temporary] at hwrite hrename
    refine ⟨d'', ?_⟩
    rw [hwrite]
    dsimp only
    rw [hrename]

/-- A valid configuration is saved at a fresh path and loaded again as it was, whatever texts it
holds, when the temporary file beside the path can be written. -/
theorem load_save (hvalid : c.fault? = none) (hfits : c.Fits) (hfresh : IsFresh d path)
    (htemporary : ∃ d', d.writeText (temporary path) [] = .ok d') :
    ∃ d', c.save path d = (.ok (), d') ∧ load path d' = .ok c := by
  obtain ⟨d', hsave⟩ := (exists_save_iff hvalid hfresh).2 htemporary
  exact ⟨d', hsave, load_of_save hfits hsave⟩

/-- A text with characters that stand for something else in a document. -/
def thornyText : Text := "\"\"\"\\u00e9\\\n\r\n\t\u0000\u007f\u0001[x]\n# é = 1".toList

theorem load_save_sample :
    let c : Config := { systemPrompt := some thornyText, logDir := some [],
                        generator := { command := ["g".toList, [], thornyText] } }
    ∃ d', c.save "/c.toml".toList .blank = (.ok (), d') ∧ load "/c.toml".toList d' = .ok c := by
  refine load_save (by decide) ⟨by decide, by decide, by decide, by decide, by decide, by decide⟩
    ⟨⟨['/'], by decide, .inr (by decide)⟩, ["c.toml".toList], by rfl, by rfl⟩ ?_
  exact ⟨_, rfl⟩

/-- A path whose last name is as long as a name can be. -/
def longestFile : Text := '/' :: (List.replicate 250 'a' ++ ".toml".toList)

/-- The name of the temporary file can be too long where the name of the file is not. -/
theorem save_longestFile : ({} : Config).fault? = none ∧ ({} : Config).Fits ∧
    IsFresh .blank longestFile ∧ ¬ ∃ d', ({} : Config).save longestFile .blank = (.ok (), d') := by
  have hvalid : ({} : Config).fault? = none := by decide
  have hfresh : IsFresh .blank longestFile :=
    ⟨⟨['/'], by decide +kernel, .inr (by decide)⟩, [longestFile.tail], by decide +kernel,
      by decide +kernel⟩
  refine ⟨hvalid, ⟨by decide, by decide, by decide, by decide, by decide, by decide⟩, hfresh, ?_⟩
  rw [exists_save_iff hvalid hfresh]
  rintro ⟨d', hwrite⟩
  have hlong : (Disk.blank.writeText (temporary longestFile) []).isOk = false := by decide +kernel
  rw [hwrite] at hlong
  cases hlong

end Config

end Mend

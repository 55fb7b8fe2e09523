import Mend.Json.Recovery
import Mend.Proofs.Json.Grammar
import Mend.Proofs.Json.WholeNumbers

/-!
# Reading what was written

A value of whole numbers, in its compact form or in its indented one, reads as that value
(`Json.read?_compact`, `Json.read?_pretty`), with the members of its objects in the order of their
names (`Json.asRead`), as long as it does not nest too deeply (`Json.IsReadable`). The two forms
differ in the white space between tokens, and the grammar does not mind any (`Json.Layout`): in each
layout a value is spelled (`Json.Layout.spells_write`).
-/

namespace Mend

namespace Json

/-! ## Values -/

mutual

/-- Values that the reader gives back: they nest at most so deep, and their numbers are whole. -/
def IsReadable : Json → Nat → Prop
  | null, _ | bool _, _ | text _, _ => True
  | number n, _ => n.IsWhole
  | array vs, depth => 0 < depth ∧ AreReadable vs (depth - 1)
  | object ms, depth => 0 < depth ∧ HaveReadable ms (depth - 1)

/-- Items that the reader gives back. -/
def AreReadable : List Json → Nat → Prop
  | [], _ => True
  | v :: vs, depth => v.IsReadable depth ∧ AreReadable vs depth

/-- Members that the reader gives back. -/
def HaveReadable : List (Text × Json) → Nat → Prop
  | [], _ => True
  | (_, v) :: ms, depth => v.IsReadable depth ∧ HaveReadable ms depth

end

mutual

/-- A value as it is read: the members of each object in the order of their names, the last one of
each name. -/
def asRead : Json → Json
  | array vs => array (itemsAsRead vs)
  | object ms => ofMembers (membersAsRead ms)
  | v => v

/-- Items as they are read. -/
def itemsAsRead : List Json → List Json
  | [] => []
  | v :: vs => v.asRead :: itemsAsRead vs

/-- Members as they are read, before they are put in order. -/
def membersAsRead : List (Text × Json) → List (Text × Json)
  | [] => []
  | (k, v) :: ms => (k, v.asRead) :: membersAsRead ms

end

/-- Whether a value stands between brackets. -/
def isBracketed : Json → Bool
  | array _ | object _ => true
  | _ => false

/-- A bracketed value starts with its bracket. -/
theorem exists_compact_opener {v : Json} (h : v.isBracketed = true) :
    ∃ c t, v.compact = c :: t ∧ Nesting.isOpener c = true := by
  cases v with
  | array vs =>
    cases vs with
    | nil => exact ⟨'[', [']'], by simp [compact], rfl⟩
    | cons v vs => exact ⟨'[', v.compact ++ compactItems vs ++ [']'], by simp [compact], rfl⟩
  | object ms =>
    cases ms with
    | nil => exact ⟨'\x7b', ['\x7d'], by simp [compact], rfl⟩
    | cons m ms =>
      exact ⟨'\x7b', writeText m.1 ++ ':' :: m.2.compact ++ compactMembers ms ++ ['\x7d'],
        by simp [compact], rfl⟩
  | null => cases h
  | bool b => cases h
  | number n => cases h
  | text t => cases h

/-! ## Layouts -/

/-- White space for a form of values: before an item or a bracket on a level, and after a colon. -/
structure Layout where
  /-- What stands before an item, and before a bracket that closes. -/
  line : Nat → Text
  /-- What stands after a colon. -/
  space : Text
  isGap_line : ∀ level, ∀ c ∈ line level, isGap c = true
  isGap_space : ∀ c ∈ space, isGap c = true

/-- The layout of the compact form. -/
def Layout.tight : Layout := ⟨fun _ => [], [], by simp, by simp⟩

/-- The layout of the indented form. -/
def Layout.indented : Layout where
  line := newLine
  space := [' ']
  isGap_line level c hc := by
    rcases List.mem_cons.1 hc with rfl | hc
    · rfl
    · rw [List.eq_of_mem_replicate hc]
      rfl
  isGap_space c hc := by
    obtain rfl := List.mem_singleton.1 hc
    rfl

namespace Layout

@[simp]
theorem tight_line (level : Nat) : tight.line level = [] := rfl

@[simp]
theorem tight_space : tight.space = [] := rfl

@[simp]
theorem indented_line (level : Nat) : indented.line level = newLine level := rfl

@[simp]
theorem indented_space : indented.space = [' '] := rfl

mutual

/-- A value in a layout. -/
def write (l : Layout) : Nat → Json → Text
  | level, array (v :: vs) =>
    '[' :: (l.line (level + 1) ++ (l.write (level + 1) v ++ l.writeItems (level + 1) vs ++
      (l.line level ++ [']'])))
  | level, object ((k, v) :: ms) =>
    '\x7b' :: (l.line (level + 1) ++ (writeText k ++ ':' :: (l.space ++ l.write (level + 1) v) ++
      l.writeMembers (level + 1) ms ++ (l.line level ++ ['\x7d'])))
  | _, array [] => ['[', ']']
  | _, object [] => ['\x7b', '\x7d']
  | _, null => compact null
  | _, bool b => compact (bool b)
  | _, number n => compact (number n)
  | _, text t => compact (text t)

/-- Further items in a layout. -/
def writeItems (l : Layout) : Nat → List Json → Text
  | _, [] => []
  | level, v :: vs => ',' :: (l.line level ++ (l.write level v ++ l.writeItems level vs))

/-- Further members in a layout. -/
def writeMembers (l : Layout) : Nat → List (Text × Json) → Text
  | _, [] => []
  | level, (k, v) :: ms =>
    ',' :: (l.line level ++ (writeText k ++ ':' :: (l.space ++ l.write level v) ++
      l.writeMembers level ms))

end

mutual

theorem tight_write : ∀ (v : Json) (level : Nat), tight.write level v = v.compact
  | array (v :: vs), level => by
    simp [write, compact, tight_write v, tight_writeItems vs]
  | object ((k, v) :: ms), level => by
    simp [write, compact, tight_write v, tight_writeMembers ms]
  | array [], _ => by simp [write, compact]
  | object [], _ => by simp [write, compact]
  | null, _ => by simp [write]
  | bool _, _ => by simp [write]
  | number _, _ => by simp [write]
  | text _, _ => by simp [write]

theorem tight_writeItems : ∀ (vs : List Json) (level : Nat),
    tight.writeItems level vs = compactItems vs
  | [], _ => by simp [writeItems, compactItems]
  | v :: vs, level => by
    simp [writeItems, compactItems, tight_write v, tight_writeItems vs]

theorem tight_writeMembers : ∀ (ms : List (Text × Json)) (level : Nat),
    tight.writeMembers level ms = compactMembers ms
  | [], _ => by simp [writeMembers, compactMembers]
  | (k, v) :: ms, level => by
    simp [writeMembers, compactMembers, tight_write v, tight_writeMembers ms]

end

mutual

theorem indented_write : ∀ (v : Json) (level : Nat), indented.write level v = prettyAt level v
  | array (v :: vs), level => by
    simp [write, prettyAt, indented_write v, indented_writeItems vs]
  | object ((k, v) :: ms), level => by
    simp [write, prettyAt, indented_write v, indented_writeMembers ms]
  | array [], _ => by simp [write, prettyAt]
  | object [], _ => by simp [write, prettyAt]
  | null, _ => by simp [write, prettyAt]
  | bool _, _ => by simp [write, prettyAt]
  | number _, _ => by simp [write, prettyAt]
  | text _, _ => by simp [write, prettyAt]

theorem indented_writeItems : ∀ (vs : List Json) (level : Nat),
    indented.writeItems level vs = prettyItems level vs
  | [], _ => by simp [writeItems, prettyItems]
  | v :: vs, level => by
    simp [writeItems, prettyItems, indented_write v, indented_writeItems vs]

theorem indented_writeMembers : ∀ (ms : List (Text × Json)) (level : Nat),
    indented.writeMembers level ms = prettyMembers level ms
  | [], _ => by simp [writeMembers, prettyMembers]
  | (k, v) :: ms, level => by
    simp [writeMembers, prettyMembers, indented_write v, indented_writeMembers ms]

end

end Layout

/-! ## Reading a layout -/

/-- A written text spells that text. -/
theorem spellsText_flatMap_writeChar (t : Text) : SpellsText (t.flatMap writeChar ++ ['"']) t := by
  obtain ⟨w, hw, hspells⟩ := exists_spellsText (readText_flatMap_writeChar t [])
  rw [hw, List.append_nil]
  exact hspells

namespace Layout

mutual

/-- A value in a layout is spelled. -/
theorem spells_write (l : Layout) : ∀ (v : Json) (level depth : Nat), v.IsReadable depth →
    Spells depth (l.write level v) v.asRead
  | null, _, _, _ => .null
  | bool b, _, _, _ => by
    cases b with
    | true => exact .yes
    | false => exact .no
  | number n, _, _, h => .number (JsonNumber.read?_write h)
  | text t, _, _, _ => .text (spellsText_flatMap_writeChar t)
  | array [], level, depth + 1, _ => by
    rw [write, asRead, itemsAsRead]
    exact .emptyArray isGap_nil
  | array (v :: vs), level, depth + 1, h => by
    simp only [IsReadable, AreReadable, Nat.add_sub_cancel] at h
    have hv := l.spells_write v (level + 1) depth h.2.1
    have hitems := l.spells_writeItems vs (level + 1) depth h.2.2 (l.isGap_line (level + 1)) hv
      (l.isGap_line level)
    rw [asRead, itemsAsRead]
    simpa [write] using Spells.array hitems
  | object [], level, depth + 1, _ => by
    rw [write, asRead, membersAsRead]
    exact .emptyObject isGap_nil
  | object ((k, v) :: ms), level, depth + 1, h => by
    simp only [IsReadable, HaveReadable, Nat.add_sub_cancel] at h
    have hv := l.spells_write v (level + 1) depth h.2.1
    have hmembers := l.spells_writeMembers ms (level + 1) depth k h.2.2 (l.isGap_line (level + 1)) hv
      (l.isGap_line level)
    rw [asRead, membersAsRead]
    simpa [write] using Spells.object hmembers
  -- a value with brackets is readable at no depth that leaves no room for them
  | array _, _, 0, h => by simp [IsReadable] at h
  | object _, _, 0, h => by simp [IsReadable] at h

/-- Further items are spelled behind a first one. -/
theorem spells_writeItems (l : Layout) : ∀ (vs : List Json) (level depth : Nat)
    {gap w back : Text} {v : Json}, AreReadable vs depth → IsGap gap → Spells depth w v →
    IsGap back → SpellsItems depth (gap ++ (w ++ (l.writeItems level vs ++ back)))
      (v :: itemsAsRead vs)
  | [], level, depth, gap, w, back, v, _, hgap, hv, hback => by
    rw [writeItems, itemsAsRead]
    exact .last (.mk hgap hv hback)
  | x :: vs, level, depth, gap, w, back, v, h, hgap, hv, hback => by
    rw [AreReadable] at h
    have hx := l.spells_write x level depth h.1
    have hitems := l.spells_writeItems vs level depth h.2 (l.isGap_line level) hx hback
    rw [itemsAsRead]
    simpa [writeItems] using SpellsItems.more (.mk hgap hv isGap_nil) hitems

/-- Further members are spelled behind a first one. -/
theorem spells_writeMembers (l : Layout) : ∀ (ms : List (Text × Json)) (level depth : Nat)
    (k : Text) {gap w back : Text} {v : Json}, HaveReadable ms depth → IsGap gap →
    Spells depth w v → IsGap back →
    SpellsMembers depth (gap ++ (writeText k ++ ':' :: (l.space ++ (w ++
      (l.writeMembers level ms ++ back))))) ((k, v) :: membersAsRead ms)
  | [], level, depth, k, gap, w, back, v, _, hgap, hv, hback => by
    have hname := SpellsName.mk hgap (spellsText_flatMap_writeChar k) isGap_nil
    rw [writeMembers, membersAsRead]
    simpa [writeText] using SpellsMembers.last hname (.mk l.isGap_space hv hback)
  | (m, x) :: ms, level, depth, k, gap, w, back, v, h, hgap, hv, hback => by
    rw [HaveReadable] at h
    have hname := SpellsName.mk hgap (spellsText_flatMap_writeChar k) isGap_nil
    have hx := l.spells_write x level depth h.1
    have hmembers := l.spells_writeMembers ms level depth m h.2 (l.isGap_line level) hx hback
    rw [membersAsRead]
    simpa [writeMembers, writeText] using
      SpellsMembers.more hname (.mk l.isGap_space hv isGap_nil) hmembers

end

/-- A value in a layout reads as that value, with white space after it. -/
theorem read?_write (l : Layout) (level : Nat) {v : Json} (h : v.IsReadable maxDepth) {gap : Text}
    (hgap : IsGap gap) : read? (l.write level v ++ gap) = some v.asRead :=
  read?_eq_some_iff.2 (.mk isGap_nil (l.spells_write v level maxDepth h) hgap)

end Layout

/-- The compact form of a value reads as that value. -/
theorem read?_compact {v : Json} (h : v.IsReadable maxDepth) :
    read? v.compact = some v.asRead := by
  have hread := Layout.tight.read?_write 0 h isGap_nil
  rw [List.append_nil, Layout.tight_write] at hread
  exact hread

/-- The indented form of a value reads as that value, with a line feed after it. -/
theorem read?_pretty {v : Json} (h : v.IsReadable maxDepth) :
    read? (v.pretty ++ [Text.lf]) = some v.asRead := by
  have hgap : IsGap [Text.lf] := List.forall_mem_singleton.2 (by decide)
  have hread := Layout.indented.read?_write 0 h hgap
  rw [Layout.indented_write] at hread
  exact hread

end Json

end Mend

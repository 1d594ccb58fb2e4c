import Mathlib.Data.List.Forall2
import ShellPrompt.Markup.GlyphList
import ShellPrompt.Proofs.Markup.Grammar
import ShellPrompt.Proofs.Text.Splitting
/-!
Glyph lists: what is between the parentheses is read exactly when the grammar allows its items and
their number, and the list is the same whatever follows it.
-/

set_option autoImplicit false

namespace ShellPrompt

open Grammar

theorem exists_mapM_eq_ok {ε α β : Type} {f : α → Except ε β} {xs : List α}
    (h : ∀ x ∈ xs, ∃ y, f x = .ok y) : ∃ ys, xs.mapM f = .ok ys := by
  induction xs with
  | nil => exact ⟨[], rfl⟩
  | cons x xs ih =>
    obtain ⟨y, hy⟩ := h x List.mem_cons_self
    obtain ⟨ys, hys⟩ := ih fun x' hx' => h x' (List.mem_cons_of_mem x hx')
    refine ⟨y :: ys, ?_⟩
    rw [List.mapM_cons, hy, hys]
    rfl

theorem forall₂_of_mapM_eq_ok {ε α β : Type} {f : α → Except ε β} {xs : List α} {ys : List β}
    (h : xs.mapM f = .ok ys) : List.Forall₂ (fun x y => f x = .ok y) xs ys := by
  induction xs generalizing ys with
  | nil =>
    cases h
    exact .nil
  | cons x xs ih =>
    rw [List.mapM_cons] at h
    cases hx : f x with
    | error e =>
      rw [hx] at h
      cases h
    | ok y =>
      cases hxs : xs.mapM f with
      | error e =>
        rw [hx, hxs] at h
        cases h
      | ok rest =>
        rw [hx, hxs] at h
        cases h
        exact .cons hx (ih hxs)

theorem mapM_eq_ok_of_forall₂ {ε α β : Type} {f : α → Except ε β} {xs : List α} {ys : List β}
    (h : List.Forall₂ (fun x y => f x = .ok y) xs ys) : xs.mapM f = .ok ys := by
  induction h with
  | nil => rfl
  | cons hfirst _ ih =>
    rw [List.mapM_cons, hfirst, ih]
    rfl

theorem forall_of_mapM_eq_ok {ε α β : Type} {f : α → Except ε β} {xs : List α} {ys : List β}
    (h : xs.mapM f = .ok ys) : ∀ x ∈ xs, ∃ y, f x = .ok y := by
  have hpairs := forall₂_of_mapM_eq_ok h
  clear h
  induction hpairs with
  | nil => simp
  | cons hfirst _ ih =>
    intro x hx
    rcases List.mem_cons.mp hx with rfl | hx
    · exact ⟨_, hfirst⟩
    · exact ih x hx

theorem exists_mem_of_mapM_eq_error {ε α β : Type} {f : α → Except ε β} {xs : List α} {e : ε}
    (h : xs.mapM f = .error e) : ∃ x ∈ xs, f x = .error e := by
  induction xs with
  | nil => cases h
  | cons x xs ih =>
    rw [List.mapM_cons] at h
    cases hx : f x with
    | error e' =>
      rw [hx] at h
      cases h
      exact ⟨x, List.mem_cons_self, hx⟩
    | ok y =>
      cases hxs : xs.mapM f with
      | error e' =>
        rw [hx, hxs] at h
        cases h
        obtain ⟨x', hmem, hx'⟩ := ih hxs
        exact ⟨x', List.mem_cons_of_mem x hmem, hx'⟩
      | ok ys =>
        rw [hx, hxs] at h
        cases h

namespace GlyphList

theorem isNumber_iff (item : Text) : (1 < item.length && Text.isHex item) = true ↔
    2 ≤ item.length ∧ ∀ c ∈ item, c.isHexDigit = true := by
  cases item with
  | nil => simp
  | cons c item => simp [Text.isHex, Nat.lt_iff_add_one_le]

theorem exists_codePoint?_eq_ok_iff (item : Text) :
    (∃ c, codePoint? item = .ok c) ↔
      (2 ≤ item.length → (∀ c ∈ item, c.isHexDigit = true) →
        Text.hexNumber item ≤ 0x10FFFF) := by
  rw [codePoint?]
  by_cases hnumber : (1 < item.length && Text.isHex item) = true
  · rw [if_pos hnumber]
    obtain ⟨hlength, hhex⟩ := (isNumber_iff item).mp hnumber
    by_cases hbound : Text.hexNumber item < 0x110000
    · simp only [if_pos hbound]
      exact ⟨fun _ _ _ => by omega, fun _ => ⟨_, rfl⟩⟩
    · simp only [if_neg hbound]
      constructor
      · rintro ⟨c, hc⟩
        cases hc
      · intro h
        have := h hlength hhex
        omega
  · rw [if_neg hnumber]
    refine ⟨fun _ hlength hhex => ?_, fun _ => ⟨none, rfl⟩⟩
    exact absurd ((isNumber_iff item).mpr ⟨hlength, hhex⟩) hnumber

theorem of_codePoint?_eq_error {item : Text} {fault : MarkupFault}
    (h : codePoint? item = .error fault) :
    fault = .notACodePoint item ∧ 2 ≤ item.length ∧ (∀ c ∈ item, c.isHexDigit = true) ∧
      0x10FFFF < Text.hexNumber item := by
  rw [codePoint?] at h
  by_cases hnumber : (1 < item.length && Text.isHex item) = true
  · rw [if_pos hnumber] at h
    obtain ⟨hlength, hhex⟩ := (isNumber_iff item).mp hnumber
    by_cases hbound : Text.hexNumber item < 0x110000
    · simp only [if_pos hbound] at h
      cases h
    · simp only [if_neg hbound] at h
      cases h
      exact ⟨rfl, hlength, hhex, by omega⟩
  · rw [if_neg hnumber] at h
    cases h

theorem exists_separator_eq_ok_iff (item : Text) :
    (∃ glyph, separator item = .ok glyph) ↔ ∃ c, codePoint? item = .ok c := by
  rw [separator]
  cases codePoint? item with
  | error fault => simp
  | ok c => cases c <;> simp

theorem exists_fillGlyphs_eq_ok_iff (item : Text) :
    (∃ glyphs, fillGlyphs item = .ok glyphs) ↔ ∃ c, codePoint? item = .ok c := by
  rw [fillGlyphs]
  by_cases hash : item = [CodePoint.ofChar '#']
  · rw [if_pos hash, hash]
    exact ⟨fun _ => ⟨none, rfl⟩, fun _ => ⟨_, rfl⟩⟩
  · rw [if_neg hash]
    cases codePoint? item with
    | error fault => simp
    | ok c => cases c <;> simp

theorem codePoint?_of_separator_eq_error {item : Text} {fault : MarkupFault}
    (h : separator item = .error fault) : codePoint? item = .error fault := by
  rw [separator] at h
  cases hcode : codePoint? item with
  | error fault' =>
    rw [hcode] at h
    cases h
    rfl
  | ok c =>
    rw [hcode] at h
    cases c <;> cases h

theorem codePoint?_of_fillGlyphs_eq_error {item : Text} {fault : MarkupFault}
    (h : fillGlyphs item = .error fault) : codePoint? item = .error fault := by
  rw [fillGlyphs] at h
  by_cases hash : item = [CodePoint.ofChar '#']
  · rw [if_pos hash] at h
    cases h
  · rw [if_neg hash] at h
    cases hcode : codePoint? item with
    | error fault' =>
      rw [hcode] at h
      cases h
      rfl
    | ok c =>
      rw [hcode] at h
      cases c <;> cases h

theorem ne_nil_of_fillGlyphs_eq_ok {item : Text} {glyphs : List FillGlyph} (hitem : item ≠ [])
    (h : fillGlyphs item = .ok glyphs) : glyphs ≠ [] := by
  rw [fillGlyphs] at h
  by_cases hash : item = [CodePoint.ofChar '#']
  · rw [if_pos hash] at h
    cases h
    simp
  · rw [if_neg hash] at h
    cases hcode : codePoint? item with
    | error fault =>
      rw [hcode] at h
      cases h
    | ok c =>
      rw [hcode] at h
      cases c with
      | none =>
        cases h
        simpa using hitem
      | some c =>
        cases h
        simp

theorem join_items (contents : Text) : Text.join [','] (items contents) = contents := by
  cases contents with
  | nil => rfl
  | cons c contents => exact Text.join_splitAt ',' (c :: contents)

theorem items_join {parts : List Text} (h : ∀ item ∈ parts, IsItem item) :
    items (Text.join [','] parts) = parts := by
  cases parts with
  | nil => rfl
  | cons first parts =>
    have hjoin : Text.join [','] (first :: parts) ≠ [] := by
      have hfirst := (h first List.mem_cons_self).ne_nil
      cases parts <;> simp [Text.join, hfirst]
    have hsplit : ∀ item ∈ first :: parts, Text.splitAt ',' item = [item] := by
      intro item hitem
      exact Text.splitAt_of_not_mem (h item hitem).comma_not_mem
    rw [items, if_neg (by simpa using hjoin), Text.splitAt_join ',' (by simp),
      List.flatMap_congr hsplit, List.flatMap_singleton']

theorem not_any_isEmpty {parts : List Text} (h : ∀ item ∈ parts, IsItem item) :
    ¬ parts.any List.isEmpty = true := by
  rw [List.any_eq_true]
  rintro ⟨item, hitem, hnil⟩
  exact (h item hitem).ne_nil (List.isEmpty_iff.mp hnil)

theorem ne_nil_of_not_any_isEmpty {parts : List Text} {item : Text}
    (h : ¬ parts.any List.isEmpty = true) (hitem : item ∈ parts) : item ≠ [] := by
  rintro rfl
  exact h (List.any_eq_true.mpr ⟨[], hitem, rfl⟩)

theorem end_not_mem_join {parts : List Text} (h : ∀ item ∈ parts, IsItem item) :
    CodePoint.ofChar ')' ∉ Text.join [','] parts := by
  intro hmem
  rcases Text.mem_join hmem with hmem | ⟨item, hitem, hmem⟩
  · exact absurd hmem (by decide)
  · exact (h item hitem).end_not_mem hmem

theorem not_mem_of_mem_items {contents item : Text} (hend : CodePoint.ofChar ')' ∉ contents)
    (hitem : item ∈ items contents) :
    CodePoint.ofChar ',' ∉ item ∧ CodePoint.ofChar ')' ∉ item := by
  constructor
  · cases contents with
    | nil => cases hitem
    | cons c contents => exact Text.not_mem_of_mem_splitAt hitem
  · intro hmem
    apply hend
    rw [← join_items contents]
    exact Text.mem_join_of_mem hitem hmem

theorem isItem_of_mem_items {contents item : Text} (hend : CodePoint.ofChar ')' ∉ contents)
    (hitem : item ∈ items contents) (hne : item ≠ []) (hcode : ∃ c, codePoint? item = .ok c) :
    IsItem item :=
  have ⟨hcomma, hclose⟩ := not_mem_of_mem_items hend hitem
  ⟨hne, hcomma, hclose, (exists_codePoint?_eq_ok_iff item).mp hcode⟩

theorem exists_ofList?_eq_some {glyphs : List Text}
    (hcount : glyphs.length = 0 ∨ glyphs.length = 2 ∨ glyphs.length = 4) :
    ∃ set, GlyphSet.ofList? glyphs = some set := by
  match glyphs, hcount with
  | [], _ => exact ⟨_, rfl⟩
  | [a, b], _ => exact ⟨_, rfl⟩
  | [a, b, c, d], _ => exact ⟨_, rfl⟩

theorem exists_separatorsOf_eq_ok {parts : List Text} (opening : Text) (inverted : Bool)
    (hcount : parts.length = 0 ∨ parts.length = 2 ∨ parts.length = 4)
    (h : ∀ item ∈ parts, IsItem item) :
    ∃ separators, separatorsOf opening (Text.join [','] parts) inverted = .ok separators := by
  have hglyph : ∀ item ∈ parts, ∃ glyph, separator item = .ok glyph := by
    intro item hitem
    rw [exists_separator_eq_ok_iff, exists_codePoint?_eq_ok_iff]
    exact (h item hitem).codePoint
  obtain ⟨glyphs, hglyphs⟩ := exists_mapM_eq_ok hglyph
  rw [(forall₂_of_mapM_eq_ok hglyphs).length_eq] at hcount
  obtain ⟨set, hset⟩ := exists_ofList?_eq_some hcount
  refine ⟨⟨set, inverted⟩, ?_⟩
  rw [separatorsOf, items_join h, if_neg (not_any_isEmpty h), hglyphs]
  simp only [hset]

theorem forall_isItem_of_separatorsOf_eq_ok {opening contents : Text} {inverted : Bool}
    {separators : Separators} (hend : CodePoint.ofChar ')' ∉ contents)
    (h : separatorsOf opening contents inverted = .ok separators) :
    ((items contents).length = 0 ∨ (items contents).length = 2 ∨ (items contents).length = 4) ∧
      ∀ item ∈ items contents, IsItem item := by
  rw [separatorsOf] at h
  by_cases hempty : (items contents).any List.isEmpty = true
  · rw [if_pos hempty] at h
    cases h
  rw [if_neg hempty] at h
  cases hglyphs : (items contents).mapM separator with
  | error fault =>
    rw [hglyphs] at h
    cases h
  | ok glyphs =>
    rw [hglyphs] at h
    cases hset : GlyphSet.ofList? glyphs with
    | none =>
      simp only [hset] at h
      cases h
    | some set =>
      constructor
      · rw [(forall₂_of_mapM_eq_ok hglyphs).length_eq, GlyphSet.ofList?_eq_some_iff.mp hset]
        cases set <;> simp [GlyphSet.toList]
      · intro item hitem
        have hread := forall_of_mapM_eq_ok hglyphs item hitem
        exact isItem_of_mem_items hend hitem (ne_nil_of_not_any_isEmpty hempty hitem)
          ((exists_separator_eq_ok_iff item).mp hread)

theorem exists_fillOf_eq_ok {parts : List Text} (opening : Text) (hcount : 1 ≤ parts.length)
    (h : ∀ item ∈ parts, IsItem item) :
    ∃ fill, fillOf opening (Text.join [','] parts) = .ok fill := by
  have hglyph : ∀ item ∈ parts, ∃ glyphs, fillGlyphs item = .ok glyphs := by
    intro item hitem
    rw [exists_fillGlyphs_eq_ok_iff, exists_codePoint?_eq_ok_iff]
    exact (h item hitem).codePoint
  obtain ⟨glyphs, hglyphs⟩ := exists_mapM_eq_ok hglyph
  rw [fillOf, items_join h, if_neg (not_any_isEmpty h), hglyphs]
  cases forall₂_of_mapM_eq_ok hglyphs with
  | nil => simp at hcount
  | @cons item first parts others hfirst hothers =>
    have hne := ne_nil_of_fillGlyphs_eq_ok (h item List.mem_cons_self).ne_nil hfirst
    obtain ⟨glyph, more, rfl⟩ := List.exists_cons_of_ne_nil hne
    exact ⟨_, rfl⟩

theorem forall_isItem_of_fillOf_eq_ok {opening contents : Text} {fill : Fill}
    (hend : CodePoint.ofChar ')' ∉ contents) (h : fillOf opening contents = .ok fill) :
    1 ≤ (items contents).length ∧ ∀ item ∈ items contents, IsItem item := by
  rw [fillOf] at h
  by_cases hempty : (items contents).any List.isEmpty = true
  · rw [if_pos hempty] at h
    cases h
  rw [if_neg hempty] at h
  cases hglyphs : (items contents).mapM fillGlyphs with
  | error fault =>
    rw [hglyphs] at h
    cases h
  | ok glyphs =>
    constructor
    · cases hitems : items contents with
      | nil =>
        rw [hitems] at h
        cases h
      | cons first others => simp
    · intro item hitem
      have hread := forall_of_mapM_eq_ok hglyphs item hitem
      exact isItem_of_mem_items hend hitem (ne_nil_of_not_any_isEmpty hempty hitem)
        ((exists_fillGlyphs_eq_ok_iff item).mp hread)

theorem scan_glyphList {opening : Text} {make : Text → Except MarkupFault Lexeme}
    {parts : List Text} {lexeme : Lexeme} (h : ∀ item ∈ parts, IsItem item)
    (hmake : make (Text.join [','] parts) = .ok lexeme) (rest : Text) :
    scan opening make (glyphList opening parts ++ rest) = .ok (lexeme, rest) := by
  have hdrop : (glyphList opening parts ++ rest).drop opening.length =
      Text.join [','] parts ++ CodePoint.ofChar ')' :: rest := by
    simp [glyphList]
  have hcut : Text.cut? ')' ((glyphList opening parts ++ rest).drop opening.length) =
      some (Text.join [','] parts, rest) :=
    Text.cut?_eq_some_iff.mpr ⟨hdrop, end_not_mem_join h⟩
  simp only [scan, hcut, hmake]

theorem exists_contents_of_scan_eq_ok {opening s rest : Text}
    {make : Text → Except MarkupFault Lexeme} {lexeme : Lexeme}
    (h : scan opening make (opening ++ s) = .ok (lexeme, rest)) :
    ∃ contents, s = contents ++ CodePoint.ofChar ')' :: rest ∧
      CodePoint.ofChar ')' ∉ contents ∧ make contents = .ok lexeme := by
  rw [scan, List.drop_left] at h
  cases hcut : Text.cut? ')' s with
  | none =>
    rw [hcut] at h
    cases h
  | some found =>
    obtain ⟨contents, after⟩ := found
    obtain ⟨hs, hend⟩ := Text.cut?_eq_some_iff.mp hcut
    cases hmake : make contents with
    | error fault =>
      simp only [hcut, hmake] at h
      cases h
    | ok made =>
      simp only [hcut, hmake] at h
      cases h
      exact ⟨contents, hs, hend, hmake⟩

end GlyphList

end ShellPrompt

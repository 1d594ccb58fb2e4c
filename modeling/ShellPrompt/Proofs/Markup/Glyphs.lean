import ShellPrompt.Proofs.Markup.Appending
import ShellPrompt.Proofs.Text.Hexadecimal
/-!
Glyph lists written by number. A number of two or more digits stands for one code point, also for
one that parts or ends a list. Main statement: a list of numbers, in a fill with `#` among them, is
read as one token with just these glyphs, and so every fill can be written (`glyphs_read_back`).
-/

set_option autoImplicit false

namespace ShellPrompt

open Grammar

namespace GlyphList

/--
The item is the number of the code point: at least two hexadecimal digits, small letters or capital
ones, with or without zeros in front.
-/
structure Numbers (item : Text) (c : CodePoint) : Prop where
  two_le_length : 2 ≤ item.length
  lower : ∃ width, item.lower = Text.hexadecimal width c.val

inductive Writes : Text → FillGlyph → Prop
  | number {item : Text} {c : CodePoint} (h : Numbers item c) : Writes item (.glyph c)
  | repeatLast : Writes ['#'] .repeatLast

/--
The glyphs of a fill that an item stands for: one for a number or `#`, and for any other text one
for each of its characters.
-/
inductive Spells : Text → List FillGlyph → Prop
  | single {item : Text} {glyph : FillGlyph} (h : Writes item glyph) : Spells item [glyph]
  | text {item : Text} (hash : item ≠ ['#'])
      (h : ¬ (2 ≤ item.length ∧ ∀ c ∈ item, c.isHexDigit = true)) :
      Spells item (item.map .glyph)

def written : FillGlyph → Text
  | .glyph c => Text.hexadecimal 2 c.val
  | .repeatLast => ['#']

variable {item : Text} {c : CodePoint} {items : List Text}

namespace Numbers

theorem isHexDigit (h : Numbers item c) {d : CodePoint} (hd : d ∈ item) : d.isHexDigit = true := by
  obtain ⟨width, hlower⟩ := h.lower
  refine Text.isHexDigit_of_mem_of_lower ?_ hd
  intro digit hdigit
  rw [hlower] at hdigit
  exact Text.isHexDigit_of_mem_hexadecimal hdigit

theorem hexNumber_eq (h : Numbers item c) : Text.hexNumber item = c.val := by
  obtain ⟨width, hlower⟩ := h.lower
  rw [← Text.hexNumber_lower, hlower, Text.hexNumber_hexadecimal]

theorem codePoint?_eq (h : Numbers item c) : codePoint? item = .ok (some c) := by
  have hnumber := (isNumber_iff item).mpr ⟨h.two_le_length, fun _ hd => h.isHexDigit hd⟩
  rw [codePoint?, if_pos hnumber, h.hexNumber_eq, if_pos c.val_lt, CodePoint.ofNat,
    dif_pos c.val_lt]

theorem isItem (h : Numbers item c) : IsItem item where
  ne_nil := by
    rintro rfl
    exact absurd h.two_le_length (by decide)
  comma_not_mem := fun hmem => absurd (h.isHexDigit hmem) (by decide)
  end_not_mem := fun hmem => absurd (h.isHexDigit hmem) (by decide)
  codePoint := by
    intro _ _
    rw [h.hexNumber_eq]
    exact Nat.le_of_lt_succ c.val_lt

end Numbers

theorem numbers_of_codePoint?_eq_some (h : codePoint? item = .ok (some c)) : Numbers item c := by
  rw [codePoint?] at h
  by_cases hnumber : (1 < item.length && Text.isHex item) = true
  · rw [if_pos hnumber] at h
    obtain ⟨hlength, hdigits⟩ := (isNumber_iff item).mp hnumber
    have hne : item ≠ [] := List.ne_nil_of_length_pos (by omega)
    dsimp only at h
    split at h
    next hlt =>
      cases h
      refine ⟨hlength, item.length, ?_⟩
      rw [CodePoint.val_ofNat hlt]
      exact Text.lower_eq_hexadecimal hne hdigits
    next => cases h
  · rw [if_neg hnumber] at h
    cases h

theorem numbers_hexadecimal (c : CodePoint) : Numbers (Text.hexadecimal 2 c.val) c where
  two_le_length := by
    rw [Text.hexadecimal_eq, List.length_append, List.length_replicate]
    omega
  lower := ⟨2, Text.lower_hexadecimal 2 c.val⟩

theorem writes_written (glyph : FillGlyph) : Writes (written glyph) glyph := by
  cases glyph with
  | glyph c => exact .number (numbers_hexadecimal c)
  | repeatLast => exact .repeatLast

theorem Writes.isItem {glyph : FillGlyph} (h : Writes item glyph) : IsItem item := by
  cases h with
  | number h => exact h.isItem
  | repeatLast => exact ⟨by simp, by simp, by simp, fun hlength => absurd hlength (by decide)⟩

theorem Writes.fillGlyphs_eq {glyph : FillGlyph} (h : Writes item glyph) :
    fillGlyphs item = .ok [glyph] := by
  cases h with
  | number h =>
    have hash : item ≠ [CodePoint.ofChar '#'] := by
      rintro rfl
      exact absurd h.two_le_length (by decide)
    rw [fillGlyphs, if_neg hash, h.codePoint?_eq]
  | repeatLast => rfl

theorem spells_of_fillGlyphs_eq_ok {glyphs : List FillGlyph} (h : fillGlyphs item = .ok glyphs) :
    Spells item glyphs := by
  rw [fillGlyphs] at h
  by_cases hash : item = [CodePoint.ofChar '#']
  · rw [if_pos hash] at h
    cases h
    exact .single (hash ▸ .repeatLast)
  rw [if_neg hash] at h
  cases hcode : codePoint? item with
  | error fault =>
    rw [hcode] at h
    cases h
  | ok found =>
    rw [hcode] at h
    cases found with
    | some c =>
      cases h
      exact .single (.number (numbers_of_codePoint?_eq_some hcode))
    | none =>
      cases h
      refine .text hash fun hdigits => ?_
      rw [codePoint?, if_pos ((isNumber_iff item).mpr hdigits)] at hcode
      dsimp only at hcode
      split at hcode <;> cases hcode

theorem forall_isItem {α : Type} {R : Text → α → Prop} (hitem : ∀ item a, R item a → IsItem item)
    {glyphs : List α} (h : List.Forall₂ R items glyphs) : ∀ item ∈ items, IsItem item := by
  induction h with
  | nil => simp
  | cons hfirst _ ih => exact List.forall_mem_cons.mpr ⟨hitem _ _ hfirst, ih⟩

theorem fillOf_of_writes {fill : Fill} (h : List.Forall₂ Writes items fill.toList) :
    fillOf fillOpening (Text.join [','] items) = .ok fill := by
  have hitems := forall_isItem (fun _ _ => Writes.isItem) h
  have hglyphs : items.mapM fillGlyphs = .ok (fill.toList.map ([·])) := by
    refine mapM_eq_ok_of_forall₂ ?_
    rw [List.forall₂_map_right_iff]
    exact h.imp fun _ _ => Writes.fillGlyphs_eq
  have hflatten : (fill.toList.map ([·])).flatten = fill.toList := List.flatMap_singleton' _
  rw [fillOf, items_join hitems, if_neg (not_any_isEmpty hitems), hglyphs]
  simp only [hflatten, Fill.ofList?_toList]

theorem exists_spells_of_fillOf_eq_ok {contents : Text} {fill : Fill}
    (h : fillOf fillOpening contents = .ok fill) :
    ∃ parts : List (List FillGlyph), List.Forall₂ Spells (GlyphList.items contents) parts ∧
      fill.toList = parts.flatten := by
  rw [fillOf] at h
  by_cases hempty : (GlyphList.items contents).any List.isEmpty = true
  · rw [if_pos hempty] at h
    cases h
  rw [if_neg hempty] at h
  cases hparts : (GlyphList.items contents).mapM fillGlyphs with
  | error fault =>
    rw [hparts] at h
    cases h
  | ok parts =>
    refine ⟨parts, (forall₂_of_mapM_eq_ok hparts).imp fun _ _ => spells_of_fillGlyphs_eq_ok, ?_⟩
    rw [hparts] at h
    dsimp only at h
    cases hflatten : parts.flatten with
    | nil =>
      rw [hflatten] at h
      cases h
    | cons first others =>
      rw [hflatten] at h
      cases h
      rfl

theorem exists_spells_of_mem_tokens {markup : Text} {token : Token} {fill : Fill}
    (htoken : token ∈ (Lexing.ofMarkup markup).tokens) (hfill : token.lexeme = .fill fill) :
    ∃ (items : List Text) (parts : List (List FillGlyph)),
      token.raw = glyphList fillOpening items ∧ List.Forall₂ Spells items parts ∧
        fill.toList = parts.flatten := by
  obtain ⟨c, raw, hraw, _, hscan⟩ := Lexing.exists_scan_of_mem_ofRest htoken
  rw [hfill] at hscan
  obtain ⟨⟨s, hs⟩, hscan⟩ := Lexeme.isReadFrom_of_scan_eq_ok hscan
  rw [← hs] at hscan
  obtain ⟨contents, rfl, _, hmake⟩ := exists_contents_of_scan_eq_ok hscan
  cases hmade : fillOf fillOpening contents with
  | error fault =>
    rw [hmade] at hmake
    cases hmake
  | ok made =>
    rw [hmade] at hmake
    cases hmake
    obtain ⟨parts, hparts, hglyphs⟩ := exists_spells_of_fillOf_eq_ok hmade
    refine ⟨_, parts, ?_, hparts, hglyphs⟩
    rw [hraw, ← hs, glyphList, join_items, List.append_assoc]

theorem separatorsOf_of_numbers {points : List CodePoint} {set : GlyphSet}
    (hset : set.toList = points.map ([·])) (inverted : Bool)
    (h : List.Forall₂ Numbers items points) :
    separatorsOf (opening inverted) (Text.join [','] items) inverted = .ok ⟨set, inverted⟩ := by
  have hitems := forall_isItem (fun _ _ => Numbers.isItem) h
  have hglyphs : items.mapM separator = .ok (points.map ([·])) := by
    refine mapM_eq_ok_of_forall₂ ?_
    rw [List.forall₂_map_right_iff]
    refine h.imp fun item c hnumber => ?_
    rw [separator, hnumber.codePoint?_eq]
  rw [separatorsOf, items_join hitems, if_neg (not_any_isEmpty hitems), hglyphs]
  simp only [← hset, GlyphSet.ofList?_toList]

theorem ofMarkup_fill {fill : Fill} (h : List.Forall₂ Writes items fill.toList) :
    Lexing.ofMarkup (glyphList fillOpening items) =
      ⟨[⟨0, glyphList fillOpening items, .fill fill⟩], none⟩ := by
  refine Lexing.ofMarkup_of_scan_eq_ok rfl ?_
  have hscan : scanFill (glyphList fillOpening items ++ []) = .ok (.fill fill, []) := by
    refine scan_glyphList (forall_isItem (fun _ _ => Writes.isItem) h) ?_ []
    rw [fillOf_of_writes h]
    rfl
  rw [List.append_nil] at hscan
  exact hscan

theorem ofMarkup_separators {points : List CodePoint} {set : GlyphSet}
    (hset : set.toList = points.map ([·])) (inverted : Bool)
    (h : List.Forall₂ Numbers items points) :
    Lexing.ofMarkup (glyphList (opening inverted) items) =
      ⟨[⟨0, glyphList (opening inverted) items, .separators ⟨set, inverted⟩⟩], none⟩ := by
  have hscan : scanSeparators inverted (glyphList (opening inverted) items ++ []) =
      .ok (.separators ⟨set, inverted⟩, []) := by
    refine scan_glyphList (forall_isItem (fun _ _ => Numbers.isItem) h) ?_ []
    change (separatorsOf (opening inverted) _ inverted).map Lexeme.separators = _
    rw [separatorsOf_of_numbers hset inverted h]
    rfl
  rw [List.append_nil] at hscan
  cases inverted with
  | false => exact Lexing.ofMarkup_of_scan_eq_ok rfl hscan
  | true => exact Lexing.ofMarkup_of_scan_eq_ok rfl hscan

/--
Glyphs read back. A fill of code points by number and of `#` is one token with these glyphs in this
order; separators by number, none, two or four of them, are one token with these, inverted as the
list opens. In any markup a fill has the glyphs that its items stand for, each of them a code point
or the repeat, and the numbers of these glyphs are read as the same fill.
-/
theorem glyphs_read_back :
    (∀ (glyphs : List FillGlyph) (items : List Text), glyphs ≠ [] →
      List.Forall₂ Writes items glyphs →
      ∃ fill : Fill, fill.toList = glyphs ∧
        Lexing.ofMarkup (glyphList fillOpening items) =
          ⟨[⟨0, glyphList fillOpening items, .fill fill⟩], none⟩) ∧
    (∀ (inverted : Bool) (points : List CodePoint) (items : List Text),
      points.length = 0 ∨ points.length = 2 ∨ points.length = 4 →
      List.Forall₂ Numbers items points →
      ∃ set : GlyphSet, set.toList = points.map ([·]) ∧
        Lexing.ofMarkup (glyphList (opening inverted) items) =
          ⟨[⟨0, glyphList (opening inverted) items, .separators ⟨set, inverted⟩⟩], none⟩) ∧
    (∀ markup, ∀ token ∈ (Lexing.ofMarkup markup).tokens, ∀ fill, token.lexeme = .fill fill →
      (∃ (items : List Text) (parts : List (List FillGlyph)),
        token.raw = glyphList fillOpening items ∧ List.Forall₂ Spells items parts ∧
          fill.toList = parts.flatten) ∧
      (∀ glyph ∈ fill.toList, glyph = .repeatLast ∨ ∃ c, glyph = .glyph c) ∧
      ∃ items, List.Forall₂ Writes items fill.toList ∧
        Lexing.ofMarkup (glyphList fillOpening items) =
          ⟨[⟨0, glyphList fillOpening items, .fill fill⟩], none⟩) := by
  refine ⟨?fills, ?separators, ?reached⟩
  case fills =>
    intro glyphs items hne h
    obtain ⟨first, others, rfl⟩ := List.exists_cons_of_ne_nil hne
    exact ⟨⟨first, others⟩, rfl, ofMarkup_fill h⟩
  case separators =>
    intro inverted points items hcount h
    have hlength : (points.map ([·])).length = points.length := List.length_map _
    rw [← hlength] at hcount
    obtain ⟨set, hset⟩ := exists_ofList?_eq_some hcount
    have hglyphs := (GlyphSet.ofList?_eq_some_iff.mp hset).symm
    exact ⟨set, hglyphs, ofMarkup_separators hglyphs inverted h⟩
  case reached =>
    intro markup token htoken fill hfill
    have hwritten : List.Forall₂ Writes (fill.toList.map written) fill.toList := by
      rw [List.forall₂_map_left_iff, List.forall₂_same]
      exact fun glyph _ => writes_written glyph
    refine ⟨exists_spells_of_mem_tokens htoken hfill, ?_, _, hwritten, ofMarkup_fill hwritten⟩
    intro glyph _
    cases glyph with
    | glyph c => exact Or.inr ⟨c, rfl⟩
    | repeatLast => exact Or.inl rfl

/--
A comma, a parenthesis, a surrogate and `#` itself by number, beside the `#` that repeats; the
greatest code point as a separator; and a fill with text of two characters in other markup.
-/
theorem glyphs_read_back_marks :
    let items : List Text := ["002C", "#", "d800", "0029", "23"]
    let glyphs : List FillGlyph := [.glyph ',', .repeatLast, .glyph (CodePoint.ofNat 0xD800),
      .glyph ')', .glyph '#']
    let pair : List Text := ["10fFfF", "00"]
    let points : List CodePoint := [CodePoint.ofNat 0x10FFFF, CodePoint.ofNat 0]
    let markup : Text := "b F(2C,xy,#)\"z\""
    (List.Forall₂ Writes items glyphs ∧ ∃ fill : Fill, fill.toList = glyphs ∧
      Lexing.ofMarkup "F(002C,#,d800,0029,23)" =
        ⟨[⟨0, "F(002C,#,d800,0029,23)", .fill fill⟩], none⟩) ∧
    (List.Forall₂ Numbers pair points ∧ ∃ set : GlyphSet, set.toList = points.map ([·]) ∧
      Lexing.ofMarkup "S!(10fFfF,00)" =
        ⟨[⟨0, "S!(10fFfF,00)", .separators ⟨set, true⟩⟩], none⟩) ∧
    ∃ token ∈ (Lexing.ofMarkup markup).tokens, ∃ fill, token.lexeme = .fill fill ∧
      fill.toList = [.glyph ',', .glyph 'x', .glyph 'y', .repeatLast] ∧
      ∃ items, List.Forall₂ Writes items fill.toList ∧
        Lexing.ofMarkup (glyphList fillOpening items) =
          ⟨[⟨0, glyphList fillOpening items, .fill fill⟩], none⟩ := by
  intro items glyphs pair points markup
  obtain ⟨hfills, hseparators, hreached⟩ := glyphs_read_back
  refine ⟨?_, ?_, ?_⟩
  · have hwrites : List.Forall₂ Writes items glyphs :=
      .cons (.number ⟨by decide, 4, by decide +kernel⟩) (.cons .repeatLast
        (.cons (.number ⟨by decide, 4, by decide +kernel⟩)
          (.cons (.number ⟨by decide, 4, by decide +kernel⟩)
            (.cons (.number ⟨by decide, 2, by decide +kernel⟩) .nil))))
    exact ⟨hwrites, hfills glyphs items (by decide) hwrites⟩
  · have hnumbers : List.Forall₂ Numbers pair points :=
      .cons ⟨by decide, 6, by decide +kernel⟩ (.cons ⟨by decide, 2, by decide +kernel⟩ .nil)
    exact ⟨hnumbers, hseparators true points pair (by decide) hnumbers⟩
  · have htoken := List.get_mem (Lexing.ofMarkup markup).tokens ⟨2, by decide +kernel⟩
    have hfill : ((Lexing.ofMarkup markup).tokens.get ⟨2, by decide +kernel⟩).lexeme =
        .fill ⟨.glyph ',', [.glyph 'x', .glyph 'y', .repeatLast]⟩ := by decide +kernel
    exact ⟨_, htoken, _, hfill, rfl, (hreached markup _ htoken _ hfill).2.2⟩

end GlyphList

end ShellPrompt

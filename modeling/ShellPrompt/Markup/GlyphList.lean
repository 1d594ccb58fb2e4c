import ShellPrompt.Markup.Scan
import ShellPrompt.Markup.Token
/-!
Glyph lists: `S(` or `S!(` with separators, `F(` with a fill. Items are parted by commas and none
is empty. An item of two or more hexadecimal digits is a code point, any other is taken as text.
-/

set_option autoImplicit false

namespace ShellPrompt

namespace GlyphList

def separatorsOpening : Text := ['S', '(']

def invertedOpening : Text := ['S', '!', '(']

def fillOpening : Text := ['F', '(']

def begins (s : Text) : Bool :=
  separatorsOpening.isPrefixOf s || invertedOpening.isPrefixOf s || fillOpening.isPrefixOf s

def items (contents : Text) : List Text :=
  if contents.isEmpty then [] else Text.splitAt ',' contents

def raw (opening contents : Text) : Text :=
  opening ++ contents ++ ([')'] : Text)

/-- The code point that an item writes by number, if it does. -/
def codePoint? (item : Text) : Except MarkupFault (Option CodePoint) :=
  if 1 < item.length && Text.isHex item then
    let n := Text.hexNumber item
    if n < 0x110000 then .ok (some (CodePoint.ofNat n)) else .error (.notACodePoint item)
  else .ok none

def separator (item : Text) : Except MarkupFault Text :=
  match codePoint? item with
  | .error fault => .error fault
  | .ok none => .ok item
  | .ok (some c) => .ok [c]

/-- The fill glyphs that an item stands for: `#` repeats, and text gives one glyph each. -/
def fillGlyphs (item : Text) : Except MarkupFault (List FillGlyph) :=
  if item = [CodePoint.ofChar '#'] then .ok [.repeatLast]
  else
    match codePoint? item with
    | .error fault => .error fault
    | .ok none => .ok (item.map .glyph)
    | .ok (some c) => .ok [.glyph c]

def separatorsOf (opening contents : Text) (inverted : Bool) : Except MarkupFault Separators :=
  if (items contents).any List.isEmpty then .error (.emptyGlyph (raw opening contents))
  else
    match (items contents).mapM separator with
    | .error fault => .error fault
    | .ok glyphs =>
      match GlyphSet.ofList? glyphs with
      | none => .error (.separatorCount glyphs.length (raw opening contents))
      | some set => .ok ⟨set, inverted⟩

def fillOf (opening contents : Text) : Except MarkupFault Fill :=
  if (items contents).any List.isEmpty then .error (.emptyGlyph (raw opening contents))
  else
    match (items contents).mapM fillGlyphs with
    | .error fault => .error fault
    | .ok glyphs =>
      match Fill.ofList? glyphs.flatten with
      | none => .error (.emptyFill (raw opening contents))
      | some fill => .ok fill

def scan (opening : Text) (lexeme : Text → Except MarkupFault Lexeme) (s : Text) : Scan Lexeme :=
  match Text.cut? ')' (s.drop opening.length) with
  | none => .error ⟨s, .unterminatedList opening⟩
  | some (contents, rest) =>
    match lexeme contents with
    | .error fault => .error ⟨s, fault⟩
    | .ok lexeme => .ok (lexeme, rest)

def scanSeparators (inverted : Bool) (s : Text) : Scan Lexeme :=
  let opening := if inverted then invertedOpening else separatorsOpening
  scan opening (fun contents => (separatorsOf opening contents inverted).map .separators) s

def scanFill (s : Text) : Scan Lexeme :=
  scan fillOpening (fun contents => (fillOf fillOpening contents).map .fill) s

theorem length_lt_of_cut? {mark : CodePoint} {s before after : Text}
    (h : Text.cut? mark s = some (before, after)) : after.length < s.length := by
  induction s generalizing before after with
  | nil => simp [Text.cut?] at h
  | cons c s ih =>
    unfold Text.cut? at h
    split at h
    · cases h
      simp
    · simp only [Option.map_eq_some_iff] at h
      obtain ⟨⟨b, a⟩, hcut, heq⟩ := h
      cases heq
      exact Nat.lt_succ_of_lt (ih hcut)

theorem length_lt_of_scan {opening s rest : Text} {make : Text → Except MarkupFault Lexeme}
    {lexeme : Lexeme} (h : scan opening make s = .ok (lexeme, rest)) :
    rest.length < s.length := by
  unfold scan at h
  split at h
  · cases h
  next contents after hcut =>
    split at h
    · cases h
    · cases h
      have := length_lt_of_cut? hcut
      simp only [List.length_drop] at this
      omega

end GlyphList

end ShellPrompt

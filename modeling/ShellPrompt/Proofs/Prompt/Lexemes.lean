import ShellPrompt.Prompt.Compose
import ShellPrompt.Proofs.Markup.Written
/-!
The markup of the default prompt, read back. Whatever stands in the user, the host, the directory,
the branch and the time ends up in literals, and all other tokens are those of the prompt's design.
-/

set_option autoImplicit false

namespace ShellPrompt

open Lexing

namespace Prompt

def bubbleColor (info : Info) : Color :=
  info.accent.elim (.basic .blue) fun entry => .rgb entry.dim

def accentColor (info : Info) : Color :=
  info.accent.elim (.basic .cyan) fun entry => .rgb entry.bright

def accentLexeme (info : Info) : Lexeme :=
  .spec ⟨some (accentColor info), none, true, false⟩

def bubbleLexemes (text : Text) (color : Color) : List Lexeme :=
  [.transition .push (some ⟨some (.basic .white), some color, false, false⟩), .space,
    .literal (Literal.kept text), .space, .transition .pop none]

def branchLexemes (info : Info) : List Lexeme :=
  match info.branch with
  | some (c :: branch) => bubbleLexemes (c :: branch) (bubbleColor info) ++ [.space]
  | _ => []

/-- Glyphs, user and host, directory, the gap, branch and time. -/
def firstLine (info : Info) : List Lexeme :=
  [.separators ⟨.one ⟨[CodePoint.ofNat 0xE0B6], [CodePoint.ofNat 0xE0B4]⟩, false⟩,
    .fill ⟨.glyph (CodePoint.ofNat 0x2500), []⟩, .reset] ++
  bubbleLexemes (info.user ++ CodePoint.ofChar '@' :: info.host) (bubbleColor info) ++
  [.space, accentLexeme info, .literal (Literal.kept info.directory), .reset, .space,
    .segmentBreak, .space] ++
  branchLexemes info ++ [.literal (Literal.kept info.time)]

def secondLine (info : Info) : List Lexeme :=
  [accentLexeme info, .literal mark, .reset, .space]

theorem written?_bubbleColor (info : Info) :
    ∃ text, (bubbleColor info).written? = some text ∧
      background info = CodePoint.ofChar ':' :: text := by
  rw [bubbleColor, background]
  cases info.accent with
  | none => exact ⟨_, rfl, rfl⟩
  | some entry => exact ⟨_, rfl, rfl⟩

theorem written?_accentColor (info : Info) :
    (accentColor info).written? = some (accent info) := by
  rw [accentColor, accent]
  cases info.accent with
  | none => rfl
  | some entry => rfl

theorem reads_accent (info : Info) {t rest : Text} {lexemes : List Lexeme}
    (h : Reads (Literal.quote t ++ rest) lexemes) :
    Reads (accent info ++ CodePoint.ofChar '!' :: (Literal.quote t ++ rest))
      (accentLexeme info :: lexemes) := by
  have hwritten := written?_accentColor info
  have hscan : ColorSpec.scan (accent info ++ CodePoint.ofChar '!' :: (Literal.quote t ++ rest)) =
      .ok (⟨some (accentColor info), none, true, false⟩, Literal.quote t ++ rest) := by
    rw [ColorSpec.scan, ColorSpec.scanAfter_foreground hwritten, ColorSpec.scanAfter_bold,
      ColorSpec.scanAfter_of_not_begins rfl]
    rfl
  obtain ⟨c, s, hs, hhead, -⟩ := ColorSpec.exists_head_of_written? hwritten
  rw [hs, List.append_cons] at hscan ⊢
  exact h.spec (ColorSpec.begins_of_isHead hhead _) hscan

theorem reads_bubble (info : Info) (text : Text) {rest : Text} {lexemes : List Lexeme}
    (h : Reads rest lexemes) (hend : ColorSpec.begins rest = false) :
    Reads (bubble text (background info) ++ rest)
      (bubbleLexemes text (bubbleColor info) ++ lexemes) := by
  obtain ⟨color, hcolor, hbackground⟩ := written?_bubbleColor info
  have hinside := (((h.pop hend).space rfl rfl).quote text).space rfl rfl
  have hwhite : (Color.basic .white).written? = some [BasicColor.white.letter] := rfl
  have hscan : ColorSpec.scan (CodePoint.ofChar 'w' :: background info ++
      CodePoint.ofChar ' ' :: (Literal.quote text ++
        CodePoint.ofChar ' ' :: CodePoint.ofChar '}' :: rest)) =
      .ok (⟨some (.basic .white), some (bubbleColor info), false, false⟩,
        CodePoint.ofChar ' ' :: (Literal.quote text ++
          CodePoint.ofChar ' ' :: CodePoint.ofChar '}' :: rest)) := by
    rw [ColorSpec.scan, hbackground]
    refine (ColorSpec.scanAfter_foreground hwhite _ _).trans ?_
    refine (ColorSpec.scanAfter_background hcolor _ _).trans ?_
    rw [ColorSpec.scanAfter_of_not_begins rfl]
    rfl
  have hbubble := hinside.transition .push (ColorSpec.begins_of_isHead rfl _) hscan
  have hmarkup : bubble text (background info) ++ rest =
      Transition.push.symbol :: (CodePoint.ofChar 'w' :: background info) ++
        CodePoint.ofChar ' ' :: (Literal.quote text ++
          CodePoint.ofChar ' ' :: CodePoint.ofChar '}' :: rest) := by
    simp [bubble, Transition.symbol]
  rw [hmarkup]
  exact hbubble

theorem reads_branch (info : Info) {rest : Text} {lexemes : List Lexeme} {c : CodePoint}
    (h : Reads rest lexemes) (hhead : rest.head? = some c) (hc : c.isSpacing = false) :
    Reads (branchMarkup info ++ rest) (branchLexemes info ++ lexemes) := by
  cases hbranch : info.branch with
  | none =>
    rw [branchMarkup, branchLexemes, hbranch]
    exact h
  | some branch =>
    rw [branchMarkup, branchLexemes, hbranch]
    cases branch with
    | nil => exact h
    | cons d branch =>
      have hbubble := reads_bubble info (d :: branch) (h.space hhead hc) rfl
      simpa only [List.append_assoc, List.singleton_append] using hbubble

theorem exists_head?_branchMarkup (info : Info) (t rest : Text) :
    ∃ c, (branchMarkup info ++ (Literal.quote t ++ rest)).head? = some c ∧ c.isSpacing = false := by
  cases hbranch : info.branch with
  | none =>
    rw [branchMarkup, hbranch]
    exact ⟨_, rfl, rfl⟩
  | some branch =>
    rw [branchMarkup, hbranch]
    cases branch with
    | nil => exact ⟨_, rfl, rfl⟩
    | cons d branch => exact ⟨_, rfl, rfl⟩

theorem reads_rule {rest : Text} {lexemes : List Lexeme} (h : Reads rest lexemes) :
    Reads (rule ++ rest) (.fill ⟨.glyph (CodePoint.ofNat 0x2500), []⟩ :: lexemes) :=
  h.cons (c := 'F') ['(', '2', '5', '0', '0', ')'] rfl rfl

theorem reads_roundedCaps {rest : Text} {lexemes : List Lexeme} (h : Reads rest lexemes) :
    Reads (roundedCaps ++ rest)
      (.separators ⟨.one ⟨[CodePoint.ofNat 0xE0B6], [CodePoint.ofNat 0xE0B4]⟩, false⟩ ::
        lexemes) :=
  h.cons (c := 'S') ['(', 'e', '0', 'b', '6', ',', 'e', '0', 'b', '4', ')'] rfl rfl

theorem kept_mark : Literal.kept mark = mark :=
  Literal.kept_eq_self (by decide)

/-- Whatever its parts are, a prompt is read as its design says. -/
theorem lexemes_compose (info : Info) :
    (ofMarkup (compose info)).tokens.map Token.lexeme =
        firstLine info ++ .lineBreak :: secondLine info ∧
      (ofMarkup (compose info)).error = none := by
  have hsecond := reads_accent info ((Reads.lastSpace.reset).quote mark)
  have hbranch := reads_branch info (hsecond.lineBreak.quote info.time) rfl rfl
  obtain ⟨c, hhead, hc⟩ := exists_head?_branchMarkup info info.time
    (CodePoint.ofChar '|' :: (accent info ++ CodePoint.ofChar '!' :: (Literal.quote mark ++
      [CodePoint.ofChar '0', CodePoint.ofChar ' '])))
  have hgap := ((hbranch.space hhead hc).segmentBreak.space rfl rfl).reset
  have hdirectory := reads_accent info (hgap.quote info.directory)
  obtain ⟨d, s, hs, hd, -⟩ := ColorSpec.exists_head_of_written? (written?_accentColor info)
  have hbubble := reads_bubble info (info.user ++ CodePoint.ofChar '@' :: info.host)
    (hdirectory.space (by rw [hs]; rfl) (ColorSpec.isSpacing_of_isHead hd)) rfl
  have hall := reads_roundedCaps (reads_rule hbubble.reset)
  have hreads : Reads (compose info) (firstLine info ++ .lineBreak :: secondLine info) := by
    simpa [compose, firstLine, secondLine, Text.concat, Text.ofString, kept_mark] using hall
  exact hreads (compose info) 0

end Prompt

end ShellPrompt

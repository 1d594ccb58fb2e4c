import ShellPrompt.Markup.Quote
import ShellPrompt.Palette.Basic
/-!
The markup of the default prompt. Its first line has the user and host in a bubble, the directory,
a rule across the terminal, the branch in a bubble and the time; its second has the prompt mark.
-/

set_option autoImplicit false

namespace ShellPrompt

namespace Prompt

structure Info where
  user : Text
  host : Text
  directory : Text
  time : Text
  branch : Option Text
  accent : Option PaletteEntry
deriving DecidableEq

def Info.shown (info : Info) : Text :=
  Text.concat ["PromptInfo(", info.user, "@", info.host, ", ", info.directory, ", ", info.time,
    ", branch=", info.branch.getD "None", ", accent=",
    info.accent.elim "None" PaletteEntry.shown, ")"]

def roundedCaps : Text := "S(e0b6,e0b4)"

def rule : Text := "F(2500)"

def mark : Text := [CodePoint.ofNat 0x276F]

def defaultBackground : Text := ":b"

def defaultAccent : Text := "c"

def bubble (text background : Text) : Text :=
  (['{', 'w'] : Text) ++ background ++ ([' '] : Text) ++ Literal.quote text ++
    ([' ', '}'] : Text)

def backgroundOf (entry : PaletteEntry) : Text :=
  CodePoint.ofChar ':' :: entry.dim.hex

def background (info : Info) : Text :=
  info.accent.elim defaultBackground backgroundOf

def accent (info : Info) : Text :=
  info.accent.elim defaultAccent fun entry => entry.bright.hex

def branchMarkup (info : Info) : Text :=
  match info.branch with
  | some (c :: branch) => bubble (c :: branch) (background info) ++ ([' '] : Text)
  | _ => []

def compose (info : Info) : Text :=
  Text.concat [roundedCaps, rule, "0",
    bubble (Text.concat [info.user, "@", info.host]) (background info),
    " ", accent info, "!", Literal.quote info.directory, "0 ",
    "*", " ", branchMarkup info, Literal.quote info.time, "|",
    accent info, "!", Literal.quote mark, "0 "]

def paletteLine (number : Nat) (entry : PaletteEntry) : Text :=
  let digits := Text.decimal number
  Text.concat ["\"", List.replicate (2 - digits.length) (CodePoint.ofChar ' '), digits, " \"",
    bubble entry.name (backgroundOf entry), " ", entry.bright.hex, Literal.quote entry.name, "0"]

def paletteMarkup : Text :=
  roundedCaps ++ Text.join ['|'] (Palette.entries.mapIdx paletteLine)

end Prompt

end ShellPrompt

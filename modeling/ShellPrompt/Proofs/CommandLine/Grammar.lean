import ShellPrompt.CommandLine.Parsing
/-!
The grammar of a list of words, said without reading it: flags that occur, one after the other, and
a tail of what is left over. What each argument holds is said from these alone.
-/

set_option autoImplicit false

namespace ShellPrompt

namespace CommandLine

variable {α : Type}

def IsFlagLike (word : Text) : Prop :=
  word.head? = some (CodePoint.ofChar '-') ∧ 1 < word.length

/-- A flag that occurs: its key, the words that say it, and the value that they give it. -/
structure Occurrence (α : Type) where
  key : Text
  words : List Text
  value : Value α

/-- A switch occurs as one of its names, any other flag as one of its names and a value. -/
inductive IsOccurrence (arguments : List (Text × Argument α)) : Occurrence α → Prop
  | switch {key name : Text} {flag : Flag α} (hflag : (key, .flag flag) ∈ arguments)
      (hname : name ∈ flag.names) (hswitch : flag.isSwitch = true) :
      IsOccurrence arguments ⟨key, [name], .truth true⟩
  | valued {key name word : Text} {flag : Flag α} (hflag : (key, .flag flag) ∈ arguments)
      (hname : name ∈ flag.names) (hswitch : flag.isSwitch = false) (hword : ¬ IsFlagLike word) :
      IsOccurrence arguments ⟨key, [name, word], .text word⟩

/-- What may follow the flags, and what is left over of it: two dashes are not. -/
inductive IsTail : List Text → List Text → Prop
  | nil : IsTail [] []
  | ended (rest : List Text) : IsTail ((['-', '-'] : Text) :: rest) rest
  | plain {word : Text} (hword : ¬ IsFlagLike word) (rest : List Text) :
      IsTail (word :: rest) (word :: rest)

/--
What an argument holds after some flags occurred and some words were left over. The last occurrence
of a flag counts; a flag that does not occur has the value of its variable, unless that is unset or
empty, and else its default.
-/
inductive Holds (environment : Environment) (occurrences : List (Occurrence α))
    (rest : List Text) (key : Text) : Argument α → Value α → Prop
  | rest : Holds environment occurrences rest key .rest (.rest rest)
  | occurs {flag : Flag α} {before after : List (Occurrence α)} {last : Occurrence α}
      (hsplit : occurrences = before ++ last :: after) (hkey : last.key = key)
      (hlast : ∀ later ∈ after, later.key ≠ key) :
      Holds environment occurrences rest key (.flag flag) last.value
  | switchedOn {flag : Flag α} {source text : Text}
      (habsent : ∀ occurrence ∈ occurrences, occurrence.key ≠ key)
      (hsource : flag.source = some source) (hset : environment.get? source = some text)
      (hne : text ≠ []) (hswitch : flag.isSwitch = true) :
      Holds environment occurrences rest key (.flag flag)
        (.truth (decide (text.lower ∈ (["1", "true", "yes", "on"] : List Text))))
  | given {flag : Flag α} {source text : Text}
      (habsent : ∀ occurrence ∈ occurrences, occurrence.key ≠ key)
      (hsource : flag.source = some source) (hset : environment.get? source = some text)
      (hne : text ≠ []) (hswitch : flag.isSwitch = false) :
      Holds environment occurrences rest key (.flag flag) (.text text)
  | fallback {flag : Flag α} (habsent : ∀ occurrence ∈ occurrences, occurrence.key ≠ key)
      (hunset : ∀ source text, flag.source = some source →
        environment.get? source = some text → text = []) :
      Holds environment occurrences rest key (.flag flag) (.fallback flag.default)

/--
Words that are flag occurrences and a tail. Words that are left over need an argument that takes
them.
-/
structure Says (arguments : List (Text × Argument α)) (words : List Text)
    (occurrences : List (Occurrence α)) (rest : List Text) : Prop where
  occurs : ∀ occurrence ∈ occurrences, IsOccurrence arguments occurrence
  tail : ∃ tail, IsTail tail rest ∧ words = occurrences.flatMap Occurrence.words ++ tail
  taken : rest = [] ∨ ∃ key, (key, .rest) ∈ arguments

end CommandLine

end ShellPrompt

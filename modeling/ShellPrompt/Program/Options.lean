import ShellPrompt.CommandLine.Parsing
/-!
The program's own command line: its usage text, its flags with the variables behind them, and what
they come to in a run.
-/

set_option autoImplicit false

namespace ShellPrompt

namespace Program

def name : Text := "tinct"

def version : Text := "0.3.1"

def usage : Text :=
  Text.join ['\n']
    ["usage: tinct [FLAGS] COMMAND [ARG]",
     "",
     "Commands:",
     "    render MARKUP    Render MARKUP to stdout.",
     "    prompt [DIR]     Render the prompt for DIR (default: current directory).",
     "    color [DIR]      Print the palette index assigned to DIR's repository.",
     "    palette          Render every palette entry.",
     "",
     "Flags (environment variable used if the flag is absent):",
     "    -s, --shell MODE   raw, zsh, bash, or auto (TINCT_SHELL, default raw)",
     "    -w, --width N      Terminal width (TINCT_WIDTH, then COLUMNS, then stty, then 80)",
     "    --seed N           Seed for random fill (TINCT_SEED)",
     "    -t, --trace FILE   Trace tokens and lines to FILE (TINCT_TRACE)",
     "    -V, --version      Print the version and exit.",
     "    -h, --help         Print this message and exit.",
     "",
     "Flags must precede COMMAND."]

def valued (names : List Text) (source : Text) : Argument Unit :=
  .flag ⟨names, false, (), some source⟩

def switch (names : List Text) : Argument Unit :=
  .flag ⟨names, true, (), none⟩

def commandLine : CommandLine Unit where
  usage
  arguments :=
    [("shell", valued ["-s", "--shell"] "TINCT_SHELL"),
     ("width", valued ["-w", "--width"] "TINCT_WIDTH"),
     ("seed", valued ["--seed"] "TINCT_SEED"),
     ("trace", valued ["-t", "--trace"] "TINCT_TRACE"),
     ("version", switch ["-V", "--version"]),
     ("help", switch ["-h", "--help"]),
     ("arguments", .rest)]

end Program

structure Options where
  shell : Option Text
  width : Option Text
  seed : Option Text
  trace : Option Text
  version : Bool
  help : Bool
  arguments : List Text
deriving DecidableEq

namespace Options

abbrev Values := List (Text × Value Unit)

def value? (values : Values) (key : Text) : Option (Value Unit) :=
  (values.find? fun (k, _) => k = key).map Prod.snd

def text? (values : Values) (key : Text) : Option Text :=
  match value? values key with
  | some (.text t) => some t
  | _ => none

def isOn (values : Values) (key : Text) : Bool :=
  match value? values key with
  | some (.truth b) => b
  | _ => false

def words (values : Values) (key : Text) : List Text :=
  match value? values key with
  | some (.rest ts) => ts
  | _ => []

def ofValues (values : Values) : Options where
  shell := text? values "shell"
  width := text? values "width"
  seed := text? values "seed"
  trace := text? values "trace"
  version := isOn values "version"
  help := isOn values "help"
  arguments := words values "arguments"

def ofWords (environment : Environment) (words : List Text) :
    Except ConfigurationError Options :=
  (Program.commandLine.parse environment words).map ofValues

end Options

end ShellPrompt

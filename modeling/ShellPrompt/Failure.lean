import ShellPrompt.Markup.Error
import ShellPrompt.Storage.OsError
/-!
Everything that can go wrong. A configuration error is the user's to mend and is reported in
words; a markup error is reported with its place; a breakdown ends the program without a report.
-/

set_option autoImplicit false

namespace ShellPrompt

inductive ConfigurationError where
  | unknownShellMode (name : Text)
  | notAnInteger (description value : Text)
  | widthNotPositive (width : Int)
  | traceRefused (target : Text) (cause : OsError)
  | invalidFlag (flag : Text)
  | mismatchedFlags (first second : Text)
  | notAnArgument (shown : Text)
  | severalAnonymous
  | duplicatedFlag (flag : Text)
  | unrecognizedFlag (flag usage : Text)
  | missingValue (flag usage : Text)
  | unexpectedArguments (arguments : List Text) (usage : Text)
  | noCommand (usage : Text)
  | unknownCommand (command usage : Text)
  | renderArguments
  | paletteArguments
  | tooManyArguments (arguments : List Text)
  | notInRepository (directory : Text)
  | directoryUnset (description : Text)
  | directoryHomeless (description : Text)
  | notADirectory (directory : Text)
  | directoryRefused (directory : Text) (cause : OsError)
  | cacheUnreadable (directory : Text) (cause : OsError)
  | cacheRefused (directory : Text) (cause : OsError)
deriving DecidableEq

namespace ConfigurationError

def withUsage (usage report : Text) : Text :=
  if usage.isEmpty then report else Text.concat [report, ['\n'], usage]

def homeless : Text := "Could not determine home directory."

def message : ConfigurationError → Text
  | unknownShellMode name =>
    Text.concat ["Unknown shell mode: ", name, ". Use one of: bash, none, raw, zsh, auto"]
  | notAnInteger description value =>
    Text.concat [description, " must be an integer: ", value]
  | widthNotPositive width => Text.concat ["Width must be positive: ", Text.integer width]
  | traceRefused target cause =>
    Text.concat ["Unable to start tracing to ", target, ": ", cause.message]
  | invalidFlag flag => Text.concat ["Invalid flag: ", flag]
  | mismatchedFlags first second =>
    Text.concat ["If two flags are specified, one must be long and one must be short: ", first,
      ", ", second]
  | notAnArgument shown =>
    Text.concat ["Arg value must be flag(), boolean_flag(), or anon(): ", shown]
  | severalAnonymous => "Too many anon() specified."
  | duplicatedFlag flag => Text.concat ["Duplicated flag: ", flag]
  | unrecognizedFlag flag usage =>
    withUsage usage (Text.concat ["Unrecognized flag: ", flag])
  | missingValue flag usage =>
    withUsage usage (Text.concat ["Value missing for flag: ", flag])
  | unexpectedArguments arguments usage =>
    withUsage usage (Text.concat ["Unexpected arguments: ", Text.join " " arguments])
  | noCommand usage => Text.concat ["No command specified.", ['\n'], usage]
  | unknownCommand command usage =>
    Text.concat ["Unknown command: ", command, ['\n'], usage]
  | renderArguments => "render takes one argument: MARKUP"
  | paletteArguments => "palette takes no arguments"
  | tooManyArguments arguments => Text.concat ["Too many arguments: ", Text.join " " arguments]
  | notInRepository directory => Text.concat ["Not in a repository: ", directory]
  | directoryUnset description =>
    Text.concat ["Unable to start because value of ", description, " cannot be determined."]
  | directoryHomeless description =>
    Text.concat ["Unable to start because value of ", description, " cannot be determined: ",
      homeless]
  | notADirectory directory => Text.concat ["Not a directory: ", directory]
  | directoryRefused directory cause =>
    Text.concat ["Unable to create ", directory, ": ", cause.message]
  | cacheUnreadable directory cause =>
    Text.concat ["Unable to read color cache ", directory, ": ", cause.message]
  | cacheRefused directory cause =>
    Text.concat ["Unable to update color cache ", directory, ": ", cause.message]

end ConfigurationError

/-- What ends the program without a report. -/
inductive Breakdown where
  | homeUnknown
  | notUtf8
  | nullInPath
  | surrogateInPath
  | accountUnknown
deriving DecidableEq

inductive Failure where
  | configuration (error : ConfigurationError)
  | markup (error : MarkupError)
  | breakdown (breakdown : Breakdown)
deriving DecidableEq

end ShellPrompt

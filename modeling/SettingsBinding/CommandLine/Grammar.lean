/-!
The words of the command line: commands, the arguments that each of them has, and how they are
written.
-/

namespace SettingsBinding.CommandLine

/-- What can follow the name of the program, word by word. -/
inductive Level where
  | top
  | generate
  | check
  | merge
  | schema
  | config
  | configShow
  | configInit
  deriving DecidableEq, Repr

inductive Argument where
  | verbose
  | quiet
  | version
  | config
  | model
  | settings
  | settingsDir
  | outputFile
  | format
  | kind
  deriving DecidableEq, Repr

namespace Argument

/-- The name behind two dashes. -/
def long? : Argument → Option String
  | verbose => some "verbose"
  | quiet => some "quiet"
  | version => some "version"
  | config => some "config"
  | model => some "model"
  | settings => some "settings"
  | settingsDir => some "settings-dir"
  | outputFile => some "output-file"
  | format => some "format"
  | kind => none

def short? : Argument → Option Char
  | verbose => some 'v'
  | quiet => some 'q'
  | version => some 'V'
  | outputFile => some 'O'
  | _ => none

def valueName? : Argument → Option String
  | verbose | quiet | version => none
  | config => some "CONFIG"
  | model => some "MODEL"
  | settings => some "PATH"
  | settingsDir => some "DIR"
  | outputFile => some "OUTPUT_FILE"
  | format => some "FORMAT"
  | kind => some "KIND"

def takesValue (a : Argument) : Bool := a.valueName?.isSome

def isRepeatable (a : Argument) : Bool := a == settings

def label (a : Argument) : String :=
  match a.long?, a.valueName? with
  | some long, some value => "--" ++ long ++ " <" ++ value ++ ">"
  | some long, none => "--" ++ long
  | none, some value => "[" ++ value ++ "]"
  | none, none => ""

/-- The values that an argument admits, if it does not admit all texts but the empty one. -/
def choices? : Argument → Option (List String)
  | format => some ["text", "json"]
  | kind => some ["model", "config"]
  | _ => none

end Argument

namespace Level

/-- The words that may follow, with what can follow them. -/
def subcommands : Level → List (String × Level)
  | top =>
    [("generate", generate), ("check", check), ("merge", merge), ("schema", schema),
      ("config", config)]
  | config => [("show", configShow), ("init", configInit)]
  | _ => []

def title : Level → String
  | top => "appsettings-gen"
  | config => "appsettings-gen config"
  | generate => "appsettings-gen generate"
  | check => "appsettings-gen check"
  | merge => "appsettings-gen merge"
  | schema => "appsettings-gen schema"
  | configShow => "appsettings-gen config show"
  | configInit => "appsettings-gen config init"

/-- The options of a command besides those that stand anywhere. -/
def ownOptions : Level → List Argument
  | top => [.version]
  | generate => [.model, .settings, .settingsDir, .outputFile]
  | check => [.model, .settings, .settingsDir, .format, .outputFile]
  | merge => [.settings, .settingsDir, .outputFile]
  | schema => [.outputFile]
  | config | configShow | configInit => []

def options (level : Level) : List Argument := [.verbose, .quiet, .config] ++ level.ownOptions

def positional? : Level → Option Argument
  | schema => some .kind
  | _ => none

def required : Level → List Argument
  | generate | check => [.model]
  | _ => []

def subcommand? (level : Level) (word : String) : Option Level := level.subcommands.lookup word

def long? (level : Level) (name : String) : Option Argument :=
  level.options.find? (·.long? == some name)

def short? (level : Level) (letter : Char) : Option Argument :=
  level.options.find? (·.short? == some letter)

end Level

end SettingsBinding.CommandLine

import SettingsBinding.CommandLine.Usage

/-!
From the words of a command line to the arguments that are given. A word goes to the option in
front of it that waits for a value, unless it starts with a dash. A value is checked when the next
argument starts, or at the end of its command; what is wrong behind a word that names a command is
found before that.
-/

namespace SettingsBinding.CommandLine

inductive Stop where
  | showVersion
  | misuse (e : UsageError)
  deriving DecidableEq, Repr

/-- The arguments of a command with their values. An argument without value has the empty text. -/
abbrev Given := List (Argument × String)

structure Progress where
  given : Given := []
  /-- The last argument, with its value if that was read. -/
  pending : Option (Argument × Option String) := none
  /-- Whether all that follows are words of their own. -/
  literal : Bool := false
  /-- Whether the argument that is a word of its own was read. -/
  positionalRead : Bool := false

def checkValue (a : Argument) (value : String) : Except Stop Unit :=
  if !a.takesValue then .ok ()
  else if value = "" then .error (.misuse (.valueRequired a))
  else
    match a.choices? with
    | some choices =>
      if choices.contains value then .ok () else .error (.misuse (.badValue a value))
    | none => .ok ()

namespace Progress

/-- Whether the last argument waits for a value. -/
def isWaiting (p : Progress) : Bool :=
  match p.pending with
  | some (_, none) => !p.literal
  | _ => false

def add (p : Progress) (a : Argument) (value : String) : Except Stop Progress := do
  if a = .version then throw .showVersion
  if p.given.any (·.1 == a) && !a.isRepeatable then throw (.misuse (.repeated a))
  checkValue a value
  pure { p with given := p.given ++ [(a, value)] }

/-- Adds the last argument, if it is still to be checked. -/
def settle (p : Progress) : Except Stop Progress :=
  let settled := { p with pending := none }
  match p.pending with
  | none => .ok settled
  | some (a, none) => .error (.misuse (.valueRequired a))
  | some (a, some value) => settled.add a value

def start (p : Progress) (a : Argument) (attached : Option String) : Except Stop Progress := do
  let p ← p.settle
  match a.takesValue, attached with
  | true, none => pure { p with pending := some (a, none) }
  | true, some value => p.add a value
  | false, _ => p.add a ""

end Progress

/-- Splits a list at the first of an element, which is dropped. -/
def splitAtFirst (x : Char) (cs : List Char) : List Char × Option (List Char) :=
  match cs.dropWhile (· != x) with
  | [] => (cs, none)
  | _ :: rest => (cs.takeWhile (· != x), some rest)

def readLong (level : Level) (p : Progress) (word : List Char) : Except Stop Progress :=
  let (nameChars, valueChars) := splitAtFirst '=' word
  let name := String.ofList nameChars
  let value := valueChars.map String.ofList
  match level.long? name, value with
  | none, _ => .error (.misuse (.unexpectedWord ("--" ++ name)))
  | some a, some value =>
    if a.takesValue then p.start a (some value) else .error (.misuse (.unexpectedValue a value))
  | some a, none => p.start a none

/-- The value attached to a letter, with or without an equals sign. -/
def attachedValue : List Char → Option String
  | [] => none
  | '=' :: rest => some (String.ofList rest)
  | rest => some (String.ofList rest)

/-- Reads letters behind a dash. What follows one that takes a value is its value. -/
def readShort (level : Level) (p : Progress) : List Char → Except Stop Progress
  | [] => .ok p
  | c :: rest =>
    match level.short? c with
    | none => .error (.misuse (.unexpectedWord (String.ofList ['-', c])))
    | some a =>
      if a.takesValue then p.start a (attachedValue rest)
      else do readShort level (← p.start a none) rest

def strayWord (level : Level) (p : Progress) (word : String) : UsageError :=
  if level.subcommands.isEmpty || (p.literal && (level.subcommand? word).isSome) then
    .unexpectedWord word
  else .unknownSubcommand word

def readWord (level : Level) (p : Progress) (word : String) : Except Stop Progress :=
  match level.positional?, p.positionalRead with
  | some a, false => do
    let p ← p.settle
    pure { p with pending := some (a, some word), positionalRead := true }
  | _, _ => .error (.misuse (strayWord level p word))

def readArgument (level : Level) (p : Progress) (word : String) : Except Stop Progress :=
  match p.literal, word.toList with
  | false, ['-', '-'] => .ok { p with literal := true }
  | false, '-' :: '-' :: rest => readLong level p rest
  | false, '-' :: c :: rest => readShort level p (c :: rest)
  | _, _ =>
    match p.isWaiting, p.pending with
    | true, some (a, _) => .ok { p with pending := some (a, some word) }
    | _, _ => readWord level p word

/-- The command that a word names here. -/
def namedLevel? (level : Level) (p : Progress) (word : String) : Option Level :=
  if p.literal || p.isWaiting then none else level.subcommand? word

/-- Checks what is left of the arguments of a command, and the value that the environment gives
for the configuration file, which counts if the command line has none here. -/
def Progress.close (p : Progress) (environment : Option String) : Except Stop Given := do
  let p ← p.settle
  if p.given.any (·.1 == .config) then pure p.given
  else
    match environment with
    | none => pure p.given
    | some value =>
      checkValue .config value
      pure p.given

def checkComplete (level : Level) (given : Given) : Except Stop Unit :=
  if !level.subcommands.isEmpty then .error (.misuse (.missingSubcommand level))
  else
    match level.required.filter fun a => !given.any (·.1 == a) with
    | [] => .ok ()
    | missing => .error (.misuse (.missingArguments missing))

/-- Reads the words of a command line: the last command that they name, and its arguments in front
of those of the commands around it. -/
def readWords (environment : Option String) (level : Level) (p : Progress) :
    List String → Except Stop (Level × Given)
  | [] => do
    let given ← p.close environment
    checkComplete level given
    pure (level, given)
  | word :: rest =>
    match namedLevel? level p word with
    | some inner => do
      let (last, innerGiven) ← readWords environment inner {} rest
      let given ← p.close environment
      pure (last, innerGiven ++ given)
    | none => do readWords environment level (← readArgument level p word) rest

end SettingsBinding.CommandLine

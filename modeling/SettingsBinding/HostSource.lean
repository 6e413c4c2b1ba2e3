import SettingsBinding.Validation

/-!
The source text of the host class: a partial class of the name and the namespace of the host, with
one property for every other configuration class, named by its section.
-/

namespace SettingsBinding

structure HostSource where
  className : String
  nameSpace : String
  /-- The namespaces of the sections, other than the global one and that of the host. -/
  imports : List String
  /-- The names of the section classes, and the keys of their sections. -/
  sections : List (String × String)
  deriving DecidableEq, Repr

namespace HostSource

/-- The elements in the order in which they first stand in a list. -/
def firstOccurrences : List String → List String
  | [] => []
  | s :: rest => s :: (firstOccurrences rest).filter (· != s)

def ofClasses? (hostKey : String) (classes : ClassMap) : Option HostSource :=
  (classes.get? hostKey).map fun host =>
    let sections := classes.bound hostKey
    let nameSpaces := sections.map fun e => e.2.nameSpace
    { className := host.className
      nameSpace := host.nameSpace
      imports := firstOccurrences (nameSpaces.filter fun n => n != "" && n != host.nameSpace)
      sections := sections.map fun (key, c) => (c.className, key) }

def indent (width level : Nat) (line : String) : String :=
  String.ofList (List.replicate (level * width) ' ') ++ line

/-- The first line of every generated text. -/
def marker : String := "// <auto-generated />"

def importLine (nameSpace : String) : String := "using " ++ nameSpace ++ ";"

def propertyLine (className key : String) : String :=
  "public " ++ className ++ " " ++ key ++ " \x7b get; set; \x7d"

def classLines (source : HostSource) (width level : Nat) : List String :=
  [indent width level ("public partial class " ++ source.className), indent width level "\x7b"] ++
    source.sections.map (fun (className, key) =>
      indent width (level + 1) (propertyLine className key)) ++
    [indent width level "\x7d"]

/-- The lines of the source. In the global namespace the class stands at the margin. -/
def lines (source : HostSource) (width : Nat) : List String :=
  marker :: source.imports.map importLine ++ [""] ++
    if source.nameSpace = "" then source.classLines width 0
    else
      ["namespace " ++ source.nameSpace, "\x7b"] ++ source.classLines width 1 ++ ["\x7d"]

/-- The text of the source: every line with a line break behind it. -/
def text (source : HostSource) (width : Nat) : String :=
  String.join ((source.lines width).map (· ++ "\n"))

def event (hostKey : String) : Option HostSource → LogEvent
  | none => debug s!"No {hostKey} class found, nothing to generate"
  | some source =>
    debug s!"Synthesized {source.className} with {source.sections.length} section properties"

end HostSource

end SettingsBinding

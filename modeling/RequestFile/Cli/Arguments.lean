import RequestFile.Cli.Job

/-!
Reading the command line.

A command line names a verb. What else may stand on it depends on the verb: flags, settings with a
value, and one file. `Job.ofArguments` gives the job of a command line.

* A setting takes as its value what is glued to it, after `=` or directly after its letter, or else
  the next argument.
* A value that is not glued does not begin with `-`, unless it is `-` alone.
* After `--` there are files only.
* Nothing is given twice, and no name is shortened.
* A request for help counts before anything that follows it.
-/

namespace RequestFile

/-- What a command line asks for. -/
inductive Verb where
  | tree
  | check
  | requests
  | nodeTypes
  | info
deriving DecidableEq, Repr

/-- A switch. -/
inductive Flag where
  | cst
  | raw
  | spans
  | strict
  | compact
deriving DecidableEq, Repr

/-- Something with a value. -/
inductive Setting where
  | source
  | color
  | logFilter
deriving DecidableEq, Repr

/-- The name of a flag or a setting. -/
inductive OptionName where
  | long (name : String)
  | short (letter : Char)
deriving DecidableEq, Repr

namespace Flag

/-- Every flag. -/
def all : List Flag :=
  [.cst, .raw, .spans, .strict, .compact]

/-- The name of a flag. -/
def name : Flag → OptionName
  | .cst => .long "cst"
  | .raw => .long "raw"
  | .spans => .long "spans"
  | .strict => .long "strict"
  | .compact => .long "compact"

end Flag

namespace Setting

/-- The names of a setting. -/
def names : Setting → List OptionName
  | .source => [.long "source", .short 's']
  | .color => [.long "color"]
  | .logFilter => [.long "log-level"]

/-- A setting takes a value. -/
def accepts (value : String) : Setting → Bool
  | .color => ["auto", "always", "never"].contains value
  | _ => true

end Setting

namespace Verb

/-- The verb of a word. -/
def ofWord? : String → Option Verb
  | "tree" => some .tree
  | "check" => some .check
  | "requests" => some .requests
  | "node-types" => some .nodeTypes
  | "info" => some .info
  | _ => none

/-- The flags that a verb has. -/
def flags : Verb → List Flag
  | .tree => [.cst, .raw, .spans]
  | .check => [.strict]
  | .requests => [.compact]
  | .nodeTypes => [.compact]
  | .info => []

/-- The settings that a verb has. The filter of log lines is one of every verb; nothing is logged
here. -/
def settings : Verb → List Setting
  | .tree => [.source, .color, .logFilter]
  | .check => [.source, .color, .logFilter]
  | .requests => [.source, .logFilter]
  | .nodeTypes => [.logFilter]
  | .info => [.logFilter]

/-- True if a verb has a file. -/
def takesFile : Verb → Bool
  | .tree | .check | .requests => true
  | .nodeTypes | .info => false

end Verb

/-- Why a command line gives no job. -/
inductive Stop where
  /-- It asks for help. -/
  | help
  /-- It cannot be understood. -/
  | misuse
deriving DecidableEq, Repr

namespace Stop

/-- How the program is used. -/
def usage : String :=
  "usage: [--log-level FILTER] VERB\n\n"
    ++ "  tree [FILE | -s TEXT] [--cst] [--raw] [--spans] [--color WHEN]\n"
    ++ "  check [FILE | -s TEXT] [--strict] [--color WHEN]\n"
    ++ "  requests [FILE | -s TEXT] [--compact]\n"
    ++ "  node-types [--compact]\n"
    ++ "  info\n\n"
    ++ "FILE is a request file, or - for the standard input; WHEN is auto, always or never.\n"

/-- What is shown in place of the outcome of a job. -/
def outcome : Stop → Outcome
  | .help => .shows usage
  | .misuse => ⟨2, "", usage⟩

end Stop

/-! ### Arguments -/

/-- What an argument looks like by itself. -/
inductive Argument where
  /-- The mark after which there are files only. -/
  | mark
  /-- A name, with what is glued to it. -/
  | named (name : OptionName) (glued : Option String)
  | plain (text : String)
deriving DecidableEq, Repr

namespace Argument

/-- A long name, and what follows its first `=`. -/
def ofLong (cs : List Char) : Argument :=
  let name := cs.takeWhile (· != '=')
  let glued := match cs.drop name.length with
    | [] => none
    | _ :: value => some (String.ofList value)
  named (.long (String.ofList name)) glued

/-- A letter, and what follows it, a leading `=` apart. -/
def ofShort (letter : Char) (cs : List Char) : Argument :=
  let glued := match cs with
    | [] => none
    | '=' :: value => some (String.ofList value)
    | value => some (String.ofList value)
  named (.short letter) glued

/-- What an argument looks like. -/
def ofText (text : String) : Argument :=
  match text.toList with
  | ['-', '-'] => mark
  | '-' :: '-' :: cs => ofLong cs
  | '-' :: c :: cs => ofShort c cs
  | _ => plain text

/-- The argument asks for help. -/
def isHelp : Argument → Bool
  | named (.short 'h') _ => true
  | named (.long "help") none => true
  | _ => false

end Argument

/-- The value of a setting, and how many of the following arguments it takes. -/
def settingValue? (glued : Option String) (following : List String) : Option (String × Nat) :=
  match glued, following with
  | some value, _ => some (value, 0)
  | none, [] => none
  | none, text :: _ =>
    match Argument.ofText text with
    | .plain value => some (value, 1)
    | _ => none

/-- What has been given on a command line after its verb. -/
structure Given where
  file : Option String
  flags : List Flag
  settings : List (Setting × String)
deriving DecidableEq, Repr

namespace Given

/-- Nothing. -/
def nothing : Given :=
  ⟨none, [], []⟩

/-- With a file. -/
def addFile (v : Verb) (path : String) (g : Given) : Except Stop Given :=
  if v.takesFile && g.file.isNone && !path.isEmpty then .ok { g with file := some path }
  else .error .misuse

/-- With a flag. -/
def addFlag (f : Flag) (g : Given) : Except Stop Given :=
  if g.flags.contains f then .error .misuse else .ok { g with flags := f :: g.flags }

/-- With a setting. -/
def addSetting (s : Setting) (value : String) (g : Given) : Except Stop Given :=
  if (g.settings.lookup s).isSome || !s.accepts value then .error .misuse
  else .ok { g with settings := (s, value) :: g.settings }

/-- With the files after the mark. -/
def addFiles (v : Verb) (paths : List String) (g : Given) : Except Stop Given :=
  paths.foldlM (fun g path => g.addFile v path) g

/-- With the arguments after a verb. -/
def addAll (v : Verb) (g : Given) : List String → Except Stop Given
  | [] => .ok g
  | text :: rest =>
    let argument := Argument.ofText text
    if argument.isHelp then .error .help
    else
      match argument with
      | .mark => g.addFiles v rest
      | .plain path => do
        (← g.addFile v path).addAll v rest
      | .named name glued =>
        match v.settings.find? (·.names.contains name), v.flags.find? (·.name == name), glued with
        | some s, _, _ =>
          match settingValue? glued rest with
          | some (value, n) => do
            (← g.addSetting s value).addAll v (rest.drop n)
          | none => .error .misuse
        | none, some f, none => do
          (← g.addFlag f).addAll v rest
        | _, _, _ => .error .misuse
termination_by args => args.length

/-- The source that has been given. -/
def source? (g : Given) : Option Source :=
  match g.settings.lookup .source, g.file with
  | some text, _ => some (.inline text)
  | none, some path => some (if path = "-" then .stdin else .file path)
  | none, none => none

/-- When output is colored. -/
def coloring (g : Given) : Coloring :=
  match g.settings.lookup .color with
  | some "always" => .always
  | some "never" => .never
  | _ => .auto

/-- A file and a text have both been given. -/
def hasTwoSources (g : Given) : Bool :=
  g.file.isSome && (g.settings.lookup .source).isSome

/-- The job of a verb with what has been given. -/
def job (g : Given) : Verb → Job
  | .tree => .tree g.source? (g.flags.contains .cst || g.flags.contains .raw)
      (g.flags.contains .raw) (g.flags.contains .spans) g.coloring
  | .check => .check g.source? (g.flags.contains .strict) g.coloring
  | .requests => .requests g.source? (g.flags.contains .compact)
  | .nodeTypes => .nodeTypes (g.flags.contains .compact)
  | .info => .info

end Given

namespace Job

/-- The job of a verb and the arguments after it. -/
def ofVerb (v : Verb) (arguments : List String) : Except Stop Job := do
  let g ← Given.nothing.addAll v arguments
  if g.hasTwoSources then .error .misuse else .ok (g.job v)

/-- What becomes of a request for help, with the words after it: they name a verb, or none. -/
def ofHelp (words : List String) : Except Stop Job :=
  match words with
  | [] => .error .help
  | [word] => if word == "help" || (Verb.ofWord? word).isSome then .error .help else .error .misuse
  | _ => .error .misuse

/-- The job of a command line. Before the verb there may be the filter of log lines; `filtered` tells
whether it has been given. -/
def ofArgumentsAfter (filtered : Bool) : List String → Except Stop Job
  | [] => .error .misuse
  | text :: rest =>
    let argument := Argument.ofText text
    if argument.isHelp then .error .help
    else
      match argument with
      | .plain "help" => ofHelp rest
      | .plain word =>
        match Verb.ofWord? word with
        | some v => ofVerb v rest
        | none => .error .misuse
      | .named name glued =>
        if filtered || !Setting.logFilter.names.contains name then .error .misuse
        else
          match settingValue? glued rest with
          | some (_, n) => ofArgumentsAfter true (rest.drop n)
          | none => .error .misuse
      | .mark => .error .misuse
termination_by arguments => arguments.length

/-- The job of a command line. -/
def ofArguments : List String → Except Stop Job :=
  ofArgumentsAfter false

end Job

end RequestFile

import AppScaffold.Text.Split

/-!
# Arguments

The arguments of a call: switches, options with values, and words. The first word names a command;
what follows it belongs to the command. A switch or an option may be given once before the command
and once behind it. Two hyphens end the switches and options.
-/

namespace AppScaffold.CommandLine

/-- What a command, or the program before its command, may be given. -/
structure Form where
  /-- The name of the command. -/
  name : String
  /-- The switches that only this command has. -/
  switches : List String := []
  /-- The options with a value that only this command has. -/
  options : List String := []
  /-- The greatest number of words. -/
  words : Nat := 0
  /-- The form is that of the program: it can tell its version, and its first word leads on to the
  command. -/
  leadsOn : Bool := false

/-- What has been given. -/
structure Given where
  /-- The switches. -/
  switches : List String := []
  /-- The options with their values. -/
  options : List (String × String) := []
  /-- The words. -/
  words : List String := []

/-- Why arguments lead to no command. -/
inductive Stop where
  /-- The arguments ask for the version. -/
  | version
  /-- The arguments ask for help. -/
  | help
  /-- The arguments are wrong. -/
  | invalid
deriving DecidableEq

namespace Form

/-- The form of the program before its command. -/
def program : Form := { name := "expo-scaffold", leadsOn := true }

/-- The forms of the commands. -/
def commands : List Form :=
  [{ name := "new", options := ["answers"] },
    { name := "screen", switches := ["login"], words := 1 },
    { name := "component", words := 1 },
    { name := "reducer", words := 1 },
    { name := "store" },
    { name := "api", words := 1 },
    { name := "screen-api", words := 1 },
    { name := "config" }]

/-- Add a switch. -/
def addSwitch (f : Form) (name : String) (g : Given) : Except Stop Given :=
  if name = "help" then .error .help
  else if name = "version" && f.leadsOn then .error .version
  else if ("verbose" :: f.switches).contains name && !g.switches.contains name then
    .ok { g with switches := name :: g.switches }
  else .error .invalid

/-- Add an option with its value, which must not be empty. -/
def addOption (name value : String) (g : Given) : Except Stop Given :=
  if value = "" || (g.options.lookup name).isSome then .error .invalid
  else .ok { g with options := (name, value) :: g.options }

/-- Add a word. -/
def addWord (f : Form) (word : String) (g : Given) : Except Stop Given :=
  if g.words.length < f.words then .ok { g with words := g.words ++ [word] } else .error .invalid

/-- Add words. -/
def addWords (f : Form) (g : Given) : List String → Except Stop Given
  | [] => .ok g
  | word :: words => (f.addWord word g).bind fun g => f.addWords g words

/-- The switch with a letter. -/
def switchOfLetter : Char → String
  | 'v' => "verbose"
  | 'h' => "help"
  | 'V' => "version"
  | c => .singleton c

/-- Add switches given by their letters. -/
def addLetters (f : Form) (g : Given) : List Char → Except Stop Given
  | [] => .ok g
  | c :: cs => (f.addSwitch (switchOfLetter c) g).bind fun g => f.addLetters g cs

/-- The form has an option of this name. -/
def hasOption (f : Form) (name : String) : Bool := ("root" :: f.options).contains name

/-- The argument looks like a switch or an option. -/
def isMarked (arg : String) : Bool := arg.startsWith "-" && arg ≠ "-"

/-- The name of a switch or an option behind two hyphens, and its value behind an equals sign. -/
def split (cs : List Char) : String × Option String :=
  let name := cs.takeWhile (· ≠ '=')
  (.ofList name, (cs.drop name.length).tail?.map .ofList)

/-- Read arguments. What is left is the first word with all that follows it, if the form leads on
to a command. -/
def read (f : Form) (g : Given) : List String → Except Stop (Given × List String)
  | [] => .ok (g, [])
  | arg :: rest =>
    match arg.toList with
    | ['-', '-'] =>
      if f.leadsOn then if rest.isEmpty then .ok (g, []) else .error .invalid
      else (f.addWords g rest).map (·, [])
    | '-' :: '-' :: cs =>
      let (name, value?) := split cs
      if f.hasOption name then
        match value? with
        | some value => (addOption name value g).bind fun g => f.read g rest
        | none =>
          match rest with
          | [] => .error .invalid
          | value :: rest =>
            if isMarked value then .error .invalid
            else (addOption name value g).bind fun g => f.read g rest
      else if value?.isSome then .error .invalid
      else (f.addSwitch name g).bind fun g => f.read g rest
    | '-' :: c :: cs => (f.addLetters g (c :: cs)).bind fun g => f.read g rest
    | _ =>
      if f.leadsOn then .ok (g, arg :: rest)
      else (f.addWord arg g).bind fun g => f.read g rest

end Form

/-- A command with what was given before it and behind it. -/
structure Call where
  /-- What was given before the command. -/
  before : Given
  /-- The form of the command. -/
  form : Form
  /-- What was given behind the command. -/
  behind : Given

namespace Call

/-- The words behind a request for help name commands. -/
def helpOn : List String → Stop
  | [] => .help
  | [name] => if name = "help" || Form.commands.any (·.name = name) then .help else .invalid
  | _ => .invalid

/-- The command that arguments lead to. -/
def ofArguments (args : List String) : Except Stop Call := do
  match ← Form.program.read {} args with
  | (_, []) => .error .invalid
  | (before, word :: rest) =>
    match Form.commands.find? (·.name = word) with
    | some form =>
      let (behind, _) ← form.read {} rest
      return ⟨before, form, behind⟩
    | none => .error (if word = "help" then helpOn rest else .invalid)

/-- The value of an option; the one behind the command goes first. -/
def option (c : Call) (name : String) : Option String :=
  (c.behind.options.lookup name).or (c.before.options.lookup name)

/-- A switch has been given. -/
def switch (c : Call) (name : String) : Bool :=
  c.behind.switches.contains name || c.before.switches.contains name

/-- The word behind the command. -/
def word (c : Call) : Option String := c.behind.words.head?

end Call

end AppScaffold.CommandLine

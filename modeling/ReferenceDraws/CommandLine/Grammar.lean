import ReferenceDraws.Log

/-!
# Grammar of command lines

A command takes positional values and options. An option is a name after two dashes, and its
value the next argument or what follows an equals sign; a switch has no value. After two dashes
alone every argument is positional.

* `Grammar.scan`: the arguments of a command;
* `Grammar.help`: what a command tells about itself.
-/

namespace ReferenceDraws

/-! ## Values -/

/-- A natural number of sixty-four bits in decimal digits, with or without a plus sign. -/
def wordOfText? (s : String) : Option UInt64 :=
  let digits := match s.toList with
    | '+' :: cs => cs
    | cs => cs
  if digits = [] ∨ ¬ digits.all Char.isDigit then none
  else
    let n := digits.foldl (fun n d => n * 10 + (d.toNat - '0'.toNat)) 0
    if n < UInt64.size then some (UInt64.ofNat n) else none

/-- A level by its name, in any case, or by its number. -/
def LogLevel.ofText? (s : String) : Option LogLevel :=
  match wordOfText? s with
  | some n => LogLevel.all.find? (·.verbosity = n.toNat)
  | none => LogLevel.all.find? fun l => l.name = String.ofList (s.toList.map Char.toUpper)

namespace CommandLine

/-- What a value may be. -/
inductive ValueKind where
  | text
  /-- A path, which is not empty. -/
  | path
  | word
  | level
deriving DecidableEq

/-- Whether a text is a value of a kind. -/
def ValueKind.accepts : ValueKind → String → Bool
  | .text, _ => true
  | .path, v => !v.isEmpty
  | .word, v => (wordOfText? v).isSome
  | .level, v => (LogLevel.ofText? v).isSome

/-- An option. -/
structure Opt where
  /-- Its name, without dashes. -/
  name : String
  /-- What its value may be; none for a switch. -/
  kind : Option ValueKind
  /-- What it is for. -/
  about : String
  /-- Whether it must be given. -/
  required : Bool := false
  /-- Its value if it is not given, for the help. -/
  fallback : Option String := none
deriving DecidableEq

/-- A positional value; all must be given. -/
structure Positional where
  /-- Its name. -/
  name : String
  /-- What it may be. -/
  kind : ValueKind
  /-- What it is for. -/
  about : String
deriving DecidableEq

/-- The arguments of a command. -/
structure Grammar where
  /-- The command, as it is called. -/
  command : String
  /-- What it does. -/
  about : String
  /-- Its positional values in order. -/
  positionals : List Positional := []
  /-- Its options, as its help lists them. -/
  options : List Opt
  /-- The commands that may follow, with what they do. -/
  commands : List (String × String) := []

/-- Arguments as given. -/
structure Arguments where
  /-- Options with their values, in order; a switch has an empty one. -/
  options : List (String × String) := []
  /-- Positional values in order. -/
  positionals : List String := []
deriving DecidableEq

/-- Why a command line asks for nothing. -/
inductive Refusal where
  /-- It does not follow the grammar. -/
  | usage
  /-- It asks for help. -/
  | help (text : String)
deriving DecidableEq

namespace Grammar

/-! ## Help -/

/-- A name as a placeholder for a value. -/
def placeholder (name : String) : String :=
  "<" ++ String.ofList (name.toList.map fun c => if c = '-' then '_' else c.toUpper) ++ ">"

/-- An option with its placeholder. -/
def spelled (o : Opt) : String :=
  "--" ++ o.name ++ if o.kind.isSome then " " ++ placeholder o.name else ""

/-- What an option is for, with its default. -/
def told (o : Opt) : String :=
  match o.fallback with
  | some v => o.about ++ " [default: " ++ v ++ "]"
  | none => o.about

/-- The characters of a line. -/
def lineWidth : Nat := 100

/-- Whether texts beside names of a width are set below them instead: the names take more than two
fifths of the line and a text does not fit beside them. -/
def setsBelow (width : Nat) (texts : List String) : Bool :=
  let taken := width + 12
  lineWidth * 2 < taken * 5 && texts.any fun t => lineWidth - taken < t.length

/-- A name with its text beside or below it. -/
def entry (below : Bool) (width : Nat) (lead name text : String) : String :=
  let gap :=
    if below then "\n          "
    else String.ofList (List.replicate (width - name.length + 2) ' ')
  lead ++ name ++ gap ++ text ++ "\n"

/-- The width of the widest of some names. -/
def widest (names : List String) : Nat := names.foldl (fun n s => max n s.length) 0

/-- A section of names and texts. -/
def sectionText (title : String) (entries : List (String × String)) : String :=
  if entries.isEmpty then ""
  else
    let width := widest (entries.map Prod.fst)
    "\n" ++ title ++ ":\n" ++ String.join (entries.map fun (n, t) => entry false width "  " n t)

/-- How a command is called. -/
def usage (g : Grammar) : String :=
  " ".intercalate (["Usage:", g.command, "[OPTIONS]"] ++
    (g.options.filter (·.required)).map spelled ++
    g.positionals.map (fun p => placeholder p.name) ++
    if g.commands.isEmpty then [] else ["<COMMAND>"])

/-- What a command tells about itself. -/
def help (g : Grammar) : String :=
  let width := widest (g.options.map spelled)
  let below := setsBelow width (g.options.map told)
  g.about ++ "\n\n" ++ g.usage ++ "\n" ++
    sectionText "Commands" g.commands ++
    sectionText "Arguments" (g.positionals.map fun p => (placeholder p.name, p.about)) ++
    "\nOptions:\n" ++
    String.join (g.options.map fun o => entry below width "      " (spelled o) (told o)) ++
    entry below (width + 4) "  " "-h, --help" "Print help"

/-! ## Scanning -/

/-- A command line up to where its scan stops. -/
structure Scan where
  /-- What is taken up. -/
  arguments : Arguments
  /-- The last option with a value of its own argument. It is taken up when the next argument of
  the same command is, so that help on a command after it comes before an error in it. -/
  pending : Option (Opt × String) := none
  /-- The command that follows, with its arguments. -/
  rest : List String := []

/-- Whether all that must be given is given. -/
def isComplete (g : Grammar) (a : Arguments) : Bool :=
  ((g.options.filter (·.required)).all fun o => (a.options.lookup o.name).isSome) &&
    g.positionals.length ≤ a.positionals.length

/-- Whether an argument is no value: it starts with a dash and goes on. -/
def isOption (arg : String) : Bool :=
  match arg.toList with
  | '-' :: _ :: _ => true
  | _ => false

/-- Takes up an option, which may be given once and has a value of its kind. -/
def addOption (a : Arguments) (o : Opt) (value : String) : Except Refusal Arguments :=
  if (a.options.lookup o.name).isSome ∨ ¬ o.kind.all (·.accepts value) then .error .usage
  else .ok { a with options := a.options ++ [(o.name, value)] }

/-- Takes up a positional value of its kind, if there is one more. -/
def addPositional (g : Grammar) (a : Arguments) (value : String) : Except Refusal Arguments :=
  match g.positionals[a.positionals.length]? with
  | some p =>
    if p.kind.accepts value then .ok { a with positionals := a.positionals ++ [value] }
    else .error .usage
  | none => .error .usage

/-- Takes up the option that waits. -/
def settle (a : Arguments) : Option (Opt × String) → Except Refusal Arguments
  | some (o, value) => addOption a o value
  | none => .ok a

/-- Everything that a scan has met. -/
def Scan.settled (s : Scan) : Except Refusal Arguments := settle s.arguments s.pending

/-- The name and the attached value of an argument after its two dashes. -/
def splitOption (cs : List Char) : String × Option String :=
  let name := cs.takeWhile (· ≠ '=')
  match cs.dropWhile (· ≠ '=') with
  | '=' :: value => (String.ofList name, some (String.ofList value))
  | _ => (String.ofList name, none)

/-- Scans arguments, given those before them and the option that waits. Where commands may follow,
the first argument that is no option ends the scan. -/
def scanFrom (g : Grammar) (a : Arguments) (pending : Option (Opt × String)) :
    List String → Except Refusal Scan
  | [] => .ok ⟨a, pending, []⟩
  | arg :: rest =>
    match arg.toList with
    | ['-', '-'] => do
      pure ⟨← rest.foldlM g.addPositional (← settle a pending), none, []⟩
    | '-' :: '-' :: cs =>
      let (name, attached) := splitOption cs
      if name = "help" then do
        let _ ← settle a pending
        throw (if attached.isNone then .help g.help else .usage)
      else
        match g.options.find? (·.name = name), attached, rest with
        | none, _, _ => .error .usage
        | some o, some value, rest => do
          if o.kind.isNone then throw .usage
          g.scanFrom (← addOption (← settle a pending) o value) none rest
        | some o, none, rest =>
          if o.kind.isNone then do
            g.scanFrom (← addOption (← settle a pending) o "") none rest
          else
            match rest with
            | value :: rest => do
              if isOption value then throw .usage
              g.scanFrom (← settle a pending) (some (o, value)) rest
            | [] => .error .usage
    | '-' :: c :: _ => do
      let _ ← settle a pending
      throw (if c = 'h' then .help g.help else .usage)
    | _ =>
      if g.commands.isEmpty then do
        g.scanFrom (← g.addPositional (← settle a pending) arg) none rest
      else .ok ⟨a, pending, arg :: rest⟩

/-- Scans arguments from the first on. -/
def scan (g : Grammar) (args : List String) : Except Refusal Scan :=
  g.scanFrom {} none args

/-- The arguments of a command, complete and each of its kind. -/
def read (g : Grammar) (args : List String) : Except Refusal Arguments := do
  let a ← (← g.scan args).settled
  if g.isComplete a then pure a else throw .usage

end Grammar

end CommandLine

end ReferenceDraws

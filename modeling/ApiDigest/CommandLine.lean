/-
  The command line.

  * `Request.ofArguments?` is what a list of arguments asks for, if it is well
    formed;
  * `World.run` answers a request and gives the exit code.

  Arguments are read from left to right.  An argument with a dash in front, and more
  behind it, is never the value of an option; a lone dash is.  Asking for help or for
  the version ends the reading.
-/
import ApiDigest.Generate

namespace ApiDigest

/-- What the user asks for. -/
inductive Request where
  | help
  | version
  | generate (flags : GenerateFlags)
  | discover (base : String)
deriving DecidableEq, Repr

namespace Request

/-! ## Arguments -/

/-- An argument. -/
inductive Argument where
  /-- Two dashes: there are no options behind it. -/
  | separator
  /-- A name behind two dashes, perhaps with a value behind an equals sign. -/
  | long (name : String) (value? : Option String)
  /-- Letters behind a dash. -/
  | short (letter : Char) (rest : List Char)
  | plain (text : String)
deriving DecidableEq, Repr

/-- The argument that a text makes. -/
def Argument.ofText (text : String) : Argument :=
  match text.toList with
  | ['-', '-'] => .separator
  | '-' :: '-' :: rest =>
    let name := String.ofList (rest.takeWhile (· ≠ '='))
    match rest.dropWhile (· ≠ '=') with
    | [] => .long name none
    | _ :: value => .long name (some (String.ofList value))
  | '-' :: letter :: rest => .short letter rest
  | _ => .plain text

/-- The text of an argument that can be a value. -/
def plainText? (text : String) : Option String :=
  match Argument.ofText text with
  | .plain text => some text
  | _ => none

/-! ## Options of `generate` -/

/-- An option with a value. -/
inductive ValueOption where
  | input
  | output
  | config
deriving DecidableEq, Repr

/-- The option with a long name. -/
def ValueOption.ofName? : String → Option ValueOption
  | "input" => some .input
  | "output" => some .output
  | "config" => some .config
  | _ => none

/-- The option with a letter. -/
def ValueOption.ofLetter? : Char → Option ValueOption
  | 'i' => some .input
  | 'o' => some .output
  | _ => none

/-- The flags with an option set.  Options may be set only once, and paths other than
    the input are not empty. -/
def set? (flags : GenerateFlags) (value : String) : ValueOption → Option GenerateFlags
  | .input => if flags.input.isSome then none else some { flags with input := value }
  | .output =>
    if flags.output.isSome || value = "" then none else some { flags with output := value }
  | .config =>
    if flags.config.isSome || value = "" then none else some { flags with config := value }

/-- The value that is attached to the letter of an option. -/
def attached? : List Char → Option String
  | [] => none
  | c :: rest => some (String.ofList (if c = '=' then rest else c :: rest))

/-- What an argument means to `generate`. -/
inductive GenerateWord where
  | help
  | compact
  | option (name : ValueOption) (value? : Option String)
  /-- No options may follow, and there is nothing else to give. -/
  | separator
deriving DecidableEq, Repr

/-- What an argument means to `generate`, if anything. -/
def generateWord? (text : String) : Option GenerateWord :=
  match Argument.ofText text with
  | .separator => some .separator
  | .plain _ => none
  | .long name value? =>
    match ValueOption.ofName? name with
    | some option => some (.option option value?)
    | none =>
      if value?.isSome then none
      else if name = "help" then some .help
      else if name = "compact" then some .compact
      else none
  | .short letter rest =>
    match ValueOption.ofLetter? letter with
    | some option => some (.option option (attached? rest))
    | none => if letter = 'h' then some .help else none

/-- The request that the arguments of `generate` make; `flags` are those already
    read. -/
def ofGenerate? (flags : GenerateFlags) : List String → Option Request
  | [] => some (.generate flags)
  | text :: rest =>
    match generateWord? text with
    | none => none
    | some .help => some .help
    | some .separator => if rest.isEmpty then some (.generate flags) else none
    | some .compact =>
      if flags.compact then none else ofGenerate? { flags with compact := true } rest
    | some (.option option (some value)) =>
      (set? flags value option).bind fun flags => ofGenerate? flags rest
    | some (.option option none) =>
      match rest with
      | [] => none
      | next :: rest =>
        match plainText? next with
        | none => none
        | some value => (set? flags value option).bind fun flags => ofGenerate? flags rest

/-! ## Options of `discover` -/

/-- The request of base addresses: there has to be one. -/
def ofBases? : List String → Option Request
  | [base] => some (.discover base)
  | _ => none

/-- The request that the arguments of `discover` make; `bases` are the addresses already
    read. -/
def ofDiscover? (bases : List String) : List String → Option Request
  | [] => ofBases? bases
  | text :: rest =>
    match Argument.ofText text with
    | .separator => ofBases? (bases ++ rest)
    | .long name value? => if name = "help" && value?.isNone then some .help else none
    | .short letter _ => if letter = 'h' then some .help else none
    | .plain base => if bases.isEmpty then ofDiscover? [base] rest else none

/-! ## Commands -/

/-- The request of `help`: perhaps with the name of one command. -/
def ofHelp? : List String → Option Request
  | [] => some .help
  | [name] => if ["generate", "discover", "help"].contains name then some .help else none
  | _ => none

/-- The request that a list of arguments makes; without any, it is for help. -/
def ofArguments? : List String → Option Request
  | [] => some .help
  | text :: rest =>
    match Argument.ofText text with
    | .separator => if rest.isEmpty then some .help else none
    | .long name value? =>
      if value?.isSome then none
      else if name = "help" then some .help
      else if name = "version" then some .version
      else none
    | .short letter _ =>
      if letter = 'h' then some .help else if letter = 'V' then some .version else none
    | .plain "generate" => ofGenerate? {} rest
    | .plain "discover" => ofDiscover? [] rest
    | .plain "help" => ofHelp? rest
    | .plain _ => none

end Request

/-! ## Running -/

/-- How a run ended. -/
inductive Ending where
  | success
  | failure (complaint : Complaint)
  /-- The arguments are not well formed. -/
  | misuse
deriving DecidableEq, Repr

/-- The exit code of an ending. -/
def Ending.code : Ending → UInt32
  | success => 0
  | failure _ => 1
  | misuse => 2

/-- The ending that a result makes. -/
def Ending.ofResult {α : Type} : Except Complaint α → Ending
  | .ok _ => .success
  | .error complaint => .failure complaint

variable {m : Type → Type} [Monad m]

/-- Does what a list of arguments asks for. -/
def World.run (world : World m) (arguments : List String) : m Ending := do
  match Request.ofArguments? arguments with
  | none => return .misuse
  | some .help => world.tell .help; return .success
  | some .version => world.tell .version; return .success
  | some (.generate flags) => return .ofResult (← world.generate flags)
  | some (.discover base) => return .ofResult (← world.discover base)

end ApiDigest

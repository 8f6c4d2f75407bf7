import MessageArchive.FileTree.Path
import MessageArchive.Text.Enclosed

set_option autoImplicit false

/-! # Arguments

A command line names one of three commands. Arguments are read one after the other, first those of
the program up to the name of the command, then those of the command. An argument is

* an option, `--name value` or `--name=value`, or a flag, `--flag`, each at most once;
* `--`, after which everything is an operand;
* an operand: a text that does not begin with a hyphen, or the single hyphen.

The value of an option that stands for itself is written like an operand. The option `config` may
stand before or after the name of the command; the later one counts.
-/

namespace MessageArchive.CommandLine

/-! ## Requests -/

/-- What the program is asked to do. -/
inductive Command where
  /-- Shows the name of a message, and with a directory the path that is free there. -/
  | resolve (message : Path) (template : Option String) (baseDir : Option Path) (strict : Bool)
  /-- Archives a payload. -/
  | archive (message payload : Path) (baseDir : Option Path) (template : Option String)
      (strict audit : Bool)
  /-- Shows the digest of a file, and compares it with an expected one. -/
  | checksum (path : Path) (expected : Option String)
  deriving DecidableEq, Repr

/-- A command, and the settings file to use in the place of the usual one. -/
structure Request where
  config : Option Path
  command : Command
  deriving DecidableEq, Repr

/-- Why no request is read from a command line. -/
inductive Refusal where
  /-- Help is asked for. -/
  | help
  /-- The command line is not one of this program. -/
  | usage
  deriving DecidableEq, Repr

/-! ## Options -/

/-- What follows an option, or stands as an operand. -/
inductive Kind where
  /-- Nothing follows. -/
  | flag
  | text
  /-- A path, which is not empty. -/
  | path
  deriving DecidableEq, Repr

def Kind.admits : Kind → String → Bool
  | .path, value => !value.isEmpty
  | _, _ => true

/-- The options of the program and of its commands. -/
inductive Key where
  | config
  | message
  | payload
  | baseDir
  | template
  | expect
  | strict
  | audit
  deriving DecidableEq, Repr

namespace Key

def name : Key → String
  | .config => "config"
  | .message => "message"
  | .payload => "payload"
  | .baseDir => "base-dir"
  | .template => "template"
  | .expect => "expect"
  | .strict => "strict"
  | .audit => "audit"

def kind : Key → Kind
  | .config | .message | .payload | .baseDir => .path
  | .template | .expect => .text
  | .strict | .audit => .flag

end Key

/-- The arguments that are understood before or after the name of a command: the options, and the
operand if there is one. -/
structure Grammar where
  keys : List Key
  operand : Option Kind
  deriving DecidableEq, Repr

/-- The arguments before the name of the command. -/
def Grammar.program : Grammar := ⟨[.config], none⟩

/-- The names of the commands. -/
inductive Verb where
  | resolve
  | archive
  | checksum
  deriving DecidableEq, Repr

namespace Verb

def ofName? : String → Option Verb
  | "resolve" => some .resolve
  | "archive" => some .archive
  | "checksum" => some .checksum
  | _ => none

/-- The arguments of the command. -/
def grammar : Verb → Grammar
  | .resolve => ⟨[.config, .message, .baseDir, .strict], some .text⟩
  | .archive => ⟨[.config, .message, .payload, .baseDir, .template, .strict, .audit], none⟩
  | .checksum => ⟨[.config, .expect], some .path⟩

end Verb

/-! ## The form of an argument -/

/-- What an argument looks like. -/
inductive Form where
  | operand
  /-- Only operands follow. -/
  | separator
  /-- An option of this name, with the value that is written behind the equals sign. -/
  | option (name : String) (value : Option String)
  /-- A hyphen with this letter. -/
  | letter (c : Char)
  deriving DecidableEq, Repr

def Form.ofText : List Char → Form
  | ['-', '-'] => .separator
  | '-' :: '-' :: rest =>
      match Text.splitFirst '=' rest with
      | some (name, value) => .option (String.ofList name) (some (String.ofList value))
      | none => .option (String.ofList rest) none
  | '-' :: c :: _ => .letter c
  | _ => .operand

/-! ## Reading -/

/-- What is known of the arguments that are read. -/
structure Reading where
  /-- The options with their values, the latest first. -/
  options : List (Key × String) := []
  operand : Option String := none
  /-- The option whose value is the next argument. -/
  awaiting : Option Key := none
  /-- Whether the rest are operands. -/
  operandsOnly : Bool := false
  deriving DecidableEq, Repr

namespace Reading

/-- The value of an option. -/
def value? (r : Reading) (k : Key) : Option String := r.options.lookup k

/-- Whether a flag is there. -/
def has (r : Reading) (k : Key) : Bool := (r.value? k).isSome

/-- The path that is the value of an option. -/
def path? (r : Reading) (k : Key) : Option Path := (r.value? k).map Path.mk

/-- Takes the value of an option. -/
def addOption (r : Reading) (k : Key) (value : String) : Except Refusal Reading :=
  if r.has k || !k.kind.admits value then .error .usage
  else .ok { r with options := (k, value) :: r.options, awaiting := none }

/-- Takes an operand. -/
def addOperand (g : Grammar) (r : Reading) (value : String) : Except Refusal Reading :=
  match g.operand, r.operand with
  | some kind, none =>
      if kind.admits value then .ok { r with operand := some value } else .error .usage
  | _, _ => .error .usage

/-- Takes the name of an option, and its value if it is there already. -/
def addNamed (r : Reading) (k : Key) (value : Option String) : Except Refusal Reading :=
  match k.kind, value with
  | .flag, none => r.addOption k ""
  | .flag, some _ => .error .usage
  | _, some v => r.addOption k v
  | _, none => .ok { r with awaiting := some k }

/-- Takes an argument by its form, when no option awaits its value. -/
def takeForm (g : Grammar) (r : Reading) (arg : String) : Form → Except Refusal Reading
  | .operand => addOperand g r arg
  | .separator => .ok { r with operandsOnly := true }
  | .letter c => .error (if c = 'h' then .help else .usage)
  | .option name value =>
      match g.keys.find? fun k => k.name == name with
      | some k => r.addNamed k value
      | none => .error (if name = "help" ∧ value = none then .help else .usage)

/-- Takes the next argument. -/
def take (g : Grammar) (r : Reading) (arg : String) : Except Refusal Reading :=
  if r.operandsOnly then addOperand g r arg
  else
    match r.awaiting, Form.ofText arg.toList with
    | none, form => r.takeForm g arg form
    | some k, .operand => r.addOption k arg
    -- What looks like an option is never taken as a value. Such a value needs the equals sign.
    | some _, _ => .error .usage

/-- Takes several arguments, up to the last. -/
def takeAll (g : Grammar) (r : Reading) (args : List String) : Except Refusal Reading := do
  let r ← args.foldlM (take g) r
  if r.awaiting.isSome then .error .usage else .ok r

end Reading

/-! ## Making the request -/

/-- What is necessary and not there. -/
def required {α : Type} : Option α → Except Refusal α
  | some a => .ok a
  | none => .error .usage

/-- The command with the given arguments. -/
def Verb.command (r : Reading) : Verb → Except Refusal Command
  | .resolve => do
      let message ← required (r.path? .message)
      return .resolve message r.operand (r.path? .baseDir) (r.has .strict)
  | .archive => do
      let message ← required (r.path? .message)
      let payload ← required (r.path? .payload)
      return .archive message payload (r.path? .baseDir) (r.value? .template) (r.has .strict)
        (r.has .audit)
  | .checksum => do
      let path ← required (r.operand.map Path.mk)
      return .checksum path (r.value? .expect)

/-- The answer to the word `help` with what follows it. -/
def helpOn : List String → Refusal
  | [] => .help
  | [topic] => if topic = "help" ∨ (Verb.ofName? topic).isSome then .help else .usage
  | _ => .usage

/-- The command that an argument names, if a command can be named here. -/
def Reading.verb? (r : Reading) (arg : String) : Option Verb :=
  if r.operandsOnly || r.awaiting.isSome then none else Verb.ofName? arg

namespace Request

/-- Reads the rest of a command line, given what is known of the arguments before. -/
def readFrom (outer : Reading) : List String → Except Refusal Request
  | [] => .error .usage
  | arg :: rest =>
      match outer.verb? arg with
      | some verb => do
          let inner ← Reading.takeAll verb.grammar {} rest
          let command ← verb.command inner
          return ⟨(inner.path? .config).or (outer.path? .config), command⟩
      | none =>
          if arg = "help" ∧ outer.operandsOnly = false ∧ outer.awaiting = none then
            .error (helpOn rest)
          else
            match outer.take .program arg with
            | .error refusal => .error refusal
            | .ok next => readFrom next rest

/-- Reads a command line. -/
def ofArguments (args : List String) : Except Refusal Request := readFrom {} args

end Request

end MessageArchive.CommandLine

import Redstone.Image.Format
import Redstone.Text.Numeral

/-!
# Arguments

The command line names a command, the file it works on and options.  Options
have a long name, some a short letter; a value follows its option or is
attached to it, and letters may stand together.  After two dashes everything is
a file.  An option may be given once.
-/

namespace Redstone

inductive Command where
  | assemble (source : String) (output : Option String) (format : ImageFormat)
  | run (path : String) (format : ImageFormat) (maxCycles : Option UInt64)
      (terminal dump : Bool)
  | list (path : String) (format : ImageFormat)
  deriving DecidableEq, Repr

inductive Refusal where
  | usage
  | help
  | version
  deriving DecidableEq, Repr

namespace Arguments

inductive Verb where
  | assemble | run | list
  deriving DecidableEq, Repr

inductive OptionName where
  | output | format | clock | maxCycles | terminal | dump | verbose | help
  deriving DecidableEq, Repr

namespace Verb

def ofName? (name : String) : Option Verb :=
  match name with
  | "asm" => some assemble
  | "run" => some run
  | "disasm" => some list
  | _ => none

def options : Verb → List OptionName
  | assemble => [.output, .format, .verbose, .help]
  | run => [.format, .clock, .maxCycles, .terminal, .dump, .verbose, .help]
  | list => [.format, .verbose, .help]

end Verb

namespace OptionName

def long : OptionName → String
  | output => "output"
  | format => "format"
  | clock => "clock"
  | maxCycles => "max-cycles"
  | terminal => "terminal"
  | dump => "dump-state"
  | verbose => "verbose"
  | help => "help"

def letter? : OptionName → Option Char
  | output => some 'o'
  | terminal => some 't'
  | verbose => some 'v'
  | help => some 'h'
  | _ => none

def takesValue : OptionName → Bool
  | output | format | clock | maxCycles => true
  | _ => false

end OptionName

structure Given where
  path : Option String
  output : Option String
  format : Option ImageFormat
  clocked : Bool
  maxCycles : Option UInt64
  terminal : Bool
  dump : Bool
  deriving DecidableEq, Repr

def Given.nothing : Given where
  path := none
  output := none
  format := none
  clocked := false
  maxCycles := none
  terminal := false
  dump := false

def word64? (text : String) : Option UInt64 :=
  let digits := match text.toList with
    | '+' :: rest => rest
    | cs => cs
  match Numeral.value? 10 digits with
  | some n => if n < UInt64.size then some (UInt64.ofNat n) else none
  | none => none

def unsigned : List Char → List Char
  | '+' :: rest | '-' :: rest => rest
  | cs => cs

def isExponent : List Char → Bool
  | [] => true
  | mark :: rest =>
      let digits := unsigned rest
      (mark == 'e' || mark == 'E') && !digits.isEmpty &&
        digits.all Char.isDigit

/-- Whether a text is a real number, infinite or undefined ones included. -/
def isReal (text : String) : Bool :=
  let body := unsigned text.toList
  let name := String.ofList (body.map Char.toLower)
  let whole := body.takeWhile Char.isDigit
  let tail := body.dropWhile Char.isDigit
  let (fraction, exponent) := match tail with
    | '.' :: rest => (rest.takeWhile Char.isDigit, rest.dropWhile Char.isDigit)
    | rest => ([], rest)
  name == "inf" || name == "infinity" || name == "nan" ||
    (!(whole ++ fraction).isEmpty && isExponent exponent)

def setValue (given : Given) (option : OptionName) (value : String) :
    Except Refusal Given :=
  match option with
  | .output =>
      if given.output.isSome || value.isEmpty then .error .usage
      else .ok { given with output := some value }
  | .format =>
      match given.format, ImageFormat.ofName? value with
      | none, some format => .ok { given with format := some format }
      | _, _ => .error .usage
  | .clock =>
      if given.clocked || !isReal value then .error .usage
      else .ok { given with clocked := true }
  | .maxCycles =>
      match given.maxCycles, word64? value with
      | none, some max => .ok { given with maxCycles := some max }
      | _, _ => .error .usage
  | _ => .error .usage

def setFlag (given : Given) (option : OptionName) : Except Refusal Given :=
  match option with
  | .terminal =>
      if given.terminal then .error .usage
      else .ok { given with terminal := true }
  | .dump =>
      if given.dump then .error .usage else .ok { given with dump := true }
  | .verbose => .ok given
  | .help => .error .help
  | _ => .error .usage

def setPath (given : Given) (path : String) : Except Refusal Given :=
  if given.path.isSome || path.isEmpty then .error .usage
  else .ok { given with path := some path }

inductive Shape where
  /-- Two dashes alone. -/
  | divider
  /-- A long name, perhaps with a value behind an equals sign. -/
  | long (name : String) (value : Option String)
  /-- Letters behind one dash. -/
  | letters (cs : List Char)
  | plain

def shape (argument : String) : Shape :=
  match argument.toList with
  | ['-', '-'] => .divider
  | '-' :: '-' :: cs =>
      let name := String.ofList (cs.takeWhile (· != '='))
      match cs.dropWhile (· != '=') with
      | [] => .long name none
      | _ :: value => .long name (some (String.ofList value))
  | '-' :: c :: cs => .letters (c :: cs)
  | _ => .plain

/-- What is given after some arguments, and the option that waits for a value. -/
abbrev Reading := Given × Option OptionName

def readLetters (verb : Verb) (given : Given) :
    List Char → Except Refusal Reading
  | [] => .ok (given, none)
  | c :: rest =>
      match verb.options.find? fun option => option.letter? = some c with
      | none => .error .usage
      | some option =>
          if option.takesValue then
            let value := match rest with
              | '=' :: cs => cs
              | cs => cs
            if rest.isEmpty then .ok (given, some option)
            else (setValue given option (String.ofList value)).map (·, none)
          else
            match setFlag given option with
            | .error refusal => .error refusal
            | .ok after => readLetters verb after rest

def readOption (verb : Verb) (given : Given) (argument : String) :
    Except Refusal Reading :=
  match shape argument with
  | .divider => .ok (given, none)
  | .letters cs => readLetters verb given cs
  | .plain => (setPath given argument).map (·, none)
  | .long name value =>
      match verb.options.find? fun option => option.long = name with
      | none => .error .usage
      | some option =>
          match option.takesValue, value with
          | true, some value => (setValue given option value).map (·, none)
          | true, none => .ok (given, some option)
          | false, none => (setFlag given option).map (·, none)
          | false, some _ => .error .usage

def readPaths (given : Given) : List String → Except Refusal Given
  | [] => .ok given
  | path :: rest =>
      match setPath given path with
      | .error refusal => .error refusal
      | .ok after => readPaths after rest

/-- Reads the arguments of a command, the first perhaps the value of an option. -/
def readAll (verb : Verb) (given : Given) (waiting : Option OptionName) :
    List String → Except Refusal Given
  | [] => if waiting.isSome then .error .usage else .ok given
  | argument :: rest =>
      match waiting, shape argument with
      | some option, .plain =>
          match setValue given option argument with
          | .error refusal => .error refusal
          | .ok after => readAll verb after none rest
      | some _, _ => .error .usage
      | none, .divider => readPaths given rest
      | none, _ =>
          match readOption verb given argument with
          | .error refusal => .error refusal
          | .ok (after, waiting) => readAll verb after waiting rest

def command (verb : Verb) (given : Given) : Except Refusal Command :=
  match given.path with
  | none => .error .usage
  | some path =>
      let loaded := given.format.getD .auto
      match verb with
      | .assemble =>
          .ok (.assemble path given.output (given.format.getD .binary))
      | .run =>
          .ok (.run path loaded given.maxCycles given.terminal given.dump)
      | .list => .ok (.list path loaded)

def readLeadingLetters : List Char → Except Refusal Unit
  | [] => .ok ()
  | 'v' :: rest => readLeadingLetters rest
  | 'h' :: _ => .error .help
  | 'V' :: _ => .error .version
  | _ :: _ => .error .usage

def helpOn : List String → Refusal
  | [] => .help
  | [name] =>
      if name = "help" ∨ (Verb.ofName? name).isSome then .help else .usage
  | _ => .usage

def parse : List String → Except Refusal Command
  | [] => .error .usage
  | argument :: rest =>
      match shape argument with
      | .divider => .error .usage
      | .letters cs =>
          match readLeadingLetters cs with
          | .error refusal => .error refusal
          | .ok () => parse rest
      | .long name value =>
          match name, value with
          | "verbose", none => parse rest
          | "help", none => .error .help
          | "version", none => .error .version
          | _, _ => .error .usage
      | .plain =>
          match Verb.ofName? argument with
          | some verb =>
              match readAll verb .nothing none rest with
              | .ok given => command verb given
              | .error refusal => .error refusal
          | none =>
              if argument = "help" then .error (helpOn rest)
              else .error .usage

end Arguments

end Redstone

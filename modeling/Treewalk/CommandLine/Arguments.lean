import Treewalk.Expr.Show
import Treewalk.Format.Detect

/-!
# Arguments of the command line

The command takes at most one program file, and switches anywhere before or behind it. A long switch
may be cut short as long as what is left fits no other switch, and its value may follow an equals
sign or stand in the next word. After the divider `--` all words are plain. A negative number and a
word with a space in it are plain words too.

Words are first told apart, then taken from left to right. `--help` ends the reading where it
stands, so a fault in front of it counts and one behind it does not.
-/

namespace Treewalk.CommandLine

open Text

/-- What the command is asked to do. -/
structure Arguments where
  program : Option Text
  format : Option Format
  showTree : Bool
  dump : Bool
  limit : Option Int

/-- The request of an empty command line. -/
def Arguments.none : Arguments := ⟨Option.none, Option.none, false, false, Option.none⟩

/-- The switches. -/
inductive Switch where
  | help
  | format
  | showTree
  | dump
  | limit
  deriving DecidableEq

namespace Switch

/-- All switches, in the order in which they are looked up. -/
def all : List Switch := [help, format, showTree, dump, limit]

/-- The long name of a switch. -/
def longName : Switch → String
  | help => "--help"
  | format => "--format"
  | showTree => "--show-tree"
  | dump => "--dump"
  | limit => "--recursion-limit"

/-- The names of a switch, as messages give them. -/
def label : Switch → String
  | help => "-h/--help"
  | s => s.longName

/-- Whether a switch takes a value. -/
def takesValue : Switch → Bool
  | format | limit => true
  | help | showTree | dump => false

end Switch

/-- Why the command line cannot be followed. -/
inductive ArgumentFault where
  | ambiguous (word : Text) (candidates : List Switch)
  | unrecognized (words : List Text)
  | missingValue (s : Switch)
  /-- A switch that takes no value got one. -/
  | surplusValue (s : Switch) (given : Text)
  | unknownFormat (given : Text)
  | notAnInteger (given : Text)

/-- The wording of a fault. -/
def ArgumentFault.message : ArgumentFault → Text
  | ambiguous word candidates =>
    "ambiguous option: " ++ word ++ " could match " ++
      ", ".intercalate (candidates.map Switch.longName)
  | unrecognized words => "unrecognized arguments: " ++ Text.join " " words
  | missingValue s => "argument " ++ s.label ++ ": expected one argument"
  | surplusValue s given => "argument " ++ s.label ++ ": ignored explicit argument " ++ quote given
  | unknownFormat given =>
    "argument " ++ Switch.format.label ++ ": invalid choice: " ++ quote given ++
      " (choose from 'json', 'yaml')"
  | notAnInteger given =>
    "argument " ++ Switch.limit.label ++ ": invalid int value: " ++ quote given

/-! ## Words -/

/-- The word that ends the switches. -/
def dividerText : Text := "--"

/-- A word of the command line. -/
inductive Word where
  /-- A switch under its long name, with the value behind the equals sign. -/
  | switch (s : Switch) (joined : Option Text)
  /-- The short switch `-h` with more characters behind it or behind an equals sign. -/
  | shortHelp (tail : Text)
  /-- A word that looks like a switch and is none. -/
  | unknown (text : Text)
  | plain (text : Text)
  | divider

/-- Whether a word is a negative number. -/
def isNegativeNumber (word : Text) : Bool :=
  let isDigit := CodePoint.isCharWith fun c => (decimalValue? c).isSome
  match if word.getLast? = some (.char '\n') then word.dropLast else word with
  | .char '-' :: body =>
    match body.dropWhile isDigit with
    | [] => !body.isEmpty
    | .char '.' :: fraction => !fraction.isEmpty && fraction.all isDigit
    | _ => false
  | _ => false

/-- The name and the joined value of a word: it is cut at the first equals sign. -/
def cutEquals (word : Text) : Text × Option Text :=
  match word.dropWhile (· != .char '=') with
  | [] => (word, none)
  | _ :: value => (word.takeWhile (· != .char '='), some value)

/-- A word that names no switch. -/
def otherWord (word : Text) : Word :=
  if isNegativeNumber word || word.contains (.char ' ') then .plain word else .unknown word

/-- Tells what a word in front of the divider is. -/
def Word.ofText (word : Text) : Except ArgumentFault Word :=
  let (name, joined) := cutEquals word
  match word with
  | .char '-' :: .char '-' :: _ =>
    match Switch.all.find? (Text.ofString ·.longName == name) with
    | some s => .ok (.switch s joined)
    | none =>
      match Switch.all.filter (name.isPrefixOf <| Text.ofString ·.longName) with
      | [] => .ok (otherWord word)
      | [s] => .ok (.switch s joined)
      | candidates => .error (.ambiguous word candidates)
  | [.char '-', .char 'h'] => .ok (.switch .help none)
  | .char '-' :: .char 'h' :: .char '=' :: tail => .ok (.shortHelp tail)
  | .char '-' :: .char 'h' :: tail => .ok (.shortHelp tail)
  | .char '-' :: _ :: _ => .ok (otherWord word)
  | _ => .ok (.plain word)

/-- Tells the words of a command line apart. -/
def wordsOf : List Text → Except ArgumentFault (List Word)
  | [] => .ok []
  | text :: rest =>
    if text = dividerText then .ok (.divider :: rest.map .plain)
    else do
      let word ← Word.ofText text
      let words ← wordsOf rest
      return word :: words

/-! ## Reading -/

/-- What has been read of a command line. -/
structure Progress where
  arguments : Arguments
  /-- Whether the word for the program has been taken. -/
  taken : Bool
  /-- The words for which there is no use, the last one first. -/
  surplus : List Text

/-- What a command line asks for. -/
inductive Request where
  | help
  | run (arguments : Arguments)

/-- What is refused of the characters behind `-h`; nothing is if all of them are `h` again. -/
def refusedTail? : Text → Option Text
  | [.char 'h'] => none
  | .char 'h' :: rest => refusedTail? rest
  | tail => some tail

/-- Sets a switch that takes a value. The divider is no value: it leaves the format open, and the
limit at the one that stands for none. -/
def setValue (s : Switch) (value : Text) (a : Arguments) : Except ArgumentFault Arguments :=
  match s with
  | .format =>
    if value = dividerText then .ok { a with format := none }
    else if value = Format.json.name then .ok { a with format := some .json }
    else if value = Format.yaml.name then .ok { a with format := some .yaml }
    else .error (.unknownFormat value)
  | .limit =>
    if value = dividerText then .ok { a with limit := some 0 }
    else
      match Number.readInt 10 value.toChars with
      | .ok n => .ok { a with limit := some n }
      | .error _ => .error (.notAnInteger value)
  | .help | .showTree | .dump => .ok a

/-- Sets a switch that takes no value. -/
def setFlag (s : Switch) (a : Arguments) : Arguments :=
  match s with
  | .showTree => { a with showTree := true }
  | .dump => { a with dump := true }
  | .help | .format | .limit => a

/-- Takes words from left to right. The divider goes with the word for the program, if it stands
right before or behind it. -/
def takeWords (p : Progress) : List Word → Except ArgumentFault Request
  | [] =>
    if p.surplus.isEmpty then .ok (.run p.arguments)
    else .error (.unrecognized p.surplus.reverse)
  | .unknown text :: rest => takeWords { p with surplus := text :: p.surplus } rest
  | .shortHelp tail :: _ =>
    match refusedTail? tail with
    | none => .ok .help
    | some given => .error (.surplusValue .help given)
  | .switch s joined :: rest =>
    if s.takesValue then
      match joined, rest with
      | some value, rest => do
        takeWords { p with arguments := ← setValue s value p.arguments } rest
      | none, .plain value :: rest => do
        takeWords { p with arguments := ← setValue s value p.arguments } rest
      | none, _ => .error (.missingValue s)
    else
      match joined with
      | some given => .error (.surplusValue s given)
      | none =>
        if s = .help then .ok .help
        else takeWords { p with arguments := setFlag s p.arguments } rest
  | .plain text :: rest =>
    if p.taken then takeWords { p with surplus := text :: p.surplus } rest
    else
      let p := { p with arguments := { p.arguments with program := some text }, taken := true }
      match rest with
      | .divider :: rest => takeWords p rest
      | rest => takeWords p rest
  | .divider :: rest =>
    takeWords (if p.taken then { p with surplus := dividerText :: p.surplus } else p) rest

/-- Reads a command line. -/
def Request.ofWords (texts : List Text) : Except ArgumentFault Request := do
  takeWords ⟨.none, false, []⟩ (← wordsOf texts)

/-! ## Help -/

/-- How the command is called. -/
def usage : String :=
  "usage: fwjs [-h] [--format \x7bjson,yaml\x7d] [--show-tree] [--dump]\n" ++
  "            [--recursion-limit RECURSION_LIMIT]\n" ++
  "            [program]\n"

/-- The description of the command. -/
def help : String :=
  usage ++
  "\n" ++
  "Evaluate FWJS expression trees stored as JSON or YAML documents.\n" ++
  "\n" ++
  "positional arguments:\n" ++
  "  program               tree document to run; omit to start the REPL\n" ++
  "\n" ++
  "options:\n" ++
  "  -h, --help            show this help message and exit\n" ++
  "  --format \x7bjson,yaml\x7d  document format (default: from suffix or content)\n" ++
  "  --show-tree           print the program in source form before running it\n" ++
  "  --dump                print the normalized tree as YAML and exit\n" ++
  "  --recursion-limit RECURSION_LIMIT\n" ++
  "                        host recursion limit while evaluating\n"

/-- What is said about a fault. -/
def ArgumentFault.report (f : ArgumentFault) : Text :=
  usage ++ "fwjs: error: " ++ f.message

end Treewalk.CommandLine

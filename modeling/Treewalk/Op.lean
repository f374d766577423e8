/-!
# Binary operators

The ten operators of the language. Five compute an integer and five compare two integers.
`Op.lookup?` reads an operator from its symbol, or from its name in capitals, small letters or a
mixture; three operators have a long name beside their short one.
-/

namespace Treewalk

/-- A binary operator. -/
inductive Op where
  | add | sub | mul | div | mod | gt | ge | lt | le | eq
  deriving DecidableEq

namespace Op

/-- All operators, in the order in which they are looked up. -/
def all : List Op := [add, sub, mul, div, mod, gt, ge, lt, le, eq]

/-- The symbol of an operator in source text. -/
def symbol : Op → String
  | add => "+"
  | sub => "-"
  | mul => "*"
  | div => "/"
  | mod => "%"
  | gt => ">"
  | ge => ">="
  | lt => "<"
  | le => "<="
  | eq => "=="

/-- The name of an operator, in capitals. -/
def name : Op → String
  | add => "ADD"
  | sub => "SUB"
  | mul => "MUL"
  | div => "DIV"
  | mod => "MOD"
  | gt => "GT"
  | ge => "GE"
  | lt => "LT"
  | le => "LE"
  | eq => "EQ"

/-- Whether an operator compares. -/
def isRelational : Op → Bool
  | gt | ge | lt | le | eq => true
  | add | sub | mul | div | mod => false

/-- The long names, in capitals. -/
def longNames : List (String × Op) := [("SUBTRACT", sub), ("MULTIPLY", mul), ("DIVIDE", div)]

/-- The capital of a letter. Outside ASCII only the dotless i and the long s have a capital that
occurs in a name. -/
def capital (c : Char) : Char :=
  if c = 'ı' then 'I' else if c = 'ſ' then 'S' else c.toUpper

/-- The operator that a text names: by symbol, by name, or by long name. -/
def lookup? (text : String) : Option Op :=
  let capitals := String.ofList (text.toList.map capital)
  (all.find? fun op => text == op.symbol || capitals == op.name).or
    ((longNames.find? fun entry => capitals == entry.1).map (·.2))

/-- An operator is found by its symbol. -/
theorem lookup?_symbol (op : Op) : lookup? op.symbol = some op := by
  cases op <;> decide +kernel

/-- An operator is found by its name. -/
theorem lookup?_name (op : Op) : lookup? op.name = some op := by
  cases op <;> decide +kernel

end Op

end Treewalk

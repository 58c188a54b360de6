/-
Module: VimPattern.NamedClass
Purpose: The named classes that stand inside a collection.
Main exports:
  NamedClass, NamedClass.name, NamedClass.ofName?, NamedClass.body
-/
import VimPattern.Options

namespace VimPattern

/-- A class written `[:name:]` inside a collection. -/
inductive NamedClass where
  | alnum
  | alpha
  | blank
  | cntrl
  | digit
  | graph
  | lower
  | print
  | punct
  | space
  | upper
  | xdigit
  | carriageReturn
  | tab
  | escape
  | backspace
  | ident
  | keyword
  | fname
deriving Repr, Inhabited, DecidableEq

namespace NamedClass

/-- Every named class, in the order of declaration. -/
def all : List NamedClass :=
  [.alnum, .alpha, .blank, .cntrl, .digit, .graph, .lower, .print, .punct,
    .space, .upper, .xdigit, .carriageReturn, .tab, .escape, .backspace, .ident,
    .keyword, .fname]

/-- The name between the colons. -/
def name : NamedClass → String
  | .alnum => "alnum"
  | .alpha => "alpha"
  | .blank => "blank"
  | .cntrl => "cntrl"
  | .digit => "digit"
  | .graph => "graph"
  | .lower => "lower"
  | .print => "print"
  | .punct => "punct"
  | .space => "space"
  | .upper => "upper"
  | .xdigit => "xdigit"
  | .carriageReturn => "return"
  | .tab => "tab"
  | .escape => "escape"
  | .backspace => "backspace"
  | .ident => "ident"
  | .keyword => "keyword"
  | .fname => "fname"

/-- The class that a name stands for. -/
def ofName? (text : String) : Option NamedClass :=
  all.find? fun namedClass => namedClass.name == text

/-- The members as part of the body of a bracket expression.  When case is
folded, the classes of small and of capital letters hold both. -/
def body (options : Options) (foldCase : Bool) : NamedClass → String
  | .alnum => "0-9A-Za-z"
  | .alpha => "A-Za-z"
  | .blank => " \\t"
  | .cntrl => "\\x7F\\x00-\\x1F\\x80-\\x9F"
  | .digit => "0-9"
  | .graph => "\\x21-\\x7E\\x80-\\xFF"
  | .lower => if foldCase then "A-Za-z" else "a-z"
  | .print => "\\x20-\\x7E\\x80-\\xFF"
  | .punct => "!-/:-@\\[-`\x7b-~"
  | .space => " \\t\\n\\x0B\\x0C\\r"
  | .upper => if foldCase then "A-Za-z" else "A-Z"
  | .xdigit => "0-9A-Fa-f"
  | .carriageReturn => "\\r"
  | .tab => "\\t"
  | .escape => "\\x1B"
  | .backspace => "\\x08"
  | .ident => options.identChars ++ "0-9"
  | .keyword => options.keywordChars ++ "0-9"
  | .fname => options.fileNameChars ++ "0-9"

@[simp] theorem ofName?_name (namedClass : NamedClass) :
    ofName? namedClass.name = some namedClass := by
  cases namedClass <;> decide

end NamedClass

end VimPattern

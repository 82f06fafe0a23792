namespace DistinctCount.Text

/-- A value to be shown. -/
inductive Shown where
  /-- Text that stands for itself. -/
  | atom (text : String)
  | record (name : String) (fields : List (String × Shown))
  | tuple (items : List Shown)
  | list (items : List Shown)

namespace Shown

mutual

def inline : Shown → String
  | .atom text => text
  | .record name fields => name ++ " \x7b " ++ ", ".intercalate (inlineFields fields) ++ " \x7d"
  | .tuple items => "(" ++ ", ".intercalate (inlineItems items) ++ ")"
  | .list items => "[" ++ ", ".intercalate (inlineItems items) ++ "]"

def inlineItems : List Shown → List String
  | [] => []
  | item :: items => inline item :: inlineItems items

def inlineFields : List (String × Shown) → List String
  | [] => []
  | (name, value) :: fields => (name ++ ": " ++ inline value) :: inlineFields fields

end

/-- Entries between an opening and a closing text, each on lines of its own one step deeper. -/
def enclose (opening closing : String) (entries : List (List String)) : List String :=
  match entries with
  | [] => [opening ++ closing]
  | _ =>
    let deeper := entries.flatMap fun lines =>
      match lines.reverse with
      | [] => []
      | last :: rest => ((last ++ ",") :: rest).reverse.map ("    " ++ ·)
    opening :: deeper ++ [closing]

/-- Puts a name in front of the first line. -/
def named (name : String) : List String → List String
  | [] => [name]
  | line :: lines => (name ++ line) :: lines

mutual

/-- The lines of the value with one entry on each line. -/
def lines : Shown → List String
  | .atom text => [text]
  | .record name fields => enclose (name ++ " \x7b") "\x7d" (linesOfFields fields)
  | .tuple items => enclose "(" ")" (linesOfItems items)
  | .list items => enclose "[" "]" (linesOfItems items)

def linesOfItems : List Shown → List (List String)
  | [] => []
  | item :: items => lines item :: linesOfItems items

def linesOfFields : List (String × Shown) → List (List String)
  | [] => []
  | (name, value) :: fields => named (name ++ ": ") (lines value) :: linesOfFields fields

end

/-- The value with one entry on each line. -/
def indented (value : Shown) : String := "\n".intercalate (lines value)

end Shown

end DistinctCount.Text

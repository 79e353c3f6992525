import DocStore.Filter.Basic

/-!
# Statements

A `Statement` is a part of a filter string: a test of an attribute or a group of statements under
one connective. `Statement.write` is its text. Groups are parenthesised and tests are not, so the
keyword between the members of a group is the only one at its level.
-/

namespace DocStore.Filter

inductive Statement where
  /-- The attribute has the literal as a value, or has it not. -/
  | holds (negated : Bool) (attr literal : String)
  | atLeast (attr bound : String)
  | atMost (attr bound : String)
  | group (connective : Connective) (members : List Statement)

namespace Statement

def separator (connective : Connective) : List Char := ' ' :: connective.keyword.toList ++ [' ']

mutual

def write : Statement → List Char
  | holds negated attr literal =>
    (if negated then "NOT ".toList else []) ++ attr.toList ++ ':' :: '(' :: literal.toList ++ [')']
  | atLeast attr bound => attr.toList ++ ':' :: '[' :: bound.toList ++ " TO *]".toList
  | atMost attr bound => attr.toList ++ ":[* TO ".toList ++ bound.toList ++ [']']
  | group connective members => '(' :: writeJoined connective members ++ [')']

def writeJoined (connective : Connective) : List Statement → List Char
  | [] => []
  | [s] => s.write
  | s :: rest => s.write ++ separator connective ++ writeJoined connective rest

end

/-- The filter string of statements under a connective; no statements make no filter. -/
def joined? (connective : Connective) (statements : List Statement) : Option String :=
  if statements.isEmpty then none else some (String.ofList (writeJoined connective statements))

end Statement

end DocStore.Filter

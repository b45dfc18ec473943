set_option autoImplicit false

namespace FaultDrill.Outside.Shell

/-- What a parameter with a word after it comes to. -/
inductive Fallback where
  | use
  | assign
  | demand
  | replace
  deriving DecidableEq

inductive FileMode where
  | read | write | append | both
  deriving DecidableEq

mutual

inductive Part where
  | text (quoted : Bool) (text : String)
  | value (quoted : Bool) (name : String)
  | length (quoted : Bool) (name : String)
  /-- With `orEmpty` an empty value counts as none. -/
  | fallback (quoted : Bool) (name : String) (orEmpty : Bool) (mode : Fallback) (word : List Part)
  | strip (quoted : Bool) (name : String) (atEnd longest : Bool) (pattern : List Part)
  | arithmetic (quoted : Bool) (body : List Part)
  | output (quoted : Bool) (script : List Statement)
  | malformed

inductive Redirection where
  | file (fd : Nat) (mode : FileMode) (target : List Part)
  | copy (fd : Nat) (target : List Part)
  | text (fd : Nat) (body : List Part)

inductive Statement where
  | simple (line : Nat) (assignments : List (String × List Part)) (words : List (List Part))
      (redirections : List Redirection)
  | pipeline (stages : List Statement)
  | negation (command : Statement)
  | conjunction (first second : Statement)
  | disjunction (first second : Statement)
  | sequence (commands : List Statement)
  | background (command : Statement)
  | conditional (condition yes no : Statement)
  /-- Repeats as long as the condition has the given outcome. -/
  | loop (outcome : Bool) (condition body : Statement)
  /-- Without a list the positional parameters are gone through. -/
  | forEach (name : String) (list : Option (List (List Part))) (body : Statement)
  | choice (word : List Part) (arms : List (List (List Part) × Statement))
  | redirected (command : Statement) (redirections : List Redirection)
  | subshell (command : Statement)
  | definition (name : String) (body : Statement)

end

abbrev Word : Type := List Part

def Statement.nothing : Statement := .sequence []

end FaultDrill.Outside.Shell

/-
  How lambdas are built: clause by clause, no kind of clause twice, and no two variables
  of one name.
-/
import StoryScript.Text.Lowercase
import StoryScript.Value.Failure

namespace StoryScript.Lambda

open ScriptError

/-- A name as lambdas compare it: without regard to case, hyphens and underscores. -/
def foldedName (name : String) : List Char :=
  (name.toList.filter fun c => c != '-' && c != '_').flatMap Text.lowercase

/-- The names of the variables that a lambda binds. -/
def names (l : Lambda) : List String :=
  l.loopName.toList ++ l.withName.toList ++ l.makingName.toList

/-- The first name that repeats one of the folded names or a name before it. -/
def repeatedName? (seen : List (List Char)) : List String → Option String
  | [] => none
  | name :: rest =>
    if seen.contains (foldedName name) then some name
    else repeatedName? (foldedName name :: seen) rest

/-- Fills a clause that must not be there yet. -/
def fill {α : Type} (clause : String) (a : α) : Option α → Except ScriptError (Option α)
  | some _ => .error (repeatedClause clause)
  | none => .ok (some a)

/-- Adds a clause, whatever its names. -/
def addClause (l : Lambda) : Clause Expr → Except ScriptError Lambda
  | .whereBody body => do return { l with whereBody := ← fill "where" body l.whereBody }
  | .viaBody body => do return { l with viaBody := ← fill "via" body l.viaBody }
  | .withName name => do return { l with withName := ← fill "with" name l.withName }
  | .makingName name => do return { l with makingName := ← fill "making" name l.makingName }

/-- Adds a clause. -/
def extend (l : Lambda) (clause : Clause Expr) : Except ScriptError Lambda := do
  let l ← l.addClause clause
  match repeatedName? [] l.names with
  | some name => throw (repeatedVariable name)
  | none => return l

/-- The lambda that a clause is attached to. -/
def ofSubject : Subject Value → Except ScriptError Lambda
  | .implicit => .ok {}
  | .param name => .ok { loopName := some name }
  | .of (.lambda l) => .ok l
  | .of (.error e) => .error e
  | .of v => .error (notLambdaSubject v)

/-- The lambda with a clause attached to a subject. -/
def create (subject : Subject Value) (clause : Clause Expr) : Value :=
  match ofSubject subject >>= (extend · clause) with
  | .ok l => .lambda l
  | .error e => .error e

end StoryScript.Lambda

import StoryEngine.Run.Journal

/-! # Scripted steps

Steps written as data: statements that run in order until one of them returns. A script reads its
context, may call the stories injected into its host, and returns an outcome or nothing.
-/

namespace StoryEngine.Script

inductive Term where
  | int (n : Int)
  | read (name : String)

inductive Expr where
  | literal (value : Value)
  | require (name : String)
  | get (name : String)
  | read (name : String) (shape : Shape)
  | add (left right : Term)
  | mul (left right : Term)
  | names
  | context
  | call (story : String) (arguments : Arguments)
  | run (story : String) (arguments : Arguments)

inductive Condition where
  | has (name : String)
  | less (name : String) (bound : Int)
  | equals (name : String) (value : Value)

inductive Statement where
  | nothing
  | skip
  | fail (reason : Option String)
  | result (value : Expr)
  | success (outputs : List (String × Expr))
  | raise (error : StepError)
  | assign (name : String)
  | remove (name : String)
  | require (name : String)
  | read (name : String) (shape : Shape)
  | choose (condition : Condition) (yes no : List Statement)

/-- A call of a story by a script. -/
structure Call where
  story : Story
  arguments : Arguments

/-- A script runs to a value or an error and keeps the calls it makes. -/
abbrev Effect := ExceptT StepError (StateM (List Call))

/-- What a script can see: the stories of its host and the variables of the run. -/
structure Scope where
  stories : List (String × Story)
  context : Context

namespace Scope

variable (scope : Scope)

def lift {ε α : Type} (wrap : ε → StepError) (x : Except ε α) : Effect α :=
  match x with
  | .ok a => pure a
  | .error e => throw (wrap e)

def require (name : String) : Effect Value := lift .unreadable (scope.context.require name)

def read (shape : Shape) (name : String) : Effect shape.Carrier :=
  lift .unreadable (scope.context.read shape name)

/-- A story of the host; calling one that is not there is an error of the step. -/
def story (name : String) (arguments : Arguments) : Effect Story :=
  match scope.stories.lookup name with
  | some story => do
    modify (· ++ [⟨story, arguments⟩])
    return story
  | none => throw (.plain s!"no injected story '{name}'")

def term : Term → Effect Int
  | .int n => return n
  | .read name => scope.read .i64 name

def expr : Expr → Effect Value
  | .literal value => return value
  | .require name => scope.require name
  | .get name => return (scope.context.get? name).getD .null
  | .read name shape => do return shape.write (← scope.read shape name)
  | .add left right => do
    let a ← scope.term left
    let b ← scope.term right
    return .int (a + b)
  | .mul left right => do
    let a ← scope.term left
    let b ← scope.term right
    return .int (a * b)
  | .names => return .strings scope.context.names
  | .context => return .string scope.context.text
  | .call name arguments => do
    let story ← scope.story name arguments
    let value ← lift .story (story.call arguments)
    return value.getD .null
  | .run name arguments => do
    let story ← scope.story name arguments
    let summary ← lift .story (story.run arguments)
    let value ← lift .protocol summary.value
    return value.getD .null

def condition : Condition → Effect Bool
  | .has name => return scope.context.contains name
  | .less name bound => do return (← scope.read .i64 name) < bound
  | .equals name value =>
    return match scope.context.get? name with
      | some found => found.same value
      | none => false

mutual

/-- One statement: an outcome if it returns. -/
def statement : Statement → Effect (Option (Option Outcome))
  | .nothing => return some none
  | .skip => return some (some .skip)
  | .fail reason => return some (some (.failure reason))
  | .result value => do return some (some (.result (← scope.expr value)))
  | .success outputs => do
    let pairs ← outputs.mapM fun (name, value) => do return (name, ← scope.expr value)
    return some (some (.success (.ofList pairs)))
  | .raise error => throw error
  | .assign name => do
    lift .mutation (scope.context.assign name (.int 1))
    return none
  | .remove name => do
    lift .mutation (scope.context.remove name)
    return none
  | .require name => do
    let _ ← scope.require name
    return none
  | .read name shape => do
    let _ ← scope.read shape name
    return none
  | .choose test yes no => do
    if ← scope.condition test then statements yes else statements no

/-- Statements in order until one returns. -/
def statements : List Statement → Effect (Option (Option Outcome))
  | [] => return none
  | s :: rest => do
    match ← statement s with
    | some outcome => return some outcome
    | none => statements rest

end

/-- The answer of a script, and the calls it makes in order. -/
def run (body : List Statement) : Except StepError (Option Outcome) × List Call :=
  let (result, calls) := (scope.statements body).run.run []
  (result.map fun outcome => outcome.getD none, calls)

end Scope

/-- The step of a host with the given injected stories. -/
def step (stories : List (String × Story)) (body : List Statement) : Step where
  run context := (Scope.run ⟨stories, context⟩ body).1
  remarks context :=
    (Scope.run ⟨stories, context⟩ body).2.flatMap fun call => call.story.journal call.arguments

end StoryEngine.Script

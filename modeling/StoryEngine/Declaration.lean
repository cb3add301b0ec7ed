import StoryEngine.Contract.Basic
import StoryEngine.Step

/-! # Declarations

A story is declared by its parameters, the names in its body and, if it has them, the reasons for
which its steps may fail and the contract of its variables.
-/

namespace StoryEngine

structure Declaration where
  name : String
  arguments : List String := []
  body : List String := []
  failures : Option (List String) := none
  contract : Option Contract := none

namespace Declaration

variable (declaration : Declaration)

/-- A failure without a reason is always allowed, one with a reason only if it is declared. -/
def checkReason (step story : String) : Option String → Except ProtocolError Unit
  | none => .ok ()
  | some reason =>
    match declaration.failures with
    | none => .error (.noProtocol step story reason)
    | some declared =>
      if declared.contains reason then .ok ()
      else .error (.undeclaredReason step story reason declared)

/-- Asks the contract of the story labelled `story`, if the story has one. -/
def checkVariables (story : String) (pairs : List (String × Value)) :
    Except ContractError Unit :=
  match declaration.contract with
  | none => .ok ()
  | some contract =>
    match contract.check pairs with
    | .ok () => .ok ()
    | .error violations => .error (.invalidVariables story violations)

def remarks (pairs : List (String × Value)) : List Line :=
  match declaration.contract with
  | none => []
  | some contract => contract.remarks pairs

def text : String :=
  let failures := match declaration.failures with
    | none => "None"
    | some reasons => "Some(" ++ Text.quotedList reasons ++ ")"
  "StoryDeclaration \x7b name: " ++ Text.quoted declaration.name ++
    ", arguments: " ++ Text.quotedList declaration.arguments ++
    ", body: " ++ Text.quotedList declaration.body ++
    ", failures: " ++ failures ++
    ", contract: " ++ (if declaration.contract.isSome then "true" else "false") ++ " \x7d"

end Declaration

end StoryEngine

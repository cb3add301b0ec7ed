import StoryEngine.Demo.Shop
import StoryEngine.Error.Application
import StoryEngine.Presenter.Render

/-! # The report of three purchases

Three orders of a shop, each shown with the run of its purchase and what came of it.
-/

namespace StoryEngine.Demo

def orders : List (String × Int) := [("pencil", 4), ("notebook", 12), ("eraser", 40)]

def orderArguments (item : String) (quantity : Int) : Arguments :=
  .ofKeyword [("item", .string item), ("quantity", .int quantity)]

/-- The last line of an order: its value, or why it failed. -/
def answer : Summary → String
  | .success (some value) => "=> " ++ value.text
  | .success none => "=> None"
  | .failure failure => "=> " ++ failure.message

/-- The report of one order, and the error that ended it if one did. -/
def orderReport (config : Presenter.Config) (story : Story) (occasion : Occasion)
    (order : String × Int) : String × Option AppError :=
  let execution := story.execute occasion (orderArguments order.1 order.2)
  let shown := Presenter.render config execution ++ "\n"
  match execution.verdict.summary with
  | .ok summary => (shown ++ answer summary ++ "\n\n", none)
  | .error error => (shown, some (.story error))

/-- Reports orders until one ends in an error. -/
def ordersReport (config : Presenter.Config) (story : Story) (occasion : Occasion) :
    List (String × Int) → String × Option AppError
  | [] => ("", none)
  | order :: rest =>
    match orderReport config story occasion order with
    | (text, some error) => (text, some error)
    | (text, none) =>
      let (more, error) := ordersReport config story occasion rest
      (text ++ more, error)

def report (config : Presenter.Config) (occasion : Occasion) : String × Option AppError :=
  match purchaseStory 25 3 with
  | .error error => ("", some (.compile error))
  | .ok story => ordersReport config story occasion orders

end StoryEngine.Demo

import StoryEngine.Contract.Schema
import StoryEngine.Story.Host

/-! # A shop with an inventory

A purchase prices an order, reserves the goods in an injected inventory, grants a tenth off large
orders and writes a receipt. The contract of the purchase also judges what its sub-stories set.
-/

namespace StoryEngine.Demo

/-- The quantity from which an order is large. -/
def bulkThreshold : Int := 10

def outOfStock : String := "out_of_stock"

/-- A variable as a 64-bit integer or as a text, for the body of a step. -/
def integer (context : Context) (name : String) : Except StepError Int :=
  (context.read .i64 name).mapError .unreadable

def string (context : Context) (name : String) : Except StepError String :=
  (context.read .string name).mapError .unreadable

def setting (name : String) (n : Int) : Option Outcome :=
  some (.success (.ofList [(name, .int n)]))

namespace Inventory

def checkStock (stock : Int) : Step where
  run context := do
    let quantity ← integer context "quantity"
    if quantity ≤ 0 then throw (.plain s!"quantity must be positive, got {quantity}")
    if stock < quantity then return some (.failure (some outOfStock))
    return none

def hold : Step where
  run context := do return setting "reserved" (← integer context "quantity")

def schema : Schema := ((Schema.empty.field "quantity" .i64).field "reserved" .i64)

def reserve : Declaration where
  name := "reserve"
  arguments := ["quantity"]
  body := ["check_stock", "hold"]
  failures := some [outOfStock]
  contract := some schema.contract

def host (stock : Int) : Host where
  name := "Inventory"
  number := 0
  capabilities := [.step "check_stock" (checkStock stock), .step "hold" hold, .story reserve]

end Inventory

namespace Shop

/-- Sets the price of the order. The product is exact: there is no case for one that is no 64-bit
integer, so such orders are not meant. -/
def price (unitPrice : Int) : Step where
  run context := do return setting "total" (unitPrice * (← integer context "quantity"))

def bulkOnly : Step where
  run context := do
    if (← integer context "quantity") < bulkThreshold then return some .skip
    return none

def applyDiscount : Step where
  run context := do return setting "discount" ((← integer context "total").tdiv 10)

def receipt : Step where
  run context := do
    let item ← string context "item"
    let total ← integer context "total"
    let discount ← if context.contains "discount" then integer context "discount" else pure 0
    return some (.result (.object [("item", .string item), ("total", .int (total - discount))]))

def schema : Schema :=
  (((Schema.empty.field "item" .string).field "quantity" .i64).field "total" .i64).field
    "discount" .u64

def discount : Declaration where
  name := "discount"
  arguments := ["total"]
  body := ["bulk_only", "apply_discount"]

def purchase : Declaration where
  name := "purchase"
  arguments := ["item", "quantity"]
  body := ["price", "reserve", "discount", "receipt"]
  contract := some schema.contract

def host (unitPrice : Int) (reserve : Story) : Host where
  name := "Shop"
  number := 1
  capabilities :=
    [.step "price" (price unitPrice), .step "bulk_only" bulkOnly,
     .step "apply_discount" applyDiscount, .step "receipt" receipt,
     .injected "reserve" reserve, .story discount, .story purchase]

end Shop

def reserveStory (stock : Int) : Except CompileError Story := (Inventory.host stock).bind "reserve"

/-- A story of a shop whose inventory holds `stock` pieces. -/
def shopStory (stock unitPrice : Int) (name : String) : Except CompileError Story := do
  let reserve ← reserveStory stock
  (Shop.host unitPrice reserve).bind name

def purchaseStory (stock unitPrice : Int) : Except CompileError Story :=
  shopStory stock unitPrice "purchase"

end StoryEngine.Demo

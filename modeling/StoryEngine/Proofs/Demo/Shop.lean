import StoryEngine.Context.Arguments
import StoryEngine.Demo.Shop
import StoryEngine.Event.Store
import StoryEngine.Proofs.Story.Resolution

/-! # The compiled shop

What the stories of the inventory and of the shop are compiled to, at every stock and every price
and whichever story of an inventory the shop was given.
-/

namespace StoryEngine.Demo

def reserved (stock : Int) : Story where
  owner := (Inventory.host stock).owner
  declaration := Inventory.reserve
  scenes := [.step "check_stock" (Inventory.checkStock stock), .step "hold" Inventory.hold]

def discountScene (unitPrice : Int) (reserve : Story) : Scene :=
  .story "discount" false (Shop.host unitPrice reserve).owner Shop.discount
    [.step "bulk_only" Shop.bulkOnly, .step "apply_discount" Shop.applyDiscount]

def purchased (unitPrice : Int) (reserve : Story) : Story where
  owner := (Shop.host unitPrice reserve).owner
  declaration := Shop.purchase
  scenes := [.step "price" (Shop.price unitPrice), reserve.scene "reserve",
    discountScene unitPrice reserve, .step "receipt" Shop.receipt]

/-- The purchase in a shop with one price, of which twenty pieces are left. -/
def smallShop : Story := purchased 5 (reserved 20)

/-- An order that is too small for a discount. -/
def order : Arguments := .ofKeyword [("item", .string "tea"), ("quantity", .int 3)]

def ordered : Context := .ofArguments order.keyword

def occasion : Occasion := ⟨⟨1⟩, fun seq => ⟨seq, 0⟩⟩

theorem bind_reserve (stock : Int) :
    (Inventory.host stock).bind "reserve" = .ok (reserved stock) := by
  have hs : (Inventory.host stock).surveyStory Inventory.reserve =
      ⟨(reserved stock).scenes, none⟩ := by
    unfold Host.surveyStory Inventory.reserve
    rw [Host.survey_cons_of_step rfl, Host.survey_cons_of_step rfl, Host.survey_nil]
    rfl
  exact Host.bind_eq_of_survey rfl rfl hs

theorem bind_purchase (unitPrice : Int) (reserve : Story) :
    (Shop.host unitPrice reserve).bind "purchase" = .ok (purchased unitPrice reserve) := by
  have hd (active : List String) (origin : String) :
      (Shop.host unitPrice reserve).survey active origin Shop.discount.body =
        ⟨[.step "bulk_only" Shop.bulkOnly, .step "apply_discount" Shop.applyDiscount], none⟩ := by
    unfold Shop.discount
    rw [Host.survey_cons_of_step rfl, Host.survey_cons_of_step rfl, Host.survey_nil]
  have hs : (Shop.host unitPrice reserve).surveyStory Shop.purchase =
      ⟨(purchased unitPrice reserve).scenes, none⟩ := by
    unfold Host.surveyStory Shop.purchase
    rw [Host.survey_cons_of_step rfl, Host.survey_cons_of_injected rfl,
      Host.survey_cons_of_story rfl (by decide) (hd _ _), Host.survey_cons_of_step rfl,
      Host.survey_nil]
    rfl
  exact Host.bind_eq_of_survey rfl rfl hs

theorem purchaseStory_eq (stock unitPrice : Int) :
    purchaseStory stock unitPrice = .ok (purchased unitPrice (reserved stock)) := by
  unfold purchaseStory shopStory reserveStory
  rw [bind_reserve]
  exact bind_purchase unitPrice (reserved stock)

end StoryEngine.Demo

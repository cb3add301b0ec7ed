import StoryEngine.Proofs.Context.Binding
import StoryEngine.Proofs.Contract.Integers
import StoryEngine.Proofs.Demo.Shop
import StoryEngine.Proofs.Run.Endings

/-! # The bill of a purchase

What every order of the shop comes to, at every stock and every price: which orders are refused, how
far a purchase gets with goods that cannot be delivered, and what is charged for the others. A tenth
is taken off the total of a large order; where that is negative the contract of the purchase stops
it, since it declares a discount as unsigned.
-/

namespace StoryEngine

namespace Context

variable {context : Context} {name : String} {n : Int}

def adding (context : Context) (name : String) (n : Int) (identity : StepIdentity) : Context :=
  ⟨context.entries ++ [⟨name, .int n, .setBy identity⟩]⟩

theorem extend_adding (h : context.contains name = false) (n : Int) (identity : StepIdentity) :
    context.extend (.ofList [(name, .int n)]) identity = .ok (context.adding name n identity) := by
  refine extend_eq_ok_iff.mpr ⟨?_, rfl⟩
  intro other ho
  obtain rfl := List.mem_singleton.mp ho
  exact h

end Context

namespace Demo

theorem integer_eq_ok {context : Context} {name : String} {n : Int}
    (hv : context.get? name = some (.int n)) (hn : IntegerKind.i64.Holds n) :
    integer context name = .ok n := by
  have hr : Shape.i64.read (.int n) = .ok n := IntegerKind.read_int_of_holds hn
  rw [integer, Context.read, Context.require, hv]
  simp only [bind, Except.bind, hr]
  rfl

theorem string_eq_ok {context : Context} {name text : String}
    (hv : context.get? name = some (.string text)) : string context name = .ok text := by
  rw [string, Context.read, Context.require, hv]
  rfl

def purchaseOrigin : Origin := ⟨"Shop", Shop.purchase, []⟩

def reserveOrigin : Origin := ⟨"Inventory", Inventory.reserve, [1]⟩

def discountOrigin : Origin := ⟨"Shop", Shop.discount, [2]⟩

section Contexts

variable (unitPrice : Int) (item : String) (q : Int)

/-- The contexts that an order for `q` pieces gets through. -/
def asked : Context := .ofArguments [("item", .string item), ("quantity", .int q)]

def priced : Context := (asked item q).adding "total" (unitPrice * q) ⟨"Shop", "price"⟩

def held : Context := (priced unitPrice item q).adding "reserved" q ⟨"Inventory", "hold"⟩

def discounted : Context :=
  (held unitPrice item q).adding "discount" ((unitPrice * q).tdiv 10) ⟨"Shop", "apply_discount"⟩

def receiptOf (amount : Int) : Value :=
  .object [("item", .string item), ("total", .int amount)]

/-- What becomes of an order for `q` pieces: the last context, and how the purchase ends. -/
def bill (stock : Int) : Context × Verdict :=
  let total := unitPrice * q
  let tenth := total.tdiv 10
  if q ≤ 0 then
    (priced unitPrice item q,
      .error (.step "check_stock" (.plain s!"quantity must be positive, got {q}")))
  else if stock < q then
    (priced unitPrice item q,
      .ok (.failed ⟨"check_stock", some "out_of_stock", ["Inventory.reserve", "Shop.purchase"]⟩))
  else if q < 10 then
    (held unitPrice item q, .ok (.returned (receiptOf item total)))
  else if tenth < 0 then
    (held unitPrice item q, .error (.contract (.invalidVariables "Shop.purchase"
      [⟨"discount", (Mismatch.invalidValue (.number (.int tenth)) "u64").message⟩])))
  else
    (discounted unitPrice item q, .ok (.returned (receiptOf item (total - tenth))))

end Contexts

/-- What becomes of an order with any two values: it is refused unless they are a text and a 64-bit
integer. -/
def settled (stock unitPrice : Int) (item quantity : Value) : Context × Verdict :=
  match item, quantity.int64? with
  | .string text, some q => bill unitPrice text q stock
  | _, _ => (.empty, .error (.contract (.invalidVariables "Shop.purchase"
      (Shop.schema.violations [("item", item), ("quantity", quantity)]))))

section Outputs

variable {n : Int}

theorem checkOutputs_total (h : IntegerKind.i64.Holds n) :
    checkOutputs [purchaseOrigin] [("total", .int n)] = .ok () := by
  refine checkOutputs_of_declared rfl (List.forall_mem_singleton.mpr ?_)
  exact (Schema.accepts_iff rfl).mpr (Schema.failures_of_holds h rfl)

theorem checkOutputs_reserved (h : IntegerKind.i64.Holds n) :
    checkOutputs [reserveOrigin, purchaseOrigin] [("reserved", .int n)] = .ok () := by
  refine checkOutputs_of_declared rfl
    (List.forall_mem_cons.mpr ⟨?_, List.forall_mem_singleton.mpr ?_⟩)
  · exact (Schema.accepts_iff rfl).mpr (Schema.failures_of_holds h rfl)
  · exact (Schema.accepts_iff rfl).mpr (Schema.failures_of_undeclared rfl)

theorem checkOutputs_discount (h : IntegerKind.u64.Holds n) :
    checkOutputs [discountOrigin, purchaseOrigin] [("discount", .int n)] = .ok () := by
  refine checkOutputs_of_declared rfl
    (List.forall_mem_cons.mpr ⟨Origin.accepts_of_none rfl, List.forall_mem_singleton.mpr ?_⟩)
  exact (Schema.accepts_iff rfl).mpr (Schema.failures_of_holds h rfl)

theorem checkOutputs_discount_of_not_holds (h : ¬ IntegerKind.u64.Holds n) :
    checkOutputs [discountOrigin, purchaseOrigin] [("discount", .int n)] =
      .error (.invalidVariables "Shop.purchase"
        [⟨"discount", (Mismatch.invalidValue (.number (.int n)) "u64").message⟩]) := by
  refine checkOutputs_eq_error_iff.mpr ⟨purchaseOrigin, _, rfl, .inl ?_⟩
  refine .outer (Origin.accepts_of_none rfl) (.here rfl (List.cons_ne_nil _ _) ?_)
  have hf : Shop.schema.failures [("discount", .int n)] = _ := Schema.failures_of_not_holds h rfl
  rw [Schema.check_declaredPart, hf]
  rfl

end Outputs

theorem admits_of_get? {story : Origin} {context : Context} {name : String} {value : Value}
    (ha : story.declaration.arguments = [name]) (hv : context.get? name = some value)
    (hc : story.declaration.checkVariables story.label [(name, value)] = .ok ()) :
    story.admits context = .ok () := by
  have hm : context.missing [name] = [] :=
    Context.missing_eq_nil_iff.mpr fun other ho => List.mem_singleton.mp ho ▸ ⟨value, hv⟩
  have hs : context.visible [name] = [(name, value)] := by simp [Context.visible, hv]
  unfold Origin.admits
  simp only [ha, hm, hs, hc]
  rfl

theorem reserveOrigin_admits_priced (unitPrice : Int) (item : String) {q : Int}
    (hq : IntegerKind.i64.Holds q) : reserveOrigin.admits (priced unitPrice item q) = .ok () := by
  have hc : Inventory.schema.contract.check [("quantity", .int q)] = .ok () := by
    refine Schema.check_eq_ok_iff.mpr ?_
    intro p hp
    obtain rfl := List.mem_singleton.mp hp
    exact ⟨_, rfl, Schema.readable_eq_none_iff.mpr ⟨q, IntegerKind.read_int_of_holds hq⟩⟩
  refine admits_of_get? rfl rfl ?_
  rw [Declaration.checkVariables_of_contract rfl, hc]
  rfl

theorem discountOrigin_admits_held (unitPrice : Int) (item : String) (q : Int) :
    discountOrigin.admits (held unitPrice item q) = .ok () :=
  admits_of_get? rfl rfl rfl

section Steps

variable {context : Context} {q total : Int} (hq : IntegerKind.i64.Holds q)
  (hv : context.get? "quantity" = some (.int q))

section Quantity

include hq hv

theorem run_price (unitPrice : Int) :
    (Shop.price unitPrice).run context = .ok (setting "total" (unitPrice * q)) := by
  simp only [Shop.price, integer_eq_ok hv hq]
  rfl

theorem run_checkStock (stock : Int) : (Inventory.checkStock stock).run context =
    if q ≤ 0 then .error (.plain s!"quantity must be positive, got {q}")
    else if stock < q then .ok (some (.failure (some outOfStock)))
    else .ok none := by
  simp only [Inventory.checkStock, integer_eq_ok hv hq, bind, Except.bind]
  by_cases h : q ≤ 0
  · rw [if_pos h, if_pos h]
    rfl
  · rw [if_neg h, if_neg h]
    by_cases hs : stock < q
    · rw [if_pos hs, if_pos hs]
      rfl
    · rw [if_neg hs, if_neg hs]
      rfl

theorem run_hold : Inventory.hold.run context = .ok (setting "reserved" q) := by
  simp only [Inventory.hold, integer_eq_ok hv hq]
  rfl

theorem run_bulkOnly : Shop.bulkOnly.run context =
    if q < bulkThreshold then .ok (some .skip) else .ok none := by
  simp only [Shop.bulkOnly, integer_eq_ok hv hq, bind, Except.bind]
  rfl

end Quantity

variable (ht : IntegerKind.i64.Holds total) (hw : context.get? "total" = some (.int total))

include ht hw

theorem run_applyDiscount :
    Shop.applyDiscount.run context = .ok (setting "discount" (total.tdiv 10)) := by
  simp only [Shop.applyDiscount, integer_eq_ok hw ht]
  rfl

section Receipt

variable {item : String} (hi : context.get? "item" = some (.string item))

include hi

theorem run_receipt_of_contains_eq_false (hc : context.contains "discount" = false) :
    Shop.receipt.run context = .ok (some (.result (receiptOf item total))) := by
  simp only [Shop.receipt, string_eq_ok hi, integer_eq_ok hw ht, hc, bind, Except.bind, pure,
    Except.pure]
  simp [receiptOf]

theorem run_receipt_of_get? {d : Int} (hd : IntegerKind.i64.Holds d)
    (hg : context.get? "discount" = some (.int d)) :
    Shop.receipt.run context = .ok (some (.result (receiptOf item (total - d)))) := by
  have hc : context.contains "discount" = true := by rw [← Context.isSome_get?, hg]; rfl
  simp only [Shop.receipt, string_eq_ok hi, integer_eq_ok hw ht, integer_eq_ok hg hd, hc, if_true,
    bind, Except.bind, pure, Except.pure]
  rfl

end Receipt

end Steps

theorem holds_tenth {total : Int} (ht : IntegerKind.i64.Holds total) :
    IntegerKind.i64.Holds (total.tdiv 10) ∧
      (IntegerKind.u64.Holds (total.tdiv 10) ↔ 0 ≤ total.tdiv 10) := by
  rw [IntegerKind.holds_u64_iff]
  rw [IntegerKind.holds_i64_iff] at ht ⊢
  rcases Int.le_total 0 total with h | h
  · rw [Int.tdiv_eq_ediv_of_nonneg h]
    omega
  · have hn : total.tdiv 10 = -(-total / 10) := by
      rw [← Int.tdiv_eq_ediv_of_nonneg (Int.neg_nonneg_of_nonpos h), Int.neg_tdiv, Int.neg_neg]
    rw [hn]
    omega

section Reservation

variable {stock unitPrice q : Int} {item : String} {owner : Owner}
  (hq : IntegerKind.i64.Holds q)

include hq

theorem reserve_ends_of_nonpositive (h : q ≤ 0) :
    (((reserved stock).scene "reserve").evaluate owner purchaseOrigin [] 1
      (priced unitPrice item q)).Ends (priced unitPrice item q)
      (.halted (.error (.step "check_stock" (.plain s!"quantity must be positive, got {q}")))) := by
  have hr : (Inventory.checkStock stock).run (priced unitPrice item q) = _ :=
    run_checkStock hq rfl stock
  rw [if_pos h] at hr
  refine ends_story_of_halted rfl ?_ ?_
  · exact reserveOrigin_admits_priced unitPrice item hq
  · apply ends_cons_of_halted
    exact ends_of_error hr

theorem reserve_ends_of_scarce (h : 0 < q) (hs : stock < q) :
    (((reserved stock).scene "reserve").evaluate owner purchaseOrigin [] 1
      (priced unitPrice item q)).Ends (priced unitPrice item q) (.halted (.ok (.failed
        ⟨"check_stock", some "out_of_stock", ["Inventory.reserve", "Shop.purchase"]⟩))) := by
  have hr : (Inventory.checkStock stock).run (priced unitPrice item q) = _ :=
    run_checkStock hq rfl stock
  rw [if_neg (Int.not_le.mpr h), if_pos hs] at hr
  refine ends_story_of_halted rfl ?_ ?_
  · exact reserveOrigin_admits_priced unitPrice item hq
  · apply ends_cons_of_halted
    exact ends_of_failure hr rfl

theorem reserve_ends (h : 0 < q) (hs : q ≤ stock) :
    (((reserved stock).scene "reserve").evaluate owner purchaseOrigin [] 1
      (priced unitPrice item q)).Ends (held unitPrice item q) .finished := by
  have hr : (Inventory.checkStock stock).run (priced unitPrice item q) = _ :=
    run_checkStock hq rfl stock
  rw [if_neg (Int.not_le.mpr h), if_neg (Int.not_lt.mpr hs)] at hr
  have hh : Inventory.hold.run (priced unitPrice item q) = _ := run_hold hq rfl
  refine ends_story_of_finished rfl ?_ ?_
  · exact reserveOrigin_admits_priced unitPrice item hq
  · apply ends_cons_of_finished (ends_of_nothing hr)
    apply ends_cons_of_finished
    · exact ends_of_success hh (checkOutputs_reserved hq) (Context.extend_adding rfl _ _)
    · exact ends_nil

end Reservation

section Discount

variable {unitPrice q : Int} {item : String} {owner : Owner} {reserve : Story}
  (hq : IntegerKind.i64.Holds q)

include hq

theorem discount_ends_of_small (h : q < bulkThreshold) :
    ((discountScene unitPrice reserve).evaluate owner purchaseOrigin [] 2
      (held unitPrice item q)).Ends (held unitPrice item q) .finished := by
  have hr : Shop.bulkOnly.run (held unitPrice item q) = _ := run_bulkOnly hq rfl
  rw [if_pos h] at hr
  refine ends_story_of_skipped rfl ?_ ?_
  · exact discountOrigin_admits_held unitPrice item q
  · apply ends_cons_of_skipped
    exact ends_of_skip hr

variable (h : bulkThreshold ≤ q) (ht : IntegerKind.i64.Holds (unitPrice * q))

include h ht

theorem discount_ends_of_negative (hd : (unitPrice * q).tdiv 10 < 0) :
    ((discountScene unitPrice reserve).evaluate owner purchaseOrigin [] 2
      (held unitPrice item q)).Ends (held unitPrice item q)
      (.halted (.error (.contract (.invalidVariables "Shop.purchase" [⟨"discount",
        (Mismatch.invalidValue (.number (.int ((unitPrice * q).tdiv 10))) "u64").message⟩])))) := by
  have hr : Shop.bulkOnly.run (held unitPrice item q) = _ := run_bulkOnly hq rfl
  rw [if_neg (Int.not_lt.mpr h)] at hr
  have ha : Shop.applyDiscount.run (held unitPrice item q) = _ := run_applyDiscount ht rfl
  have hn : ¬ IntegerKind.u64.Holds ((unitPrice * q).tdiv 10) :=
    fun hh => Int.not_le.mpr hd ((holds_tenth ht).2.mp hh)
  refine ends_story_of_halted rfl ?_ ?_
  · exact discountOrigin_admits_held unitPrice item q
  · apply ends_cons_of_finished (ends_of_nothing hr)
    apply ends_cons_of_halted
    exact ends_of_rejected ha (checkOutputs_discount_of_not_holds hn)

theorem discount_ends (hd : 0 ≤ (unitPrice * q).tdiv 10) :
    ((discountScene unitPrice reserve).evaluate owner purchaseOrigin [] 2
      (held unitPrice item q)).Ends (discounted unitPrice item q) .finished := by
  have hr : Shop.bulkOnly.run (held unitPrice item q) = _ := run_bulkOnly hq rfl
  rw [if_neg (Int.not_lt.mpr h)] at hr
  have ha : Shop.applyDiscount.run (held unitPrice item q) = _ := run_applyDiscount ht rfl
  have hu : IntegerKind.u64.Holds ((unitPrice * q).tdiv 10) := (holds_tenth ht).2.mpr hd
  refine ends_story_of_finished rfl ?_ ?_
  · exact discountOrigin_admits_held unitPrice item q
  · apply ends_cons_of_finished (ends_of_nothing hr)
    apply ends_cons_of_finished
    · exact ends_of_success ha (checkOutputs_discount hu) (Context.extend_adding rfl _ _)
    · exact ends_nil

end Discount

section Receipt

variable {unitPrice q : Int} {item : String} {owner : Owner}
  (ht : IntegerKind.i64.Holds (unitPrice * q))

include ht

theorem receipt_ends_of_held :
    ((Scene.step "receipt" Shop.receipt).evaluate owner purchaseOrigin [] 3
      (held unitPrice item q)).Ends (held unitPrice item q)
      (.halted (.ok (.returned (receiptOf item (unitPrice * q))))) := by
  apply ends_of_result
  exact run_receipt_of_contains_eq_false ht rfl rfl rfl

theorem receipt_ends_of_discounted :
    ((Scene.step "receipt" Shop.receipt).evaluate owner purchaseOrigin [] 3
      (discounted unitPrice item q)).Ends (discounted unitPrice item q)
      (.halted (.ok (.returned
        (receiptOf item (unitPrice * q - (unitPrice * q).tdiv 10))))) := by
  apply ends_of_result
  exact run_receipt_of_get? ht rfl rfl (holds_tenth ht).1 rfl

end Receipt

section Bill

variable {stock unitPrice q : Int} {item : String} (hq : IntegerKind.i64.Holds q)
  (ht : IntegerKind.i64.Holds (unitPrice * q))

include hq ht

theorem purchased_ends_of_priced {last : Context} {fate : Fate}
    (h : (Scene.evaluateAll (purchased unitPrice (reserved stock)).owner purchaseOrigin [] 1
      (priced unitPrice item q) [(reserved stock).scene "reserve",
        discountScene unitPrice (reserved stock), .step "receipt" Shop.receipt]).Ends last fate) :
    (Scene.evaluateAll (purchased unitPrice (reserved stock)).owner purchaseOrigin [] 0
      (asked item q) (purchased unitPrice (reserved stock)).scenes).Ends last fate := by
  have hp : (Shop.price unitPrice).run (asked item q) = _ := run_price hq rfl unitPrice
  apply ends_cons_of_finished
  · exact ends_of_success hp (checkOutputs_total ht) (Context.extend_adding rfl _ _)
  · exact h

/-- The scenes of a purchase end with the bill of the order. -/
theorem purchased_ends :
    (Scene.evaluateAll (purchased unitPrice (reserved stock)).owner purchaseOrigin [] 0
      (asked item q) (purchased unitPrice (reserved stock)).scenes).Ends
      (bill unitPrice item q stock).1 (.halted (bill unitPrice item q stock).2) := by
  apply purchased_ends_of_priced hq ht
  unfold bill
  dsimp only
  split
  case isTrue h =>
    exact ends_cons_of_halted (reserve_ends_of_nonpositive hq h)
  case isFalse h =>
    have h := Int.not_le.mp h
    split
    case isTrue hs =>
      exact ends_cons_of_halted (reserve_ends_of_scarce hq h hs)
    case isFalse hs =>
      apply ends_cons_of_finished (reserve_ends hq h (Int.not_lt.mp hs))
      split
      case isTrue hb =>
        apply ends_cons_of_finished (discount_ends_of_small hq hb)
        exact ends_cons_of_halted (receipt_ends_of_held ht)
      case isFalse hb =>
        have hb := Int.not_lt.mp hb
        split
        case isTrue hd =>
          exact ends_cons_of_halted (discount_ends_of_negative hq hb ht hd)
        case isFalse hd =>
          apply ends_cons_of_finished (discount_ends hq hb ht (Int.not_lt.mp hd))
          exact ends_cons_of_halted (receipt_ends_of_discounted ht)

end Bill

section Order

variable {item quantity : Value} {keyword : List (String × Value)}

theorem check_order_iff :
    Shop.schema.contract.check [("item", item), ("quantity", quantity)] = .ok () ↔
      (∃ text, item = .string text) ∧ ∃ q, quantity.int64? = some q := by
  have hi : Shop.schema.fields.get? "item" = some (Schema.readable .string) := rfl
  have hq : Shop.schema.fields.get? "quantity" = some (Schema.readable .i64) := rfl
  have hs : (∃ text, Shape.string.read item = .ok text) ↔ ∃ text, item = .string text := by
    cases item <;> simp [Shape.read, Shape.readString]
  have hn : (∃ q, Shape.i64.read quantity = .ok q) ↔ ∃ q, quantity.int64? = some q :=
    exists_congr fun _ => IntegerKind.read_i64_eq_ok_iff
  rw [Schema.check_eq_ok_iff, List.forall_mem_cons, List.forall_mem_singleton]
  simp only [hi, hq, Option.some.injEq, exists_eq_left', Schema.readable_eq_none_iff, hs, hn]

theorem settled_of_refused {stock unitPrice : Int}
    (h : ¬ ((∃ text, item = .string text) ∧ ∃ q, quantity.int64? = some q)) :
    settled stock unitPrice item quantity = (.empty, .error (.contract (.invalidVariables
      "Shop.purchase" (Shop.schema.violations [("item", item), ("quantity", quantity)])))) := by
  unfold settled
  split
  case h_1 text q hq => exact absurd ⟨⟨text, rfl⟩, q, hq⟩ h
  case h_2 => rfl

variable (hk : keyword.Perm [("item", item), ("quantity", quantity)])

include hk

theorem bind_order (story : String) : (Arguments.ofKeyword keyword).bind story
    ["item", "quantity"] = .ok [("item", item), ("quantity", quantity)] := by
  refine (Arguments.bind_eq_iff _ _).mpr (Answers.perm ?_ hk.symm)
  exact .named rfl (by simp) (by simp) rfl (.refl _)

theorem opening_order (unitPrice : Int) (reserve : Story) :
    (purchased unitPrice reserve).root.opening (.ofKeyword keyword) =
      ((Shop.schema.contract.check [("item", item), ("quantity", quantity)]).mapError
        (.invalidVariables "Shop.purchase")).map
          fun _ => .ofArguments [("item", item), ("quantity", quantity)] := by
  have hb : (Arguments.ofKeyword keyword).bind (purchased unitPrice reserve).root.label
      (purchased unitPrice reserve).root.declaration.arguments = _ := bind_order hk "Shop.purchase"
  have hc : (purchased unitPrice reserve).root.declaration.contract = some Shop.schema.contract :=
    rfl
  unfold Origin.opening
  rw [hb]
  simp only [bind, Except.bind, Declaration.checkVariables_of_contract hc]
  cases Shop.schema.contract.check [("item", item), ("quantity", quantity)] <;> rfl

/-- A purchase comes to the bill of its order, whatever is ordered. -/
theorem execute_purchaseStory (stock unitPrice : Int)
    (ht : ∀ q, quantity.int64? = some q → IntegerKind.i64.Holds (unitPrice * q))
    (occasion : Occasion) : ∃ story, purchaseStory stock unitPrice = .ok story ∧
      (story.execute occasion (.ofKeyword keyword)).context =
        (settled stock unitPrice item quantity).1 ∧
      (story.execute occasion (.ofKeyword keyword)).verdict =
        (settled stock unitPrice item quantity).2 := by
  refine ⟨_, purchaseStory_eq stock unitPrice, ?_⟩
  have ho := opening_order hk unitPrice (reserved stock)
  cases hc : Shop.schema.contract.check [("item", item), ("quantity", quantity)] with
  | ok =>
    rw [hc] at ho
    obtain ⟨⟨text, rfl⟩, q, hq⟩ := check_order_iff.mp hc
    have hs : settled stock unitPrice (.string text) quantity = bill unitPrice text q stock := by
      simp only [settled, hq]
    obtain ⟨rfl, hn⟩ := Value.int64?_eq_some_iff.mp hq
    rw [hs]
    exact Story.execute_of_ends ho (purchased_ends hn (ht q hq)) occasion
  | error violations =>
    rw [hc] at ho
    obtain rfl := Contract.eq_of_ofViolations_eq_error hc
    have hn : ¬ ((∃ text, item = .string text) ∧ ∃ q, quantity.int64? = some q) := by
      rw [← check_order_iff, hc]
      nofun
    rw [settled_of_refused hn]
    exact Story.execute_of_refused ho occasion

end Order

/-- A large order whose quantity comes first is charged nine tenths. -/
theorem execute_purchaseStory_large : ∃ story, purchaseStory 20 5 = .ok story ∧
    (story.execute occasion (.ofKeyword [("quantity", .int 12), ("item", .string "tea")])).context =
      discounted 5 "tea" 12 ∧
    (story.execute occasion (.ofKeyword [("quantity", .int 12), ("item", .string "tea")])).verdict =
      .ok (.returned (.object [("item", .string "tea"), ("total", .int 54)])) := by
  refine execute_purchaseStory (.swap _ _ _) 20 5 ?_ occasion
  intro q hq
  obtain rfl : 12 = q := Option.some.inj hq
  exact IntegerKind.holds_i64_iff.mpr (by decide)

end Demo

end StoryEngine

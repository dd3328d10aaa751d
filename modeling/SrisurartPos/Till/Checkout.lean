import Mathlib.Data.Rat.Defs
import Mathlib.Data.List.Nodup
import Mathlib.Data.List.Induction
import Mathlib.Algebra.BigOperators.Group.List.Basic
import Mathlib.Algebra.Order.Field.Rat
import Mathlib.Tactic.Ring

/-! # The cart (`cart_cubit.dart`, `checkout_screen.dart`)

The lines of a checkout. Adding a product raises its line, so a cart that is built by hand has one
line for a product. The lines of a quote or of a parked bill are loaded as they are stored, each one
checked against the stock on its own. -/

namespace Till.Checkout

structure ProductRow where
  id : String
  partNo : Option String
  name : String
  nameTH : Option String
  price : ℚ
  cost : ℚ
  stock : Int
  deriving DecidableEq, Repr

structure CartLine where
  productId : String
  partNo : Option String
  name : String
  nameTH : Option String
  price : ℚ
  originalPrice : ℚ
  cost : ℚ
  qty : Int
  deriving DecidableEq, Repr

/-- `CartCubit`: its lines and the quote they are sold against -/
structure Cart where
  lines : List CartLine
  quoteId : Option String
  deriving DecidableEq, Repr

def Cart.empty : Cart := ⟨[], none⟩

/-- A refusal: more than the stock, or a price below cost. -/
inductive Refusal where
  | overStock (name : String) (stock : Int)
  | belowCost (newPrice cost : ℚ)
  deriving DecidableEq, Repr

namespace Cart

def subtotal (c : Cart) : ℚ := c.lines.foldl (fun s i => s + i.price * i.qty) 0

def originalSubtotal (c : Cart) : ℚ := c.lines.foldl (fun s i => s + i.originalPrice * i.qty) 0

def mechanicDelta (c : Cart) : ℚ := c.lines.foldl (fun s i => s + (i.price - i.originalPrice) * i.qty) 0

/-! ## By hand -/

def setLines (lines : List CartLine) (quoteId : Option String) : Cart := ⟨lines, quoteId⟩

/-- Changes every line of a product. -/
def updateLines (c : Cart) (productId : String) (f : CartLine → CartLine) : Cart :=
  { c with lines := c.lines.map fun i => if i.productId = productId then f i else i }

def add (c : Cart) (p : ProductRow) : Option Refusal × Cart :=
  let existing := c.lines.find? fun i => i.productId = p.id
  let newQty := (existing.map (·.qty)).getD 0 + 1
  if newQty > p.stock then
    (some (.overStock p.name p.stock), c)
  else
    match existing with
    | some _ => (none, c.updateLines p.id fun i => { i with qty := newQty })
    | none   =>
        (none, { c with lines := c.lines ++ [⟨p.id, p.partNo, p.name, p.nameTH, p.price, p.price, p.cost, 1⟩] })

def setQty (c : Cart) (productId : String) (qty : Int) (product : Option ProductRow) :
    Option Refusal × Cart :=
  if qty ≤ 0 then
    (none, { c with lines := c.lines.filter fun i => i.productId ≠ productId })
  else
    match product.filter fun p => qty > p.stock with
    | some p => (some (.overStock p.name p.stock), c)
    | none   => (none, c.updateLines productId fun i => { i with qty := qty })

def setPrice (c : Cart) (productId : String) (newPrice : ℚ) : Option Refusal × Cart :=
  match c.lines.find? fun i => i.productId = productId with
  | none      => (none, c)
  | some item =>
      if newPrice < item.cost then
        (some (.belowCost newPrice item.cost), c)
      else
        (none, c.updateLines productId fun i => { i with price := newPrice })

def resetPrice (c : Cart) (productId : String) : Cart :=
  c.updateLines productId fun i => { i with price := i.originalPrice }

end Cart

/-! ## From a quote or a parked bill -/

/-- What the cashier is told of a stored line. -/
inductive Issue where
  | gone (name : String)
  | soldOut (name : String)
  | short (name : String) (wanted left : Int)
  deriving DecidableEq, Repr

def findProduct (fresh : List ProductRow) (productId : String) : Option ProductRow :=
  fresh.find? fun x => x.id = productId

/-- One line of `_validateItems`: what is kept of it, and what is told. -/
def validateItem (fresh : List ProductRow) (it : CartLine) : Option CartLine × Option Issue :=
  match findProduct fresh it.productId with
  | none   => (none, some (.gone it.name))
  | some p =>
      if p.stock ≤ 0 then (none, some (.soldOut p.name))
      else if p.stock < it.qty then (some { it with qty := p.stock }, some (.short p.name it.qty p.stock))
      else (some it, none)

/-- `_validateItems` -/
def validateItems (items : List CartLine) (fresh : List ProductRow) : List CartLine × List Issue :=
  (items.filterMap fun it => (validateItem fresh it).1, items.filterMap fun it => (validateItem fresh it).2)

/-- A line of a quote. -/
structure QuoteItem where
  productId : Option String
  name : String
  price : ℚ
  qty : Int
  deriving DecidableEq, Repr

def quoteLine (fresh : List ProductRow) (it : QuoteItem) : CartLine :=
  let p := fresh.find? fun x => some x.id = it.productId
  ⟨it.productId.getD "", p.bind (·.partNo), it.name, p.bind (·.nameTH), it.price, it.price,
    (p.map (·.cost)).getD 0, it.qty⟩

/-- What a stored line of a parked bill may hold. -/
structure StoredLine where
  productId : Option String
  partNo : Option String
  name : Option String
  nameTH : Option String
  price : Option ℚ
  originalPrice : Option ℚ
  cost : Option ℚ
  qty : Option ℚ
  deriving DecidableEq, Repr

/-- A parked bill's blob: `lines` where it holds them, else `items`, and its quote. -/
structure Blob where
  lines : Option (List StoredLine)
  items : Option (List StoredLine)
  quoteId : Option String
  deriving DecidableEq, Repr

/-- `toInt`, which cuts the fraction off -/
def toInt (q : ℚ) : Int := q.num.tdiv q.den

def richLine (l : StoredLine) : CartLine :=
  ⟨l.productId.getD "", l.partNo, l.name.getD "", l.nameTH, l.price.getD 0,
    (l.originalPrice.or l.price).getD 0, l.cost.getD 0, (l.qty.map toInt).getD 0⟩

def itemLine (fresh : List ProductRow) (l : StoredLine) : CartLine :=
  let productId := l.productId.getD ""
  ⟨productId, l.partNo, l.name.getD "", l.nameTH, l.price.getD 0, l.price.getD 0,
    ((findProduct fresh productId).map (·.cost)).getD 0, (l.qty.map toInt).getD 0⟩

/-- `_decodeParkedLines` -/
def decodeParkedLines (blob : Blob) (fresh : List ProductRow) : List CartLine :=
  match blob.lines, blob.items with
  | some rich, _    => rich.map richLine
  | none, some items => items.map (itemLine fresh)
  | none, none       => []

/-- `_maybeConsumePendingQuote`: the quote's own id where it is sold, none where it is edited -/
def consumePendingQuote (items : List QuoteItem) (sellingQuoteId : Option String)
    (fresh : List ProductRow) : Cart × List Issue :=
  let res := validateItems (items.map (quoteLine fresh)) fresh
  (Cart.setLines res.1 sellingQuoteId, res.2)

/-- `_handleResume`, up to the cart it loads -/
def handleResume (blob : Blob) (fresh : List ProductRow) : Cart × List Issue :=
  let res := validateItems (decodeParkedLines blob fresh) fresh
  (Cart.setLines res.1 blob.quoteId, res.2)

/-! ## Runs -/

inductive Action where
  | add (p : ProductRow)
  | setQty (productId : String) (qty : Int) (product : Option ProductRow)
  | setPrice (productId : String) (newPrice : ℚ)
  | resetPrice (productId : String)
  | clear
  | quote (items : List QuoteItem) (sellingQuoteId : Option String) (fresh : List ProductRow)
  | resume (blob : Blob) (fresh : List ProductRow)
  deriving DecidableEq, Repr

def step (c : Cart) : Action → Cart
  | .add p                        => (c.add p).2
  | .setQty i qty product         => (c.setQty i qty product).2
  | .setPrice i newPrice          => (c.setPrice i newPrice).2
  | .resetPrice i                 => c.resetPrice i
  | .clear                        => Cart.empty
  | .quote items selling fresh    => (consumePendingQuote items selling fresh).1
  | .resume blob fresh            => (handleResume blob fresh).1

def run (actions : List Action) : Cart := actions.foldl step Cart.empty

/-- The products that an action shows the cart. -/
def Action.products : Action → List ProductRow
  | .add p           => [p]
  | .quote _ _ fresh => fresh
  | .resume _ fresh  => fresh
  | _                => []

/-- What a load reads: the decoded lines and the current products. -/
def Action.load : Action → Option (List CartLine × List ProductRow)
  | .quote items _ fresh => some (items.map (quoteLine fresh), fresh)
  | .resume blob fresh   => some (decodeParkedLines blob fresh, fresh)
  | _                    => none

/-- The quantity of a product in the cart. -/
def Cart.qtyOf (c : Cart) (productId : String) : Int :=
  ((c.lines.filter fun i => i.productId = productId).map (·.qty)).sum

/-- Every line can be sold. -/
structure Sellable (actions : List Action) (c : Cart) : Prop where
  qty_pos : ∀ i ∈ c.lines, 1 ≤ i.qty
  has_product : ∀ i ∈ c.lines, ∃ a ∈ actions, ∃ p ∈ a.products, p.id = i.productId
  one_line : (c.lines.map (·.productId)).Nodup
  delta : c.subtotal - c.originalSubtotal = c.mechanicDelta
  /-- right after a load, no product is wanted more often than it is there -/
  covered : ∀ a, actions.getLast? = some a → ∀ lines fresh, a.load = some (lines, fresh) →
    ∀ i ∈ c.lines, ∀ p, findProduct fresh i.productId = some p → c.qtyOf i.productId ≤ p.stock

/-! ## What a load may hold -/

/-- The product is still listed and in stock. -/
def InStock (fresh : List ProductRow) (it : CartLine) : Bool :=
  (findProduct fresh it.productId).any fun p => 0 < p.stock

/-- Of the lines whose product is in stock, each has a quantity and no two have one product. -/
structure Loadable (lines : List CartLine) (fresh : List ProductRow) : Prop where
  qty_pos : ∀ it ∈ lines.filter (InStock fresh), 1 ≤ it.qty
  one_line : ((lines.filter (InStock fresh)).map (·.productId)).Nodup

/-- The line that is loaded: no more than the stock. -/
def capped (fresh : List ProductRow) (it : CartLine) : CartLine :=
  match findProduct fresh it.productId with
  | some p => { it with qty := min it.qty p.stock }
  | none   => it

section
variable {fresh : List ProductRow} {lines : List CartLine} {it : CartLine}

@[simp] theorem capped_productId (fresh : List ProductRow) (it : CartLine) :
    (capped fresh it).productId = it.productId := by
  unfold capped
  split <;> rfl

theorem inStock_iff : InStock fresh it = true ↔ ∃ p, findProduct fresh it.productId = some p ∧ 0 < p.stock := by
  simp [InStock, Option.any_eq_true]

/-- A line is kept, capped to the stock, where the product is in stock. -/
theorem validateItem_eq (fresh : List ProductRow) (it : CartLine) :
    (validateItem fresh it).1 = if InStock fresh it = true then some (capped fresh it) else none := by
  unfold validateItem InStock capped
  cases findProduct fresh it.productId with
  | none => rfl
  | some p =>
      simp only [Option.any_some, decide_eq_true_eq]
      split
      case isTrue hout => rw [if_neg (not_lt.mpr hout)]
      case isFalse hin =>
        rw [if_pos (not_le.mp hin)]
        split
        case isTrue hshort => rw [min_eq_right hshort.le]
        case isFalse henough => rw [min_eq_left (not_lt.mp henough)]

/-- What is loaded is the lines in stock, cut to the stock. -/
theorem validateItems_eq (lines : List CartLine) (fresh : List ProductRow) :
    (validateItems lines fresh).1 = (lines.filter (InStock fresh)).map (capped fresh) := by
  unfold validateItems
  induction lines with
  | nil => rfl
  | cons it lines ih =>
      simp only [List.filterMap_cons, validateItem_eq]
      by_cases h : InStock fresh it = true
      · simp [h, ← ih, validateItem_eq]
      · simp [h, ← ih, validateItem_eq]

theorem one_le_capped (h : InStock fresh it = true) : 1 ≤ (capped fresh it).qty ↔ 1 ≤ it.qty := by
  obtain ⟨p, hp, hstock⟩ := inStock_iff.mp h
  rw [capped, hp]
  simp only
  omega

end

/-! ## One step -/

section
variable {actions : List Action} {c : Cart} {a : Action} {lines : List CartLine} {fresh : List ProductRow}

theorem sum_delta (lines : List CartLine) (s t d : ℚ) (h : s - t = d) :
    lines.foldl (fun s (i : CartLine) => s + i.price * i.qty) s
        - lines.foldl (fun s (i : CartLine) => s + i.originalPrice * i.qty) t =
      lines.foldl (fun s (i : CartLine) => s + (i.price - i.originalPrice) * i.qty) d := by
  induction lines generalizing s t d with
  | nil => exact h
  | cons i lines ih =>
      refine ih _ _ _ ?_
      rw [← h]
      ring

/-- The markup is what the cart costs beyond its original prices, whatever its lines. -/
theorem delta_eq (c : Cart) : c.subtotal - c.originalSubtotal = c.mechanicDelta :=
  sum_delta c.lines 0 0 0 (sub_zero 0)

theorem step_load (h : a.load = some (lines, fresh)) (c : Cart) :
    (step c a).lines = (lines.filter (InStock fresh)).map (capped fresh) := by
  cases a with
  | quote items selling fresh' =>
      cases h
      exact validateItems_eq _ _
  | resume blob fresh' =>
      cases h
      exact validateItems_eq _ _
  | _ => cases h

theorem products_of_load (h : a.load = some (lines, fresh)) : a.products = fresh := by
  cases a <;> cases h <;> rfl

/-- A key that occurs once is counted once. -/
theorem filter_of_nodup {lines : List CartLine} (h : (lines.map (·.productId)).Nodup) {i : CartLine}
    (hi : i ∈ lines) : (lines.filter fun j => j.productId = i.productId) = [i] := by
  induction lines with
  | nil => cases hi
  | cons j lines ih =>
      obtain ⟨hj, hrest⟩ := List.nodup_cons.mp h
      rcases List.mem_cons.mp hi with rfl | hi
      · have hnone : (lines.filter fun k => k.productId = i.productId) = [] := by
          refine List.filter_eq_nil_iff.mpr fun k hk => ?_
          have hne : k.productId ≠ i.productId := fun he => hj (List.mem_map.mpr ⟨k, hk, he⟩)
          simpa using hne
        rw [List.filter_cons_of_pos (by simp), hnone]
      · have hne : j.productId ≠ i.productId := fun he => hj (List.mem_map.mpr ⟨i, hi, he.symm⟩)
        rw [List.filter_cons_of_neg (by simpa using hne), ih hrest hi]

/-- A load leaves a cart that can be sold exactly where its lines are loadable. -/
theorem sellable_load_iff (ha : a.load = some (lines, fresh)) :
    Sellable (actions ++ [a]) (step c a) ↔ Loadable lines fresh := by
  have hlines := step_load ha c
  have hids : (step c a).lines.map (·.productId) = (lines.filter (InStock fresh)).map (·.productId) := by
    rw [hlines, List.map_map]
    exact List.map_congr_left fun it _ => capped_productId fresh it
  have hqty : (∀ i ∈ (step c a).lines, 1 ≤ i.qty) ↔ ∀ it ∈ lines.filter (InStock fresh), 1 ≤ it.qty := by
    rw [hlines, List.forall_mem_map]
    exact forall₂_congr fun it hit => one_le_capped (List.mem_filter.mp hit).2
  constructor
  · intro h
    exact ⟨hqty.mp h.qty_pos, hids ▸ h.one_line⟩
  · intro h
    have hone : ((step c a).lines.map (·.productId)).Nodup := hids ▸ h.one_line
    refine ⟨hqty.mpr h.qty_pos, fun i hi => ?_, hone, delta_eq _, fun b hb ls fr hload i hi p hp => ?_⟩
    · rw [hlines] at hi
      obtain ⟨it, hit, rfl⟩ := List.mem_map.mp hi
      obtain ⟨p, hp, -⟩ := inStock_iff.mp (List.mem_filter.mp hit).2
      refine ⟨a, List.mem_append_right _ (List.mem_singleton_self a), p, ?_, ?_⟩
      · rw [products_of_load ha]
        exact List.mem_of_find?_eq_some hp
      · have hid := List.find?_some hp
        rw [capped_productId]
        simpa using hid
    · obtain rfl : a = b := by simpa using hb
      cases ha.symm.trans hload
      rw [Cart.qtyOf, filter_of_nodup hone hi]
      rw [hlines] at hi
      obtain ⟨it, -, rfl⟩ := List.mem_map.mp hi
      rw [capped_productId] at hp
      simp [capped, hp]

/-- Changing the lines of a product keeps their products. -/
theorem map_productId_updateLines (c : Cart) (productId : String) {f : CartLine → CartLine}
    (hf : ∀ i, (f i).productId = i.productId) :
    (c.updateLines productId f).lines.map (·.productId) = c.lines.map (·.productId) := by
  rw [Cart.updateLines, List.map_map]
  refine List.map_congr_left fun i _ => ?_
  simp only [Function.comp_apply]
  split
  · exact hf i
  · rfl

/-- What an action by hand keeps: the lines' quantities, products and distinctness. -/
structure Orderly (seen : String → Prop) (c : Cart) : Prop where
  qty_pos : ∀ i ∈ c.lines, 1 ≤ i.qty
  has_product : ∀ i ∈ c.lines, seen i.productId
  one_line : (c.lines.map (·.productId)).Nodup

variable {seen : String → Prop}

/-- Rewriting one product's line keeps the cart in order, where it keeps product and quantity. -/
theorem Orderly.updateLines (h : Orderly seen c) (productId : String) {f : CartLine → CartLine}
    (hf : ∀ i, (f i).productId = i.productId) (hqty : ∀ i, 1 ≤ i.qty → 1 ≤ (f i).qty) :
    Orderly seen (c.updateLines productId f) := by
  have hids := map_productId_updateLines c productId hf
  refine ⟨?_, ?_, hids ▸ h.one_line⟩
  · intro i hi
    obtain ⟨j, hj, rfl⟩ := List.mem_map.mp hi
    split
    · exact hqty j (h.qty_pos j hj)
    · exact h.qty_pos j hj
  · intro i hi
    have hmem : i.productId ∈ c.lines.map (·.productId) := hids ▸ List.mem_map_of_mem hi
    obtain ⟨j, hj, he⟩ := List.mem_map.mp hmem
    exact he ▸ h.has_product j hj

/-- So does adding a product. -/
theorem Orderly.add (h : Orderly seen c) {p : ProductRow} (hp : seen p.id) : Orderly seen (c.add p).2 := by
  simp only [Cart.add]
  split
  · exact h
  · split
    case h_1 existing hfind =>
      have hold : 1 ≤ existing.qty := h.qty_pos existing (List.mem_of_find?_eq_some hfind)
      refine h.updateLines p.id (fun _ => rfl) fun i _ => ?_
      rw [hfind]
      simp only [Option.map_some, Option.getD_some]
      omega
    case h_2 hfind =>
      have hnew : ∀ i ∈ c.lines, i.productId ≠ p.id := by
        simpa using hfind
      refine ⟨?_, ?_, ?_⟩
      · simp only [List.forall_mem_append, List.forall_mem_singleton]
        exact ⟨h.qty_pos, le_rfl⟩
      · simp only [List.forall_mem_append, List.forall_mem_singleton]
        exact ⟨h.has_product, hp⟩
      · simp only [List.map_append, List.map_cons, List.map_nil]
        refine List.nodup_append.mpr ⟨h.one_line, List.nodup_singleton _, ?_⟩
        intro x hx y hy
        obtain ⟨i, hi, rfl⟩ := List.mem_map.mp hx
        obtain rfl := List.mem_singleton.mp hy
        exact hnew i hi

/-- So does setting a quantity. -/
theorem Orderly.setQty (h : Orderly seen c) (productId : String) (qty : Int) (product : Option ProductRow) :
    Orderly seen (c.setQty productId qty product).2 := by
  unfold Cart.setQty
  split
  · refine ⟨fun i hi => h.qty_pos i (List.mem_of_mem_filter hi),
      fun i hi => h.has_product i (List.mem_of_mem_filter hi), ?_⟩
    exact (List.filter_sublist.map _).nodup h.one_line
  · split
    · exact h
    · exact h.updateLines productId (fun _ => rfl) fun i _ => by
        dsimp only
        omega

theorem Orderly.setPrice (h : Orderly seen c) (productId : String) (newPrice : ℚ) :
    Orderly seen (c.setPrice productId newPrice).2 := by
  unfold Cart.setPrice
  split
  · exact h
  · split
    · exact h
    · exact h.updateLines productId (fun _ => rfl) fun _ hi => hi

theorem orderly_empty : Orderly seen Cart.empty :=
  ⟨fun _ h => absurd h List.not_mem_nil, fun _ h => absurd h List.not_mem_nil, List.nodup_nil⟩

/-- By hand, a cart that can be sold stays one. -/
theorem Orderly.step (h : Orderly seen c) (ha : a.load = none) (hseen : ∀ p ∈ a.products, seen p.id) :
    Orderly seen (step c a) := by
  cases a with
  | add p => exact h.add (hseen p List.mem_cons_self)
  | setQty i qty product => exact h.setQty i qty product
  | setPrice i newPrice => exact h.setPrice i newPrice
  | resetPrice i => exact h.updateLines i (fun _ => rfl) fun _ hi => hi
  | clear => exact orderly_empty
  | quote items selling fresh => cases ha
  | resume blob fresh => cases ha

end

/-! ## Whole runs -/

/-- A product that some action has shown the cart. -/
def Seen (actions : List Action) (productId : String) : Prop :=
  ∃ a ∈ actions, ∃ p ∈ a.products, p.id = productId

section
variable {actions : List Action} {c : Cart} {a : Action}

theorem Sellable.orderly (h : Sellable actions c) : Orderly (Seen actions) c :=
  ⟨h.qty_pos, h.has_product, h.one_line⟩

theorem Orderly.mono {seen seen' : String → Prop} (h : Orderly seen c) (hle : ∀ i, seen i → seen' i) :
    Orderly seen' c :=
  ⟨h.qty_pos, fun i hi => hle _ (h.has_product i hi), h.one_line⟩

theorem sellable_empty : Sellable [] Cart.empty :=
  ⟨fun _ h => absurd h List.not_mem_nil, fun _ h => absurd h List.not_mem_nil, List.nodup_nil, delta_eq _,
    fun _ h => by cases h⟩

/-- An action leaves the cart sellable, where a load brings lines that can be loaded. -/
theorem Sellable.step (h : Sellable actions c)
    (ha : ∀ lines fresh, a.load = some (lines, fresh) → Loadable lines fresh) :
    Sellable (actions ++ [a]) (step c a) := by
  rcases hload : a.load with _ | ⟨lines, fresh⟩
  · have hgrow : ∀ i, Seen actions i → Seen (actions ++ [a]) i :=
      fun i ⟨b, hb, hp⟩ => ⟨b, List.mem_append_left _ hb, hp⟩
    have hshown : ∀ p ∈ a.products, Seen (actions ++ [a]) p.id :=
      fun p hp => ⟨a, List.mem_append_right _ (List.mem_singleton_self a), p, hp, rfl⟩
    obtain ⟨hqty, hproduct, hone⟩ := (h.orderly.mono hgrow).step hload hshown
    refine ⟨hqty, hproduct, hone, delta_eq _, fun b hb lines fresh hb' => ?_⟩
    obtain rfl : a = b := by simpa using hb
    rw [hload] at hb'
    cases hb'
  · exact (sellable_load_iff hload).mpr (ha lines fresh hload)

/-- The cart can be sold after every step of a run exactly where each load of the run is of lines whose
products, so far as they are in stock, are distinct and wanted at least once. -/
theorem sellable_throughout_iff (actions : List Action) :
    (∀ before, before <+: actions → Sellable before (run before)) ↔
      ∀ a ∈ actions, ∀ lines fresh, a.load = some (lines, fresh) → Loadable lines fresh := by
  constructor
  · intro h a ha lines fresh hload
    obtain ⟨before, behind, rfl⟩ := List.append_of_mem ha
    have hpre : before ++ [a] <+: before ++ a :: behind := ⟨behind, by simp⟩
    have hsellable := h _ hpre
    rw [run, List.foldl_append] at hsellable
    exact (sellable_load_iff hload).mp hsellable
  · intro h before hbefore
    obtain ⟨behind, rfl⟩ := hbefore
    have hloads := fun a ha => h a (List.mem_append_left behind ha)
    clear h
    induction before using List.reverseRecOn with
    | nil => exact sellable_empty
    | append_singleton before a ih =>
        have hrest := ih fun b hb => hloads b (List.mem_append_left _ hb)
        rw [run, List.foldl_append]
        exact hrest.step (hloads a (List.mem_append_right _ (List.mem_singleton_self a)))

/-- Three pieces of a product in stock. -/
def brakePad : ProductRow := ⟨"A", none, "A", none, 100, 60, 3⟩

/-- A quote with the product on two lines is loaded as two lines, four pieces of three; adding the
product once more makes six of them. A parked line without a quantity stays in the cart as zero. -/
theorem loads_unsellable :
    (let twice : Action := .quote [⟨some "A", "A", 90, 2⟩, ⟨some "A", "A", 90, 2⟩] none [brakePad]
     let zero : Action := .resume ⟨some [⟨some "A", none, some "A", none, some 90, none, none, none⟩],
       none, none⟩ [brakePad]
     ¬Sellable [twice] (run [twice]) ∧ (run [twice]).qtyOf "A" = 4 ∧
       (run [twice, .add brakePad]).qtyOf "A" = 6 ∧ ¬Sellable [zero] (run [zero]) ∧
       (run [zero]).lines.map (·.qty) = [0]) := by
  refine ⟨fun h => absurd h.one_line (by decide +kernel), by decide +kernel, by decide +kernel,
    fun h => ?_, by decide +kernel⟩
  obtain ⟨i, hi, hqty⟩ : ∃ i ∈ (run [.resume ⟨some [⟨some "A", none, some "A", none, some 90, none, none,
      none⟩], none, none⟩ [brakePad]]).lines, i.qty < 1 := by decide +kernel
  exact absurd (h.qty_pos i hi) (not_le.mpr hqty)

end

end Till.Checkout

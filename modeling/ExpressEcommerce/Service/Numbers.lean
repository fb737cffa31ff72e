import ExpressEcommerce.Foundation.Rounding
import ExpressEcommerce.Service.Execution

/-!
# Amounts as JavaScript computes them

The handlers compute totals with JavaScript numbers, which are binary
floating-point numbers of 53 bits.  A price arrives as the text of a decimal
column, the total leaves as the text of a number, and the column rounds it to
hundredths.  All amounts and counts here are far from the ends of the range of
exponents.

The other modules compute with exact hundredths.  This module defines the
numbers and the handlers that use them, and shows that the column receives the
exact total of any order of a moderate size.
-/

namespace ExpressEcommerce
namespace Service

open Foundation
open Store

/-!
# Numbers
-/

def binary64 (x : Rat) : Rat :=
  roundTo 53 x

structure Number where
  value : Rat
  representable : binary64 value = value

namespace Number

def round (x : Rat) : Number :=
  ⟨binary64 x, roundTo_roundTo (by decide) x⟩

def ofInt (n : Int) : Number :=
  round n

/-- The number that the text of a `DECIMAL(10,2)` value is converted to. -/
def ofDecimal (hundredths : Int) : Number :=
  round (hundredths / 100)

def add (a b : Number) : Number :=
  round (a.value + b.value)

def mul (a b : Number) : Number :=
  round (a.value * b.value)

def div (a b : Number) : Number :=
  round (a.value / b.value)

def ceil (a : Number) : Int :=
  ⌈a.value⌉

theorem round_value (a : Number) : round a.value = a := by
  rcases a with ⟨value, h⟩
  unfold round
  congr

end Number

/-- `String(number)`, given by the value of the decimal text.  The language
demands that the text is read back as the number; which of these texts it is, is
left to the engine. -/
structure Printer where
  text : Number -> Rat
  reads : forall a, Number.round (text a) = a

/-- The text that writes all digits of the number. -/
def allDigits : Printer where
  text := Number.value
  reads := Number.round_value

/-- The hundredths that a `DECIMAL(10,2)` column makes of a decimal text: ties
are rounded away from zero. -/
def decimalColumn (x : Rat) : Int :=
  if 0 ≤ x then ⌊x * 100 + 1 / 2⌋ else -⌊-x * 100 + 1 / 2⌋

/-- The sum of price times quantity, line by line, starting at `0`. -/
def numberTotal (lines : List (Int × Int)) : Number :=
  lines.foldl (fun total line =>
    total.add ((Number.ofDecimal line.1).mul (Number.ofInt line.2)))
    (Number.ofInt 0)

def exactTotal (lines : List (Int × Int)) : Int :=
  (lines.map (fun line => line.1 * line.2)).sum

/-- Hundredths of the lines without their signs. -/
def worth (lines : List (Int × Int)) : Int :=
  (lines.map (fun line => |line.1 * line.2|)).sum

/-- No more lines than a body of 100 kilobytes can have bytes, and not worth more
than four times what the column can hold. -/
structure Moderate (lines : List (Int × Int)) : Prop where
  length : lines.length ≤ 102400
  worth : worth lines ≤ 40000000000

theorem numberTotal_append (lines : List (Int × Int)) (line : Int × Int) :
    numberTotal (lines ++ [line]) = (numberTotal lines).add
      ((Number.ofDecimal line.1).mul (Number.ofInt line.2)) := by
  unfold numberTotal
  rw [List.foldl_append]
  rfl

theorem exactTotal_append (lines : List (Int × Int)) (line : Int × Int) :
    exactTotal (lines ++ [line]) = exactTotal lines + line.1 * line.2 := by
  unfold exactTotal
  rw [List.map_append, List.sum_append]
  simp

theorem worth_nonneg (lines : List (Int × Int)) : 0 ≤ worth lines := by
  refine List.sum_nonneg ?_
  intro x hx
  rcases List.mem_map.mp hx with ⟨line, _, rfl⟩
  exact abs_nonneg _

/-!
# The error of a total
-/

def unitError : Rat :=
  1 / 2 ^ 53

theorem binary64_error (x : Rat) :
    |binary64 x - x| ≤ unitError * |x| :=
  abs_roundTo_sub_le 53 x

theorem unitError_nonneg : 0 ≤ unitError := by
  unfold unitError
  norm_num

def computedLine (line : Int × Int) : Rat × Rat :=
  (((Number.ofDecimal line.1).mul (Number.ofInt line.2)).value,
    line.1 / 100 * line.2)

theorem numberTotal_value (lines : List (Int × Int)) :
    (numberTotal lines).value =
      (lines.map computedLine).foldl (fun s t => binary64 (s + t.1)) 0 := by
  have hfold : forall (total : Number),
      (lines.foldl (fun total line => total.add
        ((Number.ofDecimal line.1).mul (Number.ofInt line.2))) total).value =
        (lines.map computedLine).foldl (fun s t => binary64 (s + t.1))
          total.value := by
    induction lines with
    | nil => exact fun _ => rfl
    | cons line rest ih => exact fun _ => ih _
  have hzero : (Number.ofInt 0).value = 0 := by
    show binary64 ((0 : Int) : Rat) = 0
    rw [Int.cast_zero]
    exact roundTo_zero 53
  rw [← hzero]
  exact hfold _

theorem sum_computedLine (lines : List (Int × Int)) :
    ((lines.map computedLine).map Prod.snd).sum = exactTotal lines / 100 := by
  unfold exactTotal
  induction lines with
  | nil => simp
  | cons line rest ih =>
      rw [List.map_cons, List.map_cons, List.sum_cons, ih, List.map_cons,
        List.sum_cons]
      unfold computedLine
      push_cast
      ring

theorem sum_abs_computedLine (lines : List (Int × Int)) :
    ((lines.map computedLine).map (fun t => |t.2|)).sum = worth lines / 100 := by
  unfold worth
  induction lines with
  | nil => simp
  | cons line rest ih =>
      have hline : |(computedLine line).2| =
          ((|line.1 * line.2| : Int) : Rat) / 100 := by
        unfold computedLine
        rw [Int.cast_abs, show (line.1 / 100 * line.2 : Rat) =
          (line.1 * line.2 : Int) / 100 by push_cast; ring, abs_div]
        norm_num
      rw [List.map_cons, List.map_cons, List.sum_cons, ih, List.map_cons,
        List.sum_cons, hline]
      push_cast
      ring

theorem growth_le {n : Nat} (h : n ≤ 102403) :
    growth unitError n ≤ 12 / 1000000000000 := by
  refine (growth_mono unitError_nonneg h).trans ?_
  have hbound := growth_mul_le unitError_nonneg 102403
  unfold unitError at *
  norm_num at hbound ⊢
  linarith

theorem numberTotal_error {lines : List (Int × Int)}
    (h : lines.length ≤ 102400) :
    |(numberTotal lines).value - exactTotal lines / 100| ≤
      12 / 1000000000000 * (worth lines / 100) := by
  have hterms : forall t, t ∈ lines.map computedLine ->
      |t.1 - t.2| ≤ growth unitError 3 * |t.2| := by
    intro t ht
    rcases List.mem_map.mp ht with ⟨line, _, rfl⟩
    exact abs_rnd_mul_sub_le unitError_nonneg binary64_error _ _
  have hsum := abs_roundedSum_le unitError_nonneg binary64_error hterms
  rw [← numberTotal_value, sum_computedLine, sum_abs_computedLine,
    List.length_map] at hsum
  have hworth : (0 : Rat) ≤ worth lines / 100 :=
    div_nonneg (Int.cast_nonneg (worth_nonneg lines)) (by norm_num)
  exact hsum.trans (mul_le_mul_of_nonneg_right (growth_le (by omega)) hworth)

/-!
# What the column receives
-/

theorem decimalColumn_of_near {x : Rat} {n : Int}
    (h : |x - n / 100| < 1 / 200) : decimalColumn x = n := by
  rw [abs_lt] at h
  unfold decimalColumn
  split
  · rw [Int.floor_eq_iff]
    constructor <;> linarith
  · have hneg : ⌊-x * 100 + 1 / 2⌋ = -n := by
      rw [Int.floor_eq_iff]
      push_cast
      constructor <;> linarith
    rw [hneg, neg_neg]

theorem abs_exactTotal_le (lines : List (Int × Int)) :
    |exactTotal lines| ≤ worth lines := by
  unfold exactTotal worth
  induction lines with
  | nil => simp
  | cons line rest ih =>
      rw [List.map_cons, List.map_cons, List.sum_cons, List.sum_cons]
      exact (abs_add_le _ _).trans (by omega)

/-- A text of the total is less than half a cent away from the exact total. -/
theorem text_near (printer : Printer) {lines : List (Int × Int)}
    (h : Moderate lines) :
    |printer.text (numberTotal lines) - exactTotal lines / 100| < 1 / 200 := by
  let text := printer.text (numberTotal lines)
  let ideal : Rat := exactTotal lines / 100
  have hcomputed := numberTotal_error h.length
  have hworth : (worth lines : Rat) ≤ 40000000000 := by
    exact_mod_cast h.worth
  have hreads : binary64 text = (numberTotal lines).value :=
    congrArg Number.value (printer.reads (numberTotal lines))
  have hprinted : |(numberTotal lines).value - text| ≤ unitError * |text| := by
    rw [← hreads]
    exact binary64_error text
  have hideal : |ideal| ≤ worth lines / 100 := by
    have habs : ((|exactTotal lines| : Int) : Rat) ≤ worth lines :=
      Int.cast_le.mpr (abs_exactTotal_le lines)
    rw [Int.cast_abs] at habs
    show |(exactTotal lines : Rat) / 100| ≤ _
    rw [abs_div, abs_of_pos (show (0 : Rat) < 100 by norm_num)]
    linarith
  have htext : |text| ≤ |text - ideal| + |ideal| := by
    simpa using abs_add_le (text - ideal) ideal
  have htriangle : |text - ideal| ≤
      |(numberTotal lines).value - text| + |(numberTotal lines).value - ideal| := by
    rw [abs_sub_comm (numberTotal lines).value text]
    exact abs_sub_le _ _ _
  have hnonneg := abs_nonneg (text - ideal)
  show |text - ideal| < 1 / 200
  unfold unitError at hprinted
  norm_num at hprinted hcomputed
  linarith

/-- The column holds the exact total of every moderate list of lines. -/
theorem decimalColumn_numberTotal (printer : Printer)
    {lines : List (Int × Int)} (h : Moderate lines) :
    decimalColumn (printer.text (numberTotal lines)) = exactTotal lines :=
  decimalColumn_of_near (text_near printer h)

/-!
# Page counts
-/

namespace Numbers

/-- `utils/sendPaginatedResponse.js`, with `Math.ceil(totalCount / limit)`
computed in numbers. -/
def sendPaginatedResponse (dataKey : String) (rows : Rows) (totalCount : Nat)
    (limit page : Int) : Response :=
  let totalPages :=
    ((Number.ofInt totalCount).div (Number.ofInt limit)).ceil
  { status := 200
    body := .page dataKey rows
      { totalItems := totalCount
        currentPage := page
        totalPages := totalPages
        perPage := limit } }

end Numbers

theorem ofInt_value {n : Int} (h : |n| < 2 ^ 53) :
    (Number.ofInt n).value = n :=
  roundTo_intCast n h

theorem ceil_div_eq {count : Nat} {limit n : Int}
    (hcount : (count : Int) < 2 ^ 53) (hlimit : 0 < limit)
    (hlow : limit * (n - 1) < count) (hhigh : count ≤ limit * n) :
    ⌈binary64 ((count : Rat) / limit)⌉ = n := by
  have hpos : (0 : Rat) < limit := Int.cast_pos.mpr hlimit
  rw [Int.ceil_eq_iff]
  -- with a remainder the quotient is far enough from both neighbouring integers,
  -- without one it is exact
  rcases lt_or_eq_of_le hhigh with hless | hequal
  · have herror : |binary64 ((count : Rat) / limit) - count / limit| <
        1 / limit := by
      refine (binary64_error _).trans_lt ?_
      have hsmall : (count : Rat) < 2 ^ 53 := by exact_mod_cast hcount
      rw [abs_div, Nat.abs_cast, abs_of_pos hpos, ← mul_div_assoc]
      refine div_lt_div_of_pos_right ?_ hpos
      unfold unitError
      linarith
    have hbelow : (n - 1 : Rat) + 1 / limit ≤ count / limit := by
      have hint : limit * (n - 1) + 1 ≤ (count : Int) := hlow
      have hrat : (limit : Rat) * (n - 1) + 1 ≤ count := by exact_mod_cast hint
      rw [le_div_iff₀ hpos, add_mul, one_div, inv_mul_cancel₀ hpos.ne']
      linarith
    have habove : (count : Rat) / limit + 1 / limit ≤ n := by
      have hint : (count : Int) + 1 ≤ limit * n := hless
      have hrat : (count : Rat) + 1 ≤ limit * n := by exact_mod_cast hint
      rw [← add_div, div_le_iff₀ hpos]
      linarith
    rw [abs_lt] at herror
    constructor <;> linarith
  · have hquotient : (count : Rat) / limit = n := by
      rw [div_eq_iff hpos.ne']
      have hrat : (count : Rat) = limit * n := by exact_mod_cast hequal
      linarith
    have hn : |n| < 2 ^ 53 := by
      rw [abs_lt]
      constructor <;> nlinarith
    rw [hquotient]
    have hround : binary64 (n : Rat) = n := roundTo_intCast n hn
    rw [hround]
    constructor <;> linarith

theorem ceilDiv_bounds (count : Nat) {limit : Int} (h : 0 < limit) :
    limit * (ceilDiv count limit - 1) < count ∧
      count ≤ limit * ceilDiv count limit := by
  unfold ceilDiv
  have hdiv := Int.mul_ediv_add_emod (-(count : Int)) limit
  have hnonneg := Int.emod_nonneg (-(count : Int)) h.ne'
  have hless := Int.emod_lt_of_pos (-(count : Int)) h
  constructor <;> nlinarith

/-- The pages are counted exactly, however many rows there are and whatever the
limit is, as long as both are integers that a number can hold. -/
theorem page_counts_are_exact (dataKey : String) (rows : Rows)
    {totalCount : Nat} {limit : Int} (page : Int)
    (hcount : (totalCount : Int) < 2 ^ 53) (hlimit : 1 ≤ limit)
    (hrange : limit < 2 ^ 53) :
    Numbers.sendPaginatedResponse dataKey rows totalCount limit page =
      sendPaginatedResponse dataKey rows totalCount limit page := by
  have hpages : ((Number.ofInt totalCount).div (Number.ofInt limit)).ceil =
      ceilDiv totalCount limit := by
    rcases ceilDiv_bounds totalCount (show 0 < limit by omega) with
      ⟨hlow, hhigh⟩
    have hvalues : ((Number.ofInt totalCount).div (Number.ofInt limit)).value =
        binary64 ((totalCount : Rat) / limit) := by
      show binary64 ((Number.ofInt totalCount).value /
        (Number.ofInt limit).value) = _
      rw [ofInt_value (by rw [abs_lt]; omega),
        ofInt_value (by rw [abs_lt]; omega), Int.cast_natCast]
    unfold Number.ceil
    rw [hvalues]
    exact ceil_div_eq hcount (by omega) hlow hhigh
  unfold Numbers.sendPaginatedResponse sendPaginatedResponse
  rw [hpages]

/-- Eleven rows in pages of five. -/
theorem eleven_rows_are_three_pages :
    Numbers.sendPaginatedResponse "data" (.products []) 11 5 1 =
      sendPaginatedResponse "data" (.products []) 11 5 1 :=
  page_counts_are_exact "data" (.products []) 1 (by decide) (by decide)
    (by decide)

/-!
# The handlers that compute totals

They differ from those with exact hundredths in the total they keep, which is a
number, and in the value that is sent for `total_price`, which is its text.  The
instance that is answered still holds the number, so the answer shows its text
and not the amount of the column.
-/

namespace Numbers

def itemLine (item : OrderItem) : Int × Int :=
  (item.unitPrice, item.quantity)

/-- The hooks of `hooks/orderItemHooks.js` add `i.quantity * i.unit_price` up. -/
def OrderItem.recalculate (printer : Printer) (item : OrderItem) :
    Act Unit := do
  let found : Option OrderGraph ← query false
    (.orderByPk item.orderId true { items := some true })
  match found with
  | none => pure ()
  | some graph => do
      let total := numberTotal (graph.items.map (fun i => itemLine i.item))
      let order ← Order.saveTotal false graph.order
        (decimalColumn (printer.text total))
      invalidateOrderCache order.id

def OrderItem.create (printer : Printer) (inTx : Bool)
    (orderId productId quantity unitPrice : Int) : Act OrderItem := do
  let (id, now) ← insert inTx (.item orderId productId quantity unitPrice)
  let item : OrderItem :=
    ⟨id, orderId, productId, quantity, unitPrice, now, now, none⟩
  OrderItem.recalculate printer item
  pure item

def placeItem (printer : Printer) (products : List Product) (order : Order)
    (total : Number) (item : ItemRequest) : Act Number :=
  match findProduct products item.productId with
  | none => throw "Cannot read properties of undefined (reading 'price')"
  | some product => do
      let lineTotal :=
        (Number.ofDecimal product.price).mul (Number.ofInt item.quantity)
      let total := total.add lineTotal
      let _ ← OrderItem.create printer true order.id item.productId
        item.quantity product.price
      Product.incrementStock true product.id (-item.quantity)
      pure total

/-- The order as the table has it, and the total as the instance has it. -/
def createOrderBody (printer : Printer) (customerId : Int)
    (items : List ItemRequest) : Act (Order × Rat) := do
  let products : List Product ←
    query false (.productsById (items.map ItemRequest.productId))
  items.forM (checkItem products)
  let order ← Order.create true customerId 0 Status.pending
  let total ← items.foldlM (placeItem printer products order) (Number.ofInt 0)
  let order ← Order.saveTotal true order (decimalColumn (printer.text total))
  pure (order, printer.text total)

/-- A response, and the text shown in it for `total_price` where that is the
text of a number. -/
abbrev Shown : Type := Response × Option Rat

def createOrder (printer : Printer) (customerId : Int)
    (items : List ItemRequest) : Act Shown :=
  tryCatch
    (do
      let placed ← transaction (createOrderBody printer customerId items)
        (fun placed =>
          detached (scheduleStatusUpdateJob placed.1.id (some Status.pending)))
      pure (⟨201, .messageOrder "Order placed successfully" placed.1.toJSON⟩,
        some placed.2))
    (fun e => pure (⟨500, .error e⟩, none))

def plain (x : Act Response) : Act Shown := do
  let response ← x
  pure (response, none)

def authenticateCustomer (token : Token) (next : Customer -> Act Shown) :
    Act Shown :=
  match token with
  | .missing => plain (respond 401
      (.error "Authorization Failed! Invalid token / Missing token"))
  | .invalid => plain (respond 401 (.error "Invalid or expired token"))
  | .valid id => do
      let found : Except String (Option Customer) ← tryCatch
        (do
          let found : Option Customer ← query false (.customerByPk id false)
          pure (.ok found))
        (fun e => pure (.error e))
      match found with
      | .error _ => plain (respond 401 (.error "Invalid or expired token"))
      | .ok none => plain (respond 401 (.error "Customer not found"))
      | .ok (some customer) => next customer

/-- No other handler computes with amounts. -/
def handle (printer : Printer) : Request -> Act Shown
  | .createOrder token items =>
      authenticateCustomer token (fun c => createOrder printer c.id items)
  | req => plain (Service.handle req)

def taskCode (printer : Printer) : Task -> Prog service (Outcome × Option Rat)
  | .request req =>
      settle (handle printer req)
        (fun shown => (Outcome.response shown.1, shown.2))
        (fun e => (Outcome.response ⟨500, .error e⟩, none))
  | task => task.code.bind (fun out => .ret (out, none))

def startPool (printer : Printer) (w : World) (tasks : List Task) :
    Pool service World Tx (Outcome × Option Rat) where
  shared := w
  threads := tasks.map (fun task => ⟨none, taskCode printer task⟩)

end Numbers

end Service
end ExpressEcommerce

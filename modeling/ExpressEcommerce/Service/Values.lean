import ExpressEcommerce.Foundation.Lists
import ExpressEcommerce.Foundation.Rounding
import ExpressEcommerce.Store.Commands

/-!
# Texts, numbers and request bodies

Route parameters and query strings arrive as texts.  PostgreSQL, JavaScript and
the validators read them in different ways, so each reader has its own
definition here.
-/

namespace ExpressEcommerce
namespace Service

open Foundation
open Store

def isDigit (c : Char) : Bool :=
  decide ('0' <= c ∧ c <= '9')

def digitsValue (cs : List Char) : Nat :=
  cs.foldl (fun n c => n * 10 + (c.toNat - '0'.toNat)) 0

def readDigits? (cs : List Char) : Option Nat :=
  if cs.isEmpty then none
  else if cs.all isDigit then some (digitsValue cs)
  else none

def splitSign : List Char -> Bool × List Char
  | '-' :: rest => (true, rest)
  | '+' :: rest => (false, rest)
  | cs => (false, cs)

def signed (negative : Bool) (n : Nat) : Int :=
  if negative then -(n : Int) else n

/-- The language of `/^[-+]?[0-9]+$/`, which is the `isInt` rule. -/
def readInt? (cs : List Char) : Option Int :=
  (readDigits? (splitSign cs).2).map (signed (splitSign cs).1)

/-!
# White space

PostgreSQL skips the blanks of the C locale, JavaScript those of Unicode.
-/

def isSpace (c : Char) : Bool :=
  decide (c.toNat = 32 ∨ 9 <= c.toNat ∧ c.toNat <= 13)

def isJsSpace (c : Char) : Bool :=
  isSpace c || decide (0x2000 <= c.toNat ∧ c.toNat <= 0x200A) ||
    [0xA0, 0x1680, 0x2028, 0x2029, 0x202F, 0x205F, 0x3000, 0xFEFF].contains
      c.toNat

theorem isJsSpace_of_isSpace {c : Char} (h : isSpace c = true) :
    isJsSpace c = true := by
  unfold isJsSpace
  rw [h, Bool.true_or, Bool.true_or]

theorem isSpace_of_isJsSpace {c : Char} (h : isJsSpace c = false) :
    isSpace c = false := by
  cases hspace : isSpace c with
  | false => rfl
  | true =>
      rw [isJsSpace_of_isSpace hspace] at h
      cases h

theorem toNat_of_isDigit {c : Char} (h : isDigit c = true) :
    48 <= c.toNat ∧ c.toNat <= 57 := by
  have hbounds : '0' <= c ∧ c <= '9' := of_decide_eq_true h
  exact hbounds

theorem isJsSpace_of_isDigit {c : Char} (h : isDigit c = true) :
    isJsSpace c = false := by
  have hbounds := toNat_of_isDigit h
  simp only [isJsSpace, isSpace, Bool.or_eq_false_iff, decide_eq_false_iff_not,
    List.contains_eq_mem, List.mem_cons, List.not_mem_nil, or_false]
  omega

theorem isDigit_of_readDigits? {cs : List Char} {n : Nat}
    (h : readDigits? cs = some n) : forall c, c ∈ cs -> isDigit c = true := by
  unfold readDigits? at h
  split at h
  · cases h
  · split at h
    · rename_i hall
      exact List.all_eq_true.mp hall
    · cases h

theorem isJsSpace_of_readInt? {cs : List Char} {n : Int}
    (h : readInt? cs = some n) : forall c, c ∈ cs -> isJsSpace c = false := by
  rcases Option.map_eq_some_iff.mp h with ⟨m, hdigits, _⟩
  have hbody := isDigit_of_readDigits? hdigits
  intro c hc
  unfold splitSign at hbody
  split at hbody
  · rcases List.mem_cons.mp hc with rfl | hrest
    · rfl
    · exact isJsSpace_of_isDigit (hbody c hrest)
  · rcases List.mem_cons.mp hc with rfl | hrest
    · rfl
    · exact isJsSpace_of_isDigit (hbody c hrest)
  · exact isJsSpace_of_isDigit (hbody c hc)

/-!
# Integers
-/

/-- PostgreSQL's reading of a decimal literal for an `INTEGER` column. -/
def pgInteger? (text : String) : Option Int :=
  (readInt? (trim isSpace text.toList)).filter Database.fitsInteger

/-!
An integer is read back from its decimal text.
-/

theorem digitsValue_toDigits (n : Nat) :
    digitsValue (Nat.toDigits 10 n) = n := by
  have hvalue := Nat.ofDigitChars_toDigits (b := 10) (n := n) (by decide)
    (by decide)
  unfold digitsValue
  unfold Nat.ofDigitChars at hvalue
  simpa [Nat.mul_comm] using hvalue

theorem isDigit_of_mem_toDigits {n : Nat} {c : Char}
    (h : c ∈ Nat.toDigits 10 n) : isDigit c = true := by
  have hdigit := Nat.isDigit_of_mem_toDigits (by decide) (by decide) h
  rw [Char.isDigit] at hdigit
  unfold isDigit
  simpa [Char.le_def] using hdigit

theorem readDigits?_toDigits (n : Nat) :
    readDigits? (Nat.toDigits 10 n) = some n := by
  unfold readDigits?
  rw [if_neg, if_pos, digitsValue_toDigits]
  · rw [List.all_eq_true]
    exact fun c hc => isDigit_of_mem_toDigits hc
  · simp

theorem splitSign_toDigits (n : Nat) :
    splitSign (Nat.toDigits 10 n) = (false, Nat.toDigits 10 n) := by
  cases hcs : Nat.toDigits 10 n with
  | nil => rfl
  | cons c rest =>
      have hc : isDigit c = true := by
        refine isDigit_of_mem_toDigits (n := n) ?_
        rw [hcs]
        exact List.mem_cons_self
      unfold splitSign
      split
      · rename_i heq
        cases heq
        cases hc
      · rename_i heq
        cases heq
        cases hc
      · rfl

theorem readInt?_toString (n : Int) :
    readInt? (toString n).toList = some n := by
  rw [Int.toString_eq_repr]
  cases n with
  | ofNat m =>
      show readInt? (Nat.repr m).toList = _
      rw [Nat.toList_repr]
      unfold readInt?
      rw [splitSign_toDigits, readDigits?_toDigits]
      rfl
  | negSucc m =>
      show readInt? ("-" ++ Nat.repr (m + 1)).toList = _
      rw [String.toList_append, Nat.toList_repr]
      show (readDigits? (Nat.toDigits 10 (m + 1))).map (signed true) = _
      rw [readDigits?_toDigits]
      rfl

theorem trim_of_readInt? {cs : List Char} {n : Int}
    (h : readInt? cs = some n) : trim isSpace cs = cs := by
  apply trim_of_none
  intro c hc
  exact isSpace_of_isJsSpace (isJsSpace_of_readInt? h c hc)

theorem pgInteger?_toString (n : Int) :
    pgInteger? (toString n) = (some n).filter Database.fitsInteger := by
  unfold pgInteger?
  rw [trim_of_readInt? (readInt?_toString n), readInt?_toString]

def hexDigit? (c : Char) : Option Nat :=
  if isDigit c then some (c.toNat - '0'.toNat)
  else if 'a' <= c ∧ c <= 'f' then some (c.toNat - 'a'.toNat + 10)
  else if 'A' <= c ∧ c <= 'F' then some (c.toNat - 'A'.toNat + 10)
  else none

def readHex? (cs : List Char) : Option Nat :=
  let run := cs.takeWhile (fun c => (hexDigit? c).isSome)
  if run.isEmpty then none
  else some (run.foldl (fun n c => n * 16 + (hexDigit? c).getD 0) 0)

def readRadix? (radix : Nat) (cs : List Char) : Option Nat :=
  if cs.isEmpty then none
  else cs.foldlM (fun n c =>
    ((hexDigit? c).filter (fun d => decide (d < radix))).map
      (fun d => n * radix + d)) 0

/-- The digits after `0x`, `0o` and `0b`, with their base. -/
def splitRadix : List Char -> Option (Nat × List Char)
  | '0' :: c :: rest =>
      if c = 'x' ∨ c = 'X' then some (16, rest)
      else if c = 'o' ∨ c = 'O' then some (8, rest)
      else if c = 'b' ∨ c = 'B' then some (2, rest)
      else none
  | _ => none

def readExponent? : List Char -> Option Int
  | [] => some 0
  | c :: rest => if c = 'e' ∨ c = 'E' then readInt? rest else none

/-- An unsigned decimal literal: digits with a point somewhere among them, and
an exponent. -/
def readLiteral? (cs : List Char) : Option Rat :=
  let whole := cs.takeWhile isDigit
  let rest := cs.dropWhile isDigit
  let fraction :=
    if rest.head? = some '.' then rest.tail.takeWhile isDigit else []
  let exponent :=
    if rest.head? = some '.' then rest.tail.dropWhile isDigit else rest
  if (whole ++ fraction).isEmpty then none
  else (readExponent? exponent).map (fun e : Int =>
    digitsValue (whole ++ fraction) *
      (10 : Rat) ^ (e - (fraction.length : Int)))

/-- Fractions are rounded to the nearest number; integers are exact here. -/
def nearestNumber (q : Rat) : Rat :=
  if q.isInt then q else roundTo 53 q

/-- The value of `+text`.  `Infinity` is not distinguished from `NaN`. -/
def jsNumber? (text : String) : Option Rat :=
  let cs := trim isJsSpace text.toList
  if cs.isEmpty then some 0
  else
    match splitRadix cs with
    | some (radix, digits) => (readRadix? radix digits).map (fun n => (n : Rat))
    | none =>
        (readLiteral? (splitSign cs).2).map (fun q =>
          nearestNumber (if (splitSign cs).1 then -q else q))

/-- The value of `+text`, when it is an integer. -/
def jsInteger? (text : String) : Option Int :=
  (jsNumber? text).bind (fun q => if q.isInt then some q.num else none)

theorem readLiteral?_of_readDigits? {cs : List Char} {n : Nat}
    (h : readDigits? cs = some n) : readLiteral? cs = some (n : Rat) := by
  have hdigit := isDigit_of_readDigits? h
  have htake : cs.takeWhile isDigit = cs :=
    List.takeWhile_eq_self_iff.mpr hdigit
  have hdrop : cs.dropWhile isDigit = [] := List.dropWhile_eq_nil_iff.mpr hdigit
  unfold readDigits? at h
  split at h
  · cases h
  · rename_i hne
    split at h
    · cases h
      unfold readLiteral?
      rw [htake, hdrop]
      simp [readExponent?, hne]
    · cases h

theorem splitRadix_of_readInt? {cs : List Char} {n : Int}
    (h : readInt? cs = some n) : splitRadix cs = none := by
  rcases Option.map_eq_some_iff.mp h with ⟨m, hdigits, -⟩
  have hbody := isDigit_of_readDigits? hdigits
  unfold splitRadix
  split
  · rename_i c rest
    have hc : isDigit c = true :=
      hbody c (List.mem_cons_of_mem _ List.mem_cons_self)
    have hne : forall d, isDigit d = false -> c ≠ d := by
      rintro d hd rfl
      rw [hc] at hd
      cases hd
    rw [if_neg, if_neg, if_neg]
    · exact not_or_intro (hne _ rfl) (hne _ rfl)
    · exact not_or_intro (hne _ rfl) (hne _ rfl)
    · exact not_or_intro (hne _ rfl) (hne _ rfl)
  · rfl

theorem jsInteger?_of_readInt? {text : String} {n : Int}
    (h : readInt? (trim isSpace text.toList) = some n) :
    jsInteger? text = some n := by
  rcases exists_trim isSpace text.toList with
    ⟨front, back, htext, hfront, hback⟩
  have htrim : trim isJsSpace text.toList = trim isSpace text.toList := by
    conv_lhs => rw [htext]
    exact trim_between (fun c hc => isJsSpace_of_isSpace (hfront c hc))
      (fun c hc => isJsSpace_of_isSpace (hback c hc)) (isJsSpace_of_readInt? h)
  have hempty : (trim isSpace text.toList).isEmpty = false := by
    cases hcs : trim isSpace text.toList with
    | nil =>
        rw [hcs] at h
        cases h
    | cons c rest => rfl
  rcases Option.map_eq_some_iff.mp h with ⟨m, hdigits, hsigned⟩
  have hvalue : (if (splitSign (trim isSpace text.toList)).1 then -(m : Rat)
      else m) = n := by
    rw [← hsigned]
    unfold signed
    split <;> push_cast <;> rfl
  unfold jsInteger? jsNumber?
  rw [htrim]
  simp only [hempty, Bool.false_eq_true, if_false, splitRadix_of_readInt? h,
    readLiteral?_of_readDigits? hdigits, Option.map_some, hvalue,
    Option.bind_some]
  simp [nearestNumber, Rat.isInt]

theorem jsInteger?_of_pgInteger? {text : String} {n : Int}
    (h : pgInteger? text = some n) : jsInteger? text = some n :=
  jsInteger?_of_readInt? (Option.filter_eq_some_iff.mp h).left

theorem jsInteger?_toString (n : Int) : jsInteger? (toString n) = some n := by
  apply jsInteger?_of_readInt?
  rw [trim_of_readInt? (readInt?_toString n), readInt?_toString]

/-- `parseInt` reads a sign and the longest run of digits, which are
hexadecimal after `0x`. -/
def parseInt? (text : String) : Option Int :=
  let body := splitSign (text.toList.dropWhile isJsSpace)
  let magnitude :=
    match body.2 with
    | '0' :: 'x' :: rest => readHex? rest
    | '0' :: 'X' :: rest => readHex? rest
    | cs => readDigits? (cs.takeWhile isDigit)
  magnitude.map (signed body.1)

theorem parseInt?_toString (n : Nat) : parseInt? (toString n) = some n := by
  have hspace : (Nat.toDigits 10 n).dropWhile isJsSpace =
      Nat.toDigits 10 n := by
    apply dropWhile_of_none
    intro c hc
    exact isJsSpace_of_isDigit (isDigit_of_mem_toDigits hc)
  have htake : (Nat.toDigits 10 n).takeWhile isDigit =
      Nat.toDigits 10 n := by
    rw [List.takeWhile_eq_self_iff]
    exact fun c hc => isDigit_of_mem_toDigits hc
  have hdigit : forall c, c ∈ Nat.toDigits 10 n -> isDigit c = true :=
    fun c hc => isDigit_of_mem_toDigits hc
  unfold parseInt?
  rw [show (toString n).toList = Nat.toDigits 10 n from Nat.toList_repr,
    hspace, splitSign_toDigits]
  dsimp only
  split
  · rename_i rest heq
    rw [heq] at hdigit
    cases hdigit 'x' (List.mem_cons_of_mem _ List.mem_cons_self)
  · rename_i rest heq
    rw [heq] at hdigit
    cases hdigit 'X' (List.mem_cons_of_mem _ List.mem_cons_self)
  · rw [htake, readDigits?_toDigits]
    rfl

/-- `parseInt(text) || fallback`: zero and `NaN` are falsy. -/
def parseIntOr (text : Option String) (fallback : Int) : Int :=
  match text.bind parseInt? with
  | none => fallback
  | some n => if n = 0 then fallback else n

/-!
# Pagination
-/

structure PageQuery where
  page : Option String := none
  limit : Option String := none
  deriving DecidableEq, Repr

structure PageWindow where
  limit : Int
  offset : Int
  page : Int
  deriving DecidableEq, Repr

/-- `utils/paginate.js`. -/
def paginate (query : PageQuery) : PageWindow :=
  let page := parseIntOr query.page 1
  let limit := parseIntOr query.limit 5
  let page := if page < 1 then 1 else page
  { limit := limit, offset := (page - 1) * limit, page := page }

theorem page_pos (query : PageQuery) : 1 <= (paginate query).page := by
  dsimp only [paginate]
  split <;> omega

theorem limit_ne_zero (query : PageQuery) : (paginate query).limit ≠ 0 := by
  dsimp only [paginate, parseIntOr]
  split
  · decide
  · split
    · decide
    · assumption

def numbered (limit : Option String) (n : Nat) : PageQuery :=
  { page := some (toString n), limit := limit }

theorem page_numbered (limit : Option String) {n : Nat} (hn : 1 <= n) :
    (paginate (numbered limit n)).page = n := by
  have hpage : parseIntOr (some (toString n)) 1 = n := by
    unfold parseIntOr
    rw [Option.bind_some, parseInt?_toString]
    exact if_neg (by omega)
  show (if parseIntOr (some (toString n)) 1 < 1 then 1
    else parseIntOr (some (toString n)) 1) = _
  rw [hpage, if_neg (by omega)]

def ceilDiv (count : Nat) (limit : Int) : Int :=
  -((-(count : Int)) / limit)

/-- `utils/sendPaginatedResponse.js`. -/
def sendPaginatedResponse (dataKey : String) (rows : Rows) (totalCount : Nat)
    (limit page : Int) : Response :=
  { status := 200
    body := .page dataKey rows
      { totalItems := totalCount
        currentPage := page
        totalPages := ceilDiv totalCount limit
        perPage := limit } }

/-!
# Body fields

A field of a JSON body that is a number or a text.  Numbers are counted in
hundredths.
-/

inductive Scalar where
  | number (hundredths : Rat)
  | text (s : String)
  deriving DecidableEq, Repr

namespace Scalar

def isString : Scalar -> Bool
  | number _ => false
  | text _ => true

def notEmpty : Scalar -> Bool
  | number _ => true
  | text s => !s.isEmpty

/-- Numbers from `10 ^ 21` on and below `10 ^ -6` are printed with an exponent,
which no rule accepts. -/
def isPlain (hundredths : Rat) : Bool :=
  decide (hundredths = 0 ∨
    1 / 10000 <= |hundredths| ∧ |hundredths| < 10 ^ 23)

/-- The value an `INTEGER` column receives, before the range check. -/
def integer? : Scalar -> Option Int
  | number h =>
      if isPlain h ∧ (h / 100).isInt then some (h / 100).num else none
  | text s => readInt? s.toList

/-- The `isInt({ min: 0 })` rule. -/
def isNatural (v : Scalar) : Bool :=
  v.integer?.any (fun n => decide (0 <= n))

def splitPoint (cs : List Char) : List Char × Option (List Char) :=
  match cs.dropWhile isDigit with
  | '.' :: fraction => (cs.takeWhile isDigit, some fraction)
  | rest => (cs.takeWhile isDigit ++ rest, none)

/-- The language of the `isDecimal` rule, with the value in hundredths. -/
def readDecimal? (cs : List Char) : Option Rat :=
  let sign : Rat := if (splitSign cs).1 then -1 else 1
  match splitPoint (splitSign cs).2 with
  | (whole, none) => (readDigits? whole).map (fun n => sign * n * 100)
  | (whole, some fraction) =>
      if whole.all isDigit then
        (readDigits? fraction).map (fun n =>
          sign * (digitsValue whole + n / 10 ^ fraction.length) * 100)
      else none

def decimal? : Scalar -> Option Rat
  | number h => if isPlain h then some h else none
  | text s => readDecimal? s.toList

def isDecimal (v : Scalar) : Bool :=
  v.decimal?.isSome

end Scalar

/-- A `DECIMAL(10,2)` column keeps the nearest hundredth, halves away from
zero. -/
def roundHundredths (hundredths : Rat) : Int :=
  if 0 <= hundredths then ⌊hundredths + 1 / 2⌋ else ⌈hundredths - 1 / 2⌉

/-- The text in which a `DECIMAL(10,2)` value is held by an instance. -/
def decimalText (hundredths : Int) : String :=
  let whole := hundredths.natAbs / 100
  let cents := hundredths.natAbs % 100
  (if hundredths < 0 then "-" else "") ++ toString whole ++ "." ++
    (if cents < 10 then "0" else "") ++ toString cents

structure ProductBody where
  name : Option Scalar := none
  description : Option Scalar := none
  price : Option Scalar := none
  stock : Option Scalar := none
  deriving DecidableEq, Repr

def ProductBody.described (body : ProductBody) : Option String :=
  match body.description with
  | some (.text s) => some s
  | _ => none

structure CustomerBody where
  name : Option String := none
  email : Option String := none
  password : Option String := none
  deriving DecidableEq, Repr

/-- One entry of `req.body.items`. -/
structure ItemRequest where
  productId : Int
  quantity : Int
  deriving DecidableEq, Repr

/-!
# Validators

The rules record an error for a field; `validateRequest` rejects the request
when there is one.
-/

def ruleErrors (rules : List (Bool × String × String)) :
    List (String × String) :=
  (rules.filter (fun r => !r.1)).map (fun r => r.2)

theorem ruleErrors_eq_nil_iff {rules : List (Bool × String × String)} :
    ruleErrors rules = [] <-> forall r, r ∈ rules -> r.1 = true := by
  unfold ruleErrors
  rw [List.map_eq_nil_iff, List.filter_eq_nil_iff]
  constructor
  · intro h r hr
    have hr1 := h r hr
    revert hr1
    cases r.1 <;> simp
  · intro h r hr
    rw [h r hr]
    exact Bool.false_ne_true

/-- `validators/productValidator.js`: `createProductRules` and
`updateProductRules` are the same list. -/
def createProductRules (body : ProductBody) : List (String × String) :=
  ruleErrors
    [ (body.name.any Scalar.notEmpty, "name", "Name is required"),
      (body.name.any Scalar.isString, "name", "Name must be a string"),
      (body.description.all Scalar.isString, "description",
        "Description must be a string"),
      (body.price.any Scalar.notEmpty, "price", "Price is required"),
      (body.price.any Scalar.isDecimal, "price",
        "Price must be a valid decimal number"),
      (body.stock.any Scalar.notEmpty, "stock", "Stock is required"),
      (body.stock.any Scalar.isNatural, "stock",
        "Stock must be a non-negative integer") ]

def updateProductRules (body : ProductBody) : List (String × String) :=
  createProductRules body

def partialUpdateProductRules (body : ProductBody) :
    List (String × String) :=
  ruleErrors
    [ (body.name.all Scalar.isString, "name", "Name must be a string"),
      (body.name.all Scalar.notEmpty, "name", "Name cannot be empty"),
      (body.description.all Scalar.isString, "description",
        "Description must be a string"),
      (body.price.all Scalar.isDecimal, "price",
        "Price must be a valid decimal"),
      (body.stock.all Scalar.isNatural, "stock",
        "Stock must be a non-negative integer") ]

/-- `validators/customerValidator.js`; the verdict of `isEmail` on the
submitted address is passed in. -/
def updateCustomerRules (body : CustomerBody) (emailOk : Bool) :
    List (String × String) :=
  ruleErrors
    [ (body.name.all (fun s => decide (2 <= s.length)), "name",
        "Name must be at least 2 characters."),
      (body.email.isNone || emailOk, "email",
        "Please provide a valid email address."),
      (body.password.all (fun s => decide (6 <= s.length)), "password",
        "Password must be at least 6 characters.") ]

def fullUpdateCustomerRules (body : CustomerBody) (emailOk : Bool) :
    List (String × String) :=
  ruleErrors
    [ (body.name.any (fun s => !s.isEmpty), "name", "Name is required."),
      (body.name.any (fun s => decide (2 <= s.length)), "name",
        "Name must be at least 2 characters."),
      (body.email.any (fun s => !s.isEmpty), "email", "Email is required."),
      (body.email.isSome && emailOk, "email",
        "Please provide a valid email address."),
      (body.password.any (fun s => !s.isEmpty), "password",
        "Password is required."),
      (body.password.any (fun s => decide (6 <= s.length)), "password",
        "Password must be at least 6 characters.") ]

def idRule (text message : String) : List (String × String) :=
  ruleErrors [((readInt? text.toList).isSome, "id", message)]

end Service
end ExpressEcommerce

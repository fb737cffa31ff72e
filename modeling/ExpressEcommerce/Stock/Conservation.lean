import ExpressEcommerce.Runs.Sequential

/-!
# Conservation of stock

The stock of a product together with the quantities in the items of all live
orders is a constant of every sequential run.  Orders take from the stock what
their items hold, deletion gives it back, and only the product requests that
write a stock change the sum, by what they write.
-/

namespace ExpressEcommerce
namespace Stock

open Foundation
open Store
open Service
open Orders
open Products
open Runs

def isLive (o : Order) : Bool :=
  o.deletedAt.isNone

/-- The stock of a product and what live orders hold of it. -/
def stockAndHeld (db : Database) (p : Int) : Int :=
  db.stock p + db.held isLive p

/-- The product requests that may write a stock. -/
def writesStock : RunTask -> Bool
  | .product (.create _) => true
  | .product (.update _ _) => true
  | .product (.patch _ _) => true
  | _ => false

/-- A request writes a number to the stock of a product. -/
def Writes (db : Database) (p n : Int) : RunTask -> Prop
  | .product t => t.Writes db p n
  | _ => False

def everything (_ : World) (_ : RunTask) : Prop :=
  True

/-!
# Steps
-/

theorem stockAndHeld_moved {t : OrderTask} {db db' : Database} {o : Order}
    {m : Move} (hmove : t.move db = some (o, m)) (h : Moved db db' o m)
    (p : Int) : stockAndHeld db' p = stockAndHeld db p := by
  rcases guard_of_move hmove with ⟨hfound, hguard⟩
  rcases h.replaced with ⟨now, deletedAt, hdeleted, hrep⟩
  have hheld := Database.held_replace hrep.items hfound hrep.find? isLive p
  have hstock := h.stock p
  unfold stockAndHeld
  have hafter : isLive { o with
      status := m.status, deletedAt := deletedAt, updatedAt := now } =
        !m.deleted o.deletedAt.isSome := by
    rw [← hdeleted]
    cases deletedAt <;> rfl
  have hbefore : isLive o = !o.deletedAt.isSome := by
    unfold isLive
    cases o.deletedAt <;> rfl
  rw [hafter, hbefore] at hheld
  cases m with
  | set status =>
      have hsame := add_right_cancel hheld
      simp only [Move.direction] at hstock
      omega
  | cancel =>
      rw [hguard.left] at hheld
      simp [Move.deleted] at hheld
      simp only [Move.direction] at hstock
      omega
  | reopen =>
      rw [show o.deletedAt.isSome = true from hguard] at hheld
      simp [Move.deleted] at hheld
      simp only [Move.direction] at hstock
      omega

theorem stockAndHeld_order {ok : Env -> Prop} {t : OrderTask}
    {w w' : World} {out : Outcome} (hlive : w.db.NoDeletedItems)
    (hdone : Completes t out) (h : Executes ok w t.task out w') (p : Int) :
    stockAndHeld w'.db p = stockAndHeld w.db p := by
  rcases executes_move hlive hdone h with hsame | ⟨o, m, hmove, hmoved⟩
  · rw [hsame]
  · exact stockAndHeld_moved hmove hmoved p

theorem stockAndHeld_createOrder {ok : Env -> Prop} {token : Token}
    {items : List ItemRequest} {w w' : World} {out : Outcome}
    (h : Executes ok w (.request (.createOrder token items)) out w')
    (p : Int) : stockAndHeld w'.db p = stockAndHeld w.db p := by
  refine stock_held_createOrder (fun o _ hlive => ?_) h p
  unfold isLive
  rw [hlive]
  rfl

theorem held_product {ok : Env -> Prop} {t : ProductTask} {w w' : World}
    {out : Outcome} (h : Executes ok w t.task out w') (p : Int) :
    w'.db.held isLive p = w.db.held isLive p :=
  held_of_rows (executes_edit h).orders (executes_edit h).items isLive p

theorem stockAndHeld_step {ok : Env -> Prop} {w w' : World} {t : RunTask}
    {out : Outcome} (hlive : w.db.NoDeletedItems) (hfinishes : t.Finishes out)
    (h : Executes ok w t.task out w') (p : Int) :
    stockAndHeld w'.db p = stockAndHeld w.db p ∨
      writesStock t = true ∧ Writes w.db p (w'.db.stock p) t ∧
        stockAndHeld w'.db p - stockAndHeld w.db p =
          w'.db.stock p - w.db.stock p := by
  cases t with
  | order t => exact Or.inl (stockAndHeld_order hlive hfinishes h p)
  | place token items => exact Or.inl (stockAndHeld_createOrder h p)
  | product t =>
      have hheld := held_product h p
      unfold stockAndHeld
      rcases (executes_edit h).stock p with hsame | ⟨hwrites, _⟩
      · left
        rw [hsame, hheld]
      · right
        refine ⟨?_, hwrites, by omega⟩
        cases t <;> first | rfl | cases hwrites

/-!
# Runs
-/

/-- In every run the sum is left unchanged by every step that does not write a
stock, and a step that does changes it by exactly the difference it writes. -/
theorem stock_conserved_in_runs {start w w' : World} {t : RunTask}
    {out : Outcome} (hlive : start.db.NoDeletedItems)
    (hrun : Run AnyEnv everything start w) (hfinishes : t.Finishes out)
    (hstep : Executes AnyEnv w t.task out w') (p : Int) :
    (writesStock t = false ->
      stockAndHeld w'.db p = stockAndHeld w.db p) ∧
    (writesStock t = true ->
      stockAndHeld w'.db p - stockAndHeld w.db p =
        w'.db.stock p - w.db.stock p ∧
      (w'.db.stock p = w.db.stock p ∨ Writes w.db p (w'.db.stock p) t)) := by
  have hitems : w.db.NoDeletedItems :=
    run_invariant (fun hinv _ hfin hexec => noDeleted_step hinv hfin hexec)
      hlive hrun
  have hone := stockAndHeld_step hitems hfinishes hstep p
  constructor
  · intro hwrites
    rcases hone with hsame | ⟨htrue, _⟩
    · exact hsame
    · rw [hwrites] at htrue
      cases htrue
  · intro hwrites
    cases t with
    | order t => cases hwrites
    | place token items => cases hwrites
    | product t =>
        have hheld := held_product hstep p
        refine ⟨by unfold stockAndHeld; omega, ?_⟩
        rcases (executes_edit hstep).stock p with hsame | ⟨hnew, _⟩
        · exact Or.inl hsame
        · exact Or.inr hnew

/-- Two pens are sold: the stock falls from ten to eight, the sum stays. -/
theorem stock_conserved_for_two_pens :
    shopWithOrder.db.stock 1 = 8 ∧
      stockAndHeld shopWithOrder.db 1 = stockAndHeld shop.db 1 :=
  ⟨by decide,
    (stock_conserved_in_runs (t := .place (.valid 1) [⟨1, 2⟩])
      (by intro i hi; cases hi) .refl trivial
      (executes_after shop _).anyEnv 1).left rfl⟩

end Stock
end ExpressEcommerce

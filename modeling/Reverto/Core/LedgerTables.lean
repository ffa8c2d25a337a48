import Mathlib.Tactic
import Reverto.Core.DealStore

/-!
# The tables of the ledger and their writers (core/deal_store.py, core/database.py)

`deals` and `orders` with their primary keys and foreign keys; every writer is one
transaction, which an `IntegrityError` rolls back.
-/

namespace Reverto

/-- A row of `orders`. -/
structure OrderRow where
  id : String
  userId : ℕ
  dealId : String
  botSlug : String
  orderNumber : ℕ
  orderType : OrderType
  price : ℚ
  size : ℚ
  feeBtc : ℚ
  placedAt : Instant
  deriving DecidableEq, Repr

/-- `sqlite3.IntegrityError` -/
inductive IntegrityError where
  | unique (column : String)
  | foreignKey
  deriving DecidableEq, Repr

/-- `users` (the ids), `deals` and `orders`; every reference points to a row. -/
structure LedgerDb where
  users : List ℕ
  deals : KeyedDict DealRow.id
  orders : KeyedDict OrderRow.id
  dealUser : ∀ r ∈ deals.items, r.userId ∈ users
  orderUser : ∀ r ∈ orders.items, r.userId ∈ users
  orderDeal : ∀ r ∈ orders.items, r.dealId ∈ deals.items.map DealRow.id

/-- `order_id = f"{deal_id}:{order_number}"` -/
def orderId (dealId : String) (orderNumber : ℕ) : String := dealId ++ ":" ++ toString orderNumber

/-- The row that `save_order` and the replay insert. -/
def orderRowTuple (o : LedgerOwner) (dealId : String) (ord : PaperOrder) (feeBtc : ℚ) :
    OrderRow where
  id := orderId dealId ord.orderNumber
  userId := o.userId
  dealId := dealId
  botSlug := o.botSlug
  orderNumber := ord.orderNumber
  orderType := ord.orderType
  price := ord.price
  size := ord.size
  feeBtc := feeBtc
  placedAt := ord.timestamp

namespace LedgerDb

/-- The ids in `deals`. -/
def dealIds (db : LedgerDb) : List String := db.deals.items.map DealRow.id

/-- The ids in `orders`. -/
def orderIds (db : LedgerDb) : List String := db.orders.items.map OrderRow.id

@[ext] theorem ext (db db' : LedgerDb) (husers : db.users = db'.users)
    (hdeals : db.deals.items = db'.deals.items) (horders : db.orders.items = db'.orders.items) :
    db = db' := by
  cases db
  cases db'
  cases husers
  cases KeyedDict.ext _ _ hdeals
  cases KeyedDict.ext _ _ horders
  rfl

theorem forall_mem_snoc {α : Type} {P : α → Prop} {l : List α} {a : α} (h : ∀ x ∈ l, P x)
    (ha : P a) : ∀ x ∈ l ++ [a], P x := by
  intro x hx
  rcases List.mem_append.mp hx with hx | hx
  · exact h x hx
  · rw [List.mem_singleton.mp hx]
    exact ha

theorem orderDeal_snoc (db : LedgerDb) (row : DealRow) (r : OrderRow) (h : r ∈ db.orders.items) :
    r.dealId ∈ (db.deals.items ++ [row]).map DealRow.id := by
  rw [List.map_append]
  exact List.mem_append_left _ (db.orderDeal r h)

/-- `INSERT INTO deals` -/
def insertDeal (db : LedgerDb) (row : DealRow) : Except IntegrityError LedgerDb :=
  if hid : row.id ∈ db.deals.items.map DealRow.id then .error (.unique "deals.id")
  else if huser : row.userId ∈ db.users then
    .ok
      { db with
        deals := db.deals.append row hid
        dealUser := forall_mem_snoc db.dealUser huser
        orderDeal := db.orderDeal_snoc row }
  else .error .foreignKey

/-- `INSERT INTO orders` -/
def insertOrder (db : LedgerDb) (row : OrderRow) : Except IntegrityError LedgerDb :=
  if hid : row.id ∈ db.orders.items.map OrderRow.id then .error (.unique "orders.id")
  else if href : row.userId ∈ db.users ∧ row.dealId ∈ db.deals.items.map DealRow.id then
    .ok
      { db with
        orders := db.orders.append row hid
        orderUser := forall_mem_snoc db.orderUser href.1
        orderDeal := forall_mem_snoc db.orderDeal href.2 }
  else .error .foreignKey

theorem insertDeal_eq (db db' : LedgerDb) (row : DealRow) (h : db.insertDeal row = .ok db') :
    row.id ∉ db.dealIds ∧ row.userId ∈ db.users ∧ db'.users = db.users ∧
      db'.deals.items = db.deals.items ++ [row] ∧ db'.orders.items = db.orders.items := by
  unfold insertDeal at h
  split at h
  · cases h
  · rename_i hid
    split at h
    · rename_i huser
      cases h
      exact ⟨hid, huser, rfl, rfl, rfl⟩
    · cases h

theorem insertDeal_ok (db : LedgerDb) (row : DealRow) (hid : row.id ∉ db.dealIds)
    (huser : row.userId ∈ db.users) : ∃ db', db.insertDeal row = .ok db' :=
  ⟨_, (dif_neg hid).trans (dif_pos huser)⟩

theorem insertOrder_eq (db db' : LedgerDb) (row : OrderRow) (h : db.insertOrder row = .ok db') :
    row.id ∉ db.orderIds ∧ row.userId ∈ db.users ∧ row.dealId ∈ db.dealIds ∧
      db'.users = db.users ∧ db'.deals.items = db.deals.items ∧
      db'.orders.items = db.orders.items ++ [row] := by
  unfold insertOrder at h
  split at h
  · cases h
  · rename_i hid
    split at h
    · rename_i href
      cases h
      exact ⟨hid, href.1, href.2, rfl, rfl, rfl⟩
    · cases h

theorem insertOrder_ok (db : LedgerDb) (row : OrderRow) (hid : row.id ∉ db.orderIds)
    (href : row.userId ∈ db.users ∧ row.dealId ∈ db.dealIds) :
    ∃ db', db.insertOrder row = .ok db' :=
  ⟨_, (dif_neg hid).trans (dif_pos href)⟩

/-- `INSERT OR IGNORE INTO deals`: a taken id is skipped, a missing user is an error. -/
def insertOrIgnoreDeal (db : LedgerDb) (row : DealRow) : Except IntegrityError LedgerDb :=
  if row.id ∈ db.dealIds then .ok db else db.insertDeal row

/-- `INSERT OR IGNORE INTO orders` -/
def insertOrIgnoreOrder (db : LedgerDb) (row : OrderRow) : Except IntegrityError LedgerDb :=
  if row.id ∈ db.orderIds then .ok db else db.insertOrder row

/-- A statement `UPDATE deals` that keeps the key columns. -/
structure DealUpdate where
  set : DealRow → DealRow
  id : ∀ r, (set r).id = r.id
  userId : ∀ r, (set r).userId = r.userId

theorem dealUser_update (db : LedgerDb) (u : DealUpdate) :
    ∀ r ∈ db.deals.items.map u.set, r.userId ∈ db.users := by
  intro r hr
  obtain ⟨q, hq, rfl⟩ := List.mem_map.mp hr
  rw [u.userId]
  exact db.dealUser q hq

theorem orderDeal_update (db : LedgerDb) (u : DealUpdate) :
    ∀ r ∈ db.orders.items, r.dealId ∈ (db.deals.items.map u.set).map DealRow.id := by
  intro r hr
  rw [KeyedDict.map_key_map u.set u.id]
  exact db.orderDeal r hr

/-- `UPDATE deals SET ... WHERE ...` -/
def updateDeals (db : LedgerDb) (u : DealUpdate) : LedgerDb :=
  { db with
    deals := db.deals.mapValues u.set u.id
    dealUser := db.dealUser_update u
    orderDeal := db.orderDeal_update u }

@[simp] theorem updateDeals_deals (db : LedgerDb) (u : DealUpdate) :
    (db.updateDeals u).deals.items = db.deals.items.map u.set := rfl

end LedgerDb

/-- `id = ? AND user_id = ? AND bot_slug = ?` -/
def DealRow.Matches (o : LedgerOwner) (dealId : String) (r : DealRow) : Prop :=
  r.id = dealId ∧ r.userId = o.userId ∧ r.botSlug = o.botSlug

instance (o : LedgerOwner) (dealId : String) (r : DealRow) : Decidable (r.Matches o dealId) :=
  inferInstanceAs (Decidable (_ ∧ _ ∧ _))

theorem dealRowTuple_id (o : LedgerOwner) (d : PaperDeal) (r : DealRow) :
    (if r.Matches o d.id then dealRowTuple o d else r).id = r.id := by
  split
  · rename_i h
    exact h.1.symm
  · rfl

theorem dealRowTuple_userId (o : LedgerOwner) (d : PaperDeal) (r : DealRow) :
    (if r.Matches o d.id then dealRowTuple o d else r).userId = r.userId := by
  split
  · rename_i h
    exact h.2.1.symm
  · rfl

/-- `_UPDATE_DEAL_SQL` -/
def updateDealSql (o : LedgerOwner) (d : PaperDeal) : LedgerDb.DealUpdate where
  set r := if r.Matches o d.id then dealRowTuple o d else r
  id := dealRowTuple_id o d
  userId := dealRowTuple_userId o d

/-- What `close_deal` sets; `COALESCE(?, exit_trigger)`. -/
def DealRow.closeWith (r : DealRow) (closePrice : ℚ) (reason : CloseReason) (pnlBtc pnlPct : ℚ)
    (closedAt : Instant) (exitTrigger : Option ExitTrigger) : DealRow :=
  { r with
    status := .closed
    closePrice := some closePrice
    closeReason := some reason
    pnlBtc := pnlBtc
    pnlPct := pnlPct
    closedAt := some closedAt
    exitTrigger := exitTrigger <|> r.exitTrigger }

/-- A write of the store. -/
inductive StoreCall where
  | createDeal (deal : PaperDeal)
  | updateDeal (deal : PaperDeal)
  | saveDeal (deal : PaperDeal)
  | replayDealsInTransaction (deals : List PaperDeal)
  | saveOrder (order : PaperOrder) (dealId : String) (feeBtc : ℚ)
  | closeDeal (dealId : String) (closePrice : ℚ) (reason : CloseReason) (pnlBtc pnlPct : ℚ)
      (closedAt : Instant) (exitTrigger : Option ExitTrigger)
  deriving DecidableEq

/-- The answer of a call and the database it leaves. -/
abbrev StoreResult := Except IntegrityError ℕ × LedgerDb

/-- `with conn:` around a statement or a loop of them; an error rolls it back. -/
def transaction (db : LedgerDb) (result : ℕ) : Except IntegrityError LedgerDb → StoreResult
  | .ok db' => (.ok result, db')
  | .error e => (.error e, db)

namespace StoreCall

variable (o : LedgerOwner)

/-- `create_deal` -/
def createDealRun (d : PaperDeal) (db : LedgerDb) : StoreResult :=
  transaction db 0 (db.insertDeal (dealRowTuple o d))

/-- `update_deal`; the answer is the row count. -/
def updateDealRun (d : PaperDeal) (db : LedgerDb) : StoreResult :=
  (.ok (db.deals.items.countP fun r => r.Matches o d.id), db.updateDeals (updateDealSql o d))

/-- `save_deal` -/
def saveDealRun (d : PaperDeal) (db : LedgerDb) : StoreResult :=
  match updateDealRun o d db with
  | (.ok (_ + 1), db') => (.ok 0, db')
  | (_, db') => createDealRun o d db'

/-- The orders of one deal in `replay_deals_in_transaction`. -/
def replayOrders (d : PaperDeal) : List PaperOrder → LedgerDb → Except IntegrityError LedgerDb
  | [], db => .ok db
  | ord :: rest, db =>
    db.insertOrIgnoreOrder (orderRowTuple o d.id ord 0) >>= replayOrders d rest

/-- The loop of `replay_deals_in_transaction`. -/
def replayDeals : List PaperDeal → LedgerDb → Except IntegrityError LedgerDb
  | [], db => .ok db
  | d :: rest, db =>
    db.insertOrIgnoreDeal (dealRowTuple o d) >>= replayOrders o d d.orders >>= replayDeals rest

/-- `WHERE id = ? AND user_id = ?` of `close_deal`. -/
def closeDealSql (dealId : String) (closePrice : ℚ) (reason : CloseReason) (pnlBtc pnlPct : ℚ)
    (closedAt : Instant) (exitTrigger : Option ExitTrigger) : LedgerDb.DealUpdate where
  set r :=
    if r.id = dealId ∧ r.userId = o.userId then
      r.closeWith closePrice reason pnlBtc pnlPct closedAt exitTrigger
    else r
  id r := by split <;> rfl
  userId r := by split <;> rfl

/-- A call on behalf of a bot. -/
def run (db : LedgerDb) : StoreCall → StoreResult
  | .createDeal d => createDealRun o d db
  | .updateDeal d => updateDealRun o d db
  | .saveDeal d => saveDealRun o d db
  | .replayDealsInTransaction deals => transaction db deals.length (replayDeals o deals db)
  | .saveOrder ord dealId feeBtc =>
    transaction db 0 (db.insertOrder (orderRowTuple o dealId ord feeBtc))
  | .closeDeal dealId closePrice reason pnlBtc pnlPct closedAt exitTrigger =>
    (.ok 0, db.updateDeals
      (closeDealSql o dealId closePrice reason pnlBtc pnlPct closedAt exitTrigger))

/-! ### The engine's calls -/

/-- The call of the store behind a call of the engine or the close handler. -/
def ofLedgerCall : LedgerCall → StoreCall
  | .createDeal d => .createDeal d
  | .saveOrder ord dealId feeBtc => .saveOrder ord dealId feeBtc
  | .saveDeal d => .saveDeal d
  | .closeDeal dealId closePrice reason pnlBtc pnlPct closedAt exitTrigger =>
    .closeDeal dealId closePrice reason pnlBtc pnlPct closedAt (some exitTrigger)

theorem createDealRun_deals (d : PaperDeal) (db : LedgerDb) (huser : o.userId ∈ db.users) :
    (createDealRun o d db).2.deals.items =
      if db.deals.items.any fun r => r.id = d.id then db.deals.items
      else db.deals.items ++ [dealRowTuple o d] := by
  have hany : (db.deals.items.any fun r => r.id = d.id) = true ↔ (dealRowTuple o d).id ∈ db.dealIds := by
    simp [dealRowTuple, LedgerDb.dealIds]
  unfold createDealRun
  by_cases h : (dealRowTuple o d).id ∈ db.dealIds
  · rw [if_pos (hany.mpr h)]
    cases hinsert : db.insertDeal (dealRowTuple o d) with
    | error e => rfl
    | ok db' => exact absurd h (LedgerDb.insertDeal_eq db db' _ hinsert).1
  · rw [if_neg fun hc => h (hany.mp hc)]
    obtain ⟨db', hdb'⟩ := LedgerDb.insertDeal_ok db _ h huser
    rw [hdb']
    exact (LedgerDb.insertDeal_eq db db' _ hdb').2.2.2.1

theorem updateDealSql_none (d : PaperDeal) (db : LedgerDb)
    (h : (db.deals.items.countP fun r => r.Matches o d.id) = 0) :
    db.updateDeals (updateDealSql o d) = db := by
  refine LedgerDb.ext _ _ rfl ?_ rfl
  rw [LedgerDb.updateDeals_deals, ← List.map_id db.deals.items, List.map_map]
  refine List.map_congr_left fun r hr => ?_
  have hn := List.countP_eq_zero.mp h r hr
  exact if_neg (by simpa using hn)

theorem saveDealRun_deals (d : PaperDeal) (db : LedgerDb) (huser : o.userId ∈ db.users) :
    (saveDealRun o d db).2.deals.items = (LedgerCall.saveDeal d).apply o db.deals.items := by
  simp only [saveDealRun, updateDealRun, LedgerCall.apply]
  cases h : db.deals.items.countP fun r => r.Matches o d.id with
  | zero =>
    have hnone : (db.deals.items.any fun r =>
        r.id = d.id ∧ r.userId = o.userId ∧ r.botSlug = o.botSlug) = false := by
      rw [List.any_eq_false]
      intro r hr
      exact List.countP_eq_zero.mp h r hr
    rw [hnone, if_neg Bool.false_ne_true, updateDealSql_none o d db h]
    exact createDealRun_deals o d db huser
  | succ n =>
    have hsome : (db.deals.items.any fun r =>
        r.id = d.id ∧ r.userId = o.userId ∧ r.botSlug = o.botSlug) = true := by
      have hpos : 0 < db.deals.items.countP fun r => r.Matches o d.id := by omega
      obtain ⟨r, hr, hm⟩ := List.countP_pos_iff.mp hpos
      exact List.any_eq_true.mpr ⟨r, hr, hm⟩
    rw [hsome, if_pos rfl]
    rfl

/-- On the rows of `deals` the store does what the engine's ledger calls do. -/
theorem run_ofLedgerCall (call : LedgerCall) (db : LedgerDb) (huser : o.userId ∈ db.users) :
    (run o db (ofLedgerCall call)).2.deals.items = call.apply o db.deals.items := by
  cases call with
  | createDeal d => exact createDealRun_deals o d db huser
  | saveOrder ord dealId feeBtc =>
    simp only [run, ofLedgerCall]
    cases h : db.insertOrder (orderRowTuple o dealId ord feeBtc) with
    | error e => rfl
    | ok db' => exact (LedgerDb.insertOrder_eq db db' _ h).2.2.2.2.1
  | saveDeal d => exact saveDealRun_deals o d db huser
  | closeDeal dealId closePrice reason pnlBtc pnlPct closedAt exitTrigger => rfl

end StoreCall

end Reverto

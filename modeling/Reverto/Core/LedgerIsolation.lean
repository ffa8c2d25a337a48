import Mathlib.Tactic
import Reverto.Core.LedgerTables

/-!
# Isolation of the bots in the ledger (core/deal_store.py)

A row belongs to the user and the bot in its own columns. A call is isolated when it
leaves the rows of all other bots as they are and adds no order under their deals.
-/

namespace Reverto

/-- The order is one of this bot. -/
def OrderRow.OwnedBy (r : OrderRow) (o : LedgerOwner) : Prop :=
  r.userId = o.userId ∧ r.botSlug = o.botSlug

instance (r : OrderRow) (o : LedgerOwner) : Decidable (r.OwnedBy o) :=
  inferInstanceAs (Decidable (_ ∧ _))

namespace LedgerDb

variable (o : LedgerOwner)

/-- The rows of `deals` that belong to other bots. -/
def othersDeals (db : LedgerDb) : List DealRow := db.deals.items.filter fun r => ¬ r.OwnedBy o

/-- The rows of `orders` that belong to other bots. -/
def othersOrders (db : LedgerDb) : List OrderRow := db.orders.items.filter fun r => ¬ r.OwnedBy o

/-- From `db` to `db'` nothing of other bots changes, and no order comes under their deals. -/
structure Isolated (db db' : LedgerDb) : Prop where
  deals : db'.othersDeals o = db.othersDeals o
  orders : db'.othersOrders o = db.othersOrders o
  parents : ∀ r ∈ db'.orders.items, r ∉ db.orders.items →
    ∀ d ∈ db'.deals.items, d.id = r.dealId → d.OwnedBy o

theorem isolated_refl (db : LedgerDb) : Isolated o db db :=
  ⟨rfl, rfl, fun _ hr hn => absurd hr hn⟩

/-! ### Single statements -/

theorem orderRowTuple_ownedBy (dealId : String) (ord : PaperOrder) (feeBtc : ℚ) :
    (orderRowTuple o dealId ord feeBtc).OwnedBy o := ⟨rfl, rfl⟩

theorem filter_snoc_owned {α : Type} (p : α → Prop) [DecidablePred p] (l : List α) (a : α)
    (h : p a) : ((l ++ [a]).filter fun x => ¬ p x) = l.filter fun x => ¬ p x := by
  rw [List.filter_append]
  simp [h]

/-- An inserted deal of the bot touches nothing of the others. -/
theorem isolated_insertDeal (db db' : LedgerDb) (row : DealRow) (hrow : row.OwnedBy o)
    (h : db.insertDeal row = .ok db') : Isolated o db db' := by
  obtain ⟨-, -, -, hdeals, horders⟩ := insertDeal_eq db db' row h
  refine ⟨?_, ?_, ?_⟩
  · rw [othersDeals, hdeals]
    exact filter_snoc_owned (fun r : DealRow => r.OwnedBy o) _ _ hrow
  · rw [othersOrders, horders, othersOrders]
  · intro r hr hn
    rw [horders] at hr
    exact absurd hr hn

theorem othersDeals_updateDeals (db : LedgerDb) (u : DealUpdate)
    (hslug : ∀ r, (u.set r).botSlug = r.botSlug) :
    (db.updateDeals u).othersDeals o = (db.othersDeals o).map u.set := by
  rw [othersDeals, updateDeals_deals, othersDeals, List.filter_map]
  congr 1
  apply List.filter_congr
  intro r _
  have hiff : (u.set r).OwnedBy o ↔ r.OwnedBy o := by
    rw [DealRow.OwnedBy, DealRow.OwnedBy, u.userId, hslug]
  exact decide_eq_decide.mpr (not_congr hiff)

/-- An update is isolated exactly when it keeps the rows of other bots. -/
theorem isolated_updateDeals_iff (db : LedgerDb) (u : DealUpdate)
    (hslug : ∀ r, (u.set r).botSlug = r.botSlug) :
    Isolated o db (db.updateDeals u) ↔ ∀ r ∈ db.deals.items, r.OwnedBy o ∨ u.set r = r := by
  constructor
  · intro h r hr
    by_cases hown : r.OwnedBy o
    · exact Or.inl hown
    · right
      have hmem : r ∈ db.othersDeals o := by
        rw [othersDeals, List.mem_filter]
        exact ⟨hr, by simpa using hown⟩
      have hmap : (db.othersDeals o).map u.set = (db.othersDeals o).map id := by
        rw [List.map_id, ← othersDeals_updateDeals o db u hslug, h.deals]
      exact List.map_inj_left.mp hmap r hmem
  · intro h
    refine ⟨?_, rfl, fun r hr hn => absurd hr hn⟩
    have hmap : (db.othersDeals o).map u.set = (db.othersDeals o).map id := by
      refine List.map_inj_left.mpr fun r hr => ?_
      rw [othersDeals, List.mem_filter] at hr
      have hown : ¬ r.OwnedBy o := by simpa using hr.2
      exact (h r hr.1).resolve_left hown
    rw [othersDeals_updateDeals o db u hslug, hmap, List.map_id]

/-! ### The order ids -/

theorem colon_notMem_toString (n : ℕ) : ':' ∉ (toString n).toList := by
  intro h
  have hdigits : (toString n).toList = Nat.toDigits 10 n := by
    simp [toString, Nat.repr]
  rw [hdigits] at h
  have hdigit := Nat.isDigit_of_mem_toDigits (by decide) (by decide) h
  revert hdigit
  decide

theorem eq_of_append_sep {α : Type} (a : α) (x y z w : List α) (hz : a ∉ z) (hw : a ∉ w)
    (h : x ++ a :: z = y ++ a :: w) : x = y := by
  induction x generalizing y with
  | nil =>
    cases y with
    | nil => rfl
    | cons b y =>
      obtain ⟨-, htail⟩ := List.cons.inj h
      exact absurd (by rw [htail]; simp) hz
  | cons c x ih =>
    cases y with
    | nil =>
      obtain ⟨-, htail⟩ := List.cons.inj h
      exact absurd (by rw [← htail]; simp) hw
    | cons b y =>
      obtain ⟨hhead, htail⟩ := List.cons.inj h
      rw [hhead, ih y htail]

/-- An order id names its deal. -/
theorem orderId_deal (dealId dealId' : String) (n n' : ℕ)
    (h : orderId dealId n = orderId dealId' n') : dealId = dealId' := by
  have hlist : dealId.toList ++ ':' :: (toString n).toList =
      dealId'.toList ++ ':' :: (toString n').toList := by
    have h' := congrArg String.toList h
    simpa [orderId] using h'
  exact String.toList_inj.mp
    (eq_of_append_sep ':' _ _ _ _ (colon_notMem_toString n) (colon_notMem_toString n') hlist)

/-! ### The replay -/

/-- From `db₀` to `db` rows of the bot were added, and every order in `sent` (a deal id
and an order number) has a row. -/
structure Grown (db₀ db : LedgerDb) (sent : List (String × ℕ)) : Prop where
  users : db.users = db₀.users
  deals : ∃ new, db.deals.items = db₀.deals.items ++ new ∧ ∀ r ∈ new, r.OwnedBy o
  orders : ∃ new, db.orders.items = db₀.orders.items ++ new ∧
    ∀ r ∈ new, r.OwnedBy o ∧ (r.dealId, r.orderNumber) ∈ sent ∧
      r.id = orderId r.dealId r.orderNumber
  covered : ∀ p ∈ sent, orderId p.1 p.2 ∈ db.orderIds

theorem grown_refl (db : LedgerDb) : Grown o db db [] where
  users := rfl
  deals := ⟨[], (List.append_nil _).symm, by simp⟩
  orders := ⟨[], (List.append_nil _).symm, by simp⟩
  covered := by simp

theorem grown_insertDeal (db₀ db : LedgerDb) (sent : List (String × ℕ)) (d : PaperDeal)
    (huser : o.userId ∈ db₀.users) (h : Grown o db₀ db sent) :
    ∃ db', db.insertOrIgnoreDeal (dealRowTuple o d) = .ok db' ∧ Grown o db₀ db' sent ∧
      d.id ∈ db'.dealIds := by
  unfold insertOrIgnoreDeal
  by_cases hid : (dealRowTuple o d).id ∈ db.dealIds
  · rw [if_pos hid]
    exact ⟨db, rfl, h, hid⟩
  · rw [if_neg hid]
    have hknown : (dealRowTuple o d).userId ∈ db.users := by
      rw [h.users]
      exact huser
    obtain ⟨db', hdb'⟩ := insertDeal_ok db (dealRowTuple o d) hid hknown
    obtain ⟨-, -, husers, hdeals, horders⟩ := insertDeal_eq db db' _ hdb'
    refine ⟨db', hdb', ⟨husers.trans h.users, ?_, ?_, ?_⟩, ?_⟩
    · obtain ⟨new, hnew, hown⟩ := h.deals
      refine ⟨new ++ [dealRowTuple o d], ?_, ?_⟩
      · rw [hdeals, hnew, List.append_assoc]
      · exact forall_mem_snoc hown (dealRowTuple_ownedBy o d)
    · rw [horders]
      exact h.orders
    · intro p hp
      rw [orderIds, horders]
      exact h.covered p hp
    · rw [dealIds, hdeals, List.map_append]
      exact List.mem_append_right _ (List.mem_singleton.mpr rfl)

theorem grown_insertOrder (db₀ db : LedgerDb) (sent : List (String × ℕ)) (dealId : String)
    (ord : PaperOrder) (huser : o.userId ∈ db₀.users) (h : Grown o db₀ db sent)
    (hdeal : dealId ∈ db.dealIds) :
    ∃ db', db.insertOrIgnoreOrder (orderRowTuple o dealId ord 0) = .ok db' ∧
      Grown o db₀ db' (sent ++ [(dealId, ord.orderNumber)]) ∧ dealId ∈ db'.dealIds := by
  have hmem : ∀ p ∈ sent, p ∈ sent ++ [(dealId, ord.orderNumber)] :=
    fun p hp => List.mem_append_left _ hp
  unfold insertOrIgnoreOrder
  by_cases hid : (orderRowTuple o dealId ord 0).id ∈ db.orderIds
  · rw [if_pos hid]
    refine ⟨db, rfl, ⟨h.users, h.deals, ?_, ?_⟩, hdeal⟩
    · obtain ⟨new, hnew, hrows⟩ := h.orders
      exact ⟨new, hnew, fun r hr => ⟨(hrows r hr).1, hmem _ (hrows r hr).2.1, (hrows r hr).2.2⟩⟩
    · exact forall_mem_snoc h.covered hid
  · rw [if_neg hid]
    have href : (orderRowTuple o dealId ord 0).userId ∈ db.users ∧
        (orderRowTuple o dealId ord 0).dealId ∈ db.deals.items.map DealRow.id := by
      refine ⟨?_, hdeal⟩
      rw [h.users]
      exact huser
    obtain ⟨db', hdb'⟩ := insertOrder_ok db (orderRowTuple o dealId ord 0) hid href
    obtain ⟨-, -, -, husers, hdeals, horders⟩ := insertOrder_eq db db' _ hdb'
    refine ⟨db', hdb', ⟨husers.trans h.users, ?_, ?_, ?_⟩, ?_⟩
    · rw [hdeals]
      exact h.deals
    · obtain ⟨new, hnew, hrows⟩ := h.orders
      refine ⟨new ++ [orderRowTuple o dealId ord 0], ?_, ?_⟩
      · rw [horders, hnew, List.append_assoc]
      · refine forall_mem_snoc
          (fun r hr => ⟨(hrows r hr).1, hmem _ (hrows r hr).2.1, (hrows r hr).2.2⟩) ?_
        exact ⟨orderRowTuple_ownedBy o dealId ord 0,
          List.mem_append_right _ (List.mem_singleton.mpr rfl), rfl⟩
    · rw [orderIds, horders, List.map_append]
      refine forall_mem_snoc (fun p hp => List.mem_append_left _ (h.covered p hp)) ?_
      exact List.mem_append_right _ (List.mem_singleton.mpr rfl)
    · rw [dealIds, hdeals]
      exact hdeal

/-- The orders that a replay sends. -/
def sentOrders (d : PaperDeal) : List (String × ℕ) := d.orders.map fun ord => (d.id, ord.orderNumber)

theorem grown_replayOrders (db₀ db : LedgerDb) (sent : List (String × ℕ)) (d : PaperDeal)
    (ords : List PaperOrder) (huser : o.userId ∈ db₀.users) (h : Grown o db₀ db sent)
    (hdeal : d.id ∈ db.dealIds) :
    ∃ db', StoreCall.replayOrders o d ords db = .ok db' ∧
      Grown o db₀ db' (sent ++ ords.map fun ord => (d.id, ord.orderNumber)) := by
  induction ords generalizing db sent with
  | nil =>
    refine ⟨db, rfl, ?_⟩
    rw [List.map_nil, List.append_nil]
    exact h
  | cons ord rest ih =>
    obtain ⟨db₁, hdb₁, hgrown, hdeal₁⟩ := grown_insertOrder o db₀ db sent d.id ord huser h hdeal
    obtain ⟨db₂, hdb₂, hlast⟩ := ih db₁ _ hgrown hdeal₁
    refine ⟨db₂, ?_, ?_⟩
    · rw [StoreCall.replayOrders, hdb₁]
      exact hdb₂
    · simpa only [List.map_cons, List.append_assoc, List.singleton_append] using hlast

theorem grown_replayDeals (db₀ db : LedgerDb) (sent : List (String × ℕ)) (deals : List PaperDeal)
    (huser : o.userId ∈ db₀.users) (h : Grown o db₀ db sent) :
    ∃ db', StoreCall.replayDeals o deals db = .ok db' ∧
      Grown o db₀ db' (sent ++ deals.flatMap sentOrders) := by
  induction deals generalizing db sent with
  | nil =>
    refine ⟨db, rfl, ?_⟩
    rw [List.flatMap_nil, List.append_nil]
    exact h
  | cons d rest ih =>
    obtain ⟨db₁, hdb₁, hgrown, hdeal⟩ := grown_insertDeal o db₀ db sent d huser h
    obtain ⟨db₂, hdb₂, hgrown₂⟩ := grown_replayOrders o db₀ db₁ sent d d.orders huser hgrown hdeal
    obtain ⟨db₃, hdb₃, hlast⟩ := ih db₂ _ hgrown₂
    refine ⟨db₃, ?_, ?_⟩
    · rw [StoreCall.replayDeals, hdb₁]
      show StoreCall.replayOrders o d d.orders db₁ >>= StoreCall.replayDeals o rest = _
      rw [hdb₂]
      exact hdb₃
    · simpa only [List.flatMap_cons, List.append_assoc, sentOrders] using hlast

/-- A new order row has a new id. -/
theorem id_notMem_of_new {db₀ db : LedgerDb} {new : List OrderRow}
    (h : db.orders.items = db₀.orders.items ++ new) : ∀ r ∈ new, r.id ∉ db₀.orderIds := by
  have hnodup := db.orders.nodup
  rw [h, List.map_append, List.nodup_append] at hnodup
  intro r hr hold
  exact hnodup.2.2 _ hold _ (List.mem_map_of_mem hr) rfl

/-- A replay is isolated exactly when it sends no new order under a deal of another bot. -/
theorem isolated_grown_iff (db₀ db : LedgerDb) (sent : List (String × ℕ))
    (h : Grown o db₀ db sent) :
    Isolated o db₀ db ↔ ∀ p ∈ sent, ∀ r ∈ db₀.deals.items, r.id = p.1 →
      r.OwnedBy o ∨ orderId p.1 p.2 ∈ db₀.orderIds := by
  obtain ⟨newDeals, hdeals, hownDeals⟩ := h.deals
  obtain ⟨newOrders, horders, hnew⟩ := h.orders
  have hfresh := id_notMem_of_new horders
  constructor
  · intro hiso p hp r hr hid
    by_cases hold : orderId p.1 p.2 ∈ db₀.orderIds
    · exact Or.inr hold
    · left
      obtain ⟨q, hq, hqid⟩ := List.mem_map.mp (h.covered p hp)
      have hqnew : q ∈ newOrders := by
        rw [horders] at hq
        rcases List.mem_append.mp hq with hq | hq
        · exact absurd (hqid ▸ List.mem_map_of_mem hq) hold
        · exact hq
      have hqold : q ∉ db₀.orders.items := fun hmem => hfresh q hqnew (List.mem_map_of_mem hmem)
      have hdeal : p.1 = q.dealId := by
        refine orderId_deal p.1 q.dealId p.2 q.orderNumber ?_
        rw [← (hnew q hqnew).2.2, hqid]
      refine hiso.parents q hq hqold r ?_ (hid.trans hdeal)
      rw [hdeals]
      exact List.mem_append_left _ hr
  · intro hcond
    refine ⟨?_, ?_, ?_⟩
    · have hnone : newDeals.filter (fun r => ¬ r.OwnedBy o) = [] := by
        rw [List.filter_eq_nil_iff]
        intro r hr
        simpa using hownDeals r hr
      rw [othersDeals, hdeals, List.filter_append, hnone, List.append_nil, othersDeals]
    · have hnone : newOrders.filter (fun r => ¬ r.OwnedBy o) = [] := by
        rw [List.filter_eq_nil_iff]
        intro r hr
        simpa using (hnew r hr).1
      rw [othersOrders, horders, List.filter_append, hnone, List.append_nil, othersOrders]
    · intro q hq hqold d hd hid
      have hqnew : q ∈ newOrders := by
        rw [horders] at hq
        exact (List.mem_append.mp hq).resolve_left hqold
      rw [hdeals] at hd
      rcases List.mem_append.mp hd with hd | hd
      · rcases hcond _ (hnew q hqnew).2.1 d hd hid with hown | hold
        · exact hown
        · rw [← (hnew q hqnew).2.2] at hold
          exact absurd hold (hfresh q hqnew)
      · exact hownDeals d hd

/-! ### A user that is not in the table -/

theorem insertOrIgnoreDeal_unknown (db db' : LedgerDb) (row : DealRow)
    (huser : row.userId ∉ db.users) (h : db.insertOrIgnoreDeal row = .ok db') : db' = db := by
  unfold insertOrIgnoreDeal at h
  split at h
  · cases h
    rfl
  · exact absurd (insertDeal_eq db db' row h).2.1 huser

theorem insertOrIgnoreOrder_unknown (db db' : LedgerDb) (row : OrderRow)
    (huser : row.userId ∉ db.users) (h : db.insertOrIgnoreOrder row = .ok db') : db' = db := by
  unfold insertOrIgnoreOrder at h
  split at h
  · cases h
    rfl
  · exact absurd (insertOrder_eq db db' row h).2.1 huser

theorem replayOrders_unknown (d : PaperDeal) (ords : List PaperOrder) (db db' : LedgerDb)
    (huser : o.userId ∉ db.users) (h : StoreCall.replayOrders o d ords db = .ok db') :
    db' = db := by
  induction ords with
  | nil =>
    cases h
    rfl
  | cons ord rest ih =>
    rw [StoreCall.replayOrders] at h
    cases hone : db.insertOrIgnoreOrder (orderRowTuple o d.id ord 0) with
    | error e =>
      rw [hone] at h
      cases h
    | ok db₁ =>
      cases insertOrIgnoreOrder_unknown db db₁ _ huser hone
      rw [hone] at h
      exact ih h

theorem replayDeals_unknown (deals : List PaperDeal) (db db' : LedgerDb)
    (huser : o.userId ∉ db.users) (h : StoreCall.replayDeals o deals db = .ok db') : db' = db := by
  induction deals with
  | nil =>
    cases h
    rfl
  | cons d rest ih =>
    rw [StoreCall.replayDeals] at h
    cases hone : db.insertOrIgnoreDeal (dealRowTuple o d) with
    | error e =>
      rw [hone] at h
      cases h
    | ok db₁ =>
      cases insertOrIgnoreDeal_unknown db db₁ _ huser hone
      rw [hone] at h
      replace h : StoreCall.replayOrders o d d.orders db >>= StoreCall.replayDeals o rest =
        .ok db' := h
      cases htwo : StoreCall.replayOrders o d d.orders db with
      | error e =>
        rw [htwo] at h
        cases h
      | ok db₂ =>
        cases replayOrders_unknown o d d.orders db db₂ huser htwo
        rw [htwo] at h
        exact ih h

end LedgerDb

namespace StoreCall

open LedgerDb

variable (o : LedgerOwner)

/-! ### Every call -/

/-- The deals the call names are not another bot's, as far as the call writes under them. -/
def KeepsToOwn (db : LedgerDb) : StoreCall → Prop
  | .createDeal _ => True
  | .updateDeal _ => True
  | .saveDeal _ => True
  | .replayDealsInTransaction deals =>
    o.userId ∈ db.users → ∀ d ∈ deals, ∀ ord ∈ d.orders, ∀ r ∈ db.deals.items, r.id = d.id →
      r.OwnedBy o ∨ orderId d.id ord.orderNumber ∈ db.orderIds
  | .saveOrder ord dealId _ =>
    o.userId ∈ db.users → ∀ r ∈ db.deals.items, r.id = dealId →
      r.OwnedBy o ∨ orderId dealId ord.orderNumber ∈ db.orderIds
  | .closeDeal dealId closePrice reason pnlBtc pnlPct closedAt exitTrigger =>
    ∀ r ∈ db.deals.items, r.id = dealId → r.userId = o.userId →
      r.OwnedBy o ∨ r = r.closeWith closePrice reason pnlBtc pnlPct closedAt exitTrigger

theorem isolated_createDeal (d : PaperDeal) (db : LedgerDb) :
    Isolated o db (createDealRun o d db).2 := by
  unfold createDealRun
  cases h : db.insertDeal (dealRowTuple o d) with
  | error e => exact isolated_refl o db
  | ok db' => exact isolated_insertDeal o db db' _ (dealRowTuple_ownedBy o d) h

theorem updateDealSql_slug (d : PaperDeal) (r : DealRow) :
    ((updateDealSql o d).set r).botSlug = r.botSlug := by
  show (if r.Matches o d.id then dealRowTuple o d else r).botSlug = r.botSlug
  split
  · rename_i h
    exact h.2.2.symm
  · rfl

theorem isolated_updateDeal (d : PaperDeal) (db : LedgerDb) :
    Isolated o db (db.updateDeals (updateDealSql o d)) := by
  rw [isolated_updateDeals_iff o db _ (updateDealSql_slug o d)]
  intro r _
  by_cases h : r.Matches o d.id
  · exact Or.inl h.2
  · exact Or.inr (if_neg h)

theorem isolated_saveDeal (d : PaperDeal) (db : LedgerDb) :
    Isolated o db (saveDealRun o d db).2 := by
  unfold saveDealRun updateDealRun
  cases h : db.deals.items.countP fun r => r.Matches o d.id with
  | zero =>
    rw [updateDealSql_none o d db h]
    exact isolated_createDeal o d db
  | succ n => exact isolated_updateDeal o d db

theorem isolated_replay_iff (deals : List PaperDeal) (db : LedgerDb) :
    Isolated o db (run o db (.replayDealsInTransaction deals)).2 ↔
      KeepsToOwn o db (.replayDealsInTransaction deals) := by
  simp only [run, KeepsToOwn]
  by_cases huser : o.userId ∈ db.users
  · obtain ⟨db', hdb', hgrown⟩ := grown_replayDeals o db db [] deals huser (grown_refl o db)
    rw [hdb', List.nil_append] at *
    simp only [transaction, huser, true_imp_iff]
    rw [isolated_grown_iff o db db' _ hgrown]
    simp only [List.mem_flatMap, sentOrders, List.mem_map]
    constructor
    · intro h d hd ord hord r hr hid
      exact h (d.id, ord.orderNumber) ⟨d, hd, ord, hord, rfl⟩ r hr hid
    · rintro h p ⟨d, hd, ord, hord, rfl⟩ r hr hid
      exact h d hd ord hord r hr hid
  · refine iff_of_true ?_ fun h => absurd h huser
    cases h : replayDeals o deals db with
    | error e => exact isolated_refl o db
    | ok db' =>
      cases replayDeals_unknown o deals db db' huser h
      exact isolated_refl o db

theorem isolated_saveOrder_iff (ord : PaperOrder) (dealId : String) (feeBtc : ℚ) (db : LedgerDb) :
    Isolated o db (run o db (.saveOrder ord dealId feeBtc)).2 ↔
      KeepsToOwn o db (.saveOrder ord dealId feeBtc) := by
  simp only [run, KeepsToOwn]
  cases h : db.insertOrder (orderRowTuple o dealId ord feeBtc) with
  | error e =>
    refine iff_of_true (isolated_refl o db) ?_
    intro huser r hr hid
    by_cases hold : orderId dealId ord.orderNumber ∈ db.orderIds
    · exact Or.inr hold
    · have hdeal : dealId ∈ db.dealIds := hid ▸ List.mem_map_of_mem hr
      obtain ⟨db', hdb'⟩ := insertOrder_ok db (orderRowTuple o dealId ord feeBtc) hold ⟨huser, hdeal⟩
      rw [h] at hdb'
      cases hdb'
  | ok db' =>
    obtain ⟨hid, huser, -, husers, hdeals, horders⟩ := insertOrder_eq db db' _ h
    have hgrown : Grown o db db' [(dealId, ord.orderNumber)] := by
      refine ⟨husers, ⟨[], ?_, by simp⟩, ⟨[orderRowTuple o dealId ord feeBtc], horders, ?_⟩, ?_⟩
      · rw [hdeals, List.append_nil]
      · intro r hr
        rw [List.mem_singleton.mp hr]
        exact ⟨orderRowTuple_ownedBy o dealId ord feeBtc, List.mem_singleton.mpr rfl, rfl⟩
      · intro p hp
        rw [List.mem_singleton.mp hp, orderIds, horders, List.map_append]
        exact List.mem_append_right _ (List.mem_singleton.mpr rfl)
    show Isolated o db db' ↔ _
    rw [isolated_grown_iff o db db' _ hgrown]
    have hknown : o.userId ∈ db.users := huser
    simp only [List.mem_singleton, forall_eq, hknown, true_imp_iff]

theorem isolated_closeDeal_iff (dealId : String) (closePrice : ℚ) (reason : CloseReason)
    (pnlBtc pnlPct : ℚ) (closedAt : Instant) (exitTrigger : Option ExitTrigger) (db : LedgerDb) :
    Isolated o db
        (run o db (.closeDeal dealId closePrice reason pnlBtc pnlPct closedAt exitTrigger)).2 ↔
      KeepsToOwn o db (.closeDeal dealId closePrice reason pnlBtc pnlPct closedAt exitTrigger) := by
  have hslug : ∀ r, ((closeDealSql o dealId closePrice reason pnlBtc pnlPct closedAt
      exitTrigger).set r).botSlug = r.botSlug := by
    intro r
    simp only [closeDealSql]
    split
    · rfl
    · rfl
  simp only [run, KeepsToOwn]
  rw [isolated_updateDeals_iff o db _ hslug]
  refine forall₂_congr fun r _ => ?_
  simp only [closeDealSql]
  by_cases h : r.id = dealId ∧ r.userId = o.userId
  · simp only [h.1, h.2, true_imp_iff]
    exact or_congr_right eq_comm
  · simp only [if_neg h, or_true, true_iff]
    intro hid huser
    exact absurd ⟨hid, huser⟩ h

/-- A call is isolated exactly when, unless the user is unknown, it places no new order
under a deal of another bot, and it closes no deal of another bot of the user, unless
that deal already holds the values written. -/
theorem isolated_iff (db : LedgerDb) (call : StoreCall) :
    Isolated o db (run o db call).2 ↔ KeepsToOwn o db call := by
  cases call with
  | createDeal d => exact iff_of_true (isolated_createDeal o d db) trivial
  | updateDeal d => exact iff_of_true (isolated_updateDeal o d db) trivial
  | saveDeal d => exact iff_of_true (isolated_saveDeal o d db) trivial
  | replayDealsInTransaction deals => exact isolated_replay_iff o deals db
  | saveOrder ord dealId feeBtc => exact isolated_saveOrder_iff o ord dealId feeBtc db
  | closeDeal dealId closePrice reason pnlBtc pnlPct closedAt exitTrigger =>
    exact isolated_closeDeal_iff o dealId closePrice reason pnlBtc pnlPct closedAt exitTrigger db

/-- A deal of the first bot. -/
def firstDeal : PaperDeal where
  id := "202604191342-0001"
  botName := "A"
  symbol := "BTC/USD"
  side := .long
  leverage := 1
  orders := [⟨1, 80000, 1, 0, .base⟩]
  openedAt := 0

/-- The ledger once the first bot of user 1 has opened its deal. -/
def firstLedger : LedgerDb where
  users := [1]
  deals := KeyedDict.ofList [dealRowTuple ⟨1, "bot_a", "A"⟩ firstDeal]
  orders := KeyedDict.empty
  dealUser := by decide +kernel
  orderUser := by decide +kernel
  orderDeal := by decide +kernel

/-- The second bot of the user closes the first bot's deal. -/
theorem not_isolated_closeDeal :
    ¬ ∀ (o : LedgerOwner) (db : LedgerDb) (call : StoreCall), Isolated o db (run o db call).2 := by
  intro h
  have hdeals := (h ⟨1, "bot_b", "B"⟩ firstLedger
    (.closeDeal "202604191342-0001" 1 .manual 0 0 0 none)).deals
  revert hdeals
  decide +kernel

end StoreCall

end Reverto

/-
# `RechargeRuns` — an order is credited once

Callbacks, users and jobs call the functions of `Recharge` in any order and any
number of times, and a completion may be suspended between its read and its
transaction for as long as it takes.  `RechargeChange` says what one step can
do to the tables: it leaves balances and logs alone and moves orders along
`Moves`, or it credits one order that is on its way into `completed`.

`recharge_credited_once` is about every run from an empty order table: balances
are what the logs say, an order has at most one log, the log is there exactly
if the order is completed and is not above its face value; a balance changes in
no step but one in which an order enters `completed`; and `completed` and
`failed` are final.
-/
import Mathlib.Tactic.Linarith
import Mathlib.Tactic.NormNum
import Mathlib.Tactic.Push
import Incudal.Recharge
import Incudal.Lib.Machine

namespace Incudal

structure RechargeWorld where
  now : Time
  db : RechargeDb
  /-- completions between their read and their transaction -/
  completing : List Completion := []

inductive RechargeEvent
  | advance (now : Time)
  | createOrder (input : CreateRechargeOrderInput)
  | markPaid (orderNo : String) (tradeNo : Option String)
  | startComplete (orderNo : String) (data : CompleteData)
  | commitComplete (completion : Completion)
  | abortComplete (completion : Completion)
  | fail (orderNo failReason : String) (paymentDetails : Option RechargePaymentDetails)
  | cancel (orderNo : String) (paymentDetails : Option RechargePaymentDetails)
  | updateMetadata (orderNo : String) (tradeNo : Option (Option String))
      (paymentDetails : Option RechargePaymentDetails)
  | expireOrders (orderNos : List String)
  | cleanExpired
deriving DecidableEq, Repr

namespace RechargeWorld

variable (w : RechargeWorld)

/-- A transaction that is rolled back leaves the tables as they were. -/
def apply (result : Except RechargeError RechargeDb) : RechargeWorld :=
  match result with
  | .ok db => { w with db }
  | .error _ => w

end RechargeWorld

def rechargeStep (w : RechargeWorld) : RechargeEvent → Option RechargeWorld
  | .advance now => if w.now ≤ now then some { w with now } else none
  | .createOrder input => some (w.apply (createRechargeOrder w.db w.now input))
  | .markPaid orderNo tradeNo => some (w.apply (markRechargePaid w.db orderNo tradeNo))
  | .startComplete orderNo data =>
      match startComplete w.db orderNo data with
      | .ok (some completion) => some { w with completing := completion :: w.completing }
      | .ok none => some w
      | .error _ => some w
  | .commitComplete completion =>
      if completion ∈ w.completing then
        some ({ w with completing := w.completing.erase completion }.apply
          (commitComplete w.db completion))
      else none
  | .abortComplete completion =>
      if completion ∈ w.completing then
        some { w with completing := w.completing.erase completion }
      else none
  | .fail orderNo failReason paymentDetails =>
      some (w.apply (failRecharge w.db orderNo failReason paymentDetails))
  | .cancel orderNo paymentDetails => some (w.apply (cancelRecharge w.db orderNo paymentDetails))
  | .updateMetadata orderNo tradeNo paymentDetails =>
      some (w.apply (updateRechargeOrderMetadata w.db orderNo tradeNo paymentDetails))
  | .expireOrders orderNos => some { w with db := expireOrders w.db orderNos }
  | .cleanExpired => some { w with db := cleanExpiredRechargeOrders w.db w.now }

/-! ## The amount that is credited -/

section Amounts

variable {value : ℚ} {c : Cents}

theorem near_cents (h : isValidRechargeAmount value = true) :
    0 < value ∧ |value - ofCents (toCents value)| < 1 / 1000000000 := by
  simp only [isValidRechargeAmount, decide_eq_true_eq] at h
  exact ⟨h.1, h.2.2⟩

/-- The amount that is credited is not negative and not above the order's. -/
theorem validateRechargeActualAmount_le {amount : Cents}
    (h : validateRechargeActualAmount value (ofCents amount) = .ok c) : 0 ≤ c ∧ c ≤ amount := by
  simp only [validateRechargeActualAmount] at h
  split at h
  · cases h
  · rename_i hvalid
    simp only [Bool.or_eq_true, Bool.not_eq_true', not_or, Bool.not_eq_false] at hvalid
    split at h
    · cases h
    · rename_i hle
      obtain rfl := Except.ok.inj h
      obtain ⟨hpos, hnear⟩ := near_cents hvalid.2
      obtain ⟨hlow, hhigh⟩ := abs_lt.mp hnear
      simp only [ofCents] at hlow hhigh hle
      push Not at hle
      constructor
      · have hgt : (-1 : ℚ) < (toCents value : ℚ) := by linarith
        exact Int.lt_iff_add_one_le.mp (by exact_mod_cast hgt)
      · have hlt : (toCents value : ℚ) < (amount : ℚ) + 1 := by linarith
        exact Int.lt_add_one_iff.mp (by exact_mod_cast hlt)

theorem resolveActualAmount_le {record : RechargeRecord} {requested : Option ℚ}
    (h : resolveActualAmount record requested = .ok c) : 0 ≤ c ∧ c ≤ record.amount :=
  validateRechargeActualAmount_le h

end Amounts

/-! ## What one step can do -/

section Changes

variable {db db' : RechargeDb} {n : String} {r r' : RechargeRecord}

/-- What a step that credits nobody may do to an order. -/
structure RechargeRecord.Moves (r r' : RechargeRecord) : Prop where
  orderNo : r'.orderNo = r.orderNo
  userId : r'.userId = r.userId
  amount : r'.amount = r.amount
  status : r'.status = r.status ∨
    (r.status.open = true ∧ r'.status ≠ .completed)

theorem RechargeRecord.Moves.refl (r : RechargeRecord) : r.Moves r := ⟨rfl, rfl, rfl, .inl rfl⟩

/-- Every order moves, and the orders that are new are pending. -/
structure OrdersMove (db db' : RechargeDb) : Prop where
  keys : (db.orders.map RechargeRecord.orderNo).Nodup →
    (db'.orders.map RechargeRecord.orderNo).Nodup
  moved : ∀ n r, db.find n = some r → ∃ r', db'.find n = some r' ∧ r.Moves r'
  new : ∀ n r', db'.find n = some r' → db.find n = none → r'.status = .pending

/-- What one step can do to the tables. -/
inductive RechargeChange (w : RechargeWorld) (db' : RechargeDb) : Prop
  | moved (balances : db'.balances = w.db.balances) (logs : db'.logs = w.db.logs)
      (orders : OrdersMove w.db db')
  | credited {c : Completion} {r : RechargeRecord} (begun : c ∈ w.completing)
      (found : w.db.find c.record.orderNo = some r) (status : r.status.completable = true)
      (after : db' = (w.db.rewrite c.record.orderNo c.complete).credit c)

theorem OrdersMove.refl (db : RechargeDb) : OrdersMove db db :=
  ⟨id, fun _ r h => ⟨r, h, .refl r⟩, fun _ _ h h' => by simp [h] at h'⟩

/-- Rewriting one order along `Moves` moves the orders. -/
theorem ordersMove_rewrite {f : RechargeRecord → RechargeRecord} (hr : db.find n = some r)
    (hkey : ∀ r, (f r).orderNo = r.orderNo) (hf : r.Moves (f r)) :
    OrdersMove db (db.rewrite n f) := by
  refine ⟨fun hn => ?_, fun m s hs => ?_, fun m s hs hnone => ?_⟩
  · show ((Keyed.modify RechargeRecord.orderNo n f db.orders).map RechargeRecord.orderNo).Nodup
    rwa [Keyed.map_key_modify hkey]
  · by_cases hm : m = n
    · subst hm
      obtain rfl := Option.some.inj (hr.symm.trans hs)
      exact ⟨f r, Keyed.lookup_modify_self hkey hr, hf⟩
    · exact ⟨s, (Keyed.lookup_modify_of_ne hkey hm).trans hs, .refl s⟩
  · by_cases hm : m = n
    · subst hm
      rw [hr] at hnone
      cases hnone
    · have hold : db.find m = some s := (Keyed.lookup_modify_of_ne hkey hm).symm.trans hs
      rw [hold] at hnone
      cases hnone

theorem ordersMove_expire (p : RechargeRecord → Bool) : OrdersMove db (db.expire p) := by
  have hkey : ∀ r : RechargeRecord, (if (p r && r.status == .pending) = true then
      { r with status := .cancelled } else r).orderNo = r.orderNo := by
    intro r
    split <;> rfl
  have hfind : ∀ m, (db.expire p).find m = (db.find m).map fun r =>
      if p r && r.status == .pending then { r with status := .cancelled } else r :=
    fun m => Keyed.lookup_map hkey
  refine ⟨fun hn => ?_, fun m s hs => ?_, fun m s hs hnone => ?_⟩
  · have hkeys : (db.expire p).orders.map RechargeRecord.orderNo =
        db.orders.map RechargeRecord.orderNo := by
      simp only [RechargeDb.expire, List.map_map]
      exact List.map_congr_left fun r _ => hkey r
    exact hkeys ▸ hn
  · refine ⟨_, by rw [hfind, hs]; rfl, ?_⟩
    show s.Moves (if (p s && s.status == .pending) = true then { s with status := .cancelled } else s)
    split
    · rename_i hp
      simp only [Bool.and_eq_true, beq_iff_eq] at hp
      exact ⟨rfl, rfl, rfl, .inr ⟨by rw [hp.2]; rfl, by simp⟩⟩
    · exact .refl s
  · rw [hfind, hnone] at hs
    cases hs

/-- A guarded update moves its order, if it writes a status that the guard does
not have to protect. -/
theorem guardedUpdate_moves {idle : List RechargeStatus} {f : RechargeRecord → RechargeRecord}
    (hkey : ∀ r, (f r).orderNo = r.orderNo)
    (hf : ∀ r : RechargeRecord, r.status.open = true → r.Moves (f r))
    (h : guardedUpdate db n idle f = .ok db') :
    db'.balances = db.balances ∧ db'.logs = db.logs ∧ OrdersMove db db' := by
  simp only [guardedUpdate] at h
  cases hr : db.find n with
  | none => simp [hr] at h
  | some r =>
      simp only [hr] at h
      split at h
      · rename_i hopen
        obtain rfl := Except.ok.inj h
        exact ⟨rfl, rfl, ordersMove_rewrite hr hkey (hf r hopen)⟩
      · split at h
        · obtain rfl := Except.ok.inj h
          exact ⟨rfl, rfl, .refl db⟩
        · cases h

/-- A new order is pending and has a new number. -/
theorem createRechargeOrder_eq {now : Time} {input : CreateRechargeOrderInput}
    (h : createRechargeOrder db now input = .ok db') :
    ∃ new : RechargeRecord, db.find new.orderNo = none ∧ new.status = .pending ∧
      db' = { db with orders := db.orders ++ [new] } := by
  simp only [createRechargeOrder] at h
  split at h
  · cases h
  · split at h
    · cases h
    · split at h
      · cases h
      · rename_i hfresh
        obtain rfl := Except.ok.inj h
        exact ⟨_, by simpa using hfresh, rfl, rfl⟩

theorem find_append {new : RechargeRecord} (hfresh : db.find new.orderNo = none) (n : String) :
    ({ db with orders := db.orders ++ [new] } : RechargeDb).find n =
      if new.orderNo = n then some new else db.find n :=
  Keyed.lookup_append_singleton (Keyed.lookup_eq_none_iff.mp hfresh)

theorem find_append_of_some {new : RechargeRecord} (hfresh : db.find new.orderNo = none)
    (hr : db.find n = some r) :
    ({ db with orders := db.orders ++ [new] } : RechargeDb).find n = some r := by
  rw [find_append hfresh, if_neg, hr]
  rintro rfl
  rw [hfresh] at hr
  cases hr

theorem createRechargeOrder_moves {now : Time} {input : CreateRechargeOrderInput}
    (h : createRechargeOrder db now input = .ok db') :
    db'.balances = db.balances ∧ db'.logs = db.logs ∧ OrdersMove db db' := by
  obtain ⟨new, hfresh, hpending, rfl⟩ := createRechargeOrder_eq h
  refine ⟨rfl, rfl, fun hn => Keyed.nodup_append_singleton hn (Keyed.lookup_eq_none_iff.mp hfresh),
    fun m s hs => ⟨s, find_append_of_some hfresh hs, .refl s⟩, fun m s hs hm => ?_⟩
  rw [find_append hfresh] at hs
  split at hs
  · obtain rfl := Option.some.inj hs
    exact hpending
  · exact absurd (hm.symm.trans hs) (by simp)

theorem startComplete_eq {data : CompleteData} {c : Completion}
    (h : startComplete db n data = .ok (some c)) :
    db.find n = some c.record ∧ c.record.orderNo = n ∧ 0 ≤ c.actualAmount ∧
      c.actualAmount ≤ c.record.amount ∧ c.data = data := by
  simp only [startComplete] at h
  cases hr : db.find n with
  | none => simp [hr] at h
  | some r =>
      simp only [hr] at h
      split at h
      · simp at h
      · split at h
        · cases h
        · split at h
          · cases h
          · rename_i hactual
            simp only [Except.ok.injEq, Option.some.injEq] at h
            subst h
            obtain ⟨hpos, hle⟩ := resolveActualAmount_le hactual
            exact ⟨rfl, (Keyed.mem_of_lookup hr).2, hpos, hle, rfl⟩

theorem completed_of_startComplete {data : CompleteData}
    (h : startComplete db n data = .ok none) : ∃ r, db.find n = some r ∧ r.status = .completed := by
  simp only [startComplete] at h
  cases hr : db.find n with
  | none => simp [hr] at h
  | some r =>
      simp only [hr] at h
      split at h
      · rename_i hcompleted
        exact ⟨r, rfl, hcompleted⟩
      · split at h
        · cases h
        · split at h
          · cases h
          · simp at h

/-- A transaction that commits finds its order completed or completes it. -/
theorem commitComplete_eq {c : Completion} (h : commitComplete db c = .ok db') :
    ∃ r, db.find c.record.orderNo = some r ∧
      ((r.status.completable = true ∧ db' = (db.rewrite c.record.orderNo c.complete).credit c) ∨
        (r.status = .completed ∧ db' = db)) := by
  simp only [commitComplete] at h
  cases hr : db.find c.record.orderNo with
  | none => simp [hr] at h
  | some r =>
      simp only [hr] at h
      split at h
      · rename_i hstatus
        exact ⟨r, rfl, .inl ⟨hstatus, (Except.ok.inj h).symm⟩⟩
      · split at h
        · rename_i hcompleted
          exact ⟨r, rfl, .inr ⟨hcompleted, (Except.ok.inj h).symm⟩⟩
        · cases h

variable {w w' : RechargeWorld}

@[simp] theorem apply_completing (result : Except RechargeError RechargeDb) :
    (w.apply result).completing = w.completing := by
  cases result <;> rfl

theorem change_apply {result : Except RechargeError RechargeDb}
    (h : ∀ db', result = .ok db' → RechargeChange w db') :
    RechargeChange w (w.apply result).db := by
  cases result with
  | ok db => exact h db rfl
  | error e => exact .moved rfl rfl (.refl w.db)

theorem change_of_moves {result : Except RechargeError RechargeDb}
    (h : ∀ db', result = .ok db' → db'.balances = w.db.balances ∧ db'.logs = w.db.logs ∧
      OrdersMove w.db db') : RechargeChange w (w.apply result).db :=
  change_apply fun db' hdb' => .moved (h db' hdb').1 (h db' hdb').2.1 (h db' hdb').2.2

/-- What a step does to the tables, and where its completions come from. -/
theorem rechargeChange_of_step {event : RechargeEvent} (hs : rechargeStep w event = some w') :
    RechargeChange w w'.db ∧
    ∀ c ∈ w'.completing, c ∈ w.completing ∨
      (w'.db = w.db ∧ ∃ n data, startComplete w.db n data = .ok (some c)) := by
  have hsame : RechargeChange w w.db := .moved rfl rfl (.refl w.db)
  cases event with
  | advance now =>
      simp only [rechargeStep] at hs
      split at hs
      · obtain rfl := Option.some.inj hs
        exact ⟨hsame, fun c hc => .inl hc⟩
      · cases hs
  | createOrder input =>
      obtain rfl := Option.some.inj hs
      exact ⟨change_of_moves fun _ => createRechargeOrder_moves, fun c hc => .inl (by simpa using hc)⟩
  | markPaid n tradeNo =>
      obtain rfl := Option.some.inj hs
      refine ⟨change_of_moves fun _ => guardedUpdate_moves (fun _ => rfl) fun r hr => ?_,
        fun c hc => .inl (by simpa using hc)⟩
      exact ⟨rfl, rfl, rfl, .inr ⟨hr, by simp⟩⟩
  | startComplete n data =>
      simp only [rechargeStep] at hs
      split at hs
      · rename_i completion hstart
        obtain rfl := Option.some.inj hs
        refine ⟨hsame, fun c hc => ?_⟩
        rcases List.mem_cons.mp hc with rfl | hc
        · exact .inr ⟨rfl, n, data, hstart⟩
        · exact .inl hc
      · obtain rfl := Option.some.inj hs
        exact ⟨hsame, fun c hc => .inl hc⟩
      · obtain rfl := Option.some.inj hs
        exact ⟨hsame, fun c hc => .inl hc⟩
  | commitComplete completion =>
      simp only [rechargeStep] at hs
      split at hs
      · rename_i hmem
        obtain rfl := Option.some.inj hs
        refine ⟨?_, fun c hc => .inl (List.mem_of_mem_erase (by simpa using hc))⟩
        cases hdb' : commitComplete w.db completion with
        | error e => exact hsame
        | ok db' =>
            show RechargeChange w db'
            obtain ⟨r, hr, ⟨hstatus, hafter⟩ | ⟨-, rfl⟩⟩ := commitComplete_eq hdb'
            · exact .credited hmem hr hstatus hafter
            · exact hsame
      · cases hs
  | abortComplete completion =>
      simp only [rechargeStep] at hs
      split at hs
      · obtain rfl := Option.some.inj hs
        exact ⟨hsame, fun c hc => .inl (List.mem_of_mem_erase hc)⟩
      · cases hs
  | fail n failReason paymentDetails =>
      obtain rfl := Option.some.inj hs
      refine ⟨change_of_moves fun _ => guardedUpdate_moves (fun _ => rfl) fun r hr => ?_,
        fun c hc => .inl (by simpa using hc)⟩
      exact ⟨rfl, rfl, rfl, .inr ⟨hr, by simp⟩⟩
  | cancel n paymentDetails =>
      obtain rfl := Option.some.inj hs
      refine ⟨change_of_moves fun _ => guardedUpdate_moves (fun _ => rfl) fun r hr => ?_,
        fun c hc => .inl (by simpa using hc)⟩
      exact ⟨rfl, rfl, rfl, .inr ⟨hr, by simp⟩⟩
  | updateMetadata n tradeNo paymentDetails =>
      obtain rfl := Option.some.inj hs
      refine ⟨change_of_moves fun db' hdb' => ?_, fun c hc => .inl (by simpa using hc)⟩
      simp only [updateRechargeOrderMetadata] at hdb'
      split at hdb'
      · cases hdb'
      · rename_i r hr
        obtain rfl := Except.ok.inj hdb'
        exact ⟨rfl, rfl, ordersMove_rewrite hr (fun _ => rfl) ⟨rfl, rfl, rfl, .inl rfl⟩⟩
  | expireOrders orderNos =>
      obtain rfl := Option.some.inj hs
      exact ⟨.moved rfl rfl (ordersMove_expire _), fun c hc => .inl hc⟩
  | cleanExpired =>
      obtain rfl := Option.some.inj hs
      exact ⟨.moved rfl rfl (ordersMove_expire _), fun c hc => .inl hc⟩

end Changes

/-! ## Runs -/

section Runs

variable {start : ℕ → Units} {w w' : RechargeWorld} {n : String} {r : RechargeRecord}

/-- What the logs have credited to a user. -/
def creditedTo (userId : ℕ) (logs : List RechargeLog) : Units :=
  Keyed.total (fun l => if l.userId = userId then toUnits l.amount else 0) logs

/-- The log is that of an order that is completed, to its user, not above its face value. -/
def RechargeDb.Justifies (db : RechargeDb) (l : RechargeLog) : Prop :=
  ∃ r, db.find l.orderId = some r ∧ r.status = .completed ∧ r.userId = l.userId ∧
    0 ≤ l.amount ∧ l.amount ≤ r.amount

structure RechargeInv (start : ℕ → Units) (w : RechargeWorld) : Prop where
  keys : (w.db.orders.map RechargeRecord.orderNo).Nodup
  balances : ∀ u, w.db.balances u = start u + creditedTo u w.db.logs
  once : (w.db.logs.map RechargeLog.orderId).Nodup
  justified : ∀ l ∈ w.db.logs, w.db.Justifies l
  credited : ∀ n r, w.db.find n = some r → r.status = .completed → ∃ l ∈ w.db.logs, l.orderId = n
  /-- a suspended completion knows its order, whatever has become of it -/
  completing : ∀ c ∈ w.completing, 0 ≤ c.actualAmount ∧ c.actualAmount ≤ c.record.amount ∧
    ∃ r, w.db.find c.record.orderNo = some r ∧ r.userId = c.record.userId ∧
      r.amount = c.record.amount

theorem RechargeRecord.Moves.final {r r' : RechargeRecord} (h : r.Moves r')
    (hopen : r.status.open = false) : r'.status = r.status := by
  rcases h.status with hsame | ⟨hr, -⟩
  · exact hsame
  · rw [hopen] at hr
    cases hr

theorem RechargeRecord.Moves.completed {r r' : RechargeRecord} (h : r.Moves r') :
    r'.status = .completed ↔ r.status = .completed := by
  refine ⟨fun hr' => ?_, fun hr => (h.final (by rw [hr]; rfl)).trans hr⟩
  rcases h.status with hsame | ⟨-, hne⟩
  · exact hsame ▸ hr'
  · exact absurd hr' hne

theorem find_complete {c : Completion} (hr : w.db.find c.record.orderNo = some r) :
    ((w.db.rewrite c.record.orderNo c.complete).credit c).find c.record.orderNo =
      some (c.complete r) :=
  Keyed.lookup_modify_self (fun _ => rfl) hr

theorem find_complete_of_ne {c : Completion} (hn : n ≠ c.record.orderNo) :
    ((w.db.rewrite c.record.orderNo c.complete).credit c).find n = w.db.find n :=
  Keyed.lookup_modify_of_ne (fun _ => rfl) hn

/-- Orders are never lost and keep their user and their face value. -/
theorem RechargeChange.find (h : RechargeChange w w'.db) (hr : w.db.find n = some r) :
    ∃ r', w'.db.find n = some r' ∧ r'.userId = r.userId ∧ r'.amount = r.amount := by
  cases h with
  | moved _ _ orders =>
      obtain ⟨r', hr', hmove⟩ := orders.moved n r hr
      exact ⟨r', hr', hmove.userId, hmove.amount⟩
  | credited begun found status after =>
      rename_i c r₀
      by_cases hn : n = c.record.orderNo
      · subst hn
        obtain rfl := Option.some.inj (found.symm.trans hr)
        exact ⟨c.complete r₀, by rw [after]; exact find_complete found, rfl, rfl⟩
      · exact ⟨r, by rw [after]; exact (find_complete_of_ne hn).trans hr, rfl, rfl⟩

/-- An order that no guarded update accepts keeps its status, unless it is completed. -/
theorem RechargeChange.status (h : RechargeChange w w'.db) (hr : w.db.find n = some r)
    (hfinal : r.status.completable = false) :
    ∃ r', w'.db.find n = some r' ∧ r'.status = r.status := by
  have hopen : r.status.open = false := by
    revert hfinal
    cases r.status <;> simp [RechargeStatus.completable, RechargeStatus.open]
  cases h with
  | moved _ _ orders =>
      obtain ⟨r', hr', hmove⟩ := orders.moved n r hr
      exact ⟨r', hr', hmove.final hopen⟩
  | credited begun found status after =>
      rename_i c r₀
      have hn : n ≠ c.record.orderNo := by
        rintro rfl
        obtain rfl := Option.some.inj (found.symm.trans hr)
        rw [hfinal] at status
        cases status
      exact ⟨r, by rw [after]; exact (find_complete_of_ne hn).trans hr, rfl⟩

theorem RechargeInv.completing_step (hw : RechargeInv start w) (h : RechargeChange w w'.db)
    (hc : ∀ c ∈ w'.completing, c ∈ w.completing ∨
      (w'.db = w.db ∧ ∃ n data, startComplete w.db n data = .ok (some c))) :
    ∀ c ∈ w'.completing, 0 ≤ c.actualAmount ∧ c.actualAmount ≤ c.record.amount ∧
      ∃ r, w'.db.find c.record.orderNo = some r ∧ r.userId = c.record.userId ∧
        r.amount = c.record.amount := by
  intro c hmem
  rcases hc c hmem with hold | ⟨hdb, n, data, hstart⟩
  · obtain ⟨hpos, hle, r, hr, huser, hamount⟩ := hw.completing c hold
    obtain ⟨r', hr', huser', hamount'⟩ := h.find hr
    exact ⟨hpos, hle, r', hr', huser'.trans huser, hamount'.trans hamount⟩
  · obtain ⟨hr, rfl, hpos, hle, -⟩ := startComplete_eq hstart
    exact ⟨hpos, hle, c.record, hdb ▸ hr, rfl, rfl⟩

/-- Nothing has been credited for an order that can be completed. -/
theorem RechargeInv.uncredited (hw : RechargeInv start w) (hr : w.db.find n = some r)
    (hstatus : r.status.completable = true) : ∀ l ∈ w.db.logs, l.orderId ≠ n := by
  rintro l hl rfl
  obtain ⟨r', hr', hcompleted, -⟩ := hw.justified l hl
  obtain rfl := Option.some.inj (hr.symm.trans hr')
  rw [hcompleted] at hstatus
  cases hstatus

theorem RechargeInv.moved (hw : RechargeInv start w) {db' : RechargeDb}
    (hbalances : db'.balances = w.db.balances) (hlogs : db'.logs = w.db.logs)
    (h : OrdersMove w.db db')
    (hc : ∀ c ∈ w'.completing, 0 ≤ c.actualAmount ∧ c.actualAmount ≤ c.record.amount ∧
      ∃ r, w'.db.find c.record.orderNo = some r ∧ r.userId = c.record.userId ∧
        r.amount = c.record.amount) (hdb : w'.db = db') : RechargeInv start w' := by
  subst hdb
  refine ⟨h.keys hw.keys, fun u => ?_, ?_, fun l hl => ?_, fun n r' hr' hcompleted => ?_, hc⟩
  · rw [hbalances, hlogs]
    exact hw.balances u
  · exact hlogs ▸ hw.once
  · obtain ⟨r, hr, hcompleted, huser, hpos, hle⟩ := hw.justified l (hlogs ▸ hl)
    obtain ⟨r', hr', hmove⟩ := h.moved _ r hr
    exact ⟨r', hr', hmove.completed.mpr hcompleted, hmove.userId.trans huser, hpos,
      hmove.amount ▸ hle⟩
  · rw [hlogs]
    cases hr : w.db.find n with
    | none => exact absurd ((h.new n r' hr' hr).symm.trans hcompleted) (by simp)
    | some r =>
        obtain ⟨r'', hr'', hmove⟩ := h.moved n r hr
        obtain rfl := Option.some.inj (hr'.symm.trans hr'')
        exact hw.credited n r hr (hmove.completed.mp hcompleted)

theorem RechargeInv.commit (hw : RechargeInv start w) {c : Completion} (hmem : c ∈ w.completing)
    (hr : w.db.find c.record.orderNo = some r) (hstatus : r.status.completable = true)
    (hc : ∀ c ∈ w'.completing, 0 ≤ c.actualAmount ∧ c.actualAmount ≤ c.record.amount ∧
      ∃ r, w'.db.find c.record.orderNo = some r ∧ r.userId = c.record.userId ∧
        r.amount = c.record.amount)
    (hdb : w'.db = (w.db.rewrite c.record.orderNo c.complete).credit c) : RechargeInv start w' := by
  obtain ⟨hpos, hle, r', hr', huser, hamount⟩ := hw.completing c hmem
  obtain rfl := Option.some.inj (hr.symm.trans hr')
  have hfresh := hw.uncredited hr hstatus
  have hfind := find_complete hr
  refine ⟨?_, fun u => ?_, ?_, fun l hl => ?_, fun n r' hr' hcompleted => ?_, hc⟩
  · rw [hdb]
    show ((Keyed.modify _ _ _ _).map RechargeRecord.orderNo).Nodup
    rw [Keyed.map_key_modify]
    · exact hw.keys
    · exact fun _ => rfl
  · rw [hdb]
    simp only [RechargeDb.credit, RechargeDb.rewrite, creditedTo, Keyed.total_cons]
    have hold := hw.balances u
    simp only [creditedTo] at hold
    by_cases hu : c.record.userId = u
    · subst hu
      rw [Function.update_self, if_pos rfl, hold]
      abel
    · rw [Function.update_of_ne (Ne.symm hu), if_neg hu, hold, zero_add]
  · rw [hdb]
    refine List.nodup_cons.mpr ⟨fun hin => ?_, hw.once⟩
    obtain ⟨l, hl, hid⟩ := List.mem_map.mp hin
    exact hfresh l hl hid
  · rw [hdb] at hl ⊢
    rcases List.mem_cons.mp hl with rfl | hl
    · exact ⟨c.complete r, hfind, rfl, huser, hpos, hamount ▸ hle⟩
    · obtain ⟨r', hr', hrest⟩ := hw.justified l hl
      exact ⟨r', (find_complete_of_ne (hfresh l hl)).trans hr', hrest⟩
  · rw [hdb] at hr' ⊢
    by_cases hn : n = c.record.orderNo
    · exact ⟨_, List.mem_cons_self, hn.symm⟩
    · obtain ⟨l, hl, hid⟩ :=
        hw.credited n r' ((find_complete_of_ne hn).symm.trans hr') hcompleted
      exact ⟨l, List.mem_cons_of_mem _ hl, hid⟩

theorem RechargeInv.step {event : RechargeEvent} (hw : RechargeInv start w)
    (hs : rechargeStep w event = some w') : RechargeInv start w' := by
  obtain ⟨hchange, hcompleting⟩ := rechargeChange_of_step hs
  have hc := hw.completing_step hchange hcompleting
  generalize hdb : w'.db = db' at hchange
  cases hchange with
  | moved balances logs orders => exact hw.moved balances logs orders hc hdb
  | credited begun found status after => exact hw.commit begun found status hc (hdb.trans after)

theorem RechargeInv.reach {now : Time}
    (h : Machine.Reach rechargeStep Machine.free ⟨now, { balances := start }, []⟩ w) :
    RechargeInv start w := by
  refine h.invariant (P := RechargeInv start) ?_ fun hw _ hs => hw.step hs
  exact ⟨List.nodup_nil, fun u => (add_zero _).symm, List.nodup_nil, by simp,
    by simp [RechargeDb.find, Keyed.lookup], by simp⟩

/-- The order is moved into `completed` and its user is credited with `c`. -/
structure Credits (w w' : RechargeWorld) (n : String) (c : Cents) : Prop where
  order : ∃ r r', w.db.find n = some r ∧ w'.db.find n = some r' ∧ r.status ≠ .completed ∧
    r'.status = .completed ∧ r'.actualAmount = some c ∧ 0 ≤ c ∧ c ≤ r.amount ∧
    w'.db.balances =
      Function.update w.db.balances r.userId (w.db.balances r.userId + toUnits c)
  log : ∃ l, w'.db.logs = l :: w.db.logs ∧ l.orderId = n ∧ l.amount = c

theorem RechargeInv.credits {event : RechargeEvent} (hw : RechargeInv start w)
    (hs : rechargeStep w event = some w') :
    (w'.db.balances = w.db.balances ∧ w'.db.logs = w.db.logs) ∨ ∃ n c, Credits w w' n c := by
  have hchange := (rechargeChange_of_step hs).1
  generalize hdb : w'.db = db' at hchange
  cases hchange with
  | moved balances logs orders => exact .inl ⟨balances, logs⟩
  | credited begun found status after =>
      rename_i c r
      obtain ⟨hpos, hle, r', hr', huser, hamount⟩ := hw.completing c begun
      obtain rfl := Option.some.inj (found.symm.trans hr')
      refine .inr ⟨c.record.orderNo, c.actualAmount, ⟨r, c.complete r, found, ?_, ?_, rfl, rfl,
        hpos, hamount ▸ hle, ?_⟩, ?_⟩
      · rw [hdb, after]
        exact find_complete found
      · intro hcompleted
        rw [hcompleted] at status
        cases status
      · rw [hdb, after, huser]
        rfl
      · rw [hdb, after]
        exact ⟨_, rfl, rfl, rfl⟩

/-- The headline: along every run an order is credited at most once, in the step
that completes it, by no more than its face value; and completed and failed
orders stay what they are. -/
theorem recharge_credited_once {now : Time}
    (h : Machine.Reach rechargeStep Machine.free ⟨now, { balances := start }, []⟩ w) :
    (∀ u, w.db.balances u = start u + creditedTo u w.db.logs) ∧
    (∀ n, (w.db.logs.filter fun l => l.orderId = n).length ≤ 1) ∧
    (∀ l ∈ w.db.logs, w.db.Justifies l) ∧
    (∀ n r, w.db.find n = some r → r.status = .completed → ∃ l ∈ w.db.logs, l.orderId = n) ∧
    (∀ event w', rechargeStep w event = some w' →
      (w'.db.balances = w.db.balances ∧ w'.db.logs = w.db.logs) ∨ ∃ n c, Credits w w' n c) ∧
    (∀ w', Machine.Reach rechargeStep Machine.free w w' → ∀ n r, w.db.find n = some r →
      r.status = .completed ∨ r.status = .failed →
      ∃ r', w'.db.find n = some r' ∧ r'.status = r.status) := by
  have hw := RechargeInv.reach h
  refine ⟨hw.balances, fun n => ?_, hw.justified, hw.credited, fun _ _ hs => hw.credits hs,
    fun w' hrun n r hr hfinal => ?_⟩
  · have hone : (w.db.logs.map RechargeLog.orderId).count n ≤ 1 :=
      List.nodup_iff_count_le_one.mp hw.once n
    rw [List.count_eq_countP, List.countP_map, List.countP_eq_length_filter] at hone
    refine le_trans (le_of_eq ?_) hone
    congr 2
  · refine hrun.invariant (P := fun v => ∃ r', v.db.find n = some r' ∧ r'.status = r.status)
      ⟨r, hr, rfl⟩ fun ⟨r', hr', hsame⟩ _ hs => ?_
    have hnot : r'.status.completable = false := by
      rw [hsame]
      rcases hfinal with h | h <;> rw [h] <;> rfl
    obtain ⟨r'', hr'', hsame'⟩ := (rechargeChange_of_step hs).1.status hr' hnot
    exact ⟨r'', hr'', hsame'.trans hsame⟩

end Runs

/-- A late payment revives an expired order; its callback comes twice, with
different amounts, and a failure notice after it. -/
def latePaymentRun : List RechargeEvent :=
  let order : RechargeRecord :=
    { orderNo := "R1", userId := 7, providerId := 1, amount := 1000, expiredAt := some 5 }
  let expired : RechargeRecord := { order with status := .cancelled }
  let first : Completion := ⟨expired, { tradeNo := some "T1", actualAmount := some (39 / 4) }, 975⟩
  let second : Completion := ⟨expired, { tradeNo := some "T1", actualAmount := some 10 }, 1000⟩
  [.createOrder ⟨"R1", 7, 1, 10, none, some 5, none⟩, .advance 6, .cleanExpired,
    .startComplete "R1" first.data, .startComplete "R1" second.data,
    .commitComplete first, .commitComplete second, .fail "R1" "late" none]

theorem latePaymentRun_db :
    (Machine.exec rechargeStep ⟨0, { balances := fun _ => 0 }, []⟩ latePaymentRun).map
        (fun w => (w.db.balances 7, w.db.logs.map fun l => (l.orderId, l.amount))) =
      some (975000000, [("R1", 975)]) := by
  decide +kernel

theorem recharge_credited_once_late :
    ∃ w, Machine.exec rechargeStep ⟨0, { balances := fun _ => 0 }, []⟩ latePaymentRun = some w ∧
      w.db.balances 7 = 975000000 ∧ (w.db.logs.filter fun l => l.orderId = "R1").length ≤ 1 := by
  obtain ⟨w, hexec, hw⟩ := Option.map_eq_some_iff.mp latePaymentRun_db
  exact ⟨w, hexec, (Prod.mk.inj hw).1,
    (recharge_credited_once (Machine.reach_of_exec hexec)).2.1 "R1"⟩

end Incudal
